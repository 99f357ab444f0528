import Kojacoord.Protocol.Encode
import Mathlib.Data.Nat.Bitwise

namespace Kojacoord
open RoundTrip Decode Nat

structure Position where
  x : Int32
  y : Int32
  z : Int32
deriving DecidableEq

namespace Position

def signExtend (half full field : Int64) : Int64 := if field ≥ half then field - full else field

def decodeLegacyPosition (val : UInt64) : Position :=
  let v := val.toInt64
  let x := (v >>> 38) &&& 0x3FFFFFF
  let y := (v >>> 26) &&& 0xFFF
  let z := v &&& 0x3FFFFFF
  { x := (signExtend 0x2000000 0x4000000 x).toInt32
    y := (signExtend 0x800 0x1000 y).toInt32
    z := (signExtend 0x2000000 0x4000000 z).toInt32 }

def encodeLegacyPosition (pos : Position) : Int64 :=
  (pos.x.toInt64 &&& 0x3FFFFFF) <<< 38 ||| (pos.y.toInt64 &&& 0xFFF) <<< 26 |||
    (pos.z.toInt64 &&& 0x3FFFFFF)

def decodeModernPosition (val : UInt64) : Position :=
  let v := val.toInt64
  let x := (v >>> 38) &&& 0x3FFFFFF
  let z := (v >>> 12) &&& 0x3FFFFFF
  let y := v &&& 0xFFF
  { x := (signExtend 0x2000000 0x4000000 x).toInt32
    y := (signExtend 0x800 0x1000 y).toInt32
    z := (signExtend 0x2000000 0x4000000 z).toInt32 }

def encodeModernPosition (pos : Position) : Int64 :=
  (pos.x.toInt64 &&& 0x3FFFFFF) <<< 38 ||| (pos.z.toInt64 &&& 0x3FFFFFF) <<< 12 |||
    (pos.y.toInt64 &&& 0xFFF)

/-- The implementations of `Encode` and `Decode` pack the same fields in the modern way. -/
def encode (pos : Position) : List UInt8 := Encode.i64 (encodeModernPosition pos)

def decode : Decoder Position := do
  return decodeModernPosition (← i64).toUInt64

theorem toNat_mask (v : BitVec 64) (h : k ≤ 64) :
    (v &&& BitVec.ofNat 64 (2 ^ k - 1)).toNat = v.toNat % 2 ^ k := by
  have hpow : 2 ^ k ≤ 2 ^ 64 := Nat.pow_le_pow_right (by decide) h
  rw [BitVec.toNat_and, BitVec.toNat_ofNat, Nat.mod_eq_of_lt (by omega),
    and_two_pow_sub_one_eq_mod]

theorem toNat_field (v : BitVec 64) (h : s + k ≤ 64) :
    (v.sshiftRight s &&& BitVec.ofNat 64 (2 ^ k - 1)).toNat = v.toNat / 2 ^ s % 2 ^ k := by
  rw [toNat_mask _ (by omega)]
  apply eq_of_testBit_eq
  intro i
  rw [testBit_mod_two_pow, testBit_mod_two_pow, testBit_div_two_pow]
  by_cases hi : i < k
  · have hlow := BitVec.getLsbD_sshiftRight v s i
    rw [if_pos (by omega), decide_eq_false (by omega : ¬64 ≤ i)] at hlow
    simpa [hi, BitVec.getLsbD, add_comm] using hlow
  · rw [decide_eq_false hi, Bool.false_and, Bool.false_and]

theorem or_fields (hb : b < 2 ^ m) (hc : c < 2 ^ n) :
    a <<< (m + n) ||| b <<< n ||| c = (a * 2 ^ m + b) * 2 ^ n + c := by
  have hhi : a <<< (m + n) ||| b <<< n = (a * 2 ^ m + b) <<< n := by
    rw [shiftLeft_add, ← shiftLeft_or_distrib, shiftLeft_eq a, mul_comm a,
      ← two_pow_add_eq_or_of_lt hb]
  rw [hhi, shiftLeft_eq, mul_comm, ← two_pow_add_eq_or_of_lt hc]

theorem toNat_emod (x : Int32) (h : k ≤ 64) :
    ((x.toInt64.toBitVec.toNat % 2 ^ k : Nat) : Int) = x.toInt % 2 ^ k := by
  have hwd : x.toInt = Int.bmod x.toInt64.toBitVec.toNat (2 ^ 64) := by
    rw [← Int32.toInt_toInt64]
    exact BitVec.toInt_eq_toNat_bmod _
  have hdvd : ((2 : Int) ^ k) ∣ ((2 ^ 64 : Nat) : Int) := by
    exact pow_dvd_pow 2 h
  rw [hwd, ← Int.emod_emod_of_dvd _ hdvd, Int.bmod_emod, Int.emod_emod_of_dvd _ hdvd]
  rfl

theorem toInt32_signExtend {half full field : Int64} {x : Int32} (hk : k < 31)
    (hhalf : half.toInt = 2 ^ k) (hfu : full.toInt = 2 ^ (k + 1))
    (hx : -2 ^ k ≤ x.toInt ∧ x.toInt < 2 ^ k)
    (hfld : field.toBitVec.toNat = x.toInt64.toBitVec.toNat % 2 ^ (k + 1)) :
    (signExtend half full field).toInt32 = x := by
  have hemod := toNat_emod x (k := k + 1) (by omega)
  have hpow : 2 ^ k ≤ 2 ^ 30 := Nat.pow_le_pow_right (by decide) (Nat.le_of_lt_succ hk)
  have hsm : (2 : Int) ^ k ≤ 2 ^ 30 := mod_cast hpow
  have hfld' : field.toInt = field.toBitVec.toNat := BitVec.toInt_eq_toNat_of_lt (by omega)
  have hle : half ≤ field ↔ half.toInt ≤ field.toInt := Int64.le_iff_toInt_le
  rw [hfld', hfld, hemod, hhalf] at hle
  rw [hfld, hemod] at hfld'
  rw [pow_succ] at hfu hle hfld'
  generalize (2 : Int) ^ k = h at *
  have hwd : x.toInt.bmod (2 ^ 64) = x.toInt := Int.bmod_eq_of_le (by omega) (by omega)
  have hint : x.toInt.bmod (2 ^ 32) = x.toInt := Int.bmod_eq_of_le (by omega) (by omega)
  apply Int32.toInt_inj.mp
  rw [Int64.toInt_toInt32, signExtend]
  by_cases hneg : x.toInt < 0
  · have hmod : x.toInt % (h * 2) = x.toInt + h * 2 := by
      rw [← Int.add_emod_right, Int.emod_eq_of_lt (by omega) (by omega)]
    rw [if_pos (hle.mpr (by omega)), Int64.toInt_sub, hfld', hfu, hmod, Int.add_sub_cancel,
      hwd, hint]
  · have hmod : x.toInt % (h * 2) = x.toInt := Int.emod_eq_of_lt (by omega) (by omega)
    rw [if_neg (mt hle.mp (by omega)), hfld', hmod, hint]

theorem toNat_pack (x a : BitVec 64) (h : m + n = 38) :
    ((x &&& .ofNat 64 (2 ^ 26 - 1)) <<< 38 ||| (a &&& .ofNat 64 (2 ^ m - 1)) <<< n |||
      (b &&& .ofNat 64 (2 ^ n - 1))).toNat =
      (x.toNat % 2 ^ 26 * 2 ^ m + a.toNat % 2 ^ m) * 2 ^ n + b.toNat % 2 ^ n := by
  have ha := Nat.mod_lt a.toNat (Nat.two_pow_pos m)
  have hb := Nat.mod_lt b.toNat (Nat.two_pow_pos n)
  have hmid : (a.toNat % 2 ^ m) <<< n < 2 ^ 64 := by
    rw [shiftLeft_eq]
    calc a.toNat % 2 ^ m * 2 ^ n < 2 ^ m * 2 ^ n :=
          Nat.mul_lt_mul_of_pos_right ha (Nat.two_pow_pos n)
      _ = 2 ^ 38 := by rw [← pow_add, h]
      _ ≤ 2 ^ 64 := by decide
  have hhi : (x.toNat % 2 ^ 26) <<< 38 < 2 ^ 64 := by
    omega
  rw [← or_fields ha hb, h, BitVec.toNat_or, BitVec.toNat_or, BitVec.toNat_shiftLeft,
    BitVec.toNat_shiftLeft, toNat_mask _ (by decide), toNat_mask _ (by omega),
    toNat_mask _ (by omega), mod_eq_of_lt hmid, mod_eq_of_lt hhi]

structure InRange (pos : Position) : Prop where
  x : -2 ^ 25 ≤ pos.x.toInt ∧ pos.x.toInt < 2 ^ 25
  y : -2 ^ 11 ≤ pos.y.toInt ∧ pos.y.toInt < 2 ^ 11
  z : -2 ^ 25 ≤ pos.z.toInt ∧ pos.z.toInt < 2 ^ 25

theorem decodeLegacy_encode (h : InRange pos) :
    decodeLegacyPosition (encodeLegacyPosition pos).toUInt64 = pos := by
  have hwd : (encodeLegacyPosition pos).toBitVec.toNat = _ :=
    toNat_pack pos.x.toInt64.toBitVec pos.y.toInt64.toBitVec
      (m := 12) (n := 26) rfl
  obtain ⟨x, y, z⟩ := pos
  generalize encodeLegacyPosition _ = v at hwd
  dsimp only at hwd
  have hx := toNat_field v.toBitVec (s := 38) (k := 26) (by decide)
  have hy := toNat_field v.toBitVec (s := 26) (k := 12) (by decide)
  have hz := toNat_mask v.toBitVec (k := 26) (by decide)
  rw [decodeLegacyPosition, Position.mk.injEq]
  exact ⟨toInt32_signExtend (k := 25) (by decide) rfl rfl h.x (hx.trans (by omega)),
    toInt32_signExtend (k := 11) (by decide) rfl rfl h.y (hy.trans (by omega)),
    toInt32_signExtend (k := 25) (by decide) rfl rfl h.z (hz.trans (by omega))⟩

theorem decodeModern_encode (h : InRange pos) :
    decodeModernPosition (encodeModernPosition pos).toUInt64 = pos := by
  have hwd : (encodeModernPosition pos).toBitVec.toNat = _ :=
    toNat_pack pos.x.toInt64.toBitVec pos.z.toInt64.toBitVec
      (m := 26) (n := 12) rfl
  obtain ⟨x, y, z⟩ := pos
  generalize encodeModernPosition _ = v at hwd
  dsimp only at hwd
  have hx := toNat_field v.toBitVec (s := 38) (k := 26) (by decide)
  have hz := toNat_field v.toBitVec (s := 12) (k := 26) (by decide)
  have hy := toNat_mask v.toBitVec (k := 12) (by decide)
  rw [decodeModernPosition, Position.mk.injEq]
  exact ⟨toInt32_signExtend (k := 25) (by decide) rfl rfl h.x (hx.trans (by omega)),
    toInt32_signExtend (k := 11) (by decide) rfl rfl h.y (hy.trans (by omega)),
    toInt32_signExtend (k := 25) (by decide) rfl rfl h.z (hz.trans (by omega))⟩

theorem reads_encode (h : InRange pos) : Reads decode (encode pos) pos := by
  apply (reads_i64 _).finish
  rw [decodeModern_encode h]
  exact .pure pos

def legacyToModern (word : Int64) : Int64 :=
  encodeModernPosition (decodeLegacyPosition word.toUInt64)

def modernToLegacy (word : Int64) : Int64 :=
  encodeLegacyPosition (decodeModernPosition word.toUInt64)

/-- Both layouts keep a position, so that one can be converted to the other and back, and neither
has one word for two positions. -/
theorem position_layouts (pos other : Position) (h : InRange pos) (h' : InRange other) :
    decodeLegacyPosition (encodeLegacyPosition pos).toUInt64 = pos ∧
      decodeModernPosition (encodeModernPosition pos).toUInt64 = pos ∧
      (∀ rest, decode (encode pos ++ rest) = .ok (pos, rest)) ∧
      modernToLegacy (legacyToModern (encodeLegacyPosition pos)) = encodeLegacyPosition pos ∧
      legacyToModern (modernToLegacy (encodeModernPosition pos)) = encodeModernPosition pos ∧
      (encodeLegacyPosition pos = encodeLegacyPosition other → pos = other) ∧
      (encodeModernPosition pos = encodeModernPosition other → pos = other) := by
  have hlegacy := decodeLegacy_encode h
  have hmodern := decodeModern_encode h
  refine ⟨hlegacy, hmodern, reads_encode h, ?_, ?_, ?_, ?_⟩
  · rw [modernToLegacy, legacyToModern, hlegacy, hmodern]
  · rw [legacyToModern, modernToLegacy, hmodern, hlegacy]
  · intro heq
    rw [← hlegacy, heq, decodeLegacy_encode h']
  · intro heq
    rw [← hmodern, heq, decodeModern_encode h']

theorem position_layouts_corner :
    decodeLegacyPosition (encodeLegacyPosition ⟨-33554432, -1, 33554431⟩).toUInt64 =
      ⟨-33554432, -1, 33554431⟩ :=
  (position_layouts ⟨-33554432, -1, 33554431⟩ ⟨0, 0, 0⟩ ⟨by decide, by decide, by decide⟩
    ⟨by decide, by decide, by decide⟩).1

end Position

end Kojacoord
