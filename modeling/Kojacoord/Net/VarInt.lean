import Kojacoord.Net.PacketIo
import Kojacoord.Net.StreamBytes
import Kojacoord.Protocol.Encode
import Mathlib.Data.Nat.Bitwise
import Mathlib.Tactic.IntervalCases

namespace Kojacoord
open Journal RoundTrip Nat

namespace VarInt
variable {v : UInt32}

theorem low_or_high (v : BitVec 32) :
    (v &&& 127#32) <<< s ||| (v >>> 7) <<< (s + 7) = v <<< s := by
  have hlow : ∀ k, (127#32).getLsbD k = decide (k < 7) := by
    intro k
    by_cases hk : k < 32
    · rw [BitVec.getLsbD_ofNat, decide_eq_true hk, Bool.true_and]
      exact testBit_two_pow_sub_one 7 k
    · rw [BitVec.getLsbD_of_ge _ _ (by omega), decide_eq_false (by omega)]
  ext i hi
  simp only [← BitVec.getLsbD_eq_getElem, BitVec.getLsbD_or, BitVec.getLsbD_shiftLeft,
    BitVec.getLsbD_and, BitVec.getLsbD_ushiftRight, hlow, hi, decide_true, Bool.true_and]
  by_cases hbel : i < s
  · simp [hbel, show i < s + 7 by omega]
  · by_cases hgro : i < s + 7
    · simp [hbel, hgro, show i - s < 7 by omega]
    · have hind : 7 + (i - (s + 7)) = i - s := by omega
      simp [hbel, hgro, show ¬i - s < 7 by omega, hind]

theorem group_or_rest (v : UInt32) (hi : i < 4) :
    (v &&& 0x7F) <<< (7 * UInt32.ofNat i) ||| (v >>> 7) <<< (7 * UInt32.ofNat (i + 1)) =
      v <<< (7 * UInt32.ofNat i) := by
  apply UInt32.eq_of_toBitVec_eq
  interval_cases i <;> exact low_or_high v.toBitVec

theorem toNat_high (v : UInt32) : (v >>> 7).toNat = v.toNat / 128 := by
  exact shiftRight_eq_div_pow v.toNat 7

theorem high_eq_zero (v : UInt32) : v >>> 7 = 0 ↔ v.toNat < 128 := by
  rw [← UInt32.toNat_inj, toNat_high]
  change v.toNat / 128 = 0 ↔ _
  omega

theorem high_lt (h : v.toNat < 2 ^ (7 * (left + 1) + 4)) :
    (v >>> 7).toNat < 2 ^ (7 * left + 4) := by
  rw [toNat_high, div_lt_iff_lt_mul (by decide)]
  calc v.toNat < 2 ^ (7 * (left + 1) + 4) := h
    _ = 2 ^ (7 * left + 4) * 128 := (pow_add 2 (7 * left + 4) 7)

theorem toNat_low : (v &&& 0x7F).toNat = v.toNat % 128 := by
  exact and_two_pow_sub_one_eq_mod v.toNat 7

theorem low_eq_self (h : v >>> 7 = 0) : v &&& 0x7F = v := by
  apply UInt32.toNat_inj.mp
  rw [toNat_low, mod_eq_of_lt ((high_eq_zero v).mp h)]

theorem group_bits : ∀ n : Fin 128,
    UInt8.ofNat n &&& 0x7F = UInt8.ofNat n ∧ UInt8.ofNat n &&& 0x80 = 0 ∧
      (UInt8.ofNat n ||| 0x80) &&& 0x7F = UInt8.ofNat n ∧ (UInt8.ofNat n ||| 0x80) &&& 0x80 ≠ 0 ∧
      (n < 16 → UInt8.ofNat n &&& 0xF0 = 0) := by
  decide +kernel

theorem toUInt8_low : (v &&& 0x7F).toUInt8 = UInt8.ofNat (v.toNat % 128) := by
  apply UInt8.toNat_inj.mp
  rw [UInt32.toNat_toUInt8, toNat_low, UInt8.toNat_ofNat']

theorem toUInt32_low : (UInt8.ofNat (v.toNat % 128)).toUInt32 = v &&& 0x7F := by
  apply UInt32.toNat_inj.mp
  rw [UInt8.toNat_toUInt32, UInt8.toNat_ofNat', toNat_low]
  omega

theorem last_group (h : v >>> 7 = 0) :
    ((v &&& 0x7F).toUInt8 &&& 0x7F).toUInt32 = v ∧ (v &&& 0x7F).toUInt8 &&& 0x80 = 0 ∧
      (v.toNat < 16 → (v &&& 0x7F).toUInt8 &&& 0xF0 = 0) := by
  obtain ⟨hbits, hmk, -, -, hft⟩ := group_bits ⟨v.toNat % 128, mod_lt _ (by decide)⟩
  rw [toUInt8_low]
  refine ⟨by rw [hbits, toUInt32_low, low_eq_self h], hmk, ?_⟩
  intro hv
  exact hft (Nat.lt_of_le_of_lt (mod_le ..) hv)

theorem marked_group : (((v &&& 0x7F).toUInt8 ||| 0x80) &&& 0x7F).toUInt32 = v &&& 0x7F ∧
    ((v &&& 0x7F).toUInt8 ||| 0x80) &&& 0x80 ≠ 0 := by
  obtain ⟨-, -, hbits, hmk, -⟩ := group_bits ⟨v.toNat % 128, mod_lt _ (by decide)⟩
  rw [toUInt8_low]
  exact ⟨by rw [hbits, toUInt32_low], hmk⟩

end VarInt

theorem length_varIntGroups_le (v : UInt32) :
    (varIntGroups left v).length ≤ left := by
  induction left generalizing v with
  | zero => exact le_refl 0
  | succ left ih =>
    rw [varIntGroups]
    split
    · exact succ_le_succ (zero_le left)
    · exact succ_le_succ (ih _)

theorem length_encodeVarInt_le (v : Int32) : (encodeVarInt v).length ≤ 5 :=
  length_varIntGroups_le v.toUInt32

theorem length_encodeVarInt_pos (v : Int32) : 0 < (encodeVarInt v).length := by
  rw [encodeVarInt, varIntGroups]
  split <;> exact succ_pos _

theorem varIntGroups_marked (h : varIntGroups left v = b :: c :: rest) :
    b &&& 0x80 ≠ 0 ∧ ∃ left w, varIntGroups left w = c :: rest := by
  cases left with
  | zero => cases h
  | succ left =>
    rw [varIntGroups] at h
    split at h
    · cases h
    · obtain ⟨rfl, htl⟩ := List.cons.inj h
      exact ⟨VarInt.marked_group.2, left, _, htl⟩

namespace Decode
open VarInt

theorem reads_lastGroup {v : UInt32} (hla : v >>> 7 = 0) (hv : left = 0 → v.toNat < 16) :
    Reads (varIntLoop (left + 1) result shift) (varIntGroups (left + 1) v)
      (result ||| v <<< shift).toInt32 := by
  obtain ⟨hbits, hmk, hft⟩ := last_group hla
  rw [varIntGroups, if_pos hla]
  refine (reads_u8 _).finish ?_
  rw [if_neg (fun h => h.2 (hft (hv h.1))), hbits, if_pos hmk]
  exact .pure _

theorem reads_varIntLoop (hleft : left + i = 4) (hv : v.toNat < 2 ^ (7 * left + 4)) :
    Reads (varIntLoop (left + 1) result (7 * UInt32.ofNat i)) (varIntGroups (left + 1) v)
      (result ||| v <<< (7 * UInt32.ofNat i)).toInt32 := by
  induction left generalizing i v result with
  | zero =>
    have hla : v >>> 7 = 0 := (high_eq_zero v).mpr (lt_trans hv (by decide))
    exact reads_lastGroup hla fun _ => hv
  | succ left ih =>
    by_cases hla : v >>> 7 = 0
    · exact reads_lastGroup hla fun h => absurd h (succ_ne_zero left)
    · obtain ⟨hbits, hmk⟩ := marked_group
      have hshi : 7 * UInt32.ofNat i + 7 = 7 * UInt32.ofNat (i + 1) := by
        rw [UInt32.ofNat_add, UInt32.mul_add]
        rfl
      have hgro : v <<< (7 * UInt32.ofNat i) = _ := (group_or_rest (i := i) v (by omega)).symm
      rw [varIntGroups, if_neg hla]
      refine (reads_u8 _).bind ?_
      rw [if_neg (fun h => succ_ne_zero _ h.1), hbits, if_neg hmk, hgro, ← UInt32.or_assoc, hshi]
      exact ih (i := i + 1) (by omega) (high_lt hv)

theorem reads_varInt (v : Int32) : Reads varInt (encodeVarInt v) v := by
  have hlp : Reads varInt (encodeVarInt v) (0 ||| v.toUInt32 <<< (0 : UInt32) : UInt32).toInt32 :=
    reads_varIntLoop (i := 0) rfl v.toUInt32.toNat_lt
  simpa using hlp

end Decode

abbrev Splitter := StateT (List UInt8) Option

def Splitter.exact (n : Nat) : Splitter (List UInt8) := fun bytes =>
  if n ≤ bytes.length then some (bytes.take n, bytes.drop n) else none

def Splitter.byte : Splitter UInt8
  | [] => none
  | byte :: rest => some (byte, rest)

namespace Reader

/-- On a flowing stream the code does what the function does with the bytes there are. -/
structure Follows (x : Reader α) (f : List UInt8 → Option (α × List UInt8)) : Prop where
  takes : ∀ s a rest, s.Flowing → f s.available = some (a, rest) →
    ∃ t, x.run s = (.ok a, t) ∧ t.Flowing ∧ t.available = rest
  fails : ∀ s, s.Flowing → f s.available = none → ∃ e t, x.run s = (.error (.failed e), t)

def varintLoop : Nat → UInt32 → UInt32 → List UInt8 → Option (Int32 × List UInt8)
  | 0, _, _, _ => none
  | _ + 1, _, _, [] => none
  | left + 1, i, result, byte :: rest =>
    let result := result ||| ((byte &&& 0x7F).toUInt32 <<< (7 * i))
    if byte &&& 0x80 = 0 then some (result.toInt32, rest) else varintLoop left (i + 1) result rest

def varint : List UInt8 → Option (Int32 × List UInt8) := varintLoop 5 0 0

theorem follows_pure (a : α) : Follows (pure a) (pure a : Splitter α) := by
  constructor
  · intro s b rest hs h
    cases h
    exact ⟨s, rfl, hs, rfl⟩
  · intro s _ h
    cases h

theorem Follows.bind {x : Reader α} {f : Splitter α} {g : α → Reader β} {h : α → Splitter β}
    (hx : Follows x f) (hg : ∀ a, Follows (g a) (h a)) : Follows (x >>= g) (f >>= h) := by
  constructor
  · intro s b rest hs hspl
    obtain ⟨⟨a, left⟩, hf, hh⟩ := Option.bind_eq_some_iff.mp hspl
    obtain ⟨t, hrun, ht, hleft⟩ := hx.takes s a left hs hf
    rw [run_bind_ok _ hrun]
    exact (hg a).takes t b rest ht (by rwa [hleft])
  · intro s hs hspl
    rcases hf : f s.available with _ | ⟨a, left⟩
    · obtain ⟨e, t, hrun⟩ := hx.fails s hs hf
      exact ⟨e, t, run_bind_error _ hrun⟩
    · obtain ⟨t, hrun, ht, hleft⟩ := hx.takes s a left hs hf
      rw [run_bind_ok _ hrun]
      apply (hg a).fails t ht
      rw [hleft]
      exact (Option.bind_eq_none_iff.mp hspl) (a, left) hf

theorem follows_fail (e : ConnectionError) : Follows (fail e : Reader α) fun _ => none := by
  constructor
  · intro s a rest _ h
    cases h
  · intro s _ _
    exact ⟨e, s, rfl⟩

theorem follows_readU8 : Follows readU8 Splitter.byte := by
  constructor
  · intro s byte rest hs h
    cases hav : s.available with
    | nil => rw [hav] at h; cases h
    | cons first bytes =>
      rw [hav] at h
      cases h
      exact takes_readU8 byte s rest hs hav
  · intro s hs h
    cases hav : s.available with
    | nil =>
      obtain ⟨t, hrun, -⟩ := readU8_end hs hav
      exact ⟨_, t, hrun⟩
    | cons first bytes => rw [hav] at h; cases h

theorem varintLoop_succ : varintLoop (left + 1) i result = (do
    let byte ← .byte
    let result := result ||| ((byte &&& 0x7F).toUInt32 <<< (7 * i))
    if byte &&& 0x80 = 0 then return result.toInt32
    else varintLoop left (i + 1) result : Splitter Int32) := by
  funext bytes
  cases bytes with
  | nil => rfl
  | cons byte rest =>
    change (if byte &&& 0x80 = 0 then _ else _) =
      (if byte &&& 0x80 = 0 then _ else _ : Splitter Int32) rest
    split
    · rfl
    · rfl

theorem follows_readVarintLoop (i result : UInt32) :
    Follows (readVarintLoop left i result) (varintLoop left i result) := by
  induction left generalizing i result with
  | zero => exact follows_fail _
  | succ left ih =>
    rw [varintLoop_succ, readVarintLoop]
    apply follows_readU8.bind
    intro byte
    split
    · exact follows_pure _
    · exact ih _ _

theorem rest_of_varintLoop (h : varintLoop left i result bytes = some (v, rest)) :
    ∃ k, 0 < k ∧ k ≤ bytes.length ∧ rest = bytes.drop k := by
  induction left generalizing i result bytes with
  | zero => cases h
  | succ left ih =>
    cases bytes with
    | nil => cases h
    | cons byte bytes =>
      rw [varintLoop] at h
      split at h
      · cases h
        exact ⟨1, one_pos, succ_pos _, rfl⟩
      · obtain ⟨k, -, hk, hrs⟩ := ih h
        exact ⟨k + 1, succ_pos k, succ_le_succ hk, hrs⟩

theorem follows_readVarint : Follows readVarint varint := follows_readVarintLoop 0 0

end Reader

/-- After `n` bytes that are marked to be followed by more comes one that is not marked so, but has
one of the bits. -/
def lastHas (bits : UInt8) : Nat → List UInt8 → Bool
  | _, [] => false
  | 0, byte :: _ => byte &&& 0x80 = 0 && byte &&& bits ≠ 0
  | n + 1, byte :: rest => byte &&& 0x80 ≠ 0 && lastHas bits n rest

def overlong : List UInt8 → Bool := lastHas 0xF0 4

namespace Decode
open Reader

theorem mark_of_high (byte : UInt8) : byte &&& 0xF0 = 0 → byte &&& 0x80 = 0 := by
  exact forall_byte byte (by decide +kernel)

theorem varIntLoop_cons (left : Nat) (result shift : UInt32) (byte : UInt8) (rest : List UInt8) :
    varIntLoop (left + 1) result shift (byte :: rest) =
      if left = 0 ∧ byte &&& 0xF0 ≠ 0 then .error (.varIntOverflow varIntMaxBytes)
      else if byte &&& 0x80 = 0 then
        .ok ((result ||| ((byte &&& 0x7F).toUInt32 <<< shift)).toInt32, rest)
      else varIntLoop left (result ||| ((byte &&& 0x7F).toUInt32 <<< shift)) (shift + 7) rest := by
  rw [varIntLoop, bind_ok (u := rest) (a := byte) rfl]
  split
  · rfl
  · dsimp only
    split <;> rfl

theorem toOption_varIntLoop (left : Nat) (i : UInt32) :
    (varIntLoop (left + 1) result (7 * i) bytes).toOption =
      if lastHas 0xF0 left bytes then none else varintLoop (left + 1) i result bytes := by
  induction left generalizing i result bytes with
  | zero =>
    cases bytes with
    | nil => rfl
    | cons byte rest =>
      rw [varIntLoop_cons, lastHas, varintLoop]
      by_cases hhi : byte &&& 0xF0 = 0
      · simp [hhi, mark_of_high byte hhi, Except.toOption]
      · by_cases hmk : byte &&& 0x80 = 0
        · simp [hhi, hmk, Except.toOption]
        · simp [hhi, hmk, Except.toOption, varintLoop]
  | succ left ih =>
    cases bytes with
    | nil => rfl
    | cons byte rest =>
      rw [varIntLoop_cons, lastHas, varintLoop, if_neg (fun h => succ_ne_zero _ h.1)]
      by_cases hmk : byte &&& 0x80 = 0
      · simp [hmk, Except.toOption]
      · have hshi : 7 * i + 7 = 7 * (i + 1) := by rw [UInt32.mul_add]; rfl
        rw [if_neg hmk, hshi, ih]
        simp [hmk]

theorem toOption_varInt (bytes : List UInt8) :
    (varInt bytes).toOption = if overlong bytes then none else varint bytes :=
  toOption_varIntLoop 4 0

theorem varInt_eq_ok : varInt bytes = .ok (v, rest) ↔
    overlong bytes = false ∧ varint bytes = some (v, rest) := by
  have hopt := toOption_varInt bytes
  cases hover : overlong bytes with
  | true =>
    rw [hover, if_pos rfl] at hopt
    refine iff_of_false ?_ fun h => Bool.false_ne_true h.1.symm
    intro hok
    rw [hok] at hopt
    cases hopt
  | false =>
    rw [hover, if_neg Bool.false_ne_true] at hopt
    rw [← hopt, and_iff_right rfl]
    cases varInt bytes <;> simp [Except.toOption]

theorem varInt_eq_error (h : varInt bytes = .error e) :
    overlong bytes = true ∨ varint bytes = none := by
  have hopt := toOption_varInt bytes
  rw [h] at hopt
  split at hopt
  · rename_i hover
    exact .inl hover
  · exact .inr hopt.symm

theorem length_rest_lt (h : varInt bytes = .ok (v, rest)) : rest.length < bytes.length := by
  obtain ⟨k, hpos, hk, rfl⟩ := rest_of_varintLoop (varInt_eq_ok.mp h).2
  rw [List.length_drop]
  omega

end Decode

namespace Reader

theorem takes_readVarint (v : Int32) : Takes readVarint (encodeVarInt v) v := by
  intro s rest hs hav
  have hvar := (Decode.varInt_eq_ok.mp (Decode.reads_varInt v rest)).2
  exact follows_readVarint.takes s v rest hs (by rw [hav, hvar])

theorem toInt_ofNat (h : n ≤ maxPacketSize) : (Int32.ofNat n).toInt = n := by
  apply Int32.toInt_ofNat_of_lt
  simp only [maxPacketSize] at h
  omega

theorem asUsize_ofNat (h : n ≤ maxPacketSize) : Decode.asUsize (Int32.ofNat n) = n := by
  rw [Decode.asUsize, toInt_ofNat h]
  simp only [maxPacketSize] at h
  omega

theorem not_tooLarge (h : n ≤ maxPacketSize) :
    ¬(Int32.ofNat n < 0 ∨ n > maxPacketSize) := by
  rintro (hneg | hlar)
  · rw [Int32.lt_iff_toInt_lt, toInt_ofNat h] at hneg
    exact absurd hneg (by simp)
  · omega

theorem takes_readFrame (h : body.length ≤ maxPacketSize) :
    Takes readFrame (encodeFrame body) body := by
  refine (takes_readVarint _).bind ?_
  rw [asUsize_ofNat h]
  simp only [if_neg (not_tooLarge h)]
  exact takes_readExact body

theorem takes_readPacket (inflate : Inflate) (hthr : threshold < 0)
    (h : body.length ≤ maxPacketSize) :
    Takes (readPacket inflate threshold) (encodeFrame body) body := by
  refine (takes_readFrame h).finish ?_
  rw [if_neg (Int32.not_le.mpr hthr)]
  exact .pure body

end Reader

theorem encodeFrame_head (h : body.length ≤ Reader.maxPacketSize) :
    ∃ tail, encodeFrame body = (if body.length < 128 then UInt8.ofNat (body.length % 128)
      else UInt8.ofNat (body.length % 128) ||| 0x80) :: tail := by
  have hlen : (Int32.ofNat body.length).toUInt32.toNat = body.length := by
    apply UInt32.toNat_ofNat_of_lt'
    exact lt_of_le_of_lt h (by decide)
  have hla := VarInt.high_eq_zero (Int32.ofNat body.length).toUInt32
  rw [hlen] at hla
  rw [encodeFrame, encodeVarInt, varIntGroups, VarInt.toUInt8_low, hlen]
  by_cases hsh : body.length < 128
  · rw [if_pos hsh, if_pos (hla.mpr hsh)]
    exact ⟨_, rfl⟩
  · rw [if_neg hsh, if_neg (mt hla.mp hsh)]
    exact ⟨_, rfl⟩

end Kojacoord
