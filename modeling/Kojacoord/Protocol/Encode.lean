import Kojacoord.Lib.RoundTrip
import Kojacoord.Protocol.Codec
import Mathlib.Tactic.Ring

namespace Kojacoord
open RoundTrip Nat

@[elab_as_elim]
theorem forall_byte {P : UInt8 → Prop} (byte : UInt8) (h : ∀ n : Fin 256, P (UInt8.ofNat n)) :
    P byte := by
  have hby := h ⟨byte.toNat, byte.toNat_lt⟩
  rwa [UInt8.ofNat_toNat] at hby

namespace Encode

def bigEndian : Nat → Nat → List UInt8
  | 0, _ => []
  | w + 1, n => .ofNat (n / 256 ^ w) :: bigEndian w n

def u16 (v : UInt16) : List UInt8 := bigEndian 2 v.toNat

def i16 (v : Int16) : List UInt8 := bigEndian 2 v.toUInt16.toNat

def i32 (v : Int32) : List UInt8 := bigEndian 4 v.toUInt32.toNat

def i64 (v : Int64) : List UInt8 := bigEndian 8 v.toUInt64.toNat

def f32 (bits : UInt32) : List UInt8 := bigEndian 4 bits.toNat

def f64 (bits : UInt64) : List UInt8 := bigEndian 8 bits.toNat

@[simp] theorem length_bigEndian (w n : Nat) : (bigEndian w n).length = w := by
  induction w with
  | zero => rfl
  | succ w ih => simp [bigEndian, ih]

end Encode

namespace Decode

theorem foldl_bigEndian : (Encode.bigEndian w n).foldl (fun n b => n * 256 + b.toNat) acc =
    acc * 256 ^ w + n % 256 ^ w := by
  induction w generalizing acc with
  | zero => simp [Encode.bigEndian, mod_one]
  | succ w ih =>
    have hmod : n % 256 ^ (w + 1) = n / 256 ^ w % 256 * 256 ^ w + n % 256 ^ w := by
      rw [pow_succ, mod_mul, mul_comm, add_comm]
    simp only [Encode.bigEndian, List.foldl_cons, ih, hmod]
    change (acc * 256 + n / 256 ^ w % 256) * 256 ^ w + n % 256 ^ w = _
    ring

theorem bigEndian_encode (h : n < 256 ^ w) : bigEndian (Encode.bigEndian w n) = n := by
  rw [bigEndian, foldl_bigEndian, zero_mul, zero_add, mod_eq_of_lt h]

section Numbers
variable {bytes bytes' : List UInt8} {acc acc' : Nat}

theorem foldl_bytes_inj (hlen : bytes.length = bytes'.length)
    (h : bytes.foldl (fun n b => n * 256 + UInt8.toNat b) acc =
      bytes'.foldl (fun n b => n * 256 + UInt8.toNat b) acc') : acc = acc' ∧ bytes = bytes' := by
  induction bytes generalizing bytes' acc acc' with
  | nil =>
    cases bytes' with
    | nil => exact ⟨h, rfl⟩
    | cons => cases hlen
  | cons b bytes ih =>
    cases bytes' with
    | nil => cases hlen
    | cons b' bytes' =>
      obtain ⟨hacc, rfl⟩ := ih (Nat.succ.inj hlen) h
      dsimp only at hacc
      have hb := b.toNat_lt
      have hb' := b'.toNat_lt
      have hby : b = b' := UInt8.toNat_inj.mp (by omega)
      subst hby
      exact ⟨by omega, rfl⟩

theorem bigEndian_inj (hlen : bytes.length = bytes'.length)
    (h : bigEndian bytes = bigEndian bytes') : bytes = bytes' :=
  (foldl_bytes_inj hlen h).2

theorem foldl_bytes_lt (h : acc < 256 ^ k) :
    bytes.foldl (fun n b => n * 256 + UInt8.toNat b) acc < 256 ^ (k + bytes.length) := by
  induction bytes generalizing acc k with
  | nil => exact h
  | cons b bytes ih =>
    have hb := b.toNat_lt
    have hstep : acc * 256 + b.toNat < 256 ^ (k + 1) := by
      omega
    have hnx := ih hstep
    rwa [add_assoc, add_comm 1] at hnx

end Numbers

theorem reads_take (h : bytes.length = n) : Reads (take n) bytes bytes := by
  intro rest
  simp [take, ← h]

theorem reads_u8 (byte : UInt8) : Reads u8 [byte] byte := fun _ => rfl

theorem reads_bigEndian : Reads (take w) (Encode.bigEndian w n) (Encode.bigEndian w n) :=
  reads_take (Encode.length_bigEndian w n)

theorem reads_u16 (v : UInt16) : Reads u16 (Encode.u16 v) v := by
  apply reads_bigEndian.finish
  rw [bigEndian_encode v.toNat_lt, UInt16.ofNat_toNat]
  exact Reads.pure v

theorem reads_i16 (v : Int16) : Reads i16 (Encode.i16 v) v :=
  (reads_u16 v.toUInt16).finish (.pure v)

theorem reads_i32 (v : Int32) : Reads i32 (Encode.i32 v) v := by
  apply reads_bigEndian.finish
  rw [bigEndian_encode v.toUInt32.toNat_lt, UInt32.ofNat_toNat]
  exact Reads.pure v

theorem reads_i64 (v : Int64) : Reads i64 (Encode.i64 v) v := by
  apply reads_bigEndian.finish
  rw [bigEndian_encode v.toUInt64.toNat_lt, UInt64.ofNat_toNat]
  exact Reads.pure v

theorem reads_f32 (bits : UInt32) : Reads f32 (Encode.f32 bits) bits := by
  apply reads_bigEndian.finish
  rw [bigEndian_encode bits.toNat_lt, UInt32.ofNat_toNat]
  exact Reads.pure bits

theorem reads_f64 (bits : UInt64) : Reads f64 (Encode.f64 bits) bits := by
  apply reads_bigEndian.finish
  rw [bigEndian_encode bits.toNat_lt, UInt64.ofNat_toNat]
  exact Reads.pure bits

theorem fromUTF8_bytes (s : String) :
    String.fromUTF8? ⟨s.toUTF8.data.toList.toArray⟩ = some s := by
  have hvd : s.toUTF8.IsValidUTF8 := s.isValidUTF8
  rw [Array.toArray_toList, String.fromUTF8?, dif_pos hvd]
  rfl

theorem bool_eq_ok : bool src = .ok (b, rest) ↔
    ∃ byte, src = byte :: rest ∧ b = (byte != 0) := by
  cases src with
  | nil =>
    constructor
    · intro h
      cases h
    · rintro ⟨byte, h, -⟩
      cases h
  | cons byte src =>
    constructor
    · intro h
      cases h
      exact ⟨byte, rfl, rfl⟩
    · rintro ⟨byte', h, rfl⟩
      cases h
      rfl

theorem take_eq_ok : take n src = .ok (bytes, rest) ↔ bytes.length = n ∧ src = bytes ++ rest := by
  constructor
  · intro h
    simp only [take] at h
    split at h
    · cases h
    · rename_i hlg
      cases h
      exact ⟨List.length_take_of_le (Nat.le_of_not_lt hlg), (List.take_append_drop n src).symm⟩
  · rintro ⟨hbs, rfl⟩
    exact reads_take hbs rest

theorem consumes_take (n : Nat) : Consumes n (take n) := by
  intro s a t h
  obtain ⟨rfl, rfl⟩ := take_eq_ok.mp h
  rw [List.length_append, add_comm]

theorem consumes_u8 : Consumes 1 u8 := by
  intro s a t h
  cases s with
  | nil => cases h
  | cons byte s =>
    cases h
    exact le_refl _

theorem consumes_u16 : Consumes 2 u16 := (consumes_take 2).bind fun _ => .pure _

theorem consumes_i16 : Consumes 2 i16 := consumes_u16.bind fun _ => .pure _

theorem consumes_i32 : Consumes 4 i32 := (consumes_take 4).bind fun _ => .pure _

theorem consumes_i64 : Consumes 8 i64 := (consumes_take 8).bind fun _ => .pure _

theorem consumes_f32 : Consumes 4 f32 := (consumes_take 4).bind fun _ => .pure _

theorem consumes_f64 : Consumes 8 f64 := (consumes_take 8).bind fun _ => .pure _

end Decode

end Kojacoord
