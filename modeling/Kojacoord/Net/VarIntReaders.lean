import Kojacoord.Net.VarInt

namespace Kojacoord
open RoundTrip Bool

def negative : List UInt8 → Bool := lastHas 0x08 4

theorem VarInt.sign_group (byte : UInt8) : ∀ i : Fin 5,
    ((byte &&& 0x7F).toUInt32 <<< (7 * UInt32.ofNat i)).toBitVec.getLsbD 31 =
      (i.val = 4 && byte &&& 0x08 ≠ 0) := by
  exact forall_byte byte (by decide +kernel)

theorem VarInt.sign_or_group (hi : i < 5) (hres : result.toBitVec.getLsbD 31 = false) (byte : UInt8) :
    (result ||| ((byte &&& 0x7F).toUInt32 <<< (7 * UInt32.ofNat i))).toBitVec.getLsbD 31 =
      (i = 4 && byte &&& 0x08 ≠ 0) := by
  rw [UInt32.toBitVec_or, BitVec.getLsbD_or, hres, Bool.false_or, sign_group byte ⟨i, hi⟩]

theorem VarInt.toInt32_neg_iff (v : UInt32) : v.toInt32 < 0 ↔ v.toBitVec.getLsbD 31 = true := by
  have hmsb : v.toBitVec.getLsbD 31 = decide (v.toBitVec.toInt < 0) := by
    rw [← BitVec.msb_eq_toInt, BitVec.msb_eq_getLsbD_last]
  rw [Int32.lt_iff_toInt_lt, hmsb, decide_eq_true_iff]
  rfl

namespace Reader
open VarInt

theorem varintLoop_neg_iff (hleft : left + i = 4) (hres : result.toBitVec.getLsbD 31 = false)
    (h : varintLoop (left + 1) (UInt32.ofNat i) result bytes = some (v, rest)) :
    v < 0 ↔ lastHas 0x08 left bytes = true := by
  induction left generalizing i result bytes with
  | zero =>
    cases bytes with
    | nil => cases h
    | cons byte bytes =>
      rw [varintLoop] at h
      split at h
      · rename_i hmk
        cases h
        rw [toInt32_neg_iff, sign_or_group (by omega) hres, lastHas]
        simp [show i = 4 by omega, hmk]
      · cases h
  | succ left ih =>
    cases bytes with
    | nil => cases h
    | cons byte bytes =>
      have hsign := sign_or_group (i := i) (by omega) hres byte
      rw [decide_eq_false (show ¬ i = 4 by omega), Bool.false_and] at hsign
      rw [varintLoop] at h
      split at h
      · rename_i hmk
        cases h
        rw [toInt32_neg_iff, hsign, lastHas]
        simp [hmk]
      · rename_i hmk
        have hnx : UInt32.ofNat i + 1 = UInt32.ofNat (i + 1) := (UInt32.ofNat_add i 1).symm
        rw [hnx] at h
        rw [ih (by omega) hsign h, lastHas]
        simp [hmk]

theorem varint_neg_iff (h : varint bytes = some (v, rest)) : v < 0 ↔ negative bytes = true :=
  varintLoop_neg_iff (i := 0) rfl rfl h

end Reader

/-- The reader accepts the byte string, however it arrives, with this value after `k` bytes. -/
def Reader.Accepts (x : Reader α) (bytes : List UInt8) (a : α) (k : Nat) : Prop :=
  k ≤ bytes.length ∧ ∀ s, s.Flowing → s.available = bytes →
    ∃ t, x.run s = (.ok a, t) ∧ t.available = bytes.drop k

def Decode.Accepts (d : Decoder α) (bytes : List UInt8) (a : α) (k : Nat) : Prop :=
  k ≤ bytes.length ∧ d bytes = .ok (a, bytes.drop k)

theorem Reader.accepts_readVarint : readVarint.Accepts bytes v k ↔
    k ≤ bytes.length ∧ varint bytes = some (v, bytes.drop k) := by
  constructor
  · rintro ⟨hk, hacc⟩
    refine ⟨hk, ?_⟩
    -- One stream that delivers the bytes is enough to compare the two.
    have hflo : McStream.Flowing ⟨bytes, [], none, none⟩ := by
      intro arrival harr
      cases harr
    have hav : McStream.available ⟨bytes, [], none, none⟩ = bytes := List.append_nil bytes
    obtain ⟨t, hrun, ht⟩ := hacc _ hflo hav
    cases hvar : varint bytes with
    | none =>
      obtain ⟨e, u, hfai⟩ := follows_readVarint.fails _ hflo (by rw [hav, hvar])
      rw [hrun] at hfai
      cases hfai
    | some result =>
      obtain ⟨a, rest⟩ := result
      obtain ⟨u, htak, -, hu⟩ := follows_readVarint.takes _ a rest hflo (by rw [hav, hvar])
      rw [hrun] at htak
      cases htak
      rw [← hu, ht]
  · rintro ⟨hk, hvar⟩
    refine ⟨hk, ?_⟩
    rintro s hs rfl
    obtain ⟨t, hrun, -, ht⟩ := follows_readVarint.takes s v _ hs hvar
    exact ⟨t, hrun, ht⟩

theorem Reader.varintLoop_of_lastHas (h : lastHas bits left bytes = true) :
    ∃ v rest, varintLoop (left + 1) i result bytes = some (v, rest) := by
  induction left generalizing i result bytes with
  | zero =>
    cases bytes with
    | nil => cases h
    | cons byte bytes =>
      simp only [lastHas, and_eq_true, decide_eq_true_eq] at h
      exact ⟨_, _, if_pos h.1⟩
  | succ left ih =>
    cases bytes with
    | nil => cases h
    | cons byte bytes =>
      simp only [lastHas, and_eq_true, decide_eq_true_eq] at h
      obtain ⟨v, rest, hrs⟩ := ih h.2
      exact ⟨v, rest, (if_neg h.1).trans hrs⟩

theorem Reader.negative_of_varint_none (h : varint bytes = none) : negative bytes = false := by
  by_contra hneg
  rw [not_eq_false] at hneg
  obtain ⟨v, rest, hso⟩ : ∃ v rest, varint bytes = some (v, rest) := varintLoop_of_lastHas hneg
  rw [h] at hso
  cases hso

theorem Decode.accepts_varInt : Decode.Accepts varInt bytes v k ↔
    k ≤ bytes.length ∧ overlong bytes = false ∧ Reader.varint bytes = some (v, bytes.drop k) := by
  rw [Decode.Accepts, varInt_eq_ok]

/-- The two readers accept the same of a byte string exactly if it does not begin with four marked
bytes and a fifth that is not marked but too large. -/
theorem varint_readers_agree_iff (bytes : List UInt8) :
    (∀ v k, Reader.readVarint.Accepts bytes v k ↔ Decode.Accepts Decode.varInt bytes v k) ↔
      overlong bytes = false := by
  simp only [Reader.accepts_readVarint, Decode.accepts_varInt]
  constructor
  · intro hagree
    by_contra hover
    rw [not_eq_false] at hover
    obtain ⟨v, rest, hvarint⟩ := Reader.varintLoop_of_lastHas hover
    obtain ⟨k, -, hk, rfl⟩ := Reader.rest_of_varintLoop hvarint
    have hdecodes := ((hagree v k).mp ⟨hk, hvarint⟩).2.1
    rw [hover] at hdecodes
    cases hdecodes
  · intro hfits v k
    simp [hfits]

/-- All bits of the fifth byte but the mark are set: read as -1, and rejected by the decoder. -/
theorem overlong_minus_one :
    Reader.readVarint.Accepts [0xFF, 0xFF, 0xFF, 0xFF, 0x7F] (-1) 5 ∧
      ¬ Decode.Accepts Decode.varInt [0xFF, 0xFF, 0xFF, 0xFF, 0x7F] (-1) 5 := by
  rw [Reader.accepts_readVarint, Decode.accepts_varInt]
  decide +kernel

end Kojacoord
