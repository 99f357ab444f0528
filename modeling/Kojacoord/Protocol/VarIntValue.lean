import Kojacoord.Lib.Leb128
import Kojacoord.Net.VarInt

namespace Kojacoord
open Decode Leb128

namespace VarInt

def encodedLenLoop (val : UInt32) (count : Nat) : Nat :=
  if 0x80 ≤ val then encodedLenLoop (val >>> 7) (count + 1) else count
termination_by val.toNat
decreasing_by
  rename_i hmore
  have hlarge : 128 ≤ val.toNat := UInt32.le_iff_toNat_le.mp hmore
  rw [toNat_high]
  omega

def encodedLen (v : Int32) : Nat := encodedLenLoop v.toUInt32 1

theorem large_iff (v : UInt32) : 0x80 ≤ v ↔ v >>> 7 ≠ 0 := by
  rw [Ne, high_eq_zero, Nat.not_lt]
  exact UInt32.le_iff_toNat_le

variable {v : UInt32}

theorem encodedLenLoop_last (hla : v >>> 7 = 0) :
    encodedLenLoop v (count + 1) = count + (varIntGroups (left + 1) v).length := by
  rw [encodedLenLoop, if_neg fun h => (large_iff v).mp h hla, varIntGroups, if_pos hla]
  rfl

theorem encodedLenLoop_eq (hv : v.toNat < 2 ^ (7 * left + 4)) :
    encodedLenLoop v (count + 1) = count + (varIntGroups (left + 1) v).length := by
  induction left generalizing v count with
  | zero => exact encodedLenLoop_last ((high_eq_zero v).mpr (Nat.lt_trans hv (by decide)))
  | succ left ih =>
    by_cases hla : v >>> 7 = 0
    · exact encodedLenLoop_last hla
    · rw [encodedLenLoop, if_pos ((large_iff v).mpr hla), varIntGroups, if_neg hla,
        List.length_cons, ih (high_lt hv)]
      omega

theorem encodedLen_eq (v : Int32) : encodedLen v = (encodeVarInt v).length :=
  (@encodedLenLoop_eq _ 4 0 v.toUInt32.toNat_lt).trans (Nat.zero_add _)

end VarInt

theorem Decode.varIntLoop_groups (h : varIntLoop left result shift bytes = .ok (v, rest)) :
    ∃ read, bytes = read ++ rest ∧ v = (accumulate result shift read).toInt32 ∧
      (read.length < left ∨ ∃ front b, read = front ++ [b] ∧ front.length + 1 = left ∧
        b &&& 0xF0 = 0) := by
  induction left generalizing result shift bytes with
  | zero => cases h
  | succ left ih =>
    cases bytes with
    | nil => cases h
    | cons b bytes =>
      rw [varIntLoop_cons] at h
      split at h
      · cases h
      rename_i hrm
      split at h
      · cases h
        refine ⟨[b], rfl, rfl, ?_⟩
        by_cases hleft : left = 0
        · exact .inr ⟨[], b, rfl, by rw [hleft]; rfl, by simpa [hleft] using hrm⟩
        · exact .inl (by rw [List.length_singleton]; omega)
      · obtain ⟨read, rfl, hv, hrd⟩ := ih h
        refine ⟨b :: read, rfl, hv, ?_⟩
        rcases hrd with hsh | ⟨front, c, rfl, hfr, hc⟩
        · exact .inl (Nat.succ_lt_succ hsh)
        · exact .inr ⟨b :: front, c, rfl, by rw [List.length_cons, hfr], hc⟩

theorem Decode.group_lt (b : UInt8) : b &&& 0xF0 = 0 → b.toNat % 128 < 16 :=
  forall_byte b (by decide +kernel)

theorem Decode.varInt_value (h : varInt bytes = .ok (v, rest)) :
    ∃ read, bytes = read ++ rest ∧ value read < 2 ^ 32 ∧ v.toUInt32.toNat = value read := by
  obtain ⟨read, hbs, rfl, hrd⟩ := varIntLoop_groups h
  have hrd' : read.length ≤ 5 ∧ value read < 2 ^ 32 := by
    rcases hrd with hsh | ⟨front, b, rfl, hfr, hb⟩
    · have hval := value_lt read
      have hpow : 128 ^ read.length ≤ 128 ^ 4 :=
        Nat.pow_le_pow_right (by decide) (Nat.le_of_lt_succ hsh)
      exact ⟨Nat.le_of_lt hsh, by omega⟩
    · have hlen : front.length = 4 := Nat.succ.inj hfr
      have hval := value_lt front
      have hla := group_lt b hb
      rw [hlen] at hval
      rw [List.length_append, hlen, value_append, hlen, value_cons]
      change 5 ≤ 5 ∧ value front + 128 ^ 4 * (b.toNat % 128 + 128 * 0) < 2 ^ 32
      omega
  have hsum : (accumulate 0 0 read).toNat = _ :=
    toNat_accumulate (i := 0) rfl (by decide) (by omega)
  refine ⟨read, hbs, hrd'.2, ?_⟩
  change (accumulate 0 0 read).toNat = value read
  rw [hsum, show (0 : UInt32).toNat = 0 from rfl]
  omega

/-- What is encoded is decoded again and has the length it is said to have, and whatever is accepted
stands for the sum of its groups, of which no bit is lost. -/
theorem varInt_round_trip (v : Int32) (rest : List UInt8) :
    varInt (encodeVarInt v ++ rest) = .ok (v, rest) ∧
      VarInt.encodedLen v = (encodeVarInt v).length ∧ (encodeVarInt v).length ≤ 5 ∧
      ∀ bytes w left, varInt bytes = .ok (w, left) →
        ∃ read, bytes = read ++ left ∧ value read < 2 ^ 32 ∧
          w.toInt = Int.bmod (value read) (2 ^ 32) := by
  refine ⟨reads_varInt v rest, VarInt.encodedLen_eq v, length_encodeVarInt_le v, ?_⟩
  intro bytes w left h
  obtain ⟨read, hbytes, hlt, hvalue⟩ := varInt_value h
  refine ⟨read, hbytes, hlt, ?_⟩
  rw [← hvalue]
  exact BitVec.toInt_eq_toNat_bmod w.toBitVec

end Kojacoord
