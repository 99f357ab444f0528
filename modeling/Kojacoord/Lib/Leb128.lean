import Mathlib.Data.Nat.Digits.Defs
import Mathlib.Tactic.IntervalCases

namespace Leb128
open List Nat

def value (bytes : List UInt8) : Nat := Nat.ofDigits 128 (bytes.map fun b => b.toNat % 128)

inductive Delimited : List UInt8 → Prop
  | last : b &&& 0x80 = 0 → Delimited [b]
  | more : b &&& 0x80 ≠ 0 → Delimited bytes → Delimited (b :: bytes)

/-- What a loop comes to that puts the groups into a word; bits that have no place there are
lost. -/
def accumulate : UInt32 → UInt32 → List UInt8 → UInt32
  | acc, _, [] => acc
  | acc, shift, b :: bytes => accumulate (acc ||| (b &&& 0x7F).toUInt32 <<< shift) (shift + 7) bytes

theorem value_cons (b : UInt8) (bytes : List UInt8) :
    value (b :: bytes) = b.toNat % 128 + 128 * value bytes := by
  rw [value, map_cons, ofDigits_cons, value]

theorem value_append (bytes more : List UInt8) :
    value (bytes ++ more) = value bytes + 128 ^ bytes.length * value more := by
  rw [value, map_append, ofDigits_append, length_map, value, value]

theorem value_lt (bytes : List UInt8) : value bytes < 128 ^ bytes.length := by
  induction bytes with
  | nil => exact one_pos
  | cons b bytes ih =>
    rw [value_cons, length_cons, pow_succ]
    omega

theorem toNat_group (b : UInt8) : (b &&& 0x7F).toUInt32.toNat = b.toNat % 128 := by
  exact and_two_pow_sub_one_eq_mod b.toNat 7

theorem toNat_push {acc shift : UInt32} (b : UInt8) (hi : i < 5) (hshi : shift.toNat = 7 * i)
    (hacc : acc.toNat < 2 ^ (7 * i)) :
    (acc ||| (b &&& 0x7F).toUInt32 <<< shift).toNat =
      (acc.toNat + 2 ^ (7 * i) * (b.toNat % 128)) % 2 ^ 32 := by
  have hshif : 7 * i % 32 = 7 * i := mod_eq_of_lt (by omega)
  calc (acc ||| (b &&& 0x7F).toUInt32 <<< shift).toNat
      = acc.toNat % 2 ^ 32 ||| (b.toNat % 128) <<< (7 * i) % 2 ^ 32 := by
        rw [UInt32.toNat_or, UInt32.toNat_shiftLeft, hshi, hshif, toNat_group,
          mod_eq_of_lt acc.toNat_lt]
    _ = (2 ^ (7 * i) * (b.toNat % 128) ||| acc.toNat) % 2 ^ 32 := by
        rw [← Nat.or_mod_two_pow, Nat.shiftLeft_eq, Nat.mul_comm, Nat.or_comm]
    _ = (acc.toNat + 2 ^ (7 * i) * (b.toNat % 128)) % 2 ^ 32 := by
        rw [← two_pow_add_eq_or_of_lt hacc, add_comm]

theorem toNat_accumulate {acc shift : UInt32} (hshi : shift.toNat = 7 * i)
    (hacc : acc.toNat < 2 ^ (7 * i)) (hlen : i + bytes.length ≤ 5) :
    (accumulate acc shift bytes).toNat = (acc.toNat + 2 ^ (7 * i) * value bytes) % 2 ^ 32 := by
  induction bytes generalizing acc shift i with
  | nil => exact (mod_eq_of_lt acc.toNat_lt).symm
  | cons b bytes ih =>
    rw [length_cons] at hlen
    have hpush := toNat_push b (by omega) hshi hacc
    rw [accumulate, value_cons]
    cases bytes with
    | nil => exact hpush
    | cons c bytes =>
      rw [length_cons] at hlen ih
      have hgro : acc.toNat + 2 ^ (7 * i) * (b.toNat % 128) < 2 ^ (7 * (i + 1)) := by
        have := mod_lt b.toNat (show 128 > 0 by decide)
        rw [mul_succ, pow_add]
        nlinarith
      have hrm : 2 ^ (7 * (i + 1)) ≤ 2 ^ 32 := Nat.pow_le_pow_right (by decide) (by omega)
      rw [mod_eq_of_lt (by omega)] at hpush
      have hnx : (shift + 7).toNat = 7 * (i + 1) := by
        rw [UInt32.toNat_add, hshi]
        change (7 * i + 7) % 2 ^ 32 = _
        omega
      rw [ih hnx (by omega) (by omega), hpush, mul_succ, pow_add]
      ring_nf

end Leb128
