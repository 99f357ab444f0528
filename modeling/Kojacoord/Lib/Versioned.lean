import Mathlib.Data.List.MinMax

namespace Versioned
open Option Nat

variable {α β : Type} {f g : Nat → Option α}

def latestIn (f : Nat → Option α) (lo : Nat) : Nat → Option α
  | 0 => none
  | hi + 1 => if lo ≤ hi then (f hi).or (latestIn f lo hi) else none

theorem latestIn_succ (h : lo ≤ hi) : latestIn f lo (hi + 1) = (f hi).or (latestIn f lo hi) :=
  if_pos h

theorem latestIn_of_le (h : hi ≤ lo) : latestIn f lo hi = none := by
  cases hi with
  | zero => rfl
  | succ hi => exact if_neg (by omega)

theorem latestIn_eq_none : latestIn f lo hi = none ↔ ∀ q, lo ≤ q → q < hi → f q = none := by
  induction hi with
  | zero => exact iff_of_true rfl fun q _ h => absurd h (not_lt_zero q)
  | succ hi ih =>
    by_cases hle : lo ≤ hi
    · rw [latestIn_succ hle, or_eq_none_iff, ih]
      constructor
      · rintro ⟨hla, hbef⟩ q hlo hhi
        rcases Nat.lt_succ_iff_lt_or_eq.mp hhi with hlt | rfl
        · exact hbef q hlo hlt
        · exact hla
      · intro h
        exact ⟨h hi hle (lt_succ_self hi), fun q hlo hhi => h q hlo (lt_succ_of_lt hhi)⟩
    · rw [latestIn_of_le (by omega)]
      exact iff_of_true rfl fun q hlo hhi => by omega

theorem latestIn_eq_some : latestIn f lo hi = some a ↔
    ∃ q, lo ≤ q ∧ q < hi ∧ f q = some a ∧ ∀ r, q < r → r < hi → f r = none := by
  induction hi with
  | zero => exact iff_of_false (by simp [latestIn]) (by rintro ⟨q, -, h, -⟩; omega)
  | succ hi ih =>
    by_cases hle : lo ≤ hi
    · rw [latestIn_succ hle]
      cases hla : f hi with
      | some b =>
        rw [some_or, some_inj]
        constructor
        · rintro rfl
          exact ⟨hi, hle, Nat.lt_succ_self hi, hla, fun r hr hlt => by omega⟩
        · rintro ⟨q, -, hq, hqa, haft⟩
          rcases Nat.lt_succ_iff_lt_or_eq.mp hq with hlt | rfl
          · rw [haft hi hlt (Nat.lt_succ_self hi)] at hla
            cases hla
          · exact some_inj.mp (hla.symm.trans hqa)
      | none =>
        rw [none_or, ih]
        constructor
        · rintro ⟨q, hlo, hq, hqa, haft⟩
          refine ⟨q, hlo, Nat.lt_succ_of_lt hq, hqa, fun r hr hlt => ?_⟩
          rcases Nat.lt_succ_iff_lt_or_eq.mp hlt with hlt | rfl
          · exact haft r hr hlt
          · exact hla
        · rintro ⟨q, hlo, hq, hqa, haft⟩
          have hne : q ≠ hi := by
            rintro rfl
            rw [hla] at hqa
            cases hqa
          exact ⟨q, hlo, by omega, hqa, fun r hr hlt => haft r hr (lt_succ_of_lt hlt)⟩
    · rw [latestIn_of_le (by omega)]
      exact iff_of_false (by simp) (by rintro ⟨q, hlo, hhi, -⟩; omega)

theorem latestIn_congr (h : ∀ q, lo ≤ q → q < hi → f q = g q) :
    latestIn f lo hi = latestIn g lo hi := by
  induction hi with
  | zero => rfl
  | succ hi ih =>
    by_cases hle : lo ≤ hi
    · rw [latestIn_succ hle, latestIn_succ hle, h hi hle (lt_succ_self hi),
        ih fun q hlo hhi => h q hlo (lt_succ_of_lt hhi)]
    · rw [latestIn_of_le (by omega), latestIn_of_le (by omega)]

theorem latestIn_split (hlo : lo ≤ mid) (hhi : mid ≤ hi) :
    latestIn f lo hi = (latestIn f mid hi).or (latestIn f lo mid) := by
  induction hi with
  | zero =>
    obtain rfl : mid = 0 := le_zero.mp hhi
    rfl
  | succ hi ih =>
    rcases lt_or_eq_of_le hhi with hlt | rfl
    · have hle : mid ≤ hi := le_of_lt_succ hlt
      rw [latestIn_succ (le_trans hlo hle), latestIn_succ hle, ih hle, Option.or_assoc]
    · rw [latestIn_of_le (le_refl _), none_or]

def sameSide (side : Nat → Prop) [DecidablePred side] (n : Nat) (f : Nat → Option α) (q : Nat) :
    Option α :=
  if (side q ↔ side n) then f q else none

section Side
variable {side : Nat → Prop} [DecidablePred side]

theorem sameSide_eq_some :
    sameSide side n f q = some a ↔ (side q ↔ side n) ∧ f q = some a := by
  rw [sameSide]
  split
  · rename_i hsi
    exact (and_iff_right hsi).symm
  · rename_i hsi
    exact iff_of_false (by simp) fun h => hsi h.1

theorem sameSide_self : sameSide side n f n = f n := if_pos Iff.rfl

theorem latestIn_same (h : ∀ q, lo ≤ q → q < hi → (side q ↔ side n)) :
    latestIn (sameSide side n f) lo hi = latestIn f lo hi :=
  latestIn_congr fun q hlo hhi => if_pos (h q hlo hhi)

theorem latestIn_other (h : ∀ q, lo ≤ q → q < hi → ¬(side q ↔ side n)) :
    latestIn (sameSide side n f) lo hi = none :=
  latestIn_eq_none.mpr fun q hlo hhi => if_neg (h q hlo hhi)

end Side

theorem map_argmax {entries : List β} {key : β → Nat} {val : β → α}
    (hbel : ∀ e ∈ entries, key e < hi)
    (h : ∀ q < hi, ∀ a, f q = some a ↔ ∃ e ∈ entries, key e = q ∧ val e = a) :
    (entries.argmax key).map val = latestIn f 0 hi := by
  cases hbest : entries.argmax key with
  | none =>
    rw [List.argmax_eq_none] at hbest
    subst hbest
    symm
    apply latestIn_eq_none.mpr
    intro q _ hq
    cases hf : f q with
    | none => rfl
    | some a =>
      obtain ⟨e, he, -⟩ := (h q hq a).mp hf
      cases he
  | some best =>
    have hmem := List.argmax_mem hbest
    have hlt := hbel best hmem
    symm
    apply latestIn_eq_some.mpr
    refine ⟨key best, zero_le _, hlt, (h _ hlt _).mpr ⟨best, hmem, rfl, rfl⟩, ?_⟩
    intro r hr hhi
    cases hf : f r with
    | none => rfl
    | some a =>
      obtain ⟨e, he, rfl, -⟩ := (h r hhi a).mp hf
      have hle := List.le_of_mem_argmax he hbest
      omega

end Versioned
