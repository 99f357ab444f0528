import Mathlib.Data.Option.Basic

namespace Runs

/-- Runs of a partial step function all of whose steps meet the guard `ok`. -/
inductive Run (step : σ → ℓ → Option σ) (ok : σ → ℓ → Prop) (s : σ) : σ → Prop
  | refl : Run step ok s s
  | tail : Run step ok s t → ok t l → step t l = some u → Run step ok s u

theorem Run.invariant {I : σ → Prop} (h : Run step ok s t) (hs : I s)
    (hstep : ∀ t l u, I t → ok t l → step t l = some u → I u) : I t := by
  induction h with
  | refl => exact hs
  | tail _ hok ht ih => exact hstep _ _ _ ih hok ht

theorem Run.mono {ok' : σ → ℓ → Prop} (h : Run step ok s t)
    (hok : ∀ t l, ok t l → ok' t l) : Run step ok' s t := by
  induction h with
  | refl => exact .refl
  | tail _ hl ht ih => exact .tail ih (hok _ _ hl) ht

def exec (step : σ → ℓ → Option σ) (ok : σ → ℓ → Prop) [∀ s l, Decidable (ok s l)]
    (s : σ) : List ℓ → Option σ
  | [] => some s
  | l :: ls =>
    if ok s l then
      match step s l with
      | some t => exec step ok t ls
      | none => none
    else none

theorem Run.trans (h : Run step ok s t) (h' : Run step ok t u) : Run step ok s u := by
  induction h' with
  | refl => exact h
  | tail _ hok ht ih => exact .tail ih hok ht

theorem Run.of_exec {ok : σ → ℓ → Prop} [∀ s l, Decidable (ok s l)] (ls : List ℓ)
    (h : exec step ok s ls = some t) : Run step ok s t := by
  induction ls generalizing s with
  | nil =>
    cases h
    exact .refl
  | cons l ls ih =>
    simp only [exec] at h
    split at h
    · rename_i hok
      split at h
      · rename_i u hu
        exact Run.trans (.tail .refl hok hu) (ih h)
      · cases h
    · cases h

theorem Run.exists_of_exec {ok : σ → ℓ → Prop} [∀ s l, Decidable (ok s l)] {P : σ → Prop}
    [DecidablePred P] (ls : List ℓ) (h : (exec step ok s ls).any (fun t => decide (P t)) = true) :
    ∃ t, Run step ok s t ∧ P t := by
  cases hexec : exec step ok s ls with
  | none =>
    rw [hexec] at h
    cases h
  | some t =>
    rw [hexec] at h
    exact ⟨t, .of_exec ls hexec, of_decide_eq_true h⟩

end Runs
