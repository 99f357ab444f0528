import Mathlib.Data.List.Induction
import Mathlib.Logic.Relation

namespace Feeding

variable {σ ι : Type} (step : σ → Option σ) (feed : σ → ι → σ)

inductive Run (s : σ) : List ι → σ → Prop
  | refl : Run s [] s
  | feed : Run s inputs t → Run s (inputs ++ [i]) (feed t i)
  | step : Run s inputs t → step t = some u → Run s inputs u

abbrev Steps : σ → σ → Prop := Relation.ReflTransGen fun s t => step s = some t

def Patient : Prop := ∀ s t i, step s = some t → step (feed s i) = some (feed t i)

variable {step feed}

theorem Steps.head (h : step s = some t) (h' : Steps step t u) : Steps step s u :=
  Relation.ReflTransGen.head h h'

theorem Steps.single (h : step s = some t) : Steps step s t := .head h .refl

theorem Steps.more (hpat : Patient step feed) (h : Steps step s t) (i : ι) :
    Steps step (feed s i) (feed t i) := by
  induction h with
  | refl => exact .refl
  | tail _ hstep ih => exact .tail ih (hpat _ _ i hstep)

theorem Run.steps (hpat : Patient step feed) (h : Run step feed s inputs t) :
    Steps step (inputs.foldl feed s) t := by
  induction h with
  | refl => exact .refl
  | @feed inputs t i _ ih =>
    rw [List.foldl_append]
    exact ih.more hpat i
  | step _ hstep ih => exact .tail ih hstep

theorem Run.of_feed (s : σ) (inputs : List ι) : Run step feed s inputs (inputs.foldl feed s) := by
  induction inputs using List.reverseRecOn with
  | nil => exact .refl
  | append_singleton inputs i ih =>
    rw [List.foldl_append]
    exact .feed ih

theorem Run.of_steps (h : Steps step (inputs.foldl feed s) t) : Run step feed s inputs t := by
  induction h with
  | refl => exact .of_feed s inputs
  | tail _ hstep ih => exact .step ih hstep

theorem Steps.rest_unique (h : Steps step s t) (ht : step t = none) (h' : Steps step s u)
    (hu : step u = none) : t = u := by
  induction h using Relation.ReflTransGen.head_induction_on with
  | refl =>
    rcases h'.cases_head with rfl | ⟨v, hstep, -⟩
    · rfl
    · rw [ht] at hstep
      cases hstep
  | head hstep _ ih =>
    rcases h'.cases_head with rfl | ⟨v, hstep', hv⟩
    · rw [hu] at hstep
      cases hstep
    · rw [hstep] at hstep'
      cases hstep'
      exact ih hv

/-- What holds where the machine comes to rest with all its input there from the start holds
wherever it comes to rest, and conversely. -/
theorem rest_iff (hpat : Patient step feed) (h : Steps step (inputs.foldl feed s) u)
    (hu : step u = none) {P : σ → Prop} :
    (∀ t, Run step feed s inputs t → step t = none → P t) ↔ P u := by
  constructor
  · intro hall
    exact hall u (.of_steps h) hu
  · intro hP t hrun ht
    rwa [(hrun.steps hpat).rest_unique ht h hu]

end Feeding
