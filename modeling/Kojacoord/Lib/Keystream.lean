import Mathlib.Data.List.Induction

namespace Keystream

variable {σ β : Type}

/-- A map of streams that keeps a state and is applied to a buffer in place. -/
structure Transducer (σ β : Type) where
  run : σ → List β → σ × List β
  length_run : ∀ s xs, (run s xs).2.length = xs.length

namespace Transducer

structure Chunked (k : Transducer σ β) : Prop where
  nil : ∀ s, k.run s [] = (s, [])
  append : ∀ s xs ys, k.run s (xs ++ ys) =
    ((k.run (k.run s xs).1 ys).1, (k.run s xs).2 ++ (k.run (k.run s xs).1 ys).2)

def Undoes (d : Transducer τ β) (t : τ) (e : Transducer σ β) (s : σ) : Prop :=
  ∀ xs, (d.run t (e.run s xs).2).2 = xs

def runAll (k : Transducer σ β) (s : σ) (pieces : List (List β)) : σ × List β :=
  pieces.foldl (fun acc piece => ((k.run acc.1 piece).1, acc.2 ++ (k.run acc.1 piece).2)) (s, [])

theorem Chunked.runAll {k : Transducer σ β} (h : k.Chunked) (s : σ) (pieces : List (List β)) :
    k.runAll s pieces = k.run s pieces.flatten := by
  induction pieces using List.reverseRecOn with
  | nil => exact (h.nil s).symm
  | append_singleton pieces piece ih =>
    rw [Transducer.runAll] at ih ⊢
    rw [List.foldl_append, List.foldl_cons, List.foldl_nil, ih, List.flatten_append, h.append]
    simp

variable {step : σ → β → σ × β}

def steps (step : σ → β → σ × β) : σ → List β → σ × List β
  | s, [] => (s, [])
  | s, x :: xs => ((steps step (step s x).1 xs).1, (step s x).2 :: (steps step (step s x).1 xs).2)

theorem length_steps (s : σ) (xs : List β) : (steps step s xs).2.length = xs.length := by
  induction xs generalizing s with
  | nil => rfl
  | cons x xs ih => exact congrArg Nat.succ (ih _)

def symbolwise (step : σ → β → σ × β) : Transducer σ β where
  run := steps step
  length_run _ _ := length_steps _ _

theorem chunked_symbolwise : (symbolwise step).Chunked := by
  refine ⟨fun _ => rfl, ?_⟩
  intro s xs ys
  change steps step s (xs ++ ys) = _
  induction xs generalizing s with
  | nil => rfl
  | cons x xs ih =>
    rw [List.cons_append, steps, ih]
    rfl

end Transducer

end Keystream
