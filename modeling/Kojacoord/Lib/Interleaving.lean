import Mathlib.Data.List.Basic

namespace Interleaving

inductive Interleaves : List α → List α → List α → Prop
  | nil : Interleaves [] [] []
  | left : Interleaves xs ys zs → Interleaves (x :: xs) ys (x :: zs)
  | right : Interleaves xs ys zs → Interleaves xs (y :: ys) (y :: zs)

namespace Interleaves

theorem of_left (xs : List α) : Interleaves xs [] xs := by
  induction xs with
  | nil => exact .nil
  | cons x xs ih => exact .left ih

theorem of_right (ys : List α) : Interleaves [] ys ys := by
  induction ys with
  | nil => exact .nil
  | cons y ys ih => exact .right ih

theorem append (h : Interleaves xs ys zs) (h' : Interleaves xs' ys' zs') :
    Interleaves (xs ++ xs') (ys ++ ys') (zs ++ zs') := by
  induction h with
  | nil => exact h'
  | left _ ih => exact .left ih
  | right _ ih => exact .right ih

theorem append_left {xs ys zs : List α} (h : Interleaves xs ys zs) (more : List α) :
    Interleaves (xs ++ more) ys (zs ++ more) := by
  simpa using h.append (of_left more)

theorem append_right {xs ys zs : List α} (h : Interleaves xs ys zs) (more : List α) :
    Interleaves xs (ys ++ more) (zs ++ more) := by
  simpa using h.append (of_right more)

end Interleaves

end Interleaving
