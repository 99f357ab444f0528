import Mathlib.Data.List.Count

theorem Tally.countP_set_add {p : α → Bool} {l : List α} (h : l[i]? = some a) (a' : α) :
    (l.set i a').countP p + (p a).toNat = l.countP p + (p a').toNat := by
  induction l generalizing i with
  | nil => cases h
  | cons x l ih =>
    cases i with
    | zero =>
      simp only [List.getElem?_cons_zero, Option.some.injEq] at h
      subst h
      cases hx : p x <;> cases ha : p a' <;> simp [hx, ha]
    | succ i =>
      have ih := ih h
      simp only [List.set_cons_succ, List.countP_cons]
      omega

theorem Tally.countP_set_of_eq {p : α → Bool} {l : List α} (h : l[i]? = some a) (ha : p a' = p a) :
    (l.set i a').countP p = l.countP p := by
  have := countP_set_add (p := p) h a'
  rw [ha] at this
  omega
