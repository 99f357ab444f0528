import Mathlib.Data.List.AList

namespace AssocList
open List

variable {α β γ : Type}

def mapValues (f : β → γ) (s : AList fun _ : α => β) : AList fun _ : α => γ where
  entries := s.entries.map fun e => ⟨e.1, f e.2⟩
  nodupKeys := by
    have h : s.entries.keys.Nodup := s.nodupKeys
    change (List.map Sigma.fst _).Nodup
    simpa only [List.keys, map_map, Function.comp_def] using h

def retain (p : β → Bool) (s : AList fun _ : α => β) : AList fun _ : α => β where
  entries := s.entries.filter fun e => p e.2
  nodupKeys := by
    have h : s.entries.keys.Nodup := s.nodupKeys
    exact h.sublist (filter_sublist.map _)

theorem lookup_mapValues [DecidableEq α] (f : β → γ) (s : AList fun _ : α => β) (a : α) :
    (mapValues f s).lookup a = (s.lookup a).map f := by
  obtain ⟨l, hl⟩ := s
  simp only [mapValues, AList.lookup]
  clear hl
  induction l with
  | nil => rfl
  | cons e l ih =>
    obtain ⟨b, v⟩ := e
    by_cases h : b = a
    · subst h
      simp
    · rw [map_cons, dlookup_cons_ne _ _ (.symm h), dlookup_cons_ne _ _ (.symm h), ih]

theorem lookup_retain [DecidableEq α] (p : β → Bool) (s : AList fun _ : α => β) (a : α) :
    (retain p s).lookup a = (s.lookup a).filter p := by
  obtain ⟨l, hl⟩ := s
  simp only [retain, AList.lookup]
  induction l with
  | nil => rfl
  | cons e l ih =>
    obtain ⟨b, v⟩ := e
    obtain ⟨hb, hl⟩ := nodupKeys_cons.mp hl
    have ih := ih hl
    by_cases h : b = a
    · subst h
      have hno : l.dlookup b = none := dlookup_eq_none.mpr hb
      by_cases hp : p v
      · simp [hp, Option.filter]
      · simp [hp, ih, hno, Option.filter]
    · rw [dlookup_cons_ne _ _ (.symm h), ← ih, filter_cons]
      split
      · exact dlookup_cons_ne _ _ (.symm h)
      · rfl

theorem retain_eq_self [DecidableEq α] {p : β → Bool} {s : AList fun _ : α => β}
    (h : ∀ a v, s.lookup a = some v → p v = true) : retain p s = s := by
  apply AList.ext
  exact filter_eq_self.mpr fun e he => h e.1 e.2 (AList.mem_lookup_iff.mpr he)

theorem lookup_replace [DecidableEq α] (s : AList fun _ : α => β) (a c : α) (v : β) :
    (s.replace a v).lookup c = if c = a then (s.lookup a).map fun _ => v else s.lookup c := by
  obtain ⟨l, hl⟩ := s
  simp only [AList.replace, AList.lookup]
  clear hl
  induction l with
  | nil => simp [List.kreplace]
  | cons e l ih =>
    obtain ⟨b, w⟩ := e
    by_cases hab : a = b
    · subst hab
      have hhit : List.kreplace a v (⟨a, w⟩ :: l : List (Sigma fun _ : α => β)) = ⟨a, v⟩ :: l := by
        simp [List.kreplace, lookmap_cons_some]
      rw [hhit]
      by_cases hca : c = a
      · subst hca
        simp
      · rw [if_neg hca, dlookup_cons_ne _ _ hca, dlookup_cons_ne _ _ hca]
    · have hmiss : List.kreplace a v (⟨b, w⟩ :: l : List (Sigma fun _ : α => β)) =
          ⟨b, w⟩ :: List.kreplace a v l := by
        simp [List.kreplace, lookmap_cons_none, hab]
      rw [hmiss]
      by_cases hcb : b = c
      · subst hcb
        simp [Ne.symm hab]
      · rw [dlookup_cons_ne _ _ (.symm hcb), ih, dlookup_cons_ne _ _ hab,
          dlookup_cons_ne _ _ (.symm hcb)]

end AssocList
