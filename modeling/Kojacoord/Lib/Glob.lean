import Mathlib.Data.List.Basic

namespace Glob
open List

/-- The text is the pattern with some text in the place of each star. -/
inductive Replaces (star : α) : List α → List α → Prop
  | nil : Replaces star [] []
  | symbol : a ≠ star → Replaces star pattern text → Replaces star (a :: pattern) (a :: text)
  | star : Replaces star pattern text → Replaces star (star :: pattern) (gap ++ text)

inductive Expands : List (List α) → List α → Prop
  | last : Expands [seg] seg
  | gap : Expands segs text → Expands (seg :: segs) (seg ++ (gap ++ text))

inductive Ordered : List (List α) → List α → Prop
  | nil : Ordered [] text
  | seg : Ordered segs text → Ordered (seg :: segs) (gap ++ (seg ++ text))

theorem Expands.cons (a : α) (h : Expands (seg :: segs) text) :
    Expands ((a :: seg) :: segs) (a :: text) := by
  cases h with
  | last => exact .last
  | gap h => exact .gap h

theorem Expands.of_cons (h : Expands ((a :: seg) :: segs) text) :
    ∃ text', text = a :: text' ∧ Expands (seg :: segs) text' := by
  cases h with
  | last => exact ⟨seg, rfl, .last⟩
  | gap h => exact ⟨_, rfl, .gap h⟩

theorem expands_nil_cons (hne : segs ≠ []) :
    Expands ([] :: segs) text ↔ ∃ gap text', text = gap ++ text' ∧ Expands segs text' := by
  constructor
  · intro h
    cases h with
    | last => exact absurd rfl hne
    | @gap _ text _ gap h => exact ⟨gap, text, rfl, h⟩
  · rintro ⟨gap, text', rfl, h⟩
    exact .gap h

theorem Expands.replaces [DecidableEq α] {star : α}
    (h : Expands (pattern.splitOn star) text) : Replaces star pattern text := by
  induction pattern generalizing text with
  | nil =>
    cases h with
    | last => exact .nil
    | gap h => cases h
  | cons a pattern ih =>
    rw [splitOn_cons_eq_if_modifyHead] at h
    by_cases ha : a = star
    · subst ha
      rw [if_pos (beq_self_eq_true a)] at h
      obtain ⟨gap, text', rfl, h₁⟩ := (expands_nil_cons (splitOn_ne_nil _ _)).mp h
      exact .star (ih h₁)
    · rw [if_neg (by simpa using ha)] at h
      obtain ⟨seg, segs, hspl⟩ := exists_cons_of_ne_nil (splitOn_ne_nil star pattern)
      rw [hspl, modifyHead_cons] at h
      obtain ⟨text', rfl, h₁⟩ := h.of_cons
      exact .symbol ha (ih (hspl ▸ h₁))

theorem Replaces.expands [DecidableEq α] {star : α} (h : Replaces star pattern text) :
    Expands (pattern.splitOn star) text := by
  induction h with
  | nil => exact .last
  | @symbol a pattern text ha h ih =>
    rw [splitOn_cons_eq_if_modifyHead, if_neg (by simpa using ha)]
    obtain ⟨seg, segs, hspl⟩ := exists_cons_of_ne_nil (splitOn_ne_nil star pattern)
    rw [hspl] at ih ⊢
    exact ih.cons a
  | star h ih =>
    rw [splitOn_cons_eq_if_modifyHead, if_pos (beq_self_eq_true star)]
    exact .gap ih

theorem replaces_iff [DecidableEq α] {star : α} :
    Replaces star pattern text ↔ Expands (pattern.splitOn star) text :=
  ⟨Replaces.expands, Expands.replaces⟩

theorem expands_singleton : Expands [seg] text ↔ text = seg := by
  constructor
  · intro h
    cases h with
    | last => rfl
    | gap h => cases h
  · rintro rfl
    exact .last

theorem Ordered.prepend (front : List α) (h : Ordered segs text) :
    Ordered segs (front ++ text) := by
  cases h with
  | nil => exact .nil
  | seg h =>
    rw [← append_assoc]
    exact .seg h

theorem Expands.ordered {last : List α} (h : Expands segs text)
    (hsegs : segs = first :: (middle ++ [last])) :
    ∃ body, text = first ++ (body ++ last) ∧ Ordered middle body := by
  induction h generalizing first middle with
  | last => simp at hsegs
  | @gap segs text seg gap h ih =>
    obtain ⟨rfl, rfl⟩ := List.cons.inj hsegs
    cases middle with
    | nil =>
      rw [nil_append, expands_singleton] at h
      exact ⟨gap, by rw [h], .nil⟩
    | cons second middle =>
      obtain ⟨body, rfl, hbd⟩ := ih (cons_append ..)
      exact ⟨gap ++ (second ++ body), by simp only [append_assoc], .seg hbd⟩

theorem Ordered.expands (h : Ordered middle body) :
    Expands (first :: (middle ++ [last])) (first ++ (body ++ last)) := by
  induction h generalizing first with
  | nil => exact .gap .last
  | @seg segs text seg gap h ih =>
    rw [append_assoc, append_assoc]
    exact .gap ih

theorem expands_iff :
    Expands (first :: (middle ++ [last])) text ↔
      ∃ body, text = first ++ (body ++ last) ∧ Ordered middle body := by
  constructor
  · intro h
    exact h.ordered rfl
  · rintro ⟨body, rfl, h⟩
    exact h.expands

theorem ordered_nil_cons : Ordered ([] :: segs) text ↔ Ordered segs text := by
  constructor
  · intro h
    cases h with
    | seg h => exact h.prepend _
  · intro h
    have hseg : Ordered ([] :: segs) ([] ++ ([] ++ text)) := .seg h
    exact hseg

structure First (seg text front back : List α) : Prop where
  occurs : text = front ++ (seg ++ back)
  least : ∀ front' back', text = front' ++ (seg ++ back') → front.length ≤ front'.length

theorem First.ordered_iff (h : First seg text front back) :
    Ordered (seg :: segs) text ↔ Ordered segs back := by
  constructor
  · intro hord
    generalize hcho : seg :: segs = choice at hord
    cases hord with
    | nil => cases hcho
    | @seg segs' rest seg' gap hrs =>
      obtain ⟨rfl, rfl⟩ := List.cons.inj hcho
      obtain ⟨skipped, rfl⟩ : rest <:+ back := by
        have hbk : back <:+ gap ++ (seg ++ rest) := ⟨front ++ seg, by rw [h.occurs, append_assoc]⟩
        have hrs : rest <:+ gap ++ (seg ++ rest) := ⟨gap ++ seg, by rw [append_assoc]⟩
        refine suffix_of_suffix_length_le hrs hbk ?_
        have hlea := h.least gap rest rfl
        have hlen := congrArg List.length h.occurs
        simp only [length_append] at hlen
        omega
      exact hrs.prepend _
  · intro hord
    rw [h.occurs]
    exact .seg hord

section Find
variable [BEq α]

def find (seg : List α) : List α → Option Nat
  | [] => if seg.isEmpty then some 0 else none
  | a :: text => if seg.isPrefixOf (a :: text) then some 0 else (find seg text).map (· + 1)

variable [LawfulBEq α]

theorem first_of_find {seg text : List α} (h : find seg text = some offset) :
    ∃ front back, First seg text front back ∧ front.length = offset := by
  induction text generalizing offset with
  | nil =>
    rw [find, Option.ite_none_right_eq_some] at h
    obtain ⟨hseg, hoff⟩ := h
    obtain rfl := isEmpty_iff.mp hseg
    exact ⟨[], [], ⟨rfl, fun _ _ _ => Nat.zero_le _⟩, Option.some.inj hoff⟩
  | cons a text ih =>
    rw [find] at h
    split at h
    · next hpre =>
      obtain ⟨back, hbk⟩ := isPrefixOf_iff_prefix.mp hpre
      exact ⟨[], back, ⟨hbk.symm, fun _ _ _ => Nat.zero_le _⟩, Option.some.inj h⟩
    · next hpre =>
      obtain ⟨offset, hfi, rfl⟩ := Option.map_eq_some_iff.mp h
      obtain ⟨front, back, ⟨hocc, hlea⟩, rfl⟩ := ih hfi
      refine ⟨a :: front, back, ⟨by rw [hocc, cons_append], ?_⟩, rfl⟩
      intro front' back' htx
      cases front' with
      | nil => exact absurd (List.isPrefixOf_iff_prefix.mpr ⟨back', htx.symm⟩) hpre
      | cons b front' => exact Nat.succ_le_succ (hlea front' back' (List.cons.inj htx).2)

theorem find_isSome (front seg back : List α) : (find seg (front ++ (seg ++ back))).isSome := by
  induction front with
  | nil =>
    cases seg with
    | nil => cases back <;> simp [find]
    | cons a seg =>
      rw [nil_append, cons_append, find,
        if_pos (List.isPrefixOf_iff_prefix.mpr ⟨back, cons_append⟩)]
      rfl
  | cons a front ih =>
    rw [cons_append, find]
    split
    · rfl
    · rwa [Option.isSome_map]

theorem find_eq_of_first {seg text : List α} (h : First seg text front back) :
    find seg text = some front.length := by
  have hso := find_isSome front seg back
  rw [← h.occurs] at hso
  obtain ⟨offset, hfi⟩ := Option.isSome_iff_exists.mp hso
  obtain ⟨front', back', hfst, rfl⟩ := first_of_find hfi
  rw [hfi, Nat.le_antisymm (hfst.least _ _ h.occurs) (h.least _ _ hfst.occurs)]

theorem not_ordered_of_find {seg text : List α} (h : find seg text = none) : ¬ Ordered (seg :: segs) text := by
  intro hord
  cases hord with
  | @seg _ rest _ gap hrs =>
    have hso := find_isSome gap seg rest
    rw [h] at hso
    cases hso

end Find

end Glob
