import Mathlib.Data.List.Basic
import Mathlib.Data.Nat.Find

namespace Tenure
open List

variable {ε : Type} {starts ends : ε → Prop}

structure Since (starts ends : ε → Prop) (log : List ε) (i : Nat) : Prop where
  start : ∃ e, log[i]? = some e ∧ starts e
  lasts : ∀ j e, i < j → log[j]? = some e → ¬ends e
  first : ∀ j e, j < i → log[j]? = some e → starts e →
    ∃ k e', j < k ∧ k < i ∧ log[k]? = some e' ∧ ends e'

namespace Since

theorem lt (h : Since starts ends log i) : i < log.length := by
  obtain ⟨e, he, -⟩ := h.start
  exact (List.getElem?_eq_some_iff.mp he).1

theorem exists_of_start {j : Nat} (hdis : ∀ e, starts e → ¬ends e)
    (hj : log[j]? = some e) (hst : starts e)
    (hlas : ∀ k e, j < k → log[k]? = some e → ¬ends e) :
    ∃ i, Since starts ends log i := by
  classical
  let ongoing (i : Nat) : Prop := (∃ e, log[i]? = some e ∧ starts e) ∧
    ∀ k e, i < k → log[k]? = some e → ¬ends e
  have hong : ∃ i, ongoing i := ⟨j, ⟨e, hj, hst⟩, hlas⟩
  obtain ⟨hfd, hrs⟩ := Nat.find_spec hong
  refine ⟨Nat.find hong, hfd, hrs, ?_⟩
  intro m e' hlt hm hst'
  by_contra hno
  refine Nat.find_min hong hlt ⟨⟨e', hm, hst'⟩, ?_⟩
  intro k e'' hmk hk hend
  -- An end after `m` lies before the place that was found, since that place itself is a start.
  rcases Nat.lt_trichotomy k (Nat.find hong) with hbef | heq | haft
  · exact hno ⟨k, e'', hmk, hbef, hk, hend⟩
  · obtain ⟨e₀, he₀, hst₀⟩ := hfd
    rw [← heq, hk] at he₀
    cases he₀
    exact hdis e'' hst₀ hend
  · exact hrs k e'' haft hk hend

theorem of_append (h : Since starts ends (log ++ [e]) i) :
    Since starts ends log i ∧ ¬ends e ∨
      i = log.length ∧ starts e ∧ ∀ j, ¬Since starts ends log j := by
  have hold {k : Nat} {e' : ε} (hk : log[k]? = some e') : (log ++ [e])[k]? = some e' :=
    List.getElem?_append_left (List.getElem?_eq_some_iff.mp hk).1 ▸ hk
  have hla : (log ++ [e])[log.length]? = some e := List.getElem?_concat_length
  have hlt := h.lt
  rw [List.length_append, List.length_singleton] at hlt
  rcases lt_or_eq_of_le (Nat.le_of_lt_succ hlt) with hi | rfl
  · refine .inl ⟨⟨?_, fun k e' hk he' => h.lasts k e' hk (hold he'), ?_⟩, h.lasts _ e hi hla⟩
    · obtain ⟨e', he', hst⟩ := h.start
      rw [getElem?_append_left hi] at he'
      exact ⟨e', he', hst⟩
    · intro m e' hm he' hst
      obtain ⟨k, e'', hmk, hki, hk, hend⟩ := h.first m e' hm (hold he') hst
      rw [getElem?_append_left (lt_trans hki hi)] at hk
      exact ⟨k, e'', hmk, hki, hk, hend⟩
  · refine .inr ⟨rfl, ?_, ?_⟩
    · obtain ⟨e', he', hst⟩ := h.start
      cases hla.symm.trans he'
      exact hst
    · intro j hj
      obtain ⟨e', he', hst⟩ := hj.start
      obtain ⟨k, e'', hjk, hk, hget, hend⟩ := h.first j e' hj.lt (hold he') hst
      rw [getElem?_append_left hk] at hget
      exact hj.lasts k e'' hjk hget hend

theorem append (h : Since starts ends log i) (hend : ¬ends e) :
    Since starts ends (log ++ [e]) i := by
  have hget {k : Nat} (hk : k < log.length) : (log ++ [e])[k]? = log[k]? := getElem?_append_left hk
  refine ⟨?_, ?_, ?_⟩
  · rw [hget h.lt]
    exact h.start
  · intro k e' hik hk
    rcases lt_or_ge k log.length with hlt | hge
    · rw [hget hlt] at hk
      exact h.lasts k e' hik hk
    · rw [getElem?_append_right hge] at hk
      cases mem_singleton.mp (mem_of_getElem? hk)
      exact hend
  · intro m e' hm hk hst
    rw [hget (lt_trans hm h.lt)] at hk
    obtain ⟨k, e'', hmk, hki, hk, hend'⟩ := h.first m e' hm hk hst
    exact ⟨k, e'', hmk, hki, by rw [hget (lt_trans hki h.lt), hk], hend'⟩

theorem append_start (hdis : ∀ e, starts e → ¬ends e)
    (h : ∀ j, ¬Since starts ends log j) (hst : starts e) :
    Since starts ends (log ++ [e]) log.length := by
  refine ⟨⟨e, getElem?_concat_length, hst⟩, ?_, ?_⟩
  · intro k e' hk hget
    have hlt := (List.getElem?_eq_some_iff.mp hget).1
    rw [length_append, length_singleton] at hlt
    omega
  · intro m e' hm hget hst'
    rw [List.getElem?_append_left hm] at hget
    by_contra hno
    obtain ⟨i, hi⟩ := exists_of_start hdis hget hst' (by
      intro k e'' hmk hk hend
      have hlt := (List.getElem?_eq_some_iff.mp hk).1
      exact hno ⟨k, e'', hmk, hlt, by rw [List.getElem?_append_left hlt, hk], hend⟩)
    exact h i hi

theorem append_iff (hdis : ∀ e, starts e → ¬ends e) :
    Since starts ends (log ++ [e]) i ↔
      Since starts ends log i ∧ ¬ends e ∨
        i = log.length ∧ starts e ∧ ∀ j, ¬Since starts ends log j := by
  constructor
  · exact of_append
  · rintro (⟨h, hend⟩ | ⟨rfl, hst, hno⟩)
    · exact h.append hend
    · exact append_start hdis hno hst

end Since

end Tenure
