import Mathlib.Data.List.Basic

namespace Framing

inductive Progress (ε α : Type) where
  | more
  | done (a : α)
  | failed (e : ε)

variable {β ε α : Type} {progress : List β → Progress ε α}

structure IsFrame (progress : List β → Progress ε α) (raw : List β) (a : α) : Prop where
  nonempty : raw ≠ []
  done : progress raw = .done a
  more : ∀ front rest, raw = front ++ rest → front ≠ [] → rest ≠ [] → progress front = .more

theorem IsFrame.of_take (hne : raw ≠ []) (hdn : progress raw = .done a)
    (hmo : ∀ n, 0 < n → n < raw.length → progress (raw.take n) = .more) :
    IsFrame progress raw a := by
  refine ⟨hne, hdn, ?_⟩
  intro front rest hraw hfr hrs
  have hlen : raw.length = front.length + rest.length := by rw [hraw, List.length_append]
  have hpos := List.length_pos_iff.mpr hfr
  have hpos' := List.length_pos_iff.mpr hrs
  have := hmo front.length hpos (by omega)
  rwa [hraw, List.take_left] at this

theorem IsFrame.unique (h : IsFrame progress raw a) (h' : IsFrame progress raw' a')
    (heq : raw ++ rest = raw' ++ rest') : raw = raw' ∧ a = a' ∧ rest = rest' := by
  have hraw : raw = raw' := by
    rcases List.append_eq_append_iff.mp heq with ⟨extra, hextra, -⟩ | ⟨extra, hextra, -⟩
    · by_contra hne
      have hmo := h'.more raw extra hextra h.nonempty (by rintro rfl; simp_all)
      rw [h.done] at hmo
      cases hmo
    · by_contra hne
      have hmo := h.more raw' extra hextra h'.nonempty (by rintro rfl; simp_all)
      rw [h'.done] at hmo
      cases hmo
  subst hraw
  have hdn := h.done.symm.trans h'.done
  cases hdn
  exact ⟨rfl, rfl, List.append_cancel_left heq⟩

/-- The stream begins with these frames, and `rest` is what comes after them. -/
inductive Splits (progress : List β → Progress ε α) : List β → List (List β × α) → List β → Prop
  | nil : Splits progress rest [] rest
  | cons : IsFrame progress raw a → Splits progress stream frames rest →
      Splits progress (raw ++ stream) ((raw, a) :: frames) rest

namespace Splits

theorem single (h : IsFrame progress raw a) : Splits progress raw [(raw, a)] [] := by
  have hspls : Splits progress (raw ++ []) [(raw, a)] [] := .cons h .nil
  rwa [List.append_nil] at hspls

theorem snoc (h : Splits progress stream frames (raw ++ rest)) (hraw : IsFrame progress raw a) :
    Splits progress stream (frames ++ [(raw, a)]) rest := by
  generalize hmid : raw ++ rest = middle at h
  induction h with
  | nil =>
    rw [← hmid]
    exact .cons hraw .nil
  | cons hfrm _ ih => exact .cons hfrm (ih hmid)

theorem resume (h : Splits progress stream frames rest) (hall : Splits progress stream all []) :
    ∃ later, all = frames ++ later ∧ Splits progress rest later [] := by
  induction h generalizing all with
  | nil => exact ⟨all, rfl, hall⟩
  | @cons raw a stream frames rest hfrm _ ih =>
    generalize hstrm : raw ++ stream = whole at hall
    cases hall with
    | nil => exact absurd (List.append_eq_nil_iff.mp hstrm).1 hfrm.nonempty
    | cons hfrm' hall =>
      obtain ⟨rfl, rfl, rfl⟩ := hfrm.unique hfrm' hstrm
      obtain ⟨later, rfl, hlat⟩ := ih hall
      exact ⟨later, rfl, hlat⟩

theorem initial (h : Splits progress stream frames rest) (hall : Splits progress stream all []) :
    frames <+: all := by
  obtain ⟨later, rfl, -⟩ := h.resume hall
  exact List.prefix_append ..

theorem eq_nil (h : Splits progress [] frames []) : frames = [] := by
  generalize hstrm : ([] : List β) = stream at h
  cases h with
  | nil => rfl
  | cons hfrm _ => exact absurd (List.append_eq_nil_iff.mp hstrm.symm).1 hfrm.nonempty

theorem complete (h : Splits progress stream frames []) (hall : Splits progress stream all []) :
    frames = all := by
  obtain ⟨later, rfl, hlat⟩ := h.resume hall
  rw [hlat.eq_nil, List.append_nil]

end Splits

/-- These frames have been read, and the next read has got some symbols that are no frame yet. -/
structure Reading (progress : List β → Progress ε α) (stream : List β)
    (frames : List (List β × α)) (read rest : List β) : Prop where
  splits : Splits progress stream frames (read ++ rest)
  more : ∀ front later, read = front ++ later → front ≠ [] → progress front = .more

namespace Reading
variable {read : List β}

theorem of_splits (h : Splits progress stream frames rest) :
    Reading progress stream frames [] rest := by
  refine ⟨h, ?_⟩
  intro front later hrd hfr
  exact absurd (List.append_eq_nil_iff.mp hrd.symm).1 hfr

theorem more_front (h : Reading progress stream frames read rest)
    (hrd : read ++ [b] = front ++ later) (hfr : front ≠ []) (hlat : later ≠ []) :
    progress front = .more := by
  rcases List.eq_nil_or_concat' later with rfl | ⟨later, c, rfl⟩
  · exact absurd rfl hlat
  · rw [← List.append_assoc] at hrd
    exact h.more front later (List.append_inj_left' hrd rfl) hfr

theorem feed_more (h : Reading progress stream frames read (b :: rest))
    (hmo : progress (read ++ [b]) = .more) :
    Reading progress stream frames (read ++ [b]) rest := by
  constructor
  · simpa using h.splits
  · intro front later hrd hfr
    by_cases hlat : later = []
    · rw [← hmo, hrd, hlat, List.append_nil]
    · exact h.more_front hrd hfr hlat

theorem feed_done (h : Reading progress stream frames read (b :: rest))
    (hdn : progress (read ++ [b]) = .done a) :
    Splits progress stream (frames ++ [(read ++ [b], a)]) rest := by
  apply Splits.snoc
  · simpa using h.splits
  · exact ⟨by simp, hdn, fun _ _ => h.more_front⟩

end Reading

end Framing
