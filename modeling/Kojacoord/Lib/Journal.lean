import Mathlib.Data.List.Basic

namespace Journal
open List

abbrev Prog (σ ε α : Type) := ExceptT ε (StateM σ) α

section Runs
variable {σ ε α β : Type}

theorem run_bind (x : Prog σ ε α) (f : α → Prog σ ε β) (s : σ) :
    (x >>= f).run s = match x.run s with
      | (.ok a, t) => (f a).run t
      | (.error e, t) => (.error e, t) := by
  change (match x.run s with | (r, t) => ExceptT.bindCont f r t) = _
  rcases x.run s with ⟨r, t⟩
  cases r <;> rfl

theorem run_tryCatch (x : Prog σ ε α) (f : ε → Prog σ ε α) (s : σ) :
    (tryCatch x f).run s = match x.run s with
      | (.ok a, t) => (.ok a, t)
      | (.error e, t) => (f e).run t := by
  let resume (r : Except ε α) : StateM σ (Except ε α) := match r with
    | .ok a => pure (.ok a)
    | .error e => f e
  change (match x.run s with | (r, t) => resume r t) = _
  rcases x.run s with ⟨r, t⟩
  cases r <;> rfl

theorem run_map (f : α → β) (x : Prog σ ε α) (s : σ) :
    (f <$> x).run s = match x.run s with
      | (.ok a, t) => (.ok (f a), t)
      | (.error e, t) => (.error e, t) := by
  let resume (r : Except ε α) : StateM σ (Except ε β) := match r with
    | .ok a => pure (.ok (f a))
    | .error e => pure (.error e)
  change (match x.run s with | (r, t) => resume r t) = _
  rcases x.run s with ⟨r, t⟩
  cases r <;> rfl

theorem run_bind_ok {x : Prog σ ε α} (f : α → Prog σ ε β) (h : x.run s = (.ok a, t)) :
    (x >>= f).run s = (f a).run t := by
  rw [run_bind, h]

theorem run_bind_error {x : Prog σ ε α} (f : α → Prog σ ε β) (h : x.run s = (.error e, t)) :
    (x >>= f).run s = (.error e, t) := by
  rw [run_bind, h]

theorem run_bind_eq_ok {x : Prog σ ε α} {f : α → Prog σ ε β} (h : (x >>= f).run s = (.ok b, t)) :
    ∃ a u, x.run s = (.ok a, u) ∧ (f a).run u = (.ok b, t) := by
  rw [run_bind] at h
  rcases hx : x.run s with ⟨result, u⟩
  rw [hx] at h
  cases result with
  | ok a => exact ⟨a, u, rfl, h⟩
  | error e => cases h

theorem run_bind_eq_error {x : Prog σ ε α} {f : α → Prog σ ε β}
    (h : (x >>= f).run s = (.error e, t)) :
    x.run s = (.error e, t) ∨ ∃ a u, x.run s = (.ok a, u) ∧ (f a).run u = (.error e, t) := by
  rw [run_bind] at h
  rcases hx : x.run s with ⟨result, u⟩
  rw [hx] at h
  cases result with
  | ok a => exact .inr ⟨a, u, rfl, h⟩
  | error e' =>
    cases h
    exact .inl rfl

theorem run_recover (x : Prog σ ε Unit) (s : σ) :
    ∃ t, (tryCatch x fun _ => pure ()).run s = (.ok (), t) := by
  rw [run_tryCatch]
  rcases x.run s with ⟨a | a, t⟩ <;> exact ⟨t, rfl⟩

theorem run_get (s : σ) : (get : Prog σ ε σ).run s = (.ok s, s) := rfl

theorem run_set (s t : σ) : (set t : Prog σ ε PUnit).run s = (.ok ⟨⟩, t) := rfl

end Runs

def Within (S : σ → σ → Prop) (x : Prog σ ε α) : Prop := ∀ s, S s (x.run s).2

namespace Within
variable {σ ε α β : Type} {S : σ → σ → Prop} {x : Prog σ ε α} {f : α → Prog σ ε β}
  (htrans : ∀ {s t u}, S s t → S t u → S s u)
include htrans

theorem bind (hx : Within S x) (hf : ∀ a, Within S (f a)) : Within S (x >>= f) := by
  intro s
  have hs := hx s
  rw [run_bind]
  rcases h : x.run s with ⟨r, t⟩
  rw [h] at hs
  cases r with
  | ok a => exact htrans hs (hf a t)
  | error e => exact hs

theorem tryCatch {f : ε → Prog σ ε α} (hx : Within S x) (hf : ∀ e, Within S (f e)) :
    Within S (MonadExcept.tryCatch x f) := by
  intro s
  have hs := hx s
  have hrun := run_tryCatch x f s
  rw [hrun]
  rcases h : x.run s with ⟨r, t⟩
  rw [h] at hs
  cases r with
  | ok a => exact hs
  | error e => exact htrans hs (hf e t)

end Within

def Yields (Q : Except ε α → Prop) (x : Prog σ ε α) : Prop := ∀ s, Q (x.run s).1

theorem Yields.bind {x : Prog σ ε α} {f : α → Prog σ ε β} {Q : Except ε β → Prop}
    (hf : ∀ a, Yields Q (f a)) (he : ∀ e, Q (.error e)) : Yields Q (x >>= f) := by
  intro s
  rw [run_bind]
  split
  · exact hf _ _
  · exact he _

def Preserves (view : σ → ν) (x : Prog σ ε α) : Prop := ∀ s, view (x.run s).2 = view s

namespace Preserves
variable {σ ε α β ν : Type} {view : σ → ν} {x : Prog σ ε α} {f : α → Prog σ ε β}

theorem pure : Preserves view (.pure a : Prog σ ε α) := fun _ => rfl

theorem throw : Preserves view (MonadExcept.throw e : Prog σ ε α) := fun _ => rfl

theorem get : Preserves view (MonadState.get : Prog σ ε σ) := fun _ => rfl

theorem view_bind (hf : ∀ a, Preserves view (f a)) (s : σ) :
    view ((x >>= f).run s).2 = view (x.run s).2 := by
  rcases h : x.run s with ⟨r, t⟩
  cases r with
  | ok a => rw [run_bind_ok f h, hf a t]
  | error e => rw [run_bind_error f h]

theorem bind (hx : Preserves view x) (hf : ∀ a, Preserves view (f a)) :
    Preserves view (x >>= f) :=
  fun s => (view_bind hf s).trans (hx s)

theorem tryCatch {f : ε → Prog σ ε α} (hx : Preserves view x) (hf : ∀ e, Preserves view (f e)) :
    Preserves view (MonadExcept.tryCatch x f) :=
  Within.tryCatch (S := fun s t => view t = view s) (fun h h' => h'.trans h) hx hf

end Preserves

variable {σ ε α β A : Type} {log : σ → List A} {x : Prog σ ε α} {f : α → Prog σ ε β}
  {R : List A → Except ε α → Prop} {p q : A → Prop}

/-- Every run of the program only appends to the log, and what it appends satisfies `R` together
with the result. -/
def Traces (log : σ → List A) (x : Prog σ ε α) (R : List A → Except ε α → Prop) : Prop :=
  ∀ s, ∃ acts, log (x.run s).2 = log s ++ acts ∧ R acts (x.run s).1

theorem Traces.mono {S : List A → Except ε α → Prop} (h : Traces log x R)
    (hR : ∀ acts r, R acts r → S acts r) : Traces log x S := by
  intro s
  obtain ⟨acts, hlog, hr⟩ := h s
  exact ⟨acts, hlog, hR _ _ hr⟩

theorem Traces.of_silent (h : Preserves log x) (hR : ∀ r, R [] r) :
    Traces log x R := by
  intro s
  refine ⟨[], ?_, hR _⟩
  rw [h, append_nil]

theorem Traces.pure (h : R [] (.ok a)) : Traces log (.pure a) R := by
  intro s
  exact ⟨[], (append_nil _).symm, h⟩

theorem Traces.throw (h : R [] (.error e)) : Traces log (MonadExcept.throw e) R := by
  intro s
  exact ⟨[], (append_nil _).symm, h⟩

theorem Traces.bind {S : List A → Except ε β → Prop} (hx : Traces log x R)
    (hf : ∀ acts a, R acts (.ok a) → Traces log (f a) fun acts' r => S (acts ++ acts') r)
    (he : ∀ acts e, R acts (.error e) → S acts (.error e)) : Traces log (x >>= f) S := by
  intro s
  obtain ⟨acts, hlog, hr⟩ := hx s
  rw [run_bind]
  rcases h : x.run s with ⟨r, t⟩
  rw [h] at hlog hr
  cases r with
  | ok a =>
    obtain ⟨acts', hlog', hr'⟩ := hf acts a hr t
    refine ⟨acts ++ acts', ?_, hr'⟩
    rw [← append_assoc, ← hlog]
    exact hlog'
  | error e => exact ⟨acts, hlog, he acts e hr⟩

theorem Traces.tryCatch {S : List A → Except ε α → Prop} {f : ε → Prog σ ε α}
    (hx : Traces log x R) (ha : ∀ acts a, R acts (.ok a) → S acts (.ok a))
    (hf : ∀ acts e, R acts (.error e) → Traces log (f e) fun acts' r => S (acts ++ acts') r) :
    Traces log (MonadExcept.tryCatch x f) S := by
  intro s
  obtain ⟨acts, hlog, hr⟩ := hx s
  have hrun := run_tryCatch x f s
  rw [hrun]
  rcases h : x.run s with ⟨r, t⟩
  rw [h] at hlog hr
  cases r with
  | ok a => exact ⟨acts, hlog, ha acts a hr⟩
  | error e =>
    obtain ⟨acts', hlog', hr'⟩ := hf acts e hr t
    refine ⟨acts ++ acts', ?_, hr'⟩
    rw [← append_assoc, ← hlog]
    exact hlog'

def added (log : σ → List A) (x : Prog σ ε α) (s : σ) : List A :=
  (log (x.run s).2).drop (log s).length

theorem log_eq_added (h : Traces log x R) (s : σ) : log (x.run s).2 = log s ++ added log x s := by
  obtain ⟨acts, hlog, -⟩ := h s
  rw [added, hlog, drop_left]

theorem Traces.added (h : Traces log x R) (s : σ) : R (added log x s) (x.run s).1 := by
  obtain ⟨acts, hlog, hr⟩ := h s
  rw [Journal.added, hlog, drop_left]
  exact hr

theorem added_bind_ok {S : List A → Except ε β → Prop} (hx : Traces log x R)
    (hf : Traces log (f a) S) (h : x.run s = (.ok a, t)) :
    added log (x >>= f) s = added log x s ++ added log (f a) t := by
  have hlog := log_eq_added hx s
  rw [h] at hlog
  have hlat := log_eq_added hf t
  rw [hlog, append_assoc] at hlat
  rw [added, run_bind_ok f h, hlat, drop_left]

theorem added_bind_error (h : x.run s = (.error e, t)) :
    added log (x >>= f) s = added log x s := by
  rw [added, added, run_bind_error f h, h]

def Appends (log : σ → List A) (p : A → Prop) (s t : σ) : Prop :=
  ∃ acts, log t = log s ++ acts ∧ ∀ a ∈ acts, p a

theorem Appends.trans (h : Appends log p s t) (h' : Appends log p t u) : Appends log p s u := by
  obtain ⟨acts, hlog, hacts⟩ := h
  obtain ⟨acts', hlog', hacts'⟩ := h'
  refine ⟨acts ++ acts', by rw [hlog', hlog, append_assoc], ?_⟩
  intro a ha
  rcases mem_append.mp ha with ha | ha
  · exact hacts a ha
  · exact hacts' a ha

def Keeps (log : σ → List A) (p : A → Prop) (x : Prog σ ε α) : Prop :=
  Traces log x fun acts _ => ∀ a ∈ acts, p a

namespace Keeps

theorem of_silent (h : Preserves log x) : Keeps log p x := by
  apply Traces.of_silent h
  intro r a ha
  cases ha

theorem pure : Keeps log p (.pure a : Prog σ ε α) := of_silent fun _ => rfl

theorem throw : Keeps log p (MonadExcept.throw e : Prog σ ε α) := of_silent fun _ => rfl

theorem get : Keeps log p (MonadState.get : Prog σ ε σ) := of_silent fun _ => rfl

theorem bind (hx : Keeps log p x) (hf : ∀ a, Keeps log p (f a)) : Keeps log p (x >>= f) :=
  Within.bind (S := Appends log p) .trans hx hf

theorem tryCatch {f : ε → Prog σ ε α} (hx : Keeps log p x) (hf : ∀ e, Keeps log p (f e)) :
    Keeps log p (MonadExcept.tryCatch x f) :=
  Within.tryCatch (S := Appends log p) .trans hx hf

end Keeps

/-- Started where `I` holds, the program stays there, and every act it appends to the log meets
`p`. -/
def KeepsIn (log : σ → List A) (I : σ → Prop) (p : A → Prop) (x : Prog σ ε α) : Prop :=
  ∀ s, I s → I (x.run s).2 ∧ ∃ acts, log (x.run s).2 = log s ++ acts ∧ ∀ a ∈ acts, p a

namespace KeepsIn
variable {I : σ → Prop}

theorem keeps (h : KeepsIn log (fun _ => True) p x) : Keeps log p x := fun s => (h s trivial).2

theorem of_silent (hI : ∀ s, I s → I (x.run s).2) (hlog : Preserves log x) : KeepsIn log I p x := by
  intro s hs
  refine ⟨hI s hs, [], ?_, fun a ha => nomatch ha⟩
  rw [hlog, append_nil]

theorem of_append (act : σ → A) (hI : ∀ s, I s → I (x.run s).2)
    (h : ∀ s, log (x.run s).2 = log s ++ [act s]) (hp : ∀ s, I s → p (act s)) :
    KeepsIn log I p x := by
  intro s hs
  refine ⟨hI s hs, [act s], h s, ?_⟩
  intro a ha
  rw [mem_singleton.mp ha]
  exact hp s hs

theorem pure : KeepsIn log I p (.pure a : Prog σ ε α) := of_silent (fun _ h => h) fun _ => rfl

theorem throw : KeepsIn log I p (MonadExcept.throw e : Prog σ ε α) :=
  of_silent (fun _ h => h) fun _ => rfl

theorem get_bind {f : σ → Prog σ ε α} (h : ∀ s, I s → KeepsIn log I p (f s)) :
    KeepsIn log I p (MonadState.get >>= f) := fun s hs => h s hs s hs

theorem trans (h : I s → I t ∧ Appends log p s t) (h' : I t → I u ∧ Appends log p t u) (hs : I s) :
    I u ∧ Appends log p s u :=
  ⟨(h' (h hs).1).1, (h hs).2.trans (h' (h hs).1).2⟩

theorem bind (hx : KeepsIn log I p x) (hf : ∀ a, KeepsIn log I p (f a)) :
    KeepsIn log I p (x >>= f) :=
  Within.bind (S := fun s t => I s → I t ∧ Appends log p s t) trans hx hf

theorem tryCatch {f : ε → Prog σ ε α} (hx : KeepsIn log I p x) (hf : ∀ e, KeepsIn log I p (f e)) :
    KeepsIn log I p (MonadExcept.tryCatch x f) :=
  Within.tryCatch (S := fun s t => I s → I t ∧ Appends log p s t) trans hx hf

end KeepsIn

def Justified (J : List A → A → Prop) (past acts : List A) : Prop :=
  ∀ before act after, acts = before ++ act :: after → J (past ++ before) act

theorem Justified.append {J : List A → A → Prop} (h : Justified J past acts)
    (h' : Justified J (past ++ acts) acts') : Justified J past (acts ++ acts') := by
  intro before act after hacts
  -- The act is either one of the first or one of the later ones.
  rcases append_eq_append_iff.mp hacts.symm with ⟨rest, hb, hrs⟩ | ⟨rest, hb, hrs⟩
  · cases rest with
    | nil =>
      have hlat := h' [] act after hrs.symm
      rw [append_nil] at hb hlat
      rwa [hb] at hlat
    | cons a rest =>
      obtain ⟨rfl, -⟩ := hrs
      exact h before act rest hb
  · have hlat := h' rest act after hrs
    rwa [append_assoc, ← hb] at hlat

def Safe (log : σ → List A) (J : List A → A → Prop) (past : List A) (x : Prog σ ε α) : Prop :=
  Traces log x fun acts _ => Justified J past acts

namespace Safe
variable {J : List A → A → Prop} {past : List A}

theorem bind_traces (hx : Traces log x R) (hJ : ∀ acts r, R acts r → Justified J past acts)
    (hf : ∀ acts a, R acts (.ok a) → Safe log J (past ++ acts) (f a)) :
    Safe log J past (x >>= f) := by
  apply Traces.bind hx
  · intro acts a hacts
    apply Traces.mono (hf acts a hacts)
    intro acts' r hacts'
    exact (hJ acts _ hacts).append hacts'
  · intro acts e hacts
    exact hJ acts _ hacts

theorem bind (hx : Safe log J past x) (hf : ∀ acts a, Safe log J (past ++ acts) (f a)) :
    Safe log J past (x >>= f) :=
  bind_traces hx (fun _ _ h => h) fun acts a _ => hf acts a

theorem tryCatch {f : ε → Prog σ ε α} (hx : Safe log J past x)
    (hf : ∀ acts e, Safe log J (past ++ acts) (f e)) :
    Safe log J past (MonadExcept.tryCatch x f) := by
  apply Traces.tryCatch hx
  · intro acts a hacts
    exact hacts
  · intro acts e hacts
    apply Traces.mono (hf acts e)
    intro acts' r hacts'
    exact hacts.append hacts'

end Safe

end Journal
