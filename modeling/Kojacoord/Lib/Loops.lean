import Kojacoord.Lib.RoundTrip
import Mathlib.Algebra.GroupWithZero.Nat
import Mathlib.Logic.Relation

namespace RoundTrip
open List Nat

variable {β ε α γ σ : Type}

inductive Chain (R : σ → α → σ → Prop) : σ → List α → σ → Prop
  | nil : Chain R s [] s
  | cons : R s a t → Chain R t as u → Chain R s (a :: as) u

namespace Chain

theorem imp {R R' : σ → α → σ → Prop} (h : Chain R s as t) (hR : ∀ s a t, R s a t → R' s a t) :
    Chain R' s as t := by
  induction h with
  | nil => exact .nil
  | cons hfst _ ih => exact .cons (hR _ _ _ hfst) ih

theorem split_of_mem {R : σ → α → σ → Prop} (h : Chain R s as t) (ha : a ∈ as) :
    ∃ before after u v, as = before ++ a :: after ∧ Chain R s before u ∧ R u a v := by
  induction h with
  | nil => cases ha
  | @cons s b t as u hfst _ ih =>
    rcases mem_cons.mp ha with rfl | ha
    · exact ⟨[], as, s, t, rfl, .nil, hfst⟩
    · obtain ⟨before, after, v, w, rfl, hbef, hrd⟩ := ih ha
      exact ⟨b :: before, after, v, w, rfl, .cons hfst hbef, hrd⟩

theorem forall_mem {R : σ → α → σ → Prop} {P : α → Prop} (h : Chain R s as t)
    (hR : ∀ s a t, R s a t → P a) : ∀ a ∈ as, P a := by
  induction h with
  | nil => simp
  | cons hfst _ ih => exact forall_mem_cons.mpr ⟨hR _ _ _ hfst, ih⟩

theorem sum_le {R : List β → α → List β → Prop} {f : α → Nat} {m n : Nat} (h : Chain R s as t)
    (hR : ∀ s a t, R s a t → m * f a + n * t.length ≤ n * s.length) :
    m * (as.map f).sum + n * t.length ≤ n * s.length := by
  induction h with
  | nil => simp
  | cons hfst _ ih =>
    have hstep := hR _ _ _ hfst
    rw [map_cons, sum_cons, Nat.mul_add]
    omega

theorem length_le {R : List β → α → List β → Prop} (h : Chain R s as t)
    (hR : ∀ s a t, R s a t → t.length + n ≤ s.length) : t.length + n * as.length ≤ s.length := by
  induction h with
  | nil => exact Nat.le_refl _
  | @cons s a t as u hfst _ ih =>
    have hstep := hR _ _ _ hfst
    rw [length_cons, mul_succ]
    omega

theorem starts {R : List β → α → List β → Prop} (h : Chain R s as t)
    (hR : ∀ s a t, R s a t → t.length ≤ s.length) :
    Chain (fun u a v => R u a v ∧ u.length ≤ s.length) s as t := by
  induction h with
  | nil => exact .nil
  | cons hfst _ ih =>
    refine .cons ⟨hfst, Nat.le_refl _⟩ (ih.imp fun u a v huv => ⟨huv.1, ?_⟩)
    exact Nat.le_trans huv.2 (hR _ _ _ hfst)

end Chain

abbrev Yields (p : Parser β ε α) (s : List β) (a : α) (t : List β) : Prop := p s = .ok (a, t)

theorem bind_eq_error {p : Parser β ε α} {f : α → Parser β ε γ} {s : List β} {e : ε} :
    (p >>= f) s = .error e ↔
      p s = .error e ∨ ∃ a u, p s = .ok (a, u) ∧ f a u = .error e := by
  cases hp : p s with
  | error e' =>
    rw [bind_error hp]
    simp
  | ok x =>
    rw [bind_ok hp]
    constructor
    · intro h
      exact .inr ⟨x.1, x.2, rfl, h⟩
    · rintro (h | ⟨a, u, hx, h⟩)
      · cases h
      · cases hx
        exact h

section Times
variable {p : Parser β ε α} {s t : List β} {as : List α}

theorem times_eq_ok {n : Nat} :
    times p n s = .ok (as, t) ↔ as.length = n ∧ Chain (Yields p) s as t := by
  induction n generalizing s as with
  | zero =>
    constructor
    · intro h
      cases h
      exact ⟨rfl, .nil⟩
    · rintro ⟨hlen, h⟩
      cases h with
      | nil => rfl
      | cons => cases hlen
  | succ n ih =>
    constructor
    · intro h
      obtain ⟨a, u, ha, h⟩ := bind_eq_ok.mp h
      obtain ⟨rest, v, hrs, h⟩ := bind_eq_ok.mp h
      cases h
      obtain ⟨hlen, hch⟩ := ih.mp hrs
      exact ⟨by rw [length_cons, hlen], .cons ha hch⟩
    · rintro ⟨hlen, h⟩
      cases h with
      | nil => cases hlen
      | cons ha hrs =>
        have hrs' := ih.mpr ⟨Nat.succ.inj hlen, hrs⟩
        rw [times, bind_ok ha, bind_ok hrs']
        rfl

theorem times_eq_error {n : Nat} {e : ε} : times p n s = .error e ↔
    ∃ as u, as.length < n ∧ Chain (Yields p) s as u ∧ p u = .error e := by
  induction n generalizing s with
  | zero =>
    constructor
    · intro h
      cases h
    · rintro ⟨as, u, hlen, -⟩
      omega
  | succ n ih =>
    rw [times, bind_eq_error]
    constructor
    · rintro (hfst | ⟨a, u, ha, h⟩)
      · exact ⟨[], s, succ_pos n, .nil, hfst⟩
      · rcases bind_eq_error.mp h with hrs | ⟨rest, v, -, h⟩
        · obtain ⟨as, v, hlen, hch, hfai⟩ := ih.mp hrs
          exact ⟨a :: as, v, succ_lt_succ hlen, .cons ha hch, hfai⟩
        · cases h
    · rintro ⟨as, u, hlen, hch, hfai⟩
      cases hch with
      | nil => exact .inl hfai
      | cons ha hrs =>
        refine .inr ⟨_, _, ha, ?_⟩
        exact bind_eq_error.mpr (.inl (ih.mpr ⟨_, u, lt_of_succ_lt_succ hlen, hrs, hfai⟩))

end Times

def untilNone (p : Parser β ε (Option α)) (e : ε) : Nat → Parser β ε (List α)
  | 0 => throw e
  | n + 1 => do
    match ← p with
    | none => return []
    | some a => return a :: (← untilNone p e n)

section UntilNone
variable {p : Parser β ε (Option α)} {s t : List β} {as : List α} {e e' : ε}

abbrev YieldsSome (p : Parser β ε (Option α)) (s : List β) (a : α) (t : List β) : Prop :=
  p s = .ok (some a, t)

theorem untilNone_eq_ok {n : Nat} : untilNone p e n s = .ok (as, t) ↔
    as.length < n ∧ ∃ u, Chain (YieldsSome p) s as u ∧ p u = .ok (none, t) := by
  induction n generalizing s as with
  | zero =>
    constructor
    · intro h
      cases h
    · rintro ⟨hlen, -⟩
      omega
  | succ n ih =>
    constructor
    · intro h
      obtain ⟨o, u, ho, h⟩ := bind_eq_ok.mp h
      cases o with
      | none =>
        cases h
        exact ⟨succ_pos n, s, .nil, ho⟩
      | some a =>
        obtain ⟨rest, v, hrs, h⟩ := bind_eq_ok.mp h
        cases h
        obtain ⟨hlen, w, hch, hend⟩ := ih.mp hrs
        exact ⟨succ_lt_succ hlen, w, .cons ho hch, hend⟩
    · rintro ⟨hlen, u, hch, hend⟩
      cases hch with
      | nil =>
        rw [untilNone, bind_ok hend]
        rfl
      | cons ha hrs =>
        have hrs' := ih.mpr ⟨lt_of_succ_lt_succ hlen, u, hrs, hend⟩
        rw [untilNone, bind_ok ha]
        exact bind_ok hrs'

theorem untilNone_eq_error {n : Nat} (hp : Consumes 1 p) (hn : s.length < n) :
    untilNone p e' n s = .error e ↔
      ∃ as u, Chain (YieldsSome p) s as u ∧ p u = .error e := by
  induction n generalizing s with
  | zero => omega
  | succ n ih =>
    rw [untilNone, bind_eq_error]
    constructor
    · rintro (hfst | ⟨o, u, ho, h⟩)
      · exact ⟨[], s, .nil, hfst⟩
      · cases o with
        | none => cases h
        | some a =>
          have hlen := hp s _ u ho
          rcases bind_eq_error.mp h with hrs | ⟨rest, v, -, h⟩
          · obtain ⟨as, v, hch, hfai⟩ := (ih (by omega)).mp hrs
            exact ⟨a :: as, v, .cons ho hch, hfai⟩
          · cases h
    · rintro ⟨as, u, hch, hfai⟩
      cases hch with
      | nil => exact .inl hfai
      | @cons _ a v _ _ ha hrs =>
        have hlen := hp s _ v ha
        refine .inr ⟨_, _, ha, ?_⟩
        exact bind_eq_error.mpr (.inl ((ih (by omega)).mpr ⟨_, u, hrs, hfai⟩))

theorem consumes_untilNone (hp : Consumes 0 p) (n : Nat) : Consumes 0 (untilNone p e n) := by
  induction n with
  | zero => exact .throw e
  | succ n ih =>
    refine hp.bind fun item => ?_
    cases item with
    | none => exact .pure []
    | some a => exact ih.bind fun as => .pure (a :: as)

theorem AgreeBelow.untilNone {q : Parser β ε (Option α)} {m n n' : Nat} (h : AgreeBelow m p q)
    (hq : Consumes 1 q) (hp : p [] = .error e) (hq' : q [] = .error e) (hn : m ≤ n + 1)
    (hn' : m ≤ n' + 1) :
    AgreeBelow m (RoundTrip.untilNone p e n) (RoundTrip.untilNone q e n') := by
  have hnil {p : Parser β ε (Option α)} (hp : p [] = .error e) (n : Nat) :
      RoundTrip.untilNone p e n [] = .error e := by
    cases n with
    | zero => rfl
    | succ n => exact bind_error hp
  induction n generalizing m n' with
  | zero =>
    intro s hs
    have hemp := eq_nil_of_length_eq_zero (show s.length = 0 by omega)
    rw [hemp, hnil hp, hnil hq']
  | succ n ih =>
    cases n' with
    | zero =>
      intro s hs
      have hemp := eq_nil_of_length_eq_zero (show s.length = 0 by omega)
      rw [hemp, hnil hp, hnil hq']
    | succ n' =>
      refine h.bind_left.trans (.bind hq fun item => ?_)
      cases item with
      | none => exact .refl _ _
      | some a => exact (ih (h.mono (by omega)) (by omega) (by omega)).bind_left

end UntilNone

/-- If a call fails where it is bad itself or makes one that fails, and calls make smaller ones,
then it fails exactly where some call made for it is bad. -/
theorem fails_iff_reaches {calls : γ → γ → Prop} {fails bad : γ → Prop} (size : γ → Nat)
    (hsz : ∀ c c', calls c c' → size c' < size c)
    (hfai : ∀ c, fails c ↔ bad c ∨ ∃ c', calls c c' ∧ fails c') (c : γ) :
    fails c ↔ ∃ c', Relation.ReflTransGen calls c c' ∧ bad c' := by
  constructor
  · intro h
    induction hn : size c using Nat.strongRecOn generalizing c with
    | ind n ih =>
      rcases (hfai c).mp h with hbad | ⟨c', hcl, h⟩
      · exact ⟨c, .refl, hbad⟩
      · have hlt := hsz c c' hcl
        obtain ⟨last, hcs, hbad⟩ := ih (size c') (by omega) c' h rfl
        exact ⟨last, hcs.head hcl, hbad⟩
  · rintro ⟨last, hcs, hbad⟩
    induction hcs using Relation.ReflTransGen.head_induction_on with
    | refl => exact (hfai last).mpr (.inl hbad)
    | head hcl _ ih => exact (hfai _).mpr (.inr ⟨_, hcl, ih⟩)

end RoundTrip
