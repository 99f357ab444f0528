import Mathlib.Data.List.Forall2

namespace RoundTrip
open List

variable {β ε α γ : Type}

abbrev Parser (β ε : Type) := StateT (List β) (Except ε)

def Reads (p : Parser β ε α) (xs : List β) (a : α) : Prop :=
  ∀ rest, p (xs ++ rest) = .ok (a, rest)

def times (p : Parser β ε α) : Nat → Parser β ε (List α)
  | 0 => return []
  | n + 1 => do
    let a ← p
    return a :: (← times p n)

variable {p q : Parser β ε α} {f : α → Parser β ε γ}

theorem bind_eq_ok {s t : List β} {c : γ} :
    (p >>= f) s = .ok (c, t) ↔ ∃ a u, p s = .ok (a, u) ∧ f a u = .ok (c, t) := by
  change Except.bind (p s) (fun x => f x.1 x.2) = _ ↔ _
  cases p s with
  | error e => simp [Except.bind]
  | ok x =>
    constructor
    · intro h
      exact ⟨x.1, x.2, rfl, h⟩
    · rintro ⟨a, u, hx, hf⟩
      cases hx
      exact hf

theorem bind_ok {s u : List β} {a : α} (h : p s = .ok (a, u)) : (p >>= f) s = f a u := by
  change Except.bind (p s) (fun x => f x.1 x.2) = _
  rw [h]
  rfl

theorem bind_error {s : List β} {e : ε} (h : p s = .error e) : (p >>= f) s = .error e := by
  change Except.bind (p s) (fun x => f x.1 x.2) = _
  rw [h]
  rfl

theorem bind_pure_eq_ok {f : α → γ} {s t : List β} {c : γ} :
    (p >>= fun a => pure (f a)) s = .ok (c, t) ↔ ∃ a, p s = .ok (a, t) ∧ c = f a := by
  rw [bind_eq_ok]
  constructor
  · rintro ⟨a, u, hp, h⟩
    cases h
    exact ⟨a, hp, rfl⟩
  · rintro ⟨a, hp, rfl⟩
    exact ⟨a, t, hp, rfl⟩

theorem drop_eq_ok {e : ε} {s t : List β} {u : Unit} :
    (if s.length < n then .error e else .ok ((), s.drop n) : Except ε (Unit × List β)) =
      .ok (u, t) ↔ ∃ front, front.length = n ∧ s = front ++ t := by
  constructor
  · intro h
    split at h
    · cases h
    · cases h
      exact ⟨s.take n, length_take_of_le (by omega), (take_append_drop n s).symm⟩
  · rintro ⟨front, rfl, rfl⟩
    rw [if_neg (by simp), drop_left]

theorem bind_get (f : List β → Parser β ε γ) (s : List β) : (get >>= f) s = f s s := rfl

namespace Reads

theorem pure (a : α) : Reads (.pure a : Parser β ε α) [] a := fun _ => rfl

theorem bind (hp : Reads p xs a) (hf : Reads (f a) ys c) : Reads (p >>= f) (xs ++ ys) c := by
  intro rest
  rw [append_assoc, bind_ok (hp (ys ++ rest))]
  exact hf rest

theorem finish (hp : Reads p xs a) (hf : Reads (f a) [] c) : Reads (p >>= f) xs c := by
  simpa using hp.bind hf

theorem times (h : List.Forall₂ (Reads p) xss as) :
    Reads (RoundTrip.times p as.length) xss.flatten as := by
  induction h with
  | nil => exact .pure []
  | cons hp _ ih => exact hp.bind (ih.finish (.pure _))

theorem times_map {enc : α → List β} (h : ∀ a ∈ as, Reads p (enc a) a) :
    Reads (RoundTrip.times p as.length) (as.map enc).flatten as := by
  apply Reads.times
  rw [forall₂_map_left_iff, forall₂_same]
  exact h

end Reads

def ReadsBefore (q : List β → Prop) (p : Parser β ε α) (xs : List β) (a : α) : Prop :=
  ∀ rest, q rest → p (xs ++ rest) = .ok (a, rest)

def itemsUntil (item : Parser β ε α) (more : Parser β ε Bool) (e : ε) : Nat → Parser β ε (List α)
  | 0 => throw e
  | n + 1 => do
    let a ← item
    if ← more then return a :: (← itemsUntil item more e n) else return [a]

def listedUntil [DecidableEq β] (close : β) (item : Parser β ε α) (more : Parser β ε Bool) (e : ε) :
    Parser β ε (List α) := do
  if (← get).head? = some close then
    modify List.tail
    return []
  else itemsUntil item more e ((← get).length + 1)

theorem Reads.before (h : Reads p xs a) (q : List β → Prop) :
    ReadsBefore q p xs a :=
  fun rest _ => h rest

theorem Reads.bind_before {q : List β → Prop} (hp : Reads p xs a) (hf : ReadsBefore q (f a) ys c) :
    ReadsBefore q (p >>= f) (xs ++ ys) c := by
  intro rest hrs
  rw [append_assoc, bind_ok (hp (ys ++ rest))]
  exact hf rest hrs

namespace ReadsBefore

theorem bind {q q' : List β → Prop} (hp : ReadsBefore q p xs a) (hf : ReadsBefore q' (f a) ys c)
    (hq : ∀ rest, q' rest → q (ys ++ rest)) : ReadsBefore q' (p >>= f) (xs ++ ys) c := by
  intro rest hrs
  rw [append_assoc, bind_ok (hp _ (hq rest hrs))]
  exact hf rest hrs

theorem bind_reads {q : List β → Prop}
    (hp : ReadsBefore q p xs a) (hf : Reads (f a) ys c) (hq : ∀ rest, q (ys ++ rest)) :
    Reads (p >>= f) (xs ++ ys) c := by
  intro rest
  rw [append_assoc, bind_ok (hp _ (hq rest))]
  exact hf rest

theorem finish {q : List β → Prop}
    (hp : ReadsBefore q p xs a) (hf : Reads (f a) [] c) : ReadsBefore q (p >>= f) xs c := by
  simpa using hp.bind (hf.before q) (by simp)

theorem itemsUntil {item : Parser β ε α} {more : Parser β ε Bool} {enc : α → List β}
    {q : List β → Prop} (hsep : Reads more sep true) (hcl : Reads more close false)
    (hq : ∀ rest, q (sep ++ rest)) (hq' : ∀ rest, q (close ++ rest))
    (h : ∀ a ∈ as, ReadsBefore q item (enc a) a) (hne : as ≠ []) (hn : as.length ≤ n) (e : ε) :
    Reads (RoundTrip.itemsUntil item more e n) (List.intercalate sep (as.map enc) ++ close) as := by
  induction as generalizing n with
  | nil => exact absurd rfl hne
  | cons a as ih =>
    obtain ⟨n, rfl⟩ : ∃ m, n = m + 1 := ⟨n - 1, by simp at hn; omega⟩
    obtain ⟨ha, has⟩ := forall_mem_cons.mp h
    cases as with
    | nil =>
      rw [map_singleton, intercalate_singleton]
      exact ha.bind_reads (hcl.finish (Reads.pure [a])) hq'
    | cons b bs =>
      have hrs := ih has (by simp) (Nat.le_of_succ_le_succ hn)
      have hmo : Reads (do
          if ← more then return a :: (← RoundTrip.itemsUntil item more e n) else return [a])
          (sep ++ (List.intercalate sep ((b :: bs).map enc) ++ close)) (a :: b :: bs) :=
        hsep.bind (hrs.finish (.pure (a :: b :: bs)))
      rw [map_cons, map_cons, intercalate_cons_cons, append_assoc, append_assoc]
      apply ha.bind_reads hmo
      intro rest
      rw [append_assoc]
      exact hq _

end ReadsBefore

theorem length_le_intercalate (sep : List β) {xss : List (List β)} (h : xs ∈ xss) :
    xs.length ≤ (List.intercalate sep xss).length := by
  induction xss with
  | nil => cases h
  | cons ys yss ih =>
    cases yss with
    | nil =>
      cases mem_singleton.mp h
      simp
    | cons zs zss =>
      rw [intercalate_cons_cons, length_append, length_append]
      rcases mem_cons.mp h with rfl | h
      · omega
      · have := ih h
        omega

theorem length_le_length_intercalate (b : β) (xss : List (List β)) :
    xss.length ≤ (List.intercalate [b] xss).length + 1 := by
  induction xss with
  | nil => simp
  | cons ys yss ih =>
    cases yss with
    | nil => simp
    | cons zs zss =>
      rw [intercalate_cons_cons, length_append, length_append, length_cons]
      have : [b].length = 1 := rfl
      omega

theorem splitOn_fields [DecidableEq β] {sep : β} {first : List β} {fields : List (List β)}
    (hfst : sep ∉ first) (h : ∀ field ∈ fields, sep ∉ field) :
    (first ++ fields.flatMap (sep :: ·)).splitOn sep = first :: fields := by
  have hjoin : first ++ fields.flatMap (sep :: ·) = List.intercalate [sep] (first :: fields) := by
    clear hfst h
    induction fields generalizing first with
    | nil => simp
    | cons field fields ih =>
      rw [intercalate_cons_cons, ← ih, flatMap_cons]
      simp
  rw [hjoin]
  exact splitOn_intercalate sep (forall_mem_cons.mpr ⟨hfst, h⟩) (cons_ne_nil _ _)

theorem head_intercalate {xss : List (List β)} {P : β → Prop} (sep : List β)
    (h : ∀ xs ∈ xss, ∃ b rest, xs = b :: rest ∧ P b) (hne : xss ≠ []) :
    ∃ b rest, List.intercalate sep xss = b :: rest ∧ P b := by
  cases xss with
  | nil => exact absurd rfl hne
  | cons xs xss =>
    obtain ⟨b, rest, rfl, hb⟩ := h xs mem_cons_self
    cases xss with
    | nil => exact ⟨b, rest, intercalate_singleton, hb⟩
    | cons ys yss =>
      exact ⟨b, _, by rw [intercalate_cons_cons, cons_append, cons_append], hb⟩

theorem ReadsBefore.listedUntil [DecidableEq β] {close : β} {item : Parser β ε α}
    {more : Parser β ε Bool} {enc : α → List β} {q : List β → Prop} {sep : β}
    (hsep : Reads more [sep] true) (hcl : Reads more [close] false)
    (hq : ∀ rest, q (sep :: rest)) (hq' : ∀ rest, q (close :: rest))
    (h : ∀ a ∈ as, ReadsBefore q item (enc a) a)
    (hbeg : ∀ a ∈ as, ∃ b rest, enc a = b :: rest ∧ b ≠ close) (e : ε) :
    Reads (RoundTrip.listedUntil close item more e)
      (List.intercalate [sep] (as.map enc) ++ [close]) as := by
  intro rest
  by_cases hne : as = []
  · subst hne
    have hemp : [sep].intercalate ([].map enc) ++ [close] ++ rest = close :: rest := rfl
    rw [hemp, RoundTrip.listedUntil, bind_get, if_pos head?_cons]
    rfl
  · have hmap : ∀ xs ∈ as.map enc, ∃ b rest, xs = b :: rest ∧ b ≠ close := by simpa using hbeg
    obtain ⟨b, text, htx, hb⟩ := head_intercalate [sep] hmap (by simpa using hne)
    have hlen := length_le_length_intercalate sep (as.map enc)
    have hits := itemsUntil hsep hcl hq hq' h hne
      (n := ([sep].intercalate (as.map enc) ++ [close] ++ rest).length + 1)
      (by simp only [length_map, length_append] at hlen ⊢; omega) e
    have hhd : ([sep].intercalate (as.map enc) ++ [close] ++ rest).head? ≠ some close := by
      rw [htx]
      simpa using hb
    rw [RoundTrip.listedUntil, bind_get, if_neg hhd, bind_get]
    exact hits rest

def skipWhile (f : β → Bool) : Parser β ε Unit := modify (List.dropWhile f)

theorem skipWhile_cons {f : β → Bool} (h : f c = false) (rest : List β) :
    (skipWhile f : Parser β ε Unit) (c :: rest) = .ok ((), c :: rest) := by
  have hdr : (c :: rest).dropWhile f = c :: rest := by simp [h]
  exact congrArg (fun s => Except.ok ((), s)) hdr

theorem ReadsBefore.skipWhile {q : List β → Prop} {f : β → Bool}
    (h : ReadsBefore q p (c :: xs) a) (hc : f c = false) :
    ReadsBefore q (do RoundTrip.skipWhile f; p) (c :: xs) a := by
  intro rest hrs
  rw [cons_append, bind_ok (skipWhile_cons hc _)]
  exact h rest hrs

theorem Reads.skipWhile {f : β → Bool} (h : Reads p (c :: xs) a)
    (hc : f c = false) : Reads (do RoundTrip.skipWhile f; p) (c :: xs) a :=
  fun rest => (h.before fun _ => True).skipWhile hc rest trivial

def Consumes (n : Nat) (p : Parser β ε α) : Prop :=
  ∀ s a t, p s = .ok (a, t) → t.length + n ≤ s.length

namespace Consumes

theorem pure (a : α) : Consumes 0 (.pure a : Parser β ε α) := by
  intro s b t h
  cases h
  exact Nat.le_refl _

theorem throw (e : ε) : Consumes n (MonadExcept.throw e : Parser β ε α) := nofun

theorem bind (hp : Consumes m p) (hf : ∀ a, Consumes 0 (f a)) : Consumes m (p >>= f) := by
  intro s c t h
  obtain ⟨a, u, hpu, hft⟩ := bind_eq_ok.mp h
  have hu := hp s a u hpu
  have ht := hf a u c t hft
  omega

theorem zero (hp : Consumes n p) : Consumes 0 p := by
  intro s a t h
  have := hp s a t h
  omega

theorem ite [Decidable c] (hp : Consumes n p) (hq : Consumes n q) :
    Consumes n (if c then p else q) := by
  split
  · exact hp
  · exact hq

theorem times (hp : Consumes 0 p) (n : Nat) :
    Consumes 0 (RoundTrip.times p n) := by
  induction n with
  | zero => exact .pure []
  | succ n ih => exact hp.bind fun a => ih.bind fun as => .pure (a :: as)

end Consumes

/-- What a parser does with the symbols it takes does not depend on what follows them. -/
def Extends (p : Parser β ε α) : Prop :=
  ∀ s a t rest, p s = .ok (a, t) → p (s ++ rest) = .ok (a, t ++ rest)

namespace Extends

theorem pure (a : α) : Extends (.pure a : Parser β ε α) := by
  intro s b t rest h
  cases h
  rfl

theorem throw (e : ε) : Extends (MonadExcept.throw e : Parser β ε α) := by
  intro s a t rest h
  cases h

theorem bind (hp : Extends p) (hf : ∀ a, Extends (f a)) : Extends (p >>= f) := by
  intro s c t rest h
  obtain ⟨a, u, hpu, hft⟩ := bind_eq_ok.mp h
  rw [bind_ok (hp s a u rest hpu)]
  exact hf a u c t rest hft

theorem ite [Decidable c] (hp : Extends p) (hq : Extends q) :
    Extends (if c then p else q) := by
  split
  · exact hp
  · exact hq

theorem error_of_front (h : Extends p) (hrds : Reads p (front ++ rest) a)
    (hne : rest ≠ []) : ∃ e, p front = .error e := by
  cases hp : p front with
  | error e => exact ⟨e, rfl⟩
  | ok x =>
    have hfu := h front x.1 x.2 rest hp
    have hexact := hrds []
    rw [append_nil, hfu] at hexact
    have hend := (Prod.mk.inj (Except.ok.inj hexact)).2
    exact absurd (append_eq_nil_iff.mp hend).2 hne

end Extends

def AgreeBelow (k : Nat) (p q : Parser β ε α) : Prop := ∀ s, s.length < k → p s = q s

namespace AgreeBelow

theorem refl (k : Nat) (p : Parser β ε α) : AgreeBelow k p p := fun _ _ => rfl

theorem bind {f g : α → Parser β ε γ} (hp : Consumes n p)
    (h : ∀ a, AgreeBelow (k - n) (f a) (g a)) : AgreeBelow k (p >>= f) (p >>= g) := by
  intro s hs
  cases hps : p s with
  | error e => rw [bind_error hps, bind_error hps]
  | ok x =>
    have hlen := hp s x.1 x.2 hps
    rw [bind_ok hps, bind_ok hps]
    exact h x.1 x.2 (by omega)

theorem bind_left (h : AgreeBelow k p q) :
    AgreeBelow k (p >>= f) (q >>= f) := by
  intro s hs
  have hpq := h s hs
  cases hps : p s with
  | error e => rw [bind_error hps, bind_error (hpq.symm.trans hps)]
  | ok x => rw [bind_ok hps, bind_ok (hpq.symm.trans hps)]

theorem trans {p q r : Parser β ε α} (h : AgreeBelow k p q) (h' : AgreeBelow k q r) :
    AgreeBelow k p r := fun s hs => (h s hs).trans (h' s hs)

theorem mono (h : AgreeBelow m p q) (hle : k ≤ m) : AgreeBelow k p q :=
  fun s hs => h s (by omega)

theorem ite {p p' q q' : Parser β ε α} [Decidable c] (hp : AgreeBelow k p p')
    (hq : AgreeBelow k q q') :
    AgreeBelow k (if c then p else q) (if c then p' else q') := by
  split
  · exact hp
  · exact hq

theorem times (h : AgreeBelow k p q) (hq : Consumes 0 q) (n : Nat) :
    AgreeBelow k (RoundTrip.times p n) (RoundTrip.times q n) := by
  induction n with
  | zero => exact refl k _
  | succ n ih => exact h.bind_left.trans (bind hq fun a => ih.bind_left)

end AgreeBelow

end RoundTrip
