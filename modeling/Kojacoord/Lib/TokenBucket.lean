import Kojacoord.Lib.AssocList
import Mathlib.Algebra.Order.Ring.Rat

namespace TokenBucket
open AssocList

/-- What a table of token buckets is run by. Times are natural numbers in a unit of one's own, and
`rate` is the refill per unit. -/
structure Rules where
  capacity : ℚ
  rate : ℚ
  banDuration : Nat
  maxRecords : Nat
  staleAfter : Nat

structure Bucket where
  tokens : ℚ
  lastUpdate : Nat
  bannedUntil : Option Nat

inductive Refusal where
  | tableFull
  | banned
  | empty
deriving DecidableEq

abbrev Table (κ : Type) := AList fun _ : κ => Bucket

def Bucket.bannedAt (now : Nat) (b : Bucket) : Bool := b.bannedUntil.any (now < ·)

namespace Rules
variable {κ : Type} [DecidableEq κ] (r : Rules)

def fresh (now : Nat) : Bucket := ⟨r.capacity, now, none⟩

def keeps (now : Nat) (b : Bucket) : Bool :=
  b.bannedAt now || b.tokens < r.capacity || now - b.lastUpdate < r.staleAfter

def evict (now : Nat) (table : Table κ) : Table κ := retain (r.keeps now) table

/-- Takes a token out of a bucket. An empty bucket is banned for a while, and the ban leaves it
full. -/
def draw (now : Nat) (b : Bucket) : Except Refusal Unit × Bucket :=
  if b.bannedAt now then (.error .banned, b)
  else
    let start := if b.bannedUntil.isSome then r.capacity else b.tokens
    let tokens := min (start + (now - b.lastUpdate : Nat) * r.rate) r.capacity
    if tokens < 1 then (.error .empty, ⟨tokens, now, some (now + r.banDuration)⟩)
    else (.ok (), ⟨tokens - 1, now, none⟩)

def makeRoom (now : Nat) (key : κ) (table : Table κ) : Table κ :=
  if key ∉ table ∧ r.maxRecords ≤ table.keys.length then r.evict now table else table

def check (now : Nat) (key : κ) (table : Table κ) : Except Refusal Unit × Table κ :=
  let room := r.makeRoom now key table
  if key ∉ table ∧ r.maxRecords ≤ room.keys.length then (.error .tableFull, room)
  else
    let (result, bucket) := r.draw now ((room.lookup key).getD (r.fresh now))
    (result, room.insert key bucket)

/-- The key has lost no token from one table to the other: a bucket that is gone was full. -/
def Spares (before after : Table κ) (key : κ) : Prop :=
  after.lookup key = before.lookup key ∨
    after.lookup key = none ∧ ∃ b, before.lookup key = some b ∧ r.capacity ≤ b.tokens

variable {r}

theorem Spares.refl (table : Table κ) (key : κ) : r.Spares table table key := .inl rfl

theorem Spares.insert {before after : Table κ} (h : r.Spares before after key)
    (hne : key ≠ other) : r.Spares before (after.insert other b) key := by
  rw [Spares, AList.lookup_insert_ne hne]
  exact h

theorem spares_evict (now : Nat) (table : Table κ) (key : κ) :
    r.Spares table (r.evict now table) key := by
  rw [Spares, evict, lookup_retain]
  cases hb : table.lookup key with
  | none => exact .inl rfl
  | some b =>
    cases hkp : r.keeps now b with
    | true => exact .inl (by rw [Option.filter_some, hkp]; rfl)
    | false =>
      refine .inr ⟨by rw [Option.filter_some, hkp]; rfl, b, rfl, ?_⟩
      simp only [keeps, Bool.or_eq_false_iff, decide_eq_false_iff_not] at hkp
      exact not_lt.mp hkp.1.2

theorem spares_check (now : Nat) (key : κ) (table : Table κ) (hne : other ≠ key) :
    r.Spares table (r.check now key table).2 other := by
  have hrm : r.Spares table (r.makeRoom now key table) other := by
    rw [makeRoom]
    split
    · exact spares_evict now table other
    · exact .refl table other
  rw [check]
  split
  · exact hrm
  · exact hrm.insert hne

section Drawn
variable {table : Table κ}

variable (r) in
def Drawn (table : Table κ) : Prop :=
  ∀ key b, table.lookup key = some b → b.tokens < r.capacity

theorem drawn_empty : r.Drawn (∅ : Table κ) := by
  intro key b h
  cases h

theorem tokens_draw_lt (hcap : 1 ≤ r.capacity)
    (h : b.bannedAt now = true → b.tokens < r.capacity) :
    (r.draw now b).2.tokens < r.capacity := by
  rw [draw]
  split
  · next hban => exact h hban
  · dsimp only
    generalize (if b.bannedUntil.isSome then r.capacity else b.tokens) = start
    split
    · next hemp => exact lt_of_lt_of_le hemp hcap
    · exact (sub_lt_self _ one_pos).trans_le (min_le_right _ _)

theorem Drawn.evict_eq (h : r.Drawn table) (now : Nat) : r.evict now table = table := by
  apply retain_eq_self
  intro key b hb
  simp [keeps, h key b hb]

theorem Drawn.makeRoom_eq (h : r.Drawn table) : r.makeRoom now key table = table := by
  rw [makeRoom, h.evict_eq, ite_self]

theorem Drawn.check (h : r.Drawn table) (hcap : 1 ≤ r.capacity) (now : Nat) (key : κ) :
    r.Drawn (r.check now key table).2 := by
  rw [Rules.check, h.makeRoom_eq]
  split
  · exact h
  · intro other b hb
    by_cases hoth : other = key
    · subst hoth
      rw [AList.lookup_insert] at hb
      obtain rfl := Option.some.inj hb
      apply tokens_draw_lt hcap
      cases hkey : table.lookup other with
      | none => exact fun hban => by cases hban
      | some b => exact fun _ => h other b hkey
    · rw [AList.lookup_insert_ne hoth] at hb
      exact h other b hb

theorem draw_fresh (hcap : 1 ≤ r.capacity) : (r.draw now (r.fresh now)).1 = .ok () := by
  have htok : min (r.capacity + ((now - now : Nat) : ℚ) * r.rate) r.capacity = r.capacity := by
    rw [Nat.sub_self, Nat.cast_zero, zero_mul, add_zero, min_self]
  have hno : (r.fresh now).bannedAt now = false := rfl
  rw [draw, hno]
  simp only [fresh, Option.isSome_none, Bool.false_eq_true, if_false, htok,
    if_neg (not_lt.mpr hcap)]

theorem Drawn.check_new (h : r.Drawn table) (hcap : 1 ≤ r.capacity) (hnew : key ∉ table)
    (now : Nat) : (r.check now key table).1 =
      if r.maxRecords ≤ table.keys.length then .error .tableFull else .ok () := by
  rw [Rules.check, h.makeRoom_eq, AList.lookup_eq_none.mpr hnew, Option.getD_none]
  split
  · next hfu => rw [if_pos hfu.2]
  · next hfu =>
    rw [if_neg fun hlen => hfu ⟨hnew, hlen⟩]
    exact draw_fresh hcap

end Drawn

end Rules

end TokenBucket
