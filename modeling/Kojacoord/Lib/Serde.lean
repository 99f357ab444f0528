import Mathlib.Data.List.Basic
import Mathlib.Algebra.Group.Nat.Defs

namespace Serde
open List Option

/-- A document as its reader hands it on: numbers are kept if they are unsigned integers of 64 bits,
and objects keep all entries in the order read. -/
inductive Value where
  | null
  | bool (b : Bool)
  | int (n : UInt64)
  | number
  | str (s : String)
  | arr (elems : List Value)
  | obj (fields : List (String × Value))

def Value.asString : Value → Option String
  | str s => some s
  | _ => none

def Value.asBool : Value → Option Bool
  | bool b => some b
  | _ => none

def Value.asUInt (w : Nat) : Value → Option UInt64
  | int n => if n.toNat < 2 ^ w then some n else none
  | _ => none

abbrev Slots := String → Option Value

/-- Reads the entries of an object into the known fields: an unknown key is ignored, a known key
that comes twice is an error. -/
def visitMap (known : List String) : List (String × Value) → Slots → Option Slots
  | [], slots => some slots
  | (key, v) :: rest, slots =>
    if key ∈ known then
      match slots key with
      | some _ => none
      | none => visitMap known rest (Function.update slots key (some v))
    else visitMap known rest slots

/-- Reads the elements of an array into the fields in order. Only a field with a default may be
missing at the end. -/
def visitSeq : List (String × Bool) → List Value → Slots → Option Slots
  | [], [], slots => some slots
  | [], _ :: _, _ => none
  | (_, hasDefault) :: spec, [], slots => if hasDefault then visitSeq spec [] slots else none
  | (key, _) :: spec, v :: rest, slots => visitSeq spec rest (Function.update slots key (some v))

def Value.slots (spec : List (String × Bool)) : Value → Option Slots
  | .obj fields => visitMap (spec.map (·.1)) fields fun _ => none
  | .arr elems => visitSeq spec elems fun _ => none
  | _ => none

/-- Splits an internally tagged document into its tag and the rest. The tag is the value of its key,
which must not come twice, or the first element. -/
def Value.tagged (tag : String) : Value → Option (String × Value)
  | .obj fields =>
    match (fields.filter (·.1 = tag)).map (·.2) with
    | [v] => v.asString.map fun name => (name, .obj (fields.filter (·.1 ≠ tag)))
    | _ => none
  | .arr (v :: rest) => v.asString.map fun name => (name, .arr rest)
  | _ => none

def Value.isUnit : Value → Bool
  | .obj _ | .arr [] => true
  | _ => false

def required (slots : Slots) (key : String) (read : Value → Option α) : Option α :=
  (slots key).bind read

def optional (slots : Slots) (key : String) (read : Value → Option α) : Option (Option α) :=
  match slots key with
  | none | some .null => some none
  | some v => (read v).map some

def withDefault (slots : Slots) (key : String) (read : Value → Option α) (default : α) : Option α :=
  match slots key with
  | none => some default
  | some v => read v

def values (key : String) (fields : List (String × Value)) : List Value :=
  (fields.filter (·.1 = key)).map (·.2)

@[simp] theorem values_nil : values key [] = [] := rfl

theorem values_cons_self : values key ((key, v) :: rest) = v :: values key rest := by
  simp [values]

theorem values_cons_ne (h : key' ≠ key) : values key ((key', v) :: rest) = values key rest := by
  simp [values, h]

def Fits (known : List String) (fields : List (String × Value)) (slots : Slots) : Prop :=
  ∀ key ∈ known, (slots key).toList.length + (values key fields).length ≤ 1

def merged (known : List String) (fields : List (String × Value)) (slots : Slots) : Slots :=
  fun key => if key ∈ known then (slots key).or (values key fields).head? else slots key

theorem fits_cons_unknown (hk : key ∉ known) :
    Fits known ((key, v) :: rest) slots ↔ Fits known rest slots := by
  apply forall₂_congr
  intro key' hk'
  rw [values_cons_ne (by rintro rfl; exact hk hk')]

theorem merged_cons_unknown (hk : key ∉ known) :
    merged known ((key, v) :: rest) slots = merged known rest slots := by
  funext key'
  simp only [merged]
  split
  · rename_i hk'
    rw [values_cons_ne (by rintro rfl; exact hk hk')]
  · rfl

theorem fits_cons_known (hs : slots key = none) :
    Fits known ((key, v) :: rest) slots ↔
      Fits known rest (Function.update slots key (some v)) := by
  apply forall₂_congr
  intro key' _
  by_cases he : key' = key
  · subst he
    rw [values_cons_self, Function.update_self, hs]
    simp only [toList_none, toList_some, length_cons, length_nil]
    omega
  · rw [Function.update_of_ne he, values_cons_ne (.symm he)]

theorem merged_cons_known (hk : key ∈ known) (hs : slots key = none) :
    merged known ((key, v) :: rest) slots =
      merged known rest (Function.update slots key (some v)) := by
  funext key'
  simp only [merged]
  by_cases he : key' = key
  · subst he
    rw [values_cons_self, Function.update_self, hs, if_pos hk, if_pos hk]
    rfl
  · rw [Function.update_of_ne he, values_cons_ne (.symm he)]

theorem visitMap_eq_some : visitMap known fields slots = some slots' ↔
    Fits known fields slots ∧ slots' = merged known fields slots := by
  induction fields generalizing slots with
  | nil =>
    have hft : Fits known [] slots := by
      intro key _
      cases slots key <;> simp
    have hmer : merged known [] slots = slots := by
      funext key
      simp [merged]
    rw [hmer, visitMap, Option.some.injEq]
    exact ⟨fun h => ⟨hft, h.symm⟩, fun h => h.2.symm⟩
  | cons e rest ih =>
    obtain ⟨key, v⟩ := e
    by_cases hk : key ∈ known
    · cases hs : slots key with
      | some w =>
        simp only [visitMap, hk, if_true, hs, reduceCtorEq, false_iff, not_and]
        intro h
        have hkey := h key hk
        rw [hs, values_cons_self] at hkey
        simp only [toList_some, length_cons] at hkey
        omega
      | none =>
        rw [fits_cons_known hs, merged_cons_known hk hs, ← ih]
        simp [visitMap, hk, hs]
    · rw [fits_cons_unknown hk, merged_cons_unknown hk, ← ih]
      simp [visitMap, hk]

def Once (spec : List (String × Bool)) (fields : List (String × Value)) : Prop :=
  ∀ key ∈ spec.map (·.1), (values key fields).length ≤ 1

theorem slots_obj_eq_some : (Value.obj fields).slots spec = some slots ↔
    Once spec fields ∧ slots = merged (spec.map (·.1)) fields fun _ => none := by
  rw [Value.slots, visitMap_eq_some]
  simp [Fits, Once]

theorem isSome_slots_bind {f : Slots → Option α} {q : Prop}
    (hrd : Once spec fields → ((f (merged (spec.map (·.1)) fields fun _ => none)).isSome ↔ q))
    (honce : q → Once spec fields) :
    (((Value.obj fields).slots spec).bind f).isSome ↔ q := by
  constructor
  · intro h
    cases hs : (Value.obj fields).slots spec with
    | none =>
      rw [hs] at h
      cases h
    | some slots =>
      obtain ⟨ho, rfl⟩ := slots_obj_eq_some.mp hs
      rw [hs] at h
      exact (hrd ho).mp h
  · intro hq
    have hs := slots_obj_eq_some.mpr ⟨honce hq, rfl⟩
    rw [hs]
    exact (hrd (honce hq)).mpr hq

/-- What a document gives for a field that comes last in the struct: the only value of its key, or
the last element. -/
def Value.Gives (v : Value) (key : String) (w : Value) : Prop :=
  match v with
  | .obj fields => values key fields = [w]
  | .arr elems => elems.getLast? = some w
  | _ => False

theorem visitSeq_last {elems : List Value}
    (h : visitSeq (spec ++ [(key, false)]) elems slots = some slots') :
    ∃ w, elems.getLast? = some w ∧ slots' key = some w := by
  induction spec generalizing elems slots with
  | nil =>
    cases elems with
    | nil => cases h
    | cons v rest =>
      cases rest with
      | nil =>
        cases h
        exact ⟨v, rfl, Function.update_self ..⟩
      | cons v' rest => cases h
  | cons field spec ih =>
    obtain ⟨name, hasDefault⟩ := field
    cases elems with
    | nil =>
      cases hasDefault with
      | false => cases h
      | true => exact ih h
    | cons v rest =>
      obtain ⟨w, hla, hw⟩ := ih h
      refine ⟨w, ?_, hw⟩
      rw [getLast?_cons, hla, getD_some]

theorem gives_of_slots {v w : Value} (h : v.slots (spec ++ [(key, false)]) = some slots)
    (hw : slots key = some w) : v.Gives key w := by
  cases v with
  | obj fields =>
    obtain ⟨honce, rfl⟩ := slots_obj_eq_some.mp h
    have hkey : key ∈ (spec ++ [(key, false)]).map (·.1) := by simp
    have hlen := honce key hkey
    rw [merged, if_pos hkey, none_or] at hw
    obtain ⟨rest, hrs⟩ := head?_eq_some_iff.mp hw
    rw [hrs, length_cons] at hlen
    rw [Value.Gives, hrs, length_eq_zero_iff.mp (by omega : rest.length = 0)]
  | arr elems =>
    obtain ⟨w', hla, hw'⟩ := visitSeq_last h
    cases hw.symm.trans hw'
    exact hla
  | null | bool b | int n | number | str t => cases h

section Fields

variable {α : Type} {spec : List (String × Bool)} {fields : List (String × Value)}
  {read : Value → Option α}

theorem merged_none (hk : key ∈ spec.map (·.1)) :
    merged (spec.map (·.1)) fields (fun _ => none) key = (values key fields).head? := by
  simp [merged, hk]

theorem eq_singleton_of_head? {p : Value → Prop} {l : List Value} (hl : l.length ≤ 1) :
    (∃ v, l.head? = some v ∧ p v) ↔ ∃ v, l = [v] ∧ p v := by
  match l, hl with
  | [], _ | [v], _ => simp

theorem isSome_required (hk : key ∈ spec.map (·.1)) (h : Once spec fields) :
    (required (merged (spec.map (·.1)) fields fun _ => none) key read).isSome ↔
      ∃ v, values key fields = [v] ∧ (read v).isSome := by
  rw [required, merged_none hk, ← eq_singleton_of_head? (h key hk)]
  cases (values key fields).head? <;> simp

theorem isSome_withDefault (hk : key ∈ spec.map (·.1)) (h : Once spec fields) :
    (withDefault (merged (spec.map (·.1)) fields fun _ => none) key read a).isSome ↔
      values key fields = [] ∨ ∃ v, values key fields = [v] ∧ (read v).isSome := by
  rw [withDefault, merged_none hk, ← eq_singleton_of_head? (h key hk)]
  cases hv : values key fields <;> simp

theorem isSome_optional (hk : key ∈ spec.map (·.1)) (h : Once spec fields) :
    (optional (merged (spec.map (·.1)) fields fun _ => none) key read).isSome ↔
      values key fields = [] ∨ values key fields = [.null] ∨
        ∃ v, values key fields = [v] ∧ (read v).isSome := by
  have hlen := h key hk
  rw [optional, merged_none hk]
  match hv : values key fields, hlen with
  | [], _ => simp
  | [v], _ => cases v <;> simp

end Fields

section Reads

variable {p : Value → Prop}

theorem exists_asString : (∃ v, p v ∧ v.asString.isSome) ↔ ∃ t, p (.str t) := by
  constructor
  · rintro ⟨v, hp, hv⟩
    cases v with
    | str t => exact ⟨t, hp⟩
    | _ => cases hv
  · rintro ⟨t, hp⟩
    exact ⟨_, hp, rfl⟩

theorem exists_asBool : (∃ v, p v ∧ v.asBool.isSome) ↔ ∃ b, p (.bool b) := by
  constructor
  · rintro ⟨v, hp, hv⟩
    cases v with
    | bool b => exact ⟨b, hp⟩
    | _ => cases hv
  · rintro ⟨b, hp⟩
    exact ⟨_, hp, rfl⟩

theorem exists_asUInt :
    (∃ v, p v ∧ (v.asUInt w).isSome) ↔ ∃ n, p (.int n) ∧ n.toNat < 2 ^ w := by
  constructor
  · rintro ⟨v, hp, hv⟩
    cases v with
    | int n =>
      refine ⟨n, hp, ?_⟩
      simpa [Value.asUInt] using hv
    | _ => cases hv
  · rintro ⟨n, hp, hn⟩
    exact ⟨_, hp, by simp [Value.asUInt, hn]⟩

theorem exists_asUInt_64 : (∃ v, p v ∧ (v.asUInt 64).isSome) ↔ ∃ n, p (.int n) := by
  rw [exists_asUInt]
  exact exists_congr fun n => and_iff_left n.toNat_lt

theorem isSome_bind_and {x : Option α} {f : α → Option β} {q : Prop}
    (h : ∀ a, (f a).isSome ↔ q) : (x.bind f).isSome ↔ x.isSome ∧ q := by
  cases x with
  | none => simp
  | some a => simpa using h a

end Reads

end Serde
