import Kojacoord.Lib.Leb128
import Kojacoord.Plugin.Sandbox

namespace Kojacoord
open Leb128 List

/-- The bytes of a `&[u8]`, which cannot be longer than `isize::MAX`. -/
structure ByteSlice where
  bytes : List UInt8
  bounded : bytes.length < 2 ^ 63

/-- Code that looks for a section: it may panic, and it may return early. -/
abbrev Walk := ExceptT (Option (List UInt8)) Option

namespace Walk

def panics : Walk α := (none : Option (Except (Option (List UInt8)) α))

def index (bytes : List UInt8) (i : Nat) : Walk UInt8 :=
  match bytes[i]? with
  | some b => return b
  | none => panics

def slice (bytes : List UInt8) (start stop : Nat) : Walk (List UInt8) :=
  if start ≤ stop ∧ stop ≤ bytes.length then return (bytes.take stop).drop start else panics

def orNone : Option α → Walk α
  | some a => return a
  | none => throw none

def checkedAdd (a b : Nat) : Option Nat := if a + b < 2 ^ 64 then some (a + b) else none

def matchName (names : List String) (contents : List UInt8) : Walk Unit :=
  match readVaru32 contents with
  | some (nameLen, nameUsed) => do
    let nameEnd ← orNone (checkedAdd nameUsed nameLen.toNat)
    if nameEnd ≤ contents.length then
      let secName ← slice contents nameUsed nameEnd
      if names.any (·.toUTF8.data.toList = secName) then
        throw (some (← slice contents nameEnd contents.length))
  | none => return ()

def sectionEnd (names : List String) (bytes : List UInt8) (pos : Nat) : Walk Nat := do
  let id ← index bytes pos
  let pos := pos + 1
  let (size, used) ← orNone (readVaru32 (← slice bytes pos bytes.length))
  let pos := pos + used
  let bodyEnd ← orNone (checkedAdd pos size.toNat)
  if bodyEnd > bytes.length then throw none
  if id = 0 then matchName names (← slice bytes pos bodyEnd)
  return bodyEnd

section Values
variable {bytes : List UInt8}

theorem readVaru32Loop_eq_some : readVaru32Loop acc shift i bytes = some (n, used) ↔
    ∃ read rest, bytes = read ++ rest ∧ Delimited read ∧ n = accumulate acc shift read ∧
      used = i + read.length := by
  induction bytes generalizing acc shift i with
  | nil =>
    refine iff_of_false nofun ?_
    rintro ⟨read, rest, hbs, hrd, -⟩
    cases hrd <;> cases hbs
  | cons b bytes ih =>
    rw [readVaru32Loop]
    by_cases hla : b &&& 0x80 = 0
    · simp only [if_pos hla]
      constructor
      · intro h
        cases h
        exact ⟨[b], bytes, rfl, .last hla, rfl, rfl⟩
      · rintro ⟨read, rest, hbs, hrd, rfl, rfl⟩
        cases hrd with
        | last =>
          cases hbs
          rfl
        | more hmo =>
          cases hbs
          exact absurd hla hmo
    · simp only [if_neg hla]
      rw [ih]
      constructor
      · rintro ⟨read, rest, rfl, hrd, rfl, rfl⟩
        exact ⟨b :: read, rest, rfl, .more hla hrd, rfl, by rw [length_cons]; omega⟩
      · rintro ⟨read, rest, hbs, hrd, rfl, rfl⟩
        cases hrd with
        | last hno =>
          cases hbs
          exact absurd hno hla
        | more _ hrd =>
          cases hbs
          exact ⟨_, rest, rfl, hrd, rfl, by rw [length_cons]; omega⟩

/-- A number in at most five bytes, of which 32 bits count, and as many bytes as it says. -/
structure Sizes (size body : List UInt8) : Prop where
  delimited : Delimited size
  short : size.length ≤ 5
  length : body.length = value size % 2 ^ 32

theorem readVaru32_eq_some : readVaru32 bytes = some (n, used) ↔
    ∃ read rest, bytes = read ++ rest ∧ Delimited read ∧ read.length ≤ 5 ∧
      n.toNat = value read % 2 ^ 32 ∧ used = read.length := by
  have hval (read : List UInt8) (h : read.length ≤ 5) :
      (accumulate 0 0 read).toNat = value read % 2 ^ 32 := by
    rw [toNat_accumulate (i := 0) rfl (by decide) (by omega), show (0 : UInt32).toNat = 0 from rfl]
    omega
  rw [readVaru32, readVaru32Loop_eq_some]
  constructor
  · rintro ⟨read, rest, htk, hrd, rfl, rfl⟩
    have hsh : read.length ≤ 5 := by
      have hleng := congrArg List.length htk
      rw [length_take, length_append] at hleng
      omega
    refine ⟨read, rest ++ bytes.drop 5, ?_, hrd, hsh, hval read hsh, zero_add _⟩
    rw [← append_assoc, ← htk, take_append_drop]
  · rintro ⟨read, rest, rfl, hrd, hsh, hn, rfl⟩
    refine ⟨read, rest.take (5 - read.length), ?_, hrd, ?_, (zero_add _).symm⟩
    · rw [take_append, take_of_length_le hsh]
    · apply UInt32.toNat_inj.mp
      rw [hn, hval read hsh]

theorem readVaru32_sizes (h : Sizes size body) :
    ∃ n, readVaru32 (size ++ (body ++ rest)) = some (n, size.length) ∧ n.toNat = body.length := by
  refine ⟨.ofNat (value size), readVaru32_eq_some.mpr ⟨size, body ++ rest, rfl, h.delimited,
    h.short, UInt32.toNat_ofNat' , rfl⟩, ?_⟩
  rw [UInt32.toNat_ofNat', h.length]

theorem sizes_of_readVaru32 (h : readVaru32 bytes = some (n, used))
    (hft : used + n.toNat ≤ bytes.length) :
    ∃ size body rest, bytes = size ++ (body ++ rest) ∧ Sizes size body ∧ size.length = used ∧
      body.length = n.toNat := by
  obtain ⟨size, tail, rfl, hrd, hsh, hn, rfl⟩ := readVaru32_eq_some.mp h
  rw [length_append] at hft
  have hbd : (tail.take n.toNat).length = n.toNat := length_take_of_le (by omega)
  exact ⟨size, tail.take n.toNat, tail.drop n.toNat, by rw [take_append_drop],
    ⟨hrd, hsh, hbd.trans hn⟩, rfl, hbd⟩

theorem namedPayload_append (h : Sizes size name) : namedPayload names (size ++ (name ++ rest)) =
    if names.any (·.toUTF8.data.toList = name) then some rest else none := by
  obtain ⟨n, hrd, hn⟩ := readVaru32_sizes h
  have hft : size.length + name.length ≤ (size ++ (name ++ rest)).length := by
    simp only [length_append]
    omega
  rw [namedPayload, hrd, Option.bind_some]
  dsimp only
  rw [hn, drop_left, take_left, ← drop_drop, drop_left, drop_left]
  simp only [hft, true_and]

def Names (names : List String) (contents payload : List UInt8) : Prop :=
  ∃ size name, contents = size ++ (name ++ payload) ∧ Sizes size name ∧
    names.any (·.toUTF8.data.toList = name) = true

theorem namedPayload_eq_some : namedPayload names bytes = some payload ↔
    Names names bytes payload := by
  constructor
  · intro h
    obtain ⟨⟨n, used⟩, hrd, hmt⟩ := Option.bind_eq_some_iff.mp h
    dsimp only at hmt
    split at hmt
    · rename_i hft
      obtain ⟨size, name, rest, rfl, hsiz, -⟩ := sizes_of_readVaru32 hrd hft.1
      rw [namedPayload_append hsiz] at h
      split at h
      · rename_i hnm
        cases h
        exact ⟨size, name, rfl, hsiz, hnm⟩
      · cases h
    · cases hmt
  · rintro ⟨size, name, rfl, hsiz, hnm⟩
    rw [namedPayload_append hsiz, if_pos hnm]

end Values

end Walk

open Walk

structure WasmSection where
  id : UInt8
  size : List UInt8
  body : List UInt8
  sized : Sizes size body

namespace WasmSection

def encoded (s : WasmSection) : List UInt8 := s.id :: (s.size ++ s.body)

/-- It is a custom section with one of the names, and the payload is what follows the name. -/
def Gives (s : WasmSection) (names : List String) (payload : List UInt8) : Prop :=
  s.id = 0 ∧ Names names s.body payload

def payload? (s : WasmSection) (names : List String) : Option (List UInt8) :=
  if s.id = 0 then namedPayload names s.body else none

theorem payload?_eq_some {s : WasmSection} :
    s.payload? names = some payload ↔ s.Gives names payload := by
  rw [payload?, Gives]
  split
  · rename_i hid
    rw [namedPayload_eq_some, and_iff_right hid]
  · rename_i hid
    exact iff_of_false nofun fun h => hid h.1

theorem findSection_append (s : WasmSection) (names : List String) (rest : List UInt8) :
    findSection names (s.encoded ++ rest) =
      match s.payload? names with
      | some payload => some payload
      | none => findSection names rest := by
  obtain ⟨n, hrd, hn⟩ := readVaru32_sizes s.sized
  have hleng : ¬(s.body ++ rest).length < s.body.length := by
    rw [length_append]
    omega
  rw [encoded, cons_append, append_assoc, findSection, hrd]
  dsimp only
  rw [hn, drop_left, if_neg hleng, take_left, drop_left]
  rfl

theorem exists_of_findSection (h : findSection names bytes = some payload) :
    ∃ (s : WasmSection) (rest : List UInt8), bytes = s.encoded ++ rest := by
  cases bytes with
  | nil =>
    rw [findSection] at h
    cases h
  | cons id tail =>
    rw [findSection] at h
    split at h
    · cases h
    · rename_i n used hrd
      dsimp only at h
      split at h
      · cases h
      · rename_i hft
        have hus : used ≤ tail.length := by
          obtain ⟨read, more, rfl, -, -, -, rfl⟩ := readVaru32_eq_some.mp hrd
          simp
        rw [length_drop] at hft
        obtain ⟨size, body, rest, rfl, hsiz, -⟩ := sizes_of_readVaru32 hrd (by omega)
        exact ⟨⟨id, size, body, hsiz⟩, rest, by rw [encoded, cons_append, append_assoc]⟩

def Found (names : List String) (bytes payload : List UInt8) : Prop :=
  ∃ (front : List WasmSection) (s : WasmSection) (rest : List UInt8),
    bytes = (front.map WasmSection.encoded).flatten ++ (s.encoded ++ rest) ∧
      (∀ t ∈ front, ∀ other, ¬t.Gives names other) ∧ s.Gives names payload

theorem findSection_eq_some :
    findSection names bytes = some payload ↔ Found names bytes payload := by
  constructor
  · intro h
    induction hn : bytes.length using Nat.strongRecOn generalizing bytes with
    | ind n ih =>
      obtain ⟨s, rest, rfl⟩ := exists_of_findSection h
      rw [findSection_append] at h
      cases hpay : s.payload? names with
      | some found =>
        rw [hpay] at h
        cases h
        exact ⟨[], s, rest, rfl, forall_mem_nil _, payload?_eq_some.mp hpay⟩
      | none =>
        rw [hpay] at h
        have hsho : rest.length < n := by
          rw [← hn, encoded, cons_append, length_cons, length_append]
          omega
        obtain ⟨front, t, more, rfl, hfr, ht⟩ := ih _ hsho h rfl
        refine ⟨s :: front, t, more, ?_, forall_mem_cons.mpr ⟨?_, hfr⟩, ht⟩
        · rw [map_cons, flatten_cons, append_assoc]
        · intro other hoth
          rw [payload?_eq_some.mpr hoth] at hpay
          cases hpay
  · rintro ⟨front, s, rest, rfl, hfr, hs⟩
    induction front with
    | nil =>
      rw [map_nil, flatten_nil, nil_append, findSection_append, payload?_eq_some.mpr hs]
    | cons t front ih =>
      obtain ⟨ht, hfr⟩ := forall_mem_cons.mp hfr
      have hno : t.payload? names = none := by
        cases hpay : t.payload? names with
        | none => rfl
        | some other => exact absurd (payload?_eq_some.mp hpay) (ht other)
      rw [map_cons, flatten_cons, append_assoc, findSection_append, hno]
      exact ih hfr

end WasmSection

namespace Walk

theorem index_eq (h : bytes.drop pos = kind :: rest) : index bytes pos = pure kind := by
  rw [index, ← head?_drop, h]
  rfl

theorem slice_eq (h : start ≤ stop) (hsp : stop ≤ bytes.length) :
    slice bytes start stop = pure ((bytes.take stop).drop start) := by
  rw [slice, if_pos ⟨h, hsp⟩]

theorem checkedAdd_eq (n : UInt32) (h : a < 2 ^ 63) :
    checkedAdd a n.toNat = some (a + n.toNat) := by
  have hn := n.toNat_lt
  rw [checkedAdd, if_pos (by omega)]

theorem used_le (h : readVaru32 bytes = some (n, used)) : 0 < used ∧ used ≤ bytes.length := by
  obtain ⟨read, rest, rfl, hrd, -, -, rfl⟩ := readVaru32_eq_some.mp h
  refine ⟨?_, by simp⟩
  cases hrd <;> exact Nat.succ_pos _

theorem matchName_eq (h : contents.length < 2 ^ 63) :
    matchName names contents =
      match namedPayload names contents with
      | some payload => throw (some payload)
      | none => return () := by
  rw [matchName, namedPayload]
  cases hrd : readVaru32 contents with
  | none => rfl
  | some found =>
    obtain ⟨n, used⟩ := found
    obtain ⟨-, hus⟩ := used_le hrd
    rw [Option.bind_some]
    dsimp only
    rw [checkedAdd_eq n (by omega), orNone, pure_bind]
    by_cases hft : used + n.toNat ≤ contents.length
    · have hnm : (contents.take (used + n.toNat)).drop used =
          (contents.drop used).take n.toNat := by
        rw [drop_take, Nat.add_sub_cancel_left]
      have hpay : (contents.take contents.length).drop (used + n.toNat) =
          contents.drop (used + n.toNat) := by rw [take_length]
      rw [if_pos hft, slice_eq (Nat.le_add_right ..) hft, pure_bind, hnm,
        slice_eq hft (le_refl _), hpay]
      simp only [hft, true_and]
      split
      · rfl
      · rfl
    · simp only [hft, false_and, if_false]

/-- What a round of the loop comes to: it does not panic, and it moves on behind a section. -/
def RoundMeets (names : List String) (bytes : List UInt8) (pos : Nat) :
    Option (Except (Option (List UInt8)) Nat) → Prop
  | none => False
  | some (.error result) => findSection names (bytes.drop pos) = result
  | some (.ok next) =>
    pos < next ∧ findSection names (bytes.drop pos) = findSection names (bytes.drop next)

theorem sectionEnd_meets (names : List String) (hleng : bytes.length < 2 ^ 63)
    (hpos : pos < bytes.length) : RoundMeets names bytes pos (sectionEnd names bytes pos) := by
  obtain ⟨kind, rest, hrs⟩ : ∃ kind rest, bytes.drop pos = kind :: rest :=
    exists_cons_of_length_pos (by rw [length_drop]; omega)
  have hlen := congrArg List.length hrs
  rw [length_drop, length_cons] at hlen
  have hfi := (congrArg (findSection names) hrs).trans (findSection.eq_2 names kind rest)
  have htl : (bytes.take bytes.length).drop (pos + 1) = rest := by
    rw [take_length, ← drop_drop, hrs]
    rfl
  rw [sectionEnd, index_eq hrs, pure_bind]
  dsimp only
  rw [slice_eq (by omega) (le_refl _), pure_bind, htl]
  cases hrd : readVaru32 rest with
  | none =>
    rw [hrd] at hfi
    exact hfi
  | some found =>
    obtain ⟨size, used⟩ := found
    obtain ⟨-, hus⟩ := used_le hrd
    rw [hrd] at hfi
    dsimp only at hfi
    rw [length_drop] at hfi
    rw [orNone, pure_bind]
    dsimp only
    rw [checkedAdd_eq size (by omega), orNone, pure_bind]
    by_cases hlg : pos + 1 + used + size.toNat > bytes.length
    · rw [if_pos hlg]
      rw [if_pos (by omega)] at hfi
      exact hfi
    · have hspl : bytes.drop (pos + 1 + used) = rest.drop used := by
        rw [← drop_drop, ← drop_drop, hrs]
        rfl
      have hnx : findSection names (bytes.drop (pos + 1 + used + size.toNat)) =
          findSection names ((rest.drop used).drop size.toNat) := by
        rw [← drop_drop, hspl]
      rw [if_neg hlg]
      rw [if_neg (by omega), ← hnx] at hfi
      by_cases hkd : kind = 0
      · have hcon : ((rest.drop used).take size.toNat).length < 2 ^ 63 := by
          rw [length_take, length_drop]
          omega
        rw [if_pos hkd, slice_eq (by omega) (by omega), pure_bind, drop_take,
          Nat.add_sub_cancel_left, hspl, matchName_eq hcon]
        rw [if_pos hkd] at hfi
        cases hnam : namedPayload names ((rest.drop used).take size.toNat) with
        | some payload =>
          rw [hnam] at hfi
          exact hfi
        | none =>
          rw [hnam] at hfi
          exact ⟨by omega, hfi⟩
      · rw [if_neg hkd] at hfi ⊢
        exact ⟨by omega, hfi⟩

def findFrom (names : List String) (s : ByteSlice) (pos : Nat) : Option (Option (List UInt8)) :=
  if _hpos : pos < s.bytes.length then
    match _h : sectionEnd names s.bytes pos with
    | none => none
    | some (.error result) => some result
    | some (.ok next) => findFrom names s next
  else some none
termination_by s.bytes.length - pos
decreasing_by
  have hround := sectionEnd_meets names s.bounded _hpos
  rw [_h] at hround
  have hnext : pos < next := hround.1
  omega

def findCustomSection (s : ByteSlice) (names : List String) : Option (Option (List UInt8)) :=
  if s.bytes.length < 8 then some none
  else
    match slice s.bytes 0 4 with
    | none => none
    | some (.error result) => some result
    | some (.ok magic) => if magic ≠ wasmMagic then some none else findFrom names s 8

theorem findFrom_eq (names : List String) (s : ByteSlice) (pos : Nat) :
    findFrom names s pos = some (findSection names (s.bytes.drop pos)) := by
  induction hn : s.bytes.length - pos using Nat.strongRecOn generalizing pos with
  | ind n ih =>
    rw [findFrom]
    split
    · rename_i hpos
      have hrd := sectionEnd_meets names s.bounded hpos
      split
      · rename_i hpan
        rw [hpan] at hrd
        exact absurd hrd id
      · rename_i hres
        rw [hres] at hrd
        exact congrArg some hrd.symm
      · rename_i next hnx
        rw [hnx] at hrd
        obtain ⟨hlt, hfi⟩ := hrd
        rw [hfi]
        exact ih _ (by omega) next rfl
    · rw [drop_eq_nil_of_le (by omega), findSection]

theorem findCustomSection_eq :
    findCustomSection s names = some (Kojacoord.findCustomSection s.bytes names) := by
  rw [findCustomSection, Kojacoord.findCustomSection]
  by_cases hsh : s.bytes.length < 8
  · rw [if_pos hsh, if_pos (.inl hsh)]
  · rw [if_neg hsh, slice_eq (by decide) (by omega)]
    change (if s.bytes.take 4 ≠ wasmMagic then some none else findFrom names s 8) = _
    by_cases hmag : s.bytes.take 4 ≠ wasmMagic
    · rw [if_pos hmag, if_pos (.inr hmag)]
    · rw [if_neg hmag, if_neg (by simp [hsh, not_not.mp hmag]), findFrom_eq]

/-- The search reads nothing out of range and returns the payload of the first section with one of
the names, if all sections up to it are there. -/
theorem findCustomSection_iff (s : ByteSlice) (names : List String) :
    ∃ result, findCustomSection s names = some result ∧
      ∀ payload, result = some payload ↔
        8 ≤ s.bytes.length ∧ s.bytes.take 4 = wasmMagic ∧
          ∃ (front : List WasmSection) (last : WasmSection) (rest : List UInt8),
            s.bytes.drop 8 =
              (front.map WasmSection.encoded).flatten ++ (last.encoded ++ rest) ∧
            (∀ t ∈ front, ∀ other, ¬t.Gives names other) ∧ last.Gives names payload := by
  refine ⟨_, findCustomSection_eq, ?_⟩
  intro payload
  rw [Kojacoord.findCustomSection]
  by_cases hheader : s.bytes.length < 8 ∨ s.bytes.take 4 ≠ wasmMagic
  · rw [if_pos hheader]
    refine iff_of_false (by simp) ?_
    rintro ⟨hlength, hmagic, -⟩
    rcases hheader with hshort | hother
    · omega
    · exact hother hmagic
  · rw [if_neg hheader, WasmSection.findSection_eq_some]
    obtain ⟨hlength, hmagic⟩ := not_or.mp hheader
    rw [and_iff_right (Nat.le_of_not_lt hlength), and_iff_right (not_not.mp hmagic)]
    rfl

end Walk

end Kojacoord
