import Kojacoord.Protocol.SnbtContainers

namespace Kojacoord
open RoundTrip SnbtParser List

section Value
variable {lib : SnbtLibrary} {length : Nat} {value : SnbtParser NbtTag}

theorem parseUnquotedString_eq_ok (hc : startsWord lib c = true) :
    parseUnquotedString lib (c :: s) = .ok (tag, rest) ↔
      ∃ v, c :: s = v ++ rest ∧ WordText lib v ∧ Stops lib v rest ∧ tag = wordTag v := by
  have htag (v rest : List Char) :
      (if String.ofList v = "true" then return .byte 1
        else if String.ofList v = "false" then return .byte 0
        else return .string (.ofList v) : SnbtParser NbtTag) rest = .ok (wordTag v, rest) := by
    rw [wordTag]
    split_ifs <;> rfl
  rw [parseUnquotedString, bind_eq_ok]
  constructor
  · rintro ⟨t, s₁, hwd, h⟩
    obtain ⟨v, hv, htx, hsp, rfl⟩ := (word_eq_ok hc).mp hwd
    rw [htag] at h
    cases h
    exact ⟨v, hv, htx, hsp, rfl⟩
  · rintro ⟨v, hv, htx, hsp, rfl⟩
    exact ⟨_, rest, (word_eq_ok hc).mpr ⟨v, hv, htx, hsp, rfl⟩, htag v rest⟩

theorem stops_number (hc : startsNumber c = true) : Stops lib (c :: v) rest ↔
    ∀ d ∈ rest.head?, numberContinues (c :: v) d = false := by
  have hcon (d : Char) : continues lib (c :: v) d = numberContinues (c :: v) d := by
    rw [continues.eq_def]
    dsimp only
    rw [hc, if_pos rfl]
  simp only [Stops, hcon]

theorem stops_open (hc : c = '\x7b' ∨ c = '[') (v rest : List Char) : Stops lib (c :: v) rest := by
  rcases hc with rfl | rfl
  · exact stops_of_head rfl not_startsWord_open.2 v rest
  · exact stops_of_head rfl not_startsWord_open.1 v rest

theorem open_iff (hc : c = '\x7b' ∨ c = '[') : (∃ v, c :: s = v ++ rest ∧ ValueText lib v tag) ↔
      ∃ v, c :: s = v ++ rest ∧ ValueText lib v tag ∧ Stops lib v rest := by
  constructor
  · rintro ⟨v, hv, htx⟩
    obtain ⟨cs, rfl, -⟩ := htx.begun.cons hv
    exact ⟨_, hv, htx, stops_open hc cs rest⟩
  · rintro ⟨v, hv, htx, -⟩
    exact ⟨v, hv, htx⟩

def valueFrom (lib : SnbtLibrary) (length : Nat) (value : SnbtParser NbtTag) (c : Char) :
    SnbtParser NbtTag :=
  if c = '\x7b' then parseCompound lib length value
  else if c = '[' then parseListOrArray lib length value
  else if c = '"' ∨ c = '\'' then return .string (← parseQuotedString)
  else if c.isDigit ∨ c = '-' ∨ c = '+' then parseNumber lib
  else if startsWord lib c then parseUnquotedString lib
  else unexpected length

theorem valueFrom_eq_ok (hval : ReadsText m value (ValueText lib) (Stops lib))
    (hm : s.length < m) : valueFrom lib length value c (c :: s) = .ok (tag, rest) ↔
      ∃ v, c :: s = v ++ rest ∧ ValueText lib v tag ∧ Stops lib v rest := by
  have hsta : startsNumber c = true ↔ c.isDigit ∨ c = '-' ∨ c = '+' := by
    simp [startsNumber, or_assoc]
  rw [valueFrom]
  split_ifs with hbra hbrac hqu hnum hwd
  · subst hbra
    rw [parseCompound_eq_ok hval hm, open_iff (.inl rfl)]
  · subst hbrac
    rw [parseListOrArray_eq_ok hval hm, open_iff (.inr rfl)]
  · rw [bind_pure_eq_ok]
    constructor
    · rintro ⟨t, h, rfl⟩
      obtain ⟨v, hv, htx⟩ := (quotedString_eq_ok hqu).mp h
      exact ⟨v, hv, .quoted htx, htx.stops rest⟩
    · rintro ⟨v, hv, htx, -⟩
      obtain ⟨cs, rfl, -⟩ := htx.begun.cons hv
      have hhd := htx.head
      rw [if_neg hbra, if_neg hbrac, if_pos hqu] at hhd
      obtain ⟨t, hquo, rfl⟩ := hhd
      exact ⟨t, (quotedString_eq_ok hqu).mpr ⟨_, hv, hquo⟩, rfl⟩
  · have hc := hsta.mpr hnum
    rw [parseNumber_eq_ok]
    constructor
    · rintro ⟨v, hv, htx, hsp⟩
      obtain ⟨cs, rfl, -⟩ := htx.begun.cons hv
      exact ⟨_, hv, .number hc htx, (stops_number hc).mpr hsp⟩
    · rintro ⟨v, hv, htx, hsp⟩
      obtain ⟨cs, rfl, -⟩ := htx.begun.cons hv
      have hhd := htx.head
      rw [if_neg hbra, if_neg hbrac, if_neg hqu, if_pos hc] at hhd
      exact ⟨_, hv, hhd, (stops_number hc).mp hsp⟩
  · rw [parseUnquotedString_eq_ok hwd]
    constructor
    · rintro ⟨v, hv, htx, hsp, rfl⟩
      exact ⟨v, hv, .word htx, hsp⟩
    · rintro ⟨v, hv, htx, hsp⟩
      obtain ⟨cs, rfl, -⟩ := htx.begun.cons hv
      have hhd := htx.head
      rw [if_neg hbra, if_neg hbrac, if_neg hqu, if_neg (mt hsta.mp hnum)] at hhd
      obtain ⟨hbare, rfl⟩ := hhd
      exact ⟨_, hv, hbare, hsp, rfl⟩
  · constructor
    · intro h
      cases h
    · rintro ⟨v, hv, htx, -⟩
      obtain ⟨cs, rfl, -⟩ := htx.begun.cons hv
      have hhd := htx.head
      rw [if_neg hbra, if_neg hbrac, if_neg hqu, if_neg (mt hsta.mp hnum)] at hhd
      exact absurd hhd.1.head hwd

theorem readsText_parseValue (lib : SnbtLibrary) (length fuel : Nat) :
    ReadsText fuel (parseValue lib length fuel) (ValueText lib) (Stops lib) := by
  induction fuel with
  | zero =>
    intro s hs
    cases hs
  | succ fuel ih =>
    intro s hs tag rest
    rw [parseValue, skip_bind_eq_ok]
    constructor
    · rintro ⟨w, s, hw, rfl, -, h⟩
      cases s with
      | nil => cases h
      | cons c s =>
        simp only [length_append, length_cons] at hs
        obtain ⟨v, hv, htx, hsp⟩ := (valueFrom_eq_ok ih (by omega)).mp h
        exact ⟨w, v, hw, by rw [hv], htx, hsp⟩
    · rintro ⟨w, v, hw, rfl, htx, hsp⟩
      refine ⟨w, v ++ rest, hw, rfl, fun c hc => (htx.begun.head rest c hc).1, ?_⟩
      obtain ⟨c, cs, rfl, -⟩ := htx.begun
      simp only [length_append, length_cons, cons_append] at hs
      have hlen : (cs ++ rest).length < fuel := by
        rw [length_append]
        omega
      exact (valueFrom_eq_ok ih hlen).mpr ⟨c :: cs, rfl, htx, hsp⟩

theorem rest_unique (hw : Spaces w) (hv : ValueText lib v tag) (hsp : Stops lib v rest)
    (hw' : Spaces w') (hv' : ValueText lib v' tag') (hsp' : Stops lib v' rest')
    (h : w ++ (v ++ rest) = w' ++ (v' ++ rest')) : tag = tag' ∧ rest = rest' := by
  have hrds := readsText_parseValue lib 0 ((w ++ (v ++ rest)).length + 1) _ (Nat.lt_succ_self _)
  have hfst := (hrds tag rest).mpr ⟨w, v, hw, rfl, hv, hsp⟩
  have hsec := (hrds tag' rest').mpr ⟨w', v', hw', h, hv', hsp'⟩
  exact Prod.mk.inj (Except.ok.inj (hfst.symm.trans hsec))

end Value

section Whole
variable (lib : SnbtLibrary)

def Whole (s : List Char) (tag : NbtTag) : Prop :=
  ∃ w v w', Spaces w ∧ ValueText lib v tag ∧ Spaces w' ∧ s = w ++ (v ++ w')

def Trailing (s : List Char) : Prop :=
  ∃ w v tag rest, Spaces w ∧ ValueText lib v tag ∧ Stops lib v rest ∧ ¬Spaces rest ∧
    s = w ++ (v ++ rest)

def Closed (v : List Char) : Prop := ∃ c ∈ v.getLast?, c ∈ ['\x7d', ']', '"', '\'']

variable {lib}

theorem parseSnbt_eq_ok : parseSnbt lib s = .ok tag ↔
    ∃ w v rest, Spaces w ∧ ValueText lib v tag ∧ Stops lib v rest ∧
      s.toList = w ++ (v ++ rest) := by
  have hrds := readsText_parseValue lib s.toList.length (s.toList.length + 1) _
    (Nat.lt_succ_self _)
  rw [parseSnbt]
  constructor
  · intro h
    cases hprs : parseValue lib s.toList.length (s.toList.length + 1) s.toList with
    | error e =>
      rw [hprs] at h
      cases h
    | ok result =>
      rw [hprs] at h
      cases h
      obtain ⟨w, v, hw, hs, hv, hsp⟩ := (hrds result.1 result.2).mp hprs
      exact ⟨w, v, result.2, hw, hv, hsp, hs⟩
  · rintro ⟨w, v, rest, hw, hv, hsp, hs⟩
    rw [(hrds tag rest).mpr ⟨w, v, hw, hs, hv, hsp⟩]
    rfl

theorem Spaces.stops (h : Spaces rest) (v : List Char) : Stops lib v rest := by
  intro c hc
  have hsp := h c (mem_of_mem_head? hc)
  exact continues_delimiter (by rw [isDelimiter, hsp, Bool.true_or])

theorem NumberText.mem (h : NumberText lib v tag) (hc : c ∈ v) :
    c.isDigit = true ∨ isSuffix c = true ∨ c ∈ ['.', '+', '-'] := by
  cases h with
  | number hpre hdigs htag =>
    rw [mem_append, mem_append] at hc
    rcases hc with hc | hc | hc
    · simp only [mem_cons, not_mem_nil, or_false] at hpre
      rcases hpre with rfl | rfl | rfl
      · cases hc
      · exact .inr (.inr (by rw [mem_singleton.mp hc]; decide))
      · exact .inr (.inr (by rw [mem_singleton.mp hc]; decide))
    · exact (hdigs.mem hc).imp_right fun hdot => .inr (by rw [hdot]; decide)
    · rcases numberTag_suffix htag with rfl | ⟨d, rfl, hlet⟩
      · cases hc
      · rw [mem_singleton.mp hc]
        exact .inr (.inl hlet)

theorem Closed.stops (hclo : Closed v) (h : ValueText lib v tag) (rest : List Char) :
    Stops lib v rest := by
  obtain ⟨c, hla, hc⟩ := hclo
  have hmem : c ∈ v := mem_of_getLast? hla
  simp only [mem_cons, not_mem_nil, or_false] at hc
  cases h with
  | compound => exact stops_open (.inl rfl) _ rest
  | list | array => exact stops_open (.inr rfl) _ rest
  | quoted h => exact h.stops rest
  | number _ h =>
    have hchar := h.mem hmem
    rcases hc with rfl | rfl | rfl | rfl <;> exact absurd hchar (by decide)
  | word h =>
    have hchar := h.mem hmem
    rcases hc with rfl | rfl | rfl | rfl <;>
      cases hchar.symm.trans (not_isIdentifierChar (by decide) rfl rfl (by decide))

/-- The parser stops behind the first value of its input, so that it reads the whole input where
nothing but white space comes behind that value. -/
theorem parse_whole_iff (lib : SnbtLibrary) :
    (∀ s : String, (∀ tag, parseSnbt lib s = .ok tag → Whole lib s.toList tag) ↔
      ¬Trailing lib s.toList) ∧
    ∀ v tag rest, ValueText lib v tag → Closed v →
      parseSnbt lib (.ofList (v ++ rest)) = .ok tag := by
  refine ⟨fun s => ⟨?_, ?_⟩, fun v tag rest hv hclosed => ?_⟩
  · rintro hwhole ⟨w, v, tag, rest, hw, hv, hstop, hrest, hs⟩
    have hparse : parseSnbt lib s = .ok tag := parseSnbt_eq_ok.mpr ⟨w, v, rest, hw, hv, hstop, hs⟩
    obtain ⟨u, v', u', hu, hv', hu', hs'⟩ := hwhole tag hparse
    obtain ⟨-, rfl⟩ := rest_unique hw hv hstop hu hv' (hu'.stops v') (hs.symm.trans hs')
    exact hrest hu'
  · intro htrailing tag hparse
    obtain ⟨w, v, rest, hw, hv, hstop, hs⟩ := parseSnbt_eq_ok.mp hparse
    by_cases hrest : Spaces rest
    · exact ⟨w, v, rest, hw, hv, hrest, hs⟩
    · exact absurd ⟨w, v, tag, rest, hw, hv, hstop, hrest, hs⟩ htrailing
  · refine parseSnbt_eq_ok.mpr ⟨[], v, rest, spaces_nil, hv, hclosed.stops hv rest, ?_⟩
    rw [String.toList_ofList]
    rfl

theorem braces_text : ValueText asciiLibrary ['\x7b', '\x7d'] (.compound []) :=
  .compound (.close spaces_nil)

theorem braces_then_words : parseSnbt asciiLibrary "\x7b\x7d and more" = .ok (.compound []) :=
  (parse_whole_iff asciiLibrary).2 ['\x7b', '\x7d'] _ " and more".toList braces_text
    ⟨'\x7d', rfl, by decide⟩

theorem braces_not_whole : parseSnbt asciiLibrary "\x7b\x7dx" = .ok (.compound []) ∧
    ¬∃ tag, Whole asciiLibrary "\x7b\x7dx".toList tag := by
  refine ⟨rfl, ?_⟩
  rintro ⟨tag, w, v, w', hw, hv, hw', hs⟩
  have hclosed : Closed ['\x7b', '\x7d'] := ⟨'\x7d', rfl, by decide⟩
  obtain ⟨-, hrest⟩ := rest_unique spaces_nil braces_text (hclosed.stops braces_text ['x']) hw hv
    (hw'.stops v) hs
  rw [← hrest] at hw'
  cases hw' 'x' mem_cons_self

end Whole

end Kojacoord
