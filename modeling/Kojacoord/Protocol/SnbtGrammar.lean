import Kojacoord.Protocol.SnbtLeaves
import Mathlib.Data.List.TakeWhile

namespace Kojacoord
open RoundTrip SnbtParser

def Spaces (w : List Char) : Prop := ∀ c ∈ w, isWhitespace c = true

inductive ItemsText (item : List Char → α → Prop) : List Char → List α → Prop
  | last : Spaces w → item v a → Spaces w' → ItemsText item (w ++ (v ++ (w' ++ [']']))) [a]
  | more : Spaces w → item v a → Spaces w' → ItemsText item text as →
      ItemsText item (w ++ (v ++ (w' ++ ',' :: text))) (a :: as)

inductive ListText (item : List Char → α → Prop) : List Char → List α → Prop
  | empty : Spaces w → ListText item (w ++ [']']) []
  | items : ItemsText item text as → ListText item text as

inductive Escaped (quote : Char) : List Char → List Char → Prop
  | nil : Escaped quote [] []
  | plain : c ≠ '\\' → c ≠ quote → Escaped quote text s →
      Escaped quote (c :: text) (c :: s)
  | escape : Escaped quote text s → Escaped quote ('\\' :: c :: text) (unescape c ++ s)

inductive QuotedText : List Char → String → Prop
  | quoted : quote = '"' ∨ quote = '\'' → Escaped quote text s →
      QuotedText (quote :: (text ++ [quote])) (.ofList s)

inductive DigitsText : Bool → List Char → Bool → Prop
  | nil : DigitsText dot [] dot
  | digit : c.isDigit = true → DigitsText dot text dot' → DigitsText dot (c :: text) dot'
  | dot : DigitsText true text dot' → DigitsText false ('.' :: text) dot'

def isSuffix (c : Char) : Bool := c ∈ ['b', 'B', 's', 'S', 'l', 'L', 'f', 'F', 'd', 'D']

section Grammar
variable (lib : SnbtLibrary)

def numberTag (text : List Char) (hasDot : Bool) : List Char → Option NbtTag
  | [] =>
    if hasDot then (lib.parseF64 (.ofList text)).map .double
    else (parseSigned 32 text).map fun n => .int (.ofInt n)
  | ['b'] | ['B'] => (parseSigned 8 text).map fun n => .byte (.ofInt n)
  | ['s'] | ['S'] => (parseSigned 16 text).map fun n => .short (.ofInt n)
  | ['l'] | ['L'] => (parseSigned 64 text).map fun n => .long (.ofInt n)
  | ['f'] | ['F'] => (lib.parseF32 (.ofList text)).map .float
  | ['d'] | ['D'] => (lib.parseF64 (.ofList text)).map .double
  | _ => none

inductive NumberText : List Char → NbtTag → Prop
  | number : pre ∈ [[], ['+'], ['-']] → DigitsText false digits hasDot →
      numberTag lib (pre ++ digits) hasDot suffix = some tag →
      NumberText (pre ++ (digits ++ suffix)) tag

inductive WordText : List Char → Prop
  | word : startsWord lib c = true →
      (∀ d ∈ cs, isIdentifierChar lib d = true) → WordText (c :: cs)

inductive KeyText : List Char → String → Prop
  | quoted : QuotedText k key → KeyText k key
  | word : WordText lib k → KeyText k (.ofList k)

inductive EntriesText (value : List Char → NbtTag → Prop) : NbtMap → List Char → NbtMap → Prop
  | close : Spaces w → EntriesText value map (w ++ ['\x7d']) map
  | last : Spaces w → KeyText lib k key → Spaces w' → Spaces u → value v tag → Spaces u' →
      EntriesText value map (w ++ (k ++ (w' ++ ':' :: (u ++ (v ++ (u' ++ ['\x7d']))))))
        (NbtMap.insert key tag map)
  | more : Spaces w → KeyText lib k key → Spaces w' → Spaces u → value v tag → Spaces u' →
      EntriesText value (NbtMap.insert key tag map) text map' →
      EntriesText value map (w ++ (k ++ (w' ++ ':' :: (u ++ (v ++ (u' ++ ',' :: text)))))) map'

def wordTag (v : List Char) : NbtTag :=
  if String.ofList v = "true" then .byte 1
  else if String.ofList v = "false" then .byte 0
  else .string (.ofList v)

def startsNumber (c : Char) : Bool := c.isDigit || c = '-' || c = '+'

def ArrayItem (item : NbtTag → Option α) (v : List Char) (a : α) : Prop :=
  ∃ tag, NumberText lib v tag ∧ item tag = some a

def byteOf : NbtTag → Option Int8
  | .byte b => some b
  | .int i => some i.toInt8
  | _ => none

def intOf : NbtTag → Option Int32
  | .int i => some i
  | _ => none

def longOf : NbtTag → Option Int64
  | .long l => some l
  | .int i => some i.toInt64
  | _ => none

inductive ArrayText : Char → List Char → NbtTag → Prop
  | bytes : ListText (ArrayItem lib byteOf) text arr → ArrayText 'B' text (.byteArray arr)
  | ints : ListText (ArrayItem lib intOf) text arr → ArrayText 'I' text (.intArray arr)
  | longs : ListText (ArrayItem lib longOf) text arr → ArrayText 'L' text (.longArray arr)

inductive ValueText : List Char → NbtTag → Prop
  | compound : EntriesText lib ValueText [] text map → ValueText ('\x7b' :: text) (.compound map)
  | list : ListText ValueText text tags → ValueText ('[' :: text) (.list tags)
  | array : Spaces w → ArrayText lib kind text tag →
      ValueText ('[' :: (w ++ kind :: ';' :: text)) tag
  | quoted : QuotedText v s → ValueText v (.string s)
  | number : startsNumber c = true → NumberText lib (c :: v) tag → ValueText (c :: v) tag
  | word : WordText lib v → ValueText v (wordTag v)

def numberContinues (v : List Char) (c : Char) : Bool :=
  !(v.getLast?.any isSuffix) && (c.isDigit || c = '.' && '.' ∉ v || isSuffix c)

def continues (v : List Char) (c : Char) : Bool :=
  match v with
  | [] => false
  | first :: _ =>
    if startsNumber first then numberContinues v c
    else startsWord lib first && isIdentifierChar lib c

def Stops (v rest : List Char) : Prop := ∀ c ∈ rest.head?, continues lib v c = false

end Grammar

section Spaces
variable {p : Char → Bool} {text rest : List Char}

theorem span_append (htx : ∀ c ∈ text, p c = true) (hrs : ∀ c ∈ rest.head?, p c = false) :
    (text ++ rest).takeWhile p = text ∧ (text ++ rest).dropWhile p = rest := by
  rw [List.takeWhile_append_of_pos htx, List.dropWhile_append_of_pos htx]
  cases rest with
  | nil => exact ⟨List.append_nil _, rfl⟩
  | cons c rest =>
    have hc : ¬p c = true := by simp [hrs c rfl]
    rw [List.takeWhile_cons_of_neg hc, List.dropWhile_cons_of_neg hc, List.append_nil]
    exact ⟨rfl, rfl⟩

theorem head_dropWhile (p : Char → Bool) (s : List Char) :
    ∀ c ∈ (s.dropWhile p).head?, p c = false := by
  intro c hc
  have hhd := List.head?_dropWhile_not p s
  rw [hc] at hhd
  simpa using hhd

theorem skip_bind_eq_ok {p : SnbtParser α} :
    (do skipWhitespace; p) s = .ok (a, rest) ↔
      ∃ w s', Spaces w ∧ s = w ++ s' ∧ (∀ c ∈ s'.head?, isWhitespace c = false) ∧
        p s' = .ok (a, rest) := by
  have hsk : skipWhitespace s = .ok ((), s.dropWhile isWhitespace) := rfl
  rw [bind_ok hsk]
  constructor
  · intro h
    exact ⟨s.takeWhile isWhitespace, _, fun c hc => List.mem_takeWhile_imp hc,
      List.takeWhile_append_dropWhile.symm, head_dropWhile _ s, h⟩
  · rintro ⟨w, s', hw, rfl, hs, h⟩
    rwa [(span_append hw hs).2]

theorem skip_cons {p : SnbtParser α} (hw : Spaces w) (hc : isWhitespace c = false) :
    (do skipWhitespace; p) (w ++ c :: rest) = p (c :: rest) := by
  have hrs : ∀ d ∈ (c :: rest).head?, isWhitespace d = false := by
    rintro d ⟨⟩
    exact hc
  have hsk : skipWhitespace (w ++ c :: rest) = .ok ((), (w ++ c :: rest).dropWhile _) := rfl
  rw [bind_ok hsk, (span_append hw hrs).2]

end Spaces

section Leaves

theorem Escaped.reads (hqu : quote ≠ '\\') (h : Escaped quote text chars)
    (acc rest : List Char) :
    quotedTail quote false acc (text ++ quote :: rest) = .ok (.ofList (acc ++ chars), rest) := by
  induction h generalizing acc with
  | nil => rw [List.nil_append, quotedTail, if_neg hqu, if_pos rfl, List.append_nil]
  | plain hesc hpl _ ih =>
    rw [List.cons_append, quotedTail, if_neg hesc, if_neg hpl, ih, List.append_assoc]
    rfl
  | escape _ ih =>
    rw [List.cons_append, List.cons_append, quotedTail, if_pos rfl, quotedTail, ih,
      List.append_assoc]

theorem escaped_of_read (h : quotedTail quote false acc s = .ok (t, rest)) :
    ∃ text chars, s = text ++ quote :: rest ∧ Escaped quote text chars ∧
      t = .ofList (acc ++ chars) := by
  -- A backslash takes up two characters in one turn.
  induction hn : s.length using Nat.strong_induction_on generalizing s acc with
  | _ n ih =>
    cases s with
    | nil => cases h
    | cons c s =>
      rw [List.length_cons] at hn
      rw [quotedTail] at h
      by_cases hesc : c = '\\'
      · rw [if_pos hesc] at h
        cases s with
        | nil => cases h
        | cons d s =>
          rw [List.length_cons] at hn
          obtain ⟨text, chars, rfl, hbd, rfl⟩ := ih s.length (by omega) h rfl
          exact ⟨'\\' :: d :: text, unescape d ++ chars, by rw [hesc]; rfl, .escape hbd,
            by rw [List.append_assoc]⟩
      · rw [if_neg hesc] at h
        by_cases hcl : c = quote
        · rw [if_pos hcl] at h
          cases h
          exact ⟨[], [], by rw [hcl]; rfl, .nil, by rw [List.append_nil]⟩
        · rw [if_neg hcl] at h
          obtain ⟨text, chars, rfl, hbd, rfl⟩ := ih s.length (by omega) h rfl
          exact ⟨c :: text, c :: chars, rfl, .plain hesc hcl hbd,
            by rw [List.append_assoc]; rfl⟩

theorem ne_backslash (h : quote = '"' ∨ quote = '\'') : quote ≠ '\\' := by
  rcases h with rfl | rfl <;> decide

theorem quotedString_eq_ok (hqu : quote = '"' ∨ quote = '\'') :
    parseQuotedString (quote :: s) = .ok (t, rest) ↔
      ∃ v, quote :: s = v ++ rest ∧ QuotedText v t := by
  constructor
  · intro h
    obtain ⟨text, chars, rfl, hbd, rfl⟩ := escaped_of_read h
    refine ⟨quote :: (text ++ [quote]), ?_, .quoted hqu hbd⟩
    rw [List.cons_append, List.append_assoc]
    rfl
  · rintro ⟨v, hv, htx⟩
    cases htx with
    | @quoted quote' text chars hqu' hbd =>
      rw [List.cons_append, List.append_assoc] at hv
      obtain ⟨rfl, rfl⟩ := List.cons.inj hv
      exact hbd.reads (ne_backslash hqu) [] rest

theorem parseIdentifier_eq_ok {lib : SnbtLibrary} :
    parseIdentifier lib s = .ok (t, rest) ↔
      ∃ text, s = text ++ rest ∧ (∀ c ∈ text, isIdentifierChar lib c = true) ∧
        (∀ c ∈ rest.head?, isIdentifierChar lib c = false) ∧ t = .ofList text := by
  generalize hp : isIdentifierChar lib = p
  have hprs : parseIdentifier lib s =
      .ok (.ofList (s.takeWhile p), s.dropWhile p) := by
    subst hp
    rfl
  rw [hprs]
  constructor
  · intro h
    cases h
    exact ⟨s.takeWhile p, List.takeWhile_append_dropWhile.symm,
      fun c hc => List.mem_takeWhile_imp hc, head_dropWhile p s, rfl⟩
  · rintro ⟨text, rfl, htx, hrs, rfl⟩
    obtain ⟨htk, hdr⟩ := span_append htx hrs
    rw [htk, hdr]

end Leaves

section Numbers
variable {lib : SnbtLibrary}

def DigitsStop (dot : Bool) (rest : List Char) : Prop :=
  ∀ c ∈ rest.head?, c.isDigit = false ∧ (c = '.' → dot = true)

theorem DigitsText.scan (h : DigitsText seen digits seen') (hrs : DigitsStop seen' rest) :
    scanNumber seen (digits ++ rest) = (digits, seen', rest) := by
  induction h with
  | @nil seen' =>
    cases rest with
    | nil => rfl
    | cons c rest =>
      obtain ⟨hdig, hdot⟩ := hrs c rfl
      have hsec : ¬(c = '.' ∧ (!seen') = true) := by
        rintro ⟨hc, hfal⟩
        rw [hdot hc] at hfal
        cases hfal
      rw [List.nil_append, scanNumber, if_neg (by simp [hdig]), if_neg hsec]
  | digit hc _ ih => rw [List.cons_append, scanNumber, if_pos hc, ih hrs]
  | dot _ ih => rw [List.cons_append, scanNumber, if_neg (by decide), if_pos ⟨rfl, rfl⟩, ih hrs]

theorem scan_inv (dot : Bool) (s : List Char) :
    ∃ digits dot' rest, scanNumber dot s = (digits, dot', rest) ∧ s = digits ++ rest ∧
      DigitsText dot digits dot' ∧ DigitsStop dot' rest := by
  induction s generalizing dot with
  | nil => exact ⟨[], dot, [], rfl, rfl, .nil, fun c hc => by cases hc⟩
  | cons c s ih =>
    by_cases hdig : c.isDigit = true
    · obtain ⟨digits, dot', rest, hscan, rfl, hdigs, hsp⟩ := ih dot
      refine ⟨c :: digits, dot', rest, ?_, rfl, .digit hdig hdigs, hsp⟩
      rw [scanNumber, if_pos hdig, hscan]
    · by_cases hdot : c = '.' ∧ (!dot) = true
      · obtain ⟨digits, dot', rest, hscan, rfl, hdigs, hsp⟩ := ih true
        obtain ⟨rfl, hfal⟩ := hdot
        cases dot with
        | true => cases hfal
        | false =>
          refine ⟨'.' :: digits, dot', rest, ?_, rfl, .dot hdigs, hsp⟩
          rw [scanNumber, if_neg hdig, if_pos ⟨rfl, rfl⟩, hscan]
      · refine ⟨[], dot, c :: s, ?_, rfl, .nil, ?_⟩
        · rw [scanNumber, if_neg hdig, if_neg hdot]
        · rintro d ⟨⟩
          refine ⟨Bool.eq_false_iff.mpr hdig, fun hc => ?_⟩
          by_contra hfal
          exact hdot ⟨hc, by simpa using hfal⟩

theorem numberTag_suffix (h : numberTag lib text hasDot suffix = some tag) :
    suffix = [] ∨ ∃ c, suffix = [c] ∧ isSuffix c = true := by
  unfold numberTag at h
  split at h
  · exact .inl rfl
  all_goals first | exact .inr ⟨_, rfl, rfl⟩ | cases h

theorem bind_orInvalid_eq_ok {f : α → NbtTag} {o : Option α} :
    (do return f (← orInvalid text o) : SnbtParser NbtTag) s = .ok (tag, rest) ↔
      rest = s ∧ o.map f = some tag := by
  cases o with
  | none =>
    refine iff_of_false (fun h => by cases h) ?_
    rintro ⟨-, h⟩
    cases h
  | some a =>
    constructor
    · intro h
      cases h
      exact ⟨rfl, rfl⟩
    · rintro ⟨rfl, h⟩
      cases h
      rfl

theorem typedNumber_suffix (hc : isSuffix c = true) :
    typedNumber lib text hasDot (c :: s) = .ok (tag, rest) ↔
      rest = s ∧ numberTag lib text hasDot [c] = some tag := by
  simp only [isSuffix, List.mem_cons, List.not_mem_nil, or_false, decide_eq_true_eq] at hc
  rcases hc with rfl | rfl | rfl | rfl | rfl | rfl | rfl | rfl | rfl | rfl
  all_goals first
    | exact bind_orInvalid_eq_ok (f := fun n => .byte (.ofInt n)) (o := parseSigned 8 text)
    | exact bind_orInvalid_eq_ok (f := fun n => .short (.ofInt n)) (o := parseSigned 16 text)
    | exact bind_orInvalid_eq_ok (f := fun n => .long (.ofInt n)) (o := parseSigned 64 text)
    | exact bind_orInvalid_eq_ok (f := .float) (o := lib.parseF32 (.ofList text))
    | exact bind_orInvalid_eq_ok (f := .double) (o := lib.parseF64 (.ofList text))

theorem typedNumber_plain (hs : ∀ c ∈ s.head?, isSuffix c = false) :
    typedNumber lib text hasDot s = .ok (tag, rest) ↔
      rest = s ∧ numberTag lib text hasDot [] = some tag := by
  have hpl : typedNumber lib text hasDot s =
      (if hasDot then do
        return .double (← orInvalid text (lib.parseF64 (.ofList text)))
      else do
        return .int (.ofInt (← orInvalid text (parseSigned 32 text)))
        : SnbtParser NbtTag) s := by
    have hcur : current s = .ok (s.head?, s) := rfl
    rw [typedNumber, bind_ok hcur]
    refine congrFun ?_ s
    split
    case h_11 => rfl
    all_goals
      rename_i hhd
      cases hs _ hhd
  rw [hpl, numberTag]
  cases hasDot with
  | true => exact bind_orInvalid_eq_ok
  | false => exact bind_orInvalid_eq_ok (f := fun n => .int (.ofInt n))

theorem parseSign_plain (h : ∀ c ∈ s.head?, c ≠ '+' ∧ c ≠ '-') :
    parseSign s = .ok ([], s) := by
  cases s with
  | nil => rfl
  | cons c s =>
    obtain ⟨hplus, hmin⟩ := h c rfl
    have hcur : current (c :: s) = .ok (some c, c :: s) := rfl
    rw [parseSign, bind_ok hcur]
    simp [hplus, hmin]
    rfl

theorem parseSign_inv (s : List Char) : ∃ pre rest, parseSign s = .ok (pre, rest) ∧
    s = pre ++ rest ∧ pre ∈ [[], ['+'], ['-']] := by
  by_cases h : ∀ c ∈ s.head?, c ≠ '+' ∧ c ≠ '-'
  · exact ⟨[], s, parseSign_plain h, rfl, by decide⟩
  · obtain ⟨c, hc, hsign⟩ : ∃ c ∈ s.head?, c = '+' ∨ c = '-' := by
      by_contra hno
      refine h fun c hc => ⟨?_, ?_⟩
      · exact fun hplus => hno ⟨c, hc, .inl hplus⟩
      · exact fun hmin => hno ⟨c, hc, .inr hmin⟩
    obtain ⟨s, rfl⟩ := List.head?_eq_some_iff.mp hc
    rcases hsign with rfl | rfl
    · exact ⟨['+'], s, rfl, rfl, by decide⟩
    · exact ⟨['-'], s, rfl, rfl, by decide⟩

theorem parseSign_append (hpre : pre ∈ [[], ['+'], ['-']])
    (h : pre = [] → ∀ c ∈ rest.head?, c ≠ '+' ∧ c ≠ '-') :
    parseSign (pre ++ rest) = .ok (pre, rest) := by
  simp only [List.mem_cons, List.not_mem_nil, or_false] at hpre
  rcases hpre with rfl | rfl | rfl
  · exact parseSign_plain (h rfl)
  · rfl
  · rfl

theorem parseNumber_eq (hsign : parseSign s = .ok (pre, s₁))
    (hscan : scanNumber false s₁ = (digits, hasDot, s₂)) :
    parseNumber lib s = typedNumber lib (pre ++ digits) hasDot s₂ := by
  rw [parseNumber, bind_ok hsign, bind_get, hscan]
  rfl

theorem not_isDigit_of_isSuffix (h : isSuffix c = true) :
    c.isDigit = false ∧ c ≠ '.' ∧ c ≠ '+' ∧ c ≠ '-' := by
  simp only [isSuffix, List.mem_cons, List.not_mem_nil, or_false, decide_eq_true_eq] at h
  rcases h with rfl | rfl | rfl | rfl | rfl | rfl | rfl | rfl | rfl | rfl <;> decide

theorem DigitsText.mem (h : DigitsText seen digits seen') (hc : c ∈ digits) :
    c.isDigit = true ∨ c = '.' := by
  induction h with
  | nil => cases hc
  | digit hdig _ ih =>
    rcases List.mem_cons.mp hc with rfl | hc
    · exact .inl hdig
    · exact ih hc
  | dot _ ih =>
    rcases List.mem_cons.mp hc with rfl | hc
    · exact .inr rfl
    · exact ih hc

theorem DigitsText.seen_iff (h : DigitsText seen digits seen') :
    seen' = true ↔ seen = true ∨ '.' ∈ digits := by
  induction h with
  | nil => simp
  | digit hdig _ ih =>
    have hne := (ne_of_isDigit hdig '.' rfl).symm
    rw [ih, List.mem_cons, or_iff_right hne]
  | dot _ ih =>
    rw [ih]
    simp

theorem isSuffix_of_mem (hpre : pre ∈ [[], ['+'], ['-']]) (hdigs : DigitsText seen digits seen')
    (h : c ∈ pre ++ digits) : isSuffix c = false := by
  rw [Bool.eq_false_iff]
  intro hsuf
  obtain ⟨hdig, hdot, hplus, hmin⟩ := not_isDigit_of_isSuffix hsuf
  rcases List.mem_append.mp h with hc | hc
  · simp only [List.mem_cons, List.not_mem_nil, or_false] at hpre
    rcases hpre with rfl | rfl | rfl
    · cases hc
    · exact hplus (List.mem_singleton.mp hc)
    · exact hmin (List.mem_singleton.mp hc)
  · rcases hdigs.mem hc with h | h
    · cases hdig.symm.trans h
    · exact hdot h

theorem numberContinues_suffix (h : isSuffix d = true) : numberContinues (v ++ [d]) c = false := by
  rw [numberContinues, List.getLast?_concat]
  simp [h]

theorem numberContinues_plain (hpre : pre ∈ [[], ['+'], ['-']])
    (hdigs : DigitsText false digits seen) :
    numberContinues (pre ++ digits) c = false ↔
      (c.isDigit = false ∧ (c = '.' → seen = true)) ∧ isSuffix c = false := by
  have hla : ((pre ++ digits).getLast?.any isSuffix) = false := by
    cases h : (pre ++ digits).getLast? with
    | none => rfl
    | some d => exact isSuffix_of_mem hpre hdigs (List.mem_of_getLast? h)
  have hpre' : '.' ∉ pre := by
    simp only [List.mem_cons, List.not_mem_nil, or_false] at hpre
    rcases hpre with rfl | rfl | rfl <;> decide
  have hdot : '.' ∈ pre ++ digits ↔ seen = true := by
    rw [List.mem_append, or_iff_right hpre', hdigs.seen_iff]
    simp
  simp only [numberContinues, hla, hdot, Bool.not_false, Bool.true_and, Bool.or_eq_false_iff,
    Bool.and_eq_false_iff, decide_eq_false_iff_not, not_not, imp_iff_not_or]

theorem parseSign_number (hpre : pre ∈ [[], ['+'], ['-']]) (hdigs : DigitsText false digits seen)
    (htag : numberTag lib (pre ++ digits) seen suffix = some tag) (rest : List Char) :
    parseSign (pre ++ (digits ++ (suffix ++ rest))) =
      .ok (pre, digits ++ (suffix ++ rest)) := by
  refine parseSign_append hpre fun hno c hc => ?_
  subst hno
  cases digits with
  | nil =>
    rcases numberTag_suffix htag with rfl | ⟨d, rfl, hlet⟩
    · cases hdigs
      cases htag
    · cases hc
      exact (not_isDigit_of_isSuffix hlet).2.2
  | cons d digits =>
    cases hc
    rcases hdigs.mem List.mem_cons_self with hdig | rfl
    · exact ⟨ne_of_isDigit hdig '+' rfl, ne_of_isDigit hdig '-' rfl⟩
    · decide

theorem parseNumber_eq_ok : parseNumber lib s = .ok (tag, rest) ↔
    ∃ v, s = v ++ rest ∧ NumberText lib v tag ∧ ∀ c ∈ rest.head?, numberContinues v c = false := by
  constructor
  · intro h
    obtain ⟨pre, s₁, hsign, rfl, hpre⟩ := parseSign_inv s
    obtain ⟨digits, seen, s₂, hscan, rfl, hdigs, hsp⟩ := scan_inv false s₁
    rw [parseNumber_eq hsign hscan] at h
    by_cases hsuf : ∀ c ∈ s₂.head?, isSuffix c = false
    · obtain ⟨rfl, htag⟩ := (typedNumber_plain hsuf).mp h
      refine ⟨pre ++ (digits ++ []), by simp, .number hpre hdigs htag, fun c hc => ?_⟩
      rw [List.append_nil]
      exact (numberContinues_plain hpre hdigs).mpr ⟨hsp c hc, hsuf c hc⟩
    · obtain ⟨c, hc, hlet⟩ : ∃ c ∈ s₂.head?, isSuffix c = true := by
        simpa using hsuf
      obtain ⟨s₂, rfl⟩ := List.head?_eq_some_iff.mp hc
      obtain ⟨rfl, htag⟩ := (typedNumber_suffix hlet).mp h
      refine ⟨pre ++ (digits ++ [c]), by simp, .number hpre hdigs htag, fun d _ => ?_⟩
      rw [← List.append_assoc]
      exact numberContinues_suffix hlet
  · rintro ⟨v, rfl, htx, hsp⟩
    cases htx with
    | @number pre digits seen suffix _ hpre hdigs htag =>
      rw [List.append_assoc, List.append_assoc]
      rcases numberTag_suffix htag with rfl | ⟨d, rfl, hlet⟩
      · rw [List.append_nil] at hsp
        have hsp' (c : Char) (hc : c ∈ rest.head?) :=
          (numberContinues_plain hpre hdigs).mp (hsp c hc)
        rw [parseNumber_eq (parseSign_number hpre hdigs htag rest)
          (hdigs.scan fun c hc => (hsp' c hc).1)]
        exact (typedNumber_plain fun c hc => (hsp' c hc).2).mpr ⟨rfl, htag⟩
      · obtain ⟨hdig, hdot, -⟩ := not_isDigit_of_isSuffix hlet
        have hsp' : DigitsStop seen (d :: rest) := by
          rintro c ⟨⟩
          exact ⟨hdig, fun h => absurd h hdot⟩
        rw [parseNumber_eq (parseSign_number hpre hdigs htag rest) (hdigs.scan hsp')]
        exact (typedNumber_suffix hlet).mpr ⟨rfl, htag⟩

end Numbers

end Kojacoord
