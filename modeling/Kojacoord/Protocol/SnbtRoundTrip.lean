import Kojacoord.Protocol.SnbtWhole

namespace Kojacoord

theorem snbtItems_eq : snbtItems lib items = items.map (snbtText lib) := by
  induction items with
  | nil => rfl
  | cons item items ih => rw [snbtItems, ih, List.map_cons]

def snbtField (lib : SnbtLibrary) (field : String × NbtTag) : List Char :=
  field.1.toList ++ ':' :: snbtText lib field.2

theorem snbtFields_eq : snbtFields lib map = map.map (snbtField lib) := by
  induction map with
  | nil => rfl
  | cons field map ih => rw [snbtFields, ih, List.map_cons, snbtField]

namespace SnbtParser
variable {lib : SnbtLibrary}

section Numbers

theorem digitsText_of_isDigit (h : ∀ c ∈ digits, c.isDigit = true) :
    DigitsText false digits false := by
  induction digits with
  | nil => exact .nil
  | cons c digits ih =>
    obtain ⟨hc, hdigs⟩ := List.forall_mem_cons.mp h
    exact .digit hc (ih hdigs)

theorem numberText_decimal (h : numberTag lib (decimal n) false suffix = some tag) :
    NumberText lib (decimal n ++ suffix) tag := by
  rw [decimal_eq] at h ⊢
  rw [List.append_assoc]
  refine .number ?_ (digitsText_of_isDigit fun c hc => isDigit_of_mem_digits hc) h
  rw [sign]
  split <;> decide

theorem valueText_decimal (h : NumberText lib (decimal n ++ suffix) tag) :
    ValueText lib (decimal n ++ suffix) tag := by
  rw [decimal_eq, sign] at h ⊢
  by_cases hn : n < 0
  · rw [if_pos hn] at h ⊢
    exact .number rfl h
  · obtain ⟨c, digits, hdigs, hc⟩ := toDigits_eq_cons n.natAbs
    rw [if_neg hn, List.nil_append, hdigs] at h ⊢
    exact .number (by rw [startsNumber, hc]; rfl) h

theorem numberText_byte : NumberText lib (decimal v.toInt ++ ['b']) (.byte v) := by
  apply numberText_decimal
  rw [numberTag, parseSigned_decimal 8 v.le_toInt v.toInt_lt, Option.map_some, Int8.ofInt_toInt]

theorem numberText_short : NumberText lib (decimal v.toInt ++ ['s']) (.short v) := by
  apply numberText_decimal
  rw [numberTag, parseSigned_decimal 16 v.le_toInt v.toInt_lt, Option.map_some, Int16.ofInt_toInt]

theorem numberText_long : NumberText lib (decimal v.toInt ++ ['L']) (.long v) := by
  apply numberText_decimal
  rw [numberTag, parseSigned_decimal 64 v.le_toInt v.toInt_lt, Option.map_some, Int64.ofInt_toInt]

theorem numberText_int : NumberText lib (decimal v.toInt ++ []) (.int v) := by
  apply numberText_decimal
  rw [numberTag, if_neg Bool.false_ne_true, parseSigned_decimal 32 v.le_toInt v.toInt_lt,
    Option.map_some, Int32.ofInt_toInt]

end Numbers

section Strings

def escapeChar (c : Char) : List Char :=
  if c = '\\' then ['\\', '\\']
  else if c = '"' then ['\\', '"']
  else if c = '\n' then ['\\', 'n']
  else if c = '\r' then ['\\', 'r']
  else if c = '\t' then ['\\', 't']
  else [c]

theorem replaceChar_append :
    replaceChar c other (s ++ t) = replaceChar c other s ++ replaceChar c other t :=
  List.flatMap_append

variable {s : String}

/-- The replacements one after the other come to one replacement of every character: what an earlier
one puts in holds nothing that a later one looks for. -/
theorem formatSnbtString_eq :
    formatSnbtString s = '"' :: (s.toList.flatMap escapeChar ++ ['"']) := by
  have hchar (c : Char) : replaceChar '\t' ['\\', 't'] (replaceChar '\r' ['\\', 'r']
      (replaceChar '\n' ['\\', 'n'] (replaceChar '"' ['\\', '"']
        (replaceChar '\\' ['\\', '\\'] [c])))) = escapeChar c := by
    unfold escapeChar
    split_ifs with hsl hqu hn hr ht
    · subst hsl; rfl
    · subst hqu; rfl
    · subst hn; rfl
    · subst hr; rfl
    · subst ht; rfl
    · simp [replaceChar, hsl, hqu, hn, hr, ht]
  have htx (cs : List Char) : replaceChar '\t' ['\\', 't'] (replaceChar '\r' ['\\', 'r']
      (replaceChar '\n' ['\\', 'n'] (replaceChar '"' ['\\', '"']
        (replaceChar '\\' ['\\', '\\'] cs)))) = cs.flatMap escapeChar := by
    induction cs with
    | nil => rfl
    | cons c cs ih =>
      have hcons : c :: cs = [c] ++ cs := rfl
      rw [hcons, List.flatMap_append, ← ih, List.flatMap_singleton, ← hchar]
      simp only [replaceChar_append]
  rw [formatSnbtString, htx]

theorem escaped_flatMap (s : List Char) : Escaped '"' (s.flatMap escapeChar) s := by
  induction s with
  | nil => exact .nil
  | cons c s ih =>
    rw [List.flatMap_cons, escapeChar]
    split_ifs with hsl hqu hn hr ht
    · subst hsl; exact .escape ih
    · subst hqu; exact .escape ih
    · subst hn; exact .escape ih
    · subst hr; exact .escape ih
    · subst ht; exact .escape ih
    · exact .plain hsl hqu ih

theorem quotedText_format : QuotedText (formatSnbtString s) s := by
  have htx := QuotedText.quoted (.inl rfl) (escaped_flatMap s.toList)
  rwa [String.ofList_toList, ← formatSnbtString_eq] at htx

theorem length_unescape (c : Char) : (unescape c).length ≤ 2 := by
  unfold unescape
  split <;> simp

theorem length_of_escaped (h : Escaped quote text chars) : chars.length ≤ text.length := by
  induction h with
  | nil => exact Nat.le_refl _
  | plain _ _ _ ih => exact Nat.succ_le_succ ih
  | @escape _ _ c _ ih =>
    have hlen := length_unescape c
    rw [List.length_append, List.length_cons, List.length_cons]
    omega

end Strings

section Items
variable {item : List Char → α → Prop} {enc : α → List Char}

theorem itemsText_intercalate (h : ∀ b ∈ a :: as, item (enc b) b) :
    ItemsText item (List.intercalate [','] ((a :: as).map enc) ++ [']']) (a :: as) := by
  induction as generalizing a with
  | nil =>
    rw [List.map_singleton, List.intercalate_singleton]
    exact .last spaces_nil (h a List.mem_cons_self) spaces_nil
  | cons b as ih =>
    obtain ⟨ha, has⟩ := List.forall_mem_cons.mp h
    rw [List.map_cons, List.map_cons, List.intercalate_cons_cons, ← List.map_cons,
      List.append_assoc, List.append_assoc]
    exact .more spaces_nil ha spaces_nil (ih has)

theorem listText_intercalate (h : ∀ a ∈ as, item (enc a) a) :
    ListText item (List.intercalate [','] (as.map enc) ++ [']']) as := by
  cases as with
  | nil => exact .empty spaces_nil
  | cons a as => exact .items (itemsText_intercalate h)

end Items

def isIdentifier (lib : SnbtLibrary) (key : String) : Bool :=
  match key.toList with
  | [] => false
  | c :: cs => startsWord lib c && cs.all (isIdentifierChar lib)

theorem wordText_iff : WordText lib key.toList ↔ isIdentifier lib key = true := by
  rw [isIdentifier]
  constructor
  · intro h
    cases hkey : key.toList with
    | nil =>
      rw [hkey] at h
      cases h
    | cons c cs =>
      rw [hkey] at h
      cases h with
      | word hc hcs => exact Bool.and_eq_true_iff.mpr ⟨hc, List.all_eq_true.mpr hcs⟩
  · intro h
    cases hkey : key.toList with
    | nil =>
      rw [hkey] at h
      cases h
    | cons c cs =>
      rw [hkey] at h
      obtain ⟨hc, hcs⟩ := Bool.and_eq_true_iff.mp h
      exact .word hc (List.all_eq_true.mp hcs)

theorem keyText_of_isIdentifier (h : isIdentifier lib key = true) :
    KeyText lib key.toList key := by
  have htx := KeyText.word (wordText_iff.mpr h)
  rwa [String.ofList_toList] at htx

theorem entriesText_intercalate {map acc : NbtMap}
    (h : ∀ field ∈ map, ValueText lib (snbtText lib field.2) field.2)
    (hkeys : ∀ field ∈ map, isIdentifier lib field.1 = true)
    (hnd : ((acc ++ map).map Prod.fst).Nodup) :
    EntriesText lib (ValueText lib) acc
      (List.intercalate [','] (map.map (snbtField lib)) ++ ['\x7d']) (acc ++ map) := by
  induction map generalizing acc with
  | nil =>
    rw [List.append_nil]
    exact .close spaces_nil
  | cons field map ih =>
    obtain ⟨key, tag⟩ := field
    obtain ⟨hfld, hflds⟩ := List.forall_mem_cons.mp h
    obtain ⟨hkey, hoth⟩ := List.forall_mem_cons.mp hkeys
    have hfre : key ∉ acc.map Prod.fst := by
      rw [List.map_append, List.nodup_append] at hnd
      intro hmem
      exact hnd.2.2 key hmem key List.mem_cons_self rfl
    have htx := keyText_of_isIdentifier hkey
    have hnd' : ((acc ++ [(key, tag)] ++ map).map Prod.fst).Nodup := by
      simpa using hnd
    have hrs := ih hflds hoth hnd'
    rw [← NbtMap.insert_of_not_mem hfre] at hrs
    have happ : acc ++ (key, tag) :: map = .insert key tag acc ++ map := by
      rw [NbtMap.insert_of_not_mem hfre, List.append_assoc]
      rfl
    rw [happ]
    cases map with
    | nil =>
      rw [List.map_singleton, List.intercalate_singleton, snbtField, List.append_nil,
        List.append_assoc]
      exact .last spaces_nil htx spaces_nil spaces_nil hfld spaces_nil
    | cons other map =>
      rw [List.map_cons, List.map_cons, List.intercalate_cons_cons, ← List.map_cons, snbtField,
        List.append_assoc, List.append_assoc, List.append_assoc]
      exact .more spaces_nil htx spaces_nil spaces_nil hfld spaces_nil hrs

inductive Plain (K : String → Prop) : NbtTag → Prop
  | byte : Plain K (.byte v)
  | short : Plain K (.short v)
  | int : Plain K (.int v)
  | long : Plain K (.long v)
  | string : Plain K (.string s)
  | byteArray : Plain K (.byteArray bytes)
  | intArray : Plain K (.intArray ints)
  | longArray : Plain K (.longArray longs)
  | list : (∀ item ∈ items, Plain K item) → Plain K (.list items)
  | compound : (∀ field ∈ map, Plain K field.2) → (∀ field ∈ map, K field.1) →
      (map.map Prod.fst).Nodup → Plain K (.compound map)

theorem Plain.valueText (h : Plain (isIdentifier lib · = true) t) :
    ValueText lib (snbtText lib t) t := by
  induction h with
  | byte => exact valueText_decimal numberText_byte
  | short => exact valueText_decimal numberText_short
  | @int v =>
    rw [snbtText, ← List.append_nil (decimal v.toInt)]
    exact valueText_decimal numberText_int
  | long => exact valueText_decimal numberText_long
  | string => exact .quoted quotedText_format
  | byteArray =>
    refine .array spaces_nil (.bytes (listText_intercalate fun b _ => ?_))
    exact ⟨_, numberText_byte, rfl⟩
  | intArray =>
    refine .array spaces_nil (.ints (listText_intercalate fun i _ => ?_))
    rw [← List.append_nil (decimal i.toInt)]
    exact ⟨_, numberText_int, rfl⟩
  | longArray =>
    refine .array spaces_nil (.longs (listText_intercalate fun l _ => ?_))
    exact ⟨_, numberText_long, rfl⟩
  | list _ ih =>
    rw [snbtText, snbtItems_eq]
    exact .list (listText_intercalate ih)
  | compound _ hkeys hnd ih =>
    rw [snbtText, snbtFields_eq]
    exact .compound (entriesText_intercalate ih hkeys hnd)

theorem Plain.parseSnbt_toSnbt (h : Plain (isIdentifier lib · = true) t) :
    parseSnbt lib (toSnbt lib t) = .ok t := by
  refine parseSnbt_eq_ok.mpr ⟨[], snbtText lib t, [], spaces_nil, h.valueText, nofun, ?_⟩
  rw [toSnbt, String.toList_ofList, List.append_nil]
  rfl

section Keys

theorem mem_keys_insert {map : NbtMap} :
    key ∈ (NbtMap.insert name tag map).map Prod.fst ↔ key = name ∨ key ∈ map.map Prod.fst := by
  induction map with
  | nil => simp [NbtMap.insert]
  | cons field map ih =>
    rw [NbtMap.insert]
    split_ifs with hfst
    · subst hfst
      simp
    · simp only [List.map_cons, List.mem_cons, ih]
      tauto

theorem keys_of_entries (h : EntriesText lib value map text map') :
    ∀ key ∈ map.map Prod.fst, key ∈ map'.map Prod.fst := by
  induction h with
  | close => exact fun _ hkey => hkey
  | last => exact fun _ hkey => mem_keys_insert.mpr (.inr hkey)
  | more _ _ _ _ _ _ _ ih => exact fun key hkey => ih key (mem_keys_insert.mpr (.inr hkey))

theorem first_key (h : EntriesText lib value [] text map) (hkeys : map.map Prod.fst = [key]) :
    ∃ w k tail, KeyText lib k key ∧ text = w ++ (k ++ tail) := by
  cases h with
  | close => cases hkeys
  | last _ hk =>
    cases hkeys
    exact ⟨_, _, _, hk, rfl⟩
  | @more _ _ name _ _ _ tag _ _ _ _ _ hk _ _ _ _ hrs =>
    have hmem := keys_of_entries hrs name (mem_keys_insert.mpr (.inl rfl))
    rw [hkeys, List.mem_singleton] at hmem
    subst hmem
    exact ⟨_, _, _, hk, rfl⟩

theorem length_lt_of_append (h : front ++ c :: rest = text ++ tail) (hc : c ∉ tail) :
    front.length < text.length := by
  rcases List.append_eq_append_iff.mp h with ⟨more, rfl, hmo⟩ | ⟨more, rfl, htl⟩
  · cases more with
    | nil =>
      rw [List.nil_append] at hmo
      exact absurd (hmo ▸ List.mem_cons_self) hc
    | cons d more =>
      rw [List.length_append, List.length_cons]
      omega
  · exact absurd (htl ▸ List.mem_append_right _ List.mem_cons_self) hc

theorem same_single (h : NbtTag.Same back (.compound [(key, tag)])) :
    ∃ map, back = .compound map ∧ map.map Prod.fst = [key] := by
  cases h with
  | refl => exact ⟨_, rfl, rfl⟩
  | compound hpm _ => exact ⟨_, rfl, List.perm_singleton.mp hpm⟩

theorem Plain.single (h : K key) : Plain K (.compound [(key, .byte 0)]) := by
  refine .compound ?_ ?_ (by simp)
  · rintro field hfld
    cases List.mem_singleton.mp hfld
    exact .byte
  · rintro field hfld
    cases List.mem_singleton.mp hfld
    exact h

theorem Plain.mono {K' : String → Prop} (h : Plain K t) (hK : ∀ key, K key → K' key) :
    Plain K' t := by
  induction h with
  | list _ ih => exact .list ih
  | compound _ hkeys hnd ih =>
    exact .compound ih (fun field hfld => hK _ (hkeys field hfld)) hnd
  | _ => constructor

theorem snbtText_single : snbtText lib (.compound [(key, .byte 0)]) =
    '\x7b' :: (key.toList ++ ':' :: ['0', 'b', '\x7d']) := by
  have hz : snbtText lib (.byte 0) = ['0', 'b'] := by
    rfl
  rw [snbtText, snbtFields_eq, List.map_singleton, List.intercalate_singleton, snbtField, hz,
    List.append_assoc]
  rfl

/-- A compound with one entry comes back only if its key is an identifier: a quoted string cannot
be its own source, which has the quotes too. -/
theorem isIdentifier_of_single_back
    (h : parseSnbt lib (toSnbt lib (.compound [(key, .byte 0)])) = .ok back)
    (hsm : back.Same (.compound [(key, .byte 0)])) : isIdentifier lib key = true := by
  obtain ⟨map, rfl, hkeys⟩ := same_single hsm
  obtain ⟨w, v, rest, hw, hv, -, hs⟩ := parseSnbt_eq_ok.mp h
  rw [toSnbt, String.toList_ofList, snbtText_single] at hs
  cases w with
  | cons c w =>
    obtain ⟨rfl, -⟩ := List.cons.inj hs
    cases hw _ List.mem_cons_self
  | nil =>
    obtain ⟨cs, rfl, hcs⟩ := hv.begun.cons hs
    obtain ⟨map', hent, heq⟩ := hv.head
    cases heq
    obtain ⟨w, k, tail, hk, rfl⟩ := first_key hent hkeys
    cases hk with
    | word hk => exact wordText_iff.mp (by rwa [String.toList_ofList])
    | quoted hk =>
      cases hk with
      | @quoted quote text chars hqu hesc =>
        have hmem : quote ∉ [':', '0', 'b', '\x7d'] := by
          rcases hqu with rfl | rfl <;> decide
        have hspl : (w ++ quote :: text) ++ quote :: (tail ++ rest) =
            chars ++ [':', '0', 'b', '\x7d'] := by
          rw [← String.toList_ofList (l := chars), hcs]
          simp
        have hlg := length_lt_of_append hspl hmem
        have hsh := length_of_escaped hesc
        simp only [List.length_append, List.length_cons] at hlg
        omega

end Keys

end SnbtParser

open SnbtParser in
/-- The trees with keys of a kind are all printed and parsed back exactly if all these keys are
identifiers. -/
theorem snbt_round_trip_iff (lib : SnbtLibrary) (K : String → Prop) :
    (∀ t, Plain K t → ∃ back, parseSnbt lib (toSnbt lib t) = .ok back ∧ back.Same t) ↔
      ∀ key, K key → isIdentifier lib key = true := by
  constructor
  · intro h key hkey
    obtain ⟨back, hback, hsame⟩ := h _ (.single hkey)
    exact isIdentifier_of_single_back hback hsame
  · intro hkeys t ht
    exact ⟨t, (ht.mono hkeys).parseSnbt_toSnbt, .refl⟩

theorem snbt_round_trip_fails_stone :
    toSnbt asciiLibrary (.compound [("minecraft:stone", .byte 0)]) =
      "\x7bminecraft:stone:0b\x7d" ∧
    parseSnbt asciiLibrary (toSnbt asciiLibrary (.compound [("minecraft:stone", .byte 0)])) =
      .error (.unexpectedChar ':' 16) := by
  constructor
  · decide +kernel
  · rfl

end Kojacoord
