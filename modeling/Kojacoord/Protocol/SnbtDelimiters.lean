import Kojacoord.Protocol.SnbtGrammar

namespace Kojacoord
open RoundTrip SnbtParser List

section Loops
variable {lib : SnbtLibrary} {length : Nat}

theorem more_comma (hw : Spaces w) (rest : List Char) :
    more length close (w ++ ',' :: rest) = .ok (true, rest) := skip_cons hw rfl

theorem more_close (hsp : isWhitespace close = false) (hcom : close ≠ ',') (hw : Spaces w)
    (rest : List Char) : more length close (w ++ close :: rest) = .ok (false, rest) := by
  have hcur : current (close :: rest) = .ok (some close, close :: rest) := rfl
  refine (skip_cons hw hsp).trans ?_
  rw [bind_ok hcur, if_neg (by simpa using hcom), if_pos rfl]
  rfl

theorem more_inv (h : more length close s = .ok (b, rest)) :
    ∃ w, Spaces w ∧ s = w ++ (if b then ',' else close) :: rest := by
  obtain ⟨w, s, hw, rfl, -, h⟩ := skip_bind_eq_ok.mp h
  cases s with
  | nil => cases h
  | cons c s =>
    have hcur : current (c :: s) = .ok (some c, c :: s) := rfl
    rw [bind_ok hcur] at h
    by_cases hc : c = ','
    · subst hc
      cases h
      exact ⟨w, hw, rfl⟩
    · rw [if_neg (by simpa using hc)] at h
      by_cases hc' : c = close
      · subst hc'
        rw [if_pos rfl] at h
        cases h
        exact ⟨w, hw, rfl⟩
      · rw [if_neg (by simpa using hc')] at h
        cases h

def isDelimiter (c : Char) : Bool := isWhitespace c || c ∈ [',', ']', '\x7d', ':']

theorem ne_of_delimiter (h : isDelimiter c = true) (hd : isDelimiter d = false) : c ≠ d := by
  rintro rfl
  cases h.symm.trans hd

theorem isDelimiter_of_isDigit (h : c.isDigit = true) : isDelimiter c = false := by
  have hne (d : Char) (hd : d.isDigit = false) : c ≠ d := ne_of_isDigit h d hd
  simp [isDelimiter, isWhitespace_of_isDigit h, hne]

theorem isDelimiter_of_isSuffix (h : isSuffix c = true) : isDelimiter c = false := by
  simp only [isSuffix, mem_cons, not_mem_nil, or_false, decide_eq_true_eq] at h
  rcases h with rfl | rfl | rfl | rfl | rfl | rfl | rfl | rfl | rfl | rfl <;> decide

theorem not_isIdentifierChar (hasc : c.toNat < 128) (halp : c.isAlpha = false)
    (hdig : c.isDigit = false) (hne : c ∉ ['_', '-', '.']) :
    isIdentifierChar lib c = false := by
  obtain ⟨hlet, hnum⟩ := lib.ascii c hasc
  simp only [mem_cons, not_mem_nil, or_false, not_or] at hne
  simp [isIdentifierChar, SnbtLibrary.isAlphanumeric, hlet, hnum, halp, hdig, hne]

theorem not_isIdentifierChar_of_delimiter (h : isDelimiter c = true) :
    isIdentifierChar lib c = false := by
  have hne (d : Char) (hd : isDelimiter d = false) : c ≠ d := ne_of_delimiter h hd
  rw [isDelimiter, Bool.or_eq_true] at h
  rcases h with h | h
  · simp [isIdentifierChar, SnbtLibrary.isAlphanumeric, lib.spaces c h, hne '_' rfl,
      hne '-' rfl, hne '.' rfl]
  · simp only [mem_cons, not_mem_nil, or_false, decide_eq_true_eq] at h
    rcases h with rfl | rfl | rfl | rfl <;>
      exact not_isIdentifierChar (by decide) rfl rfl (by decide)

theorem numberContinues_delimiter (h : isDelimiter c = true) : numberContinues v c = false := by
  have hdig : c.isDigit = false := by
    rw [Bool.eq_false_iff]
    exact fun hc => Bool.noConfusion (h.symm.trans (isDelimiter_of_isDigit hc))
  have hsuf : isSuffix c = false := by
    rw [Bool.eq_false_iff]
    exact fun hc => Bool.noConfusion (h.symm.trans (isDelimiter_of_isSuffix hc))
  rw [numberContinues, hdig, hsuf]
  simp [ne_of_delimiter h (d := '.') rfl]

theorem continues_delimiter (h : isDelimiter c = true) : continues lib v c = false := by
  cases v with
  | nil => rfl
  | cons first v =>
    rw [continues.eq_def]
    dsimp only
    rw [numberContinues_delimiter h, not_isIdentifierChar_of_delimiter h, Bool.and_false, ite_self]

def Delimited (rest : List Char) : Prop := ∃ c ∈ rest.head?, isDelimiter c = true

theorem delimited_append (hw : Spaces w) (hc : isDelimiter c = true) (rest : List Char) :
    Delimited (w ++ c :: rest) := by
  cases w with
  | nil => exact ⟨c, rfl, hc⟩
  | cons d w =>
    refine ⟨d, rfl, ?_⟩
    rw [isDelimiter, hw d mem_cons_self, Bool.true_or]

theorem Delimited.stops (h : Delimited rest) (v : List Char) : Stops lib v rest := by
  obtain ⟨c, hc, hdel⟩ := h
  intro d hd
  cases hc.symm.trans hd
  exact continues_delimiter hdel

/-- On texts that are short enough, the parser reads such a text, with white space in front of it,
where it stops. -/
def ReadsText (m : Nat) (p : SnbtParser α) (P : List Char → α → Prop)
    (Q : List Char → List Char → Prop) : Prop :=
  ∀ s, s.length < m → ∀ a rest, p s = .ok (a, rest) ↔
    ∃ w v, Spaces w ∧ s = w ++ (v ++ rest) ∧ P v a ∧ Q v rest

section Items
variable {item : SnbtParser α} {P : List Char → α → Prop} {Q : List Char → List Char → Prop}

theorem itemsText_of_read (hit : ReadsText m item P Q) (hm : s.length < m)
    (h : itemsUntil item (more length ']') .unexpectedEof n s = .ok (as, rest)) :
    ∃ text, s = text ++ rest ∧ ItemsText P text as := by
  induction n generalizing s as with
  | zero => cases h
  | succ n ih =>
    obtain ⟨a, s₁, ha, h₁⟩ := bind_eq_ok.mp h
    obtain ⟨b, s₂, hb, h₂⟩ := bind_eq_ok.mp h₁
    obtain ⟨w, v, hw, rfl, hv, -⟩ := (hit s hm a s₁).mp ha
    obtain ⟨w', hw', rfl⟩ := more_inv hb
    cases b with
    | true =>
      obtain ⟨as, s₃, has, h₃⟩ := bind_eq_ok.mp h₂
      cases h₃
      simp only [length_append, length_cons] at hm
      obtain ⟨text, rfl, htx⟩ := ih (by omega) has
      exact ⟨_, by simp, .more hw hv hw' htx⟩
    | false =>
      cases h₂
      exact ⟨_, by simp, .last hw hv hw'⟩

theorem ItemsText.reads (hit : ReadsText m item P Q)
    (hQ : ∀ v rest, Delimited rest → Q v rest) (h : ItemsText P text as)
    (hm : (text ++ rest).length < m) (hn : (text ++ rest).length < n) :
    itemsUntil item (SnbtParser.more length ']') .unexpectedEof n (text ++ rest) =
      .ok (as, rest) := by
  induction h generalizing n with
  | @last w v a w' hw hv hw' =>
    obtain _ | n := n
    · cases hn
    have hdel := delimited_append hw' (rfl : isDelimiter ']' = true) rest
    have ha := (hit _ hm a (w' ++ ']' :: rest)).mpr ⟨w, v, hw, by simp, hv, hQ v _ hdel⟩
    exact bind_eq_ok.mpr ⟨_, _, ha, bind_eq_ok.mpr ⟨_, _, more_close rfl (by decide) hw' rest, rfl⟩⟩
  | @more w v a w' text as hw hv hw' _ ih =>
    obtain _ | n := n
    · cases hn
    have hdel := delimited_append hw' (rfl : isDelimiter ',' = true) (text ++ rest)
    have ha := (hit _ hm a (w' ++ ',' :: (text ++ rest))).mpr
      ⟨w, v, hw, by simp, hv, hQ v _ hdel⟩
    have hlens : (text ++ rest).length < m ∧ (text ++ rest).length < n := by
      simp only [length_append, length_cons] at hm hn ⊢
      omega
    exact bind_eq_ok.mpr ⟨_, _, ha, bind_eq_ok.mpr ⟨_, _, more_comma hw' (text ++ rest),
      bind_eq_ok.mpr ⟨_, _, ih hlens.1 hlens.2, rfl⟩⟩⟩

def Begun (v : List Char) : Prop :=
  ∃ c cs, v = c :: cs ∧ isDelimiter c = false

theorem Begun.head (h : Begun v) (rest : List Char) :
    ∀ c ∈ (v ++ rest).head?, isWhitespace c = false ∧ c ≠ ']' ∧ c ≠ '\x7d' := by
  obtain ⟨d, cs, rfl, hd⟩ := h
  rintro c ⟨⟩
  refine ⟨?_, ?_, ?_⟩
  · rw [isDelimiter, Bool.or_eq_false_iff] at hd
    exact hd.1
  · rintro rfl
    cases hd
  · rintro rfl
    cases hd

theorem Begun.cons (h : Begun v) (hv : c :: s = v ++ rest) :
    ∃ cs, v = c :: cs ∧ s = cs ++ rest := by
  obtain ⟨d, cs, rfl, -⟩ := h
  obtain ⟨rfl, hs⟩ := List.cons.inj hv
  exact ⟨cs, rfl, hs⟩

theorem Begun.append (h : Begun v) (rest : List Char) : Begun (v ++ rest) := by
  obtain ⟨c, cs, rfl, hc⟩ := h
  exact ⟨c, cs ++ rest, rfl, hc⟩

theorem Spaces.append (h : Spaces w) (h' : Spaces w') : Spaces (w ++ w') :=
  forall_mem_append.mpr ⟨h, h'⟩

theorem spaces_nil : Spaces [] := fun _ h => absurd h not_mem_nil

theorem ItemsText.spaces (hw : Spaces w) (h : ItemsText P text as) :
    ItemsText P (w ++ text) as := by
  cases h with
  | last hw' hv hw'' =>
    rw [← append_assoc]
    exact .last (hw.append hw') hv hw''
  | more hw' hv hw'' htx =>
    rw [← append_assoc]
    exact .more (hw.append hw') hv hw'' htx

theorem ItemsText.begun (hbeg : ∀ v a, P v a → Begun v) (h : ItemsText P text as) :
    ∃ w text', Spaces w ∧ text = w ++ text' ∧ ItemsText P text' as ∧ Begun text' := by
  cases h with
  | last hw hv hw' =>
    exact ⟨_, _, hw, rfl, .last spaces_nil hv hw', (hbeg _ _ hv).append _⟩
  | more hw hv hw' htx =>
    exact ⟨_, _, hw, rfl, .more spaces_nil hv hw' htx, (hbeg _ _ hv).append _⟩

theorem parseItems_eq_ok (hit : ReadsText m (do skipWhitespace; item) P Q)
    (hQ : ∀ v rest, Delimited rest → Q v rest) (hbeg : ∀ v a, P v a → Begun v)
    (hm : s.length < m) :
    (do skipWhitespace; parseItems length item) s = .ok (as, rest) ↔
      ∃ text, s = text ++ rest ∧ ListText P text as := by
  constructor
  · intro h
    obtain ⟨w, s, hw, rfl, hs, h⟩ := skip_bind_eq_ok.mp h
    have hlen : s.length < m := by
      rw [length_append] at hm
      omega
    rw [parseItems, listedUntil, bind_get] at h
    by_cases hcl : s.head? = some ']'
    · obtain ⟨s, rfl⟩ := head?_eq_some_iff.mp hcl
      cases h
      exact ⟨w ++ [']'], by simp, .empty hw⟩
    · rw [if_neg hcl, bind_get] at h
      obtain ⟨text, rfl, htx⟩ := itemsText_of_read hit hlen h
      exact ⟨w ++ text, by simp, .items (htx.spaces hw)⟩
  · rintro ⟨text, rfl, htx⟩
    cases htx with
    | @empty w hw =>
      rw [append_assoc]
      exact skip_cons hw rfl
    | items htx =>
      obtain ⟨w, text, hw, rfl, htx, hfst⟩ := htx.begun hbeg
      have hhd := hfst.head rest
      rw [append_assoc] at hm ⊢
      refine skip_bind_eq_ok.mpr ⟨w, text ++ rest, hw, rfl, fun c hc => (hhd c hc).1, ?_⟩
      have hlen : (text ++ rest).length < m := by
        rw [length_append] at hm
        omega
      have hop : ¬(text ++ rest).head? = some ']' := fun hc => (hhd _ hc).2.1 rfl
      rw [parseItems, listedUntil, bind_get, if_neg hop, bind_get]
      exact htx.reads hit hQ hlen (Nat.lt_succ_self _)

end Items

end Loops

section Words
variable {lib : SnbtLibrary}

theorem not_startsWord (hasc : c.toNat < 128) (halp : c.isAlpha = false) (hne : c ≠ '_') :
    startsWord lib c = false :=
  Bool.eq_false_iff.mpr fun h => startsWord_ascii h hasc halp hne rfl

theorem not_startsWord_of_number (h : startsNumber c = true) :
    startsWord lib c = false := by
  simp only [startsNumber, Bool.or_eq_true, decide_eq_true_eq] at h
  rcases h with (h | rfl) | rfl
  · have hrng : 48 ≤ c.toNat ∧ c.toNat ≤ 57 := by
      simpa [Char.isDigit, UInt32.le_iff_toNat_le] using h
    have halp : c.isAlpha = false := by
      rw [Bool.eq_false_iff]
      intro halp
      have hlet := range_of_isAlpha halp
      omega
    exact not_startsWord (by omega) halp (ne_of_isDigit h '_' rfl)
  · exact not_startsWord (by decide) rfl (by decide)
  · exact not_startsWord (by decide) rfl (by decide)

theorem startsWord_not_number (h : startsWord lib c = true) :
    startsNumber c = false :=
  Bool.eq_false_iff.mpr fun hnum =>
    Bool.noConfusion (h.symm.trans (not_startsWord_of_number hnum))

theorem WordText.stops_iff (h : WordText lib v) :
    Stops lib v rest ↔ ∀ c ∈ rest.head?, isIdentifierChar lib c = false := by
  cases h with
  | @word c cs hc _ =>
    have hcon (d : Char) : continues lib (c :: cs) d = isIdentifierChar lib d := by
      rw [continues.eq_def]
      dsimp only
      rw [startsWord_not_number hc, hc, Bool.true_and]
      rfl
    simp only [Stops, hcon]

theorem stops_of_head (hnum : startsNumber c = false)
    (hwd : startsWord lib c = false) (v rest : List Char) :
    Stops lib (c :: v) rest := by
  intro d _
  rw [continues.eq_def]
  dsimp only
  rw [hnum, hwd, Bool.false_and]
  rfl

theorem not_startsWord_quote (h : quote = '"' ∨ quote = '\'') :
    startsWord lib quote = false := by
  rcases h with rfl | rfl
  · exact not_startsWord (by decide) rfl (by decide)
  · exact not_startsWord (by decide) rfl (by decide)

theorem QuotedText.stops (h : QuotedText v s) (rest : List Char) : Stops lib v rest := by
  cases h with
  | quoted hqu _ =>
    refine stops_of_head ?_ (not_startsWord_quote hqu) _ rest
    rcases hqu with rfl | rfl <;> rfl

theorem WordText.begun (h : WordText lib v) : Begun v := by
  cases h with
  | word hc _ =>
    refine ⟨_, _, rfl, Bool.eq_false_iff.mpr fun hdel => ?_⟩
    have hiden := isIdentifierChar_of_startsWord hc
    rw [not_isIdentifierChar_of_delimiter hdel] at hiden
    cases hiden

theorem QuotedText.begun (h : QuotedText v s) : Begun v := by
  cases h with
  | quoted hqu _ =>
    refine ⟨_, _, rfl, ?_⟩
    rcases hqu with rfl | rfl <;> decide

theorem NumberText.begun (h : NumberText lib v tag) : Begun v := by
  cases h with
  | @number pre digits seen suffix _ hpre hdigs htag =>
    simp only [mem_cons, not_mem_nil, or_false] at hpre
    rcases hpre with rfl | rfl | rfl
    · cases digits with
      | nil =>
        rcases numberTag_suffix htag with rfl | ⟨d, rfl, hlet⟩
        · cases hdigs
          cases htag
        · exact ⟨d, [], rfl, isDelimiter_of_isSuffix hlet⟩
      | cons d digits =>
        refine ⟨d, _, rfl, ?_⟩
        rcases hdigs.mem mem_cons_self with hdig | rfl
        · exact isDelimiter_of_isDigit hdig
        · rfl
    · exact ⟨'+', _, rfl, rfl⟩
    · exact ⟨'-', _, rfl, rfl⟩

theorem ValueText.begun (h : ValueText lib v tag) : Begun v := by
  cases h with
  | compound | list | array => exact ⟨_, _, rfl, by decide⟩
  | quoted h | number _ h | word h => exact h.begun

theorem QuotedText.head (h : QuotedText (c :: cs) s) : c = '"' ∨ c = '\'' := by
  cases h with
  | quoted hqu _ => exact hqu

theorem WordText.head (h : WordText lib (c :: cs)) : startsWord lib c = true := by
  cases h with
  | word hc _ => exact hc

theorem WordText.mem (h : WordText lib v) (hc : c ∈ v) :
    isIdentifierChar lib c = true := by
  cases h with
  | word hfst hcs =>
    rcases mem_cons.mp hc with rfl | hc
    · exact isIdentifierChar_of_startsWord hfst
    · exact hcs c hc

theorem not_startsWord_open : startsWord lib '[' = false ∧ startsWord lib '\x7b' = false :=
  ⟨not_startsWord (by decide) rfl (by decide), not_startsWord (by decide) rfl (by decide)⟩

theorem ValueText.head (h : ValueText lib (c :: cs) tag) :
    if c = '\x7b' then ∃ map, EntriesText lib (ValueText lib) [] cs map ∧ tag = .compound map
    else if c = '[' then (∃ tags, ListText (ValueText lib) cs tags ∧ tag = .list tags) ∨
      ∃ w kind text, Spaces w ∧ cs = w ++ kind :: ';' :: text ∧ ArrayText lib kind text tag
    else if c = '"' ∨ c = '\'' then ∃ s, QuotedText (c :: cs) s ∧ tag = .string s
    else if startsNumber c then NumberText lib (c :: cs) tag
    else WordText lib (c :: cs) ∧ tag = wordTag (c :: cs) := by
  cases h with
  | compound h => exact ⟨_, h, rfl⟩
  | list h => exact .inl ⟨_, h, rfl⟩
  | array hw h => exact .inr ⟨_, _, _, hw, rfl, h⟩
  | quoted h =>
    rcases h.head with rfl | rfl
    · exact ⟨_, h, rfl⟩
    · exact ⟨_, h, rfl⟩
  | number hc h =>
    rw [if_neg, if_neg, if_neg, if_pos hc]
    · exact h
    · rintro (rfl | rfl) <;> cases hc
    · rintro rfl
      cases hc
    · rintro rfl
      cases hc
  | word h =>
    have hc := h.head
    rw [if_neg, if_neg, if_neg, if_neg]
    · exact ⟨h, rfl⟩
    · exact fun hnum => absurd (startsWord_not_number hc) (by simp [hnum])
    · exact fun hqu => Bool.noConfusion (hc.symm.trans (not_startsWord_quote hqu))
    · rintro rfl
      cases hc.symm.trans not_startsWord_open.1
    · rintro rfl
      cases hc.symm.trans not_startsWord_open.2

theorem KeyText.begun (h : KeyText lib k key) : Begun k := by
  cases h with
  | quoted h | word h => exact h.begun

end Words

end Kojacoord
