import Kojacoord.Protocol.SnbtDelimiters

namespace Kojacoord
open RoundTrip SnbtParser

section Containers
variable {lib : SnbtLibrary} {length : Nat} {value : SnbtParser NbtTag}

theorem readsText_skip {p : SnbtParser α} {P : List Char → α → Prop}
    {Q : List Char → List Char → Prop} (hbeg : ∀ v a, P v a → Begun v)
    (hso : ∀ s, s.length < m → ∀ a rest, p s = .ok (a, rest) →
      ∃ w v, Spaces w ∧ s = w ++ (v ++ rest) ∧ P v a ∧ Q v rest)
    (hrds : ∀ v a rest, (v ++ rest).length < m → P v a → Q v rest →
      p (v ++ rest) = .ok (a, rest)) : ReadsText m (do skipWhitespace; p) P Q := by
  intro s hs a rest
  rw [skip_bind_eq_ok]
  constructor
  · rintro ⟨w, s, hw, rfl, -, hp⟩
    have hlen : s.length < m := by
      rw [List.length_append] at hs
      omega
    obtain ⟨w', v, hw', rfl, hv, hQ⟩ := hso s hlen a rest hp
    exact ⟨w ++ w', v, hw.append hw', by simp, hv, hQ⟩
  · rintro ⟨w, v, hw, rfl, hv, hQ⟩
    have hlen : (v ++ rest).length < m := by
      rw [List.length_append] at hs
      omega
    exact ⟨w, v ++ rest, hw, rfl, fun c hc => ((hbeg v a hv).head rest c hc).1,
      hrds v a rest hlen hv hQ⟩

def numberItem (lib : SnbtLibrary) (f : NbtTag → Option α) : SnbtParser α := do
  match f (← parseNumber lib) with
  | some a => return a
  | none => throw .typeMismatch

theorem byteItem_eq : byteItem lib = numberItem lib byteOf := by
  rw [byteItem, numberItem]
  congr 1
  funext tag
  cases tag <;> rfl

theorem intItem_eq : intItem lib = numberItem lib intOf := by
  rw [intItem, numberItem]
  congr 1
  funext tag
  cases tag <;> rfl

theorem longItem_eq : longItem lib = numberItem lib longOf := by
  rw [longItem, numberItem]
  congr 1
  funext tag
  cases tag <;> rfl

theorem numberItem_eq_ok {f : NbtTag → Option α} : numberItem lib f s = .ok (a, rest) ↔
    ∃ v, s = v ++ rest ∧ ArrayItem lib f v a ∧ ∀ c ∈ rest.head?, numberContinues v c = false := by
  constructor
  · intro h
    obtain ⟨tag, s₁, hnum, hit⟩ := bind_eq_ok.mp h
    obtain ⟨v, rfl, htx, hstop⟩ := parseNumber_eq_ok.mp hnum
    cases hf : f tag with
    | none =>
      rw [hf] at hit
      cases hit
    | some a =>
      rw [hf] at hit
      cases hit
      exact ⟨v, rfl, ⟨tag, htx, hf⟩, hstop⟩
  · rintro ⟨v, rfl, ⟨tag, htx, hf⟩, hstop⟩
    refine bind_eq_ok.mpr ⟨tag, rest, parseNumber_eq_ok.mpr ⟨v, rfl, htx, hstop⟩, ?_⟩
    rw [hf]
    rfl

theorem readsText_number (f : NbtTag → Option α) (m : Nat) :
    ReadsText m (do skipWhitespace; numberItem lib f) (ArrayItem lib f)
      fun v rest => ∀ c ∈ rest.head?, numberContinues v c = false := by
  apply readsText_skip
  · rintro v a ⟨tag, htx, -⟩
    exact htx.begun
  · intro s _ a rest hp
    obtain ⟨v, rfl, hv, hstop⟩ := numberItem_eq_ok.mp hp
    exact ⟨[], v, spaces_nil, rfl, hv, hstop⟩
  · intro v a rest _ hv hstop
    exact numberItem_eq_ok.mpr ⟨v, rfl, hv, hstop⟩

theorem listed_eq_ok {item : SnbtParser α} {P : List Char → α → Prop}
    {Q : List Char → List Char → Prop} {mk : List α → NbtTag}
    (hit : ReadsText m (do skipWhitespace; item) P Q)
    (hQ : ∀ v rest, Delimited rest → Q v rest) (hbeg : ∀ v a, P v a → Begun v)
    (hm : s.length < m) :
    (do skipWhitespace; return mk (← parseItems length item) :
      SnbtParser NbtTag) s = .ok (tag, rest) ↔
      ∃ text as, s = text ++ rest ∧ ListText P text as ∧ tag = mk as := by
  have hsk : skipWhitespace s = .ok ((), s.dropWhile isWhitespace) := rfl
  have hits (as : List α) (rest : List Char) :
      parseItems length item (s.dropWhile isWhitespace) = .ok (as, rest) ↔
        ∃ text, s = text ++ rest ∧ ListText P text as := by
    rw [← parseItems_eq_ok hit hQ hbeg hm, bind_ok hsk]
  rw [bind_ok hsk, bind_pure_eq_ok]
  simp only [hits]
  constructor
  · rintro ⟨as, ⟨text, hs, htx⟩, rfl⟩
    exact ⟨text, as, hs, htx, rfl⟩
  · rintro ⟨text, as, hs, htx, rfl⟩
    exact ⟨as, ⟨text, hs, htx⟩, rfl⟩

theorem array_eq_ok {item : SnbtParser α} {f : NbtTag → Option α} {mk : List α → NbtTag}
    (hit : item = numberItem lib f)
    (harr : ∀ text tag, ArrayText lib kind text tag ↔
      ∃ as, ListText (ArrayItem lib f) text as ∧ tag = mk as) :
    (do skipWhitespace; return mk (← parseItems length item) :
      SnbtParser NbtTag) s = .ok (tag, rest) ↔
      ∃ text, s = text ++ rest ∧ ArrayText lib kind text tag := by
  have hrd : (do skipWhitespace; return mk (← parseItems length item) :
      SnbtParser NbtTag) s = .ok (tag, rest) ↔
      ∃ text as, s = text ++ rest ∧ ListText (ArrayItem lib f) text as ∧ tag = mk as := by
    subst hit
    refine listed_eq_ok (readsText_number f (s.length + 1)) ?_ ?_ (Nat.lt_succ_self _)
    · rintro v rest ⟨c, hc, hdel⟩ d hd
      cases hc.symm.trans hd
      exact numberContinues_delimiter hdel
    · rintro v a ⟨tag, htx, -⟩
      exact htx.begun
  rw [hrd]
  constructor
  · rintro ⟨text, as, hs, h⟩
    exact ⟨text, hs, (harr text tag).mpr ⟨as, h⟩⟩
  · rintro ⟨text, hs, h⟩
    obtain ⟨as, h⟩ := (harr text tag).mp h
    exact ⟨text, as, hs, h⟩

theorem spaces_cancel (hw : Spaces w) (hw' : Spaces w')
    (hs : ∀ c ∈ s.head?, isWhitespace c = false) (hs' : ∀ c ∈ s'.head?, isWhitespace c = false)
    (h : w ++ s = w' ++ s') : s = s' := by
  rw [← (span_append hw hs).2, h, (span_append hw' hs').2]

theorem ItemsText.first {P : List Char → α → Prop} (h : ItemsText P text as) :
    ∃ w v a tail, Spaces w ∧ text = w ++ (v ++ tail) ∧ P v a ∧
      ∀ rest, Delimited (tail ++ rest) := by
  cases h with
  | last hw hv hw' | more hw hv hw' htx =>
    refine ⟨_, _, _, _, hw, rfl, hv, fun rest => ?_⟩
    rw [List.append_assoc]
    exact delimited_append hw' rfl _

theorem letter_cases (h : kind ∈ ['B', 'I', 'L']) : kind = 'B' ∨ kind = 'I' ∨ kind = 'L' := by
  simpa using h

theorem ValueText.word_of_letter (h : ValueText lib (kind :: cs) tag)
    (hkd : kind ∈ ['B', 'I', 'L']) : ∀ c ∈ cs, isIdentifierChar lib c = true := by
  have hwd : WordText lib (kind :: cs) := by
    rcases letter_cases hkd with rfl | rfl | rfl <;> exact h.head.1
  exact fun c hc => hwd.mem (List.mem_cons_of_mem kind hc)

theorem ListText.not_array (h : ListText (ValueText lib) text tags) (hw : Spaces w)
    (hkd : kind ∈ ['B', 'I', 'L']) : text ++ rest ≠ w ++ kind :: ';' :: s := by
  intro hs
  have hhd : ∀ c ∈ (kind :: ';' :: s).head?, isWhitespace c = false := by
    rintro c ⟨⟩
    rcases letter_cases hkd with rfl | rfl | rfl <;> rfl
  cases h with
  | @empty w' hw' =>
    rw [List.append_assoc] at hs
    have hcl : ∀ c ∈ (']' :: rest).head?, isWhitespace c = false := by
      rintro c ⟨⟩
      rfl
    cases spaces_cancel hw' hw hcl hhd hs
    exact (by decide : ']' ∉ ['B', 'I', 'L']) hkd
  | items h =>
    obtain ⟨w', v, tag, tail, hw', rfl, hv, htl⟩ := h.first
    have hhd' := hv.begun.head (tail ++ rest)
    rw [List.append_assoc, List.append_assoc] at hs
    have hsm := spaces_cancel hw' hw (fun c hc => (hhd' c hc).1) hhd hs
    obtain ⟨c, cs, rfl, -⟩ := hv.begun
    obtain ⟨rfl, hcs⟩ := List.cons.inj hsm
    have hwd := hv.word_of_letter hkd
    cases cs with
    | nil =>
      obtain ⟨c, hc, hdel⟩ := htl rest
      change tail ++ rest = ';' :: s at hcs
      rw [hcs] at hc
      cases hc
      cases hdel
    | cons c cs =>
      obtain ⟨rfl, -⟩ := List.cons.inj hcs
      have hiden := hwd ';' List.mem_cons_self
      rw [not_isIdentifierChar (by decide) rfl rfl (by decide)] at hiden
      cases hiden

def afterBracket (lib : SnbtLibrary) (length : Nat) (value : SnbtParser NbtTag) :
    SnbtParser NbtTag := do
  match (← get).take 2 with
  | ['B', ';'] => parseTypedArray lib length 'B'
  | ['I', ';'] => parseTypedArray lib length 'I'
  | ['L', ';'] => parseTypedArray lib length 'L'
  | _ => return .list (← parseItems length value)

theorem parseListOrArray_bracket : parseListOrArray lib length value ('[' :: s) =
    (do skipWhitespace; afterBracket lib length value) s := rfl

theorem afterBracket_list (h : ∀ kind ∈ ['B', 'I', 'L'], ∀ s', s ≠ kind :: ';' :: s') :
    afterBracket lib length value s =
      (do return .list (← parseItems length value) : SnbtParser NbtTag) s := by
  have hmkd (kind : Char) (hkd : kind ∈ ['B', 'I', 'L']) : s.take 2 ≠ [kind, ';'] := by
    intro htk
    apply h kind hkd (s.drop 2)
    rw [← List.take_append_drop 2 s, htk]
    rfl
  rw [afterBracket, bind_get]
  refine congrFun ?_ s
  split
  · rename_i htk
    exact absurd htk (hmkd 'B' (by decide))
  · rename_i htk
    exact absurd htk (hmkd 'I' (by decide))
  · rename_i htk
    exact absurd htk (hmkd 'L' (by decide))
  · rfl

theorem ArrayText.kind_mem (h : ArrayText lib kind text tag) : kind ∈ ['B', 'I', 'L'] := by
  cases h <;> decide

theorem arrayText_bytes : ArrayText lib 'B' text tag ↔
    ∃ arr, ListText (ArrayItem lib byteOf) text arr ∧ tag = .byteArray arr := by
  constructor
  · intro h
    cases h with
    | bytes htx => exact ⟨_, htx, rfl⟩
  · rintro ⟨arr, htx, rfl⟩
    exact .bytes htx

theorem arrayText_ints : ArrayText lib 'I' text tag ↔
    ∃ arr, ListText (ArrayItem lib intOf) text arr ∧ tag = .intArray arr := by
  constructor
  · intro h
    cases h with
    | ints htx => exact ⟨_, htx, rfl⟩
  · rintro ⟨arr, htx, rfl⟩
    exact .ints htx

theorem arrayText_longs : ArrayText lib 'L' text tag ↔
    ∃ arr, ListText (ArrayItem lib longOf) text arr ∧ tag = .longArray arr := by
  constructor
  · intro h
    cases h with
    | longs htx => exact ⟨_, htx, rfl⟩
  · rintro ⟨arr, htx, rfl⟩
    exact .longs htx

theorem afterBracket_array (hkd : kind ∈ ['B', 'I', 'L']) :
    afterBracket lib length value (kind :: ';' :: s) = .ok (tag, rest) ↔
      ∃ text, s = text ++ rest ∧ ArrayText lib kind text tag := by
  rcases letter_cases hkd with rfl | rfl | rfl
  · exact array_eq_ok byteItem_eq fun _ _ => arrayText_bytes
  · exact array_eq_ok intItem_eq fun _ _ => arrayText_ints
  · exact array_eq_ok longItem_eq fun _ _ => arrayText_longs

theorem parseListOrArray_eq_ok (hval : ReadsText m value (ValueText lib) (Stops lib))
    (hm : s.length < m) :
    parseListOrArray lib length value ('[' :: s) = .ok (tag, rest) ↔
      ∃ v, '[' :: s = v ++ rest ∧ ValueText lib v tag := by
  have hlis : (do skipWhitespace
                     return .list (← parseItems length value) :
      SnbtParser NbtTag) s = .ok (tag, rest) ↔
      ∃ text tags, s = text ++ rest ∧ ListText (ValueText lib) text tags ∧ tag = .list tags :=
    listed_eq_ok (readsText_skip (fun _ _ => ValueText.begun)
      (fun s hs tag rest => (hval s hs tag rest).mp)
      fun v tag rest hs hv hstop => (hval _ hs tag rest).mpr ⟨[], v, spaces_nil, rfl, hv, hstop⟩)
      (fun v _ h => h.stops v) (fun _ _ => ValueText.begun) hm
  rw [parseListOrArray_bracket]
  constructor
  · intro h
    obtain ⟨w, s, hw, rfl, hs, h⟩ := skip_bind_eq_ok.mp h
    by_cases harr : ∃ kind ∈ ['B', 'I', 'L'], ∃ s', s = kind :: ';' :: s'
    · obtain ⟨kind, hkd, s', rfl⟩ := harr
      obtain ⟨text, rfl, htx⟩ := (afterBracket_array hkd).mp h
      exact ⟨_, by simp, .array hw htx⟩
    · have hls : ∀ kind ∈ ['B', 'I', 'L'], ∀ s', s ≠ kind :: ';' :: s' :=
        fun kind hkd s' heq => harr ⟨kind, hkd, s', heq⟩
      rw [afterBracket_list hls] at h
      obtain ⟨text, tags, hs', htx, rfl⟩ := hlis.mp (skip_bind_eq_ok.mpr ⟨w, s, hw, rfl, hs, h⟩)
      exact ⟨'[' :: text, by rw [hs']; rfl, .list htx⟩
  · rintro ⟨v, hv, htx⟩
    obtain ⟨cs, rfl, hs⟩ := htx.begun.cons hv
    rcases htx.head with ⟨tags, hls, rfl⟩ | ⟨w, kind, text, hw, rfl, harr⟩
    · obtain ⟨w, s', hw, hs', hhd, h⟩ := skip_bind_eq_ok.mp (hlis.mpr ⟨_, _, hs, hls, rfl⟩)
      refine skip_bind_eq_ok.mpr ⟨w, s', hw, hs', hhd, ?_⟩
      rw [afterBracket_list]
      · exact h
      · rintro kind hkd s'' rfl
        exact hls.not_array hw hkd (hs.symm.trans hs')
    · have hkd := harr.kind_mem
      have hsp : isWhitespace kind = false := by
        rcases letter_cases hkd with rfl | rfl | rfl <;> rfl
      rw [hs, List.append_assoc]
      exact (skip_cons hw hsp).trans ((afterBracket_array hkd).mpr ⟨text, rfl, harr⟩)

theorem word_eq_ok (hc : startsWord lib c = true) :
    parseIdentifier lib (c :: s) = .ok (t, rest) ↔
      ∃ v, c :: s = v ++ rest ∧ WordText lib v ∧ Stops lib v rest ∧ t = .ofList v := by
  rw [parseIdentifier_eq_ok]
  constructor
  · rintro ⟨v, hv, hcha, hstop, rfl⟩
    cases v with
    | nil =>
      rw [← List.nil_append rest, ← hv] at hstop
      cases (hstop c rfl).symm.trans (isIdentifierChar_of_startsWord hc)
    | cons d v =>
      obtain ⟨rfl, -⟩ := List.cons.inj hv
      have hwd : WordText lib (c :: v) := .word hc fun d hd => hcha d (List.mem_cons_of_mem c hd)
      exact ⟨c :: v, hv, hwd, hwd.stops_iff.mpr hstop, rfl⟩
  · rintro ⟨v, hv, hwd, hstop, rfl⟩
    exact ⟨v, hv, fun c hc => hwd.mem hc, hwd.stops_iff.mp hstop, rfl⟩

theorem parseKey_cons : parseKey lib length (c :: s) =
    (if c = '"' ∨ c = '\'' then return some (← parseQuotedString)
    else if startsWord lib c then return some (← parseIdentifier lib)
    else if c = '\x7d' then do
      advance
      return none
    else unexpected length : SnbtParser (Option String)) (c :: s) :=
  rfl

theorem parseKey_some : parseKey lib length s = .ok (some key, rest) ↔
    ∃ k, s = k ++ rest ∧ KeyText lib k key ∧ Stops lib k rest := by
  cases s with
  | nil =>
    constructor
    · intro h
      cases h
    · rintro ⟨k, hk, htx, -⟩
      obtain ⟨c, cs, rfl, -⟩ := htx.begun
      cases hk
  | cons c s =>
    by_cases hqu : c = '"' ∨ c = '\''
    · rw [parseKey_cons, if_pos hqu, bind_pure_eq_ok]
      constructor
      · rintro ⟨t, h, ⟨⟩⟩
        obtain ⟨v, hv, htx⟩ := (quotedString_eq_ok hqu).mp h
        exact ⟨v, hv, .quoted htx, htx.stops rest⟩
      · rintro ⟨k, hk, htx, -⟩
        cases htx with
        | quoted htx => exact ⟨key, (quotedString_eq_ok hqu).mpr ⟨k, hk, htx⟩, rfl⟩
        | word htx =>
          obtain ⟨cs, rfl, -⟩ := htx.begun.cons hk
          cases htx.head.symm.trans (not_startsWord_quote hqu)
    · rw [parseKey_cons, if_neg hqu]
      by_cases hwd : startsWord lib c = true
      · rw [if_pos hwd, bind_pure_eq_ok]
        constructor
        · rintro ⟨t, h, ⟨⟩⟩
          obtain ⟨v, hv, htx, hstop, rfl⟩ := (word_eq_ok hwd).mp h
          exact ⟨v, hv, .word htx, hstop⟩
        · rintro ⟨k, hk, htx, hstop⟩
          cases htx with
          | quoted htx =>
            obtain ⟨cs, rfl, -⟩ := htx.begun.cons hk
            exact absurd htx.head hqu
          | word htx => exact ⟨_, (word_eq_ok hwd).mpr ⟨k, hk, htx, hstop, rfl⟩, rfl⟩
      · rw [if_neg hwd]
        constructor
        · intro h
          split_ifs at h <;> cases h
        · rintro ⟨k, hk, htx, -⟩
          obtain ⟨cs, rfl, -⟩ := htx.begun.cons hk
          cases htx with
          | quoted htx => exact absurd htx.head hqu
          | word htx => exact absurd htx.head hwd

theorem parseKey_none : parseKey lib length s = .ok (none, rest) ↔
    s = '\x7d' :: rest := by
  cases s with
  | nil =>
    constructor
    · intro h
      cases h
    · rintro ⟨⟩
  | cons c s =>
    rw [parseKey_cons]
    constructor
    · intro h
      split_ifs at h with hqu hwd hcl
      · obtain ⟨t, -, ⟨⟩⟩ := bind_pure_eq_ok.mp h
      · obtain ⟨t, -, ⟨⟩⟩ := bind_pure_eq_ok.mp h
      · cases h
        rw [hcl]
        rfl
      · cases h
    · intro h
      obtain ⟨rfl, rfl⟩ := List.cons.inj h
      have hwd : ¬startsWord lib '\x7d' = true :=
        Bool.eq_false_iff.mp (not_startsWord (by decide) rfl (by decide))
      rw [if_neg (by decide), if_neg hwd, if_pos rfl]
      rfl

theorem expectColon_eq_ok : expectColon length s = .ok ((), rest) ↔
    ∃ w, Spaces w ∧ s = w ++ ':' :: rest := by
  constructor
  · intro h
    obtain ⟨w, s, hw, rfl, -, h⟩ := skip_bind_eq_ok.mp h
    have hcur : current s = .ok (s.head?, s) := rfl
    rw [bind_ok hcur] at h
    by_cases hcol : s.head? = some ':'
    · obtain ⟨s, rfl⟩ := List.head?_eq_some_iff.mp hcol
      cases h
      exact ⟨w, hw, rfl⟩
    · rw [if_neg hcol] at h
      cases h
  · rintro ⟨w, hw, rfl⟩
    exact skip_cons hw rfl

theorem compoundTail_turn (hw : Spaces w) (hk : KeyText lib k key) (hw' : Spaces w')
    (hrd : value s = .ok (tag, s')) (hmo : more length '\x7d' s' = .ok (b, rest)) :
    compoundTail lib length value (n + 1) map (w ++ (k ++ (w' ++ ':' :: s))) =
    (if b then compoundTail lib length value n (.insert key tag map)
      else return .compound (NbtMap.insert key tag map) : SnbtParser NbtTag) rest := by
  have hhd := fun c hc => (hk.begun.head (w' ++ ':' :: s) c hc).1
  have hsk : skipWhitespace (w ++ (k ++ (w' ++ ':' :: s))) =
      .ok ((), k ++ (w' ++ ':' :: s)) :=
    congrArg (fun s => Except.ok ((), s)) (span_append hw hhd).2
  have hkey : parseKey lib length (k ++ (w' ++ ':' :: s)) =
      .ok (some key, w' ++ ':' :: s) :=
    parseKey_some.mpr ⟨k, rfl, hk, (delimited_append hw' rfl s).stops k⟩
  have hcol : expectColon length (w' ++ ':' :: s) = .ok ((), s) :=
    expectColon_eq_ok.mpr ⟨w', hw', rfl⟩
  rw [compoundTail, bind_ok hsk, bind_ok hkey]
  dsimp only
  rw [bind_ok hcol, bind_ok hrd, bind_ok hmo]

theorem entriesText_of_read (hval : ReadsText m value (ValueText lib) (Stops lib))
    (hm : s.length < m)
    (h : compoundTail lib length value n map s = .ok (tag, rest)) :
    ∃ text map', s = text ++ rest ∧ EntriesText lib (ValueText lib) map text map' ∧
      tag = .compound map' := by
  induction n generalizing s map with
  | zero => cases h
  | succ n ih =>
    obtain ⟨w, s₁, hw, rfl, -, h₁⟩ := skip_bind_eq_ok.mp h
    obtain ⟨found, s₂, hkey, h₂⟩ := bind_eq_ok.mp h₁
    cases found with
    | none =>
      obtain rfl := parseKey_none.mp hkey
      cases h₂
      exact ⟨_, _, by simp, .close hw, rfl⟩
    | some key =>
      obtain ⟨_, s₃, hcol, h₃⟩ := bind_eq_ok.mp h₂
      obtain ⟨found, s₄, hrd, h₄⟩ := bind_eq_ok.mp h₃
      obtain ⟨b, s₅, hmo, h₅⟩ := bind_eq_ok.mp h₄
      obtain ⟨k, rfl, hk, -⟩ := parseKey_some.mp hkey
      obtain ⟨w', hw', rfl⟩ := expectColon_eq_ok.mp hcol
      simp only [List.length_append, List.length_cons] at hm
      obtain ⟨u, v, hu, rfl, hv, -⟩ := (hval s₃ (by omega) found s₄).mp hrd
      obtain ⟨u', hu', rfl⟩ := more_inv hmo
      cases b with
      | false =>
        cases h₅
        exact ⟨_, _, by simp, .last hw hk hw' hu hv hu', rfl⟩
      | true =>
        simp only [List.length_append, List.length_cons] at hm
        obtain ⟨text, map', rfl, htx, rfl⟩ := ih (by omega) h₅
        exact ⟨_, _, by simp, .more hw hk hw' hu hv hu' htx, rfl⟩

theorem EntriesText.reads (hval : ReadsText m value (ValueText lib) (Stops lib))
    (h : EntriesText lib (ValueText lib) map text map') (hm : (text ++ rest).length < m)
    (hn : (text ++ rest).length < n) :
    compoundTail lib length value n map (text ++ rest) =
      .ok (.compound map', rest) := by
  induction h generalizing n with
  | @close w _ hw =>
    obtain _ | n := n
    · cases hn
    rw [List.append_assoc]
    exact (skip_cons hw rfl).trans (bind_ok (parseKey_none.mpr rfl))
  | @last w k key w' u v tag u' _ hw hk hw' hu hv hu' =>
    obtain _ | n := n
    · cases hn
    simp only [List.append_assoc, List.cons_append, List.nil_append] at hm ⊢
    have hdel := delimited_append hu' (rfl : isDelimiter '\x7d' = true) rest
    have hlen : (u ++ (v ++ (u' ++ '\x7d' :: rest))).length < m := by
      simp only [List.length_append, List.length_cons] at hm ⊢
      omega
    have hrd := (hval _ hlen tag _).mpr ⟨u, v, hu, rfl, hv, hdel.stops v⟩
    exact compoundTail_turn hw hk hw' hrd (more_close rfl (by decide) hu' rest)
  | @more w k key w' u v tag u' _ text _ hw hk hw' hu hv hu' _ ih =>
    obtain _ | n := n
    · cases hn
    simp only [List.append_assoc, List.cons_append] at hm hn ⊢
    have hdel := delimited_append hu' (rfl : isDelimiter ',' = true) (text ++ rest)
    have hlens : (u ++ (v ++ (u' ++ ',' :: (text ++ rest)))).length < m ∧
        (text ++ rest).length < m ∧ (text ++ rest).length < n := by
      simp only [List.length_append, List.length_cons] at hm hn ⊢
      omega
    have hrd := (hval _ hlens.1 tag _).mpr ⟨u, v, hu, rfl, hv, hdel.stops v⟩
    refine (compoundTail_turn hw hk hw' hrd (more_comma hu' (text ++ rest))).trans ?_
    exact ih hlens.2.1 hlens.2.2

theorem EntriesText.begun (h : EntriesText lib (ValueText lib) map text map') :
    ∃ w text', Spaces w ∧ text = w ++ text' ∧
      ((text' = ['\x7d'] ∧ map' = map) ∨
        (EntriesText lib (ValueText lib) map text' map' ∧ Begun text')) := by
  cases h with
  | close hw => exact ⟨_, _, hw, rfl, .inl ⟨rfl, rfl⟩⟩
  | last hw hk hw' hu hv hu' =>
    exact ⟨_, _, hw, rfl, .inr ⟨.last spaces_nil hk hw' hu hv hu', hk.begun.append _⟩⟩
  | more hw hk hw' hu hv hu' htx =>
    exact ⟨_, _, hw, rfl, .inr ⟨.more spaces_nil hk hw' hu hv hu' htx, hk.begun.append _⟩⟩

theorem EntriesText.spaces (hw : Spaces w) (h : EntriesText lib (ValueText lib) map text map') :
    EntriesText lib (ValueText lib) map (w ++ text) map' := by
  cases h with
  | close hw' =>
    rw [← List.append_assoc]
    exact .close (hw.append hw')
  | last hw' hk hw'' hu hv hu' =>
    rw [← List.append_assoc]
    exact .last (hw.append hw') hk hw'' hu hv hu'
  | more hw' hk hw'' hu hv hu' htx =>
    rw [← List.append_assoc]
    exact .more (hw.append hw') hk hw'' hu hv hu' htx

theorem entries_eq_ok (hval : ReadsText m value (ValueText lib) (Stops lib))
    (hm : s.length < m) :
    parseCompound lib length value ('\x7b' :: s) = .ok (tag, rest) ↔
      ∃ text map, s = text ++ rest ∧ EntriesText lib (ValueText lib) [] text map ∧
        tag = .compound map := by
  have hop : advance ('\x7b' :: s) = .ok ((), s) := rfl
  rw [parseCompound, bind_ok hop, skip_bind_eq_ok]
  have hcur (s : List Char) : current s = .ok (s.head?, s) := rfl
  constructor
  · rintro ⟨w, s, hw, rfl, -, h⟩
    rw [bind_ok (hcur s)] at h
    by_cases hcl : s.head? = some '\x7d'
    · obtain ⟨s, rfl⟩ := List.head?_eq_some_iff.mp hcl
      cases h
      exact ⟨w ++ ['\x7d'], [], by simp, .close hw, rfl⟩
    · rw [if_neg hcl, bind_get] at h
      have hlen : s.length < m := by
        rw [List.length_append] at hm
        omega
      obtain ⟨text, map, rfl, htx, rfl⟩ := entriesText_of_read hval hlen h
      exact ⟨w ++ text, map, by simp, htx.spaces hw, rfl⟩
  · rintro ⟨text, map, rfl, htx, rfl⟩
    obtain ⟨w, text, hw, rfl, ⟨rfl, rfl⟩ | ⟨htx, hbeg⟩⟩ := htx.begun
    · refine ⟨w, '\x7d' :: rest, hw, by simp, ?_, rfl⟩
      rintro c ⟨⟩
      rfl
    · have hhd := hbeg.head rest
      refine ⟨w, text ++ rest, hw, by simp, fun c hc => (hhd c hc).1, ?_⟩
      have hlen : (text ++ rest).length < m := by
        rw [List.append_assoc, List.length_append] at hm
        omega
      have hop : ¬(text ++ rest).head? = some '\x7d' := fun hc => (hhd _ hc).2.2 rfl
      rw [bind_ok (hcur _), if_neg hop, bind_get]
      exact htx.reads hval hlen (Nat.lt_succ_self _)

theorem parseCompound_eq_ok (hval : ReadsText m value (ValueText lib) (Stops lib))
    (hm : s.length < m) :
    parseCompound lib length value ('\x7b' :: s) = .ok (tag, rest) ↔
      ∃ v, '\x7b' :: s = v ++ rest ∧ ValueText lib v tag := by
  rw [entries_eq_ok hval hm]
  constructor
  · rintro ⟨text, map, rfl, htx, rfl⟩
    exact ⟨'\x7b' :: text, rfl, .compound htx⟩
  · rintro ⟨v, hv, htx⟩
    obtain ⟨cs, rfl, hs⟩ := htx.begun.cons hv
    obtain ⟨map, hent, rfl⟩ := htx.head
    exact ⟨cs, map, hs, hent, rfl⟩

end Containers

end Kojacoord
