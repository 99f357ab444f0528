import Kojacoord.Lib.Json
import Mathlib.Data.List.TakeWhile

namespace Json
open RoundTrip List Nat

section Literal

theorem takeWhile_toDigits : (Nat.toDigits 10 n).takeWhile Char.isDigit = Nat.toDigits 10 n :=
  takeWhile_eq_self_iff.mpr fun _ h => isDigit_of_mem_toDigits (by decide) (by decide) h

theorem dropWhile_toDigits : (Nat.toDigits 10 n).dropWhile Char.isDigit = [] :=
  dropWhile_eq_nil_iff.mpr fun _ h => isDigit_of_mem_toDigits (by decide) (by decide) h

theorem head_toDigits_ne_zero (h : 0 < n) : (Nat.toDigits 10 n).head? ≠ some '0' := by
  induction n using Nat.strongRecOn with
  | ind n ih =>
    rw [toDigits_eq_if (by decide)]
    split
    · simp
      omega
    · rename_i hn
      have hsma := ih (n / 10) (by omega) (by omega)
      rw [head?_append]
      cases hd : (Nat.toDigits 10 (n / 10)).head? with
      | none => exact absurd (head?_eq_none_iff.mp hd) toDigits_ne_nil
      | some c =>
        rw [hd] at hsma
        simpa using hsma

theorem isUnsigned_toDigits : isUnsigned (Nat.toDigits 10 n) = true := by
  rw [isUnsigned, takeWhile_toDigits, dropWhile_toDigits]
  cases hd : Nat.toDigits 10 n with
  | nil => exact absurd hd toDigits_ne_nil
  | cons first rest =>
    by_cases hn : n < 10
    · rw [toDigits_of_lt_base hn] at hd
      cases hd
      simp [isFraction, isExponent]
    · have hfst := head_toDigits_ne_zero (n := n) (by omega)
      rw [hd, head?_cons, Ne, Option.some_inj] at hfst
      simp [hfst, isFraction, isExponent]

theorem isNumber_toDigits : isNumber (Nat.toDigits 10 n) = true := by
  unfold isNumber
  split
  · rename_i rest hd
    have hmem : '-' ∈ Nat.toDigits 10 n := by simp [hd]
    exact absurd (isDigit_of_mem_toDigits (by decide) (by decide) hmem) (by decide)
  · exact isUnsigned_toDigits

def Literal.ofNat (n : Nat) : Literal where
  text := Nat.toDigits 10 n
  chars := by
    rw [all_eq_true]
    intro c hc
    simp [isNumberChar, isDigit_of_mem_toDigits (by decide) (by decide) hc]
  valid := isNumber_toDigits

end Literal

theorem printItems_eq (items : List Value) : printItems items = items.map Value.print := by
  induction items with
  | nil => rfl
  | cons v rest ih => rw [printItems, ih, map_cons]

def printMember (m : String × Value) : List Char := quote m.1 ++ ':' :: m.2.print

theorem printMembers_eq (members : List (String × Value)) :
    printMembers members = members.map printMember := by
  induction members with
  | nil => rfl
  | cons m rest ih => rw [printMembers, ih, map_cons, printMember]

def Stops (rest : List Char) : Prop := ∀ c ∈ rest.head?, isNumberChar c = false

theorem stops_cons (h : isNumberChar c = false) (rest : List Char) : Stops (c :: rest) := by
  intro d hd
  cases hd
  exact h

theorem reads_expect : Reads (expect c) [c] () := by
  intro rest
  have hnx : next (c :: rest) = .ok (c, rest) := rfl
  rw [expect, singleton_append, bind_ok hnx, if_pos rfl]
  rfl

theorem reads_word (text : List Char) : Reads (word text) text () := by
  induction text with
  | nil => exact .pure ()
  | cons c rest ih => exact reads_expect.bind ih

theorem reads_more_comma (close : Char) : Reads (more close) [','] true := by
  exact fun rest => rfl

theorem reads_more_close (hsp : isSpace close = false) (hcom : close ≠ ',') :
    Reads (more close) [close] false := by
  refine .skipWhile ?_ hsp
  intro rest
  have hnx : next (close :: rest) = .ok (close, rest) := rfl
  rw [singleton_append, bind_ok hnx, if_neg hcom, if_pos rfl]
  rfl

theorem hexValue_digitChar : ∀ n : Fin 16, hexValue (Nat.digitChar n) = some n.val := by decide

theorem reads_hexDigit (h : n < 16) : Reads hexDigit [Nat.digitChar n] n := by
  intro rest
  have hnx : next (Nat.digitChar n :: rest) = .ok (Nat.digitChar n, rest) := rfl
  rw [hexDigit, singleton_append, bind_ok hnx, hexValue_digitChar ⟨n, h⟩]
  rfl

theorem reads_hex4 (h : n < 256) :
    Reads hex4 ['0', '0', Nat.digitChar (n / 16), Nat.digitChar (n % 16)] n := by
  have hsum : ((0 * 16 + 0) * 16 + n / 16) * 16 + n % 16 = n := by omega
  have hla : Reads (do return ((0 * 16 + 0) * 16 + n / 16) * 16 + (← hexDigit))
      [Nat.digitChar (n % 16)] n := by
    apply (reads_hexDigit (by omega)).finish
    rw [hsum]
    exact .pure n
  exact (reads_hexDigit (n := 0) (by decide)).bind ((reads_hexDigit (n := 0) (by decide)).bind
    ((reads_hexDigit (n := n / 16) (by omega)).bind hla))

theorem reads_unicodeEscape (h : c.toNat < 256) :
    Reads unicodeEscape ['0', '0', Nat.digitChar (c.toNat / 16), Nat.digitChar (c.toNat % 16)]
      c := by
  apply (reads_hex4 (by omega)).finish
  rw [if_neg (by omega), if_neg (by omega), Char.ofNat_toNat]
  exact .pure c

theorem escape_of_isDigit (h : c.isDigit = true) : escape c = [c] := by
  have hne (d : Char) (hd : d.isDigit = false) : c ≠ d := by
    rintro rfl
    cases h.symm.trans hd
  have hcon : ¬c.toNat < 0x20 := by
    simp only [Char.isDigit, Bool.and_eq_true, decide_eq_true_eq, ge_iff_le, UInt32.le_iff_toNat_le]
      at h
    exact fun hlt => absurd (le_trans h.1 (le_of_lt hlt)) (by decide)
  rw [escape, if_neg (hne '"' rfl), if_neg (hne '\\' rfl), if_neg (hne '\x08' rfl),
    if_neg (hne '\x0c' rfl), if_neg (hne '\n' rfl), if_neg (hne '\r' rfl), if_neg (hne '\t' rfl),
    if_neg hcon]

theorem quote_repr (n : Nat) : quote n.repr = '"' :: (Nat.toDigits 10 n ++ ['"']) := by
  have hdigs : (Nat.toDigits 10 n).flatMap escape = (Nat.toDigits 10 n).flatMap fun c => [c] := by
    apply flatMap_congr
    intro c hc
    exact escape_of_isDigit (isDigit_of_mem_toDigits (by decide) (by decide) hc)
  rw [quote, toList_repr, hdigs, flatMap_singleton']

theorem stringTail_unicode (h : c.toNat < 256) (n : Nat) (rest : List Char) :
    stringTail (n + 1) (['\\', 'u', '0', '0', Nat.digitChar (c.toNat / 16),
      Nat.digitChar (c.toNat % 16)] ++ rest) = (do return c :: (← stringTail n)) rest := by
  have hsl : next ('\\' :: 'u' :: '0' :: '0' :: Nat.digitChar (c.toNat / 16) ::
      Nat.digitChar (c.toNat % 16) :: rest) = .ok ('\\', 'u' :: '0' :: '0' ::
      Nat.digitChar (c.toNat / 16) :: Nat.digitChar (c.toNat % 16) :: rest) := rfl
  have hesc : Reads escaped ['u', '0', '0', Nat.digitChar (c.toNat / 16),
      Nat.digitChar (c.toNat % 16)] c := fun rest => reads_unicodeEscape h rest
  exact (bind_ok hsl).trans (bind_ok (hesc rest))

theorem stringTail_plain (hqu : c ≠ '"') (hsl : c ≠ '\\') (hcon : ¬ c.toNat < 0x20)
    (n : Nat) (rest : List Char) :
    stringTail (n + 1) ([c] ++ rest) = (do return c :: (← stringTail n)) rest := by
  have hnx : next (c :: rest) = .ok (c, rest) := rfl
  rw [stringTail, singleton_append, bind_ok hnx, if_neg hqu, if_neg hsl, if_neg hcon]

theorem stringTail_escape (c : Char) (n : Nat) (rest : List Char) :
    stringTail (n + 1) (escape c ++ rest) = (do return c :: (← stringTail n)) rest := by
  unfold escape
  split
  · rename_i h; subst h; rfl
  split
  · rename_i h; subst h; rfl
  split
  · rename_i h; subst h; rfl
  split
  · rename_i h; subst h; rfl
  split
  · rename_i h; subst h; rfl
  split
  · rename_i h; subst h; rfl
  split
  · rename_i h; subst h; rfl
  split
  · rename_i h
    exact stringTail_unicode (lt_trans h (by decide)) n rest
  · rename_i hqu hsl _ _ _ _ _ hcon
    exact stringTail_plain hqu hsl hcon n rest

theorem escape_ne_nil (c : Char) : escape c ≠ [] := by
  unfold escape
  split_ifs <;> simp

structure Escapes (esc : Char → List Char) : Prop where
  reads : ∀ c n rest, stringTail (n + 1) (esc c ++ rest) = (do return c :: (← stringTail n)) rest
  ne_nil : ∀ c, esc c ≠ []

theorem escapes_escape : Escapes escape := ⟨stringTail_escape, escape_ne_nil⟩

variable {esc : Char → List Char}

theorem Escapes.length_le (h : Escapes esc) (cs : List Char) :
    cs.length ≤ (cs.flatMap esc).length := by
  induction cs with
  | nil => simp
  | cons c cs ih =>
    have hpos := length_pos_iff.mpr (h.ne_nil c)
    rw [flatMap_cons, length_append, length_cons]
    omega

theorem Escapes.stringTail (hesc : Escapes esc) (cs rest : List Char) (h : cs.length < n) :
    Json.stringTail n (cs.flatMap esc ++ '"' :: rest) = .ok (cs, rest) := by
  induction cs generalizing n with
  | nil =>
    obtain ⟨n, rfl⟩ : ∃ m, n = m + 1 := ⟨n - 1, by omega⟩
    rfl
  | cons c cs ih =>
    rw [length_cons] at h
    obtain ⟨n, rfl⟩ : ∃ m, n = m + 1 := ⟨n - 1, by omega⟩
    rw [flatMap_cons, append_assoc, hesc.reads]
    exact bind_ok (ih (by omega))

theorem Escapes.reads_string (h : Escapes esc) (s : String) :
    Reads string ('"' :: (s.toList.flatMap esc ++ ['"'])) s := by
  intro rest
  have htx : '"' :: (s.toList.flatMap esc ++ ['"']) ++ rest =
      ['"'] ++ (s.toList.flatMap esc ++ '"' :: rest) := by simp
  have hlen := h.length_le s.toList
  have htl : Json.stringTail (s.toList.flatMap esc ++ '"' :: rest).length
      (s.toList.flatMap esc ++ '"' :: rest) = .ok (s.toList, rest) := by
    apply h.stringTail
    rw [length_append, length_cons]
    omega
  rw [htx, string, bind_ok (reads_expect _), bind_get, bind_ok htl, String.ofList_toList]
  rfl

theorem reads_string (s : String) : Reads string (quote s) s := escapes_escape.reads_string s

theorem reads_number (l : Literal) : ReadsBefore Stops number l.text (.num l) := by
  intro rest hrs
  have hcha := all_eq_true.mp l.chars
  have htk : (l.text ++ rest).takeWhile isNumberChar = l.text := by
    rw [takeWhile_append_of_pos hcha]
    cases rest with
    | nil => simp
    | cons c rest => simp [hrs c rfl]
  have hdr : (l.text ++ rest).dropWhile isNumberChar = rest := by
    rw [dropWhile_append_of_pos hcha]
    cases rest with
    | nil => rfl
    | cons c rest => simp [hrs c rfl]
  have hvd : isNumber ((l.text ++ rest).takeWhile isNumberChar) = true := by
    rw [htk]
    exact l.valid
  have hlit : (⟨_, all_takeWhile, hvd⟩ : Literal) = l := by
    cases l
    simp only [Literal.mk.injEq]
    exact htk
  have hrun : number (l.text ++ rest) =
      .ok (.num ⟨_, all_takeWhile, hvd⟩, (l.text ++ rest).dropWhile isNumberChar) := by
    change (if h : isNumber ((l.text ++ rest).takeWhile isNumberChar) = true then _ else _ :
      Reader Value) _ = _
    rw [dif_pos hvd]
    rfl
  rw [hrun, hlit, hdr]

def Begins (close : Char) (text : List Char) : Prop :=
  ∃ c rest, text = c :: rest ∧ isSpace c = false ∧ c ≠ close

theorem reads_listed {item : Reader α} {enc : α → List Char} (hsp : isSpace close = false)
    (hcom : close ≠ ',') (hstop : isNumberChar close = false)
    (h : ∀ a ∈ as, ReadsBefore Stops item (enc a) a) (hbeg : ∀ a ∈ as, Begins close (enc a)) :
    Reads (listed item close) (List.intercalate [','] (as.map enc) ++ [close]) as := by
  have hrd := ReadsBefore.listedUntil (reads_more_comma close) (reads_more_close hsp hcom)
    (stops_cons (by decide)) (stops_cons hstop) h
    (fun a ha => by
      obtain ⟨c, rest, htx, -, hne⟩ := hbeg a ha
      exact ⟨c, rest, htx, hne⟩) ()
  by_cases hne : as = []
  · subst hne
    exact hrd.skipWhile hsp
  · have hmap : ∀ text ∈ as.map enc, Begins close text := by simpa using hbeg
    obtain ⟨c, text, htx, hc, -⟩ := head_intercalate [','] hmap (by simpa using hne)
    rw [htx] at hrd ⊢
    exact hrd.skipWhile hc

theorem reads_member {value : Reader Value} (h : ReadsBefore Stops value text m.2) :
    ReadsBefore Stops (member value) (quote m.1 ++ ':' :: text) m := by
  have hval : ReadsBefore Stops (do return (m.1, ← value)) text m := h.finish (.pure m)
  have hcol : ReadsBefore Stops (do expect ':'; return (m.1, ← value)) (':' :: text) m :=
    reads_expect.bind_before hval
  have hnm : ReadsBefore Stops (do
      let name ← string
      skipSpace
      expect ':'
      return (name, ← value)) (quote m.1 ++ ':' :: text) m :=
    (reads_string m.1).bind_before (hcol.skipWhile (f := isSpace) rfl)
  exact hnm.skipWhile (f := isSpace) rfl

theorem Literal.text_eq_cons (l : Literal) :
    ∃ c rest, l.text = c :: rest ∧ isNumberChar c = true := by
  cases htx : l.text with
  | nil =>
    have hvd := l.valid
    rw [htx] at hvd
    cases hvd
  | cons c rest =>
    have hcha := l.chars
    rw [htx, all_cons, Bool.and_eq_true] at hcha
    exact ⟨c, rest, rfl, hcha.1⟩

theorem isSpace_of_isNumberChar (h : isNumberChar c = true) : isSpace c = false := by
  rw [Bool.eq_false_iff]
  intro hsp
  simp only [isSpace, Bool.or_eq_true, decide_eq_true_eq] at hsp
  rcases hsp with ((rfl | rfl) | rfl) | rfl <;> cases h

theorem begins_print (v : Value) : Begins ']' v.print := by
  cases v with
  | null | str s | arr items | obj members => exact ⟨_, _, rfl, by decide, by decide⟩
  | bool b => cases b <;> exact ⟨_, _, rfl, by decide, by decide⟩
  | num l =>
    obtain ⟨c, rest, htx, hc⟩ := l.text_eq_cons
    refine ⟨c, rest, htx, isSpace_of_isNumberChar hc, ?_⟩
    rintro rfl
    cases hc

theorem begins_printMember : Begins '\x7d' (printMember m) :=
  ⟨_, _, rfl, by decide, by decide⟩

theorem value_eq_number (h : isNumberChar c = true) (fuel : Nat) :
    value (fuel + 1) (c :: rest) = number (c :: rest) := by
  have hne (d : Char) (hd : isNumberChar d = false) : c ≠ d := by
    rintro rfl
    cases h.symm.trans hd
  rw [value, skipSpace, bind_ok (skipWhile_cons (isSpace_of_isNumberChar h) rest), bind_get,
    head?_cons]
  simp [hne '\x7b' rfl, hne '[' rfl, hne '"' rfl, hne 't' rfl, hne 'f' rfl, hne 'n' rfl]

theorem Begins.listed {item : Reader α} (h : Begins close text) (rest : List Char) :
    listed item close (text ++ rest) =
      itemsUntil item (more close) () ((text ++ rest).length + 1) (text ++ rest) := by
  obtain ⟨c, text, rfl, hsp, hne⟩ := h
  rw [cons_append, Json.listed, skipSpace, bind_ok (skipWhile_cons hsp _), listedUntil,
    bind_get, head?_cons, if_neg (by simpa using hne), bind_get]

theorem value_brace : value (fuel + 1) ('\x7b' :: rest) =
    (do return Value.obj (← listed (member (value fuel)) '\x7d')) rest := by
  rfl

theorem value_quote :
    value (fuel + 1) ('"' :: rest) = (do return Value.str (← string)) ('"' :: rest) := by
  rfl

theorem Escapes.reads_value (h : Escapes esc) (s : String) :
    Reads (value (fuel + 1)) ('"' :: (s.toList.flatMap esc ++ ['"'])) (.str s) := by
  have hstr : Reads (do return Value.str (← string)) _ (.str s) :=
    (h.reads_string s).finish (.pure _)
  exact fun rest => value_quote.trans (hstr rest)

variable {enc : Value → List Char}

theorem reads_array (h : ∀ v ∈ items, ReadsBefore Stops (value fuel) (enc v) v)
    (hbeg : ∀ v ∈ items, Begins ']' (enc v)) :
    Reads (value (fuel + 1)) ('[' :: (List.intercalate [','] (items.map enc) ++ [']']))
      (.arr items) := by
  have hits : Reads (listed (value fuel) ']')
      (List.intercalate [','] (items.map enc) ++ [']']) items :=
    reads_listed (by decide) (by decide) (by decide) h hbeg
  have harr : Reads (do expect '['; return Value.arr (← listed (value fuel) ']')) _ (.arr items) :=
    reads_expect.bind (hits.finish (.pure _))
  exact fun rest => harr rest

theorem reads_object (h : ∀ m ∈ members, ReadsBefore Stops (value fuel) (enc m.2) m.2) :
    Reads (value (fuel + 1)) ('\x7b' :: (List.intercalate [',']
      (members.map fun m => quote m.1 ++ ':' :: enc m.2) ++ ['\x7d'])) (.obj members) := by
  have hmem : Reads (listed (member (value fuel)) '\x7d')
      (List.intercalate [','] (members.map fun m => quote m.1 ++ ':' :: enc m.2) ++ ['\x7d'])
      members :=
    reads_listed (by decide) (by decide) (by decide) (fun m hm => reads_member (h m hm))
      fun m _ => ⟨_, _, rfl, by decide, by decide⟩
  intro rest
  rw [cons_append, value_brace, bind_ok (hmem rest)]
  rfl

theorem reads_value (v : Value) (h : v.print.length < fuel) :
    ReadsBefore Stops (value fuel) v.print v := by
  induction fuel generalizing v with
  | zero => exact absurd h (not_lt_zero _)
  | succ fuel ih =>
    cases v with
    | null =>
      have hnull : Reads (do word ['n', 'u', 'l', 'l']; return Value.null) ['n', 'u', 'l', 'l']
          .null := (reads_word _).finish (.pure _)
      exact fun rest _ => hnull rest
    | bool b =>
      cases b with
      | false =>
        have hfal : Reads (do word ['f', 'a', 'l', 's', 'e']; return Value.bool false)
            ['f', 'a', 'l', 's', 'e'] (.bool false) := (reads_word _).finish (.pure _)
        exact fun rest _ => hfal rest
      | true =>
        have htrue : Reads (do word ['t', 'r', 'u', 'e']; return Value.bool true)
            ['t', 'r', 'u', 'e'] (.bool true) := (reads_word _).finish (.pure _)
        exact fun rest _ => htrue rest
    | num l =>
      intro rest hrs
      obtain ⟨c, text, htx, hc⟩ := l.text_eq_cons
      have hrd := reads_number l rest hrs
      rw [htx] at hrd
      rw [Value.print, htx]
      exact (value_eq_number hc fuel).trans hrd
    | str s => exact (escapes_escape.reads_value s).before _
    | arr items =>
      rw [Value.print, printItems_eq] at h ⊢
      refine (reads_array ?_ fun v _ => begins_print v).before _
      intro v hv
      apply ih
      have := length_le_intercalate [','] (mem_map_of_mem (f := Value.print) hv)
      simp only [length_cons, length_append] at h
      omega
    | obj members =>
      rw [Value.print, printMembers_eq] at h ⊢
      refine Reads.before (reads_object ?_) _
      intro m hm
      apply ih
      have := length_le_intercalate [','] (mem_map_of_mem (f := printMember) hm)
      simp only [length_cons, length_append] at h
      simp only [printMember, length_cons, length_append] at this
      omega

theorem parse_of_reads (h : ReadsBefore Stops (value (text.length + 1)) text v) :
    parse (.ofList text) = some v := by
  have hrd := h [] nofun
  rw [append_nil] at hrd
  have hdoc : document (text.length + 1) text = .ok (v, []) := bind_ok hrd
  rw [parse, String.toList_ofList, hdoc]

theorem parse_text (v : Value) : parse v.text = some v :=
  parse_of_reads (reads_value v (lt_succ_self _))

def Value.write (esc : Char → List Char) : Nat → Value → List Char
  | _, .str s => '"' :: (s.toList.flatMap esc ++ ['"'])
  | depth + 1, .arr items =>
    '[' :: (List.intercalate [','] (items.map (Value.write esc depth)) ++ [']'])
  | depth + 1, .obj members => '\x7b' :: (List.intercalate [',']
      (members.map fun m => quote m.1 ++ ':' :: Value.write esc depth m.2) ++ ['\x7d'])
  | _, v => v.print

theorem begins_write (depth : Nat) (v : Value) : Begins ']' (v.write esc depth) := by
  cases depth <;> cases v with
  | str s | arr items | obj members => exact ⟨_, _, rfl, by decide, by decide⟩
  | _ => exact begins_print _

theorem Escapes.reads_write (hesc : Escapes esc) (depth : Nat) (v : Value)
    (h : (v.write esc depth).length < fuel) :
    ReadsBefore Stops (value fuel) (v.write esc depth) v := by
  induction depth generalizing v fuel with
  | zero =>
    cases v with
    | str s =>
      obtain _ | fuel := fuel
      · exact absurd h (not_lt_zero _)
      · exact (hesc.reads_value s).before _
    | _ => exact Json.reads_value _ h
  | succ depth ih =>
    obtain _ | fuel := fuel
    · exact absurd h (not_lt_zero _)
    cases v with
    | str s => exact (hesc.reads_value s).before _
    | arr items =>
      rw [Value.write] at h ⊢
      refine (reads_array ?_ fun v _ => begins_write depth v).before _
      intro v hv
      apply ih
      have := length_le_intercalate [','] (mem_map_of_mem (f := Value.write esc depth) hv)
      simp only [length_cons, length_append] at h
      omega
    | obj members =>
      rw [Value.write] at h ⊢
      refine Reads.before (reads_object ?_) _
      intro m hm
      apply ih
      have := length_le_intercalate [','] (mem_map_of_mem
        (f := fun m : String × Value => quote m.1 ++ ':' :: m.2.write esc depth) hm)
      simp only [length_cons, length_append] at h this
      omega
    | _ => exact Json.reads_value _ h

theorem value_of_parse (h : parse (.ofList text) = some v) :
    ∃ rest, value (text.length + 1) text = .ok (v, rest) := by
  rw [parse, String.toList_ofList] at h
  split at h
  · rename_i w s hdoc
    cases h
    obtain ⟨u, rest, hval, hend⟩ := bind_eq_ok.mp hdoc
    have hsp : skipSpace rest = .ok ((), rest.dropWhile isSpace) := rfl
    rw [bind_ok hsp, bind_get] at hend
    split at hend
    · cases hend
      exact ⟨rest, hval⟩
    · cases hend
  · cases h

theorem first_member (m : String × Value) (rest : List Char)
    (h : parse (.ofList ('\x7b' :: (printMember m ++ ',' :: rest))) = some v) :
    ∃ members, v = .obj (m :: members) := by
  obtain ⟨t, hval⟩ := value_of_parse h
  have hlen : m.2.print.length < ('\x7b' :: (printMember m ++ ',' :: rest)).length := by
    simp [printMember]
    omega
  generalize ('\x7b' :: (printMember m ++ ',' :: rest)).length = fuel at hval hlen
  have hmem : member (value fuel) (printMember m ++ ',' :: rest) = .ok (m, ',' :: rest) :=
    reads_member (reads_value m.2 hlen) _ (stops_cons rfl rest)
  rw [value_brace] at hval
  obtain ⟨members, u, hits, hobj⟩ := bind_eq_ok.mp hval
  cases hobj
  rw [begins_printMember.listed] at hits
  have hcom : more '\x7d' (',' :: rest) = .ok (true, rest) := reads_more_comma '\x7d' rest
  rw [itemsUntil, bind_ok hmem, bind_ok hcom, if_pos rfl] at hits
  obtain ⟨others, _, _, hcons⟩ := bind_eq_ok.mp hits
  cases hcons
  exact ⟨others, rfl⟩

end Json
