import Kojacoord.Lib.Utf8
import Kojacoord.Protocol.Encode

namespace Kojacoord
open Utf8 Option Bool

namespace CrashReport

def isAsciiDigit (b : UInt8) : Bool := decide (48 ≤ b.toNat ∧ b.toNat ≤ 57)

def isDigitOrDot (b : UInt8) : Bool := isAsciiDigit b || b == 46

def skipDigits : Nat → List UInt8 → List UInt8
  | left + 1, d :: s => if isAsciiDigit d then skipDigits left s else d :: s
  | _, s => s

def octet (s : List UInt8) : Option (List UInt8) :=
  let rest := skipDigits 3 s
  if rest.length = s.length then none else some rest

def dot : List UInt8 → Option (List UInt8)
  | b :: s => if b = 46 then some s else none
  | [] => none

def nextOctet (s : List UInt8) : Option (List UInt8) := (dot s).bind octet

def rightBoundary (s : List UInt8) : Option (List UInt8) :=
  if s.head?.any isDigitOrDot then none else some s

def matchIpv4 (s : List UInt8) : Option (List UInt8) :=
  (octet s).bind fun s => (((nextOctet s).bind nextOctet).bind nextOctet).bind rightBoundary

def utf8Len (first : UInt8) : Nat :=
  if first.toNat < 0x80 then 1
  else if first.toNat >>> 5 = 0b110 then 2
  else if first.toNat >>> 4 = 0b1110 then 3
  else 4

def leftBoundaryOk (previous : Option UInt8) : Bool := !previous.any isDigitOrDot

def Ends (s : List UInt8) : Prop := ∃ front b, s = front ++ [b] ∧ isDigitOrDot b = false

theorem not_ends_nil : ¬ Ends [] := by
  rintro ⟨front, b, heq, -⟩
  simp at heq

theorem Ends.of_append (front : List UInt8) (h : Ends (front ++ rest))
    (hfr : ∀ b ∈ front, isDigitOrDot b = true) : Ends rest := by
  obtain ⟨front', b, heq, hb⟩ := h
  cases hrs : rest.reverse with
  | nil =>
    rw [List.reverse_eq_nil_iff.mp hrs, List.append_nil] at heq
    have hmem := hfr b (heq ▸ List.mem_append_right _ List.mem_cons_self)
    cases hb.symm.trans hmem
  | cons c tail =>
    rw [List.reverse_eq_cons_iff] at hrs
    rw [hrs, ← List.append_assoc] at heq
    obtain ⟨-, hc⟩ := List.append_inj' heq rfl
    exact ⟨tail.reverse, b, by rw [hrs, hc], hb⟩

structure Cuts (f : List UInt8 → Option (List UInt8)) : Prop where
  front : ∀ s rest, f s = some rest →
    ∃ front, (∀ b ∈ front, isDigitOrDot b = true) ∧ s = front ++ rest
  append : ∀ s tail, Ends s → f (s ++ tail) = (f s).map (· ++ tail)

theorem Cuts.bind (hf : Cuts f) (hg : Cuts g) : Cuts fun s => (f s).bind g where
  front s rest h := by
    obtain ⟨mid, hmid, hrs⟩ := bind_eq_some_iff.mp h
    obtain ⟨front, hfr, rfl⟩ := hf.front s mid hmid
    obtain ⟨front', hfr', rfl⟩ := hg.front mid rest hrs
    refine ⟨front ++ front', ?_, (List.append_assoc ..).symm⟩
    exact List.forall_mem_append.mpr ⟨hfr, hfr'⟩
  append s tail hs := by
    rw [hf.append s tail hs]
    cases hmid : f s with
    | none => rfl
    | some mid =>
      obtain ⟨front, hfr, rfl⟩ := hf.front s mid hmid
      exact hg.append mid tail (hs.of_append _ hfr)

theorem front_skipDigits :
    ∃ front, (∀ b ∈ front, isDigitOrDot b = true) ∧ s = front ++ skipDigits n s := by
  fun_induction skipDigits n s with
  | case1 left d s hd ih =>
    obtain ⟨front, hfr, hs⟩ := ih
    refine ⟨d :: front, List.forall_mem_cons.mpr ⟨?_, hfr⟩, by rw [List.cons_append, ← hs]⟩
    rw [isDigitOrDot, hd, Bool.true_or]
  | case2 | case3 => exact ⟨[], by simp, rfl⟩

theorem skipDigits_append (hs : Ends s) : skipDigits n (s ++ tail) = skipDigits n s ++ tail := by
  fun_induction skipDigits n s with
  | case1 left d s hd ih =>
    rw [List.cons_append, skipDigits, if_pos hd]
    apply ih
    exact .of_append [d] hs (by simp [isDigitOrDot, hd])
  | case2 left d s hd => rw [List.cons_append, skipDigits, if_neg hd]
  | case3 n s hn =>
    cases s with
    | nil => exact absurd hs not_ends_nil
    | cons d s =>
      cases n with
      | zero => rfl
      | succ n => exact absurd rfl (hn n d s rfl)

theorem cuts_octet : Cuts octet where
  front s rest h := by
    rw [octet, ite_none_left_eq_some] at h
    obtain ⟨front, hfr, hs⟩ := front_skipDigits
    rw [Option.some.inj h.2] at hs
    exact ⟨front, hfr, hs⟩
  append s tail hs := by
    have hlen : (skipDigits 3 s ++ tail).length = (s ++ tail).length ↔
        (skipDigits 3 s).length = s.length := by simp
    rw [octet, octet, skipDigits_append hs, if_congr hlen rfl rfl]
    split <;> rfl

theorem cuts_dot : Cuts dot where
  front s rest h := by
    cases s with
    | nil => cases h
    | cons b s =>
      rw [dot, ite_none_right_eq_some] at h
      exact ⟨[b], by simp [h.1, isDigitOrDot], by rw [← Option.some.inj h.2]; rfl⟩
  append s tail hs := by
    cases s with
    | nil => exact absurd hs not_ends_nil
    | cons b s =>
      rw [List.cons_append, dot, dot]
      split <;> rfl

theorem cuts_rightBoundary : Cuts rightBoundary where
  front s rest h := by
    rw [rightBoundary, ite_none_left_eq_some] at h
    exact ⟨[], by simp, by rw [← Option.some.inj h.2]; rfl⟩
  append s tail hs := by
    cases s with
    | nil => exact absurd hs not_ends_nil
    | cons b s =>
      rw [List.cons_append, rightBoundary, rightBoundary, List.head?_cons, List.head?_cons,
        any_some]
      split <;> rfl

theorem cuts_afterOctet :
    Cuts fun s => (((nextOctet s).bind nextOctet).bind nextOctet).bind rightBoundary :=
  have hnx : Cuts nextOctet := cuts_dot.bind cuts_octet
  ((hnx.bind hnx).bind hnx).bind cuts_rightBoundary

theorem cuts_matchIpv4 : Cuts matchIpv4 := cuts_octet.bind cuts_afterOctet

theorem Cuts.length_le (hf : Cuts f) (h : f s = some rest) : rest.length ≤ s.length := by
  obtain ⟨front, -, rfl⟩ := hf.front s rest h
  rw [List.length_append]
  exact Nat.le_add_left _ _

theorem length_matchIpv4_lt (h : matchIpv4 s = some rest) : rest.length < s.length := by
  obtain ⟨mid, hmid, hrs⟩ := bind_eq_some_iff.mp h
  have hle := cuts_octet.length_le hmid
  have hle' := cuts_afterOctet.length_le hrs
  rw [octet, ite_none_left_eq_some] at hmid
  rw [Option.some.inj hmid.2] at hmid
  omega

/-- The loop, at the bytes that are left and with the byte before them. The text is valid, so that
no slice panics. -/
def redactFrom (previous : Option UInt8) (s : List UInt8) : List UInt8 :=
  match s with
  | [] => []
  | first :: tail =>
    match _h : if leftBoundaryOk previous then matchIpv4 (first :: tail) else none with
    | some rest =>
      "[redacted-ip]".toUTF8.data.toList ++
        redactFrom ((first :: tail).take (tail.length + 1 - rest.length)).getLast? rest
    | none =>
      (first :: tail).take (utf8Len first) ++
        redactFrom ((first :: tail).take (utf8Len first)).getLast?
          ((first :: tail).drop (utf8Len first))
termination_by s.length
decreasing_by
  · exact length_matchIpv4_lt (ite_none_right_eq_some.mp _h).2
  · rw [List.length_drop, List.length_cons, utf8Len]
    split_ifs <;> omega

def redactIpv4 (text : String) : List UInt8 := redactFrom none text.toUTF8.data.toList

def redact (text : String) : List UInt8 := redactIpv4 text

section Scan

theorem redactFrom_match (hok : leftBoundaryOk previous = true)
    (h : matchIpv4 (front ++ rest) = some rest) : redactFrom previous (front ++ rest) =
      "[redacted-ip]".toUTF8.data.toList ++ redactFrom front.getLast? rest := by
  have htk : (front ++ rest).take ((front ++ rest).length - rest.length) = front := by
    rw [List.length_append, Nat.add_sub_cancel, List.take_left]
  cases hs : front ++ rest with
  | nil =>
    rw [hs] at h
    cases h
  | cons first tail =>
    rw [hs] at h htk
    rw [redactFrom]
    split
    · next rest' hmt =>
      rw [if_pos hok, h] at hmt
      cases hmt
      rw [← htk]
      rfl
    · next hmt =>
      rw [if_pos hok, h] at hmt
      cases hmt

theorem redactFrom_char (h : leftBoundaryOk previous = true → matchIpv4 (first :: tail) = none) :
    redactFrom previous (first :: tail) = (first :: tail).take (utf8Len first) ++
      redactFrom ((first :: tail).take (utf8Len first)).getLast?
        ((first :: tail).drop (utf8Len first)) := by
  rw [redactFrom]
  split
  · next rest hmt =>
    obtain ⟨hok, hmt⟩ := ite_none_right_eq_some.mp hmt
    cases (h hok).symm.trans hmt
  · rfl

theorem redactFrom_congr (h : leftBoundaryOk previous = leftBoundaryOk previous') : redactFrom previous s = redactFrom previous' s := by
  cases s with
  | nil => rw [redactFrom, redactFrom]
  | cons first tail => rw [redactFrom, redactFrom, h]

theorem utf8Len_eq (h : isContinuation b = false) : utf8Len b = sizeByHead b := by
  rw [isContinuation, decide_eq_false_iff_not] at h
  rw [utf8Len, sizeByHead, Nat.shiftRight_eq_div_pow, Nat.shiftRight_eq_div_pow]
  split_ifs <;> omega

theorem toNat_lt_of_isDigitOrDot (h : isDigitOrDot b = true) : b.toNat < 0x80 := by
  rcases or_eq_true_iff.mp h with hdig | hdot
  · have hrng := of_decide_eq_true hdig
    omega
  · rw [beq_iff_eq.mp hdot]
    decide

def Apart (c : Char) : Prop := c.isDigit = false ∧ c ≠ '.'

theorem isAsciiDigit_eq_false {c : Char} {b : UInt8} (h : c.isDigit = false)
    (hb : c.toNat = b.toNat) : isAsciiDigit b = false := by
  have hdig : ¬ (decide (c.val ≥ 48) && decide (c.val ≤ 57)) = true := eq_false_iff.mp h
  rw [and_eq_true, decide_eq_true_eq, decide_eq_true_eq] at hdig
  rw [isAsciiDigit, decide_eq_false_iff_not, ← hb]
  exact fun hrng => hdig ⟨UInt32.le_iff_toNat_le.mpr hrng.1, UInt32.le_iff_toNat_le.mpr hrng.2⟩

theorem isDigitOrDot_eq_false (h : Apart c) (hb : c.toNat = b.toNat) : isDigitOrDot b = false := by
  rw [isDigitOrDot, isAsciiDigit_eq_false h.1 hb, Bool.false_or, beq_eq_false_iff_ne]
  rintro rfl
  exact h.2 (Char.toNat_inj.mp hb)

theorem isDigitOrDot_head {head : UInt8} (hc : Utf8.IsChar c head tail) (h : Apart c) :
    isDigitOrDot head = false := by
  by_cases hhd : head.toNat < 0x80
  · exact isDigitOrDot_eq_false h (hc.ascii (.inl hhd)).1
  · exact eq_false_iff.mpr fun hb => hhd (toNat_lt_of_isDigitOrDot hb)

theorem ends_utf8EncodeChar (h : Apart c) : Ends (String.utf8EncodeChar c) := by
  obtain ⟨head, tail, hc⟩ := exists_isChar c
  rw [hc.encoded]
  rcases List.eq_nil_or_concat tail with rfl | ⟨front, b, rfl⟩
  · exact ⟨[], head, rfl, isDigitOrDot_head hc h⟩
  · refine ⟨head :: front, b, by simp, eq_false_iff.mpr fun hb => ?_⟩
    have hlt := toNat_lt_of_isDigitOrDot hb
    have hrs := of_decide_eq_true (hc.rest b (by simp))
    omega

theorem redactFrom_utf8EncodeChar
    (h : leftBoundaryOk previous = true → matchIpv4 (String.utf8EncodeChar c ++ rest) = none) :
    redactFrom previous (String.utf8EncodeChar c ++ rest) = String.utf8EncodeChar c ++
      redactFrom (String.utf8EncodeChar c).getLast? rest := by
  obtain ⟨head, tail, hc⟩ := exists_isChar c
  rw [hc.encoded, List.cons_append] at h ⊢
  have hlen : utf8Len head = (head :: tail).length := by
    rw [utf8Len_eq hc.first, ← hc.size, List.length_cons]
  rw [redactFrom_char h, hlen, ← List.cons_append, List.take_left, List.drop_left]

theorem ends_encode (h : ∀ c ∈ a.getLast?, Apart c) (hne : a ≠ []) : Ends (Utf8.encode a) := by
  obtain ⟨front, c, rfl⟩ := (List.eq_nil_or_concat a).resolve_left hne
  obtain ⟨bytes, b, hbs, hb⟩ := ends_utf8EncodeChar (h c (by simp))
  refine ⟨Utf8.encode front ++ bytes, b, ?_, hb⟩
  rw [List.concat_eq_append, encode_append, List.append_assoc, ← hbs, encode_cons,
    encode_nil, List.append_nil]

theorem matchIpv4_encode (hends : Ends (Utf8.encode a)) (h : matchIpv4 (Utf8.encode a) = some rest) :
    ∃ front a₁ a₂, a = a₁ ++ a₂ ∧ a₁ ≠ [] ∧ a₂ ≠ [] ∧ rest = Utf8.encode a₂ ∧
      Utf8.encode a = front ++ Utf8.encode a₂ := by
  obtain ⟨front, hfr, hspl⟩ := cuts_matchIpv4.front _ _ h
  obtain ⟨a₁, a₂, rfl, rfl⟩ := encode_of_ascii_front hspl
    fun b hb => toNat_lt_of_isDigitOrDot (hfr b hb)
  refine ⟨front, a₁, a₂, rfl, ?_, ?_, rfl, hspl⟩
  · rintro rfl
    exact Nat.lt_irrefl _ (length_matchIpv4_lt h)
  · rintro rfl
    exact not_ends_nil ((hspl ▸ hends).of_append _ hfr)

theorem redactFrom_front (a : List Char) (previous : Option UInt8)
    (h : ∀ c ∈ a.getLast?, Apart c) (hpre : a = [] → leftBoundaryOk previous = true) :
    ∃ out previous', leftBoundaryOk previous' = true ∧
      ∀ s, redactFrom previous (Utf8.encode a ++ s) = out ++ redactFrom previous' s := by
  induction hlen : a.length using Nat.strongRecOn generalizing a previous with
  | ind n ih =>
    cases a with
    | nil => exact ⟨[], previous, hpre rfl, fun s => rfl⟩
    | cons c a =>
      have hends := ends_encode h (List.cons_ne_nil c a)
      by_cases hmt : ∃ rest, leftBoundaryOk previous = true ∧
          matchIpv4 (Utf8.encode (c :: a)) = some rest
      · obtain ⟨rest, hok, hmt⟩ := hmt
        obtain ⟨front, a₁, a₂, ha, hne₁, hne₂, rfl, hspl⟩ := matchIpv4_encode hends hmt
        have hla : ∀ c ∈ a₂.getLast?, Apart c := by
          rwa [ha, List.getLast?_append_of_ne_nil a₁ hne₂] at h
        have hsho : a₂.length < n := by
          rw [← hlen, ha, List.length_append]
          exact Nat.lt_add_of_pos_left (List.length_pos_of_ne_nil hne₁)
        obtain ⟨out, previous', hok', hout⟩ := ih _ hsho a₂
          (front.getLast?) hla (fun hnil => absurd hnil hne₂) rfl
        refine ⟨"[redacted-ip]".toUTF8.data.toList ++ out, previous', hok', fun s => ?_⟩
        have hmt' : matchIpv4 (front ++ (Utf8.encode a₂ ++ s)) = some (Utf8.encode a₂ ++ s) := by
          rw [← List.append_assoc, ← hspl, cuts_matchIpv4.append _ s hends, hmt, map_some]
        rw [hspl, List.append_assoc, redactFrom_match hok hmt', hout, List.append_assoc]
      · have hno (s : List UInt8) : leftBoundaryOk previous = true →
            matchIpv4 (String.utf8EncodeChar c ++ (Utf8.encode a ++ s)) = none := by
          intro hok
          rw [← List.append_assoc, ← encode_cons, cuts_matchIpv4.append _ s hends,
            map_eq_none_iff, eq_none_iff_forall_ne_some]
          exact fun rest hrs => hmt ⟨rest, hok, hrs⟩
        have hla : ∀ c ∈ a.getLast?, Apart c := by
          cases a with
          | nil => simp
          | cons d a => rwa [List.getLast?_cons_cons] at h
        have hbou : a = [] → leftBoundaryOk (String.utf8EncodeChar c).getLast? = true := by
          rintro rfl
          obtain ⟨front, b, hbs, hb⟩ := ends_utf8EncodeChar (h c rfl)
          simp [hbs, leftBoundaryOk, hb]
        obtain ⟨out, previous', hok', hout⟩ := ih a.length (by simp [← hlen]) a
          (String.utf8EncodeChar c).getLast? hla hbou rfl
        refine ⟨String.utf8EncodeChar c ++ out, previous', hok', fun s => ?_⟩
        rw [encode_cons, List.append_assoc, redactFrom_utf8EncodeChar (hno s), hout,
          List.append_assoc]

end Scan

section Addresses

structure Quad where
  first : UInt8
  second : UInt8
  third : UInt8
  fourth : UInt8

def decimal (n : UInt8) : String := toString n.toNat

def Quad.text (q : Quad) : String :=
  decimal q.first ++ "." ++ decimal q.second ++ "." ++ decimal q.third ++ "." ++ decimal q.fourth

def Digits (d : List UInt8) : Prop := d ≠ [] ∧ d.length ≤ 3 ∧ d.all isAsciiDigit = true

instance : Decidable (Digits d) := inferInstanceAs (Decidable (_ ∧ _))

theorem digits_decimal (n : UInt8) : Digits (Utf8.encode (decimal n).toList) :=
  forall_byte n (by decide +kernel)

theorem skipDigits_of_digits (hd : ∀ b ∈ d, isAsciiDigit b = true) (hlen : d.length ≤ n)
    (hrs : rest.head?.any isAsciiDigit = false) : skipDigits n (d ++ rest) = rest := by
  induction d generalizing n with
  | nil =>
    cases rest with
    | nil => cases n <;> rfl
    | cons b rest =>
      cases n with
      | zero => rfl
      | succ n => exact if_neg (eq_false_iff.mp hrs)
  | cons b d ih =>
    obtain ⟨hb, hd⟩ := List.forall_mem_cons.mp hd
    cases n with
    | zero => cases hlen
    | succ n =>
      rw [List.cons_append, skipDigits, if_pos hb]
      exact ih hd (Nat.le_of_succ_le_succ hlen)

theorem octet_of_digits (hd : Digits d) (hrs : rest.head?.any isAsciiDigit = false) :
    octet (d ++ rest) = some rest := by
  rw [octet, skipDigits_of_digits (List.all_eq_true.mp hd.2.2) hd.2.1 hrs, if_neg]
  have hpos := List.length_pos_of_ne_nil hd.1
  rw [List.length_append]
  omega

theorem nextOctet_of_digits (hd : Digits d) (hrs : rest.head?.any isAsciiDigit = false) :
    nextOctet (46 :: (d ++ rest)) = some rest := octet_of_digits hd hrs

theorem encode_text (q : Quad) : ∃ d₁ d₂ d₃ d₄, Digits d₁ ∧ Digits d₂ ∧ Digits d₃ ∧ Digits d₄ ∧
    Utf8.encode q.text.toList = d₁ ++ 46 :: (d₂ ++ 46 :: (d₃ ++ 46 :: d₄)) := by
  refine ⟨_, _, _, _, digits_decimal q.first, digits_decimal q.second, digits_decimal q.third,
    digits_decimal q.fourth, ?_⟩
  have hdot : Utf8.encode ".".toList = [46] := by decide
  simp only [Quad.text, String.toList_append, encode_append, hdot, List.append_assoc,
    List.singleton_append]

theorem matchIpv4_text (q : Quad) (hrs : rest.head?.any isAsciiDigit = false) :
    matchIpv4 (Utf8.encode q.text.toList ++ rest) = rightBoundary rest := by
  obtain ⟨d₁, d₂, d₃, d₄, h₁, h₂, h₃, h₄, htx⟩ := encode_text q
  have hdot (s : List UInt8) : (46 :: s).head?.any isAsciiDigit = false := rfl
  simp only [htx, List.append_assoc, List.cons_append, matchIpv4, octet_of_digits h₁ (hdot _),
    bind_some, nextOctet_of_digits h₂ (hdot _), nextOctet_of_digits h₃ (hdot _),
    nextOctet_of_digits h₄ hrs]

theorem leftBoundaryOk_some : leftBoundaryOk (some b) = !isDigitOrDot b := rfl

theorem redactFrom_digitOrDot (hb : isDigitOrDot b = true)
    (h : leftBoundaryOk previous = true → matchIpv4 (b :: tail) = none) :
    redactFrom previous (b :: tail) = b :: redactFrom (some b) tail := by
  have hlen : utf8Len b = 1 := if_pos (toNat_lt_of_isDigitOrDot hb)
  rw [redactFrom_char h, hlen]
  rfl

theorem redactFrom_inside (hpre : leftBoundaryOk previous = false)
    (hw : ∀ b ∈ w, isDigitOrDot b = true) :
    redactFrom previous (w ++ rest) = w ++ redactFrom (some 46) rest := by
  induction w generalizing previous with
  | nil => exact redactFrom_congr hpre
  | cons b w ih =>
    obtain ⟨hb, hw⟩ := List.forall_mem_cons.mp hw
    rw [List.cons_append, redactFrom_digitOrDot hb, ih (by rw [leftBoundaryOk_some, hb]; rfl) hw,
      List.cons_append]
    intro hok
    cases hpre.symm.trans hok

theorem isDigitOrDot_of_mem_text (q : Quad) :
    ∀ b ∈ Utf8.encode q.text.toList, isDigitOrDot b = true := by
  obtain ⟨d₁, d₂, d₃, d₄, h₁, h₂, h₃, h₄, htx⟩ := encode_text q
  have hdigs {d : List UInt8} (hd : Digits d) : ∀ b ∈ d, isDigitOrDot b = true := by
    intro b hb
    rw [isDigitOrDot, List.all_eq_true.mp hd.2.2 b hb, Bool.true_or]
  simp only [htx, List.forall_mem_append, List.forall_mem_cons]
  exact ⟨hdigs h₁, rfl, hdigs h₂, rfl, hdigs h₃, rfl, hdigs h₄⟩

theorem text_ne_nil (q : Quad) : Utf8.encode q.text.toList ≠ [] := by
  obtain ⟨d₁, d₂, d₃, d₄, h₁, -, -, -, htx⟩ := encode_text q
  simp [htx, h₁.1]

theorem leftBoundaryOk_getLast?_text (q : Quad) :
    leftBoundaryOk (Utf8.encode q.text.toList).getLast? = false := by
  have hall := isDigitOrDot_of_mem_text q
  obtain ⟨front, b, htx⟩ := (List.eq_nil_or_concat _).resolve_left (text_ne_nil q)
  rw [List.concat_eq_append] at htx
  rw [htx, List.getLast?_concat, leftBoundaryOk_some, hall b (by simp [htx])]
  rfl

theorem redactFrom_text (hok : leftBoundaryOk previous = true) (q : Quad)
    (hrs : rest.head?.any isDigitOrDot = false) :
    redactFrom previous (Utf8.encode q.text.toList ++ rest) =
      "[redacted-ip]".toUTF8.data.toList ++ redactFrom (some 46) rest := by
  have hdig : rest.head?.any isAsciiDigit = false := by
    cases rest with
    | nil => rfl
    | cons b rest => exact (or_eq_false_iff.mp hrs).1
  have hmt : matchIpv4 (Utf8.encode q.text.toList ++ rest) = some rest := by
    rw [matchIpv4_text q hdig, rightBoundary, hrs, if_neg Bool.false_ne_true]
  have hla : leftBoundaryOk (Utf8.encode q.text.toList).getLast? = leftBoundaryOk (some 46) :=
    leftBoundaryOk_getLast?_text q
  rw [redactFrom_match hok hmt, redactFrom_congr hla]

theorem redactFrom_text_dot (q : Quad) (rest : List UInt8) :
    redactFrom previous (Utf8.encode q.text.toList ++ 46 :: rest) =
      Utf8.encode q.text.toList ++ redactFrom (some 46) (46 :: rest) := by
  have hno : matchIpv4 (Utf8.encode q.text.toList ++ 46 :: rest) = none := matchIpv4_text q rfl
  have hall := isDigitOrDot_of_mem_text q
  cases htx : Utf8.encode q.text.toList with
  | nil => exact absurd htx (text_ne_nil q)
  | cons b w =>
    rw [htx, List.cons_append] at hno
    rw [htx] at hall
    obtain ⟨hb, hw⟩ := List.forall_mem_cons.mp hall
    have hbou : leftBoundaryOk (some b) = false := by
      rw [leftBoundaryOk_some, hb]
      rfl
    rw [List.cons_append, redactFrom_digitOrDot hb fun _ => hno, redactFrom_inside hbou hw,
      List.cons_append]

theorem encode_head?_any {s : List Char} (h : ∀ c ∈ s.head?, c.isDigit = false) :
    (Utf8.encode s).head?.any isDigitOrDot = (s.head? == some '.') := by
  cases s with
  | nil => rfl
  | cons c s =>
    obtain ⟨head, tail, hc⟩ := exists_isChar c
    rw [encode_cons, hc.encoded, List.cons_append, List.head?_cons, List.head?_cons, any_some]
    by_cases hdot : c = '.'
    · subst hdot
      cases hc.encoded
      rfl
    · rw [beq_eq_false_iff_ne.mpr (fun heq => hdot (Option.some.inj heq))]
      exact isDigitOrDot_head hc ⟨h c rfl, hdot⟩

theorem redact_append (ha : ∀ c ∈ a.toList.getLast?, Apart c)
    (hb : ∀ c ∈ b.toList.head?, c.isDigit = false) : ∃ front rest, ∀ q : Quad,
      redact (a ++ q.text ++ b) = front ++ (if b.toList.head? = some '.'
        then Utf8.encode q.text.toList else "[redacted-ip]".toUTF8.data.toList) ++ rest := by
  obtain ⟨out, previous, hok, hout⟩ := redactFrom_front a.toList none ha fun _ => rfl
  have hred (q : Quad) : redact (a ++ q.text ++ b) = out ++
      redactFrom previous (Utf8.encode q.text.toList ++ Utf8.encode b.toList) := by
    rw [redact, redactIpv4, toUTF8_toList, String.toList_append, String.toList_append,
      encode_append, encode_append, List.append_assoc, hout]
  refine ⟨out, redactFrom (some 46) (Utf8.encode b.toList), fun q => ?_⟩
  rw [hred, List.append_assoc]
  congr 1
  split
  · next hdot =>
    obtain ⟨s, hs⟩ := List.head?_eq_some_iff.mp hdot
    rw [hs, encode_cons]
    exact redactFrom_text_dot q (Utf8.encode s)
  · next hdot =>
    apply redactFrom_text hok q
    rw [encode_head?_any hb, beq_eq_false_iff_ne]
    exact hdot

/-- Two addresses in the same place come out the same, unless a dot follows them. -/
theorem redact_eq_iff (a b : String) (x y : Quad) (ha : ∀ c ∈ a.toList.getLast?, Apart c)
    (hb : ∀ c ∈ b.toList.head?, c.isDigit = false) :
    redact (a ++ x.text ++ b) = redact (a ++ y.text ++ b) ↔
      x.text = y.text ∨ b.toList.head? ≠ some '.' := by
  obtain ⟨front, rest, hredact⟩ := redact_append ha hb
  rw [hredact, hredact]
  by_cases hdot : b.toList.head? = some '.'
  · rw [if_pos hdot, if_pos hdot, List.append_cancel_right_eq, List.append_cancel_left_eq]
    constructor
    · intro heq
      exact .inl (String.toList_inj.mp (encode_injective heq))
    · intro h
      rw [h.resolve_right fun hne => hne hdot]
  · rw [if_neg hdot, if_neg hdot]
    exact ⟨fun _ => .inr hdot, fun _ => rfl⟩

def loopback : Quad := ⟨127, 0, 0, 1⟩

def gateway : Quad := ⟨10, 0, 0, 1⟩

theorem redact_eq_port :
    redact ("peer" ++ loopback.text ++ ":25565") = redact ("peer" ++ gateway.text ++ ":25565") :=
  have hfront : ∀ c ∈ "peer".toList.getLast?, Apart c := by
    rintro _ ⟨⟩
    exact ⟨rfl, by decide⟩
  have hrest : ∀ c ∈ ":25565".toList.head?, c.isDigit = false := by
    rintro _ ⟨⟩
    rfl
  (redact_eq_iff _ _ _ _ hfront hrest).mpr (.inr (by decide))

theorem redact_ne_dot :
    redact ("" ++ loopback.text ++ ".") ≠ redact ("" ++ gateway.text ++ ".") := by
  have hrest : ∀ c ∈ ".".toList.head?, c.isDigit = false := by
    rintro _ ⟨⟩
    rfl
  obtain ⟨front, rest, hredact⟩ := redact_append (a := "") (fun _ h => by cases h) hrest
  intro heq
  rw [hredact, hredact, List.append_cancel_right_eq, List.append_cancel_left_eq] at heq
  exact absurd heq (by decide)

end Addresses

end CrashReport

end Kojacoord
