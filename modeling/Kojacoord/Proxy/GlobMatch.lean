import Kojacoord.Lib.Glob
import Kojacoord.Lib.Utf8
import Kojacoord.Proxy.RouteRules

namespace Kojacoord

/-! `glob_match_ci` as it runs: offsets count bytes, and a slice may panic. -/

namespace Bytes
open Utf8

def slice (text : List UInt8) (start stop : Nat) : Option (List UInt8) :=
  if start ≤ stop ∧ isCharBoundary text start ∧ isCharBoundary text stop then
    some ((text.take stop).drop start)
  else none

def middleInOrder (nl : List UInt8) (middleEnd : Nat) : List (List UInt8) → Nat → Option Bool
  | [], _ => some true
  | seg :: segs, idx =>
    if seg.isEmpty then middleInOrder nl middleEnd segs idx
    else do
      let text ← slice nl idx middleEnd
      match Glob.find seg text with
      | some off => middleInOrder nl middleEnd segs (idx + (off + seg.length))
      | none => some false

def endsWith (nl : List UInt8) (idx : Nat) (last : List UInt8) : Option Bool :=
  if last.isEmpty then some true else (slice nl idx nl.length).map last.isSuffixOf

def matchParts (nl first : List UInt8) (middle : List (List UInt8)) (last : List UInt8) :
    Option Bool :=
  if !first.isEmpty && !first.isPrefixOf nl then some false
  else do
    let idx := first.length
    if ← endsWith nl idx last then middleInOrder nl (nl.length - last.length) middle idx
    else some false

def globMatchCi (pattern name : String) : Option Bool :=
  let pl := pattern.toUTF8.data.toList.map asciiLower
  let nl := name.toUTF8.data.toList.map asciiLower
  match pl.splitOn 0x2A with
  | [] | [_] => some (pl == nl)
  | first :: second :: rest =>
    matchParts nl first (second :: rest).dropLast ((second :: rest).getLast (by simp))

end Bytes

theorem findSegment_eq : findSegment seg text = Glob.find seg text := by
  induction text with
  | nil => rfl
  | cons c text ih => rw [findSegment, Glob.find, ih]

theorem inOrder_iff : inOrder segs text = true ↔ Glob.Ordered segs text := by
  induction segs generalizing text with
  | nil => exact iff_of_true rfl .nil
  | cons seg segs ih =>
    rw [inOrder]
    split
    · next hemp =>
      rw [List.isEmpty_iff.mp hemp, Glob.ordered_nil_cons]
      exact ih
    · rw [findSegment_eq]
      split
      · next offset hfi =>
        obtain ⟨front, back, hfst, rfl⟩ := Glob.first_of_find hfi
        rw [hfst.ordered_iff, ih, hfst.occurs, ← List.append_assoc, ← List.length_append,
          List.drop_left]
      · next hfi => exact iff_of_false Bool.false_ne_true (Glob.not_ordered_of_find hfi)

theorem ends_iff {first last nl : List Char} {middle : List (List Char)} :
    (first.isPrefixOf nl && last.isSuffixOf (nl.drop first.length) && inOrder middle
        ((nl.drop first.length).take ((nl.drop first.length).length - last.length))) = true ↔
      ∃ body, nl = first ++ (body ++ last) ∧ Glob.Ordered middle body := by
  rw [Bool.and_eq_true, Bool.and_eq_true, List.isPrefixOf_iff_prefix, List.isSuffixOf_iff_suffix,
    inOrder_iff]
  constructor
  · rintro ⟨⟨⟨tail, rfl⟩, hsuf⟩, hord⟩
    rw [List.drop_left] at hsuf hord
    obtain ⟨body, rfl⟩ := hsuf
    rw [List.length_append, Nat.add_sub_cancel, List.take_left] at hord
    exact ⟨body, rfl, hord⟩
  · rintro ⟨body, rfl, hord⟩
    rw [List.drop_left, List.length_append, Nat.add_sub_cancel, List.take_left]
    exact ⟨⟨List.prefix_append _ _, List.suffix_append _ _⟩, hord⟩

theorem eq_of_splitOn_singleton [DecidableEq α] {sep : α} {l : List α} (h : l.splitOn sep = [seg]) :
    l = seg := by
  have hjoin : [sep].intercalate (l.splitOn sep) = l := List.intercalate_splitOn sep
  rw [h] at hjoin
  simpa using hjoin.symm

theorem globMatchCi_iff (pattern name : String) :
    globMatchCi pattern name = true ↔ Glob.Replaces '*' (pattern.toList.map Char.toLower)
      (name.toList.map Char.toLower) := by
  rw [globMatchCi, Glob.replaces_iff]
  split
  · next hspl => exact absurd hspl (List.splitOn_ne_nil _ _)
  · next seg hspl =>
    rw [hspl, Glob.expands_singleton, decide_eq_true_eq, eq_of_splitOn_singleton hspl]
    exact eq_comm
  · next first second rest hspl =>
    rw [hspl, ends_iff, ← Glob.expands_iff, List.dropLast_append_getLast]

namespace Bytes
open Utf8

theorem slice_encode (front body back : List Char) :
    slice (encode (front ++ (body ++ back))) (encode front).length (encode (front ++ body)).length =
      some (encode body) := by
  rw [slice, if_pos]
  · rw [← List.append_assoc, encode_append (front ++ body), List.take_left, encode_append,
      List.drop_left]
  · refine ⟨?_, isCharBoundary_encode _ _, ?_⟩
    · rw [encode_append, List.length_append]
      exact Nat.le_add_right _ _
    · rw [← List.append_assoc]
      exact isCharBoundary_encode _ _

theorem first_encode (h : Glob.First seg text front back) (hseg : seg ≠ []) :
    Glob.First (encode seg) (encode text) (encode front) (encode back) where
  occurs := by rw [h.occurs, encode_append, encode_append]
  least := by
    intro x y hbs
    obtain ⟨front', back', htx, rfl, -⟩ := occurrence_of_encode hbs hseg
    obtain ⟨z, rfl⟩ : front <+: front' :=
      List.prefix_of_prefix_length_le ⟨_, h.occurs.symm⟩ ⟨_, htx.symm⟩
        (h.least front' back' htx)
    rw [encode_append, List.length_append]
    exact Nat.le_add_right _ _

theorem find_encode_eq_none (h : Glob.find seg text = none) (hseg : seg ≠ []) :
    Glob.find (encode seg) (encode text) = none := by
  rw [Option.eq_none_iff_forall_not_mem]
  intro offset hfi
  obtain ⟨x, y, hfst, -⟩ := Glob.first_of_find hfi
  obtain ⟨front, back, rfl, -, -⟩ := occurrence_of_encode hfst.occurs hseg
  have hso := Glob.find_isSome front seg back
  rw [h] at hso
  cases hso

theorem isEmpty_encode (s : List Char) : (encode s).isEmpty = s.isEmpty := by
  rw [Bool.eq_iff_iff, List.isEmpty_iff, List.isEmpty_iff]
  exact ⟨encode_eq_nil, fun h => h ▸ rfl⟩

theorem middleInOrder_encode (segs : List (List Char)) (front body back : List Char) :
    middleInOrder (encode (front ++ (body ++ back))) (encode (front ++ body)).length
      (segs.map encode) (encode front).length = some (inOrder segs body) := by
  induction segs generalizing front body with
  | nil => rfl
  | cons seg segs ih =>
    rw [List.map_cons, middleInOrder, inOrder, isEmpty_encode]
    split
    · exact ih front body
    · next hemp =>
      have hseg : seg ≠ [] := fun hnil => hemp (List.isEmpty_iff.mpr hnil)
      rw [slice_encode, findSegment_eq]
      cases hfi : Glob.find seg body with
      | none =>
        rw [Option.bind_eq_bind, Option.bind_some, find_encode_eq_none hfi hseg]
      | some offset =>
        obtain ⟨skipped, rest, hfst, rfl⟩ := Glob.first_of_find hfi
        have hbd : body = skipped ++ seg ++ rest := by rw [hfst.occurs, List.append_assoc]
        have hrs := ih (front ++ (skipped ++ seg)) rest
        rw [Option.bind_eq_bind, Option.bind_some, Glob.find_eq_of_first (first_encode hfst hseg)]
        dsimp only
        have hdr : skipped.length + seg.length = (skipped ++ seg).length := List.length_append.symm
        rw [hbd, hdr, List.drop_left, ← hrs]
        simp only [encode_append, List.append_assoc, List.length_append]

theorem endsWith_encode (first last tail : List Char) :
    endsWith (encode (first ++ tail)) (encode first).length (encode last) =
      some (last.isSuffixOf tail) := by
  rw [endsWith]
  split
  · next hemp =>
    rw [isEmpty_encode, List.isEmpty_iff] at hemp
    subst hemp
    rw [List.isSuffixOf_iff_suffix.mpr (List.nil_suffix)]
  · have hsli := slice_encode first tail []
    rw [List.append_nil] at hsli
    rw [hsli, Option.map_some, isSuffixOf_encode]

theorem matchParts_encode :
    matchParts (encode nl) (encode first) (middle.map encode) (encode last) =
      some (first.isPrefixOf nl && last.isSuffixOf (nl.drop first.length) && inOrder middle
        ((nl.drop first.length).take ((nl.drop first.length).length - last.length))) := by
  rw [matchParts, isPrefixOf_encode, isEmpty_encode]
  by_cases hfst : first <+: nl
  · obtain ⟨tail, rfl⟩ := hfst
    dsimp only
    rw [endsWith_encode, List.isPrefixOf_iff_prefix.mpr (List.prefix_append _ _), List.drop_left]
    by_cases hla : last <:+ tail
    · obtain ⟨body, rfl⟩ := hla
      rw [List.isSuffixOf_iff_suffix.mpr (List.suffix_append _ _), List.length_append,
        Nat.add_sub_cancel, List.take_left, ← List.append_assoc, encode_append (first ++ body),
        List.length_append, Nat.add_sub_cancel, ← encode_append, List.append_assoc]
      simp [middleInOrder_encode middle first body last]
    · have hends : last.isSuffixOf tail = false := by
        rwa [Bool.eq_false_iff, Ne, List.isSuffixOf_iff_suffix]
      simp [hends]
  · have hsta : first.isPrefixOf nl = false := by
      rwa [Bool.eq_false_iff, Ne, List.isPrefixOf_iff_prefix]
    have hemp : first.isEmpty = false := by
      rw [Bool.eq_false_iff, Ne, List.isEmpty_iff]
      rintro rfl
      exact hfst List.nil_prefix
    simp [hsta, hemp]

theorem globMatchCi_eq : globMatchCi pattern name = some (Kojacoord.globMatchCi pattern name) := by
  rw [globMatchCi, Kojacoord.globMatchCi, toUTF8_toList, toUTF8_toList, map_asciiLower_encode,
    map_asciiLower_encode]
  generalize pattern.toList.map Char.toLower = pl
  rw [splitOn_encode (show '*'.toNat < 0x80 by decide) (by decide)]
  match hspl : pl.splitOn '*' with
  | [] => exact absurd hspl (List.splitOn_ne_nil _ _)
  | [seg] =>
    dsimp only [List.map]
    rw [Option.some_inj, Bool.eq_iff_iff, beq_iff_eq, decide_eq_true_eq]
    exact encode_injective.eq_iff
  | first :: second :: rest =>
    rw [← matchParts_encode, List.map_dropLast, ← List.getLast_map (f := encode) (by simp)]
    rfl

/-- The matcher never panics, and tells whether the name is the pattern with its stars replaced. -/
theorem globMatchCi_correct (pattern name : String) : ∃ answer,
    globMatchCi pattern name = some answer ∧
      (answer = true ↔ Glob.Replaces '*' (pattern.toList.map Char.toLower)
        (name.toList.map Char.toLower)) :=
  ⟨_, globMatchCi_eq, globMatchCi_iff pattern name⟩

end Bytes

end Kojacoord
