import Mathlib.Data.List.Basic

namespace Utf8
open List

def encode (s : List Char) : List UInt8 := s.flatMap String.utf8EncodeChar

def isContinuation (b : UInt8) : Bool := decide (0x80 ≤ b.toNat ∧ b.toNat < 0xC0)

def sizeByHead (b : UInt8) : Nat :=
  if b.toNat < 0x80 then 1 else if b.toNat < 0xE0 then 2 else if b.toNat < 0xF0 then 3 else 4

@[simp] theorem encode_nil : encode [] = [] := rfl

theorem encode_cons (c : Char) (s : List Char) :
    encode (c :: s) = String.utf8EncodeChar c ++ encode s := rfl

theorem encode_append (s t : List Char) : encode (s ++ t) = encode s ++ encode t :=
  flatMap_append

theorem toUTF8_toList (s : String) : s.toUTF8.data.toList = encode s.toList := by
  have hbs : s.toUTF8 = s.toList.utf8Encode := by simp
  rw [hbs, List.utf8Encode, data_toByteArray, toList_toArray]
  rfl

theorem toNat_ofNat_lt (h : n < 256) : (UInt8.ofNat n).toNat = n := UInt8.toNat_ofNat_of_lt' h

theorem isContinuation_ofNat (h : n < 64) : isContinuation (.ofNat (n + 128)) = true := by
  rw [isContinuation, toNat_ofNat_lt (by omega), decide_eq_true_eq]
  omega

/-- The bytes of one character: the first tells how many there are, and only the first can. -/
structure IsChar (c : Char) (head : UInt8) (tail : List UInt8) : Prop where
  encoded : String.utf8EncodeChar c = head :: tail
  first : isContinuation head = false
  rest : ∀ b ∈ tail, isContinuation b = true
  size : tail.length + 1 = sizeByHead head
  ascii : head.toNat < 0x80 ∨ c.toNat < 0x80 → c.toNat = head.toNat ∧ tail = []

theorem isChar_of_toNat {c : Char} {v n : Nat} {tail : List UInt8}
    (h : String.utf8EncodeChar c = .ofNat n :: tail) (hv : c.toNat = v) (hn : n < 256)
    (hfst : n < 128 ∨ 192 ≤ n) (hrs : ∀ b ∈ tail, isContinuation b = true)
    (hsz : tail.length + 1 = sizeByHead (.ofNat n))
    (hasc : n < 0x80 ∨ v < 0x80 → v = n ∧ tail = []) : IsChar c (.ofNat n) tail where
  encoded := h
  first := by
    rw [isContinuation, toNat_ofNat_lt hn, decide_eq_false_iff_not]
    omega
  rest := hrs
  size := hsz
  ascii := by
    rw [toNat_ofNat_lt hn, hv]
    exact hasc

theorem sizeByHead_ofNat (h : n < 256) : sizeByHead (.ofNat n) =
    if n < 0x80 then 1 else if n < 0xE0 then 2 else if n < 0xF0 then 3 else 4 := by
  rw [sizeByHead, toNat_ofNat_lt h]

theorem exists_isChar (c : Char) : ∃ head tail, IsChar c head tail := by
  have hbs := String.utf8EncodeChar.eq_def c
  have hval : c.val.toNat = c.toNat := rfl
  dsimp only at hbs
  -- One case for each number of bytes.
  split_ifs at hbs with hone htwo hthr
  · refine ⟨_, _, isChar_of_toNat hbs rfl (by omega) (by omega) (by simp) ?_ ?_⟩
    · rw [sizeByHead_ofNat (by omega), if_pos (by omega)]
      rfl
    · exact fun _ => ⟨rfl, rfl⟩
  · refine ⟨_, _, isChar_of_toNat hbs rfl (by omega) (by omega) ?_ ?_ (by omega)⟩
    · exact forall_mem_singleton.mpr (isContinuation_ofNat (by omega))
    · rw [sizeByHead_ofNat (by omega), if_neg (by omega), if_pos (by omega)]
      rfl
  · refine ⟨_, _, isChar_of_toNat hbs rfl (by omega) (by omega) ?_ ?_ (by omega)⟩
    · exact forall_mem_cons.mpr ⟨isContinuation_ofNat (by omega),
        forall_mem_singleton.mpr (isContinuation_ofNat (by omega))⟩
    · rw [sizeByHead_ofNat (by omega), if_neg (by omega), if_neg (by omega), if_pos (by omega)]
      rfl
  · refine ⟨_, _, isChar_of_toNat hbs rfl (by omega) (by omega) ?_ ?_ (by omega)⟩
    · exact forall_mem_cons.mpr ⟨isContinuation_ofNat (by omega),
        forall_mem_cons.mpr ⟨isContinuation_ofNat (by omega),
          forall_mem_singleton.mpr (isContinuation_ofNat (by omega))⟩⟩
    · rw [sizeByHead_ofNat (by omega), if_neg (by omega), if_neg (by omega), if_neg (by omega)]
      rfl

theorem prefix_of_encode (h : encode p ++ y = encode s) : ∃ s', s = p ++ s' ∧ y = encode s' := by
  have hbs : p.utf8Encode ++ y.toByteArray = s.utf8Encode := by
    rw [List.utf8Encode, List.utf8Encode, ← toByteArray_append]
    exact congrArg List.toByteArray h
  obtain ⟨s', rfl⟩ := isPrefix_of_utf8Encode_append_eq_utf8Encode _ hbs
  rw [encode_append] at h
  exact ⟨s', rfl, append_cancel_left h⟩

theorem split_of_encode (h : encode s = x ++ y) (hy : ∀ b ∈ y.head?, isContinuation b = false) :
    ∃ s₁ s₂, s = s₁ ++ s₂ ∧ x = encode s₁ ∧ y = encode s₂ := by
  induction s generalizing x with
  | nil =>
    obtain ⟨rfl, rfl⟩ := append_eq_nil_iff.mp h.symm
    exact ⟨[], [], rfl, rfl, rfl⟩
  | cons c s ih =>
    cases x with
    | nil => exact ⟨[], c :: s, rfl, rfl, h.symm⟩
    | cons b x =>
      obtain ⟨head, tail, hc⟩ := exists_isChar c
      rw [encode_cons, hc.encoded, cons_append, cons_append] at h
      obtain ⟨rfl, h₁⟩ := List.cons.inj h
      rcases append_eq_append_iff.mp h₁ with ⟨x', rfl, hs⟩ | ⟨z, rfl, rfl⟩
      · obtain ⟨s₁, s₂, rfl, rfl, rfl⟩ := ih hs
        exact ⟨c :: s₁, s₂, rfl, by rw [encode_cons, hc.encoded]; rfl, rfl⟩
      · cases z with
        | nil => exact ⟨[c], s, rfl, by rw [encode_cons, hc.encoded, append_nil]; simp, rfl⟩
        | cons d z =>
          have hd := hc.rest d (by simp)
          cases hd.symm.trans (hy d rfl)

theorem head_encode (s : List Char) : ∀ b ∈ (encode s).head?, isContinuation b = false := by
  cases s with
  | nil => simp
  | cons c s =>
    obtain ⟨head, tail, hc⟩ := exists_isChar c
    rw [encode_cons, hc.encoded]
    rintro b ⟨⟩
    exact hc.first

theorem encode_eq_nil (h : encode s = []) : s = [] := by
  obtain ⟨s', hs, -⟩ := prefix_of_encode (p := s) (s := []) (by rw [append_nil, h, encode_nil])
  exact (append_eq_nil_iff.mp hs.symm).1

theorem encode_injective : Function.Injective encode := by
  intro s t h
  obtain ⟨t', rfl, ht⟩ := prefix_of_encode (p := s) (s := t) (by rw [append_nil, h])
  rw [encode_eq_nil ht.symm, append_nil]

theorem occurrence_of_encode (h : encode s = x ++ (encode p ++ y)) (hp : p ≠ []) :
    ∃ s₁ s₂, s = s₁ ++ (p ++ s₂) ∧ x = encode s₁ ∧ y = encode s₂ := by
  have hhd : (encode p ++ y).head? = (encode p).head? :=
    head?_append_of_ne_nil _ fun hnil => hp (encode_eq_nil hnil)
  obtain ⟨s₁, s', rfl, rfl, hrs⟩ := split_of_encode h (hhd ▸ head_encode p)
  obtain ⟨s₂, rfl, rfl⟩ := prefix_of_encode hrs
  exact ⟨s₁, s₂, rfl, rfl, rfl⟩

theorem suffix_of_encode (h : encode s = x ++ encode p) : ∃ s', s = s' ++ p ∧ x = encode s' := by
  obtain ⟨s₁, s₂, rfl, rfl, hp⟩ := split_of_encode h (head_encode p)
  obtain rfl := encode_injective hp
  exact ⟨s₁, rfl, rfl⟩

theorem isPrefixOf_encode (p s : List Char) :
    (encode p).isPrefixOf (encode s) = p.isPrefixOf s := by
  rw [Bool.eq_iff_iff, isPrefixOf_iff_prefix, isPrefixOf_iff_prefix]
  constructor
  · rintro ⟨y, h⟩
    obtain ⟨s', rfl, -⟩ := prefix_of_encode h
    exact prefix_append p s'
  · rintro ⟨s', rfl⟩
    rw [encode_append]
    exact prefix_append _ _

theorem isSuffixOf_encode (p s : List Char) :
    (encode p).isSuffixOf (encode s) = p.isSuffixOf s := by
  rw [Bool.eq_iff_iff, isSuffixOf_iff_suffix, isSuffixOf_iff_suffix]
  constructor
  · rintro ⟨x, h⟩
    obtain ⟨s', rfl, -⟩ := suffix_of_encode h.symm
    exact suffix_append s' p
  · rintro ⟨s', rfl⟩
    rw [encode_append]
    exact suffix_append _ _

def isCharBoundary (bytes : List UInt8) (i : Nat) : Bool :=
  i == 0 || i == bytes.length || (bytes[i]?).any (!isContinuation ·)

theorem isCharBoundary_encode (s t : List Char) :
    isCharBoundary (encode (s ++ t)) (encode s).length = true := by
  rw [encode_append, isCharBoundary, getElem?_append_right (Nat.le_refl _), Nat.sub_self,
    ← head?_eq_getElem?]
  cases hhd : (encode t).head? with
  | none => simp [head?_eq_none_iff.mp hhd]
  | some b => simp [head_encode t b hhd]

theorem mem_utf8EncodeChar {b : UInt8} (hb : b.toNat < 0x80) :
    b ∈ String.utf8EncodeChar c ↔ c.toNat = b.toNat := by
  obtain ⟨head, tail, hc⟩ := exists_isChar c
  rw [hc.encoded, mem_cons]
  constructor
  · rintro (rfl | hmem)
    · exact (hc.ascii (.inl hb)).1
    · have hrs := hc.rest b hmem
      simp only [isContinuation, decide_eq_true_eq] at hrs
      omega
  · intro hnat
    have hasc := (hc.ascii (.inr (hnat ▸ hb))).1
    exact .inl (UInt8.toNat_inj.mp (hnat.symm.trans hasc))

theorem nul_mem_of_zero_mem {s : List Char} (h : 0 ∈ encode s) : '\x00' ∈ s := by
  obtain ⟨c, hc, hz⟩ := mem_flatMap.mp h
  rw [mem_utf8EncodeChar (by decide)] at hz
  rwa [← Char.toNat_inj.mp (show c.toNat = '\x00'.toNat from hz)]

theorem utf8EncodeChar_ascii {b : UInt8} (hb : c.toNat < 0x80) (h : c.toNat = b.toNat) :
    String.utf8EncodeChar c = [b] := by
  obtain ⟨head, tail, hc⟩ := exists_isChar c
  obtain ⟨hnat, rfl⟩ := hc.ascii (.inr hb)
  rw [hc.encoded, UInt8.toNat_inj.mp (hnat.symm.trans h)]

theorem splitOn_append_of_notMem [BEq α] [LawfulBEq α] {sep : α} {l : List α} (h : sep ∉ l)
    (rest : List α) : (l ++ rest).splitOn sep = (rest.splitOn sep).modifyHead (l ++ ·) := by
  induction l with
  | nil => exact (congrFun modifyHead_id _).symm
  | cons a l ih =>
    obtain ⟨hne, hmem⟩ := ne_and_not_mem_of_not_mem_cons h
    rw [cons_append, splitOn_cons_eq_if_modifyHead,
      if_neg (by simpa using Ne.symm hne), ih hmem, modifyHead_modifyHead]
    rfl

theorem encode_of_ascii_front (h : encode s = front ++ rest)
    (hfr : ∀ b ∈ front, b.toNat < 0x80) : ∃ s₁ s₂, s = s₁ ++ s₂ ∧ rest = encode s₂ := by
  induction front generalizing s with
  | nil => exact ⟨[], s, rfl, h.symm⟩
  | cons b front ih =>
    obtain ⟨hb, hrs⟩ := forall_mem_cons.mp hfr
    cases s with
    | nil => cases h
    | cons c s =>
      obtain ⟨head, tail, hc⟩ := exists_isChar c
      rw [encode_cons, hc.encoded, cons_append, cons_append] at h
      obtain ⟨rfl, h₁⟩ := List.cons.inj h
      rw [(hc.ascii (.inl hb)).2, nil_append] at h₁
      obtain ⟨s₁, s₂, rfl, hs₂⟩ := ih h₁ hrs
      exact ⟨c :: s₁, s₂, rfl, hs₂⟩

theorem splitOn_encode {sep : Char} {b : UInt8} (hsep : sep.toNat < 0x80)
    (h : sep.toNat = b.toNat) (s : List Char) :
    (encode s).splitOn b = (s.splitOn sep).map encode := by
  induction s with
  | nil => rfl
  | cons c s ih =>
    rw [encode_cons, splitOn_cons_eq_if_modifyHead]
    by_cases hc : c = sep
    · subst hc
      rw [utf8EncodeChar_ascii hsep h, singleton_append, splitOn_cons_eq_if_modifyHead,
        if_pos (beq_self_eq_true b), if_pos (beq_self_eq_true c), ih]
      rfl
    · have hmem : b ∉ String.utf8EncodeChar c := by
        rw [mem_utf8EncodeChar (h ▸ hsep), ← h]
        exact fun hnat => hc (Char.toNat_inj.mp hnat)
      rw [splitOn_append_of_notMem hmem, if_neg (by simpa using hc), ih]
      cases s.splitOn sep <;> rfl

def asciiLower (b : UInt8) : UInt8 := if 65 ≤ b.toNat ∧ b.toNat ≤ 90 then b + 32 else b

theorem toNat_asciiLower (b : UInt8) :
    (asciiLower b).toNat = if 65 ≤ b.toNat ∧ b.toNat ≤ 90 then b.toNat + 32 else b.toNat := by
  rw [asciiLower]
  split
  · rw [UInt8.toNat_add]
    exact Nat.mod_eq_of_lt (by simp only [UInt8.toNat_ofNat]; omega)
  · rfl

theorem toNat_toLower (c : Char) :
    c.toLower.toNat = if 65 ≤ c.toNat ∧ c.toNat ≤ 90 then c.toNat + 32 else c.toNat := by
  have hupp : (c.val ≥ 'A'.val ∧ c.val ≤ 'Z'.val) ↔ 65 ≤ c.toNat ∧ c.toNat ≤ 90 :=
    and_congr UInt32.le_iff_toNat_le UInt32.le_iff_toNat_le
  delta Char.toLower
  split
  · next h =>
    rw [if_pos (hupp.mp h)]
    have hnat := hupp.mp h
    have hval : c.val.toNat = c.toNat := rfl
    change (c.val + 32).toNat = _
    rw [UInt32.toNat_add, hval]
    exact Nat.mod_eq_of_lt (by simp only [UInt32.toNat_ofNat]; omega)
  · next h => rw [if_neg (fun hnat => h (hupp.mpr hnat))]

theorem asciiLower_of_isContinuation (h : isContinuation b = true) : asciiLower b = b := by
  simp only [isContinuation, decide_eq_true_eq] at h
  exact if_neg (by omega)

theorem map_asciiLower_utf8EncodeChar (c : Char) :
    (String.utf8EncodeChar c).map asciiLower = String.utf8EncodeChar c.toLower := by
  by_cases hc : c.toNat < 0x80
  · have hby : c.toNat = (UInt8.ofNat c.toNat).toNat := (toNat_ofNat_lt (by omega)).symm
    have hlow : c.toLower.toNat = (asciiLower (.ofNat c.toNat)).toNat := by
      rw [toNat_asciiLower, ← hby, toNat_toLower]
    have hsm : c.toLower.toNat < 0x80 := by
      rw [toNat_toLower]
      split <;> omega
    rw [utf8EncodeChar_ascii hc hby, utf8EncodeChar_ascii hsm hlow]
    rfl
  · have hsame : c.toLower = c := by
      apply Char.toNat_inj.mp
      rw [toNat_toLower, if_neg (by omega)]
    rw [hsame]
    obtain ⟨head, tail, hchar⟩ := exists_isChar c
    have hhd : 0x80 ≤ head.toNat := by
      by_contra hlt
      have := (hchar.ascii (.inl (by omega))).1
      omega
    rw [hchar.encoded, map_cons, asciiLower, if_neg (by omega), map_congr_left
      fun b hb => asciiLower_of_isContinuation (hchar.rest b hb), map_id']

theorem map_asciiLower_encode (s : List Char) :
    (encode s).map asciiLower = encode (s.map Char.toLower) := by
  induction s with
  | nil => rfl
  | cons c s ih =>
    rw [encode_cons, map_append, map_asciiLower_utf8EncodeChar, ih, map_cons, encode_cons]

end Utf8
