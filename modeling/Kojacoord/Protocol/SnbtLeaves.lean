import Kojacoord.Protocol.Snbt

namespace Kojacoord
open Bool

section Numbers

def sign (n : Int) : List Char := if n < 0 then ['-'] else []

theorem decimal_eq (n : Int) : decimal n = sign n ++ Nat.toDigits 10 n.natAbs := by
  cases n with
  | ofNat m => exact Nat.toList_repr
  | negSucc m =>
    have htx : toString (Int.negSucc m) = "-" ++ (m + 1).repr := rfl
    rw [decimal, htx, String.toList_append, Nat.toList_repr, sign, if_pos (Int.negSucc_lt_zero m)]
    simp

theorem isDigit_of_mem_digits {n : Nat} (h : c ∈ Nat.toDigits 10 n) : c.isDigit = true :=
  Nat.isDigit_of_mem_toDigits (by decide) (by decide) h

theorem parseDigits_toDigits (n : Nat) : parseDigits (Nat.toDigits 10 n) = some n := by
  have hdigs : (!(Nat.toDigits 10 n).isEmpty && (Nat.toDigits 10 n).all Char.isDigit) = true := by
    rw [and_eq_true, not_eq_true', List.isEmpty_eq_false_iff, List.all_eq_true]
    exact ⟨Nat.toDigits_ne_nil, fun c hc => isDigit_of_mem_digits hc⟩
  rw [parseDigits, if_pos hdigs, Nat.ofDigitChars_ten_toDigits]

theorem toDigits_eq_cons (n : Nat) :
    ∃ c rest, Nat.toDigits 10 n = c :: rest ∧ c.isDigit = true := by
  cases h : Nat.toDigits 10 n with
  | nil => exact absurd h Nat.toDigits_ne_nil
  | cons c rest => exact ⟨c, rest, rfl, isDigit_of_mem_digits (h ▸ List.mem_cons_self)⟩

theorem ne_of_isDigit (h : c.isDigit = true) (d : Char) (hd : d.isDigit = false) : c ≠ d := by
  rintro rfl
  cases h.symm.trans hd

theorem range_of_isAlpha {c : Char} (h : c.isAlpha = true) :
    65 ≤ c.toNat ∧ c.toNat ≤ 90 ∨ 97 ≤ c.toNat ∧ c.toNat ≤ 122 := by
  rcases or_eq_true_iff.mp h with h | h
  · exact .inl (of_decide_eq_true h)
  · obtain ⟨hlow, hhi⟩ := and_eq_true_iff.mp h
    exact .inr ⟨of_decide_eq_true hlow, of_decide_eq_true hhi⟩

theorem parseInteger_decimal (n : Int) : parseInteger (decimal n) = some n := by
  rw [decimal_eq, sign]
  split
  · rename_i hn
    rw [List.singleton_append, parseInteger, parseDigits_toDigits, Option.map_some]
    congr 1
    omega
  · rename_i hn
    obtain ⟨c, rest, hdigs, hc⟩ := toDigits_eq_cons n.natAbs
    have hpl : parseInteger (c :: rest) = (parseDigits (c :: rest)).map Int.ofNat := by
      rw [parseInteger]
      · rintro text ⟨⟩
        cases hc
      · rintro text ⟨⟩
        cases hc
    rw [List.nil_append, hdigs, hpl, ← hdigs, parseDigits_toDigits, Option.map_some]
    congr 1
    exact Int.natAbs_of_nonneg (Int.not_lt.mp hn)

theorem parseSigned_decimal (bits : Nat) (hlow : -2 ^ (bits - 1) ≤ n)
    (hhi : n < 2 ^ (bits - 1)) : parseSigned bits (decimal n) = some n := by
  rw [parseSigned, parseInteger_decimal, Option.filter_some, if_pos]
  simp [hlow, hhi]

end Numbers

namespace SnbtParser
variable {lib : SnbtLibrary}

theorem isWhitespace_of_isDigit (h : c.isDigit = true) : isWhitespace c = false := by
  have hrng : 48 ≤ c.toNat ∧ c.toNat ≤ 57 := by
    simpa [Char.isDigit, UInt32.le_iff_toNat_le] using h
  simp [isWhitespace]
  omega

theorem startsWord_ascii (h : startsWord lib c = true) (hasc : d.toNat < 128)
    (hd : d.isAlpha = false) (hne : d ≠ '_') : c ≠ d := by
  rintro rfl
  rw [startsWord, (lib.ascii c hasc).1, hd] at h
  simp [hne] at h

theorem isIdentifierChar_of_startsWord (h : startsWord lib c = true) :
    isIdentifierChar lib c = true := by
  rw [startsWord, or_eq_true] at h
  rcases h with h | h
  · simp [isIdentifierChar, SnbtLibrary.isAlphanumeric, h]
  · simp [isIdentifierChar, h]

end SnbtParser

theorem isWhitespace_of_isAlpha {c : Char} (h : c.isAlpha = true) : isWhitespace c = false := by
  have hrng := range_of_isAlpha h
  simp [isWhitespace]
  omega

def asciiLibrary : SnbtLibrary where
  isAlphabetic := Char.isAlpha
  isNumeric := Char.isDigit
  ascii _ _ := ⟨rfl, rfl⟩
  spaces c h := by
    have halpha : c.isAlpha ≠ true := fun halpha => by
      cases h.symm.trans (isWhitespace_of_isAlpha halpha)
    have hdigit : c.isDigit ≠ true := fun hdigit => by
      cases h.symm.trans (SnbtParser.isWhitespace_of_isDigit hdigit)
    exact ⟨eq_false_iff.mpr halpha, eq_false_iff.mpr hdigit⟩
  formatF32 _ := ""
  formatF64 _ := ""
  parseF32 _ := none
  parseF64 _ := none

end Kojacoord
