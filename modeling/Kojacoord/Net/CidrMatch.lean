import Kojacoord.Net.AcceptFilters
import Mathlib.Data.List.TakeDrop
import Mathlib.Data.List.TakeWhile

namespace Kojacoord
open Nat

def IpAddr.bits : IpAddr → List Bool
  | .v4 octets => (List.range 32).map octets.getMsbD
  | .v6 octets => (List.range 128).map octets.getMsbD

def IpAddr.width : IpAddr → Nat
  | .v4 _ => 32
  | .v6 _ => 128

def networkText (net : String) (length : Nat) : String := net ++ "/" ++ toString length

inductive NamesNetwork (parseIp : String → Option IpAddr) (cidr : String) : Prop
  | host : '/' ∉ cidr.toList → parseIp cidr = some ip → NamesNetwork parseIp cidr
  | network : cidr.toList = net ++ '/' :: length → '/' ∉ net →
      parseIp (.ofList net) = some ip → parseU8 length = some n → NamesNetwork parseIp cidr

theorem getMsbD_mask (hle : length ≤ w) :
    (if length = 0 then 0 else BitVec.allOnes w <<< (w - length)).getMsbD i =
      decide (i < length) := by
  split
  · next hz => simp [hz]
  · rw [BitVec.getMsbD_shiftLeft, BitVec.getMsbD_allOnes, decide_eq_decide]
    omega

theorem prefixMatch_iff {net host : BitVec w} :
    prefixMatch net host length = true ↔
      length ≤ w ∧ ∀ i < length, host.getMsbD i = net.getMsbD i := by
  rw [prefixMatch]
  split
  · next hlt => exact iff_of_false Bool.false_ne_true fun h => absurd h.1 (not_le.mpr hlt)
  · next hle =>
    rw [not_lt] at hle
    rw [beq_iff_eq, and_iff_right hle]
    constructor
    · intro h i hi
      have hbit := congrArg (BitVec.getMsbD · i) h
      simp only [BitVec.getMsbD_and, getMsbD_mask hle, hi, decide_true, Bool.and_true] at hbit
      exact hbit.symm
    · intro h
      apply BitVec.eq_of_getMsbD_eq
      intro i hi
      rw [BitVec.getMsbD_and, BitVec.getMsbD_and, getMsbD_mask hle]
      by_cases hlt : i < length
      · rw [h i hlt]
      · simp [hlt]

theorem take_bits_eq_iff {net host : BitVec w} (hle : length ≤ w) :
    ((List.range w).map host.getMsbD).take length = ((List.range w).map net.getMsbD).take length ↔
      ∀ i < length, host.getMsbD i = net.getMsbD i := by
  rw [← List.map_take, ← List.map_take, List.map_inj_left, List.take_range, min_eq_left hle]
  simp only [List.mem_range]

theorem splitOnce_append (h : sep ∉ front) :
    splitOnce sep (front ++ sep :: back) = some (front, back) := by
  have hne : ∀ c ∈ front, decide (c ≠ sep) = true :=
    fun c hc => decide_eq_true (ne_of_mem_of_not_mem hc h)
  rw [splitOnce, List.span_eq_takeWhile_dropWhile, List.takeWhile_append_of_pos hne,
    List.dropWhile_append_of_pos hne]
  simp

theorem notMem_of_splitOnce (h : splitOnce sep text = none) : sep ∉ text := by
  intro hmem
  obtain ⟨front, back, rfl, hfr⟩ := List.eq_append_cons_of_mem hmem
  cases h.symm.trans (splitOnce_append hfr)

theorem eq_of_splitOnce (h : splitOnce sep text = some (front, back)) :
    text = front ++ sep :: back ∧ sep ∉ front := by
  have hmem : sep ∈ text := by
    by_contra hmem
    have hall : ∀ c ∈ text, decide (c ≠ sep) = true :=
      fun c hc => decide_eq_true (ne_of_mem_of_not_mem hc hmem)
    rw [splitOnce, List.span_eq_takeWhile_dropWhile, List.dropWhile_eq_nil_iff.mpr hall] at h
    cases h
  obtain ⟨front', back', rfl, hfr⟩ := List.eq_append_cons_of_mem hmem
  cases (splitOnce_append hfr).symm.trans h
  exact ⟨rfl, hfr⟩

theorem parseU16_toDigits (n : Nat) : ProxyProtocol.parseU16 (Nat.toDigits 10 n) =
    if n < 2 ^ 16 then some (.ofNat n) else none := by
  have hdigs : ∀ c ∈ Nat.toDigits 10 n, c.isDigit = true :=
    fun c => isDigit_of_mem_toDigits (by decide) (by decide)
  have hplus : ∀ digits, Nat.toDigits 10 n ≠ '+' :: digits :=
    fun digits h => absurd (hdigs '+' (h ▸ List.mem_cons_self)) (by decide)
  have hval : (Nat.toDigits 10 n).foldl (fun n c => n * 10 + (c.toNat - '0'.toNat)) 0 = n := by
    have hval := ofDigitChars_ten_toDigits (n := n)
    simp only [Nat.ofDigitChars, mul_comm 10] at hval
    exact hval
  rw [ProxyProtocol.parseU16]
  · simp only [hval, toDigits_ne_nil, ne_eq, not_false_eq_true, true_and,
      List.all_eq_true.mpr hdigs]
  · exact hplus

theorem parseU8_toDigits (n : Nat) :
    parseU8 (Nat.toDigits 10 n) = if n < 256 then some n else none := by
  rw [parseU8, parseU16_toDigits]
  by_cases hn : n < 2 ^ 16
  · rw [if_pos hn]
    dsimp only
    rw [UInt16.toNat_ofNat_of_lt' hn]
  · rw [if_neg hn, if_neg (by omega)]

theorem prefixMatch_iff_take {net host : BitVec w} : prefixMatch net host p = true ↔ p ≤ w ∧
    ((List.range w).map host.getMsbD).take p = ((List.range w).map net.getMsbD).take p := by
  rw [prefixMatch_iff]
  exact and_congr_right fun hle => (take_bits_eq_iff hle).symm

theorem cidrMatches_networkText (ip : IpAddr) (p : Nat) (hnet : '/' ∉ net.toList) (hprs : parseIp net = some n) :
    cidrMatches parseIp (networkText net p) ip = true ↔
      ip.width = n.width ∧ p ≤ n.width ∧ ip.bits.take p = n.bits.take p := by
  have htx : (networkText net p).toList = net.toList ++ '/' :: Nat.toDigits 10 p := by
    rw [networkText, String.toList_append, String.toList_append, toString_eq_repr,
      toList_repr, List.append_assoc]
    rfl
  rw [cidrMatches, htx, splitOnce_append hnet]
  dsimp only
  rw [parseU8_toDigits, String.ofList_toList, hprs]
  by_cases hp : p < 256
  · rw [if_pos hp]
    cases n <;> cases ip
    case v4.v4 => exact prefixMatch_iff_take.trans (and_iff_right rfl).symm
    case v6.v6 => exact prefixMatch_iff_take.trans (and_iff_right rfl).symm
    case v4.v6 => exact iff_of_false Bool.false_ne_true (by simp [IpAddr.width])
    case v6.v4 => exact iff_of_false Bool.false_ne_true (by simp [IpAddr.width])
  · rw [if_neg hp]
    refine iff_of_false Bool.false_ne_true fun h => ?_
    have hwid : n.width ≤ 128 := by cases n <;> simp [IpAddr.width]
    exact hp (by omega)

theorem cidrMatches_eq_false (h : ¬ NamesNetwork parseIp cidr) :
    cidrMatches parseIp cidr ip = false := by
  rw [cidrMatches]
  cases hspl : splitOnce '/' cidr.toList with
  | none =>
    rw [beq_eq_false_iff_ne]
    exact fun hprs => h (.host (notMem_of_splitOnce hspl) hprs)
  | some parts =>
    obtain ⟨htx, hnet⟩ := eq_of_splitOnce hspl
    cases hlen : parseU8 parts.2 with
    | none => simp [hlen]
    | some length =>
      cases hprs : parseIp (.ofList parts.1) with
      | none => simp [hlen, hprs]
      | some n => exact absurd (.network htx hnet hprs hlen) h

theorem cidrMatches_spec (parseIp : String → Option IpAddr)
    (hslash : ∀ text n, parseIp text = some n → '/' ∉ text.toList) :
    (∀ net n, parseIp net = some n →
      (∀ ip p, ip.width = n.width → p ≤ n.width →
        (cidrMatches parseIp (networkText net p) ip = true ↔
          ip.bits.take p = n.bits.take p)) ∧
      (∀ ip p, n.width < p → cidrMatches parseIp (networkText net p) ip = false) ∧
      (∀ ip p, ip.width ≠ n.width → cidrMatches parseIp (networkText net p) ip = false) ∧
      (∀ ip p, cidrMatches parseIp (networkText net (p + 1)) ip = true →
        cidrMatches parseIp (networkText net p) ip = true)) ∧
    ∀ cidr ip, ¬ NamesNetwork parseIp cidr → cidrMatches parseIp cidr ip = false := by
  refine ⟨fun net n hparse => ?_, fun cidr ip => cidrMatches_eq_false⟩
  have hmatch := fun ip p => cidrMatches_networkText ip p (hslash net n hparse) hparse
  refine ⟨fun ip p hwidth hp => ?_, fun ip p hp => ?_, fun ip p hwidth => ?_, fun ip p h => ?_⟩
  · rw [hmatch, and_iff_right hwidth, and_iff_right hp]
  · rw [Bool.eq_false_iff, Ne, hmatch]
    exact fun h => absurd h.2.1 (not_le.mpr hp)
  · rw [Bool.eq_false_iff, Ne, hmatch]
    exact fun h => hwidth h.1
  · rw [hmatch] at h ⊢
    obtain ⟨hwidth, hp, hbits⟩ := h
    refine ⟨hwidth, le_of_succ_le hp, ?_⟩
    -- The shorter prefixes are prefixes of the longer ones.
    have hshorter := congrArg (List.take p) hbits
    rwa [List.take_take, List.take_take, min_eq_left (le_succ p)] at hshorter

theorem cidrMatches_tenNetwork :
    let parseIp : String → Option IpAddr :=
      fun text => if text = "10.0.0.0" then some (.v4 0x0A000000) else none
    cidrMatches parseIp (networkText "10.0.0.0" 8) (.v4 0x0A010203) = true ∧
      cidrMatches parseIp (networkText "10.0.0.0" 8) (.v4 0x0B000000) = false ∧
      cidrMatches parseIp (networkText "10.0.0.0" 33) (.v4 0x0A000000) = false := by
  intro parseIp
  have hslash : ∀ text n, parseIp text = some n → '/' ∉ text.toList := by
    intro text n h
    have htext : text = "10.0.0.0" := by
      by_contra hne
      rw [show parseIp text = none from if_neg hne] at h
      cases h
    rw [htext]
    decide
  obtain ⟨hnet, -⟩ := cidrMatches_spec parseIp hslash
  obtain ⟨hmatch, hlarge, -, -⟩ := hnet "10.0.0.0" (.v4 0x0A000000) (if_pos rfl)
  have hinside := hmatch (.v4 0x0A010203) 8 rfl (by decide)
  have houtside := hmatch (.v4 0x0B000000) 8 rfl (by decide)
  refine ⟨hinside.mpr (by decide), ?_, hlarge (.v4 0x0A000000) 33 (by decide)⟩
  rw [Bool.eq_false_iff, Ne, houtside]
  decide

end Kojacoord
