import Kojacoord.Protocol.Encode

namespace Kojacoord
open Decode Nat

def hexEncode (bytes : List UInt8) : List Char :=
  bytes.flatMap fun b => [Nat.digitChar (b.toNat / 16), Nat.digitChar (b.toNat % 16)]

def addCarry : Bool → List UInt8 → List UInt8
  | _, [] => []
  | carry, x :: rest =>
    let v := x + if carry then 1 else 0
    let c := decide (256 ≤ x.toNat + carry.toNat)
    if !c then v :: rest else v :: addCarry c rest

def javaHex (bytes : Vector UInt8 20) : String :=
  if bytes[0] &&& 0x80 ≠ 0 then
    let b := bytes.toList.map fun x => ~~~x
    let b := (addCarry true b.reverse).reverse
    "-" ++ .ofList ((hexEncode b).dropWhile (· = '0'))
  else
    let t := (hexEncode bytes.toList).dropWhile (· = '0')
    if t.isEmpty then "0" else .ofList t

def minecraftHexDigest (sha1 : List UInt8 → Vector UInt8 20) (serverId : String)
    (sharedSecret publicKeyDer : List UInt8) : String :=
  javaHex (sha1 (serverId.toUTF8.data.toList ++ sharedSecret ++ publicKeyDer))

def signedValue (bytes : Vector UInt8 20) : Int :=
  (BitVec.ofNat 160 (bigEndian bytes.toList)).toInt

def canonicalHex (v : Int) : String :=
  (if v < 0 then "-" else "") ++ .ofList (Nat.toDigits 16 v.natAbs)

theorem bigEndian_concat (bytes : List UInt8) :
    bigEndian (bytes ++ [b]) = bigEndian bytes * 256 + b.toNat := by
  rw [bigEndian, List.foldl_append]
  rfl

section Digits

theorem dropWhile_digit (hd : d < 16) : [Nat.digitChar d].dropWhile (· = '0') =
    if d = 0 then [] else Nat.toDigits 16 d := by
  rw [toDigits_of_lt_base hd]
  by_cases hz : d = 0
  · rw [hz]
    rfl
  · have hne : Nat.digitChar d ≠ '0' := mt digitChar_eq_zero.mp hz
    simp [hne, hz]

theorem dropWhile_push {text : List Char} (hd : d < 16)
    (h : text.dropWhile (· = '0') = if n = 0 then [] else Nat.toDigits 16 n) :
    (text ++ [Nat.digitChar d]).dropWhile (· = '0') =
      if n * 16 + d = 0 then [] else Nat.toDigits 16 (n * 16 + d) := by
  rw [List.dropWhile_append, h]
  by_cases hz : n = 0
  · rw [if_pos hz, List.isEmpty_nil, if_pos rfl, dropWhile_digit hd, hz, zero_mul, zero_add]
  · have hdigs := toDigits_append_toDigits (b := 16) (by decide) (pos_of_ne_zero hz) hd
    rw [toDigits_of_lt_base hd, mul_comm] at hdigs
    rw [if_neg hz, if_neg (by simp [toDigits_ne_nil]), if_neg (by omega), hdigs]

theorem dropWhile_hexEncode : (hexEncode bytes).dropWhile (· = '0') =
    if bigEndian bytes = 0 then [] else Nat.toDigits 16 (bigEndian bytes) := by
  induction bytes using List.reverseRecOn with
  | nil => rfl
  | append_singleton bytes b ih =>
    have hb := b.toNat_lt
    have hval : bigEndian (bytes ++ [b]) =
        (bigEndian bytes * 16 + b.toNat / 16) * 16 + b.toNat % 16 := by
      rw [bigEndian_concat]
      omega
    have htx : hexEncode (bytes ++ [b]) =
        hexEncode bytes ++ [Nat.digitChar (b.toNat / 16)] ++ [Nat.digitChar (b.toNat % 16)] := by
      simp [hexEncode]
    rw [hval, htx]
    exact dropWhile_push (by omega) (dropWhile_push (by omega) ih)

def readHex (text : List Char) : Nat :=
  text.foldl (fun n c => n * 16 + if c.isDigit then c.toNat - 48 else c.toNat - 87) 0

theorem readHex_toDigits : readHex (Nat.toDigits 16 n) = n := by
  have hdig : ∀ d : Fin 16, readHex [Nat.digitChar d] = d := by decide
  induction n using Nat.strongRecOn with
  | ind n ih =>
    rw [toDigits_eq_if (by decide)]
    split
    · rename_i hn
      exact hdig ⟨n, hn⟩
    · have hla := hdig ⟨n % 16, mod_lt n (by decide)⟩
      rw [readHex, List.foldl_append, ← readHex, ih (n / 16) (by omega)]
      simp only [readHex, List.foldl_cons, List.foldl_nil, zero_mul, zero_add] at hla ⊢
      omega

theorem toList_canonicalHex : (canonicalHex v).toList =
    (if v < 0 then ['-'] else []) ++ Nat.toDigits 16 v.natAbs := by
  rw [canonicalHex, String.toList_append, String.toList_ofList]
  split <;> rfl

theorem canonicalHex_inj (h : canonicalHex v = canonicalHex w) : v = w := by
  have htx := congrArg String.toList h
  rw [toList_canonicalHex, toList_canonicalHex] at htx
  have hrd (u : Int) :
      readHex ((if u < 0 then ['-'] else []) ++ Nat.toDigits 16 u.natAbs) = u.natAbs := by
    split
    · exact readHex_toDigits
    · exact readHex_toDigits
  have habs : v.natAbs = w.natAbs := by rw [← hrd v, htx, hrd]
  rw [habs, List.append_cancel_right_eq] at htx
  by_cases hv : v < 0
  · by_cases hw : w < 0
    · omega
    · rw [if_pos hv, if_neg hw] at htx
      cases htx
  · by_cases hw : w < 0
    · rw [if_neg hv, if_pos hw] at htx
      cases htx
    · omega

end Digits

section Negation

theorem bigEndian_cons (b : UInt8) (bytes : List UInt8) :
    bigEndian (b :: bytes) = b.toNat * 256 ^ bytes.length + bigEndian bytes := by
  induction bytes using List.reverseRecOn with
  | nil => simp [bigEndian]
  | append_singleton bytes c ih =>
    rw [← List.cons_append, bigEndian_concat, ih, bigEndian_concat, List.length_append,
      List.length_singleton, pow_succ]
    ring

theorem bigEndian_lt (bytes : List UInt8) : bigEndian bytes < 256 ^ bytes.length := by
  have hlt : bigEndian bytes < 256 ^ (0 + bytes.length) := foldl_bytes_lt one_pos
  rwa [zero_add] at hlt

theorem toNat_complement (b : UInt8) : (~~~b).toNat + b.toNat = 255 :=
  forall_byte b (by decide +kernel)

theorem bigEndian_complement (bytes : List UInt8) :
    bigEndian (bytes.map fun x => ~~~x) + bigEndian bytes + 1 = 256 ^ bytes.length := by
  induction bytes using List.reverseRecOn with
  | nil => rfl
  | append_singleton bytes b ih =>
    have hb := toNat_complement b
    rw [List.map_append, List.map_singleton, bigEndian_concat, bigEndian_concat,
      List.length_append, List.length_singleton, pow_succ]
    omega

theorem bigEndian_addCarry (bytes : List UInt8) :
    bigEndian (addCarry true bytes).reverse =
      (bigEndian bytes.reverse + 1) % 256 ^ bytes.length := by
  induction bytes with
  | nil => rfl
  | cons x rest ih =>
    have hx := x.toNat_lt
    have hlt := bigEndian_lt rest.reverse
    have hsum : (x + 1).toNat = (x.toNat + 1) % 256 := UInt8.toNat_add x 1
    rw [List.length_reverse] at hlt
    rw [List.reverse_cons, bigEndian_concat, List.length_cons, pow_succ]
    by_cases hcar : x.toNat = 255
    · have hlp : addCarry true (x :: rest) = (x + 1) :: addCarry true rest := by
        simp [addCarry, hcar]
      rw [hlp, List.reverse_cons, bigEndian_concat, ih, hsum, hcar,
        show bigEndian rest.reverse * 256 + 255 + 1 = (bigEndian rest.reverse + 1) * 256 by omega,
        mul_mod_mul_right]
      exact add_zero _
    · have hlp : addCarry true (x :: rest) = (x + 1) :: rest := by
        have hsm : ¬256 ≤ x.toNat + 1 := by omega
        simp [addCarry, hsm]
      rw [hlp, List.reverse_cons, bigEndian_concat, hsum, mod_eq_of_lt (by omega),
        mod_eq_of_lt (by omega)]
      omega

theorem bigEndian_negate (hpos : 0 < bigEndian bytes) :
    bigEndian (addCarry true (bytes.map fun x => ~~~x).reverse).reverse =
      256 ^ bytes.length - bigEndian bytes := by
  have hsum := bigEndian_complement bytes
  rw [bigEndian_addCarry, List.reverse_reverse, List.length_reverse, List.length_map,
    mod_eq_of_lt (by omega)]
  omega

end Negation

theorem top_bit_iff (b : UInt8) : b &&& 0x80 ≠ 0 ↔ 128 ≤ b.toNat :=
  forall_byte b (by decide +kernel)

theorem negative_iff (bytes : Vector UInt8 20) :
    bytes[0] &&& 0x80 ≠ 0 ↔ 2 ^ 159 ≤ bigEndian bytes.toList := by
  obtain ⟨⟨list⟩, hsz⟩ := bytes
  cases list with
  | nil => cases hsz
  | cons b rest =>
    have hlen : rest.length = 19 := Nat.succ.inj hsz
    have hlt := bigEndian_lt rest
    have hval := bigEndian_cons b rest
    rw [hlen] at hlt hval
    change b &&& 0x80 ≠ 0 ↔ 2 ^ 159 ≤ bigEndian (b :: rest)
    rw [top_bit_iff, hval]
    omega

theorem bigEndian_lt_pow (bytes : Vector UInt8 20) : bigEndian bytes.toList < 2 ^ 160 := by
  have hlt := bigEndian_lt bytes.toList
  rw [Vector.length_toList] at hlt
  exact hlt

theorem signedValue_eq (bytes : Vector UInt8 20) : signedValue bytes =
    (if 2 ^ 159 ≤ bigEndian bytes.toList then (bigEndian bytes.toList : Int) - 2 ^ 160
      else bigEndian bytes.toList : Int) := by
  have hlt := bigEndian_lt_pow bytes
  rw [signedValue, BitVec.toInt_eq_toNat_cond, BitVec.toNat_ofNat, mod_eq_of_lt hlt]
  split_ifs <;> omega

theorem javaHex_eq (bytes : Vector UInt8 20) :
    javaHex bytes = canonicalHex (signedValue bytes) := by
  have hlt := bigEndian_lt_pow bytes
  apply String.toList_injective
  rw [toList_canonicalHex, signedValue_eq, javaHex]
  by_cases hneg : bytes[0] &&& 0x80 ≠ 0
  · have hval := (negative_iff bytes).mp hneg
    have hpos : 0 < bigEndian bytes.toList := by omega
    have hnega := bigEndian_negate hpos
    have hsign : (bigEndian bytes.toList : Int) - 2 ^ 160 < 0 := by omega
    have habs : ((bigEndian bytes.toList : Int) - 2 ^ 160).natAbs =
        256 ^ 20 - bigEndian bytes.toList := by omega
    rw [Vector.length_toList] at hnega
    rw [if_pos hneg, if_pos hval, if_pos hsign, String.toList_append, dropWhile_hexEncode,
      hnega, if_neg (by omega), habs, String.toList_ofList, String.toList_ofList]
  · have hval := mt (negative_iff bytes).mpr hneg
    have hsign : ¬(bigEndian bytes.toList : Int) < 0 := by omega
    rw [if_neg hneg, if_neg hval, if_neg hsign, dropWhile_hexEncode, List.nil_append,
      Int.natAbs_natCast]
    by_cases hz : bigEndian bytes.toList = 0
    · rw [hz]
      rfl
    · have hne : ¬(Nat.toDigits 16 (bigEndian bytes.toList)).isEmpty = true := by
        simp [toDigits_ne_nil]
      rw [if_neg hz]
      rw [if_neg hne, String.toList_ofList]

theorem signedValue_inj {bytes bytes' : Vector UInt8 20}
    (h : signedValue bytes = signedValue bytes') : bytes = bytes' := by
  have hval := congrArg BitVec.toNat (BitVec.toInt_inj.mp h)
  rw [BitVec.toNat_ofNat, BitVec.toNat_ofNat, mod_eq_of_lt (bigEndian_lt_pow _),
    mod_eq_of_lt (bigEndian_lt_pow _)] at hval
  apply Vector.toList_inj.mp
  exact bigEndian_inj (by rw [Vector.length_toList, Vector.length_toList]) hval

/-- The text of a digest is that of its number, so that no two digests have the same text. -/
theorem javaHex_canonical :
    (∀ bytes, javaHex bytes = canonicalHex (signedValue bytes)) ∧ Function.Injective javaHex := by
  refine ⟨javaHex_eq, ?_⟩
  intro bytes bytes' h
  rw [javaHex_eq, javaHex_eq] at h
  exact signedValue_inj (canonicalHex_inj h)

end Kojacoord
