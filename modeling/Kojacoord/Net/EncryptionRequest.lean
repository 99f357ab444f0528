import Kojacoord.Net.PluginMessages

namespace Kojacoord
open RoundTrip Decode List

inductive Fault where
  | error (e : ProtocolError)
  | panicked
deriving DecidableEq

/-- Code that takes bytes off the front of a buffer and panics when there are too few of them. -/
abbrev Cursor := Parser UInt8 Fault

def saturatingAdd (a b : Int16) : Int16 := .ofInt (max (-32768) (min 32767 (a.toInt + b.toInt)))

namespace Cursor

def ofDecoder (d : Decoder α) : Cursor α := fun src =>
  match d src with
  | .ok result => .ok result
  | .error e => .error (.error e)

def remaining : Cursor Nat := return (← get).length

def getI16 : Cursor Int16
  | hi :: lo :: src => .ok ((UInt16.ofNat (bigEndian [hi, lo])).toInt16, src)
  | _ => .error .panicked

def splitTo (n : Nat) : Cursor (List UInt8) := fun src =>
  if src.length < n then .error .panicked else .ok (src.take n, src.drop n)

def eof : Cursor α := throw (.error .unexpectedEof)

def array (length : Int32) : Cursor (List UInt8) := do
  if length < 0 ∨ (← remaining) < asUsize length then eof
  else splitTo (asUsize length)

end Cursor

open Cursor

/-- The public key and the verify token of 1.7. The check of the first length is to leave room for
the second one. -/
def shortArrays : Cursor (List UInt8 × List UInt8) := do
  if (← remaining) < 2 then eof
  else
    let pkLenRaw ← getI16
    if pkLenRaw < 0 ∨ (← remaining) < asUsize (saturatingAdd pkLenRaw 2).toInt32 then eof
    else
      let publicKey ← splitTo (asUsize pkLenRaw.toInt32)
      let vtLenRaw ← getI16
      let verifyToken ← array vtLenRaw.toInt32
      return (publicKey, verifyToken)

def varIntArrays : Cursor (List UInt8 × List UInt8) := do
  let pkLenRaw ← ofDecoder varInt
  let publicKey ← array pkLenRaw
  let vtLenRaw ← ofDecoder varInt
  let verifyToken ← array vtLenRaw
  return (publicKey, verifyToken)

def decodeEncryptionRequest (epoch : Epoch) : Cursor (String × List UInt8 × List UInt8) := do
  let serverId ← ofDecoder string
  if epoch = .v1_7 then return (serverId, ← shortArrays)
  else return (serverId, ← varIntArrays)

def encodeEncryptionRequest (epoch : Epoch) (serverId : String)
    (publicKey verifyToken : List UInt8) : Except ProtocolError (List UInt8) := do
  let head ← Encode.string serverId
  if epoch = .v1_7 then
    if publicKey.length > 32767 ∨ verifyToken.length > 32767 then throw .unexpectedEof
    else
      return head ++ (Encode.i16 (.ofNat publicKey.length) ++ (publicKey ++
        (Encode.i16 (.ofNat verifyToken.length) ++ verifyToken)))
  else
    return head ++ (encodeVarInt (.ofNat publicKey.length) ++ (publicKey ++
      (encodeVarInt (.ofNat verifyToken.length) ++ verifyToken)))

namespace Cursor

def Safe (p : Cursor α) (src : List UInt8) : Prop := p src ≠ .error .panicked

theorem safe_bind {p : Cursor α} {f : α → Cursor γ} :
    Safe (p >>= f) src ↔ Safe p src ∧ ∀ a rest, p src = .ok (a, rest) → Safe (f a) rest := by
  unfold Safe
  cases h : p src with
  | ok result =>
    rw [bind_ok h]
    simp [Prod.ext_iff]
  | error e =>
    rw [bind_error h]
    simp

theorem safe_pure (a : α) (src : List UInt8) : Safe (pure a) src := by
  intro h
  cases h

theorem safe_eof (src : List UInt8) : Safe (eof : Cursor α) src := by
  intro h
  cases h

theorem ofDecoder_eq_ok {d : Decoder α} : ofDecoder d src = .ok result ↔ d src = .ok result := by
  rw [ofDecoder]
  cases d src with
  | ok result' | error e => simp

theorem safe_ofDecoder : Safe (ofDecoder d) src := by
  rw [Safe, ofDecoder]
  cases d src with
  | ok result | error e => simp

theorem safe_splitTo : Safe (splitTo n) src ↔ n ≤ src.length := by
  rw [Safe, splitTo]
  split
  · simpa
  · rename_i h
    simpa using h

theorem safe_getI16 : Safe getI16 src ↔ 2 ≤ src.length := by
  unfold Safe getI16
  split
  · simp
  · rename_i h
    rcases src with - | ⟨hi, - | ⟨lo, src⟩⟩
    · simp
    · simp
    · exact absurd rfl (h hi lo src)

theorem safe_array (length : Int32) (src : List UInt8) : Safe (array length) src := by
  rw [array, safe_bind]
  refine ⟨safe_pure _ _, ?_⟩
  rintro n rest h
  cases h
  split
  · exact safe_eof _
  · rename_i hft
    rw [safe_splitTo]
    omega

end Cursor

theorem toInt_saturatingAdd (a b : Int16) :
    (saturatingAdd a b).toInt = max (-32768) (min 32767 (a.toInt + b.toInt)) := by
  apply Int16.toInt_ofInt_of_le
  · omega
  · omega

theorem asUsize_toInt32 (h : 0 ≤ v.toInt) : asUsize v.toInt32 = (Int16.toInt v).toNat := by
  have hlt := Int16.toInt_lt v
  rw [asUsize, Int16.toInt_toInt32]
  omega

theorem toInt_of_bytes (hi lo : UInt8) :
    (UInt16.ofNat (bigEndian [hi, lo])).toInt16.toInt =
      if hi.toNat < 128 then (hi.toNat * 256 + lo.toNat : Int)
      else (hi.toNat * 256 + lo.toNat : Int) - 65536 := by
  have hhi := hi.toNat_lt
  have hlo := lo.toNat_lt
  have hnat : (UInt16.ofNat (bigEndian [hi, lo])).toNat = hi.toNat * 256 + lo.toNat := by
    change ((0 * 256 + hi.toNat) * 256 + lo.toNat) % 65536 = _
    omega
  have hsig : (UInt16.ofNat (bigEndian [hi, lo])).toInt16.toInt =
      ((hi.toNat * 256 + lo.toNat : Nat) : Int).bmod 65536 := by
    rw [← hnat]
    exact BitVec.toInt_eq_toNat_bmod _
  rw [hsig, Int.bmod]
  omega

theorem safe_remaining {f : Nat → Cursor γ} :
    Safe (remaining >>= f) src ↔ Safe (f src.length) src := Iff.rfl

theorem safe_getI16_bind {f : Int16 → Cursor γ} :
    Safe (getI16 >>= f) (hi :: lo :: rest) ↔
      Safe (f (UInt16.ofNat (bigEndian [hi, lo])).toInt16) rest := Iff.rfl

theorem safe_split (h : n ≤ src.length) : Safe (do
    let publicKey ← splitTo n
    let vtLenRaw ← getI16
    let verifyToken ← array vtLenRaw.toInt32
    return (publicKey, verifyToken)) src ↔ n + 2 ≤ src.length := by
  have hspl : splitTo n src = .ok (src.take n, src.drop n) := if_neg (Nat.not_lt.mpr h)
  have hrm : 2 ≤ (src.drop n).length ↔ n + 2 ≤ src.length := by
    rw [length_drop]
    omega
  rw [Safe, bind_ok hspl, ← Safe, safe_bind, safe_getI16, hrm]
  refine and_iff_left_of_imp fun _ vtLenRaw rest _ => ?_
  exact safe_bind.mpr ⟨safe_array _ _, fun _ _ _ => safe_pure _ _⟩

def Overlong (src : List UInt8) : Prop :=
  ∃ rest, (src = 0x7F :: 0xFE :: rest ∧ rest.length = 32767) ∨
    (src = 0x7F :: 0xFF :: rest ∧ (rest.length = 32767 ∨ rest.length = 32768))

theorem safe_shortArrays_cons (hi lo : UInt8) (rest : List UInt8) :
    Safe shortArrays (hi :: lo :: rest) ↔
      ¬((hi = 0x7F ∧ lo = 0xFE ∧ rest.length = 32767) ∨
        (hi = 0x7F ∧ lo = 0xFF ∧ (rest.length = 32767 ∨ rest.length = 32768))) := by
  have hval := toInt_of_bytes hi lo
  have hhi : hi = 0x7F ↔ hi.toNat = 127 := UInt8.toNat_inj.symm
  have hfe : lo = 0xFE ↔ lo.toNat = 254 := UInt8.toNat_inj.symm
  have hff : lo = 0xFF ↔ lo.toNat = 255 := UInt8.toNat_inj.symm
  have hhigh := hi.toNat_lt
  have hlow := lo.toNat_lt
  rw [hhi, hfe, hff, shortArrays, safe_remaining, if_neg (by simp), safe_getI16_bind,
    safe_remaining]
  generalize (UInt16.ofNat (bigEndian [hi, lo])).toInt16 = v at hval ⊢
  have hneg : v < 0 ↔ v.toInt < 0 := Int16.lt_iff_toInt_lt
  have hsum := toInt_saturatingAdd v 2
  have htwo : (2 : Int16).toInt = 2 := rfl
  by_cases hpos : v.toInt < 0
  · rw [if_pos (.inl (hneg.mpr hpos))]
    refine iff_of_true (safe_eof _) ?_
    split at hval <;> omega
  · simp only [asUsize_toInt32 (v := saturatingAdd v 2) (by omega), hsum, hneg]
    split
    · refine iff_of_true (safe_eof _) ?_
      split at hval <;> omega
    · have hkey : (v.toInt).toNat ≤ rest.length := by omega
      rw [asUsize_toInt32 (by omega), safe_split hkey]
      split at hval <;> omega

theorem safe_shortArrays : Safe shortArrays src ↔ ¬Overlong src := by
  by_cases hsh : src.length < 2
  · rw [shortArrays, safe_remaining, if_pos hsh]
    refine iff_of_true (safe_eof _) ?_
    rintro ⟨rest, ⟨rfl, -⟩ | ⟨rfl, -⟩⟩
    · rw [length_cons, length_cons] at hsh
      omega
    · rw [length_cons, length_cons] at hsh
      omega
  · rcases src with - | ⟨hi, - | ⟨lo, rest⟩⟩
    · simp at hsh
    · simp at hsh
    · rw [safe_shortArrays_cons, Overlong]
      grind

theorem safe_varIntArrays (src : List UInt8) : Safe varIntArrays src := by
  refine safe_bind.mpr ⟨safe_ofDecoder, fun _ _ _ => ?_⟩
  refine safe_bind.mpr ⟨safe_array _ _, fun _ _ _ => ?_⟩
  refine safe_bind.mpr ⟨safe_ofDecoder, fun _ _ _ => ?_⟩
  exact safe_bind.mpr ⟨safe_array _ _, fun _ _ _ => safe_pure _ _⟩

theorem safe_arrays {p : Cursor (List UInt8 × List UInt8)} :
    Safe (do return (serverId, ← p)) src ↔ Safe p src := by
  rw [safe_bind]
  exact and_iff_left_of_imp fun _ _ _ _ => safe_pure _ _

theorem safe_decode_of_string (h : string bytes = .ok (serverId, src)) :
    Safe (decodeEncryptionRequest epoch) bytes ↔ ¬(epoch = .v1_7 ∧ Overlong src) := by
  rw [Safe, decodeEncryptionRequest, bind_ok (ofDecoder_eq_ok.mpr h), ← Safe]
  by_cases hepo : epoch = .v1_7
  · rw [if_pos hepo, safe_arrays, safe_shortArrays]
    simp [hepo]
  · rw [if_neg hepo, safe_arrays]
    simp [hepo, safe_varIntArrays]

/-- An encryption request makes the proxy panic exactly if it has the form of 1.7 and the first of
its two lengths is too large to be checked. -/
theorem decodeEncryptionRequest_total_iff (epoch : Epoch) (bytes : List UInt8) :
    decodeEncryptionRequest epoch bytes ≠ .error .panicked ↔
      ¬(epoch = .v1_7 ∧ ∃ serverId src, string bytes = .ok (serverId, src) ∧
        Overlong src) := by
  cases h : string bytes with
  | ok result =>
    obtain ⟨serverId, src⟩ := result
    refine (safe_decode_of_string h).trans ?_
    simp
  | error e =>
    have herror : ofDecoder string bytes = .error (.error e) := by
      rw [ofDecoder, h]
    rw [decodeEncryptionRequest, bind_error herror]
    simp

theorem decodeEncryptionRequest_panics :
    decodeEncryptionRequest .v1_7 (0x00 :: 0x7F :: 0xFF :: List.replicate 32767 0) =
      .error .panicked := by
  have hempty : string (0x00 :: 0x7F :: 0xFF :: List.replicate 32767 0) =
      .ok ("", 0x7F :: 0xFF :: List.replicate 32767 0) :=
    reads_string (s := "") rfl _
  have hunsafe := (safe_decode_of_string hempty).not.mpr (by
    rw [not_not]
    exact ⟨rfl, _, .inr ⟨rfl, .inl length_replicate⟩⟩)
  exact not_not.mp hunsafe

end Kojacoord
