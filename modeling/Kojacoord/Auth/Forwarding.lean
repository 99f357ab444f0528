import Kojacoord.Auth.Pipeline
import Kojacoord.Lib.Json
import Kojacoord.Net.VarInt
import Mathlib.Data.List.OfFn

namespace Kojacoord
open List

abbrev Hmac := List UInt8 → List UInt8 → Fin 32 → UInt8

/-- How addresses and UUIDs are written out. None of these texts has a NUL in it. -/
structure TextForms where
  ip : IpAddr → String
  hyphenated : Uuid → String
  nul_notMem_ip (a : IpAddr) : '\x00' ∉ (ip a).toList
  nul_notMem_hyphenated (u : Uuid) : '\x00' ∉ (hyphenated u).toList

namespace Forwarding

section Bungeecord

def propertyJson (p : ProfileProperty) : Json.Value :=
  .obj ([("name", .str p.name), ("value", .str p.value)] ++
    match p.signature with
    | some sig => [("signature", .str sig)]
    | none => [])

def propertiesJson (properties : List ProfileProperty) : Json.Value :=
  .arr (properties.map propertyJson)

/-- Strings can always be written as JSON, so there is no error to return. -/
def bungeecordSuffix (forms : TextForms) (clientIp : IpAddr) (profile : AuthenticatedProfile) :
    String :=
  "\x00" ++ forms.ip clientIp ++ "\x00" ++ forms.hyphenated profile.id ++ "\x00" ++
    (propertiesJson profile.properties).text

end Bungeecord

section Velocity

def writeVarint (v : Int32) : List UInt8 := encodeVarInt v

def writeUtf8Str (s : String) : List UInt8 :=
  writeVarint (Int32.ofNat s.toUTF8.data.toList.length) ++ s.toUTF8.data.toList

def writeProperty (p : ProfileProperty) : List UInt8 :=
  writeUtf8Str p.name ++ writeUtf8Str p.value ++
    match p.signature with
    | some sig => 1 :: writeUtf8Str sig
    | none => [0]

def writeProfile (forms : TextForms) (clientIp : IpAddr) (profile : AuthenticatedProfile) :
    List UInt8 :=
  writeUtf8Str (forms.ip clientIp) ++ Encode.bigEndian 16 profile.id.toNat ++
    writeUtf8Str profile.name ++ writeVarint (Int32.ofNat profile.properties.length) ++
    profile.properties.flatMap writeProperty

def velocityHeader (hmac : Hmac) (forms : TextForms) (secret : String) (clientIp : IpAddr)
    (profile : AuthenticatedProfile) : List UInt8 :=
  let payload := Encode.i32 1 ++ writeProfile forms clientIp profile
  let sig := List.ofFn (hmac secret.toUTF8.data.toList payload)
  writeVarint (Int32.ofNat sig.length) ++ sig ++ payload

/-- The message that a backend expects: the signature and what is signed, nothing else. -/
def velocityMessage (hmac : Hmac) (forms : TextForms) (secret : String) (version : Int32)
    (clientIp : IpAddr) (profile : AuthenticatedProfile) : List UInt8 :=
  let payload := writeVarint version ++ writeProfile forms clientIp profile
  List.ofFn (hmac secret.toUTF8.data.toList payload) ++ payload

theorem encodeVarInt_ne_zeros (version : Int32) : encodeVarInt version ≠ b :: 0 :: c :: rest := by
  intro h
  obtain ⟨-, left, w, hrs⟩ := varIntGroups_marked h
  exact (varIntGroups_marked hrs).1 (by decide)

theorem signed_ne (hsig : sig.length = 32) (hsig' : sig'.length = 32) (version : Int32) :
    writeVarint 32 ++ sig ++ (Encode.i32 1 ++ profile) ≠
      sig' ++ (writeVarint version ++ profile) := by
  intro h
  rw [← append_assoc, ← append_assoc] at h
  have hfrm := congrArg (List.drop 33) (append_cancel_right h)
  have hbef : (writeVarint 32 ++ sig).length = 33 := by
    rw [length_append, hsig]
    rfl
  rw [← hbef, drop_left, hbef, drop_append, hsig', drop_eq_nil_of_le (by omega), nil_append] at hfrm
  have hver : Encode.i32 1 = (writeVarint version).drop 1 := hfrm
  cases hbs : encodeVarInt version with
  | nil =>
    rw [writeVarint, hbs] at hver
    cases hver
  | cons first tail =>
    rw [writeVarint, hbs] at hver
    have htl : tail = [0, 0, 0, 1] := hver.symm
    rw [htl] at hbs
    exact encodeVarInt_ne_zeros version hbs

/-- No backend is ever sent the message that it expects, whatever version it is read as. -/
theorem velocityHeader_ne_velocityMessage (hmac : Hmac) (forms : TextForms) (secret : String)
    (version : Int32) (clientIp : IpAddr) (profile : AuthenticatedProfile) :
    velocityHeader hmac forms secret clientIp profile ≠
      velocityMessage hmac forms secret version clientIp profile := by
  simp only [velocityHeader, velocityMessage, length_ofFn]
  exact signed_ne length_ofFn length_ofFn version

def localForms : TextForms where
  ip _ := "127.0.0.1"
  hyphenated _ := "00000000-0000-0000-0000-000000000000"
  nul_notMem_ip _ := by decide
  nul_notMem_hyphenated _ := by decide

def loopback : IpAddr := .v4 0x7F000001

theorem velocityHeader_testPlayer_rejected :
    ¬ ∃ hmac version, velocityHeader hmac localForms "secret" loopback ⟨0, "TestPlayer", []⟩ =
      velocityMessage hmac localForms "secret" version loopback ⟨0, "TestPlayer", []⟩ := by
  rintro ⟨hmac, version, h⟩
  simp only [velocityHeader, velocityMessage, length_ofFn] at h
  exact signed_ne length_ofFn length_ofFn version h

end Velocity

end Forwarding

end Kojacoord
