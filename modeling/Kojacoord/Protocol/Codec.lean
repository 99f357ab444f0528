import Kojacoord.Queue
import Kojacoord.Protocol.Version
import Mathlib.Algebra.Group.Int.Defs

namespace Kojacoord

inductive IoErrorKind where
  | unexpectedEof
  | invalidData
  | timedOut
  | other
deriving DecidableEq

inductive ProtocolError where
  | unexpectedEof
  | varIntOverflow (bytesRead : Nat)
  | stringTooLong (length maximum : Nat)
  | invalidUtf8
  | packetTooLarge (length maximum : Nat)
  | unknownNbtTag (tag : UInt8)
  | io (kind : IoErrorKind) (message : String)
deriving DecidableEq

def ProtocolError.display : ProtocolError → String
  | unexpectedEof => "unexpected end of packet data"
  | varIntOverflow n => s!"variable-length integer overflow (read {n} bytes)"
  | stringTooLong n maximum => s!"string length {n} exceeds maximum {maximum}"
  | invalidUtf8 => "string contains invalid UTF-8"
  | packetTooLarge n maximum => s!"packet size {n} exceeds maximum {maximum}"
  | unknownNbtTag tag => s!"unrecognized NBT tag type: {tag.toNat}"
  | io _ message => s!"I/O error: {message}"

def isWhitespace (c : Char) : Bool :=
  c.toNat ∈ [0x09, 0x0A, 0x0B, 0x0C, 0x0D, 0x20, 0x85, 0xA0, 0x1680, 0x2028, 0x2029, 0x202F, 0x205F,
    0x3000] || (0x2000 ≤ c.toNat && c.toNat ≤ 0x200A)

abbrev Decoder := StateT (List UInt8) (Except ProtocolError)

namespace Decode

def take (n : Nat) : Decoder (List UInt8) := fun src =>
  if src.length < n then .error .unexpectedEof else .ok (src.take n, src.drop n)

def u8 : Decoder UInt8
  | [] => .error .unexpectedEof
  | byte :: src => .ok (byte, src)

def bool : Decoder Bool := do
  return (← u8) != 0

def bigEndian (bytes : List UInt8) : Nat := bytes.foldl (fun n b => n * 256 + b.toNat) 0

def u16 : Decoder UInt16 := do
  return .ofNat (bigEndian (← take 2))

def i16 : Decoder Int16 := do
  return (← u16).toInt16

def i32 : Decoder Int32 := do
  return (UInt32.ofNat (bigEndian (← take 4))).toInt32

def i64 : Decoder Int64 := do
  return (UInt64.ofNat (bigEndian (← take 8))).toInt64

def f32 : Decoder UInt32 := do
  return .ofNat (bigEndian (← take 4))

def f64 : Decoder UInt64 := do
  return .ofNat (bigEndian (← take 8))

def varIntMaxBytes : Nat := 5

def varIntLoop : Nat → UInt32 → UInt32 → Decoder Int32
  | 0, _, _ => throw (.varIntOverflow varIntMaxBytes)
  | left + 1, result, shift => do
    let byte ← u8
    if left = 0 ∧ byte &&& 0xF0 ≠ 0 then throw (.varIntOverflow varIntMaxBytes)
    let result := result ||| ((byte &&& 0x7F).toUInt32 <<< shift)
    if byte &&& 0x80 = 0 then return result.toInt32 else varIntLoop left result (shift + 7)

def varInt : Decoder Int32 := varIntLoop varIntMaxBytes 0 0

/-- `v as usize`: a negative number wraps around to a huge one. -/
def asUsize (v : Int32) : Nat := (v.toInt % 2 ^ 64).toNat

def maxStringLength : Nat := 32767

def string : Decoder String := do
  let len := asUsize (← varInt)
  if len > maxStringLength * 3 then throw (.stringTooLong len (maxStringLength * 3))
  let bytes ← take len
  match String.fromUTF8? ⟨bytes.toArray⟩ with
  | some s => return s
  | none => throw .invalidUtf8

def counted (length : Int) : Decoder (List UInt8) :=
  if length < 0 then throw .unexpectedEof else take length.toNat

end Decode

open Decode

/-- `String::from_utf16`: a high surrogate must be followed by a low one. -/
def fromUtf16 : List UInt16 → Option (List Char)
  | [] => some []
  | u :: rest =>
    if u &&& 0xFC00 = 0xD800 then
      match rest with
      | w :: rest =>
        if w &&& 0xFC00 = 0xDC00 then
          let code := 0x10000 + (u.toNat - 0xD800) * 0x400 + (w.toNat - 0xDC00)
          (fromUtf16 rest).map (Char.ofNat code :: ·)
        else none
      | [] => none
    else if u &&& 0xFC00 = 0xDC00 then none
    else (fromUtf16 rest).map (Char.ofNat u.toNat :: ·)

def utf16Units : List UInt8 → List UInt16
  | hi :: lo :: rest => (hi.toUInt16 <<< 8 ||| lo.toUInt16) :: utf16Units rest
  | _ => []

def decodeLegacyString : Decoder String := do
  let len ← u16
  let raw ← take (len.toNat * 2)
  match fromUtf16 (utf16Units raw) with
  | some chars => return .ofList chars
  | none => throw .unexpectedEof

structure HandshakeC2S where
  protocolVersion : UInt8
  username : String
  host : String
  port : Int32

def HandshakeC2S.decode : Decoder HandshakeC2S := do
  let protocolVersion ← u8
  let username ← decodeLegacyString
  let host ← decodeLegacyString
  let port ← i32
  return { protocolVersion, username, host, port }

structure ServerboundHandshake where
  protocolVersion : Int32
  serverAddress : String
  serverPort : UInt16
  nextState : Int32

def Decode.takeFor (n : Nat) (missing : String) : Decoder (List UInt8) := fun src =>
  if src.length < n then .error (.io .unexpectedEof missing) else take n src

def ServerboundHandshake.decode : Decoder ServerboundHandshake := do
  let protocolVersion ← varInt
  let addrLen := asUsize (← varInt)
  let addrBytes ←
    takeFor addrLen "Missing bytes for ServerboundHandshake server_address"
  let some serverAddress := String.fromUTF8? ⟨addrBytes.toArray⟩
    | throw (.io .invalidData "Invalid UTF-8 in ServerboundHandshake server_address")
  let port ← takeFor 2 "Missing bytes for ServerboundHandshake server_port"
  let nextState ← varInt
  return { protocolVersion, serverAddress, serverPort := .ofNat (bigEndian port), nextState }

end Kojacoord
