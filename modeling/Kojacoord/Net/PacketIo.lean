import Kojacoord.Lib.Framing
import Kojacoord.Net.Stream

namespace Kojacoord
open Framing

def Reader.progress (x : Reader α) (bytes : List UInt8) : Progress ConnectionError α :=
  match (x.run ⟨bytes, [.pause 1], some 1, none⟩).1 with
  | .ok a => .done a
  | .error .elapsed => .more
  | .error (.failed e) => .failed e

def legacyLength (bytes : List UInt8) : Nat :=
  (UInt16.ofNat (Decode.bigEndian bytes)).toInt16.toInt.toNat

inductive LegacyPart where
  | fixed (length : Nat)
  | ucs2
  | slot
  | counted

def readUcs2 : Reader (List UInt8) := do
  let length ← Reader.readExact 2
  let chars ← Reader.readExact (Decode.bigEndian length * 2)
  return length ++ chars

def readCounted : Reader (List UInt8) := do
  let length ← Reader.readExact 2
  let data ← Reader.readExact (legacyLength length)
  return length ++ data

def readSlot : Reader (List UInt8) := do
  let item ← Reader.readExact 2
  if Decode.bigEndian item = 0xFFFF then return item
  let countDamage ← Reader.readExact 3
  return item ++ countDamage ++ (← readCounted)

def LegacyPart.read : LegacyPart → Reader (List UInt8)
  | .fixed n => Reader.readExact n
  | .ucs2 => readUcs2
  | .slot => readSlot
  | .counted => readCounted

def readParts : List LegacyPart → Reader (List UInt8)
  | [] => return []
  | part :: parts => do
    let bytes ← part.read
    return bytes ++ (← readParts parts)

def hexDigit (n : Nat) : Char := if n < 10 then Char.ofNat (48 + n) else Char.ofNat (55 + n)

def unknownPreNettyId (id : UInt8) : String :=
  "unknown pre-netty packet id 0x" ++ .ofList [hexDigit (id.toNat / 16), hexDigit (id.toNat % 16)]

def relayShapes : List (UInt8 × List LegacyPart) :=
  [(0x00, [.fixed 4]), (0x07, [.fixed 9]), (0x0A, [.fixed 1]), (0x0B, [.fixed 33]),
   (0x0C, [.fixed 9]), (0x0D, [.fixed 41]), (0x0E, [.fixed 11]), (0x10, [.fixed 2]),
   (0x12, [.fixed 5]), (0x13, [.fixed 9]), (0x16, [.fixed 1]), (0x65, [.fixed 1]),
   (0x6A, [.fixed 4]), (0xCA, [.fixed 9]), (0xCD, [.fixed 1]),
   (0x03, [.ucs2]), (0xCB, [.ucs2]), (0x0F, [.fixed 10, .slot, .fixed 3]),
   (0x66, [.fixed 7, .slot]), (0x82, [.fixed 10, .ucs2, .ucs2, .ucs2, .ucs2]),
   (0xCC, [.ucs2, .fixed 4]), (0xFA, [.ucs2, .counted]), (0xFF, [.ucs2])]

def readPreNettyPacket : Reader (List UInt8) := do
  let id ← Reader.readU8
  match relayShapes.lookup id with
  | some parts => return id :: (← readParts parts)
  | none => Reader.fail (.io .invalidData (unknownPreNettyId id))

def readClientPacket (inflate : Reader.Inflate) (protocol : UInt32) (threshold : Int32) :
    Reader (List UInt8) :=
  if isPreNettyProto protocol then readPreNettyPacket else Reader.readPacket inflate threshold

def limboShapes : List (UInt8 × List LegacyPart) :=
  [(0x00, [.fixed 4]), (0x03, [.ucs2]), (0x07, [.fixed 9]), (0x0A, [.fixed 1]),
   (0x0B, [.fixed 33]), (0x0C, [.fixed 9]), (0x0D, [.fixed 41]), (0x0E, [.fixed 11]),
   (0x10, [.fixed 2]), (0x12, [.fixed 5]), (0x13, [.fixed 9]), (0xCA, [.fixed 9]),
   (0xCB, [.ucs2]), (0xCC, [.ucs2, .fixed 4]), (0xCD, [.fixed 1]), (0xFA, [.ucs2, .counted]),
   (0xFE, [.fixed 1]), (0xFF, [.ucs2])]

def readAndDiscardPreNetty : Reader Unit := do
  let id ← Reader.readU8
  match limboShapes.lookup id with
  | some parts =>
    let _ ← readParts parts
    return ()
  | none => Reader.fail (.protocol (.io .invalidData (unknownPreNettyId id)))

def readAndDiscard (protocol : UInt32) : Reader Unit :=
  if isPreNettyProto protocol then readAndDiscardPreNetty
  else do
    let _ ← Reader.readFrame
    return ()

/-- The groups of seven bits of a number, the lowest first; five of them hold 32 bits. -/
def varIntGroups : Nat → UInt32 → List UInt8
  | 0, _ => []
  | left + 1, v =>
    let byte := (v &&& 0x7F).toUInt8
    if v >>> 7 = 0 then [byte] else (byte ||| 0x80) :: varIntGroups left (v >>> 7)

def encodeVarInt (v : Int32) : List UInt8 := varIntGroups 5 v.toUInt32

def encodeFrame (body : List UInt8) : List UInt8 :=
  encodeVarInt (Int32.ofNat body.length) ++ body

abbrev Deflate := List UInt8 → List UInt8

def compress (deflate : Deflate) (raw : List UInt8) (threshold : Int32) : List UInt8 :=
  if (max threshold 0).toInt.toNat ≤ raw.length then
    encodeVarInt (Int32.ofNat raw.length) ++ deflate raw
  else encodeVarInt 0 ++ raw

def encodePacket (deflate : Deflate) (raw : List UInt8) (threshold : Int32) : List UInt8 :=
  if 0 ≤ threshold then encodeFrame (compress deflate raw threshold) else encodeFrame raw

def encodeForClient (deflate : Deflate) (raw : List UInt8) (protocol : UInt32)
    (threshold : Int32) : List UInt8 :=
  if isPreNettyProto protocol then raw else encodePacket deflate raw threshold

/-- A socket behind a `BufReader`: what it will deliver, and what has been delivered but not yet
been asked for. -/
structure Source where
  buffer : List UInt8
  unread : List UInt8
deriving DecidableEq

namespace Source

def capacity : Nat := 8192

/-- One read of the socket into the empty buffer. A read that bypasses the buffer is one that is
asked for at once. -/
def fill (s : Source) (n : Nat) : Option Source :=
  if s.buffer = [] ∧ 0 < n ∧ n ≤ capacity ∧ n ≤ s.unread.length then
    some ⟨s.unread.take n, s.unread.drop n⟩
  else none

def pop : Source → Option (UInt8 × Source)
  | ⟨byte :: buffer, unread⟩ => some (byte, ⟨buffer, unread⟩)
  | ⟨[], _⟩ => none

def rest (s : Source) : List UInt8 := s.buffer ++ s.unread

theorem rest_fill {s t : Source} (h : s.fill n = some t) : t.rest = s.rest := by
  simp only [fill] at h
  split at h
  · rename_i hs
    cases h
    rw [rest, rest, hs.1, List.take_append_drop, List.nil_append]
  · cases h

theorem rest_pop {s t : Source} (h : s.pop = some (byte, t)) : s.rest = byte :: t.rest := by
  rcases s with ⟨buffer, unread⟩
  cases buffer with
  | nil => cases h
  | cons b buffer =>
    cases h
    rfl

end Source

end Kojacoord
