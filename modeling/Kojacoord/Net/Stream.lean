import Kojacoord.Protocol.Codec

namespace Kojacoord

inductive ConnectionError where
  | io (kind : IoErrorKind) (message : String)
  | protocol (error : ProtocolError)
  | auth (reason : String)
  | noBackend
  | closed
  | reconnect
  | backend (error : ConnectionError)

namespace ConnectionError

def display : ConnectionError → String
  | io _ message => s!"I/O error: {message}"
  | protocol error => s!"protocol error: {error.display}"
  | auth reason => s!"authentication failed: {reason}"
  | noBackend => "no backend server available"
  | closed => "connection closed"
  | reconnect => "backend reconnect needed"
  | backend error => s!"backend connection lost: {error.display}"

def disconnectReasonText : ConnectionError → String
  | auth message => message
  | backend _ => "Lost connection to the server."
  | error => error.display

def clientGone : ConnectionError → Bool
  | closed | io .. => true
  | _ => false

end ConnectionError

/-- What the client's socket delivers next: some bytes, silence for a while, or an error. When
nothing is left the client has closed the connection. -/
inductive Arrival where
  | bytes (first : UInt8) (rest : List UInt8)
  | pause (ms : Nat)
  | error (kind : IoErrorKind)
deriving DecidableEq

/-- The client side of a connection. `pushed` are bytes put back in front of the socket, `budget`
is what is left of the timeout around the current read, and `cipher` the session key once
encryption is on. -/
structure McStream where
  pushed : List UInt8
  arrivals : List Arrival
  budget : Option Nat
  cipher : Option (List UInt8)

def McStream.plain (arrivals : List Arrival) : McStream := ⟨[], arrivals, none, none⟩

inductive Stop where
  | elapsed
  | failed (error : ConnectionError)

abbrev Reader := ExceptT Stop (StateM McStream)

namespace Reader

def fail (error : ConnectionError) : Reader α := throw (.failed error)

def awaitArrival : Option Nat → List Arrival → Except Stop Unit × Option Nat × List Arrival
  | budget, .pause ms :: rest =>
    match budget with
    | none => awaitArrival none rest
    | some left =>
      if left ≤ ms then (.error .elapsed, none, .pause (ms - left) :: rest)
      else awaitArrival (some (left - ms)) rest
  | budget, .error kind :: rest => (.error (.failed (.io kind "")), budget, rest)
  | budget, arrivals => (.ok (), budget, arrivals)

def arrival : Reader Unit := fun s =>
  let (result, budget, arrivals) := awaitArrival s.budget s.arrivals
  (result, { s with budget, arrivals })

def read (n : Nat) : Reader (List UInt8) := do
  let s ← get
  if s.pushed ≠ [] then
    set { s with pushed := s.pushed.drop n }
    return s.pushed.take n
  arrival
  let s ← get
  match s.arrivals with
  | .bytes first rest :: arrivals =>
    let left := (first :: rest).drop n
    let arrivals := match left with
      | [] => arrivals
      | b :: bs => .bytes b bs :: arrivals
    set { s with arrivals }
    return (first :: rest).take n
  | _ => return []

def readU8 : Reader UInt8 := do
  match ← read 1 with
  | byte :: _ => return byte
  | [] => fail (.io .unexpectedEof "early eof")

/-- `read_exact`: the bytes a timeout interrupts are lost. -/
def readExact : Nat → Reader (List UInt8)
  | 0 => return []
  | n + 1 => do
    let byte ← readU8
    return byte :: (← readExact n)

def decode (d : Decoder α) (bytes : List UInt8) : Reader (α × List UInt8) :=
  match d bytes with
  | .ok r => return r
  | .error e => fail (.protocol e)

def readVarintLoop : Nat → UInt32 → UInt32 → Reader Int32
  | 0, _, _ => fail (.protocol (.varIntOverflow 5))
  | left + 1, i, result => do
    let byte ← readU8
    let result := result ||| ((byte &&& 0x7F).toUInt32 <<< (7 * i))
    if byte &&& 0x80 = 0 then return result.toInt32 else readVarintLoop left (i + 1) result

def readVarint : Reader Int32 := readVarintLoop 5 0 0

def maxPacketSize : Nat := 2 * 1024 * 1024

def readFrame : Reader (List UInt8) := do
  let len ← readVarint
  if len < 0 ∨ Decode.asUsize len > maxPacketSize then
    fail (.protocol (.packetTooLarge (Decode.asUsize len) maxPacketSize))
  readExact (Decode.asUsize len)

/-- The zlib decoder: the bytes it yields for an input, and the error it ends with, if any. -/
abbrev Inflate := List UInt8 → List UInt8 × Option IoErrorKind

/-- Reads exactly `n` bytes out of a zlib decoder and checks that nothing follows them. -/
def inflateExact (inflate : Inflate) (n : Nat) (src : List UInt8) : Reader (List UInt8) :=
  let (out, ending) := inflate src
  if out.length < n then fail (.io (ending.getD .unexpectedEof) "")
  else if n < out.length then fail (.protocol .unexpectedEof)
  else
    match ending with
    | none | some .unexpectedEof => return out
    | some kind => fail (.io kind "")

def decompress (inflate : Inflate) (body : List UInt8) : Reader (List UInt8) := do
  let (dataLen, cursor) ← decode Decode.varInt body
  if dataLen = 0 then return cursor
  if dataLen < 0 ∨ Decode.asUsize dataLen > maxPacketSize then
    fail (.protocol (.packetTooLarge (Decode.asUsize dataLen) maxPacketSize))
  inflateExact inflate (Decode.asUsize dataLen) cursor

def readPacket (inflate : Inflate) (threshold : Int32) : Reader (List UInt8) := do
  let body ← readFrame
  if 0 ≤ threshold then decompress inflate body else return body

end Reader

def timeout (ms : Nat) (x : Reader α) : StateM McStream (Option (Except ConnectionError α)) :=
  fun s =>
    let (result, t) := x.run { s with budget := some ms }
    let outcome := match result with
      | .ok a => some (.ok a)
      | .error (.failed e) => some (.error e)
      | .error .elapsed => none
    (outcome, { t with budget := none })

def untimed (x : Reader α) : StateM McStream (Except ConnectionError α) := fun s =>
  match x.run { s with budget := none } with
  | (.ok a, t) => (.ok a, t)
  | (.error (.failed e), t) => (.error e, t)
  | (.error .elapsed, t) => (.error (.io .timedOut ""), t)

end Kojacoord
