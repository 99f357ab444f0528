import Kojacoord.Net.Stream
import Kojacoord.Server
import Mathlib.Algebra.Group.Nat.Defs

namespace Kojacoord

namespace ProxyProtocol

inductive HeaderResult where
  | found (addr : SocketAddr)
  | notFound (bytes : List UInt8)

/-- What the header readers are configured with. A trusted network is its membership test, and
`parseIp` is the standard address parser. -/
structure Settings where
  trustedProxies : List (IpAddr → Bool)
  parseIp : String → Option IpAddr

def v1Sig : List UInt8 := [0x50, 0x52, 0x4F, 0x58, 0x59, 0x20]

def v2Sig : List UInt8 :=
  [0x0D, 0x0A, 0x0D, 0x0A, 0x00, 0x0D, 0x0A, 0x51, 0x55, 0x49, 0x54, 0x0A]

def headerCapacity : Nat := 512

def Settings.trusts (cfg : Settings) (peer : SocketAddr) : Bool :=
  cfg.trustedProxies.isEmpty || cfg.trustedProxies.any (· peer.ip)

def parseU16 (s : List Char) : Option UInt16 :=
  let digits : List Char := match s with
    | '+' :: digits => digits
    | digits => digits
  let value : Nat := digits.foldl (fun n c => n * 10 + (c.toNat - '0'.toNat)) 0
  if digits ≠ [] ∧ digits.all Char.isDigit ∧ value < 2 ^ 16 then some (.ofNat value) else none

def readV1Line : Nat → Reader (List UInt8)
  | 0 => Reader.fail (.io .invalidData "PROXY v1 header too long")
  | left + 1 => do
    let byte ← Reader.readU8
    if byte = 0x0A then return [byte] else return byte :: (← readV1Line left)

def v1Address (cfg : Settings) (header : List UInt8) : Option SocketAddr :=
  let line := ((String.fromUTF8? ⟨header.toArray⟩).getD "").toList
  match line.splitOn ' ' with
  | _ :: _ :: ip :: _ :: port :: _ :: _ =>
    match cfg.parseIp (.ofList ip), parseU16 port with
    | some ip, some port => some ⟨ip, port⟩
    | _, _ => none
  | _ => none

def readV2Block (head : List UInt8) : Reader (List UInt8) := do
  let addrLen := Decode.bigEndian (head.drop 14)
  if 16 + addrLen > headerCapacity then Reader.fail (.io .invalidData "PROXY v2 header too long")
  Reader.readExact addrLen

def v2Address (family : UInt8) (block : List UInt8) : Option SocketAddr :=
  let number (start len : Nat) := Decode.bigEndian ((block.drop start).take len)
  if family = 0x11 ∧ 12 ≤ block.length then some ⟨.v4 (.ofNat 32 (number 0 4)), .ofNat (number 8 2)⟩
  else if family = 0x21 ∧ 36 ≤ block.length then
    some ⟨.v6 (.ofNat 128 (number 0 16)), .ofNat (number 32 2)⟩
  else none

def readProxyHeaderOptional (cfg : Settings) (peer : SocketAddr) : Reader HeaderResult := do
  let found (addr : SocketAddr) (bytes : List UInt8) : HeaderResult :=
    if cfg.trusts peer then .found addr else .notFound bytes
  let first ← try some <$> Reader.readExact 6 catch
    | .failed (.io .unexpectedEof _) => pure none
    | e => throw e
  match first with
  | none => return .notFound []
  | some first =>
    if first = v1Sig then
      let header := first ++ (← readV1Line (headerCapacity - 6))
      match v1Address cfg header with
      | some addr => return found addr header
      | none => Reader.fail (.io .invalidData "Malformed PROXY v1 header")
    else if first = v2Sig.take 6 then
      let head := first ++ (← Reader.readExact 10)
      if head.take 12 ≠ v2Sig then return .notFound head
      let block ← readV2Block head
      match v2Address (head.getD 13 0) block with
      | some addr => return found addr (head ++ block)
      | none => return .notFound (head ++ block)
    else return .notFound first

def readProxyHeader (cfg : Settings) (current : SocketAddr) : Reader SocketAddr := do
  let believed (addr : SocketAddr) : SocketAddr := if cfg.trusts current then addr else current
  let first ← Reader.readExact 6
  if first = v1Sig then
    let header := first ++ (← readV1Line (headerCapacity - 6))
    match v1Address cfg header with
    | some addr => return believed addr
    | none => Reader.fail (.io .invalidData "Malformed PROXY v1 header")
  else if first = v2Sig.take 6 then
    let head := first ++ (← Reader.readExact 10)
    if head.take 12 ≠ v2Sig then Reader.fail (.io .invalidData "Invalid PROXY v2 signature")
    let block ← readV2Block head
    match v2Address (head.getD 13 0) block with
    | some addr => return believed addr
    | none =>
      Reader.fail (.io .invalidData "Malformed PROXY v2 header: unknown address family")
  else
    Reader.fail (.io .invalidData "Expected PROXY header, but signature did not match")

end ProxyProtocol

end Kojacoord
