import Kojacoord.Net.Connection

namespace Kojacoord
open Serde

inductive TransferCommand where
  | connect (server : String)
  | connectOther (server : String) (uuid : Uuid)
  | getServer
  | getPlayers
deriving DecidableEq

inductive TransferResponse where
  | currentServer (name : String)
  | playerList (count : Nat) (players : List String)

def kojacoordChannel : String := "kojacoord:send"
def bungeecordChannel : String := "BungeeCord"

structure TransferLibrary where
  parseJson : List UInt8 → Option Value
  parseUuid : String → Option Uuid

def TransferCommand.decode (lib : TransferLibrary) (v : Value) : Option TransferCommand :=
  match v.tagged "action" with
  | some ("connect", body) =>
    (body.slots [("server", false)]).bind fun slots =>
    (required slots "server" Value.asString).map .connect
  | some ("connect_other", body) =>
    (body.slots [("server", false), ("uuid", false)]).bind fun slots =>
    (required slots "server" Value.asString).bind fun server =>
    (required slots "uuid" fun v => v.asString.bind lib.parseUuid).map (.connectOther server)
  | some ("get_server", body) => if body.isUnit then some .getServer else none
  | some ("get_players", body) => if body.isUnit then some .getPlayers else none
  | _ => none

def parseKojacoord (lib : TransferLibrary) (data : List UInt8) : Option TransferCommand :=
  if data.length > 65536 then none else (lib.parseJson data).bind (TransferCommand.decode lib)

def readBcString : List UInt8 → Option (String × List UInt8)
  | hi :: lo :: rest =>
    let len := Decode.bigEndian [hi, lo]
    if rest.length < len then none
    else (String.fromUTF8? ⟨(rest.take len).toArray⟩).map fun s => (s, rest.drop len)
  | _ => none

def parseBungeecord (lib : TransferLibrary) (data : List UInt8) : Option TransferCommand :=
  match readBcString data with
  | some ("Connect", rest) =>
    (readBcString rest).bind fun (server, _) => if server = "" then none else some (.connect server)
  | some ("ConnectOther", rest) =>
    (readBcString rest).bind fun (server, rest) =>
    (readBcString rest).bind fun (uuid, _) =>
      if server = "" ∨ uuid = "" then none else (lib.parseUuid uuid).map (.connectOther server)
  | some ("GetServer", _) => some .getServer
  | some ("GetPlayers", _) => some .getPlayers
  | _ => none

def parseCommand (lib : TransferLibrary) (channel : String) (data : List UInt8) :
    Option TransferCommand :=
  if channel = kojacoordChannel then parseKojacoord lib data
  else if channel = bungeecordChannel then parseBungeecord lib data
  else none

structure PluginMessage where
  channel : String
  data : List UInt8

inductive PluginMessageError where
  | decode (message : String)
  | encode (message : String)
  | unexpectedEof
  | dataTooShort (expected got : Nat)
  | dataTooLarge (size maximum : Nat)

/-- Until 1.8 the data has a length of its own; later it is what is left of the packet. -/
def decodeServerboundPluginMessage (payload : List UInt8) (protocol : UInt32) :
    Except PluginMessageError PluginMessage :=
  match Decode.string payload with
  | .error e => .error (.decode ("channel: " ++ e.display))
  | .ok (channel, rest) =>
    if nearest protocol ∈ [.v1_6_4, .v1_7_10, .v1_8] then
      match rest with
      | hi :: lo :: rest =>
        let length := Decode.bigEndian [hi, lo]
        if rest.length < length then .error (.dataTooShort length rest.length)
        else .ok ⟨channel, rest.take length⟩
      | _ => .error .unexpectedEof
    else .ok ⟨channel, rest⟩

namespace ServerSelector

def isServerlistChannel (channel : String) : Bool :=
  channel = "kojacoord:serverlist" || channel = "KOJACRD|SERVERS"

def isConnectChannel (channel : String) : Bool :=
  channel = "kojacoord:connect" || channel = "KOJACRD|CONNECT"

def isModpackChannel (channel : String) : Bool :=
  channel = "kojacoord:modpack" || channel = "KOJACRD|MODPACK"

def parseConnectPayload (data : List UInt8) : Option String :=
  (String.fromUTF8? ⟨data.toArray⟩).bind fun text =>
    let name := trim text
    if name = "" then none else some name

end ServerSelector

end Kojacoord
