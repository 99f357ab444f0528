import Kojacoord.Lib.Json
import Kojacoord.Net.ServerboundOrder
import Kojacoord.Protocol.Encode

namespace Kojacoord
open Journal

inductive Side where
  | client
  | backend
deriving DecidableEq

def Side.other : Side → Side
  | client => backend
  | backend => client

def encodeString (s : String) : List UInt8 :=
  encodeVarInt (Int32.ofNat s.toUTF8.data.toList.length) ++ s.toUTF8.data.toList

def encodePluginMessage (channel : String) (data : List UInt8) (protocol : UInt32) :
    Option (List UInt8) :=
  if nearest protocol ∈ [.v1_6_4, .v1_7_10, .v1_8] then
    if data.length > 65535 then none
    else some (encodeString channel ++ Encode.u16 (.ofNat data.length) ++ data)
  else some (encodeString channel ++ data)

def pluginMessagePacket (id : UInt8) (channel : String) (data : List UInt8) (protocol : UInt32) :
    List UInt8 :=
  encodeVarInt (.ofNat id.toNat) ++
    (encodePluginMessage channel data protocol).getD (encodeString channel ++ data)

def TransferResponse.toJson : TransferResponse → List Char
  | currentServer name =>
    "\x7b\"type\":\"current_server\",\"name\":".toList ++ Json.quote name ++ ['\x7d']
  | playerList count players =>
    "\x7b\"type\":\"player_list\",\"count\":".toList ++ (toString count).toList ++
      ",\"players\":".toList ++ (Json.Value.arr (players.map .str)).print ++ ['\x7d']

def TransferResponse.toBytes (response : TransferResponse) : List UInt8 :=
  (String.ofList response.toJson).toUTF8.data.toList

def TransferCommand.IsQuery (command : TransferCommand) : Prop :=
  command = .getServer ∨ command = .getPlayers

def encodeBcString (s : String) : List UInt8 :=
  let bytes := s.toUTF8.data.toList
  let len := min bytes.length 65535
  Encode.u16 (.ofNat len) ++ bytes.take len

def buildBcGetServerResponse (serverName : String) : List UInt8 := encodeBcString serverName

def buildBcGetPlayersResponse (players : List String) : List UInt8 :=
  encodeBcString ("\x00".intercalate players)

def TransferResponse.encodeOn (channel : String) (response : TransferResponse) : List UInt8 :=
  if channel = bungeecordChannel then
    match response with
    | currentServer name => buildBcGetServerResponse name
    | playerList _ players => buildBcGetPlayersResponse players
  else response.toBytes

namespace PumpEnv
variable (env : PumpEnv)

def pluginMessageIdTo : Side → UInt8
  | .client => env.cbPluginMessageId
  | .backend => env.sbPluginMessageId

def buildPluginMessagePacket (channel : String) (data : List UInt8) : List UInt8 :=
  pluginMessagePacket env.cbPluginMessageId channel data env.protocol

def buildServerboundPluginMessagePacket (channel : String) (data : List UInt8) : List UInt8 :=
  pluginMessagePacket env.sbPluginMessageId channel data env.protocol

def replyTo (side : Side) (channel : String) (response : TransferResponse) : List UInt8 :=
  match side with
  | .client => env.buildPluginMessagePacket channel (response.encodeOn channel)
  | .backend => env.buildServerboundPluginMessagePacket channel (response.encodeOn channel)

def withReplies : PumpEnv :=
  { env with
    buildTransferReply := fun response =>
      env.buildPluginMessagePacket kojacoordChannel response.toBytes }

/-- What an act writes, and to which side; the chat lines and the farewells of the proxy are not
plugin messages. -/
def writeOf : RelayAct → Option (Side × Option (List UInt8))
  | .wroteClient (.pluginMessage channel data) =>
    some (.client, some (env.buildPluginMessagePacket channel data))
  | .wroteClient (.systemMessage _) | .wroteClient (.disconnect _) => some (.client, none)
  | .wroteBackend (.forwarded payload) => some (.backend, some payload)
  | .wroteBackend (.response response) => some (.backend, some (env.buildTransferReply response))
  | .wroteBackend (.queued raw) => some (.backend, some raw)
  | .injected packet => some (.client, some packet)
  | .asked .. | .noticed _ | .broadcast _ | .storedCookie _ => none

def writesOf : Except ConnectionError Verdict → List (Side × Option (List UInt8))
  | .ok (.direct raw) | .ok (.queue raw) => [(.client, some raw)]
  | .ok .skip | .ok (.kicked _) | .error _ => []

def writes (sender : Side) (n : Nat) (r : Relay) (payload : List UInt8) :
    List (Side × Option (List UInt8)) :=
  match sender with
  | .client =>
    (added Relay.journal (RelayM.iteration env.toRelayEnv payload) r).filterMap env.writeOf
  | .backend => writesOf (ExceptT.run (RelayM.verdict env n payload) r).1

def Asks (sender : Side) (payload : List UInt8) (channel : String) : Prop :=
  ∃ body data query, splitId payload = some (env.pluginMessageIdTo sender.other, body) ∧
    decodeServerboundPluginMessage body env.protocol = .ok ⟨channel, data⟩ ∧
    parseCommand env.transfer channel data = some query ∧ query.IsQuery

/-- It is answered as it should be: to its sender, with the id of that direction, on its channel
and in the encoding of that. -/
def Answered (sender : Side) (n : Nat) (r : Relay) (payload : List UInt8) (channel : String) :
    Prop :=
  ∃ response, (sender, some (env.replyTo sender channel response)) ∈ env.writes sender n r payload

end PumpEnv

theorem channel_of_parseCommand (h : parseCommand lib channel data = some command) :
    channel ≠ "minecraft:cookie_response" ∧ ServerSelector.isServerlistChannel channel = false ∧
      ServerSelector.isConnectChannel channel = false ∧
      ServerSelector.isModpackChannel channel = false := by
  rw [parseCommand] at h
  split at h
  · rename_i hchan
    rw [hchan]
    decide
  · split at h
    · rename_i hchan
      rw [hchan]
      decide
    · cases h

theorem splitId_eq_some {id : UInt8} (h : splitId payload = some (id, body)) :
    ∃ v, Decode.varInt payload = .ok (v, body) ∧ ¬(v < 0 ∨ 255 < v) ∧
      v.toInt.toNat.toUInt8 = id := by
  rw [splitId] at h
  split at h
  · rename_i v rest hv
    split at h
    · cases h
    · rename_i hrng
      cases h
      exact ⟨v, hv, hrng, rfl⟩
  · cases h

namespace RelayM
variable {env : RelayEnv} {id : UInt8} {body payload : List UInt8} {msg : PluginMessage}

def Mute : RelayAct → Prop
  | .wroteClient (.pluginMessage _ _) | .injected _ => False
  | _ => True

theorem mute_checkMovement : Keeps Relay.journal Mute (checkMovement env id body) := by
  unfold checkMovement
  split
  · apply Keeps.bind (acts_broadcast fun _ => trivial).1
    intro results
    split
    · exact (Acts.bind (.ignore (acts_writeClient trivial)) fun _ => .throw).1
    · exact .pure
  · exact .pure

theorem run_query (hque : query.IsQuery) :
    ∃ response, ExceptT.run (handleTransferCommand env query) r = (.ok (some response), r) := by
  rcases hque with rfl | rfl
  · exact ⟨_, rfl⟩
  · exact ⟨_, rfl⟩

theorem run_handlePluginMessage (hque : query.IsQuery)
    (h : parseCommand env.transfer msg.channel msg.data = some query) :
    ∃ response, ExceptT.run (handlePluginMessage env msg) r =
      ExceptT.run (writeBackend env (.response response) >>= fun _ => pure (some .continue)) r := by
  obtain ⟨hcoo, hser, hcon, hmod⟩ := channel_of_parseCommand h
  obtain ⟨response, hresp⟩ := run_query hque
  refine ⟨response, ?_⟩
  have hsto : storeCookie env msg = pure () := by simp [storeCookie, hcoo]
  rw [handlePluginMessage, hsto, pure_bind]
  simp only [hser, hcon, hmod, Bool.false_eq_true, if_false]
  rw [h]
  rcases hque with rfl | rfl
  · rw [run_bind_ok _ hresp]
  · rw [run_bind_ok _ hresp]

theorem run_afterMovement (hque : query.IsQuery)
    (hdec : decodeServerboundPluginMessage body env.protocol = .ok msg)
    (h : parseCommand env.transfer msg.channel msg.data = some query) :
    ∃ response, ExceptT.run (afterMovement env env.sbPluginMessageId payload body) r =
      ExceptT.run (writeBackend env (.response response) >>= fun _ => pure .continue) r := by
  obtain ⟨response, hmsg⟩ := run_handlePluginMessage hque h
  refine ⟨response, ?_⟩
  rw [afterMovement, routePluginMessage, if_pos rfl, hdec]
  rw [run_bind, hmsg, ← run_bind, bind_assoc]
  rfl

theorem mute_iteration (env : RelayEnv) (hque : query.IsQuery)
    (hspl : splitId payload = some (env.sbPluginMessageId, body))
    (hdec : decodeServerboundPluginMessage body env.protocol = .ok msg)
    (h : parseCommand env.transfer msg.channel msg.data = some query) (r : Relay) :
    ∀ act ∈ added Relay.journal (iteration env payload) r, Mute act := by
  obtain ⟨v, hv, hrng, hid⟩ := splitId_eq_some hspl
  rw [iteration_eq hv hrng, hid]
  -- An id can stand for movements too, and then the plugins may throw the client out first.
  rcases hmov : ExceptT.run (checkMovement env env.sbPluginMessageId body) r with ⟨result, t⟩
  cases result with
  | error e =>
    rw [added_bind_error hmov]
    exact mute_checkMovement.added r
  | ok _ =>
    obtain ⟨response, haft⟩ := run_afterMovement hque hdec h
    have hrep : Keeps Relay.journal Mute
        (writeBackend env (.response response) >>= fun _ => pure Flow.continue) :=
      .bind (acts_writeBackend trivial).1 fun _ => .pure
    have hlat := hrep.added t
    rw [added, ← haft] at hlat
    have hafte : Traces Relay.journal (afterMovement env env.sbPluginMessageId payload body)
      _ := writes_afterMovement hspl
    rw [added_bind_ok (f := fun _ => afterMovement env env.sbPluginMessageId payload body)
      mute_checkMovement hafte hmov]
    intro act hact
    rcases List.mem_append.mp hact with hact | hact
    · exact mute_checkMovement.added r act hact
    · exact hlat act hact

end RelayM

namespace PumpEnv

theorem writesOf_client (result : Except ConnectionError Verdict) :
    ∀ write ∈ writesOf result, write.1 = .client := by
  intro write hwr
  unfold writesOf at hwr
  split at hwr
  · rw [List.mem_singleton.mp hwr]
  · rw [List.mem_singleton.mp hwr]
  all_goals cases hwr

theorem writeOf_mute {env : PumpEnv} (h : RelayM.Mute act) :
    env.writeOf act ≠ some (.client, some raw) := by
  unfold writeOf
  split <;> simp_all [RelayM.Mute]

/-- No query is ever answered as it should be. -/
theorem query_never_answered (env : PumpEnv) (sender : Side) (n : Nat) (r : Relay)
    (payload : List UInt8) (channel : String) (h : env.Asks sender payload channel) :
    ¬ env.withReplies.Answered sender n r payload channel := by
  obtain ⟨body, data, query, hsplit, hdecode, hcommand, hquery⟩ := h
  rintro ⟨response, hwrite⟩
  cases sender with
  | client =>
    obtain ⟨act, hact, hwrote⟩ := List.mem_filterMap.mp hwrite
    have hmute := RelayM.mute_iteration env.toRelayEnv hquery hsplit hdecode hcommand r
    exact writeOf_mute (hmute act hact) hwrote
  | backend => exact absurd (writesOf_client _ _ hwrite) (by simp)

def messagePump : PumpEnv :=
  { lobbyPump with
    cbPlay := fun name =>
      if name = "ClientboundPluginMessage" then 0x18 else lobbyPump.cbPlay name }

def getServerPacket (id : UInt8) : List UInt8 :=
  [id, 10] ++ "BungeeCord".toUTF8.data.toList ++ [0, 9] ++ "GetServer".toUTF8.data.toList

theorem asks_getServer :
    messagePump.Asks sender (getServerPacket (messagePump.pluginMessageIdTo sender.other))
      "BungeeCord" := by
  have hchan : Decode.string (getServerPacket 0).tail =
      .ok ("BungeeCord", [0, 9] ++ "GetServer".toUTF8.data.toList) := by decide +kernel
  have hcmd : parseCommand messagePump.transfer "BungeeCord"
      ([0, 9] ++ "GetServer".toUTF8.data.toList) = some .getServer := by decide +kernel
  refine ⟨(getServerPacket 0).tail, _, .getServer, ?_, ?_, hcmd, .inl rfl⟩
  · cases sender <;> rfl
  · rw [decodeServerboundPluginMessage, hchan]
    rfl

theorem query_never_answered_client :
    ¬ messagePump.withReplies.Answered .client 0 (.start lobbyShared) (getServerPacket 0x10)
      "BungeeCord" :=
  query_never_answered messagePump .client 0 (.start lobbyShared) (getServerPacket 0x10)
    "BungeeCord" asks_getServer

/-- The backend asks which server the player is on, and the client is told so, in JSON. -/
theorem reply_to_wrong_side :
    messagePump.Asks .backend (getServerPacket 0x18) "BungeeCord" ∧
      messagePump.withReplies.writes .backend 0 (.start lobbyShared) (getServerPacket 0x18) =
        [(.client, some ([0x18, 14] ++ "kojacoord:send".toUTF8.data.toList ++
          "\x7b\"type\":\"current_server\",\"name\":\"unknown\"\x7d".toUTF8.data.toList))] :=
  ⟨asks_getServer, by decide +kernel⟩

end PumpEnv

end Kojacoord
