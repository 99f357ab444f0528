import Kojacoord.Net.Commands
import Kojacoord.Net.Transfer

namespace Kojacoord
open ProtocolVersion

inductive KickReason where
  | malformedPacket
  | oversizedString
  | illegalChatCharacters
  | custom (title detail : String)

inductive ChatSigningMode where
  | signed
  | unsigned
  | preserve
deriving DecidableEq

inductive SynthesisMode where
  | none
  | clientSide
  | backendSide
deriving DecidableEq

/-- Versions from 1.19 on sign chat messages, and unknown ones are taken to do so too. -/
def supportsChatSigning (protocol : UInt32) : Bool :=
  (fromId protocol).epoch ∈ [.v1_19, .v1_20, .v1_21Plus, .unknown]

def determineSigningMode (client backend : UInt32) : ChatSigningMode :=
  match supportsChatSigning client, supportsChatSigning backend with
  | true, true | false, false => .preserve
  | true, false | false, true => .unsigned

def determineSynthesisMode (client backend : UInt32) : SynthesisMode :=
  match (fromId client).hasConfigurationPhase,
    (fromId backend).hasConfigurationPhase with
  | true, false => .clientSide
  | false, true => .backendSide
  | _, _ => .none

/-- `char::is_control`. -/
def isControl (c : Char) : Bool := c.toNat < 0x20 || (0x7f ≤ c.toNat && c.toNat < 0xa0)

def checkChatMessage (text : String) : Except KickReason Unit :=
  if text.utf8ByteSize > 256 then .error .oversizedString
  else if text.toList.any fun c => c = '\x00' || (isControl c && c ≠ '\n') then
    .error .illegalChatCharacters
  else .ok ()

inductive ToClient where
  | pluginMessage (channel : String) (data : List UInt8)
  | systemMessage (text : String)
  | disconnect (reason : KickReason)

inductive ToBackend where
  | forwarded (payload : List UInt8)
  | response (response : TransferResponse)
  | queued (raw : List UInt8)

/-- What the client-to-server half of a relay does that others can see, apart from the accounting
of players. -/
inductive RelayAct where
  | wroteClient (packet : ToClient)
  | wroteBackend (packet : ToBackend)
  | asked (event : PluginEvent) (results : List HandlerResult)
  | noticed (notice : Notice)
  | broadcast (line : String)
  | injected (packet : List UInt8)
  | storedCookie (data : List UInt8)

/-- One relay's surroundings: its player, the versions on both sides, and every answer it will get
from plugins, libraries and sockets. -/
structure RelayEnv where
  config : ProxyConfig
  conn : ConnId
  uuid : Uuid
  username : String
  protocol : UInt32
  backendProtocol : UInt32
  chatSigningTranslation : Bool
  cookiesTransfersPassthrough : Bool
  sbPlay : String → UInt8
  subscribesMove : Bool
  /-- What the plugins, in iteration order, answer to the `n`-th event of this relay. -/
  results : Nat → PluginEvent → List HandlerResult
  transfer : TransferLibrary
  commands : CommandEnv
  stripChatSignature : List UInt8 → Except String (List UInt8)
  cfgPackets : Except String (List (List UInt8))
  serverlistPayload : Nat → List UInt8
  playerNames : List String
  redText : String → String
  clientError : Nat → Option ConnectionError
  backendError : Nat → Option ConnectionError

namespace RelayEnv
variable (env : RelayEnv)

def sbPluginMessageId : UInt8 := env.sbPlay "ServerboundPluginMessage"
def sbChatCommandId : UInt8 := env.sbPlay "ServerboundChatCommand"
def sbMovePosId : UInt8 := env.sbPlay "ServerboundMovePlayerPos"
def sbMovePosRotId : UInt8 := env.sbPlay "ServerboundMovePlayerPosRot"

def chatPacketIds : List UInt8 :=
  let chat := env.sbPlay "ServerboundChatMessage"
  if nearest env.protocol ∈ [.v1_6_4, .v1_7_10, .v1_8, .v1_12_2, .v1_16_5] then [chat]
  else if env.sbChatCommandId ≠ 0xFF ∧ env.sbChatCommandId ≠ chat then [chat, env.sbChatCommandId]
  else [chat]

def chatSigningMode : Option ChatSigningMode :=
  if env.chatSigningTranslation then some (determineSigningMode env.protocol env.backendProtocol)
  else none

def supportsCookies : Bool := 765 ≤ (fromId env.protocol).id

end RelayEnv

def State.accessed (s : State) : Label → Option (Uuid × Tick)
  | .access c i =>
    match s.conns[c]? with
    | some k =>
      match k.ops[i]? with
      | some (_, o) => (o.tick s.registry k).map fun t => (k.uuid, t)
      | none => none
    | none => none
  | _ => none

/-- What a relay shares with the rest of the proxy, with every access to a player counter so far. -/
structure Shared where
  proxy : State
  ledger : List (Uuid × Tick)

def Shared.perform (cfg : ProxyConfig) (s : Shared) (l : Label) : Shared :=
  match step cfg s.proxy l with
  | some proxy => ⟨proxy, s.ledger ++ (s.proxy.accessed l).toList⟩
  | none => s

def Shared.nextOp (s : Shared) (c : ConnId) : Nat :=
  match s.proxy.conns[c]? with
  | some k => k.ops.length
  | none => 0

/-- Starts an operation on a session and makes all its accesses, with no other task in between. -/
def Shared.performWhole (cfg : ProxyConfig) (l : Label) (c : ConnId) (accesses : Nat) (s : Shared) :
    Shared :=
  (l :: List.replicate accesses (.access c (s.nextOp c))).foldl (perform cfg) s

structure Relay where
  shared : Shared
  switchTarget : Option String
  clientWrites : Nat
  backendWrites : Nat
  events : Nat
  journal : List RelayAct

def Relay.start (shared : Shared) : Relay where
  shared := shared
  switchTarget := none
  clientWrites := 0
  backendWrites := 0
  events := 0
  journal := []

abbrev RelayM := ExceptT ConnectionError (StateM Relay)

inductive Flow where
  | continue
  | finish
deriving DecidableEq

namespace RelayM

def record (act : RelayAct) : RelayM Unit :=
  modify fun r => { r with journal := r.journal ++ [act] }

def share (f : Shared → Shared) : RelayM Unit := modify fun r => { r with shared := f r.shared }

def ignore (x : RelayM Unit) : RelayM Unit := tryCatch x fun _ => pure ()

variable (env : RelayEnv)

def writeClient (packet : ToClient) : RelayM Unit := do
  let r ← get
  set { r with
    clientWrites := r.clientWrites + 1, journal := r.journal ++ [RelayAct.wroteClient packet] }
  match env.clientError r.clientWrites with
  | none => return ()
  | some e => throw e

def writeBackend (packet : ToBackend) : RelayM Unit := do
  let r ← get
  set { r with
    backendWrites := r.backendWrites + 1, journal := r.journal ++ [RelayAct.wroteBackend packet] }
  match env.backendError r.backendWrites with
  | none => return ()
  | some e => throw (.backend e)

def kick (reason : KickReason) : RelayM α := do
  ignore (writeClient env (.disconnect reason))
  throw .closed

def broadcast (event : PluginEvent) : RelayM (List HandlerResult) := do
  let r ← get
  let results := env.results r.events event
  set { r with events := r.events + 1, journal := r.journal ++ [RelayAct.asked event results] }
  return results

def dispatch (event : PluginEvent) : RelayM Bool := do
  let d := dispatchPluginEvent event (← broadcast env event)
  modify fun r => { r with journal := r.journal ++ d.notices.map .noticed }
  return d.subjectKicked

def requestSwitch (server : String) : RelayM Bool := do
  let registry := (← get).shared.proxy.registry
  let reject (reason : String) : RelayM Bool := do
    writeClient env (.systemMessage (env.redText reason))
    return false
  match registry.get server with
  | some b =>
    if (registry.server b).isOnline then
      modify fun r => { r with switchTarget := some server }
      return true
    else reject ("Server '" ++ server ++ "' is currently offline.")
  | none => reject ("Unknown server '" ++ server ++ "'.")

def switchOr (server : String) : RelayM Flow := do
  if ← requestSwitch env server then return .finish else return .continue

def currentServer : RelayM (Option String) := do
  return (← get).shared.proxy.conns[env.conn]?.bind Conn.currentServer

def handleTransferCommand : TransferCommand → RelayM (Option TransferResponse)
  | .connect server => do
    share (.performWhole env.config (.connect env.conn server) env.conn 4)
    return none
  | .connectOther server uuid => do
    match (← get).shared.proxy.sessions.lookup uuid with
    | some c =>
      share (.performWhole env.config (.transfer uuid server true) c 4)
      return none
    | none => return none
  | .getServer => do
    return some (.currentServer ((← currentServer env).getD "unknown"))
  | .getPlayers => do
    let players := env.playerNames.filter (· ≠ "")
    return some (.playerList players.length players)

end RelayM

namespace RelayEnv
variable (env : RelayEnv)

def moveEvent (id : UInt8) (body : List UInt8) : Option PluginEvent :=
  if (id = env.sbMovePosRotId || id = env.sbMovePosId) && env.subscribesMove then
    let position : Decoder (UInt64 × UInt64 × UInt64) := do
      return (← Decode.f64, ← Decode.f64, ← Decode.f64)
    let skip (rest : List UInt8) := match Decode.f32 rest with
      | .ok (_, rest) => rest
      | .error _ => rest
    match position body with
    | .ok ((x, y, z), rest) =>
      let rest := if id = env.sbMovePosRotId then skip (skip rest) else rest
      let onGround := match Decode.bool rest with
        | .ok (onGround, _) => onGround
        | .error _ => false
      some (.playerMove env.uuid x y z onGround)
    | .error _ => none
  else none

def moveKick (results : List HandlerResult) : Option String :=
  (broadcastEvent results).findSome? fun
    | .kickPlayer uuid reason => if uuid = env.uuid then some reason else none
    | _ => none

end RelayEnv

namespace RelayM
variable (env : RelayEnv)

def checkMovement (id : UInt8) (body : List UInt8) : RelayM Unit := do
  match env.moveEvent id body with
  | some event =>
    let results ← broadcast env event
    match env.moveKick results with
    | some reason => kick env (.custom "Anticheat Violation" reason)
    | none => return ()
  | none => return ()

def storeCookie (msg : PluginMessage) : RelayM Unit := do
  if env.supportsCookies && env.cookiesTransfersPassthrough &&
      msg.channel = "minecraft:cookie_response" then
    record (.storedCookie msg.data)

def handlePluginMessage (msg : PluginMessage) : RelayM (Option Flow) := do
  storeCookie env msg
  if ServerSelector.isServerlistChannel msg.channel then
    let payload := env.serverlistPayload (← get).clientWrites
    writeClient env (.pluginMessage msg.channel payload)
    return some .continue
  else if ServerSelector.isConnectChannel msg.channel then
    match ServerSelector.parseConnectPayload msg.data with
    | some server => return some (← switchOr env server)
    | none => return some .continue
  else if ServerSelector.isModpackChannel msg.channel then
    let _ ← broadcast env (.pluginMessage env.uuid msg.channel msg.data)
    return some .continue
  else
    match parseCommand env.transfer msg.channel msg.data with
    | some (.connect server) => return some (← switchOr env server)
    | some command =>
      match ← handleTransferCommand env command with
      | some response =>
        writeBackend env (.response response)
        return some .continue
      | none => return some .continue
    | none => return none

def routePluginMessage (id : UInt8) (body : List UInt8) : RelayM (Option Flow) := do
  if id = env.sbPluginMessageId then
    match decodeServerboundPluginMessage body env.protocol with
    | .ok msg => handlePluginMessage env msg
    | .error _ => return none
  else return none

inductive ChatOutcome where
  | done (flow : Flow)
  | forward (payload : List UInt8)

def handleChatCommand (line : String) (payload : List UInt8) : RelayM ChatOutcome := do
  let registry := (← get).shared.proxy.registry
  let reply := Commands.handleCommand env.commands env.config registry (← currentServer env) line
  modify fun r => { r with journal := r.journal ++ reply.notices.map .noticed }
  tellAll reply.messages
  match reply.result with
  | .switch target => return .done (← switchOr env target)
  | .handled => return .done .continue
  | .notACommand | .error _ => return .forward payload
where
  tellAll : List String → RelayM Unit
    | [] => return ()
    | message :: rest => do
      ignore (writeClient env (.systemMessage message))
      tellAll rest

/-- A plain line goes to the plugins and then to everyone, but never to the backend. -/
def handlePlainChat (text : String) : RelayM ChatOutcome := do
  if ← dispatch env (.playerChat env.uuid text) then return .done .finish
  else
    record (.broadcast (env.username ++ ": " ++ text))
    return .done .continue

def handleChat (id : UInt8) (payload : List UInt8) (text : String) : RelayM ChatOutcome := do
  let isCommandPacket := env.sbChatCommandId ≠ 0xFF ∧ id = env.sbChatCommandId
  let slashed := text.toList.head? = some '/'
  match checkChatMessage text with
  | .error reason => kick env reason
  | .ok () =>
    let modified := if env.chatSigningMode = some .unsigned then
        match env.stripChatSignature payload with
        | .ok stripped => stripped
        | .error _ => payload
      else payload
    if isCommandPacket ∨ slashed then
      handleChatCommand env (if slashed then text else "/" ++ text) modified
    else handlePlainChat env text

def routeChat (id : UInt8) (payload body : List UInt8) : RelayM ChatOutcome := do
  if id ∈ env.chatPacketIds then
    match Decode.string body with
    | .ok (text, _) => handleChat env id payload text
    | .error _ => return .forward payload
  else return .forward payload

/-- A modern client of an old backend gets the configuration packets it waits for. -/
def injectConfiguration (id : UInt8) : RelayM Unit := do
  if determineSynthesisMode env.protocol env.backendProtocol = .clientSide ∧ id = 0x03 ∧
      (fromId env.protocol).hasConfigurationPhase then
    match env.cfgPackets with
    | .ok packets => modify fun r => { r with journal := r.journal ++ packets.map .injected }
    | .error _ => return ()

def iteration (payload : List UInt8) : RelayM Flow := do
  match Decode.varInt payload with
  | .error _ => kick env .malformedPacket
  | .ok (v, body) =>
    if v < 0 ∨ 255 < v then
      writeBackend env (.forwarded payload)
      return .continue
    else
      let id := v.toInt.toNat.toUInt8
      checkMovement env id body
      match ← routePluginMessage env id body with
      | some flow => return flow
      | none =>
        match ← routeChat env id payload body with
        | .done flow => return flow
        | .forward payload =>
          injectConfiguration env id
          writeBackend env (.forwarded payload)
          return .continue

def c2s : List (List UInt8) → RelayM Bool
  | [] => return false
  | payload :: rest => do
    match ← iteration env payload with
    | .continue => c2s rest
    | .finish => return true

end RelayM

def Shared.exit (env : RelayEnv) (why : RelayEnd) (s : Shared) : Shared :=
  s.performWhole env.config (.move env.conn (.stopRelay why)) env.conn 3

def Shared.relay (env : RelayEnv) (s : Shared) (packets : List (List UInt8)) : Shared :=
  match ExceptT.run (RelayM.c2s env packets) (.start s) with
  | (.ok false, r) => r.shared
  | (.ok true, r) =>
    match r.switchTarget with
    | some target => r.shared.exit env (.switch target)
    | none => r.shared.exit env .disconnected
  | (.error _, r) => r.shared.exit env .disconnected

end Kojacoord
