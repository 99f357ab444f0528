import Kojacoord.Auth.Pipeline
import Kojacoord.Net.ProxyProtocol
import Kojacoord.Plugin.Events

namespace Kojacoord

inductive ConnectionState where
  | handshaking
  | status
  | login
  | configuration
  | play
deriving DecidableEq

structure LoginRequestS2C where
  entityId : Int32
  levelType : String
  gameMode : UInt8
  dimension : Int8
  difficulty : UInt8
  worldHeight : UInt8
  maxPlayers : UInt8

inductive ClientPacket where
  | statusResponse (json : String)
  | pongResponse (payload : Int64)
  | legacyMotd (json : String)
  | bedrockIncompatible
  | encryptionRequest (publicKey verifyToken : List UInt8)
  | setCompression (threshold : Int32)
  | loginSuccess (uuid : Uuid) (username : String) (properties : List ProfileProperty)
  | loginRequest (request : LoginRequestS2C)
  | loginDisconnect (reason : String)
  | legacyDisconnect (reason : String)
  | playDisconnect (reason : String)
  | resourcePack (packet : List UInt8)
  | systemMessage (text : String)

structure PlayerSession where
  uuid : Uuid
  username : String
  clientIp : IpAddr
  protocolVersion : UInt32
  state : ConnectionState
  currentServer : Option String
  transferred : Bool
  properties : List ProfileProperty

inductive MojangLookupError where
  | notFound (name : String)
  | network (message : String)
  | parse (message : String)

inductive Act where
  | peeked (byte : UInt8)
  | verified (profile : AuthenticatedProfile)
  | resolved (username : String) (answer : Except MojangLookupError Uuid)
  | wrote (packet : ClientPacket)
  | inserted (session : PlayerSession)
  | removed (uuid : Uuid)
  | asked (event : PluginEvent) (results : List HandlerResult)
  | noticed (notice : Notice)
  | connecting (uuid : Uuid)

inductive PropertySigError where
  | missingSignature
  | badPublicKey (why : String)
  | base64 (what why : String)
  | rsaVerify (why : String)

def PropertySigError.display : PropertySigError → String
  | missingSignature => "property is missing a signature (offline-mode property?)"
  | badPublicKey why => s!"mojang public key is malformed: {why}"
  | base64 what why => s!"base64 decode failed for {what}: {why}"
  | rsaVerify why => s!"RSA verification failed: {why}"

inductive RelaySegment where
  | switch (target : String) (outcome : Except ConnectionError Unit)
  | kicked (reason kickedFrom fallback : String) (outcome : Except ConnectionError Unit)

structure ConnectionConfig where
  proxyProtocol : Bool
  proxyProtocolOptional : Bool
  headers : ProxyProtocol.Settings
  auth : AuthConfig
  maxPlayers : Nat
  bypassUuids : List String
  kickMessage : String

/-- One connection's surroundings: configuration, libraries, and every answer it will get from
plugins, other servers and the rest of the proxy. -/
structure Env where
  config : ConnectionConfig
  lib : AuthLibrary
  inflate : Reader.Inflate
  verifyToken : List UInt8
  verifySession : String → String → Option IpAddr → Except AuthError AuthenticatedProfile
  accountLookup : String → Except MojangLookupError Uuid
  nameUuid : String → Uuid
  hyphenated : Uuid → String
  plaintext : String → String
  ipText : IpAddr → String
  statusSuffix : String
  onlinePlayers : Nat
  maintenanceEnabled : Bool
  /-- The configured key, if it parses, as its check of a value against a signature. -/
  mojangKey : Except PropertySigError (String → String → Except PropertySigError Unit)
  resourcePack : UInt32 → Option (List UInt8)
  builds : UInt32 → ClientPacket → Bool
  writeError : Nat → Option IoErrorKind
  subscribesPreLogin : Bool
  /-- What the plugins, in iteration order, answer to the `n`-th event of this connection. -/
  results : Nat → PluginEvent → List HandlerResult
  connectToBackend : Except ConnectionError String
  segments : List RelaySegment
  lastRelay : Except ConnectionError Unit

structure Client where
  stream : McStream
  addr : SocketAddr
  connState : ConnectionState
  protocolVersion : UInt32
  compressionThreshold : Int32
  writes : Nat
  events : Nat
  journal : List Act

def noCompression : Int32 := -1

def Client.new (arrivals : List Arrival) (addr : SocketAddr) : Client where
  stream := .plain arrivals
  addr := addr
  connState := .handshaking
  protocolVersion := 0
  compressionThreshold := noCompression
  writes := 0
  events := 0
  journal := []

abbrev Handler := ExceptT ConnectionError (StateM Client)

namespace Handler

def record (act : Act) : Handler Unit :=
  modify fun c => { c with journal := c.journal ++ [act] }

def setState (state : ConnectionState) : Handler Unit := modify fun c => { c with connState := state }

def onStream (x : StateM McStream α) : Handler α := fun c =>
  let (a, stream) := x c.stream
  (.ok a, { c with stream })

def orThrow : Except ConnectionError α → Handler α
  | .ok a => return a
  | .error e => throw e

def readWithin (ms : Nat) (message : String) (x : Reader α) : Handler α := do
  match ← onStream (timeout ms x) with
  | some r => orThrow r
  | none => throw (.io .timedOut message)

def readUntimed (x : Reader α) : Handler α := do
  orThrow (← onStream (untimed x))

def ignore (x : Handler Unit) : Handler Unit := tryCatch x fun _ => pure ()

variable (env : Env)

/-- Hands a packet to the socket. A failed write may have sent a part of it. -/
def write (packet : ClientPacket) : Handler Unit := do
  let c ← get
  set { c with writes := c.writes + 1, journal := c.journal ++ [Act.wrote packet] }
  match env.writeError c.writes with
  | none => return ()
  | some kind => throw (.io kind "")

def writeBuilt (packet : ClientPacket) : Handler Unit := do
  if env.builds (← get).protocolVersion packet then write env packet

def broadcast (event : PluginEvent) : Handler (List HandlerResult) := do
  let c ← get
  let results := env.results c.events event
  set { c with events := c.events + 1, journal := c.journal ++ [Act.asked event results] }
  return results

def dispatch (event : PluginEvent) : Handler Bool := do
  let d := dispatchPluginEvent event (← broadcast env event)
  modify fun c => { c with journal := c.journal ++ d.notices.map .noticed }
  return d.subjectKicked

end Handler

end Kojacoord
