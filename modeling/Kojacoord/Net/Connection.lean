import Kojacoord.Net.Client

namespace Kojacoord
open Decode

def redLiteral (text : String) : String :=
  "\x7b\"text\":\"" ++ text ++ "\",\"color\":\"red\"\x7d"

namespace Handler
variable (env : Env)

def canonical : Handler CanonicalVersion := do
  return (nearest (← get).protocolVersion).canonicalTypedPacketVersion

def compresses (protocol : UInt32) : Bool :=
  (nearest protocol).epoch ≠ .preNetty && (nearest protocol).epoch ≠ .v1_7

def sendSetCompressionWithThreshold (threshold : Int32) : Handler Unit := do
  if compresses (← get).protocolVersion then writeBuilt env (.setCompression threshold)

def sendEncryptionRequest (publicKey token : List UInt8) : Handler Unit :=
  writeBuilt env (.encryptionRequest publicKey token)

def sendLoginSuccess (uuid : Uuid) (username : String) (properties : List ProfileProperty) :
    Handler Unit := do
  if (← canonical) = .v1_6_4 then
    write env (.loginRequest
      { entityId := 0, levelType := "flat", gameMode := 3, dimension := 0, difficulty := 0,
        worldHeight := 0, maxPlayers := 20 })
  else writeBuilt env (.loginSuccess uuid username properties)

def sendDisconnectLogin (reason : String) : Handler Unit := do
  if isPreNettyProto (← get).protocolVersion then
    write env (.legacyDisconnect (env.plaintext reason))
  else writeBuilt env (.loginDisconnect reason)

def sendPlayDisconnect (reason : String) : Handler Unit := writeBuilt env (.playDisconnect reason)

def sendGracefulKick (error : ConnectionError) : Handler Unit := do
  if error.clientGone then return ()
  let reason := env.lib.redText ("Disconnected: " ++ error.disconnectReasonText)
  match (← get).connState with
  | .login | .configuration => ignore (sendDisconnectLogin env reason)
  | .play => ignore (sendPlayDisconnect env reason)
  | .status | .handshaking => return ()

end Handler

def verifyProperties (verify : String → String → Except PropertySigError Unit) :
    List ProfileProperty → Except PropertySigError Nat
  | [] => .ok 0
  | p :: rest => do
    let some signature := p.signature | throw .missingSignature
    verify p.value signature
    return (← verifyProperties verify rest) + 1

def eqIgnoreAsciiCase (a b : String) : Bool := a.toList.map Char.toLower = b.toList.map Char.toLower

def Env.maintenanceBlocks (env : Env) (uuid : Uuid) : Bool :=
  env.maintenanceEnabled &&
    !env.config.bypassUuids.any fun allowed => eqIgnoreAsciiCase allowed (env.hyphenated uuid)

/-- The error of the signature check that an online login of a 1.7+ client goes through. A key that
does not parse lets everyone in. -/
def Env.signatureError (env : Env) (protocol : UInt32) (properties : List ProfileProperty) :
    Option PropertySigError :=
  let preNetty := (nearest protocol).canonicalTypedPacketVersion = .v1_6_4
  if env.config.auth.onlineMode && !decide preNetty && !properties.isEmpty then
    match env.mojangKey with
    | .ok verify =>
      match verifyProperties verify properties with
      | .ok _ => none
      | .error e => some e
    | .error _ => none
  else none

namespace Handler
variable (env : Env)

def checkLogin (uuid : Uuid) (properties : List ProfileProperty) : Handler Unit := do
  if env.maintenanceBlocks uuid then
    ignore (sendDisconnectLogin env (env.lib.redText env.config.kickMessage))
    throw (.auth "maintenance mode active")
  match env.signatureError (← get).protocolVersion properties with
  | some e =>
    ignore (sendDisconnectLogin env
      (env.lib.redText ("Profile signature check failed: " ++ e.display)))
    throw (.auth ("bad signature: " ++ e.display))
  | none => return ()

def insertSession (uuid : Uuid) (username : String) (properties : List ProfileProperty) :
    Handler Unit := do
  let c ← get
  record (.inserted
    { uuid, username, clientIp := c.addr.ip, protocolVersion := c.protocolVersion, state := .play,
      currentServer := none, transferred := false, properties })
  match env.resourcePack c.protocolVersion with
  | some packet => ignore (write env (.resourcePack packet))
  | none => return ()

def joinKicked (uuid : Uuid) (username : String) : Handler Bool := do
  if ← dispatch env (.postLogin uuid username) then return true
  dispatch env (.playerJoin uuid username)

def relayLoop (uuid : Uuid) : List RelaySegment → Handler (Except ConnectionError Unit)
  | [] => return env.lastRelay
  | .switch target outcome :: rest => do
    match outcome with
    | .ok () =>
      let _ ← dispatch env (.serverSwitch uuid none target)
      let _ ← dispatch env (.serverConnected uuid target)
      relayLoop uuid rest
    | .error e =>
      if !e.clientGone then
        ignore (sendPlayDisconnect env (redLiteral "Failed to connect to that server."))
      return .error e
  | .kicked reason kickedFrom fallback outcome :: rest => do
    let _ ← dispatch env (.serverKick uuid kickedFrom (env.plaintext reason))
    ignore (write env (.systemMessage ("You were kicked from the server: " ++ env.plaintext reason)))
    match outcome with
    | .ok () =>
      let _ ← dispatch env (.serverSwitch uuid none fallback)
      relayLoop uuid rest
    | .error e => return .error e

def play (uuid : Uuid) (username target : String) : Handler Unit := do
  let _ ← dispatch env (.serverConnect uuid target)
  let _ ← dispatch env (.serverConnected uuid target)
  setState .play
  let result ← relayLoop env uuid env.segments
  record (.removed uuid)
  let _ ← dispatch env (.playerLeave uuid)
  let _ ← dispatch env (.playerDisconnect uuid username)
  match result with
  | .ok () => return ()
  | .error e =>
    if !e.clientGone then
      ignore (sendPlayDisconnect env (env.lib.redText e.disconnectReasonText))
    throw e

def connectAndPlay (uuid : Uuid) (username : String) : Handler Unit := do
  record (.connecting uuid)
  match env.connectToBackend with
  | .ok target => play env uuid username target
  | .error e =>
    record (.removed uuid)
    if !e.clientGone then
      ignore (sendPlayDisconnect env (redLiteral "Could not connect to any backend server."))
    throw e

def finaliseLogin (uuid : Uuid) (username : String) (properties : List ProfileProperty) :
    Handler Unit := do
  checkLogin env uuid properties
  sendLoginSuccess env uuid username properties
  insertSession env uuid username properties
  if ← joinKicked env uuid username then
    record (.removed uuid)
    ignore (sendPlayDisconnect env (redLiteral "You were not allowed to join."))
    throw (.auth "join rejected by plugin")
  else connectAndPlay env uuid username

def verifySession : VerifySession Client := fun username serverHash ip =>
  match env.verifySession username serverHash ip with
  | .ok profile => do
    modify fun c => { c with journal := c.journal ++ [Act.verified profile] }
    return profile
  | .error e => throw e

def process (state : AuthState) (event : AuthEvent) : Handler (AuthState × List AuthOutbound) := do
  let ip := (← get).addr.ip
  (AuthPipeline.process env.config.auth env.lib env.verifyToken (verifySession env) state event ip :
    StateM Client _)

inductive LoginFlow where
  | finished
  | awaiting (encryptionRequested : Bool)

/-- The loops of `handle_login` over what the pipeline puts out. The second one, after the
encryption response, passes over encryption requests. -/
def sendOutbound (first : Bool) (requested : Bool) : List AuthOutbound → Handler LoginFlow
  | [] => return .awaiting requested
  | .encryptionRequest _ publicKey token :: rest => do
    if first then
      sendEncryptionRequest env publicKey token
      sendOutbound first true rest
    else sendOutbound first requested rest
  | .setCompression threshold :: rest => do
    sendSetCompressionWithThreshold env threshold
    modify fun c =>
      if compresses c.protocolVersion then { c with compressionThreshold := threshold } else c
    sendOutbound first requested rest
  | .loginSuccess uuid username properties :: _ => do
    finaliseLogin env uuid username properties
    return .finished
  | .loginDisconnect reason :: _ => do
    ignore (sendDisconnectLogin env reason)
    throw (.auth reason)
  | .enableEncryption secret :: rest => do
    modify fun c => { c with stream := { c.stream with cipher := some secret } }
    sendOutbound first requested rest

end Handler

def decodeClientUuid (version : ProtocolVersion) : Decoder (Option Uuid) :=
  let uuid : Decoder (Option Uuid) := do
    let hi ← i64
    let lo ← i64
    return some (hi.toBitVec ++ lo.toBitVec)
  if !version.hasLoginStartUuid then return none
  else if version.hasMandatoryLoginStartUuid then uuid
  else fun src =>
    match bool src with
    | .ok (true, src) => uuid src
    | _ => .ok (none, src)

def decodeEncryptionResponse (protocol : UInt32) : Decoder (List UInt8 × List UInt8) := do
  let _ ← varInt
  if (nearest protocol).epoch = .v1_7 then
    let secret ← counted (← i16).toInt
    let token ← counted (← i16).toInt
    return (secret, token)
  else
    let secret ← counted (← varInt).toInt
    if 759 ≤ protocol ∧ protocol ≤ 760 then
      if (← u8) ≠ 0 then return (secret, ← counted (← varInt).toInt)
      let _salt ← i64
      let _signature ← counted (← varInt).toInt
      return (secret, [])
    else return (secret, ← counted (← varInt).toInt)

namespace Handler
variable (env : Env)

def readDecoded (message : String) (d : Decoder α) : Handler (α × List UInt8) := do
  let threshold := (← get).compressionThreshold
  readWithin 10000 message do
    Reader.decode d (← Reader.readPacket env.inflate threshold)

def checkPreLogin (username : String) : Handler Unit := do
  if env.subscribesPreLogin then
    let address := env.ipText (← get).addr.ip
    let responses := broadcastEvent (← broadcast env (.preLogin username address))
    match responses.findSome? PluginResponse.denial with
    | some reason =>
      ignore (sendDisconnectLogin env (env.lib.redText reason))
      throw (.auth "login rejected by plugin")
    | none => return ()

def authenticate (username : String) (clientUuid : Option Uuid) : Handler Unit := do
  let (state, outbound) ← process env .awaitingLoginStart (.loginStart username clientUuid)
  match ← sendOutbound env true false outbound with
  | .finished => return ()
  | .awaiting false => throw (.auth "Authentication failed")
  | .awaiting true =>
    let protocol := (← get).protocolVersion
    let ((secret, token), _) ←
      readDecoded env "encryption response timed out" (decodeEncryptionResponse protocol)
    let (_, outbound) ← process env state (.encryptionResponse secret token protocol)
    match ← sendOutbound env false false outbound with
    | .finished => return ()
    | .awaiting _ => throw (.auth "Authentication failed")

def handleLogin : Handler Unit := do
  let (username, cursor) ← readDecoded env "login start timed out" do
    let _ ← varInt
    string
  let protocol := (← get).protocolVersion
  if !(ProtocolVersion.fromId protocol).isSupported then
    ignore (sendDisconnectLogin env (env.lib.redText
      (s!"Unsupported client version (protocol {protocol}). This proxy supports " ++
        "Minecraft 1.6.x – 26.2.")))
    throw (.auth s!"unsupported protocol version {protocol}")
  match decodeClientUuid (nearest protocol) cursor with
  | .error _ => throw (.auth "failed to decode client UUID")
  | .ok (clientUuid, _) =>
    let online := env.config.auth.onlineMode
    checkPreLogin env username
    authenticate env username (if online then clientUuid else some (env.lib.offlineUuid username))

end Handler

def trim (s : String) : String :=
  .ofList ((s.toList.dropWhile isWhitespace).reverse.dropWhile isWhitespace).reverse

def resolveMojangUuid (lookup : String → Except MojangLookupError Uuid) (username : String) :
    Except MojangLookupError Uuid :=
  let trimmed := trim username
  if trimmed = "" ∨ !trimmed.toUTF8.data.toList.all isNameByte then .error (.notFound username)
  else lookup trimmed

def raknetMagic : List UInt8 :=
  [0x00, 0xff, 0xff, 0x00, 0xfe, 0xfe, 0xfe, 0xfe, 0xfd, 0xfd, 0xfd, 0xfd, 0x12, 0x34, 0x56, 0x78]

/-- The drain loop of `handle_legacy_ping`. Every round but the last reads a byte, so 1024 rounds
are enough. -/
def drain : Nat → Nat → StateM McStream Unit
  | 0, _ => return ()
  | rounds + 1, drained => do
    match ← timeout 250 (Reader.read 256) with
    | some (.ok []) | some (.error _) | none => return ()
    | some (.ok bytes) =>
      if 1024 ≤ drained + bytes.length then return () else drain rounds (drained + bytes.length)

def Env.statusJson (env : Env) (protocol : UInt32) : Option (List PlayerSample) → String
  | some sample =>
    let players := sample.map fun p =>
      "\x7b\"name\":\"" ++ p.name ++ "\",\"uuid\":\"" ++ env.hyphenated p.uuid ++ "\"\x7d"
    "\x7b\"version\":\x7b\"name\":\"Koja\",\"protocol\":\"" ++ toString protocol ++
      "\"\x7d,\"players\":\x7b\"max\":" ++ toString env.config.maxPlayers ++ ",\"online\":" ++
      toString env.onlinePlayers ++ ",\"sample\":[" ++ ",".intercalate players ++ "]\x7d" ++
      env.statusSuffix ++ "\x7d"
  | none =>
    "\x7b\"version\":\x7b\"name\":\"Koja\",\"protocol\":" ++ toString protocol ++
      env.statusSuffix

namespace Handler
variable (env : Env)

def handleLegacyPing : Handler Unit := do
  onStream (drain 1024 0)
  write env (.legacyMotd (env.statusJson 78 none))

def peekLooksLikeBedrock : Handler Bool := do
  match ← onStream (timeout 200 (Reader.readExact 16)) with
  | some (.ok probe) => return probe = raknetMagic
  | _ => return false

def handleBedrockUnsupported : Handler Unit := do
  ignore (write env .bedrockIncompatible)
  throw .closed

def handleStatus : Handler Unit := do
  let _ ← readUntimed Reader.readVarint
  let _ ← readUntimed Reader.readVarint
  let results ← broadcast env (.serverListPing env.config.maxPlayers env.onlinePlayers [])
  let sample := (broadcastEvent results).findSome? PluginResponse.sample?
  write env (.statusResponse (env.statusJson (← get).protocolVersion sample))
  let threshold := (← get).compressionThreshold
  let (_, body) ← readUntimed do
    Reader.decode varInt (← Reader.readPacket env.inflate threshold)
  -- A payload that is too short panics in the source; the connection then ends as silently.
  match i64 body with
  | .ok (payload, _) => write env (.pongResponse payload)
  | .error _ => throw .closed

/-- The identity of a pre-netty player, who cannot be authenticated; none is a rejection. -/
def legacyIdentity (username : String) : Handler (Option Uuid) := do
  let answer := resolveMojangUuid env.accountLookup username
  record (.resolved username answer)
  match answer with
  | .ok uuid => return some uuid
  | .error (.notFound _) =>
    if env.config.auth.onlineMode then return none
    else return some (env.nameUuid ("OfflinePlayer:" ++ username))
  | .error _ => return some (env.nameUuid ("OfflinePlayer:" ++ username))

def handleLegacyLogin : Handler Unit := do
  let body ← readWithin 5000 "legacy handshake timed out" (Reader.read 1024)
  match HandshakeC2S.decode body with
  | .error _ => return ()
  | .ok (handshake, _) =>
    modify fun c =>
      { c with protocolVersion := handshake.protocolVersion.toUInt32, connState := .login }
    match ← legacyIdentity env handshake.username with
    | none =>
      ignore (write env (.legacyDisconnect (env.plaintext (redLiteral
        ("This server requires a Minecraft.net account. The username you joined with isn't " ++
          "registered.")))))
    | some uuid =>
      tryCatch (finaliseLogin env uuid handshake.username []) fun _ =>
        write env (.legacyDisconnect (env.plaintext (redLiteral
          "1.6.4 login is not yet supported by this proxy. Use 1.7+ to connect.")))

def readProxyHeaders : Handler Unit := do
  if env.config.proxyProtocol then
    let addr := (← get).addr
    if env.config.proxyProtocolOptional then
      match ← readUntimed (ProxyProtocol.readProxyHeaderOptional env.config.headers addr) with
      | .found real => modify fun c => { c with addr := real }
      | .notFound _ => return ()
    else
      let real ← readUntimed (ProxyProtocol.readProxyHeader env.config.headers addr)
      modify fun c => { c with addr := real }

def handleHandshake (peeked : List UInt8) : Handler Unit := do
  modify fun c => { c with stream := { c.stream with pushed := c.stream.pushed ++ peeked } }
  let (handshake, _) ← readDecoded env "handshake timed out" do
    let _ ← varInt
    ServerboundHandshake.decode
  modify fun c => { c with protocolVersion := handshake.protocolVersion.toUInt32 }
  if handshake.nextState = 1 then
    setState .status
    handleStatus env
  else if handshake.nextState = 2 then
    setState .login
    handleLogin env
  else throw .closed

def runInner : Handler Unit := do
  readProxyHeaders env
  match ← onStream (timeout 5000 Reader.readU8) with
  | some (.ok peek) =>
    record (.peeked peek)
    if peek = 0xFE then handleLegacyPing env
    else
      let bedrock ← if peek = 0x05 then peekLooksLikeBedrock else pure false
      if bedrock then handleBedrockUnsupported env
      else if peek = 0x02 then handleLegacyLogin env
      else handleHandshake env [peek]
  | _ => throw (.io .timedOut "connection timed out")

def run : Handler Unit :=
  tryCatch (runInner env) fun e => do
    sendGracefulKick env e
    throw e

end Handler

def connectionJournal (env : Env) (arrivals : List Arrival) (addr : SocketAddr) : List Act :=
  (ExceptT.run (Handler.run env) (.new arrivals addr)).2.journal

end Kojacoord
