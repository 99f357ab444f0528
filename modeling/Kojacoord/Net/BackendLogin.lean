import Kojacoord.Auth.Forwarding
import Kojacoord.Net.ConfigPhase
import Kojacoord.Net.EncryptionRequest
import Kojacoord.Protocol.Registry

namespace Kojacoord

section Ids

/-- What the tables `PRE_NETTY` and `LOGIN` register for the login. The others have nothing. -/
def loginEntries : List Registration :=
  [⟨78, .login, .serverbound, "ServerboundPingRequest", 0xFE⟩,
    ⟨78, .login, .serverbound, "HandshakeC2S", 0x02⟩,
    ⟨78, .login, .clientbound, "EncryptionKeyRequestS2C", 0xFD⟩,
    ⟨78, .login, .serverbound, "EncryptionKeyResponseC2S", 0xFC⟩,
    ⟨78, .login, .clientbound, "LoginRequestS2C", 0x01⟩,
    ⟨4, .login, .serverbound, "ServerboundLoginStart", 0x00⟩,
    ⟨4, .login, .serverbound, "ServerboundEncryptionResponse", 0x01⟩,
    ⟨4, .login, .clientbound, "ClientboundLoginDisconnect", 0x00⟩,
    ⟨4, .login, .clientbound, "ClientboundEncryptionRequest", 0x01⟩,
    ⟨4, .login, .clientbound, "ClientboundLoginSuccess", 0x02⟩,
    ⟨47, .login, .clientbound, "ClientboundSetCompression", 0x03⟩,
    ⟨393, .login, .clientbound, "ClientboundLoginPluginRequest", 0x04⟩,
    ⟨393, .login, .serverbound, "ServerboundLoginPluginResponse", 0x02⟩,
    ⟨764, .login, .serverbound, "ServerboundLoginAcknowledged", 0x03⟩]

def loginRegistry : PacketRegistry := .build loginEntries

def cbLogin (proto : UInt32) (name : String) : UInt8 :=
  loginRegistry.lookup proto .login .clientbound name

def sbLogin (proto : UInt32) (name : String) : UInt8 :=
  loginRegistry.lookup proto .login .serverbound name

theorem lookup_since (first : UInt32) (id : UInt8) (hpro : 393 ≤ proto)
    (h : (loginRegistry.map .login dir).entries.filter (fun e => e.2.name = name) =
      [(first, ⟨id, name⟩)])
    (hnm : name ≠ "ClientboundHeldItemChange") (hfst : first ≤ 393) (hsi : first ≠ 78) :
    loginRegistry.lookup proto .login dir name = id := by
  have hrea : PacketTable.reaches proto (first, ⟨id, name⟩) = true := by
    have hpro' : (393 : UInt32).toNat ≤ proto.toNat := UInt32.le_iff_toNat_le.mp hpro
    have hfst' : first.toNat ≤ (393 : UInt32).toNat := UInt32.le_iff_toNat_le.mp hfst
    have hsi' : first.toNat ≠ 78 := fun h => hsi (UInt32.toNat_inj.mp h)
    have h393 : (393 : UInt32).toNat = 393 := rfl
    rw [PacketTable.reaches_iff]
    dsimp only
    omega
  rw [PacketRegistry.lookup, PacketRegistry.getIdForVersion,
    PacketTable.getIdForVersion_of_single _ h hnm, if_pos hrea, Option.getD_some]

theorem login_ids (h : 393 ≤ proto) :
    cbLogin proto "ClientboundLoginPluginRequest" = 0x04 ∧
      sbLogin proto "ServerboundLoginPluginResponse" = 0x02 ∧
      cbLogin proto "ClientboundEncryptionRequest" = 0x01 ∧
      cbLogin proto "ClientboundLoginSuccess" = 0x02 ∧
      cbLogin proto "ClientboundSetCompression" = 0x03 :=
  ⟨lookup_since 393 0x04 h (by decide) (by decide) (by decide) (by decide),
    lookup_since 393 0x02 h (by decide) (by decide) (by decide) (by decide),
    lookup_since 4 0x01 h (by decide) (by decide) (by decide) (by decide),
    lookup_since 4 0x02 h (by decide) (by decide) (by decide) (by decide),
    lookup_since 47 0x03 h (by decide) (by decide) (by decide) (by decide)⟩

end Ids

structure LoginPluginRequest where
  messageId : Int32
  channel : String
  data : List UInt8
deriving DecidableEq

def LoginPluginRequest.decode : Decoder LoginPluginRequest := do
  let messageId ← Decode.varInt
  let channel ← Decode.string
  let data ← get
  return { messageId, channel, data }

structure LoginPluginResponse where
  messageId : Int32
  data : Option (List UInt8)
deriving DecidableEq

def LoginPluginResponse.encode (r : LoginPluginResponse) : List UInt8 :=
  encodeVarInt r.messageId ++
    match r.data with
    | some payload => 1 :: payload
    | none => [0]

def LoginPluginResponse.decode : Decoder LoginPluginResponse := do
  let messageId ← Decode.varInt
  let understood ← Decode.bool
  if understood then
    let payload ← get
    set ([] : List UInt8)
    return { messageId, data := some payload }
  else return { messageId, data := none }

def isFml3LoginChannel (channel : String) : Bool :=
  channel = "fml:loginwrapper" || channel = "fml:handshake" ||
    "fml:".toList.isPrefixOf channel.toList || "forge:".toList.isPrefixOf channel.toList

inductive LoginAct where
  | read (raw : RawPacket)
  | toBackend (raw : RawPacket)
  | toClient (raw : RawPacket)
  | fromClient (raw : RawPacket)
deriving DecidableEq

structure LoginState where
  fromClient : List RawPacket
  writes : Side → Nat
  threshold : Int32
  journal : List LoginAct

inductive LoginStop where
  | error (e : ConnectionError)
  | panicked

abbrev LoginM := Journal.Prog LoginState LoginStop

namespace LoginM

def note (act : LoginAct) : LoginM Unit := modify fun s => { s with journal := s.journal ++ [act] }

def protocol : Except ProtocolError α → LoginM α
  | .ok a => return a
  | .error e => throw (.error (.protocol e))

def write (side : Side) (act : LoginAct) : LoginM Unit := do
  match (← get).writes side with
  | 0 => throw (.error (.io .other "broken pipe"))
  | n + 1 =>
    modify fun s => { s with writes := fun other => if other = side then n else s.writes other }
    note act

def writeBackend (raw : RawPacket) : LoginM Unit := write .backend (.toBackend raw)

def writeClient (raw : RawPacket) : LoginM Unit := write .client (.toClient raw)

def readClient : LoginM RawPacket := do
  match (← get).fromClient with
  | [] => throw (.error (.io .unexpectedEof "early eof"))
  | raw :: rest =>
    modify fun s => { s with fromClient := rest }
    note (.fromClient raw)
    return raw

end LoginM

structure BackendLogin where
  backendProtocol : UInt32
  clientProtocol : UInt32
  mode : ForwardingMode
  velocitySecret : String
  ip : IpAddr
  profile : AuthenticatedProfile
  hmac : Hmac
  forms : TextForms

namespace BackendLogin
open LoginM

variable (b : BackendLogin)

def backendEpoch : Epoch := (nearest b.backendProtocol).epoch

def clientEpoch : Epoch := (nearest b.clientProtocol).epoch

def idLoginPlugin : UInt8 := cbLogin b.backendProtocol "ClientboundLoginPluginRequest"

def idLoginPluginSb : UInt8 := sbLogin b.backendProtocol "ServerboundLoginPluginResponse"

def idEncryptionRequest : UInt8 := cbLogin b.backendProtocol "ClientboundEncryptionRequest"

def clientIdEncryptionRequest : UInt8 := cbLogin b.clientProtocol "ClientboundEncryptionRequest"

def rewrites : Bool :=
  b.backendEpoch ≠ b.clientEpoch ||
    (b.backendProtocol ≠ b.clientProtocol && b.idEncryptionRequest ≠ b.clientIdEncryptionRequest)

def onEncryptionRequest (cursor : List UInt8) : LoginM Unit := do
  match decodeEncryptionRequest b.backendEpoch cursor with
  | .error .panicked => throw .panicked
  | .error (.error e) => throw (.error (.protocol e))
  | .ok ((serverId, publicKey, verifyToken), _) =>
    let body ← protocol (encodeEncryptionRequest b.clientEpoch serverId publicKey verifyToken)
    writeClient (encodeVarInt b.clientIdEncryptionRequest.toUInt32.toInt32 ++ body)

def respond (messageId : Int32) (data : Option (List UInt8)) : LoginM Unit :=
  writeBackend (encodeVarInt b.idLoginPluginSb.toUInt32.toInt32 ++
    LoginPluginResponse.encode { messageId, data })

def velocityData : List UInt8 :=
  Forwarding.velocityHeader b.hmac b.forms b.velocitySecret b.ip b.profile

def relayRequest (request : LoginPluginRequest) : LoginM Unit := do
  let channel ← protocol (Encode.string request.channel)
  writeClient (encodeVarInt b.idLoginPlugin.toUInt32.toInt32 ++
    (encodeVarInt request.messageId ++ (channel ++ request.data)))
  let clientRaw ← readClient
  let clientPktId := (← protocol (Decode.varInt clientRaw)).1
  if clientPktId.toUInt32.toUInt8 = b.idLoginPluginSb then writeBackend clientRaw
  else b.respond request.messageId (some [])

/-- `vec![].into()` is data that is there, not data that is missing. -/
def answerRequest (request : LoginPluginRequest) : LoginM Unit :=
  if request.channel = "velocity:player_info" ∧ b.mode = .velocity then
    if b.velocitySecret = "" then b.respond request.messageId (some [])
    else b.respond request.messageId (some b.velocityData)
  else if isFml3LoginChannel request.channel then b.relayRequest request
  else b.respond request.messageId (some [])

def onPacket (packetId : UInt8) (cursor : List UInt8) : LoginM Bool := do
  if packetId = b.idEncryptionRequest ∧ b.rewrites then
    b.onEncryptionRequest cursor
    return false
  else if packetId = cbLogin b.backendProtocol "ClientboundSetCompression" then
    let threshold := (← protocol (Decode.varInt cursor)).1
    modify fun s => { s with threshold := threshold }
    return false
  else if packetId = cbLogin b.backendProtocol "ClientboundLoginSuccess" then return true
  else if packetId = b.idLoginPlugin then
    b.answerRequest (← protocol (LoginPluginRequest.decode cursor)).1
    return false
  else if packetId = cbLogin b.backendProtocol "ClientboundLoginDisconnect" then
    throw (.error .closed)
  else return false

def step (raw : RawPacket) : LoginM Bool := do
  note (.read raw)
  let decoded ← protocol (Decode.varInt raw)
  b.onPacket decoded.1.toUInt32.toUInt8 decoded.2

def completeBackendLogin : List RawPacket → LoginM Int32
  | [] => throw (.error (.io .unexpectedEof "early eof"))
  | raw :: rest => do
    if ← b.step raw then return (← get).threshold
    else completeBackendLogin rest

end BackendLogin

end Kojacoord
