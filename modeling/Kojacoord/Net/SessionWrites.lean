import Kojacoord.Net.FirstPacket

namespace Kojacoord

inductive WriteCall where
  | packet (raw : List UInt8)
  | legacyBytes (raw : List UInt8)
  | clientPacket (raw : List UInt8)
  | typedPacket (id : UInt8) (body : List UInt8)

def WriteCall.raw (protocol : UInt32) : WriteCall → List UInt8
  | packet raw | legacyBytes raw | clientPacket raw => raw
  | typedPacket id body =>
    if isPreNettyProto protocol then id :: body else encodeVarInt (.ofNat id.toNat) ++ body

def WriteCall.bytes (deflate : Deflate) (protocol : UInt32) (threshold : Int32) : WriteCall → List UInt8
  | packet raw => encodePacket deflate raw threshold
  | legacyBytes raw => raw
  | clientPacket raw => encodeForClient deflate raw protocol threshold
  | typedPacket id body =>
    if isPreNettyProto protocol then id :: body
    else encodePacket deflate (encodeVarInt (.ofNat id.toNat) ++ body) threshold

def utf16 (s : String) : List UInt16 :=
  s.toList.flatMap fun c =>
    if c.toNat < 0x10000 then [.ofNat c.toNat]
    else
      let v := c.toNat - 0x10000
      [.ofNat (0xD800 + v / 0x400), .ofNat (0xDC00 + v % 0x400)]

def encodeLegacyString (s : String) : List UInt8 :=
  Encode.u16 (.ofNat (utf16 s).length) ++ (utf16 s).flatMap Encode.u16

def LoginRequestS2C.encode (r : LoginRequestS2C) : List UInt8 :=
  Encode.i32 r.entityId ++ encodeLegacyString r.levelType ++
    [r.gameMode, r.dimension.toUInt8, r.difficulty, r.worldHeight, r.maxPlayers]

def ClientPacket.call (build : ClientPacket → List UInt8) : ClientPacket → WriteCall
  | legacyMotd json => .legacyBytes (build (.legacyMotd json))
  | bedrockIncompatible => .legacyBytes ([0x19, 0] ++ raknetMagic ++ List.replicate 8 0)
  | loginRequest request => .legacyBytes (0x01 :: request.encode)
  | legacyDisconnect reason => .legacyBytes (0xFF :: encodeLegacyString reason)
  | resourcePack packet => .packet packet
  | packet => .packet (build packet)

inductive LimboPacket where
  | startConfiguration
  | registryData
  | updateTags
  | finishConfiguration
  | joinGame
  | entryRespawn
  | spawnPosition
  | timeUpdate
  | updateHealth
  | brand
  | fml1HandshakeReset
  | playerAbilities
  | heldItemChange
  | setCenterChunk
  | chunkBatchStart
  | chunkData
  | lightUpdate
  | chunkBatchFinished
  | startWaitChunks
  | setDefaultSpawn
  | playerPosition
  | chat
  | noteSound
  | bossbarAdd
  | bossbarRemove
  | respawn
  | keepAlive

open LimboPacket in
def limboEntry (protocol : UInt32) (inPlay fml1 : Bool) : List LimboPacket :=
  (if 764 ≤ protocol then
    (if inPlay then [startConfiguration] else []) ++
      [registryData, updateTags, finishConfiguration]
  else []) ++
  (if inPlay ∧ protocol < 735 then [entryRespawn, entryRespawn] else [joinGame]) ++
  (if isPreNettyProto protocol then [spawnPosition, timeUpdate, updateHealth] else []) ++
  (if 47 ≤ protocol then [brand] else []) ++
  (if fml1 ∧ isPreNettyProto protocol then [fml1HandshakeReset] else []) ++
  [playerAbilities, heldItemChange, setCenterChunk, chunkBatchStart, chunkData, lightUpdate,
    chunkBatchFinished, startWaitChunks, setDefaultSpawn, playerPosition, chat, noteSound] ++
  (if 107 ≤ protocol then [bossbarAdd] else [])

inductive RelayPacket where
  | forwarded
  | shutdown
  | kick
  | transferReply
  | serverList
  | commandResponse
  | switchRefused
  | queued

inductive SessionPacket where
  | loginPluginRequest (raw : List UInt8)
  | startConfiguration (raw : List UInt8)
  | configuration (raw : List UInt8)
  | firstPlayPacket (raw : List UInt8)
  | switchRespawn (id : UInt8) (body : List UInt8)
  | limbo (packet : LimboPacket) (id : UInt8) (body : List UInt8)
  | fml1HandshakeReset (frame : List UInt8)
  | queuePosition (raw : List UInt8)
  | limboShutdown (raw : List UInt8)
  | limboError (raw : List UInt8)
  | brand (raw : List UInt8)
  | relayed (packet : RelayPacket) (raw : List UInt8)

def SessionPacket.call (protocol : UInt32) : SessionPacket → WriteCall
  | loginPluginRequest raw => .packet raw
  | startConfiguration raw => .packet raw
  | configuration raw => .packet raw
  | firstPlayPacket raw => .packet raw
  | switchRespawn id body => .typedPacket id body
  | limbo _ id body => .typedPacket id body
  | fml1HandshakeReset frame =>
    if isPreNettyProto protocol then .legacyBytes frame else .packet frame
  | queuePosition raw => .clientPacket raw
  | limboShutdown raw => .clientPacket raw
  | limboError raw => .packet raw
  | brand raw => .packet raw
  | relayed _ raw => .clientPacket raw

/-- Where a connection stands besides its handler: in the login to a backend, in limbo with the
packets yet to send on entering, in the world reset after a switch, or in a relay. -/
inductive SessionStage where
  | handler
  | backendLogin (inPlay : Bool)
  | limbo (inPlay : Bool) (entry : List LimboPacket)
  | worldReset
  | relay (greeted : Bool)

namespace SessionStage

inductive Next (protocol : UInt32) : SessionStage → SessionStage → Prop
  | dial : Next protocol .handler (.backendLogin false)
  | noBackend : Next protocol .handler (.limbo false (limboEntry protocol false fml1))
  | loginFailed :
      Next protocol (.backendLogin false) (.limbo false (limboEntry protocol false fml1))
  | connected : Next protocol (.backendLogin inPlay) .handler
  | notBuilt : Next protocol (.limbo inPlay (packet :: entry)) (.limbo inPlay entry)
  | backendOnline : Next protocol (.limbo inPlay []) (.backendLogin true)
  | limboOver : Next protocol (.limbo inPlay entry) .handler
  | switch : Next protocol .handler (.limbo true (limboEntry protocol true fml1))
  | switched : protocol < 735 → Next protocol (.backendLogin true) .worldReset
  | reset : Next protocol .worldReset .handler
  | relay : Next protocol .handler (.relay false)
  | relayOver : Next protocol (.relay greeted) .handler

inductive Writes (protocol : UInt32) : SessionStage → SessionPacket → SessionStage → Prop
  | loginPluginRequest :
      Writes protocol (.backendLogin inPlay) (.loginPluginRequest raw) (.backendLogin inPlay)
  | startConfiguration : (nearest protocol).hasConfigurationPhase = true →
      Writes protocol (.backendLogin true) (.startConfiguration raw) (.backendLogin true)
  | configuration : (nearest protocol).hasConfigurationPhase = true →
      Writes protocol (.backendLogin inPlay) (.configuration raw) (.backendLogin inPlay)
  | firstPlayPacket : Writes protocol .worldReset (.firstPlayPacket raw) .handler
  | switchRespawn : Writes protocol .worldReset (.switchRespawn pid body) .worldReset
  | entry : packet ≠ .fml1HandshakeReset →
      Writes protocol (.limbo inPlay (packet :: entry)) (.limbo packet pid body)
        (.limbo inPlay entry)
  | registryData : Writes protocol (.limbo inPlay (.registryData :: entry))
      (.limbo .registryData pid body) (.limbo inPlay (.registryData :: entry))
  | fml1HandshakeReset : Writes protocol (.limbo inPlay (.fml1HandshakeReset :: entry))
      (.fml1HandshakeReset frame) (.limbo inPlay entry)
  | keepAlive : Writes protocol (.limbo inPlay []) (.limbo .keepAlive pid body) (.limbo inPlay [])
  | queuePosition : Writes protocol (.limbo inPlay []) (.queuePosition raw) (.limbo inPlay [])
  | bossbarRemove : 107 ≤ protocol →
      Writes protocol (.limbo inPlay []) (.limbo .bossbarRemove pid body) (.limbo inPlay [])
  | respawn : Writes protocol (.limbo inPlay []) (.limbo .respawn pid body) (.limbo inPlay [])
  | limboShutdown : Writes protocol (.limbo inPlay []) (.limboShutdown raw) .handler
  | limboError : Writes protocol (.limbo inPlay entry) (.limboError raw) .handler
  | brand : Writes protocol (.relay false) (.brand raw) (.relay true)
  | relayed : Writes protocol (.relay true) (.relayed packet raw) (.relay true)

end SessionStage

inductive Sent where
  | handler (packet : ClientPacket)
  | session (packet : SessionPacket)

def Act.sent : Act → List Sent
  | wrote packet => [.handler packet]
  | _ => []

structure Connection where
  env : Env
  arrivals : List Arrival
  addr : SocketAddr
  deflate : Deflate
  build : ClientPacket → List UInt8
  /-- `build_resource_pack_packet` knows no version before 1.20.3. -/
  pack : ∀ protocol, protocol < 765 → env.resourcePack protocol = none

/-- How far a connection has come: what its handler has done, where it stands, and what its client
has been sent. -/
structure Conversation where
  acts : List Act
  stage : SessionStage
  sent : List Sent

namespace Connection
variable (x : Connection)

def last : Client := (ExceptT.run (Handler.run x.env) (.new x.arrivals x.addr)).2

def firstBytes : List UInt8 :=
  (ExceptT.run (Handler.readProxyHeaders x.env) (.new x.arrivals x.addr)).2.stream.available

def announced : Option UInt32 :=
  if x.last.connState = .handshaking then none else some x.last.protocolVersion

def call : Sent → WriteCall
  | .handler packet => packet.call x.build
  | .session packet => packet.call x.last.protocolVersion

inductive Step : Conversation → List Sent → Conversation → Prop
  | act : acts ++ [a] <+: x.last.journal →
      Step ⟨acts, .handler, sent⟩ a.sent ⟨acts ++ [a], .handler, sent ++ a.sent⟩
  | move : x.announced = some protocol → SessionStage.Next protocol stage stage' →
      Step ⟨acts, stage, sent⟩ [] ⟨acts, stage', sent⟩
  | write : x.announced = some protocol → SessionStage.Writes protocol stage packet stage' →
      Step ⟨acts, stage, sent⟩ [.session packet] ⟨acts, stage', sent ++ [.session packet]⟩

def Runs (p : Sent → Prop) (c : Conversation) : Prop :=
  Relation.ReflTransGen (fun c c' => ∃ new, x.Step c new c' ∧ ∀ s ∈ new, p s)
    ⟨[], .handler, []⟩ c

end Connection

end Kojacoord
