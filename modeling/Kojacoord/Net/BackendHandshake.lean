import Kojacoord.Auth.Forwarding
import Mathlib.Data.List.DropRight

namespace Kojacoord
open Forwarding List

inductive ModloaderKind where
  | unknown
  | fml1
  | fml2
  | fml3
  | neoForge
  | fabric
  | quilt
  | vanilla
deriving DecidableEq

namespace Modloader

def contains (marker : List Char) : List Char → Bool
  | [] => marker.isEmpty
  | c :: rest => marker.isPrefixOf (c :: rest) || contains marker rest

def detectFromAddress (addr : String) : ModloaderKind :=
  if contains "\x00FML3\x00".toList addr.toList then .fml3
  else if contains "\x00FML2\x00".toList addr.toList then .fml2
  else if contains "\x00FML\x00".toList addr.toList then .fml1
  else .unknown

def firstPart (addr : List Char) : List Char := addr.takeWhile (· ≠ '\x00')

theorem nul_notMem_firstPart : '\x00' ∉ firstPart addr := by
  intro h
  exact absurd (mem_takeWhile_imp h) (by decide)

def fmlMarker : ModloaderKind → String
  | .fml1 => "\x00FML\x00"
  | .fml2 => "\x00FML2\x00"
  | .fml3 => "\x00FML3\x00"
  | _ => ""

def applyFmlMarker (addr : String) (kind : ModloaderKind) : String :=
  let clean := firstPart (addr.toList.rdropWhile (· = '\x00'))
  .ofList clean ++ fmlMarker kind

def markerFields : ModloaderKind → List (List Char)
  | .fml1 => ["FML".toList, []]
  | .fml2 => ["FML2".toList, []]
  | .fml3 => ["FML3".toList, []]
  | _ => []

theorem toList_fmlMarker : (fmlMarker kind).toList = (markerFields kind).flatMap ('\x00' :: ·) := by
  cases kind <;> rfl

theorem nul_notMem_markerFields : ∀ field ∈ markerFields kind, '\x00' ∉ field := by
  cases kind <;> decide

end Modloader

structure DialingClient where
  protocolVersion : UInt32
  ip : IpAddr
  kind : ModloaderKind

def DialingClient.ofHandshake (ip : IpAddr) (handshake : ServerboundHandshake) : DialingClient where
  protocolVersion := handshake.protocolVersion.toUInt32
  ip := ip
  kind := Modloader.detectFromAddress handshake.serverAddress

def BackendType.isForgeLike : BackendType → Bool
  | .forge | .hybrid => true
  | .spigot => false

/-- Pre-netty backends get no handshake at all. -/
def buildBackendHandshake (canonical : CanonicalVersion) (proto : UInt32) (serverAddress : String)
    (serverPort : UInt16) : Option ServerboundHandshake :=
  if canonical = .v1_6_4 then none
  else some {
    protocolVersion := proto.toInt32
    serverAddress := serverAddress
    serverPort := serverPort
    nextState := 2 }

namespace DialingClient
open Modloader

variable (forms : TextForms) (client : DialingClient)

def handshakeAddress (serverAddress : String) (profile : AuthenticatedProfile)
    (mode : ForwardingMode) (backendType : BackendType) : String :=
  let cleanHost := String.ofList (firstPart serverAddress.toList)
  match mode with
  | .bungeecord =>
    let base := cleanHost ++ bungeecordSuffix forms client.ip profile
    if backendType.isForgeLike then base ++ fmlMarker client.kind else base
  | .velocity | .none =>
    if backendType.isForgeLike then applyFmlMarker cleanHost client.kind else cleanHost

def sendBackendHandshake (serverAddress username : String) (uuid : Uuid)
    (properties : List ProfileProperty) (mode : ForwardingMode) (backendType : BackendType) :
    Option ServerboundHandshake :=
  let address := client.handshakeAddress forms serverAddress ⟨uuid, username, properties⟩ mode
    backendType
  buildBackendHandshake (nearest client.protocolVersion).canonicalTypedPacketVersion
    client.protocolVersion address 25565

def forwardedFields (uuid : Uuid) (properties : List ProfileProperty) (backendType : BackendType) :
    List (List Char) :=
  [(forms.ip client.ip).toList, (forms.hyphenated uuid).toList,
    (propertiesJson properties).print] ++
    if backendType.isForgeLike then markerFields client.kind else []

theorem nul_notMem_forwardedFields (uuid : Uuid) (properties : List ProfileProperty)
    (backendType : BackendType) :
    ∀ field ∈ client.forwardedFields forms uuid properties backendType, '\x00' ∉ field := by
  have hjson : '\x00' ∉ (propertiesJson properties).print := by
    intro h
    exact absurd (Json.Value.printable_print _ _ h) (by decide)
  have hmar : ∀ field ∈ if backendType.isForgeLike then markerFields client.kind else [],
      '\x00' ∉ field := by
    split
    · exact nul_notMem_markerFields
    · exact forall_mem_nil _
  rw [forwardedFields, forall_mem_append]
  simp only [forall_mem_cons]
  exact ⟨⟨forms.nul_notMem_ip _, forms.nul_notMem_hyphenated _, hjson, forall_mem_nil _⟩, hmar⟩

theorem toList_handshakeAddress :
    (client.handshakeAddress forms serverAddress ⟨uuid, username, properties⟩ .bungeecord
        backendType).toList =
      firstPart serverAddress.toList ++
        (client.forwardedFields forms uuid properties backendType).flatMap ('\x00' :: ·) := by
  rw [handshakeAddress, forwardedFields]
  cases backendType.isForgeLike with
  | false => simp [bungeecordSuffix, Json.Value.text]
  | true => simp [bungeecordSuffix, Json.Value.text, toList_fmlMarker]

theorem splitOn_handshakeAddress :
    (client.handshakeAddress forms serverAddress ⟨uuid, username, properties⟩ .bungeecord
        backendType).toList.splitOn '\x00' =
      firstPart serverAddress.toList ::
        client.forwardedFields forms uuid properties backendType := by
  rw [toList_handshakeAddress]
  exact RoundTrip.splitOn_fields nul_notMem_firstPart
    (client.nul_notMem_forwardedFields forms uuid properties backendType)

theorem serverAddress_of_sent (h : client.sendBackendHandshake forms serverAddress username uuid
    properties mode backendType = some packet) :
    packet.serverAddress = client.handshakeAddress forms serverAddress ⟨uuid, username, properties⟩
      mode backendType := by
  rw [sendBackendHandshake, buildBackendHandshake] at h
  split at h
  · cases h
  · cases h
    rfl

/-- A BungeeCord backend splits the address into the host that the client asked for, up to its first
NUL, and fields that the proxy alone has written. Behind the host two addresses differ only in the
marker of the kind of client. -/
theorem bungeecord_address_fields (h : client.sendBackendHandshake forms serverAddress username uuid
    properties .bungeecord backendType = some packet) :
    packet.serverAddress.toList.splitOn '\x00' =
        firstPart serverAddress.toList :: (forms.ip client.ip).toList ::
          (forms.hyphenated uuid).toList :: (propertiesJson properties).print ::
            (if backendType.isForgeLike then markerFields client.kind else []) ∧
      ∀ (other : DialingClient) (address name : String) (packet' : ServerboundHandshake),
        other.ip = client.ip → other.kind = client.kind →
        other.sendBackendHandshake forms address name uuid properties .bungeecord backendType =
          some packet' →
        (packet'.serverAddress.toList.splitOn '\x00').tail =
          (packet.serverAddress.toList.splitOn '\x00').tail := by
  rw [serverAddress_of_sent forms client h, splitOn_handshakeAddress]
  refine ⟨rfl, ?_⟩
  intro other address name packet' hip hkind hother
  rw [serverAddress_of_sent forms other hother, splitOn_handshakeAddress, tail_cons,
    tail_cons, forwardedFields, forwardedFields, hip, hkind]

def forgingClient : ServerboundHandshake where
  protocolVersion := 47
  serverAddress := "play\x0010.0.0.1\x00ffffffff-ffff-ffff-ffff-ffffffffffff\x00FML\x00"
  serverPort := 25565
  nextState := 2

theorem bungeecord_address_fields_forgingClient :
    ∃ packet, (ofHandshake loopback forgingClient).sendBackendHandshake
        localForms forgingClient.serverAddress "TestPlayer" 0 [] .bungeecord .hybrid =
        some packet ∧
      packet.serverAddress.toList.splitOn '\x00' =
        ["play".toList, "127.0.0.1".toList, "00000000-0000-0000-0000-000000000000".toList,
          "[]".toList, "FML".toList, []] := by
  obtain ⟨packet, hsent⟩ : ∃ packet, (ofHandshake loopback
      forgingClient).sendBackendHandshake localForms forgingClient.serverAddress
      "TestPlayer" 0 [] .bungeecord .hybrid = some packet := ⟨_, rfl⟩
  refine ⟨packet, hsent, ?_⟩
  rw [(bungeecord_address_fields _ _ hsent).1]
  decide +kernel

end DialingClient

end Kojacoord
