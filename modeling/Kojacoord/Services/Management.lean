import Kojacoord.Lib.Runs
import Kojacoord.Lib.Serde
import Kojacoord.Proxy.Step

namespace Kojacoord
open Runs Serde List

structure ServerRegistration where
  name : String
  address : String
  port : UInt16
  template : Option String
  maxPlayers : UInt32
  authToken : String

structure ServerStatusUpdate where
  name : String
  online : Bool
  playerCount : Option UInt64
  authToken : String

structure ServerDeregistration where
  name : String
  authToken : String

structure PlayerTransfer where
  uuid : String
  server : String
  authToken : String

structure ServerEvacuation where
  fromServer : String
  toServer : String
  authToken : String

structure MaintenanceToggle where
  enabled : Bool
  authToken : String

namespace ServerRegistration

def spec : List (String × Bool) :=
  [("name", false), ("address", false), ("port", false), ("template", false),
    ("max_players", true), ("auth_token", false)]

def read (slots : Slots) : Option ServerRegistration :=
  (required slots "name" Value.asString).bind fun name =>
  (required slots "address" Value.asString).bind fun address =>
  (required slots "port" (Value.asUInt 16)).bind fun port =>
  (optional slots "template" Value.asString).bind fun template =>
  (withDefault slots "max_players" (Value.asUInt 32) 100).bind fun maxPlayers =>
  (required slots "auth_token" Value.asString).map fun authToken =>
    ⟨name, address, port.toUInt16, template, maxPlayers.toUInt32, authToken⟩

def decode (v : Value) : Option ServerRegistration := (v.slots spec).bind read

end ServerRegistration

namespace ServerStatusUpdate

def spec : List (String × Bool) :=
  [("name", false), ("online", false), ("player_count", false), ("auth_token", false)]

def read (slots : Slots) : Option ServerStatusUpdate :=
  (required slots "name" Value.asString).bind fun name =>
  (required slots "online" Value.asBool).bind fun online =>
  (optional slots "player_count" (Value.asUInt 64)).bind fun playerCount =>
  (required slots "auth_token" Value.asString).map fun authToken =>
    ⟨name, online, playerCount, authToken⟩

def decode (v : Value) : Option ServerStatusUpdate := (v.slots spec).bind read

end ServerStatusUpdate

namespace ServerDeregistration

def spec : List (String × Bool) := [("name", false), ("auth_token", false)]

def read (slots : Slots) : Option ServerDeregistration :=
  (required slots "name" Value.asString).bind fun name =>
  (required slots "auth_token" Value.asString).map fun authToken => ⟨name, authToken⟩

def decode (v : Value) : Option ServerDeregistration := (v.slots spec).bind read

end ServerDeregistration

def PlayerTransfer.decode (v : Value) : Option PlayerTransfer :=
  (v.slots [("uuid", false), ("server", false), ("auth_token", false)]).bind fun slots =>
  (required slots "uuid" Value.asString).bind fun uuid =>
  (required slots "server" Value.asString).bind fun server =>
  (required slots "auth_token" Value.asString).map fun authToken => ⟨uuid, server, authToken⟩

def ServerEvacuation.decode (v : Value) : Option ServerEvacuation :=
  (v.slots [("from_server", false), ("to_server", false), ("auth_token", false)]).bind fun slots =>
  (required slots "from_server" Value.asString).bind fun fromServer =>
  (required slots "to_server" Value.asString).bind fun toServer =>
  (required slots "auth_token" Value.asString).map fun authToken =>
    ⟨fromServer, toServer, authToken⟩

def MaintenanceToggle.decode (v : Value) : Option MaintenanceToggle :=
  (v.slots [("enabled", false), ("auth_token", false)]).bind fun slots =>
  (required slots "enabled" Value.asBool).bind fun enabled =>
  (required slots "auth_token" Value.asString).map fun authToken => ⟨enabled, authToken⟩

inductive ManagementMessage where
  | registration (m : ServerRegistration)
  | statusUpdate (m : ServerStatusUpdate)
  | deregistration (m : ServerDeregistration)
  | transfer (m : PlayerTransfer)
  | evacuation (m : ServerEvacuation)
  | maintenance (m : MaintenanceToggle)

def ManagementMessage.decode (v : Value) : Option ManagementMessage :=
  ((ServerRegistration.decode v).map registration).or <|
  ((ServerStatusUpdate.decode v).map statusUpdate).or <|
  ((ServerDeregistration.decode v).map deregistration).or <|
  ((PlayerTransfer.decode v).map transfer).or <|
  ((ServerEvacuation.decode v).map evacuation).or <|
  (MaintenanceToggle.decode v).map maintenance

def constantTimeEq (a b : List UInt8) : Bool :=
  a.length == b.length && (a.zip b).foldl (fun diff p => diff ||| (p.1 ^^^ p.2)) 0 == 0

structure ServerManagementServer where
  authToken : String
  parse : String → Option Value
  parseUuid : String → Option Uuid

inductive Outcome where
  | bail (reason : String)
  | reply (text : String)
  | perform (l : Label) (reply : Nat → String)
  | setMaintenance (enabled : Bool) (reply : String)

namespace ServerManagementServer

def authorized (m : ServerManagementServer) (authToken : String) : Bool :=
  constantTimeEq authToken.toUTF8.data.toList m.authToken.toUTF8.data.toList

def invalidToken : Outcome := .reply "ERROR: Invalid auth token\n"

def handleRegistration (m : ServerManagementServer) (cfg : ProxyConfig) (msg : ServerRegistration) :
    Outcome :=
  if !m.authorized msg.authToken then invalidToken
  else match cfg.parseAddr (msg.address ++ ":" ++ toString msg.port.toNat) with
    | none => .bail "Invalid server address"
    | some address =>
      .perform (.register msg.name address msg.maxPlayers) fun _ =>
        "OK: Server registered\n"

def handleStatusUpdate (m : ServerManagementServer) (s : State) (msg : ServerStatusUpdate) :
    Outcome :=
  if !m.authorized msg.authToken then invalidToken
  else if (s.registry.get msg.name).isSome then
    .perform (.report msg.name msg.online msg.playerCount) fun _ => "OK: Status updated\n"
  else .reply "ERROR: Server not found\n"

def handleDeregistration (m : ServerManagementServer) (s : State) (msg : ServerDeregistration) :
    Outcome :=
  if !m.authorized msg.authToken then invalidToken
  else if (s.registry.get msg.name).isSome then
    .perform (.deregister msg.name) fun _ => "OK: Server deregistered\n"
  else .reply "ERROR: Server not found\n"

def handlePlayerTransfer (m : ServerManagementServer) (s : State) (msg : PlayerTransfer) : Outcome :=
  if !m.authorized msg.authToken then invalidToken
  else match m.parseUuid msg.uuid with
    | none => .bail "Invalid UUID format"
    | some uuid =>
      if (s.sessions.lookup uuid).isSome then
        .perform (.transfer uuid msg.server true) fun _ => "OK: Transfer completed\n"
      else .reply "ERROR: Player not found\n"

def handleEvacuation (m : ServerManagementServer) (msg : ServerEvacuation) : Outcome :=
  if !m.authorized msg.authToken then invalidToken
  else .perform (.evacuate msg.fromServer msg.toServer) fun count =>
    "OK: Evacuated " ++ toString count ++ " players\n"

def handleMaintenanceToggle (m : ServerManagementServer) (msg : MaintenanceToggle) : Outcome :=
  if !m.authorized msg.authToken then invalidToken
  else .setMaintenance msg.enabled
    ("OK: Maintenance mode " ++ (if msg.enabled then "enabled" else "disabled") ++ "\n")

def message (m : ServerManagementServer) (line : String) : Option ManagementMessage :=
  (m.parse line).bind ManagementMessage.decode

def handleConnection (m : ServerManagementServer) (cfg : ProxyConfig) (s : State) (line : String) :
    Outcome :=
  if line.utf8ByteSize > 65536 then .bail "line exceeds 64 KiB limit"
  else match m.message line with
    | some (.registration msg) => m.handleRegistration cfg msg
    | some (.statusUpdate msg) => m.handleStatusUpdate s msg
    | some (.deregistration msg) => m.handleDeregistration s msg
    | some (.transfer msg) => m.handlePlayerTransfer s msg
    | some (.evacuation msg) => m.handleEvacuation msg
    | some (.maintenance msg) => m.handleMaintenanceToggle msg
    | none => .reply "ERROR: Invalid message format\n"

end ServerManagementServer

structure NamesServer (fields : List (String × Value)) : Prop where
  name : ∃ n, values "name" fields = [.str n]
  authToken : ∃ t, values "auth_token" fields = [.str t]

structure IsRegistration (fields : List (String × Value)) : Prop extends NamesServer fields where
  address : ∃ a, values "address" fields = [.str a]
  port : ∃ n, values "port" fields = [.int n] ∧ n.toNat < 2 ^ 16
  template : values "template" fields = [] ∨ values "template" fields = [.null] ∨
    ∃ t, values "template" fields = [.str t]
  maxPlayers : values "max_players" fields = [] ∨
    ∃ n, values "max_players" fields = [.int n] ∧ n.toNat < 2 ^ 32

structure IsStatusUpdate (fields : List (String × Value)) : Prop extends NamesServer fields where
  online : ∃ b, values "online" fields = [.bool b]
  playerCount : values "player_count" fields = [] ∨ values "player_count" fields = [.null] ∨
    ∃ n, values "player_count" fields = [.int n]

theorem NamesServer.length_le {fields : List (String × Value)} (h : NamesServer fields)
    (hk : key = "name" ∨ key = "auth_token") : (values key fields).length ≤ 1 := by
  obtain ⟨n, hn⟩ := h.name
  obtain ⟨t, ht⟩ := h.authToken
  rcases hk with rfl | rfl
  · rw [hn]
    exact le_rfl
  · rw [ht]
    exact le_rfl

theorem ServerDeregistration.isSome_decode :
    (decode (.obj fields)).isSome ↔ NamesServer fields := by
  apply isSome_slots_bind
  · intro honce
    rw [read, isSome_bind_and fun _ => by rw [Option.isSome_map, isSome_required (by decide) honce],
      isSome_required (by decide) honce, exists_asString, exists_asString]
    exact ⟨fun ⟨hn, ht⟩ => ⟨hn, ht⟩, fun h => ⟨h.name, h.authToken⟩⟩
  · intro h key hk
    exact h.length_le (by simpa [spec] using hk)

theorem ServerStatusUpdate.isSome_decode :
    (decode (.obj fields)).isSome ↔ IsStatusUpdate fields := by
  apply isSome_slots_bind
  · intro honce
    rw [read, isSome_bind_and fun _ => isSome_bind_and fun _ => isSome_bind_and fun _ => by
        rw [Option.isSome_map, isSome_required (by decide) honce],
      isSome_required (by decide) honce, isSome_required (by decide) honce,
      isSome_optional (by decide) honce, exists_asString, exists_asString, exists_asBool,
      exists_asUInt_64]
    constructor
    · rintro ⟨hn, ho, hc, ht⟩
      exact ⟨⟨hn, ht⟩, ho, hc⟩
    · intro h
      exact ⟨h.name, h.online, h.playerCount, h.authToken⟩
  · intro h key hk
    simp only [spec, map_cons, map_nil, mem_cons, not_mem_nil, or_false] at hk
    rcases hk with rfl | rfl | rfl | rfl
    · exact h.length_le (.inl rfl)
    · obtain ⟨b, hb⟩ := h.online
      rw [hb]
      exact le_rfl
    · rcases h.playerCount with hc | hc | ⟨n, hc⟩ <;> simp [hc]
    · exact h.length_le (.inr rfl)

theorem ServerRegistration.isSome_decode :
    (decode (.obj fields)).isSome ↔ IsRegistration fields := by
  apply isSome_slots_bind
  · intro honce
    rw [read, isSome_bind_and fun _ => isSome_bind_and fun _ => isSome_bind_and fun _ =>
        isSome_bind_and fun _ => isSome_bind_and fun _ => by
          rw [Option.isSome_map, isSome_required (by decide) honce],
      isSome_required (by decide) honce, isSome_required (by decide) honce,
      isSome_required (by decide) honce, isSome_optional (by decide) honce,
      isSome_withDefault (by decide) honce, exists_asString, exists_asString, exists_asString,
      exists_asString, exists_asUInt, exists_asUInt]
    constructor
    · rintro ⟨hn, ha, hp, ht, hm, hk⟩
      exact ⟨⟨hn, hk⟩, ha, hp, ht, hm⟩
    · intro h
      exact ⟨h.name, h.address, h.port, h.template, h.maxPlayers, h.authToken⟩
  · intro h key hk
    simp only [spec, map_cons, map_nil, mem_cons, not_mem_nil, or_false] at hk
    rcases hk with rfl | rfl | rfl | rfl | rfl | rfl
    · exact h.length_le (.inl rfl)
    · obtain ⟨a, ha⟩ := h.address
      rw [ha]
      exact le_rfl
    · obtain ⟨n, hn, -⟩ := h.port
      rw [hn]
      exact le_rfl
    · rcases h.template with ht | ht | ⟨t, ht⟩ <;> simp [ht]
    · rcases h.maxPlayers with hm | ⟨n, hm, -⟩ <;> simp [hm]
    · exact h.length_le (.inr rfl)

theorem ManagementMessage.decode_eq_deregistration :
    (∃ msg, decode v = some (.deregistration msg)) ↔
      ¬ (ServerRegistration.decode v).isSome ∧ ¬ (ServerStatusUpdate.decode v).isSome ∧
        (ServerDeregistration.decode v).isSome := by
  rw [decode]
  cases ServerRegistration.decode v with
  | some r => simp
  | none =>
    cases ServerStatusUpdate.decode v with
    | some u => simp
    | none =>
      cases ServerDeregistration.decode v with
      | some d => simp
      | none =>
        cases PlayerTransfer.decode v <;> cases ServerEvacuation.decode v <;>
          cases MaintenanceToggle.decode v <;> simp

def ServerManagementServer.TakesDeregistration (m : ServerManagementServer) (line : String) : Prop :=
  line.utf8ByteSize ≤ 65536 ∧ ∃ msg, m.message line = some (.deregistration msg)

theorem ServerManagementServer.deregisters_of_perform {m : ServerManagementServer}
    (h : m.handleConnection cfg s line = .perform (.deregister n) reply) :
    m.TakesDeregistration line := by
  unfold handleConnection at h
  split at h
  · cases h
  · rename_i hlen
    split at h
    case h_3 msg hm => exact ⟨Nat.not_lt.mp hlen, msg, hm⟩
    case h_1 =>
      unfold handleRegistration at h
      split at h
      · cases h
      · split at h <;> cases h
    case h_2 =>
      unfold handleStatusUpdate at h
      split at h
      · cases h
      · split at h <;> cases h
    case h_4 =>
      unfold handlePlayerTransfer at h
      split at h
      · cases h
      · split at h
        · cases h
        · split at h <;> cases h
    case h_5 =>
      unfold handleEvacuation at h
      split at h <;> cases h
    case h_6 =>
      unfold handleMaintenanceToggle at h
      split at h <;> cases h
    case h_7 => cases h

/-- For every line that is a JSON object, the deregistration path is avoided exactly when the line
is too long, a well-typed registration or status update, or names no server at all. -/
theorem not_deregisters_iff {m : ServerManagementServer}
    (h : m.parse line = some (.obj fields)) :
    (¬ m.TakesDeregistration line ∧
        ∀ cfg s n reply, m.handleConnection cfg s line ≠ .perform (.deregister n) reply) ↔
      65536 < line.utf8ByteSize ∨ IsRegistration fields ∨ IsStatusUpdate fields ∨
        ¬ NamesServer fields := by
  have hpath : m.TakesDeregistration line ↔ line.utf8ByteSize ≤ 65536 ∧
      ¬ IsRegistration fields ∧ ¬ IsStatusUpdate fields ∧ NamesServer fields := by
    rw [ServerManagementServer.TakesDeregistration, ServerManagementServer.message, h,
      Option.bind_some, ManagementMessage.decode_eq_deregistration,
      ServerRegistration.isSome_decode, ServerStatusUpdate.isSome_decode,
      ServerDeregistration.isSome_decode]
  have hperform : ¬ m.TakesDeregistration line →
      ∀ cfg s n reply, m.handleConnection cfg s line ≠ .perform (.deregister n) reply :=
    fun hn cfg s n reply hp => hn (ServerManagementServer.deregisters_of_perform hp)
  rw [and_iff_left_of_imp hperform, hpath]
  simp only [not_and_or, not_le, not_not]

def managementReading (v : Value) : ServerManagementServer where
  authToken := "tok"
  parse _ := some v
  parseUuid _ := none

def registrationFields (port : UInt64) : List (String × Value) :=
  [("name", .str "lobby"), ("address", .str "1.2.3.4"), ("port", .int port),
    ("auth_token", .str "tok")]

def registrationLine (port : String) : String :=
  "\x7b\"name\":\"lobby\",\"address\":\"1.2.3.4\",\"port\":" ++ port ++
    ",\"auth_token\":\"tok\"\x7d"

theorem not_deregisters_registration :
    (managementReading (.obj (registrationFields 25565))).parse (registrationLine "25565") =
        some (.obj (registrationFields 25565)) ∧
      IsRegistration (registrationFields 25565) ∧
      ¬ (managementReading (.obj (registrationFields 25565))).TakesDeregistration
        (registrationLine "25565") := by
  have hreg : IsRegistration (registrationFields 25565) :=
    ⟨⟨⟨_, rfl⟩, ⟨_, rfl⟩⟩, ⟨_, rfl⟩, ⟨_, rfl, by decide⟩, .inl rfl, .inl rfl⟩
  exact ⟨rfl, hreg, ((not_deregisters_iff rfl).mpr (.inr (.inl hreg))).1⟩

/-- A registration whose port does not fit is handled as a deregistration, and the server is gone
once its players are evacuated. -/
theorem registration_deregisters :
    ∃ s reply, (managementReading (.obj (registrationFields 70000))).handleConnection lobbyConfig
        (.start lobbyConfig (lobbyFor 1) ∅) (registrationLine "70000") =
          .perform (.deregister "lobby") reply ∧
      (managementReading (.obj (registrationFields 70000))).TakesDeregistration
        (registrationLine "70000") ∧
      Run (step lobbyConfig) (fun _ _ => True) (.start lobbyConfig (lobbyFor 1) ∅) s ∧
      (lobbyFor 1).get "lobby" = some 0 ∧ s.registry.get "lobby" = none := by
  have hrun : Run (step lobbyConfig) (fun _ _ => True) (.start lobbyConfig (lobbyFor 1) ∅) _ :=
    Run.of_exec [.deregister "lobby", .task 0] rfl
  have hperform : (managementReading (.obj (registrationFields 70000))).handleConnection lobbyConfig
      (.start lobbyConfig (lobbyFor 1) ∅) (registrationLine "70000") =
        .perform (.deregister "lobby") _ := rfl
  exact ⟨_, _, hperform, ServerManagementServer.deregisters_of_perform hperform, hrun, rfl, rfl⟩

end Kojacoord
