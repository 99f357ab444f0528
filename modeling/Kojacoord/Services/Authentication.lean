import Kojacoord.Services.Management

namespace Kojacoord
open Runs Serde List Option

structure Managed where
  proxy : State
  maintenanceEnabled : Bool

def ServerManagementServer.serve (m : ServerManagementServer) (cfg : ProxyConfig) (st : Managed) (line : String) :
    Managed :=
  match m.handleConnection cfg st.proxy line with
  | .bail _ | .reply _ => st
  | .perform l _ => { st with proxy := (step cfg st.proxy l).getD st.proxy }
  | .setMaintenance enabled _ => { st with maintenanceEnabled := enabled }

theorem foldl_or_xor {bytes : List (UInt8 × UInt8)} :
    bytes.foldl (fun diff p => diff ||| (p.1 ^^^ p.2)) diff = 0 ↔
      diff = 0 ∧ ∀ p ∈ bytes, p.1 = p.2 := by
  induction bytes generalizing diff with
  | nil => simp
  | cons p rest ih =>
    rw [foldl_cons, ih, UInt8.or_eq_zero_iff, UInt8.xor_eq_zero_iff, forall_mem_cons, and_assoc]

theorem constantTimeEq_iff : constantTimeEq a b = true ↔ a = b := by
  rw [constantTimeEq, Bool.and_eq_true, beq_iff_eq, beq_iff_eq, foldl_or_xor,
    ← forall₂_eq_eq_eq, forall₂_iff_zip]
  simp only [true_and, Prod.forall]

namespace ServerManagementServer
variable {m : ServerManagementServer}

theorem authorized_iff : m.authorized token = true ↔ token = m.authToken := by
  rw [authorized, constantTimeEq_iff, ← Array.toList_inj.symm, ← ByteArray.ext_iff]
  exact String.toByteArray_inj

end ServerManagementServer

def ManagementMessage.authToken : ManagementMessage → String
  | registration msg => msg.authToken
  | statusUpdate msg => msg.authToken
  | deregistration msg => msg.authToken
  | transfer msg => msg.authToken
  | evacuation msg => msg.authToken
  | maintenance msg => msg.authToken

theorem required_asString (h : required slots key Value.asString = some t) :
    slots key = some (.str t) := by
  obtain ⟨v, hv, ht⟩ := bind_eq_some_iff.mp h
  cases v with
  | str t' =>
    cases ht
    exact hv
  | _ => cases ht

theorem gives_of_decode (init : List (String × Bool)) (token : α → String)
    {read : Slots → Option α} {v : Value} {msg : α}
    (hrd : ∀ slots, read slots = some msg →
      required slots "auth_token" Value.asString = some (token msg))
    (h : (v.slots (init ++ [("auth_token", false)])).bind read = some msg) :
    v.Gives "auth_token" (.str (token msg)) := by
  obtain ⟨slots, hslo, hmsg⟩ := bind_eq_some_iff.mp h
  exact gives_of_slots hslo (required_asString (hrd slots hmsg))

theorem ServerRegistration.gives (h : decode v = some msg) :
    v.Gives "auth_token" (.str msg.authToken) := by
  refine gives_of_decode [("name", false), ("address", false), ("port", false),
    ("template", false), ("max_players", true)] authToken (fun slots hmsg => ?_) h
  simp only [read, bind_eq_some_iff, map_eq_some_iff] at hmsg
  obtain ⟨_, -, _, -, _, -, _, -, _, -, token, htok, rfl⟩ := hmsg
  exact htok

theorem ServerStatusUpdate.gives (h : decode v = some msg) :
    v.Gives "auth_token" (.str msg.authToken) := by
  refine gives_of_decode [("name", false), ("online", false), ("player_count", false)]
    authToken (fun slots hmsg => ?_) h
  simp only [read, bind_eq_some_iff, map_eq_some_iff] at hmsg
  obtain ⟨_, -, _, -, _, -, token, htok, rfl⟩ := hmsg
  exact htok

theorem ServerDeregistration.gives (h : decode v = some msg) :
    v.Gives "auth_token" (.str msg.authToken) := by
  refine gives_of_decode [("name", false)] authToken (fun slots hmsg => ?_) h
  simp only [read, bind_eq_some_iff, map_eq_some_iff] at hmsg
  obtain ⟨_, -, token, htok, rfl⟩ := hmsg
  exact htok

theorem PlayerTransfer.gives (h : decode v = some msg) :
    v.Gives "auth_token" (.str msg.authToken) := by
  refine gives_of_decode [("uuid", false), ("server", false)]
    authToken (fun slots hmsg => ?_) h
  simp only [bind_eq_some_iff, map_eq_some_iff] at hmsg
  obtain ⟨_, -, _, -, token, htok, rfl⟩ := hmsg
  exact htok

theorem ServerEvacuation.gives (h : decode v = some msg) :
    v.Gives "auth_token" (.str msg.authToken) := by
  refine gives_of_decode [("from_server", false), ("to_server", false)]
    authToken (fun slots hmsg => ?_) h
  simp only [bind_eq_some_iff, map_eq_some_iff] at hmsg
  obtain ⟨_, -, _, -, token, htok, rfl⟩ := hmsg
  exact htok

theorem MaintenanceToggle.gives (h : decode v = some msg) :
    v.Gives "auth_token" (.str msg.authToken) := by
  refine gives_of_decode [("enabled", false)] authToken (fun slots hmsg => ?_) h
  simp only [bind_eq_some_iff, map_eq_some_iff] at hmsg
  obtain ⟨_, -, token, htok, rfl⟩ := hmsg
  exact htok

theorem ManagementMessage.gives (h : decode v = some msg) :
    v.Gives "auth_token" (.str msg.authToken) := by
  simp only [decode, or_eq_some_iff, map_eq_some_iff] at h
  rcases h with ⟨_, h, rfl⟩ | ⟨-, ⟨_, h, rfl⟩ | ⟨-, ⟨_, h, rfl⟩ | ⟨-, ⟨_, h, rfl⟩ |
    ⟨-, ⟨_, h, rfl⟩ | ⟨-, _, h, rfl⟩⟩⟩⟩⟩
  · exact ServerRegistration.gives h
  · exact ServerStatusUpdate.gives h
  · exact ServerDeregistration.gives h
  · exact PlayerTransfer.gives h
  · exact ServerEvacuation.gives h
  · exact MaintenanceToggle.gives h

namespace ServerManagementServer
variable {m : ServerManagementServer}

theorem handleConnection_refused (hmsg : m.message line = some msg)
    (hlen : ¬ 65536 < line.utf8ByteSize) (h : m.authorized msg.authToken = false) :
    m.handleConnection cfg s line = invalidToken := by
  have hnot : (!m.authorized msg.authToken) = true := by
    rw [h]
    rfl
  rw [handleConnection, if_neg hlen, hmsg]
  cases msg with
  | registration msg | statusUpdate msg | deregistration msg | transfer msg | evacuation msg
  | maintenance msg => exact if_pos hnot

/-- The line is a document that gives the token: an object in the field for it, or an array as its
last element. -/
def Authentic (m : ServerManagementServer) (line : String) : Prop :=
  ∃ v, m.parse line = some v ∧ v.Gives "auth_token" (.str m.authToken)

theorem serve_eq_self (h : ¬m.Authentic line) : m.serve cfg st line = st := by
  by_cases hlen : 65536 < line.utf8ByteSize
  · simp only [serve, handleConnection, if_pos hlen]
  cases hmsg : m.message line with
  | none => simp only [serve, handleConnection, if_neg hlen, hmsg]
  | some msg =>
    have href : m.authorized msg.authToken = false := by
      obtain ⟨v, hv, hdec⟩ := bind_eq_some_iff.mp hmsg
      rw [Bool.eq_false_iff]
      intro haut
      refine h ⟨v, hv, ?_⟩
      rw [← authorized_iff.mp haut]
      exact ManagementMessage.gives hdec
    rw [serve, handleConnection_refused hmsg hlen href]
    rfl

/-- Without the token no number of connections changes anything. -/
theorem unauthenticated_unchanged (lines : List String) (h : ∀ line ∈ lines, ¬m.Authentic line)
    (cfg : ProxyConfig) (st : Managed) : lines.foldl (m.serve cfg) st = st := by
  induction lines with
  | nil => rfl
  | cons line rest ih =>
    rw [foldl_cons, serve_eq_self (h line mem_cons_self)]
    exact ih fun line hline => h line (mem_cons_of_mem _ hline)

def toggleFields (token : String) : List (String × Value) :=
  [("enabled", .bool true), ("auth_token", .str token)]

theorem unauthenticated_unchanged_guess :
    let m := managementReading (.obj (toggleFields "guess"))
    let st : Managed := ⟨.start lobbyConfig (lobbyFor 1) ∅, false⟩
    (∀ line ∈ ["first", "second"], ¬m.Authentic line) ∧
      ["first", "second"].foldl (m.serve lobbyConfig) st = st := by
  have h : ∀ line ∈ ["first", "second"],
      ¬(managementReading (.obj (toggleFields "guess"))).Authentic line := by
    rintro line - ⟨v, hv, hgives⟩
    cases hv
    have hgives : [Value.str "guess"] = [.str "tok"] := hgives
    simp at hgives
  exact ⟨h, unauthenticated_unchanged _ h _ _⟩

/-- An array is no object, and is read as a message nevertheless. -/
theorem array_authenticates :
    let m := managementReading (.arr [.bool true, .str "tok"])
    let st : Managed := ⟨.start lobbyConfig (lobbyFor 1) ∅, false⟩
    (∀ fields, m.parse "[true,\"tok\"]" ≠ some (.obj fields)) ∧
      (m.serve lobbyConfig st "[true,\"tok\"]").maintenanceEnabled = true := by
  refine ⟨?_, rfl⟩
  intro fields h
  cases h

end ServerManagementServer

end Kojacoord
