import Kojacoord.Proxy.Status
import Kojacoord.Net.Identity
import Kojacoord.Net.HeaderReaders

namespace Kojacoord
open Json Journal List

def versionJson (protocol : Value) : Value := .obj [("name", .str "Koja"), ("protocol", protocol)]

def Listing.document (l : Listing) (protocol : UInt32) : Value :=
  .obj (("version", versionJson (natJson protocol.toNat)) :: ("players", l.players) ::
    ("description", l.description) :: l.favicon.toList.map fun f => ("favicon", .str f))

/-- The text is a JSON object with a number for the protocol, and it shows these values. -/
def Carries (text : String) (protocol : UInt32) (l : Listing) : Prop :=
  ∃ body, parse text = some body ∧
    body.at? ["version", "protocol"] = some (natJson protocol.toNat) ∧
    body.at? ["players", "max"] = some (natJson l.max) ∧
    body.at? ["players", "online"] = some (natJson l.online) ∧
    body.at? ["players", "sample"] = some (.arr l.sample) ∧
    body.at? ["description"] = some l.description

theorem Listing.carries_document (l : Listing) (protocol : UInt32) :
    Carries (l.document protocol).text protocol l := by
  refine ⟨l.document protocol, parse_text _, ?_⟩
  rcases l with ⟨max, online, sample, description, _ | favicon⟩ <;>
    simp [Value.at?, Value.member?, Listing.document, Listing.players, versionJson]

theorem print_versionJson : (versionJson protocol).print =
    "\x7b\"name\":\"Koja\",\"protocol\":".toList ++ protocol.print ++ ['\x7d'] := by
  have hmem : (versionJson protocol).print = '\x7b' :: (List.intercalate [',']
      ["\"name\":\"Koja\"".toList, "\"protocol\":".toList ++ protocol.print] ++ ['\x7d']) := rfl
  rw [hmem, intercalate_cons_cons, intercalate_singleton]
  simp

variable {l : Listing} {protocol : UInt32}

theorem Listing.print_document : (l.document protocol).print =
    "\x7b\"version\":\x7b\"name\":\"Koja\",\"protocol\":".toList ++
      Nat.toDigits 10 protocol.toNat ++ l.suffix.toList := by
  have hnum : (natJson protocol.toNat).print = Nat.toDigits 10 protocol.toNat := rfl
  have hpri (favicon : List (List Char))
      (h : printMembers (l.favicon.toList.map fun f => ("favicon", .str f)) = favicon) :
      (l.document protocol).print = '\x7b' :: (List.intercalate [',']
        (("\"version\":".toList ++ (versionJson (natJson protocol.toNat)).print) ::
          ("\"players\":".toList ++ l.players.print) ::
            ("\"description\":".toList ++ l.description.print) :: favicon) ++ ['\x7d']) := by
    rw [← h]
    rfl
  unfold Listing.suffix
  cases hf : l.favicon with
  | none =>
    rw [hf] at hpri
    rw [hpri [] rfl, print_versionJson, hnum]
    simp [faviconField, intercalate_cons_cons]
  | some f =>
    rw [hf] at hpri
    rw [hpri ["\"favicon\":".toList ++ (Value.str f).print] rfl, print_versionJson, hnum]
    simp [faviconField, intercalate_cons_cons]

def Env.showing (env : Env) (l : Listing) : Env := { env with statusSuffix := l.suffix }

theorem Env.statusJson_none (env : Env) (l : Listing) (protocol : UInt32) :
    (env.showing l).statusJson protocol none = (l.document protocol).text := by
  have hprot : (toString protocol).toList = Nat.toDigits 10 protocol.toNat := Nat.toList_repr
  apply String.toList_injective
  rw [toList_text, Listing.print_document, ← hprot]
  unfold Env.statusJson
  rw [String.toList_append, String.toList_append]
  rfl

def Env.pingResults (env : Env) (c : Client) : List HandlerResult :=
  env.results c.events (.serverListPing env.config.maxPlayers env.onlinePlayers [])

def customSample (results : List HandlerResult) : Option (List PlayerSample) :=
  (broadcastEvent results).findSome? PluginResponse.sample?

def Env.chosen (env : Env) (l : Listing) (results : List HandlerResult) : Listing :=
  match customSample results with
  | none => l
  | some sample =>
    { l with
      max := env.config.maxPlayers, online := env.onlinePlayers,
      sample := sample.map fun p =>
        .obj [("name", .str p.name), ("uuid", .str (env.hyphenated p.uuid))] }

theorem customSample_eq_none_iff : customSample results = none ↔
    cancels results = true ∨ ∀ sample, .ok (some (.updatePlayerSample sample)) ∉ results := by
  rw [customSample, broadcastEvent_eq]
  split
  · rename_i h
    simp [h, PluginResponse.sample?]
  · rename_i h
    rw [findSome?_eq_none_iff]
    constructor
    · intro hno
      refine .inr fun sample hmem => ?_
      have hresp : .updatePlayerSample sample ∈ results.filterMap (·.response) :=
        mem_filterMap.mpr ⟨_, hmem, rfl⟩
      cases hno _ hresp
    · intro hno response hmem
      obtain ⟨result, hres, hresp⟩ := mem_filterMap.mp hmem
      cases response with
      | updatePlayerSample sample =>
        cases result with
        | ok answer =>
          cases hresp
          exact absurd hres (hno.resolve_left h sample)
        | err e | panicked => cases hresp
      | _ => rfl

theorem Env.statusJson_some (env : Env) (protocol : UInt32) (sample : List PlayerSample) :
    ∃ rest, env.statusJson protocol (some sample) = .ofList ('\x7b' ::
      (printMember ("version", versionJson (.str protocol.toNat.repr)) ++ ',' :: rest)) := by
  have hmem (version : Value) :
      printMember ("version", version) = "\"version\":".toList ++ version.print := by
    simp [printMember, quote, escape]
  have hstr : (Value.str protocol.toNat.repr).print =
      '"' :: (Nat.toDigits 10 protocol.toNat ++ ['"']) := quote_repr _
  have hprot : (toString protocol).toList = Nat.toDigits 10 protocol.toNat := Nat.toList_repr
  let players := sample.map fun p =>
    "\x7b\"name\":\"" ++ p.name ++ "\",\"uuid\":\"" ++ env.hyphenated p.uuid ++ "\"\x7d"
  refine ⟨("\"players\":\x7b\"max\":" ++ toString env.config.maxPlayers ++ ",\"online\":" ++
    toString env.onlinePlayers ++ ",\"sample\":[" ++ ",".intercalate players ++ "]\x7d" ++
      env.statusSuffix ++ "\x7d").toList, ?_⟩
  apply String.toList_injective
  rw [hmem, print_versionJson, hstr, String.toList_ofList]
  unfold Env.statusJson
  simp only [String.toList_append, hprot]
  simp [players]

theorem not_carries_of_string (n : Nat) (rest : List Char) : ¬Carries (.ofList ('\x7b' ::
    (printMember ("version", versionJson (.str n.repr)) ++ ',' :: rest))) protocol l := by
  rintro ⟨body, hprs, hprot, -⟩
  obtain ⟨members, rfl⟩ := first_member _ _ hprs
  have hfil : (("version", versionJson (.str n.repr)) :: members).filter (·.1 = "version") =
      ("version", versionJson (.str n.repr)) :: members.filter (·.1 = "version") := by simp
  rw [Value.at?, foldlM_cons, Value.member?, hfil] at hprot
  cases hmo : members.filter (·.1 = "version") with
  | nil =>
    rw [hmo] at hprot
    simp [versionJson, Value.member?, natJson] at hprot
  | cons m ms =>
    rw [hmo] at hprot
    cases hprot

theorem Env.carries_statusJson_iff (env : Env) (results : List HandlerResult) :
    Carries ((env.showing l).statusJson protocol (customSample results)) protocol
      (env.chosen l results) ↔ customSample results = none := by
  unfold Env.chosen
  cases customSample results with
  | none =>
    rw [Env.statusJson_none]
    simpa using l.carries_document protocol
  | some sample =>
    obtain ⟨rest, htx⟩ := (env.showing l).statusJson_some protocol sample
    rw [htx]
    simpa using not_carries_of_string _ rest

def Act.statusBody : Act → Option String
  | .wrote (.statusResponse json) => some json
  | _ => none

def Client.statusBodies (c : Client) : List String := c.journal.filterMap Act.statusBody

namespace Handler

def readRequest : Handler Int32 := do
  let _ ← readUntimed Reader.readVarint
  readUntimed Reader.readVarint

def answerStatus (env : Env) (sample : Option (List PlayerSample)) : Handler Unit := do
  write env (.statusResponse (env.statusJson (← get).protocolVersion sample))
  let threshold := (← get).compressionThreshold
  let (_, body) ← readUntimed do
    Reader.decode Decode.varInt (← Reader.readPacket env.inflate threshold)
  match Decode.i64 body with
  | .ok (payload, _) => write env (.pongResponse payload)
  | .error _ => throw .closed

theorem handleStatus_eq : handleStatus env = (do
    let _ ← readRequest
    let results ← broadcast env (.serverListPing env.config.maxPlayers env.onlinePlayers [])
    answerStatus env (customSample results)) := (bind_assoc ..).symm

def statusBodies (env : Env) (c : Client) : List String :=
  (added Client.journal (handleStatus env) c).filterMap Act.statusBody

theorem preserves_readUntimed : Preserves Client.statusBodies (readUntimed x) := by
  intro c
  rw [run_readUntimed]
  rfl

theorem preserves_pong : Preserves Client.statusBodies (write env (.pongResponse payload)) := by
  intro c
  rw [run_write, Client.statusBodies, filterMap_append]
  exact append_nil _

theorem run_readRequest : ∃ r stream, ExceptT.run readRequest c = (r, { c with stream }) := by
  rw [readRequest, run_bind, run_readUntimed]
  cases (Reader.readVarint.run { c.stream with budget := none }).1 with
  | error e => exact ⟨_, _, rfl⟩
  | ok _ => exact ⟨_, _, run_readUntimed _ _⟩

theorem statusBodies_answerStatus : (ExceptT.run (answerStatus env sample) c).2.statusBodies =
    c.statusBodies ++ [env.statusJson c.protocolVersion sample] := by
  rw [answerStatus, run_bind_ok _ (run_get c)]
  refine (Preserves.view_bind (fun _ => ?_) c).trans ?_
  · apply Preserves.bind Preserves.get
    intro _
    apply Preserves.bind preserves_readUntimed
    intro ping
    dsimp only
    split
    · exact preserves_pong
    · exact Preserves.throw
  · rw [run_write, Client.statusBodies, filterMap_append]
    rfl

theorem statusBodies_eq (env : Env) (c : Client) :
    statusBodies env c = if (ExceptT.run readRequest c).1.isOk then
      [env.statusJson c.protocolVersion (customSample (env.pingResults c))] else [] := by
  have htra : Keeps Client.journal (·.identity = none) (handleStatus env) :=
    (keeps_handleStatus routine_quiet (fun _ => rfl) fun _ => rfl).keeps
  have hbod : (ExceptT.run (handleStatus env) c).2.statusBodies =
      c.statusBodies ++ statusBodies env c := by
    rw [Client.statusBodies, log_eq_added htra, filterMap_append]
    rfl
  apply append_cancel_left (hbod.symm.trans _)
  obtain ⟨r, stream, hreq⟩ := run_readRequest
  rw [handleStatus_eq, run_bind, hreq]
  cases r with
  | error e => exact (append_nil _).symm
  | ok _ =>
    let event : PluginEvent := .serverListPing env.config.maxPlayers env.onlinePlayers []
    let asked : Client := { c with
      stream, events := c.events + 1,
      journal := c.journal ++ [Act.asked event (env.pingResults c)] }
    have hask : ExceptT.run (broadcast env event) { c with stream } =
        (.ok (env.pingResults c), asked) := rfl
    have hsil : asked.statusBodies = c.statusBodies := by
      rw [Client.statusBodies, filterMap_append]
      exact append_nil _
    dsimp only
    rw [run_bind_ok _ hask, ← hsil]
    exact statusBodies_answerStatus

/-- Whatever is in the cache, the body sent for a ping is right exactly if no customised sample gets
through to the handler. -/
theorem carries_status_iff (env : Env) (l : Listing) (c : Client) (text : String)
    (h : text ∈ statusBodies (env.showing l) c) :
    Carries text c.protocolVersion (env.chosen l (env.pingResults c)) ↔
      cancels (env.pingResults c) = true ∨
        ∀ sample, .ok (some (.updatePlayerSample sample)) ∉ env.pingResults c := by
  have htext : text = (env.showing l).statusJson c.protocolVersion
      (customSample (env.pingResults c)) := by
    rw [statusBodies_eq] at h
    split at h
    · exact mem_singleton.mp h
    · cases h
  rw [htext, Env.carries_statusJson_iff, customSample_eq_none_iff]

def statusClient : Client :=
  { Client.new [.bytes 1 [0], .bytes 9 [1, 0, 0, 0, 0, 0, 0, 0, 0]] clientAddr with
    protocolVersion := 47, connState := .status }

theorem carries_status_initial : ∃ text,
    text ∈ statusBodies (onlineEnv.showing initialListing) statusClient ∧
      Carries text 47 initialListing :=
  have hsent : (initialListing.document 47).text ∈
      statusBodies (onlineEnv.showing initialListing) statusClient := by decide +kernel
  ⟨_, hsent, (carries_status_iff onlineEnv initialListing statusClient _ hsent).mpr
    (.inr fun _ => not_mem_nil)⟩

def samplingEnv : Env :=
  { onlineEnv with results := fun _ _ => [.ok (some (.updatePlayerSample []))] }

theorem not_carries_status_sampling :
    statusBodies (samplingEnv.showing initialListing) statusClient =
      ["\x7b\"version\":\x7b\"name\":\"Koja\",\"protocol\":\"47\"\x7d," ++
        "\"players\":\x7b\"max\":100,\"online\":0,\"sample\":[]\x7d\x7d," ++
          "\"players\":\x7b\"max\":0,\"online\":0,\"sample\":[]\x7d," ++
            "\"description\":\x7b\"text\":\"\"\x7d\x7d\x7d"] ∧
      ∀ text ∈ statusBodies (samplingEnv.showing initialListing) statusClient,
        (parse text).isNone = true := by
  constructor <;> decide +kernel

end Handler

end Kojacoord
