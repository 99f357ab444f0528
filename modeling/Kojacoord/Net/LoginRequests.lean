import Kojacoord.Net.BackendLogin

namespace Kojacoord
open Journal RoundTrip List

def LoginPluginResponse.read (raw : RawPacket) : Option LoginPluginResponse :=
  match Decode.varInt raw with
  | .ok (id, cursor) => if id = 0x02 then (decode cursor).toOption.map Prod.fst else none
  | .error _ => none

structure PendingRequest where
  request : LoginPluginRequest
  heard : List RawPacket
deriving DecidableEq

namespace BackendLogin

section Conversation
variable (b : BackendLogin)

def request? (raw : RawPacket) : Option LoginPluginRequest :=
  match Decode.varInt raw with
  | .ok (id, cursor) =>
    if 393 ≤ b.backendProtocol ∧ id.toUInt32.toUInt8 = 0x04 then
      (LoginPluginRequest.decode cursor).toOption.map Prod.fst
    else none
  | .error _ => none

/-- The packet answers the request. Success is for what the proxy has signed or the client has
said. -/
def answers (p : PendingRequest) (raw : RawPacket) : Bool :=
  match LoginPluginResponse.read raw with
  | some r => r.messageId = p.request.messageId &&
      (r.data = none || r.data = some b.velocityData || raw ∈ p.heard)
  | none => false

/-- The request that waits after an act, if everything is in order: one answer to every request, and
that before the next packet is read. -/
def hear : Option PendingRequest → LoginAct → Option (Option PendingRequest)
  | none, .read raw => some ((b.request? raw).map fun request => ⟨request, []⟩)
  | some _, .read _ => none
  | pending, .toClient _ => some pending
  | none, .fromClient _ => some none
  | some p, .fromClient raw => some (some { p with heard := p.heard ++ [raw] })
  | none, .toBackend _ => none
  | some p, .toBackend raw => if b.answers p raw then some none else none

def conversation (journal : List LoginAct) : Option (Option PendingRequest) :=
  journal.foldlM b.hear none

def standing (s : LoginState) : Option (Option PendingRequest) := b.conversation s.journal

theorem conversation_append :
    b.conversation (journal ++ [act]) = (b.conversation journal).bind fun p => b.hear p act := by
  simp only [conversation, foldlM_append, foldlM_cons, foldlM_nil, bind_pure]
  rfl

def requests (journal : List LoginAct) : List LoginPluginRequest :=
  journal.filterMap fun
    | .read raw => b.request? raw
    | _ => none

def responses (journal : List LoginAct) : List RawPacket :=
  journal.filterMap fun
    | .toBackend raw => some raw
    | _ => none

/-- The answer has the number of the request, and reports success only with what the proxy has
signed or the client has said. -/
def Answered (journal : List LoginAct) (request : LoginPluginRequest) (raw : RawPacket) : Prop :=
  ∃ data, LoginPluginResponse.read raw = some ⟨request.messageId, data⟩ ∧
    (data = none ∨ data = some b.velocityData ∨ .fromClient raw ∈ journal)

/-- Someone can answer the request: the proxy, if it has a secret to sign with, or the client, if it
does so at once. -/
def Servable (s : LoginState) (request : LoginPluginRequest) : Prop :=
  (request.channel = "velocity:player_info" ∧ b.mode = .velocity ∧ b.velocitySecret ≠ "") ∨
    (isFml3LoginChannel request.channel = true ∧ ∀ reply rest, s.fromClient = reply :: rest →
      ∃ data, LoginPluginResponse.read reply = some ⟨request.messageId, data⟩)

def StepMeets (s : LoginState) (raw : RawPacket) : Prop :=
  packetId raw = some b.idLoginPlugin →
    393 ≤ b.backendProtocol ∧ ∀ request, b.request? raw = some request → b.Servable s request

def Meets : List RawPacket → LoginState → Prop
  | [], _ => True
  | raw :: rest, s =>
    b.StepMeets s raw ∧ ∀ t, (b.step raw).run s = (.ok false, t) → Meets rest t

end Conversation

section Pairs
variable {b : BackendLogin}

theorem Answered.mono (h : b.Answered journal request raw) (act : LoginAct) :
    b.Answered (journal ++ [act]) request raw := by
  obtain ⟨data, hrd, hdata⟩ := h
  exact ⟨data, hrd, hdata.imp_right (.imp_right (mem_append_left _))⟩

theorem answered_of_answers (h : b.answers p raw = true)
    (hhea : ∀ raw ∈ p.heard, .fromClient raw ∈ journal) :
    b.Answered journal p.request raw := by
  rw [answers] at h
  split at h
  · rename_i r hrd
    simp only [Bool.and_eq_true, Bool.or_eq_true, decide_eq_true_eq] at h
    obtain ⟨hid, hdata⟩ := h
    refine ⟨r.data, ?_, ?_⟩
    · rw [hrd, ← hid]
    · rcases hdata with (hno | hsig) | hmem
      · exact .inl hno
      · exact .inr (.inl hsig)
      · exact .inr (.inr (hhea raw hmem))
  · cases h

theorem hear_cases (h : b.hear before act = some pending) :
    (∃ raw, act = .read raw ∧ before = none ∧
      pending = (b.request? raw).map fun request => ⟨request, []⟩) ∨
    (∃ raw, act = .toClient raw ∧ pending = before) ∨
    (∃ raw, act = .fromClient raw ∧
      pending = before.map fun p => { p with heard := p.heard ++ [raw] }) ∨
    (∃ raw p, act = .toBackend raw ∧ before = some p ∧ b.answers p raw = true ∧
      pending = none) := by
  unfold hear at h
  split at h
  · exact .inl ⟨_, rfl, rfl, (Option.some.inj h).symm⟩
  · cases h
  · exact .inr (.inl ⟨_, rfl, (Option.some.inj h).symm⟩)
  · exact .inr (.inr (.inl ⟨_, rfl, (Option.some.inj h).symm⟩))
  · exact .inr (.inr (.inl ⟨_, rfl, (Option.some.inj h).symm⟩))
  · cases h
  · split at h
    · rename_i hans
      exact .inr (.inr (.inr ⟨_, _, rfl, rfl, hans, (Option.some.inj h).symm⟩))
    · cases h

theorem answered_of_conversation (h : b.conversation journal = some pending) :
    ∃ answered, b.requests journal = answered ++ (pending.map (·.request)).toList ∧
      List.Forall₂ (b.Answered journal) answered (responses journal) ∧
      ∀ p, pending = some p → ∀ raw ∈ p.heard, .fromClient raw ∈ journal := by
  induction journal using List.reverseRecOn generalizing pending with
  | nil =>
    cases h
    exact ⟨[], rfl, .nil, fun p hp => by cases hp⟩
  | append_singleton journal act ih =>
    rw [conversation_append, Option.bind_eq_some_iff] at h
    obtain ⟨before, hbef, hact⟩ := h
    obtain ⟨answered, hreqs, hres, hhea⟩ := ih hbef
    have hkt : List.Forall₂ (b.Answered (journal ++ [act])) answered (responses journal) :=
      hres.imp fun _ _ hansw => hansw.mono act
    have hsti : ∀ p, before = some p → ∀ raw ∈ p.heard, .fromClient raw ∈ journal ++ [act] :=
      fun p hp raw hraw => mem_append_left _ (hhea p hp raw hraw)
    rw [requests, filterMap_append, ← requests, hreqs, responses, filterMap_append, ← responses]
    rcases hear_cases hact with ⟨raw, rfl, rfl, rfl⟩ | ⟨raw, rfl, rfl⟩ | ⟨raw, rfl, rfl⟩ |
      ⟨raw, p, rfl, rfl, hans, rfl⟩
    · refine ⟨answered, ?_, by simpa using hkt, ?_⟩
      · cases hreq : b.request? raw <;> simp [hreq]
      · intro p hp
        obtain ⟨request, -, rfl⟩ := Option.map_eq_some_iff.mp hp
        exact forall_mem_nil _
    · exact ⟨answered, by simp, by simpa using hkt, hsti⟩
    · refine ⟨answered, by simp [Function.comp_def], by simpa using hkt, ?_⟩
      intro q hq heard hmem
      obtain ⟨p, hp, rfl⟩ := Option.map_eq_some_iff.mp hq
      rcases mem_append.mp hmem with hmem | hmem
      · exact hsti p hp heard hmem
      · rw [mem_singleton.mp hmem]
        exact mem_append_right _ (mem_singleton_self _)
    · have hla := answered_of_answers hans (hsti p rfl)
      refine ⟨answered ++ [p.request], by simp, ?_, fun q hq => by cases hq⟩
      exact rel_append hkt (.cons hla .nil)

end Pairs

section Acts
open LoginM
variable {b : BackendLogin} {s : LoginState}

theorem write_cases (side : Side) :
    (∃ e, (write side act).run s = (.error e, s)) ∨
      ∃ writes, (write side act).run s =
        (.ok (), { s with writes := writes, journal := s.journal ++ [act] }) := by
  cases hwrs : s.writes side with
  | zero =>
    refine .inl ⟨.error (.io .other "broken pipe"), ?_⟩
    rw [write, run_bind_ok _ (run_get s), hwrs]
    rfl
  | succ n =>
    refine .inr ⟨fun other => if other = side then n else s.writes other, ?_⟩
    rw [write, run_bind_ok _ (run_get s), hwrs]
    rfl

theorem readClient_cases : (∃ e, readClient.run s = (.error e, s)) ∨
    ∃ raw rest, s.fromClient = raw :: rest ∧ readClient.run s =
      (.ok raw, { s with fromClient := rest, journal := s.journal ++ [.fromClient raw] }) := by
  cases hcli : s.fromClient with
  | nil =>
    refine .inl ⟨.error (.io .unexpectedEof "early eof"), ?_⟩
    rw [readClient, run_bind_ok _ (run_get s), hcli]
    rfl
  | cons raw rest =>
    refine .inr ⟨raw, rest, rfl, ?_⟩
    rw [readClient, run_bind_ok _ (run_get s), hcli]
    rfl

theorem run_protocol_error :
    (protocol (.error e : Except ProtocolError α)).run s = (.error (.error (.protocol e)), s) := rfl

theorem preserves_protocol (r : Except ProtocolError α) : Preserves b.standing (protocol r) := by
  cases r with
  | ok a => exact .pure
  | error e => exact .throw

theorem preserves_writeClient (raw : RawPacket) : Preserves b.standing (writeClient raw) := by
  intro s
  rcases write_cases .client with ⟨e, hrun⟩ | ⟨n, hrun⟩
  · rw [writeClient, hrun]
  · rw [writeClient, hrun, standing, conversation_append, ← standing]
    cases b.standing s with
    | none => rfl
    | some p => cases p <;> rfl

def Settles (b : BackendLogin) (x : LoginM α) (s : LoginState) : Prop :=
  ∃ p, b.standing (x.run s).2 = some p ∧ ∀ a, (x.run s).1 = .ok a → p = none

theorem Settles.of_preserves {x : LoginM α} (hx : Preserves b.standing x)
    (hs : b.standing s = some none) : b.Settles x s :=
  ⟨none, (hx s).trans hs, fun _ _ => rfl⟩

theorem Settles.of_error {x : LoginM α} (h : x.run s = (.error e, t)) (ht : b.standing t = some p) :
    b.Settles x s := by
  refine ⟨p, ?_, ?_⟩
  · rw [h]
    exact ht
  · intro a ha
    rw [h] at ha
    cases ha

theorem Settles.bind {x : LoginM α} {f : α → LoginM γ} (hx : b.standing (x.run s).2 = some p)
    (hf : ∀ a t, x.run s = (.ok a, t) → b.Settles (f a) t) : b.Settles (x >>= f) s := by
  rcases h : x.run s with ⟨r, t⟩
  cases r with
  | ok a =>
    obtain ⟨q, hq, hok⟩ := hf a t h
    refine ⟨q, ?_, ?_⟩
    · rwa [run_bind_ok f h]
    · rwa [run_bind_ok f h]
  | error e =>
    rw [h] at hx
    exact .of_error (run_bind_error f h) hx

theorem Settles.writeBackend (hs : b.standing s = some (some p)) (h : b.answers p raw = true) :
    b.Settles (writeBackend raw) s := by
  rcases write_cases .backend with ⟨e, hrun⟩ | ⟨n, hrun⟩
  · exact .of_error hrun hs
  · refine ⟨none, ?_, fun _ _ => rfl⟩
    rw [LoginM.writeBackend, hrun, standing, conversation_append, ← standing, hs, Option.bind_some,
      hear, if_pos h]

end Acts

section Answers
open LoginM
variable {b : BackendLogin} {s : LoginState}

theorem read_encode (r : LoginPluginResponse) :
    LoginPluginResponse.read (encodeVarInt 0x02 ++ r.encode) = some r := by
  have hid : Decode.varInt (encodeVarInt 0x02 ++ r.encode) = .ok (0x02, r.encode) :=
    Decode.reads_varInt 0x02 _
  have hdec : LoginPluginResponse.decode r.encode = .ok (r, []) := by
    rw [LoginPluginResponse.decode, LoginPluginResponse.encode,
      bind_ok (Decode.reads_varInt r.messageId _)]
    cases r with
    | mk messageId data =>
      cases data with
      | none | some payload => rfl
  rw [LoginPluginResponse.read, hid]
  dsimp only
  rw [if_pos rfl, hdec]
  rfl

theorem varInt_of_read (h : LoginPluginResponse.read raw = some r) :
    ∃ cursor, Decode.varInt raw = .ok (0x02, cursor) := by
  rw [LoginPluginResponse.read] at h
  split at h
  · rename_i id cursor hid
    split at h
    · rename_i hresp
      rw [hresp] at hid
      exact ⟨cursor, hid⟩
    · cases h
  · cases h

theorem settles_respond (hpro : 393 ≤ b.backendProtocol)
    (hs : b.standing s = some (some p)) :
    b.Settles (b.respond p.request.messageId (some b.velocityData)) s := by
  apply Settles.writeBackend hs
  have hid : b.idLoginPluginSb = 0x02 := (login_ids hpro).2.1
  rw [answers, hid]
  have hrd := read_encode ⟨p.request.messageId, some b.velocityData⟩
  rw [show ((0x02 : UInt8).toUInt32.toInt32) = 0x02 from rfl, hrd]
  simp

theorem protocol_eq_ok {r : Except ProtocolError α} (h : (protocol r).run s = (.ok a, t)) :
    r = .ok a ∧ t = s := by
  cases r with
  | ok a' =>
    cases h
    exact ⟨rfl, rfl⟩
  | error e => cases h

theorem settles_reply (hpro : 393 ≤ b.backendProtocol)
    (hs : b.standing s = some (some ⟨request, []⟩))
    (hcli : ∀ reply rest, s.fromClient = reply :: rest →
      ∃ data, LoginPluginResponse.read reply = some ⟨request.messageId, data⟩) :
    b.Settles (do
      let clientRaw ← readClient
      let clientPktId := (← protocol (Decode.varInt clientRaw)).1
      if clientPktId.toUInt32.toUInt8 = b.idLoginPluginSb then writeBackend clientRaw
      else b.respond request.messageId (some [])) s := by
  rcases readClient_cases with ⟨e, hrun⟩ | ⟨reply, rest, hfrom, hrun⟩
  · exact .of_error (run_bind_error _ hrun) hs
  · obtain ⟨data, hrd⟩ := hcli reply rest hfrom
    obtain ⟨cursor, hid⟩ := varInt_of_read hrd
    have hsb : b.idLoginPluginSb = 0x02 := (login_ids hpro).2.1
    have hsta : b.standing { s with
        fromClient := rest, journal := s.journal ++ [.fromClient reply] } =
        some (some ⟨request, [reply]⟩) := by
      rw [standing, conversation_append, ← standing, hs]
      rfl
    have hans : b.answers ⟨request, [reply]⟩ reply = true := by
      rw [answers, hrd]
      simp
    obtain ⟨p, hp, hok⟩ := Settles.writeBackend hsta hans
    rw [Settles, run_bind_ok _ hrun, hid, hsb]
    exact ⟨p, hp, hok⟩

theorem settles_relayRequest (hpro : 393 ≤ b.backendProtocol)
    (hs : b.standing s = some (some ⟨request, []⟩))
    (hcli : ∀ reply rest, s.fromClient = reply :: rest →
      ∃ data, LoginPluginResponse.read reply = some ⟨request.messageId, data⟩) :
    b.Settles (b.relayRequest request) s := by
  rw [relayRequest]
  apply Settles.bind ((preserves_protocol _ s).trans hs)
  intro channel t hchan
  obtain ⟨-, rfl⟩ := protocol_eq_ok hchan
  generalize encodeVarInt b.idLoginPlugin.toUInt32.toInt32 ++
    (encodeVarInt request.messageId ++ (channel ++ request.data)) = question
  rcases write_cases .client with ⟨e, hrun⟩ | ⟨n, hrun⟩
  · exact .of_error (run_bind_error _ hrun) hs
  · have hask := preserves_writeClient (b := b) question t
    rw [writeClient, hrun, hs] at hask
    rw [Settles, writeClient, run_bind_ok _ hrun]
    exact settles_reply hpro hask hcli

theorem settles_answerRequest (hpro : 393 ≤ b.backendProtocol)
    (hs : b.standing s = some (some ⟨request, []⟩)) (h : b.Servable s request) :
    b.Settles (b.answerRequest request) s := by
  rw [answerRequest]
  rcases h with ⟨hchan, hmode, hsec⟩ | ⟨hchan, hcli⟩
  · rw [if_pos ⟨hchan, hmode⟩, if_neg hsec]
    exact settles_respond (p := ⟨request, []⟩) hpro hs
  · have hvel : request.channel ≠ "velocity:player_info" := by
      intro heq
      rw [heq] at hchan
      exact absurd hchan (by decide)
    rw [if_neg fun hboth => hvel hboth.1, if_pos hchan]
    exact settles_relayRequest hpro hs hcli

end Answers

section Runs
open LoginM
variable {b : BackendLogin} {s : LoginState}

theorem preserves_onEncryptionRequest : Preserves b.standing (b.onEncryptionRequest cursor) := by
  unfold onEncryptionRequest
  split
  · exact .throw
  · exact .throw
  · exact .bind (preserves_protocol _) fun body => preserves_writeClient _

theorem Settles.return {x : LoginM α} (h : b.Settles x s) (c : γ) :
    b.Settles (do let _ ← x; return c) s := by
  obtain ⟨p, hp, hok⟩ := h
  apply Settles.bind hp
  intro a t hrun
  rw [hrun] at hp hok
  cases hok a rfl
  exact .of_preserves .pure hp

theorem request?_eq_none (hid : Decode.varInt raw = .ok decoded)
    (h : decoded.1.toUInt32.toUInt8 ≠ b.idLoginPlugin) : b.request? raw = none := by
  rw [request?, hid]
  apply if_neg
  rintro ⟨hpro, hreq⟩
  rw [idLoginPlugin, (login_ids hpro).1] at h
  exact h hreq

theorem preserves_onPacket (h : pktId ≠ b.idLoginPlugin) :
    Preserves b.standing (b.onPacket pktId cursor) := by
  unfold onPacket
  split
  · exact .bind preserves_onEncryptionRequest fun _ => .pure
  split
  · exact .bind (preserves_protocol _) fun _ => .bind (fun _ => rfl) fun _ => .pure
  split
  · exact .pure
  split
  · exact .throw
  · exact .pure

theorem onPacket_request (hpro : 393 ≤ b.backendProtocol) :
    b.onPacket b.idLoginPlugin cursor = do
      b.answerRequest (← protocol (LoginPluginRequest.decode cursor)).1
      return false := by
  obtain ⟨hplu, -, henc, hsucc, hcom⟩ := login_ids hpro
  have hid : b.idLoginPlugin = 0x04 := hplu
  have hoth : b.idEncryptionRequest = 0x01 := henc
  unfold onPacket
  rw [if_neg, if_neg, if_neg, if_pos rfl]
  · rw [hid, hsucc]
    decide
  · rw [hid, hcom]
    decide
  · rw [hid, hoth]
    exact fun hboth => absurd hboth.1 (by decide)

theorem settles_request (hpro : 393 ≤ b.backendProtocol)
    (hs : b.standing s = some (((LoginPluginRequest.decode cursor).toOption.map Prod.fst).map
      fun request => ⟨request, []⟩))
    (h : ∀ request rest, LoginPluginRequest.decode cursor = .ok (request, rest) →
      b.Servable s request) :
    b.Settles (b.onPacket b.idLoginPlugin cursor) s := by
  rw [onPacket_request hpro]
  cases hdec : LoginPluginRequest.decode cursor with
  | error e =>
    rw [hdec] at hs
    exact .of_error (run_bind_error _ run_protocol_error) hs
  | ok decoded =>
    rw [hdec] at hs
    exact (settles_answerRequest hpro hs (h _ _ hdec)).return false

theorem settles_step (hs : b.standing s = some none) (h : b.StepMeets s raw) :
    b.Settles (b.step raw) s := by
  have hrd : b.standing ((note (.read raw)).run s).2 =
      some ((b.request? raw).map fun request => ⟨request, []⟩) := by
    change b.conversation (s.journal ++ [.read raw]) = _
    rw [conversation_append, ← standing, hs]
    rfl
  apply Settles.bind hrd
  intro _ t hnote
  rw [hnote] at hrd
  cases hid : Decode.varInt raw with
  | error e =>
    exact .of_error (run_bind_error _ run_protocol_error) hrd
  | ok decoded =>
    rw [show protocol (.ok decoded) = pure decoded from rfl, pure_bind]
    by_cases hplu : decoded.1.toUInt32.toUInt8 = b.idLoginPlugin
    · have hpkt : packetId raw = some b.idLoginPlugin := by
        rw [packetId, hid, ← hplu]
      obtain ⟨hpro, hser⟩ := h hpkt
      have hreq : b.request? raw =
          (LoginPluginRequest.decode decoded.2).toOption.map Prod.fst := by
        rw [request?, hid]
        exact if_pos ⟨hpro, hplu.trans (login_ids hpro).1⟩
      rw [hreq] at hrd
      rw [hplu]
      apply settles_request hpro hrd
      intro request rest hdec
      have hsm : t.fromClient = s.fromClient := by
        cases hnote
        rfl
      rw [Servable, hsm]
      apply hser request
      rw [hreq, hdec]
      rfl
    · rw [request?_eq_none hid hplu] at hrd
      exact .of_preserves (preserves_onPacket hplu) hrd

theorem settles_completeBackendLogin (hs : b.standing s = some none) (h : b.Meets packets s) :
    b.Settles (b.completeBackendLogin packets) s := by
  induction packets generalizing s with
  | nil => exact .of_preserves .throw hs
  | cons raw rest ih =>
    obtain ⟨hstep, hrs⟩ := h
    obtain ⟨p, hp, hok⟩ := settles_step hs hstep
    apply Settles.bind hp
    intro done t hrun
    rw [hrun] at hp hok
    cases hok done rfl
    cases done with
    | true => exact .of_preserves (.bind .get fun _ => .pure) hp
    | false => exact ih hp (hrs t hrun)

/-- In every login whose requests someone can answer, the backend gets its answers one by one and in
the order of its requests. At most one request waits for its answer, and only where the login has
stopped. -/
theorem plugin_requests_answered (h : b.Meets packets s) (hs : s.journal = []) :
    ∃ answered waiting,
      b.requests ((b.completeBackendLogin packets).run s).2.journal = answered ++ waiting ∧
      List.Forall₂ (b.Answered ((b.completeBackendLogin packets).run s).2.journal) answered
        (responses ((b.completeBackendLogin packets).run s).2.journal) ∧
      waiting.length ≤ 1 ∧
      ∀ threshold, ((b.completeBackendLogin packets).run s).1 = .ok threshold → waiting = [] := by
  have hstart : b.standing s = some none := by
    rw [standing, hs]
    rfl
  obtain ⟨pending, hconversation, hok⟩ := settles_completeBackendLogin hstart h
  obtain ⟨answered, hrequests, hresponses, -⟩ := answered_of_conversation hconversation
  refine ⟨answered, (pending.map (·.request)).toList, hrequests, hresponses, ?_, ?_⟩
  · cases pending <;> simp
  · intro threshold hthreshold
    rw [hok threshold hthreshold]
    rfl

end Runs

section Logins

def plainLogin : BackendLogin where
  backendProtocol := 763
  clientProtocol := 763
  mode := .none
  velocitySecret := ""
  ip := Forwarding.loopback
  profile := ⟨0, "TestPlayer", []⟩
  hmac _ _ _ := 0
  forms := Forwarding.localForms

def freshState (fromClient : List RawPacket) : LoginState where
  fromClient := fromClient
  writes _ := 8
  threshold := -1
  journal := []

def requestOn (channel : String) : RawPacket := [0x04, 0x07] ++ (encodeString channel ++ [0x2A])

theorem meets_forge :
    plainLogin.Meets [requestOn "fml:loginwrapper", [0x02]] (freshState [[0x02, 0x07, 0x01]]) := by
  have hreq : plainLogin.request? (requestOn "fml:loginwrapper") =
      some ⟨7, "fml:loginwrapper", [0x2A]⟩ := by
    decide +kernel
  have hsucc : packetId [0x02] ≠ some plainLogin.idLoginPlugin := by decide +kernel
  refine ⟨fun _ => ⟨by decide, ?_⟩, fun t _ => ⟨fun h => absurd h hsucc, fun _ _ => trivial⟩⟩
  intro request h
  cases hreq.symm.trans h
  refine .inr ⟨by decide +kernel, ?_⟩
  intro reply rest hrep
  cases hrep
  exact ⟨some [], by decide +kernel⟩

theorem plugin_requests_answered_forge :
    ∃ journal, ((plainLogin.completeBackendLogin [requestOn "fml:loginwrapper", [0x02]]).run
        (freshState [[0x02, 0x07, 0x01]])).2.journal = journal ∧
      List.Forall₂ (plainLogin.Answered journal) [⟨7, "fml:loginwrapper", [0x2A]⟩]
        [[0x02, 0x07, 0x01]] := by
  refine ⟨_, rfl, ?_⟩
  obtain ⟨answered, waiting, hrequests, hanswered, -, hok⟩ :=
    plugin_requests_answered meets_forge rfl
  rw [hok (-1) rfl, append_nil] at hrequests
  rw [← hrequests] at hanswered
  exact hanswered

/-- A request that nobody understands is answered with success. -/
theorem unknown_channel_succeeds :
    ((plainLogin.completeBackendLogin [requestOn "example:hello", [0x02]]).run
        (freshState [])).2.journal =
        [.read (requestOn "example:hello"), .toBackend [0x02, 0x07, 0x01], .read [0x02]] ∧
      plainLogin.request? (requestOn "example:hello") = some ⟨7, "example:hello", [0x2A]⟩ ∧
      LoginPluginResponse.read [0x02, 0x07, 0x01] = some ⟨7, some []⟩ ∧
      plainLogin.velocityData ≠ [] := by
  decide +kernel

end Logins

end BackendLogin

end Kojacoord
