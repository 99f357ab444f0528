import Kojacoord.Lib.Interleaving
import Kojacoord.Net.ClientFrames

namespace Kojacoord
open Framing Interleaving Journal Notify Runs StopFlag ServerSelector

def RelayAct.toBackend : RelayAct → Option ToBackend
  | wroteBackend packet => some packet
  | _ => none

def backendWrites (acts : List RelayAct) : List ToBackend := acts.filterMap RelayAct.toBackend

def splitId (payload : List UInt8) : Option (UInt8 × List UInt8) :=
  match Decode.varInt payload with
  | .ok (v, body) => if v < 0 ∨ 255 < v then none else some (v.toInt.toNat.toUInt8, body)
  | .error _ => none

namespace RelayEnv
variable (env : RelayEnv)

def transferCommand (id : UInt8) (body : List UInt8) : Option TransferCommand :=
  if id = env.sbPluginMessageId then
    match decodeServerboundPluginMessage body env.protocol with
    | .ok msg =>
      if isServerlistChannel msg.channel ||
          isConnectChannel msg.channel ||
          isModpackChannel msg.channel then none
      else parseCommand env.transfer msg.channel msg.data
    | .error _ => none
  else none

/-- The packets that the proxy may keep: movements that plugins are asked about, messages on the
proxy's own channels, and chat. -/
def intercepts (id : UInt8) (body : List UInt8) : Bool :=
  (env.moveEvent id body).isSome || env.takesMessage id body ||
    (decide (id ∈ env.chatPacketIds) && (Decode.string body).isOk)

end RelayEnv

/-- What a client's packet may put on the wire to the backend: nothing if it is intercepted, itself,
itself without its chat signature, or the reply to its transfer command. -/
inductive Contributes (env : RelayEnv) (payload : List UInt8) : List ToBackend → Prop
  | malformed : Decode.varInt payload = .error e → Contributes env payload []
  | intercepted {id : UInt8} : splitId payload = some (id, body) → env.intercepts id body = true →
      Contributes env payload []
  | forwarded : Contributes env payload [.forwarded payload]
  | stripped {id : UInt8} : splitId payload = some (id, body) → id ∈ env.chatPacketIds →
      env.chatSigningMode = some .unsigned → env.stripChatSignature payload = .ok stripped →
      Contributes env payload [.forwarded stripped]
  | replied {id : UInt8} : splitId payload = some (id, body) → env.transferCommand id body = some command →
      Contributes env payload [.response response]

/-- Every run of the program writes something to the backend that satisfies `R` together with the
result. -/
def RelayM.Writes (x : RelayM α) (R : List ToBackend → Except ConnectionError α → Prop) : Prop :=
  Traces Relay.journal x fun acts result => R (backendWrites acts) result

abbrev RelayM.Silent (x : RelayM α) : Prop := Keeps Relay.journal (·.toBackend = none) x

namespace RelayM
variable {env : RelayEnv} {id : UInt8} {body payload : List UInt8} {x : RelayM α}
  {f : α → RelayM β}

theorem Silent.writes {R : List ToBackend → Except ConnectionError α → Prop} (h : Silent x)
    (hR : ∀ result, R [] result) : Writes x R := by
  apply Traces.mono h
  intro acts result hacts
  rw [backendWrites, List.filterMap_eq_nil_iff.mpr hacts]
  exact hR result

theorem Writes.pure {R : List ToBackend → Except ConnectionError α → Prop} (h : R [] (.ok a)) :
    Writes (Pure.pure a) R :=
  Traces.pure h

theorem Writes.bind {R : List ToBackend → Except ConnectionError α → Prop}
    {S : List ToBackend → Except ConnectionError β → Prop} (hx : Writes x R)
    (hf : ∀ ws a, R ws (.ok a) → Writes (f a) fun ws' result => S (ws ++ ws') result)
    (he : ∀ ws e, R ws (.error e) → S ws (.error e)) : Writes (x >>= f) S := by
  apply Traces.bind hx
  · intro acts a hacts
    apply Traces.mono (hf _ a hacts)
    intro acts' result hS
    rwa [backendWrites, List.filterMap_append]
  · intro acts e hacts
    exact he _ e hacts

theorem Writes.silent_bind {S : List ToBackend → Except ConnectionError β → Prop} (hx : Silent x)
    (hf : ∀ a, Writes (f a) S) (he : ∀ e, S [] (.error e)) : Writes (x >>= f) S := by
  apply Writes.bind (hx.writes fun _ => rfl : Writes x fun ws _ => ws = [])
  · rintro ws a rfl
    exact hf a
  · rintro ws e rfl
    exact he e

theorem writes_writeBackend : Writes (writeBackend env packet) fun ws _ => ws = [packet] := by
  intro r
  refine ⟨[.wroteBackend packet], ?_, rfl⟩
  rw [run_writeBackend]

theorem Writes.write_pure {R : List ToBackend → Except ConnectionError α → Prop}
    (h : R [packet] (.ok a)) (he : ∀ e, R [packet] (.error e)) :
    Writes (do writeBackend env packet; return a : RelayM α) R := by
  apply writes_writeBackend.bind
  · rintro ws ⟨⟩ rfl
    exact .pure h
  · rintro ws e rfl
    exact he e

theorem silent_checkMovement : Silent (checkMovement env id body) :=
  (acts_checkMovement (fun _ => rfl) fun _ _ _ => rfl).1

theorem writes_checkMovement : Writes (checkMovement env id body) fun ws result =>
    ws = [] ∧ ((env.moveEvent id body).isSome = true ∨ result = .ok ()) := by
  cases hev : env.moveEvent id body with
  | some event => exact silent_checkMovement.writes fun _ => ⟨rfl, .inl rfl⟩
  | none =>
    unfold checkMovement
    rw [hev]
    exact .pure ⟨rfl, .inr rfl⟩

theorem writes_storeCookie : Writes (storeCookie env msg) fun ws result =>
    ws = [] ∧ result = .ok () := by
  unfold storeCookie
  split
  · intro r
    exact ⟨[.storedCookie msg.data], rfl, rfl, rfl⟩
  · exact .pure ⟨rfl, rfl⟩

/-- A message that the proxy does not take is passed over in silence, and one that it takes is
answered at most once, if it is a transfer command. -/
def MessageWrites (env : RelayEnv) (id : UInt8) (body : List UInt8) (ws : List ToBackend)
    (result : Except ConnectionError (Option Flow)) : Prop :=
  (ws = [] ∧ (env.takesMessage id body = true ∨ result = .ok none)) ∨
    ∃ command response, env.transferCommand id body = some command ∧ ws = [.response response] ∧
      result ≠ .ok none

theorem Silent.messageWrites {x : RelayM (Option Flow)} (hx : Silent x)
    (h : env.takesMessage id body = true) : Writes x (MessageWrites env id body) :=
  hx.writes fun _ => .inl ⟨rfl, .inl h⟩

theorem silent_switchTo :
    Silent (do return some (← switchOr env server) : RelayM (Option Flow)) :=
  (acts_switchTo fun _ => rfl).1

theorem writes_handlePluginMessage (hid : id = env.sbPluginMessageId)
    (hmsg : decodeServerboundPluginMessage body env.protocol = .ok msg) :
    Writes (handlePluginMessage env msg) (MessageWrites env id body) := by
  have htak : env.takesMessage id body = (isServerlistChannel msg.channel ||
      isConnectChannel msg.channel || isModpackChannel msg.channel ||
      (parseCommand env.transfer msg.channel msg.data).isSome) := by
    simp [RelayEnv.takesMessage, hid, hmsg]
  apply Writes.bind writes_storeCookie
  · rintro ws ⟨⟩ ⟨rfl, -⟩
    split
    · rename_i hser
      refine Silent.messageWrites ?_ (by simp [htak, hser])
      exact .bind .get fun _ => .bind (Acts.keeps (acts_writeClient rfl)) fun _ => .pure
    · rename_i hser
      split
      · rename_i hcon
        have h : env.takesMessage id body = true := by simp [htak, hcon]
        split
        · exact silent_switchTo.messageWrites h
        · exact Silent.messageWrites .pure h
      · rename_i hcon
        split
        · rename_i hmod
          refine Silent.messageWrites ?_ (by simp [htak, hmod])
          exact .bind (acts_broadcast fun _ => rfl).1 fun _ => .pure
        · rename_i hmod
          split
          · rename_i hcmd
            exact silent_switchTo.messageWrites (by simp [htak, hcmd])
          · rename_i command _ hcmd
            have h : env.takesMessage id body = true := by simp [htak, hcmd]
            have htra : env.transferCommand id body = some command := by
              simp [RelayEnv.transferCommand, hid, hmsg, hser, hcon, hmod, hcmd]
            apply Writes.silent_bind (.of_silent (preserves_journal_handleTransferCommand command))
            · intro response
              cases response with
              | some response =>
                exact .write_pure (.inr ⟨command, response, htra, rfl, nofun⟩)
                  fun _ => .inr ⟨command, response, htra, rfl, nofun⟩
              | none => exact Silent.messageWrites .pure h
            · intro e
              exact .inl ⟨rfl, .inl h⟩
          · exact .pure (.inl ⟨rfl, .inr rfl⟩)
  · rintro ws e ⟨-, h⟩
    cases h

theorem writes_routePluginMessage :
    Writes (routePluginMessage env id body) (MessageWrites env id body) := by
  unfold routePluginMessage
  split
  · rename_i hid
    cases hmsg : decodeServerboundPluginMessage body env.protocol with
    | ok msg => exact writes_handlePluginMessage hid hmsg
    | error e => exact .pure (.inl ⟨rfl, .inr rfl⟩)
  · exact .pure (.inl ⟨rfl, .inr rfl⟩)

def Forwards (env : RelayEnv) (id : UInt8) (payload forwarded : List UInt8) : Prop :=
  forwarded = payload ∨ (id ∈ env.chatPacketIds ∧ env.chatSigningMode = some .unsigned ∧
    env.stripChatSignature payload = .ok forwarded)

def ChatResult (env : RelayEnv) (id : UInt8) (payload body : List UInt8) :
    Except ConnectionError ChatOutcome → Prop
  | .ok (.forward forwarded) => Forwards env id payload forwarded
  | _ => (decide (id ∈ env.chatPacketIds) && (Decode.string body).isOk) = true

section Chat
variable (hchat : (decide (id ∈ env.chatPacketIds) && (Decode.string body).isOk) = true)
include hchat

theorem yields_handleChatCommand (hfor : Forwards env id payload forwarded) :
    Yields (ChatResult env id payload body) (handleChatCommand env line forwarded) := by
  have herr (e : ConnectionError) : ChatResult env id payload body (.error e) := hchat
  refine .bind (fun r => .bind (fun current => .bind (fun _ => .bind (fun _ => ?_) ?_) ?_) ?_) ?_
  · split
    · exact .bind (fun _ _ => hchat) herr
    · exact fun _ => hchat
    · exact fun _ => hfor
    · exact fun _ => hfor
  all_goals exact herr

theorem yields_handlePlainChat :
    Yields (ChatResult env id payload body) (handlePlainChat env text) := by
  refine .bind (fun kicked => ?_) fun _ => hchat
  split
  · exact fun _ => hchat
  · exact .bind (fun _ _ => hchat) fun _ => hchat

theorem yields_handleChat (hid : id ∈ env.chatPacketIds) :
    Yields (ChatResult env id payload body) (handleChat env id payload text) := by
  unfold handleChat
  dsimp only
  split
  · exact .bind (fun _ _ => hchat) fun _ => hchat
  · split
    · apply yields_handleChatCommand hchat
      split
      · rename_i hmode
        split
        · rename_i stripped hstr
          exact .inr ⟨hid, hmode, hstr⟩
        · exact .inl rfl
      · exact .inl rfl
    · exact yields_handlePlainChat hchat

end Chat

theorem yields_routeChat :
    Yields (ChatResult env id payload body) (routeChat env id payload body) := by
  unfold routeChat
  split
  · rename_i hid
    cases htx : Decode.string body with
    | error e => exact fun _ => .inl rfl
    | ok parsed =>
      refine yields_handleChat ?_ hid
      rw [htx, decide_eq_true hid]
      rfl
  · exact fun _ => .inl rfl

theorem writes_routeChat : Writes (routeChat env id payload body) fun ws result =>
    ws = [] ∧ ChatResult env id payload body result := by
  have hsil : Silent (routeChat env id payload body) :=
    (acts_routeChat (fun _ => rfl) (fun _ => rfl) fun _ _ _ _ _ =>
      ⟨fun _ => rfl, fun _ => rfl⟩).1
  intro r
  obtain ⟨acts, hlog, hacts⟩ := hsil r
  exact ⟨acts, hlog, List.filterMap_eq_nil_iff.mpr hacts, yields_routeChat r⟩

theorem Forwards.contributes (hspl : splitId payload = some (id, body))
    (h : Forwards env id payload forwarded) : Contributes env payload [.forwarded forwarded] := by
  rcases h with rfl | ⟨hid, hmode, hstr⟩
  · exact .forwarded
  · exact .stripped hspl hid hmode hstr

theorem writes_injectConfiguration : Writes (injectConfiguration env id) fun ws result =>
    ws = [] ∧ result = .ok () := by
  unfold injectConfiguration
  split
  · split
    · rename_i packets _
      intro r
      refine ⟨packets.map .injected, rfl, ?_, rfl⟩
      rw [backendWrites, List.filterMap_map]
      exact List.filterMap_eq_nil_iff.mpr fun _ _ => rfl
    · exact .pure ⟨rfl, rfl⟩
  · exact .pure ⟨rfl, rfl⟩

theorem writes_forwarding (hspl : splitId payload = some (id, body))
    (h : Forwards env id payload forwarded) :
    Writes (do
      injectConfiguration env id
      writeBackend env (.forwarded forwarded)
      return .continue : RelayM Flow) fun ws _ => Contributes env payload ws := by
  have hcon := h.contributes hspl
  apply writes_injectConfiguration.bind
  · rintro ws ⟨⟩ ⟨rfl, -⟩
    exact .write_pure hcon fun _ => hcon
  · rintro ws e ⟨-, h⟩
    cases h

theorem writes_afterMovement (hspl : splitId payload = some (id, body)) :
    Writes (afterMovement env id payload body) fun ws _ => Contributes env payload ws := by
  apply writes_routePluginMessage.bind
  · intro ws result hmsg
    rcases hmsg with ⟨rfl, htk⟩ | ⟨command, response, hcmd, rfl, hso⟩
    · cases result with
      | some flow =>
        have htak : env.takesMessage id body = true := by simpa using htk
        exact .pure (.intercepted hspl (by simp [RelayEnv.intercepts, htak]))
      | none =>
        apply writes_routeChat.bind
        · rintro ws outcome ⟨rfl, hchat⟩
          cases outcome with
          | done flow => exact .pure (.intercepted hspl (Bool.or_eq_true_iff.mpr (.inr hchat)))
          | forward forwarded => exact writes_forwarding hspl hchat
        · rintro ws e ⟨rfl, hchat⟩
          exact .intercepted hspl (Bool.or_eq_true_iff.mpr (.inr hchat))
    · cases result with
      | some flow => exact .pure (.replied hspl hcmd)
      | none => exact absurd rfl hso
  · intro ws e hmsg
    rcases hmsg with ⟨rfl, htk⟩ | ⟨command, response, hcmd, rfl, -⟩
    · have htak : env.takesMessage id body = true := by simpa using htk
      exact .intercepted hspl (by simp [RelayEnv.intercepts, htak])
    · exact .replied hspl hcmd

theorem writes_iteration :
    Writes (iteration env payload) fun ws _ => Contributes env payload ws := by
  cases hv : Decode.varInt payload with
  | error e =>
    rw [iteration, hv]
    exact Silent.writes (acts_kick fun _ => rfl).1 fun _ => .malformed hv
  | ok parsed =>
    obtain ⟨v, body⟩ := parsed
    by_cases hrng : v < 0 ∨ 255 < v
    · rw [iteration, hv]
      simp only [hrng, if_true]
      exact .write_pure .forwarded fun _ => .forwarded
    · rw [iteration_eq hv hrng]
      have hspl : splitId payload = some (v.toInt.toNat.toUInt8, body) := by
        simp only [splitId, hv, hrng, if_false]
      generalize v.toInt.toNat.toUInt8 = id at hspl
      apply writes_checkMovement.bind
      · rintro ws ⟨⟩ ⟨rfl, -⟩
        exact writes_afterMovement hspl
      · rintro ws e ⟨rfl, hev⟩
        have hso : (env.moveEvent id body).isSome = true := by simpa using hev
        exact .intercepted hspl (by simp [RelayEnv.intercepts, hso])

end RelayM

def TaskPhase.inHand : TaskPhase on work → Option work
  | working w => some w
  | _ => none

theorem TaskPhase.inHand_proceed {before after leave : TaskPhase on work}
    (h : before.proceed v leave = some after) (hlv : leave.inHand = none) :
    after.inHand = before.inHand := by
  cases before with
  | top =>
    cases h
    split
    · exact hlv
    · rfl
  | waiting =>
    simp only [proceed] at h
    split at h
    · cases h
      exact hlv
    · cases h
  | checked | storing | notifying =>
    cases h
    rfl
  | created | working | done => cases h

theorem inHand_afterRound (result : Except ConnectionError Flow) :
    (afterRound (.storing (.ok ())) result : TaskPhase on work).inHand = none := by
  rcases result with e | flow
  · rfl
  · cases flow <;> rfl

def C2sWork.fromClient : C2sWork → Option (List UInt8)
  | handle payload => some payload
  | inject _ => none

def C2sWork.fromChannel : C2sWork → Option (List UInt8)
  | inject raw => some raw
  | handle _ => none

/-- With this journal, what has been written to the backend are the contributions of the client's
packets and the packets of the channel, each in their order. A packet in hand is yet to come. -/
structure C2s.Ordered (env : PumpEnv) (journal : List RelayAct) (c : C2s) : Prop where
  writes : ∃ handled contributions injected,
    c.processed = handled ++ (c.phase.inHand.bind C2sWork.fromClient).toList ∧
    List.Forall₂ (Contributes env.toRelayEnv) handled contributions ∧
    c.received = injected ++ (c.phase.inHand.bind C2sWork.fromChannel).toList ∧
    Interleaves contributions.flatten (injected.map .queued) (backendWrites journal)
  channel : c.offered = c.received ++ c.backendOut

theorem C2s.Ordered.congr (h : Ordered env journal c) (hproc : c'.processed = c.processed)
    (hph : c'.phase.inHand = c.phase.inHand) (hrec : c'.received = c.received)
    (hoff : c'.offered = c.offered) (hout : c'.backendOut = c.backendOut) :
    Ordered env journal c' := by
  constructor
  · rw [hproc, hph, hrec]
    exact h.writes
  · rw [hoff, hrec, hout]
    exact h.channel

theorem C2sWork.writes_program (env : PumpEnv) (w : C2sWork) :
    RelayM.Writes (w.program env) fun ws _ => match w with
      | .inject raw => ws = [.queued raw]
      | .handle payload => Contributes env.toRelayEnv payload ws := by
  cases w with
  | inject raw => exact .write_pure rfl fun _ => rfl
  | handle payload => exact RelayM.writes_iteration

theorem C2s.Ordered.work {v : View} (h : Ordered env v.relay.journal c)
    (hph : c.phase = .working w)
    (hrun : ExceptT.run (w.program env) v.relay = (result, relay)) :
    Ordered env relay.journal { c with phase := afterRound (.storing (.ok ())) result } := by
  obtain ⟨⟨handled, contributions, injected, hproc, hcon, hrec, hwri⟩, hchan⟩ := h
  refine ⟨?_, hchan⟩
  obtain ⟨acts, hlog, hacts⟩ := w.writes_program env v.relay
  rw [hrun] at hlog
  rw [hlog, backendWrites, List.filterMap_append]
  rw [hph] at hproc hrec
  simp only [inHand_afterRound]
  cases w with
  | inject raw =>
    refine ⟨handled, contributions, injected ++ [raw], hproc, hcon, ?_, ?_⟩
    · exact hrec.trans (List.append_nil _).symm
    · rw [← backendWrites, ← backendWrites, hacts, List.map_append]
      exact hwri.append_right _
  | handle payload =>
    refine ⟨handled ++ [payload], contributions ++ [backendWrites acts], injected, ?_, ?_, hrec, ?_⟩
    · exact hproc.trans (List.append_nil _).symm
    · exact List.rel_append hcon (.cons hacts .nil)
    · rw [List.flatten_append, List.flatten_singleton]
      exact hwri.append_left _

theorem C2s.Ordered.next {v : View} (h : Ordered env v.relay.journal c)
    (hnx : Next env v c l c' r) :
    Ordered env r.journal c' := by
  cases hnx with
  | proceed hph => exact h.congr rfl (TaskPhase.inHand_proceed hph rfl) rfl rfl rfl
  | enter hph | shutdown hph | fail hph =>
    refine h.congr rfl ?_ rfl rfl rfl
    rw [hph]
    rfl
  | fill => exact h.congr rfl rfl rfl rfl rfl
  | recv hph _ hout =>
    obtain ⟨⟨handled, contributions, injected, hproc, hcon, hrec, hwri⟩, hchan⟩ := h
    rw [hph] at hproc hrec
    constructor
    · refine ⟨handled, contributions, injected, hproc, hcon, ?_, hwri⟩
      simpa [C2s.receive, TaskPhase.inHand, C2sWork.fromChannel] using hrec
    · simpa [C2s.receive, hout] using hchan
  | feed hph =>
    simp only [C2s.feed]
    split
    · refine h.congr rfl ?_ rfl rfl rfl
      rw [hph]
      rfl
    · obtain ⟨⟨handled, contributions, injected, hproc, hcon, hrec, hwri⟩, hchan⟩ := h
      rw [hph] at hproc hrec
      refine ⟨⟨handled, contributions, injected, ?_, hcon, hrec, hwri⟩, hchan⟩
      simpa [TaskPhase.inHand, C2sWork.fromClient] using hproc
    · refine h.congr rfl ?_ rfl rfl rfl
      rw [hph]
      rfl
  | work hph hrun => exact h.work hph hrun

theorem RelayM.preserves_journal_verdict (env : PumpEnv) (n : Nat) (payload : List UInt8) :
    Preserves Relay.journal (verdict env n payload) := by
  unfold verdict
  split
  · exact .pure
  · split
    · exact .pure
    · dsimp only
      split
      · exact .pure
      · apply Preserves.bind
        · unfold routeClientboundMessage
          split
          · split
            · split
              · exact .pure
              · split
                · apply Preserves.bind (preserves_journal_handleTransferCommand _)
                  intro response
                  split <;> exact .pure
                · exact .pure
            · exact .pure
          · exact .pure
        · intro verdict
          split
          · exact .pure
          · split
            · split <;> exact .pure
            · split <;> exact .pure

theorem S2c.journal_work (env : PumpEnv) (v : View) (s : S2c) (w : S2cWork) :
    (s.work env v w).2.journal = v.relay.journal := by
  cases w with
  | handle payload =>
    have hjou := RelayM.preserves_journal_verdict env s.handled payload v.relay
    simp only [S2c.work]
    split
    · rename_i hrun
      rwa [hrun] at hjou
    · rename_i hrun
      rwa [hrun] at hjou
  | farewell | close => rfl

theorem S2c.journal_next (h : S2c.Next env v s l after) :
    after.2.journal = v.relay.journal := by
  cases h with
  | work => exact S2c.journal_work env v s _
  | _ => rfl

end Kojacoord
