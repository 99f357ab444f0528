import Kojacoord.Net.Veto
import Kojacoord.Net.Identity
import Kojacoord.Net.Isolation

namespace Kojacoord
open Journal

def RelayAct.spreads : RelayAct → Bool
  | broadcast _ | wroteBackend (.forwarded _) => true
  | _ => false

def RelayAct.asksChat : RelayAct → Bool
  | asked (.playerChat ..) _ => true
  | _ => false

namespace RelayEnv
variable (env : RelayEnv)

/-- The plain chat line in a packet, with the number of the event it becomes when `n` events came
before the packet. -/
def plainChat (n : Nat) (payload : List UInt8) : Option (Nat × String) :=
  match Decode.varInt payload with
  | .error _ => none
  | .ok (v, body) =>
    let id := v.toInt.toNat.toUInt8
    if v < 0 ∨ 255 < v then none
    else if env.moveKicks n id body || env.takesMessage id body then none
    else if id ∈ env.chatPacketIds then
      match Decode.string body with
      | .ok (text, _) =>
        if env.isPlain id text then some (n + (env.moveEvent id body).isSome.toNat, text) else none
      | .error _ => none
    else none

end RelayEnv

namespace RelayM
variable {env : RelayEnv} {r : Relay} {id : UInt8}

def Quiet (acts : List RelayAct) : Prop := ∀ a ∈ acts, a.spreads = false ∧ a.asksChat = false

theorem asksChat_moveEvent (h : env.moveEvent id body = some event) :
    (RelayAct.asked event results).asksChat = false := by
  unfold RelayEnv.moveEvent at h
  split at h
  · dsimp only at h
    split at h
    · cases h
      rfl
    · cases h
  · cases h

theorem run_quiet_checkMovement (h : env.moveKicks r.events id body = false) :
    ∃ acts, Quiet acts ∧ ExceptT.run (checkMovement env id body) r =
      (.ok (), { r with
        events := r.events + (env.moveEvent id body).isSome.toNat
        journal := r.journal ++ acts }) := by
  unfold checkMovement
  cases he : env.moveEvent id body with
  | none =>
    refine ⟨[], nofun, ?_⟩
    rw [List.append_nil]
    rfl
  | some event =>
    have hk : env.moveKick (env.results r.events event) = none := by
      simpa [RelayEnv.moveKicks, he] using h
    have hqt : Quiet [.asked event (env.results r.events event)] := by
      intro a ha
      rw [List.mem_singleton.mp ha]
      exact ⟨rfl, asksChat_moveEvent he⟩
    refine ⟨_, hqt, ?_⟩
    rw [run_bind_ok _ run_broadcast, hk]
    rfl

theorem run_quiet_storeCookie (env : RelayEnv) (r : Relay) (msg : PluginMessage) :
    ∃ acts, Quiet acts ∧
      ExceptT.run (storeCookie env msg) r = (.ok (), { r with journal := r.journal ++ acts }) := by
  unfold storeCookie
  split
  · exact ⟨[.storedCookie msg.data], by simp [Quiet, RelayAct.spreads, RelayAct.asksChat], rfl⟩
  · refine ⟨[], nofun, ?_⟩
    rw [List.append_nil]
    rfl

theorem run_quiet_routePluginMessage (h : env.takesMessage id body = false) :
    ∃ acts, Quiet acts ∧ ExceptT.run (routePluginMessage env id body) r =
      (.ok none, { r with journal := r.journal ++ acts }) := by
  have hnot : Quiet ([] : List RelayAct) ∧
      ((.ok none, r) : Except ConnectionError (Option Flow) × Relay) =
        (.ok none, { r with journal := r.journal ++ [] }) := ⟨nofun, by rw [List.append_nil]⟩
  unfold routePluginMessage
  unfold RelayEnv.takesMessage at h
  split
  · rename_i hid
    cases hd : decodeServerboundPluginMessage body env.protocol with
    | error e => exact ⟨[], hnot⟩
    | ok msg =>
      simp only [hid, decide_true, hd, Bool.true_and, Bool.or_eq_false_iff,
        Option.isSome_eq_false_iff, Option.isNone_iff_eq_none] at h
      obtain ⟨⟨⟨hser, hcon⟩, hmod⟩, hcmd⟩ := h
      obtain ⟨acts, hqt, hcoo⟩ := run_quiet_storeCookie env r msg
      refine ⟨acts, hqt, ?_⟩
      simp only [handlePluginMessage, hser, hcon, hmod, hcmd]
      rw [run_bind_ok _ hcoo]
      rfl
  · exact ⟨[], hnot⟩

theorem run_relayDispatch : ExceptT.run (dispatch env event) r =
    (.ok (dispatchPluginEvent event (env.results r.events event)).subjectKicked, { r with
        events := r.events + 1
        journal := r.journal ++ [.asked event (env.results r.events event)] ++
          (dispatchPluginEvent event (env.results r.events event)).notices.map .noticed }) := rfl

def Spread (acts : List RelayAct) : Prop := ∃ a ∈ acts, a.spreads = true

def Unasked (acts : List RelayAct) : Prop := ∀ a ∈ acts, a.asksChat = false

theorem run_handlePlainChat (r : Relay)
    (h : env.results r.events (.playerChat env.uuid text) = results) :
    ∃ flow acts r', ExceptT.run (handlePlainChat env text) r = (.ok (.done flow), r') ∧
      r'.journal = r.journal ++ .asked (.playerChat env.uuid text) results :: acts ∧
      Unasked acts ∧ (Spread acts ↔ kickStands env.uuid results = false) := by
  unfold handlePlainChat
  rw [run_bind_ok _ run_relayDispatch, subjectKicked_eq rfl, h]
  let notices := (dispatchPluginEvent (.playerChat env.uuid text) results).notices
  cases kickStands env.uuid results with
  | true =>
    refine ⟨.finish, notices.map .noticed, _, rfl, List.append_assoc .., ?_, ?_⟩
    · simp [Unasked, RelayAct.asksChat]
    · simp [Spread, RelayAct.spreads]
  | false =>
    let line : RelayAct := .broadcast (env.username ++ ": " ++ text)
    refine ⟨.continue, notices.map .noticed ++ [line], _, rfl, ?_, ?_, ?_⟩
    · exact (congrArg (· ++ [line]) (List.append_assoc ..)).trans (List.append_assoc ..)
    · simp [Unasked, RelayAct.asksChat, line, or_imp, forall_and]
    · simp [Spread, RelayAct.spreads, line]

theorem routeChat_plain (hid : id ∈ env.chatPacketIds)
    (htx : Decode.string body = .ok (text, rest)) (hpl : env.isPlain id text = true) :
    routeChat env id payload body = handlePlainChat env text := by
  simp only [RelayEnv.isPlain, Bool.and_eq_true, Bool.not_eq_true', decide_eq_false_iff_not] at hpl
  obtain ⟨hfit, hcmd⟩ := hpl
  simp only [routeChat, hid, if_true, htx, handleChat]
  cases hche : checkChatMessage text with
  | error reason =>
    rw [hche] at hfit
    cases hfit
  | ok _ => exact if_neg hcmd

theorem plainChat_eq_some (h : env.plainChat n payload = some (m, text)) :
    ∃ v body rest, Decode.varInt payload = .ok (v, body) ∧ ¬ (v < 0 ∨ 255 < v) ∧
      env.moveKicks n v.toInt.toNat.toUInt8 body = false ∧
      env.takesMessage v.toInt.toNat.toUInt8 body = false ∧
      v.toInt.toNat.toUInt8 ∈ env.chatPacketIds ∧ Decode.string body = .ok (text, rest) ∧
      env.isPlain v.toInt.toNat.toUInt8 text = true ∧
      n + (env.moveEvent v.toInt.toNat.toUInt8 body).isSome.toNat = m := by
  unfold RelayEnv.plainChat at h
  split at h
  · cases h
  · rename_i v body hv
    dsimp only at h
    split at h
    · cases h
    · rename_i hrng
      split at h
      · cases h
      · rename_i hkt
        simp only [Bool.or_eq_true, not_or, Bool.not_eq_true] at hkt
        split at h
        · rename_i hid
          split at h
          · rename_i line rest htx
            split at h
            · rename_i hpl
              cases h
              exact ⟨v, body, rest, hv, hrng, hkt.1, hkt.2, hid, htx, hpl, rfl⟩
            · cases h
          · cases h
        · cases h

theorem added_iteration_plain (h : env.plainChat r.events payload = some (n, text)) :
    let results := env.results n (.playerChat env.uuid text)
    ∃ before after, added Relay.journal (iteration env payload) r =
        before ++ .asked (.playerChat env.uuid text) results :: after ∧
      Quiet before ∧ Unasked after ∧ (Spread after ↔ kickStands env.uuid results = false) := by
  obtain ⟨v, body, rest, hv, hrng, hmv, hmsg, hid, htx, hpl, rfl⟩ := plainChat_eq_some h
  obtain ⟨acts₁, hqt₁, hrun₁⟩ := run_quiet_checkMovement hmv
  obtain ⟨acts₂, hqt₂, hrun₂⟩ := run_quiet_routePluginMessage hmsg
  obtain ⟨flow, acts₃, r', hrun₃, hjou, huna, hspr⟩ := run_handlePlainChat { r with
    events := r.events + (env.moveEvent v.toInt.toNat.toUInt8 body).isSome.toNat
    journal := r.journal ++ acts₁ ++ acts₂ } rfl
  refine ⟨acts₁ ++ acts₂, acts₃, ?_, ?_, huna, hspr⟩
  · rw [added, iteration_eq hv hrng, run_bind_ok _ hrun₁, afterMovement, run_bind_ok _ hrun₂,
      routeChat_plain hid htx hpl, run_bind_ok _ hrun₃]
    change r'.journal.drop _ = _
    simp only [hjou, List.append_assoc, List.drop_left]
  · intro a ha
    rcases List.mem_append.mp ha with ha | ha
    · exact hqt₁ a ha
    · exact hqt₂ a ha

theorem keeps_movement : Keeps Relay.journal (·.asksChat = false) (checkMovement env id body) :=
  (acts_checkMovement (fun _ => rfl) fun _ _ => asksChat_moveEvent).1

def Settled (acts : List RelayAct) (result : Except ConnectionError (Option Flow)) : Prop :=
  Unasked acts ∧ result ≠ .ok none

theorem settled_some : Traces Relay.journal (pure (some flow) : RelayM (Option Flow)) Settled :=
  .pure ⟨nofun, nofun⟩

theorem settled_bind {x : RelayM α} {f : α → RelayM (Option Flow)}
    (hx : Keeps Relay.journal (·.asksChat = false) x)
    (hf : ∀ a, Traces Relay.journal (f a) Settled) : Traces Relay.journal (x >>= f) Settled := by
  apply Traces.bind hx
  · intro acts a hacts
    apply Traces.mono (hf a)
    intro acts' result hset
    refine ⟨?_, hset.2⟩
    intro act hact
    rcases List.mem_append.mp hact with hact | hact
    · exact hacts act hact
    · exact hset.1 act hact
  · intro acts e hacts
    exact ⟨hacts, nofun⟩

theorem settled_handlePluginMessage (h : (ServerSelector.isServerlistChannel msg.channel ||
      ServerSelector.isConnectChannel msg.channel || ServerSelector.isModpackChannel msg.channel ||
      (parseCommand env.transfer msg.channel msg.data).isSome) = true) :
    Traces Relay.journal (handlePluginMessage env msg) Settled := by
  have hswi {server : String} : Traces Relay.journal
      (do return some (← switchOr env server) : RelayM (Option Flow)) Settled :=
    settled_bind (acts_switchOr fun _ => rfl).1 fun _ => settled_some
  apply settled_bind (acts_storeCookie fun _ => rfl).1
  intro _
  split
  · exact settled_bind .get fun _ => settled_bind (Acts.keeps (acts_writeClient rfl)) fun _ => settled_some
  · split
    · split
      · exact hswi
      · exact settled_some
    · split
      · exact settled_bind (acts_broadcast fun _ => rfl).1 fun _ => settled_some
      · split
        · exact hswi
        · apply settled_bind (.of_silent (preserves_journal_handleTransferCommand _))
          intro response
          split
          · exact settled_bind (Acts.keeps (acts_writeBackend rfl)) fun _ => settled_some
          · exact settled_some
        · simp_all

theorem settled_routePluginMessage (h : env.takesMessage id body = true) :
    Traces Relay.journal (routePluginMessage env id body) Settled := by
  obtain ⟨hid, htk⟩ := Bool.and_eq_true_iff.mp h
  rw [routePluginMessage, if_pos (of_decide_eq_true hid)]
  cases hd : decodeServerboundPluginMessage body env.protocol with
  | ok msg =>
    rw [hd] at htk
    exact settled_handlePluginMessage htk
  | error e =>
    rw [hd] at htk
    cases htk

theorem keeps_afterMovement_taken (h : env.takesMessage id body = true) :
    Keeps Relay.journal (·.asksChat = false) (afterMovement env id payload body) := by
  apply Traces.bind (settled_routePluginMessage h)
  · intro acts result hset
    cases result with
    | none => exact absurd rfl hset.2
    | some flow =>
      apply Traces.pure
      rw [List.append_nil]
      exact hset.1
  · intro acts e hset
    exact hset.1

theorem keeps_afterMovement (h : env.takesMessage id body = false)
    (hct : Keeps Relay.journal (·.asksChat = false) (routeChat env id payload body)) :
    Keeps Relay.journal (·.asksChat = false) (afterMovement env id payload body) := by
  apply Keeps.bind
  · intro r
    obtain ⟨acts, hqt, hrun⟩ := run_quiet_routePluginMessage h
    refine ⟨acts, ?_, fun a ha => (hqt a ha).2⟩
    rw [hrun]
  · intro result
    cases result with
    | some flow => exact .pure
    | none =>
      apply Keeps.bind hct
      intro outcome
      cases outcome with
      | done flow => exact .pure
      | forward payload =>
        exact .bind (acts_injectConfiguration fun _ => rfl).1 fun _ =>
          .bind (Acts.keeps (acts_writeBackend rfl)) fun _ => .pure

theorem unasked_iteration (h : env.plainChat r.events payload = none) :
    Unasked (added Relay.journal (iteration env payload) r) := by
  unfold RelayEnv.plainChat at h
  split at h
  · rename_i hv
    have hki : Keeps Relay.journal (·.asksChat = false) (iteration env payload) := by
      rw [iteration, hv]
      exact (acts_kick fun _ => rfl).1
    exact hki.added r
  · rename_i v body hv
    split at h
    · rename_i hrng
      have hwr : Keeps Relay.journal (·.asksChat = false) (iteration env payload) := by
        rw [iteration, hv]
        simp only [hrng, if_true]
        exact .bind (Acts.keeps (acts_writeBackend rfl)) fun _ => .pure
      exact hwr.added r
    · rename_i hrng
      rw [iteration_eq hv hrng]
      generalize v.toInt.toNat.toUInt8 = id at h ⊢
      cases hmv : env.moveKicks r.events id body with
      | true =>
        obtain ⟨r', hrun⟩ := run_checkMovement env r id body
        rw [hmv, if_pos rfl] at hrun
        rw [added_bind_error hrun]
        exact keeps_movement.added r
      | false =>
        suffices haft : Keeps Relay.journal (·.asksChat = false)
            (afterMovement env id payload body) from
          (Keeps.bind keeps_movement fun _ => haft).added r
        cases hmsg : env.takesMessage id body with
        | true => exact keeps_afterMovement_taken hmsg
        | false =>
          apply keeps_afterMovement hmsg
          refine (acts_routeChat (fun _ => rfl) (fun _ => rfl) ?_).1
          intro text rest hid htx hpl
          simp [hmv, hmsg, hid, htx, hpl] at h

end RelayM

def ChatVetoed (player : Uuid) (acts : List RelayAct) : Prop :=
  ∃ text results, .asked (.playerChat player text) results ∈ acts ∧ vetoes player results = true

def RelayEnv.uncancelled (env : RelayEnv) (n : Nat) (payload : List UInt8) : Bool :=
  match env.plainChat n payload with
  | some (m, text) => !cancels (env.results m (.playerChat env.uuid text))
  | none => true

namespace RelayM
variable {env : RelayEnv} {r : Relay} {payload : List UInt8}

theorem not_chatVetoed (h : Unasked acts) : ¬ ChatVetoed player acts := by
  rintro ⟨text, results, hask, -⟩
  exact Bool.noConfusion (h _ hask)

theorem chatVetoed_iff (hbef : Quiet before) (haft : Unasked after) :
    ChatVetoed player (before ++ .asked (.playerChat player text) results :: after) ↔
      vetoes player results = true := by
  constructor
  · rintro ⟨text', results', hask, hvet⟩
    rcases List.mem_append.mp hask with hmem | hmem
    · exact Bool.noConfusion (hbef _ hmem).2
    · rcases List.mem_cons.mp hmem with heq | hmem
      · cases heq
        exact hvet
      · exact Bool.noConfusion (haft _ hmem)
  · intro hvet
    exact ⟨text, results, List.mem_append_right _ (List.mem_cons_self ..), hvet⟩

theorem spread_iff (hbef : Quiet before) :
    Spread (before ++ .asked event results :: after) ↔ Spread after := by
  constructor
  · rintro ⟨a, hmem, hspr⟩
    rcases List.mem_append.mp hmem with hmem | hmem
    · rw [(hbef a hmem).1] at hspr
      cases hspr
    · rcases List.mem_cons.mp hmem with rfl | hmem
      · cases hspr
      · exact ⟨a, hmem, hspr⟩
  · rintro ⟨a, hmem, hspr⟩
    exact ⟨a, List.mem_append_right _ (List.mem_cons_of_mem _ hmem), hspr⟩

theorem chatVeto_iff :
    (ChatVetoed env.uuid (added Relay.journal (iteration env payload) r) →
      ¬ Spread (added Relay.journal (iteration env payload) r)) ↔
    env.uncancelled r.events payload = true := by
  unfold RelayEnv.uncancelled
  cases hpl : env.plainChat r.events payload with
  | none =>
    exact iff_of_true (fun h => absurd h (not_chatVetoed (unasked_iteration hpl))) rfl
  | some line =>
    obtain ⟨n, text⟩ := line
    obtain ⟨before, after, hacts, hqt, huna, hspr⟩ := added_iteration_plain hpl
    rw [hacts, chatVetoed_iff hqt huna, spread_iff hqt, hspr]
    dsimp only
    generalize env.results n (.playerChat env.uuid text) = results
    cases hcan : cancels results <;> simp [vetoes, kickStands, hcan]

end RelayM

namespace Env
variable (env : Env) (c : Client) (uuid : Uuid) (username : String)

def loginVetoed : Bool :=
  vetoes uuid (env.postLoginResults c uuid username) || vetoes uuid (env.joinResults c uuid username)

end Env

/-- Plugins that veto a login keep it from the backends, and a chat line that they veto is neither
broadcast nor forwarded, exactly if: the login is turned away anyway, or nobody vetoes it, or a
plugin kicks its player on `PlayerJoin` and none cancels that event; and no plugin cancels the chat
line. -/
theorem veto_heeded_iff (env : Env) (c : Client) (uuid : Uuid) (username : String)
    (properties : List ProfileProperty) (relay : RelayEnv) (r : Relay) (payload : List UInt8) :
    ((env.loginVetoed c uuid username = true →
        ¬ Handler.Connects env uuid username properties c) ↔
      env.turnsAway c uuid username properties = true ∨ env.loginVetoed c uuid username = false ∨
        kickStands uuid (env.joinResults c uuid username) = true) ∧
    ((ChatVetoed relay.uuid (added Relay.journal (RelayM.iteration relay payload) r) →
        ¬ RelayM.Spread (added Relay.journal (RelayM.iteration relay payload) r)) ↔
      relay.uncancelled r.events payload = true) := by
  constructor
  · rw [Handler.connects_iff]
    cases env.loginVetoed c uuid username <;>
      cases env.turnsAway c uuid username properties <;>
        cases kickStands uuid (env.joinResults c uuid username) <;> simp
  · exact RelayM.chatVeto_iff

def cancelAll : Nat → PluginEvent → List HandlerResult := fun _ _ => [.ok (some .cancel)]

/-- Cancelling stops neither a login nor a chat line. -/
theorem cancel_ignored :
    (¬ ∀ (env : Env) (c : Client) (uuid : Uuid) (username : String)
        (properties : List ProfileProperty), env.loginVetoed c uuid username = true →
      ¬ Handler.Connects env uuid username properties c) ∧
    ¬ ∀ (env : RelayEnv) (r : Relay) (payload : List UInt8),
      ChatVetoed env.uuid (added Relay.journal (RelayM.iteration env payload) r) →
        ¬ RelayM.Spread (added Relay.journal (RelayM.iteration env payload) r) := by
  constructor
  · intro h
    apply h { onlineEnv with results := cancelAll } (.new modernLogin clientAddr) 5 "Steve" []
    · decide
    · exact Handler.connects_iff.mpr (by decide)
  · intro h
    have huncancelled := RelayM.chatVeto_iff.mp
      (h { lobbyRelay with results := cancelAll } (.start ⟨.start lobbyConfig (lobbyFor 2) ∅, []⟩)
        [0xFF, 0x01, 2, 104, 105])
    exact absurd huncancelled (by decide)

end Kojacoord
