import Kojacoord.Net.RelayActs

namespace Kojacoord
open Journal ServerSelector

def Shared.obey (cfg : ProxyConfig) (s : Shared) : Option (String × Uuid) → Shared
  | none => s
  | some (server, uuid) =>
    match s.proxy.sessions.lookup uuid with
    | some c => s.performWhole cfg (.transfer uuid server true) c 4
    | none => s

def TransferCommand.order : TransferCommand → Option (String × Uuid)
  | connectOther server uuid => some (server, uuid)
  | connect _ | getServer | getPlayers => none

/-- The `ConnectOther` in a message that none of the selector channels takes. -/
def PluginMessage.order (env : RelayEnv) (msg : PluginMessage) : Option (String × Uuid) :=
  if isServerlistChannel msg.channel || isConnectChannel msg.channel ||
      isModpackChannel msg.channel then none
  else (parseCommand env.transfer msg.channel msg.data).bind TransferCommand.order

def RelayEnv.moveKicks (env : RelayEnv) (n : Nat) (id : UInt8) (body : List UInt8) : Bool :=
  (env.moveEvent id body).any fun event => (env.moveKick (env.results n event)).isSome

def RelayEnv.bodyOrder (env : RelayEnv) (id : UInt8) (body : List UInt8) : Option (String × Uuid) :=
  if id = env.sbPluginMessageId then
    match decodeServerboundPluginMessage body env.protocol with
    | .ok msg => msg.order env
    | .error _ => none
  else none

def RelayEnv.order (env : RelayEnv) (n : Nat) (payload : List UInt8) : Option (String × Uuid) :=
  match Decode.varInt payload with
  | .error _ => none
  | .ok (v, body) =>
    let id := v.toInt.toNat.toUInt8
    if v < 0 ∨ 255 < v then none
    else if env.moveKicks n id body then none
    else env.bodyOrder id body

namespace RelayM
variable {env : RelayEnv} {r : Relay} {id : UInt8}

theorem run_kick : ∃ r', ExceptT.run (kick env reason : RelayM α) r = (.error .closed, r') := by
  obtain ⟨r', h⟩ := run_recover (writeClient env (.disconnect reason)) r
  refine ⟨r', ?_⟩
  unfold kick ignore
  rw [run_bind_ok _ h]
  rfl

theorem run_checkMovement (env : RelayEnv) (r : Relay) (id : UInt8) (body : List UInt8) :
    ∃ r', ExceptT.run (checkMovement env id body) r =
      (if env.moveKicks r.events id body then .error .closed else .ok (), r') := by
  unfold checkMovement RelayEnv.moveKicks
  cases env.moveEvent id body with
  | none => exact ⟨r, rfl⟩
  | some event =>
    rw [run_bind_ok _ run_broadcast]
    cases hk : env.moveKick (env.results r.events event) with
    | none =>
      simp only [Option.any_some, hk]
      exact ⟨_, rfl⟩
    | some reason =>
      simp only [Option.any_some, hk]
      exact run_kick

theorem run_storeCookie :
    ∃ r', ExceptT.run (storeCookie env msg) r = (.ok (), r') ∧ r'.shared = r.shared := by
  unfold storeCookie
  split
  · exact ⟨_, rfl, rfl⟩
  · exact ⟨_, rfl, rfl⟩

theorem shared_handleTransferCommand (h : ∀ server, command ≠ .connect server) :
    (ExceptT.run (handleTransferCommand env command) r).2.shared =
      r.shared.obey env.config command.order := by
  cases command with
  | connect server => exact absurd rfl (h server)
  | connectOther server uuid =>
    simp only [handleTransferCommand, TransferCommand.order, Shared.obey]
    rw [run_bind_ok _ (run_get r)]
    cases r.shared.proxy.sessions.lookup uuid <;> rfl
  | getServer | getPlayers => rfl

theorem shared_handlePluginMessage : (ExceptT.run (handlePluginMessage env msg) r).2.shared =
    r.shared.obey env.config (msg.order env) := by
  obtain ⟨r', hcoo, hsha⟩ := run_storeCookie
  unfold handlePluginMessage PluginMessage.order
  rw [run_bind_ok _ hcoo, ← hsha]
  cases isServerlistChannel msg.channel with
  | true => exact Acts.shared (.bind .get fun _ => .bind (acts_writeClient trivial) fun _ => .pure) r'
  | false =>
    cases isConnectChannel msg.channel with
    | true =>
      cases parseConnectPayload msg.data with
      | some server => exact Acts.shared (acts_switchTo fun _ => trivial) r'
      | none => rfl
    | false =>
      cases isModpackChannel msg.channel with
      | true => exact Acts.shared (.bind (acts_broadcast fun _ => trivial) fun _ => .pure) r'
      | false =>
        cases parseCommand env.transfer msg.channel msg.data with
        | none => rfl
        | some command =>
          cases command with
          | connect server => exact Acts.shared (acts_switchTo fun _ => trivial) r'
          | connectOther | getServer | getPlayers =>
            refine (Preserves.view_bind (fun response => ?_) r').trans
              (shared_handleTransferCommand fun server heq => by cases heq)
            cases response with
            | some response => exact Acts.shared (.bind (acts_writeBackend trivial) fun _ => .pure)
            | none => exact .pure

theorem shared_routePluginMessage :
    (ExceptT.run (routePluginMessage env id body) r).2.shared =
      r.shared.obey env.config (env.bodyOrder id body) := by
  unfold routePluginMessage RelayEnv.bodyOrder
  split
  · cases decodeServerboundPluginMessage body env.protocol with
    | ok msg => exact shared_handlePluginMessage
    | error e => rfl
  · rfl

theorem shared_iteration : (ExceptT.run (iteration env payload) r).2.shared =
    r.shared.obey env.config (env.order r.events payload) := by
  unfold iteration RelayEnv.order
  cases Decode.varInt payload with
  | error e => exact Acts.shared (acts_kick fun _ => trivial) r
  | ok parsed =>
    obtain ⟨v, body⟩ := parsed
    dsimp only
    split
    · exact Acts.shared (.bind (acts_writeBackend trivial) fun _ => .pure) r
    · generalize v.toInt.toNat.toUInt8 = id
      have hsha : Preserves Relay.shared (checkMovement env id body) :=
        Acts.shared (acts_checkMovement (fun _ => trivial) fun _ _ _ => trivial)
      have hsha := hsha r
      obtain ⟨r', hmv⟩ := run_checkMovement env r id body
      rw [hmv] at hsha
      split
      · rename_i hkic
        rw [if_pos hkic] at hmv
        rw [run_bind_error _ hmv]
        exact hsha
      · rename_i hkic
        rw [if_neg hkic] at hmv
        rw [run_bind_ok _ hmv]
        rw [← hsha, ← shared_routePluginMessage]
        refine Preserves.view_bind (fun flow => ?_) r'
        cases flow with
        | some flow => exact .pure
        | none =>
          refine Acts.shared (.bind ?_ fun outcome => ?_)
          · exact acts_routeChat (fun _ => trivial) (fun _ => trivial) fun _ _ _ _ _ =>
              ⟨fun _ => trivial, fun _ => trivial⟩
          · cases outcome with
            | done flow => exact .pure
            | forward payload =>
              exact .bind (acts_injectConfiguration fun _ => trivial) fun _ =>
                .bind (acts_writeBackend trivial) fun _ => .pure

theorem shared_c2s_cons : (ExceptT.run (c2s env (payload :: rest)) r).2.shared =
    match ExceptT.run (iteration env payload) r with
    | (.ok .continue, r') => (ExceptT.run (c2s env rest) r').2.shared
    | (_, r') => r'.shared := by
  rw [c2s]
  rcases h : ExceptT.run (iteration env payload) r with ⟨outcome, r'⟩
  cases outcome with
  | error e => rw [run_bind_error _ h]
  | ok flow =>
    rw [run_bind_ok _ h]
    cases flow <;> rfl

end RelayM

theorem Shared.relay_cases (env : RelayEnv) (s : Shared) (packets : List (List UInt8)) :
    s.relay env packets = (ExceptT.run (RelayM.c2s env packets) (.start s)).2.shared ∨
      ∃ why, s.relay env packets =
        (ExceptT.run (RelayM.c2s env packets) (.start s)).2.shared.exit env why := by
  unfold Shared.relay
  rcases ExceptT.run (RelayM.c2s env packets) (.start s) with ⟨outcome, r⟩
  cases outcome with
  | error e => exact .inr ⟨_, rfl⟩
  | ok stopped =>
    cases stopped with
    | false => exact .inl rfl
    | true =>
      dsimp only
      split
      · exact .inr ⟨_, rfl⟩
      · exact .inr ⟨_, rfl⟩

end Kojacoord
