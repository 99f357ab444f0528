import Kojacoord.Lib.Journal
import Kojacoord.Net.Relay

namespace Kojacoord
open Journal List

namespace RelayEnv
variable (env : RelayEnv)

def takesMessage (id : UInt8) (body : List UInt8) : Bool :=
  decide (id = env.sbPluginMessageId) &&
    match decodeServerboundPluginMessage body env.protocol with
    | .ok msg =>
      ServerSelector.isServerlistChannel msg.channel ||
        ServerSelector.isConnectChannel msg.channel ||
        ServerSelector.isModpackChannel msg.channel ||
        (parseCommand env.transfer msg.channel msg.data).isSome
    | .error _ => false

def isPlain (id : UInt8) (text : String) : Bool :=
  (checkChatMessage text).isOk &&
    !decide ((env.sbChatCommandId ≠ 0xFF ∧ id = env.sbChatCommandId) ∨ text.toList.head? = some '/')

end RelayEnv

namespace RelayM
variable {env : RelayEnv} {r : Relay} {id : UInt8} {p : RelayAct → Prop} {x : RelayM α}
  {f : α → RelayM β}

def afterMovement (env : RelayEnv) (id : UInt8) (payload body : List UInt8) : RelayM Flow := do
  match ← routePluginMessage env id body with
  | some flow => return flow
  | none =>
    match ← routeChat env id payload body with
    | .done flow => return flow
    | .forward payload =>
      injectConfiguration env id
      writeBackend env (.forwarded payload)
      return .continue

theorem iteration_eq (hv : Decode.varInt payload = .ok (v, body)) (hrng : ¬ (v < 0 ∨ 255 < v)) :
    iteration env payload = (do
      checkMovement env v.toInt.toNat.toUInt8 body
      afterMovement env v.toInt.toNat.toUInt8 payload body) := by
  simp only [iteration, hv, hrng, if_false]
  rfl

theorem run_writeClient : ExceptT.run (writeClient env packet) r =
    (match env.clientError r.clientWrites with
      | none => .ok ()
      | some e => .error e,
    { r with
      clientWrites := r.clientWrites + 1
      journal := r.journal ++ [RelayAct.wroteClient packet] }) := by
  simp only [writeClient, run_bind, run_get, run_set]
  cases env.clientError r.clientWrites <;> rfl

theorem run_writeBackend : ExceptT.run (writeBackend env packet) r =
    (match env.backendError r.backendWrites with
      | none => .ok ()
      | some e => .error (.backend e),
    { r with
      backendWrites := r.backendWrites + 1
      journal := r.journal ++ [RelayAct.wroteBackend packet] }) := by
  simp only [writeBackend, run_bind, run_get, run_set]
  cases env.backendError r.backendWrites <;> rfl

theorem run_broadcast : ExceptT.run (broadcast env event) r =
    (.ok (env.results r.events event), { r with
      events := r.events + 1
      journal := r.journal ++ [.asked event (env.results r.events event)] }) := rfl

/-- Every act of the program meets `p`, and it leaves alone what the relay shares. -/
def Acts (p : RelayAct → Prop) (x : RelayM α) : Prop :=
  Keeps Relay.journal p x ∧ Preserves Relay.shared x

namespace Acts

theorem pure : Acts p (Pure.pure a : RelayM α) := ⟨.pure, .pure⟩

theorem throw : Acts p (MonadExcept.throw e : RelayM α) := ⟨.throw, .throw⟩

theorem get : Acts p (MonadState.get : RelayM Relay) := ⟨.get, .get⟩

theorem bind (hx : Acts p x) (hf : ∀ a, Acts p (f a)) : Acts p (x >>= f) :=
  ⟨.bind hx.1 fun a => (hf a).1, .bind hx.2 fun a => (hf a).2⟩

theorem ignore {x : RelayM Unit} (hx : Acts p x) : Acts p (ignore x) :=
  ⟨.tryCatch hx.1 fun _ => .pure, .tryCatch hx.2 fun _ => .pure⟩

theorem keeps (h : Acts p x) : Keeps Relay.journal p x := h.1

theorem shared (h : Acts (fun _ => True) x) : Preserves Relay.shared x := h.2

theorem of_append (acts : Relay → List RelayAct)
    (h : ∀ r, (ExceptT.run x r).2.journal = r.journal ++ acts r)
    (hsha : ∀ r, (ExceptT.run x r).2.shared = r.shared) (hp : ∀ r, ∀ a ∈ acts r, p a) :
    Acts p x :=
  ⟨fun r => ⟨acts r, h r, hp r⟩, hsha⟩

end Acts

theorem acts_record (h : p act) : Acts p (record act) :=
  .of_append (fun _ => [act]) (fun _ => rfl) (fun _ => rfl) fun _ => forall_mem_singleton.mpr h

theorem acts_writeClient (hp : p (.wroteClient packet)) : Acts p (writeClient env packet) := by
  refine .of_append (fun _ => [.wroteClient packet]) ?_ ?_ fun _ => forall_mem_singleton.mpr hp
  · intro r
    rw [run_writeClient]
  · intro r
    rw [run_writeClient]

theorem acts_writeBackend (hp : p (.wroteBackend packet)) : Acts p (writeBackend env packet) := by
  refine .of_append (fun _ => [.wroteBackend packet]) ?_ ?_ fun _ => forall_mem_singleton.mpr hp
  · intro r
    rw [run_writeBackend]
  · intro r
    rw [run_writeBackend]

theorem acts_broadcast (hp : ∀ results, p (.asked event results)) : Acts p (broadcast env event) :=
  .of_append (fun r => [.asked event (env.results r.events event)]) (fun _ => rfl) (fun _ => rfl)
    fun _ => forall_mem_singleton.mpr (hp _)

theorem acts_storeCookie (hp : ∀ data, p (.storedCookie data)) : Acts p (storeCookie env msg) := by
  unfold storeCookie
  split
  · exact acts_record (hp _)
  · exact .pure

theorem acts_injectConfiguration (hp : ∀ raw, p (.injected raw)) :
    Acts p (injectConfiguration env id) := by
  unfold injectConfiguration
  split
  · split
    · rename_i packets _
      refine .of_append (fun _ => packets.map .injected) (fun _ => rfl) (fun _ => rfl) ?_
      exact fun _ => forall_mem_map.mpr fun raw _ => hp raw
    · exact .pure
  · exact .pure

theorem preserves_journal_handleTransferCommand (command : TransferCommand) :
    Preserves Relay.journal (handleTransferCommand env command) := by
  cases command with
  | connect server | getServer | getPlayers => exact fun _ => rfl
  | connectOther server uuid =>
    apply Preserves.bind .get
    intro r
    split <;> exact fun _ => rfl

theorem acts_noticed (hp : ∀ notice, p (.noticed notice)) (notices : List Notice) :
    Acts p (modify fun r => { r with journal := r.journal ++ notices.map .noticed } : RelayM PUnit) :=
  .of_append (fun _ => notices.map .noticed) (fun _ => rfl) (fun _ => rfl) fun _ =>
    forall_mem_map.mpr fun notice _ => hp notice

section Client
variable (hclient : ∀ packet, p (.wroteClient packet))
include hclient

theorem acts_kick : Acts p (kick env reason : RelayM α) :=
  .bind (.ignore (acts_writeClient (hclient _))) fun _ => .throw

theorem acts_checkMovement
    (hask : ∀ event results, env.moveEvent id body = some event → p (.asked event results)) :
    Acts p (checkMovement env id body) := by
  unfold checkMovement
  split
  · rename_i event hev
    apply Acts.bind (acts_broadcast fun results => hask event results hev)
    intro results
    split
    · exact acts_kick hclient
    · exact .pure
  · exact .pure

theorem acts_switchOr : Acts p (switchOr env server) := by
  have reject {text : String} :
      Acts p (do writeClient env (.systemMessage text); return false : RelayM Bool) :=
    .bind (acts_writeClient (hclient _)) fun _ => .pure
  apply Acts.bind
  · apply Acts.bind .get
    intro r
    dsimp only
    split
    · split
      · exact ⟨.of_silent fun _ => rfl, fun _ => rfl⟩
      · exact reject
    · exact reject
  · intro granted
    split <;> exact .pure

theorem acts_switchTo :
    Acts p (do return some (← switchOr env server) : RelayM (Option Flow)) :=
  .bind (acts_switchOr hclient) fun _ => .pure

theorem acts_tellAll (messages : List String) :
    Acts p (handleChatCommand.tellAll env messages) := by
  induction messages with
  | nil => exact .pure
  | cons message rest ih => exact .bind (.ignore (acts_writeClient (hclient _))) fun _ => ih

variable (hnoticed : ∀ notice, p (.noticed notice))
include hnoticed

theorem acts_handleChatCommand : Acts p (handleChatCommand env line payload) := by
  apply Acts.bind .get
  intro r
  apply Acts.bind (.bind .get fun _ => .pure)
  intro current
  apply Acts.bind (acts_noticed hnoticed _)
  intro _
  apply Acts.bind (acts_tellAll hclient _)
  intro _
  split
  · exact .bind (acts_switchOr hclient) fun _ => .pure
  · exact .pure
  · exact .pure
  · exact .pure

theorem acts_routeChat (hpl : ∀ text rest, id ∈ env.chatPacketIds →
      Decode.string body = .ok (text, rest) → env.isPlain id text = true →
      (∀ results, p (.asked (.playerChat env.uuid text) results)) ∧ ∀ line, p (.broadcast line)) :
    Acts p (routeChat env id payload body) := by
  unfold routeChat
  split
  · rename_i hid
    split
    · rename_i text rest htx
      have hpl := hpl text rest hid htx
      unfold handleChat
      dsimp only
      split
      · exact acts_kick hclient
      · rename_i hche
        split
        · exact acts_handleChatCommand hclient hnoticed
        · rename_i hcmd
          have hfit : (checkChatMessage text).isOk = true := by
            rw [hche]
            rfl
          obtain ⟨hask, hbro⟩ := hpl (by rw [RelayEnv.isPlain, hfit, decide_eq_false hcmd]; rfl)
          apply Acts.bind (.bind (acts_broadcast hask) fun _ =>
            .bind (acts_noticed hnoticed _) fun _ => .pure)
          intro kicked
          split
          · exact .pure
          · exact .bind (acts_record (hbro _)) fun _ => .pure
    · exact .pure
  · exact .pure

end Client

end RelayM

end Kojacoord
