import Kojacoord.Plugin.Manager

namespace Kojacoord
open Runs List

/-- The functions of a guest that the host calls. One that is exported under a name but with another
type than the host asks for is not exported. -/
inductive GuestFunction where
  | start
  | init
  | metadata
  | onEnable
  | onDisable
  | alloc
  | dealloc
  | handleEvent
  | handleEventLegacy
  | getPacketHooks
  | getPacketHook
  deriving DecidableEq

/-- How a guest function ends. It also traps when the watchdog interrupts it. -/
inductive GuestResult (α : Type) where
  | returned (value : α)
  | trapped (interrupted : Bool)

def GuestResult.isTrap : GuestResult α → Bool
  | .returned _ => false
  | .trapped _ => true

def GuestResult.ok : GuestResult α → Option α
  | .returned value => some value
  | .trapped _ => none

structure Invocation where
  function : GuestFunction
  args : List UInt32
  trapped : Bool
  deriving DecidableEq

structure GuestModule where
  exports : GuestFunction → Bool
  exportsMemory : Bool

inductive GuestError where
  | failedToInstantiate
  | failedToCallInit
  | failedToCall (function : GuestFunction)
  | handleEventCallFailed
  | handleEventLegacyCallFailed

structure GuestFormats where
  metadata : List UInt8 → Option PluginMetadata
  response : List UInt8 → Option PluginResponse

structure LoadTurn where
  start : GuestResult Unit
  init : GuestResult Unit
  metadata : GuestResult UInt64
  memory : List UInt8
  free : GuestResult Unit

/-- How a guest behaves while an event is delivered: `size` is that of its memory when the event is
written, and the memory is as it is when the response is read. -/
structure EventTurn where
  alloc : GuestResult UInt32
  size : Nat
  handle : GuestResult UInt64
  handleLegacy : GuestResult UInt32
  free : GuestResult Unit
  memory : List UInt8
  freeResponse : GuestResult Unit

structure HooksTurn where
  count : GuestResult UInt32
  hook : Nat → GuestResult UInt32

namespace GuestModule

def callExport (g : GuestModule) (function : GuestFunction) (error : GuestError)
    (result : GuestResult Unit) : List Invocation × Except GuestError Unit :=
  if g.exports function then
    ([⟨function, [], result.isTrap⟩], if result.isTrap then .error error else .ok ())
  else ([], .ok ())

def readGuestBytes (g : GuestModule) (memory : List UInt8) (ptr len : UInt32) :
    Option (List UInt8) :=
  if g.exportsMemory ∧ ptr.toNat + len.toNat ≤ memory.length then
    some ((memory.drop ptr.toNat).take len.toNat)
  else none

def freeInGuest (g : GuestModule) (ptr len : UInt32) (result : GuestResult Unit) :
    List Invocation :=
  if ptr = 0x10000 then []
  else if g.exports .dealloc then [⟨.dealloc, [ptr, len], result.isTrap⟩]
  else []

def writeToGuest (g : GuestModule) (bytes : List UInt8) (turn : EventTurn) :
    List Invocation × Option (UInt32 × UInt32) :=
  let len := UInt32.ofNat bytes.length
  if g.exportsMemory = false then ([], none)
  else if g.exports .alloc then
    match turn.alloc with
    | .trapped _ => ([⟨.alloc, [len], true⟩], none)
    | .returned ptr =>
      ([⟨.alloc, [len], false⟩],
        if ptr.toNat + bytes.length ≤ turn.size then some (ptr, len) else none)
  else if turn.size < 0x10000 + bytes.length then ([], none)
  else ([], some (0x10000, len))

def readRuntimeMetadata (formats : GuestFormats) (g : GuestModule) (turn : LoadTurn) :
    List Invocation × Option PluginMetadata :=
  if g.exports .metadata then
    match turn.metadata with
    | .trapped _ => ([⟨.metadata, [], true⟩], none)
    | .returned packed =>
      let called : Invocation := ⟨.metadata, [], false⟩
      if packed = 0 then ([called], none)
      else
        let ptr := (packed >>> 32).toUInt32
        let len := packed.toUInt32
        match g.readGuestBytes turn.memory ptr len with
        | none => ([called], none)
        | some bytes => (called :: g.freeInGuest ptr len turn.free, formats.metadata bytes)
  else ([], none)

def loadPlugin (formats : GuestFormats) (g : GuestModule) (turn : LoadTurn) :
    List Invocation × Except GuestError (Option PluginMetadata) :=
  let instantiated := g.callExport .start .failedToInstantiate turn.start
  match instantiated.2 with
  | .error error => (instantiated.1, .error error)
  | .ok () =>
    let initialised := g.callExport .init .failedToCallInit turn.init
    match initialised.2 with
    | .error error => (instantiated.1 ++ initialised.1, .error error)
    | .ok () =>
      let runtime := g.readRuntimeMetadata formats turn
      (instantiated.1 ++ (initialised.1 ++ runtime.1), .ok runtime.2)

def callLifecycle (g : GuestModule) (function : GuestFunction) (result : GuestResult Unit) :
    List Invocation × Except GuestError Unit :=
  g.callExport function (.failedToCall function) result

def answerEvent (formats : GuestFormats) (g : GuestModule) (ptr len : UInt32) (turn : EventTurn) :
    List Invocation × Except GuestError (Option PluginResponse) :=
  if g.exports .handleEvent then
    match turn.handle with
    | .trapped _ => ([⟨.handleEvent, [ptr, len], true⟩], .error .handleEventCallFailed)
    | .returned packed =>
      let called := ⟨.handleEvent, [ptr, len], false⟩ :: g.freeInGuest ptr len turn.free
      if packed = 0 then (called, .ok none)
      else
        let respPtr := (packed >>> 32).toUInt32
        let respLen := packed.toUInt32
        (called ++ g.freeInGuest respPtr respLen turn.freeResponse,
          .ok ((g.readGuestBytes turn.memory respPtr respLen).bind formats.response))
  else if g.exports .handleEventLegacy then
    match turn.handleLegacy with
    | .trapped _ => ([⟨.handleEventLegacy, [ptr, len], true⟩], .error .handleEventLegacyCallFailed)
    | .returned result =>
      (⟨.handleEventLegacy, [ptr, len], false⟩ :: g.freeInGuest ptr len turn.free,
        .ok (if result = 1 then some .cancel else none))
  else (g.freeInGuest ptr len turn.free, .ok none)

def handleEvent (formats : GuestFormats) (g : GuestModule) (event : Option (List UInt8))
    (turn : EventTurn) : List Invocation × Except GuestError (Option PluginResponse) :=
  match event with
  | none => ([], .ok none)
  | some bytes =>
    let written := g.writeToGuest bytes turn
    match written.2 with
    | none => (written.1, .ok none)
    | some (ptr, len) =>
      let answered := g.answerEvent formats ptr len turn
      (written.1 ++ answered.1, answered.2)

def packetHook (hookId : UInt32) : PacketEvent where
  filter :=
    { protocolVersion := none
      packetId := some (hookId &&& 0xFFFF).toInt32
      direction := if hookId >>> 16 = 0 then .serverbound else .clientbound }
  hook := fun _ => .ok .forward
  priority := 100
  pluginName := ""

def registerPacketHooks (g : GuestModule) (turn : HooksTurn) :
    List Invocation × List PacketEvent :=
  if g.exports .getPacketHooks then
    match turn.count with
    | .trapped _ => ([⟨.getPacketHooks, [], true⟩], [])
    | .returned count =>
      let called : Invocation := ⟨.getPacketHooks, [], false⟩
      if g.exports .getPacketHook then
        let indices := List.range (min count.toNat 1024)
        (called :: indices.map fun i =>
            ⟨.getPacketHook, [UInt32.ofNat i], (turn.hook i).isTrap⟩,
          indices.filterMap fun i => (turn.hook i).ok.map packetHook)
      else ([called], [])
  else ([], [])

end GuestModule

open GuestModule

inductive InstancePhase where
  | compiled
  | loaded
  | dropped
  deriving DecidableEq

structure WasmPluginInstance where
  guest : GuestModule
  phase : InstancePhase
  disabled : Bool
  invocations : List Invocation

inductive HostCall where
  | load (turn : LoadTurn)
  | onEnable (result : GuestResult Unit)
  | onDisable (result : GuestResult Unit)
  | handleEvent (event : Option (List UInt8)) (turn : EventTurn)
  | registerPacketHooks (turn : HooksTurn)

def TrapIsolated (invocations : List Invocation) : Prop :=
  invocations.Pairwise fun earlier _ => earlier.trapped = false

instance : DecidablePred TrapIsolated := fun l => inferInstanceAs (Decidable (l.Pairwise _))

theorem trapIsolated_singleton (call : Invocation) : TrapIsolated [call] :=
  pairwise_singleton _ _

theorem trapIsolated_cons (h : call.trapped = false) (hrs : TrapIsolated rest) :
    TrapIsolated (call :: rest) :=
  pairwise_cons.mpr ⟨fun _ _ => h, hrs⟩

theorem trapIsolated_append (h : TrapIsolated calls) (hmo : TrapIsolated more)
    (hunt : more = [] ∨ ∀ call ∈ calls, call.trapped = false) :
    TrapIsolated (calls ++ more) := by
  refine pairwise_append.mpr ⟨h, hmo, ?_⟩
  intro call hcl later hlat
  rcases hunt with rfl | hunt
  · cases hlat
  · exact hunt call hcl

namespace GuestModule

variable {g : GuestModule}

theorem isolated_callExport : TrapIsolated (g.callExport function error result).1 := by
  unfold callExport
  split
  · exact trapIsolated_singleton _
  · exact .nil

theorem untrapped_of_callExport_ok (h : (g.callExport function error result).2 = .ok ()) :
    ∀ call ∈ (g.callExport function error result).1, call.trapped = false := by
  unfold callExport at h ⊢
  split at h
  · intro call hcl
    rw [if_pos (by assumption)] at hcl
    cases mem_singleton.mp hcl
    cases result with
    | returned _ => rfl
    | trapped _ => cases h
  · rw [if_neg (by assumption)]
    intro call hcl
    cases hcl

theorem isolated_freeInGuest : TrapIsolated (g.freeInGuest ptr len result) := by
  unfold freeInGuest
  split
  · exact .nil
  · split
    · exact trapIsolated_singleton _
    · exact .nil

theorem untrapped_freeInGuest (h : result.isTrap = false) :
    ∀ call ∈ g.freeInGuest ptr len result, call.trapped = false := by
  intro call hcl
  unfold freeInGuest at hcl
  split at hcl
  · cases hcl
  · split at hcl
    · cases mem_singleton.mp hcl
      exact h
    · cases hcl

theorem isolated_readRuntimeMetadata : TrapIsolated (g.readRuntimeMetadata formats turn).1 := by
  unfold readRuntimeMetadata
  split
  · split
    · exact trapIsolated_singleton _
    · dsimp only
      split
      · exact trapIsolated_singleton _
      · split
        · exact trapIsolated_singleton _
        · exact trapIsolated_cons rfl isolated_freeInGuest
  · exact .nil

theorem isolated_loadPlugin : TrapIsolated (g.loadPlugin formats turn).1 := by
  unfold loadPlugin
  dsimp only
  split
  · exact isolated_callExport
  · rename_i hst
    split
    · exact trapIsolated_append isolated_callExport isolated_callExport
        (.inr (untrapped_of_callExport_ok hst))
    · rename_i hinit
      apply trapIsolated_append isolated_callExport _ (.inr (untrapped_of_callExport_ok hst))
      exact trapIsolated_append isolated_callExport isolated_readRuntimeMetadata
        (.inr (untrapped_of_callExport_ok hinit))

theorem writeToGuest_calls (h : (g.writeToGuest bytes turn).2 = some target) :
    ∀ call ∈ (g.writeToGuest bytes turn).1, call.trapped = false := by
  unfold writeToGuest at h ⊢
  split at h
  · cases h
  · rename_i hmem
    rw [if_neg hmem]
    split at h
    · rename_i hall
      rw [if_pos hall]
      cases htn : turn.alloc with
      | trapped _ =>
        rw [htn] at h
        cases h
      | returned ptr =>
        intro call hcl
        cases mem_singleton.mp hcl
        rfl
    · rename_i hall
      rw [if_neg hall]
      intro call hcl
      split at hcl <;> cases hcl

theorem isolated_writeToGuest : TrapIsolated (g.writeToGuest bytes turn).1 := by
  unfold writeToGuest
  split
  · exact .nil
  · split
    · split <;> exact trapIsolated_singleton _
    · split <;> exact .nil

theorem isolated_answerEvent
    (h : turn.free.isTrap → g.exports .handleEvent → turn.handle.ok = some 0) :
    TrapIsolated (g.answerEvent formats ptr len turn).1 := by
  unfold answerEvent
  split
  · rename_i hexports
    split
    · exact trapIsolated_singleton _
    · rename_i packed hhan
      have hcal : TrapIsolated (⟨.handleEvent, [ptr, len], false⟩ ::
          g.freeInGuest ptr len turn.free) := trapIsolated_cons rfl isolated_freeInGuest
      split
      · exact hcal
      · rename_i hpac
        apply trapIsolated_append hcal isolated_freeInGuest
        right
        have hfree : turn.free.isTrap = false := by
          by_contra htrap
          have hz := h (Bool.not_eq_false _ ▸ htrap) hexports
          rw [hhan] at hz
          exact hpac (Option.some.inj hz)
        intro call hcl
        rcases mem_cons.mp hcl with rfl | hcl
        · rfl
        · exact untrapped_freeInGuest hfree call hcl
  · split
    · split
      · exact trapIsolated_singleton _
      · exact trapIsolated_cons rfl isolated_freeInGuest
    · exact isolated_freeInGuest

theorem isolated_handleEvent
    (h : turn.free.isTrap → g.exports .handleEvent → turn.handle.ok = some 0) :
    TrapIsolated (g.handleEvent formats event turn).1 := by
  unfold handleEvent
  split
  · exact .nil
  · dsimp only
    split
    · exact isolated_writeToGuest
    · rename_i hwri
      exact trapIsolated_append isolated_writeToGuest (isolated_answerEvent h)
        (.inr (writeToGuest_calls hwri))

theorem handleEvent_calls (h : g.exportsMemory = false) :
    (g.handleEvent formats event turn).1 = [] := by
  cases event with
  | none => rfl
  | some bytes => simp [handleEvent, writeToGuest, h]

theorem isolated_registerPacketHooks
    (h : ∀ i < min (turn.count.ok.getD 0).toNat 1024 - 1, (turn.hook i).isTrap = false) :
    TrapIsolated (g.registerPacketHooks turn).1 := by
  unfold registerPacketHooks
  split
  · split
    · exact trapIsolated_singleton _
    · rename_i count hcnt
      split
      · apply trapIsolated_cons rfl
        rw [TrapIsolated, pairwise_map]
        rw [hcnt] at h
        apply List.Pairwise.imp_of_mem _ pairwise_lt_range
        intro i j hi hj hlt
        exact h i (Nat.lt_sub_of_add_lt (Nat.lt_of_le_of_lt hlt (mem_range.mp hj)))
      · exact trapIsolated_singleton _
  · exact .nil

end GuestModule

namespace WasmPluginInstance

def new (guest : GuestModule) : WasmPluginInstance where
  guest := guest
  phase := .compiled
  disabled := false
  invocations := []

def called (formats : GuestFormats) (guest : GuestModule) : HostCall → List Invocation
  | .load turn => (guest.loadPlugin formats turn).1
  | .onEnable result => (guest.callLifecycle .onEnable result).1
  | .onDisable result => (guest.callLifecycle .onDisable result).1
  | .handleEvent event turn => (guest.handleEvent formats event turn).1
  | .registerPacketHooks turn => (guest.registerPacketHooks turn).1

def next (formats : GuestFormats) (guest : GuestModule) :
    InstancePhase → HostCall → Option InstancePhase
  | .compiled, .load turn =>
    match (guest.loadPlugin formats turn).2 with
    | .ok _ => some .loaded
    | .error _ => some .dropped
  | .loaded, .onEnable _ => some .loaded
  | .loaded, .handleEvent _ _ => some .loaded
  | .loaded, .registerPacketHooks _ => some .loaded
  | .loaded, .onDisable _ => some .dropped
  | _, _ => none

def step (formats : GuestFormats) (s : WasmPluginInstance) (call : HostCall) :
    Option WasmPluginInstance :=
  (next formats s.guest s.phase call).map fun phase =>
    { s with phase := phase, invocations := s.invocations ++ called formats s.guest call }

def untrapped (s : WasmPluginInstance) : Bool := s.invocations.all (!·.trapped)

/-- The guest exports nothing that the call needs, or nothing has trapped so far and within the call
only what is called last may trap. -/
def Quiet (s : WasmPluginInstance) : HostCall → Prop
  | .load _ => True
  | .onEnable _ => s.untrapped ∨ s.guest.exports .onEnable = false
  | .onDisable _ => s.untrapped ∨ s.guest.exports .onDisable = false
  | .handleEvent _ turn =>
    s.guest.exportsMemory = false ∨ s.untrapped ∧
      (turn.free.isTrap → s.guest.exports .handleEvent → turn.handle.ok = some 0)
  | .registerPacketHooks turn =>
    s.guest.exports .getPacketHooks = false ∨ s.untrapped ∧
      ∀ i < min (turn.count.ok.getD 0).toNat 1024 - 1, (turn.hook i).isTrap = false

instance (s : WasmPluginInstance) : (call : HostCall) → Decidable (s.Quiet call)
  | .load _ => inferInstanceAs (Decidable True)
  | .onEnable _ | .onDisable _ => inferInstanceAs (Decidable (_ ∨ _))
  | .handleEvent _ _ | .registerPacketHooks _ => inferInstanceAs (Decidable (_ ∨ _ ∧ _))

variable {s : WasmPluginInstance} {module : GuestModule} {phase phase' : InstancePhase}

theorem untrapped_iff :
    s.untrapped = true ↔ ∀ call ∈ s.invocations, call.trapped = false := by
  simp [untrapped]

theorem isolated_called (h : s.Quiet call) :
    TrapIsolated (called formats s.guest call) := by
  cases call with
  | load turn => exact isolated_loadPlugin
  | onEnable result | onDisable result => exact isolated_callExport
  | handleEvent event turn =>
    rcases h with hmem | ⟨-, hfree⟩
    · rw [called, handleEvent_calls hmem]
      exact .nil
    · exact isolated_handleEvent hfree
  | registerPacketHooks turn =>
    rcases h with hexports | ⟨-, hhoo⟩
    · simp only [called, registerPacketHooks, hexports, Bool.false_eq_true, if_false]
      exact .nil
    · exact isolated_registerPacketHooks hhoo

theorem untrapped_of_called (h : s.Quiet call)
    (hcl : ∀ turn, call ≠ .load turn) :
    called formats s.guest call = [] ∨ s.untrapped = true := by
  cases call with
  | load turn => exact absurd rfl (hcl turn)
  | onEnable result | onDisable result =>
    rcases h with hunt | hexports
    · exact .inr hunt
    · simp [called, callLifecycle, callExport, hexports]
  | handleEvent event turn =>
    rcases h with hmem | ⟨hunt, -⟩
    · exact .inl (handleEvent_calls hmem)
    · exact .inr hunt
  | registerPacketHooks turn =>
    rcases h with hexports | ⟨hunt, -⟩
    · simp [called, registerPacketHooks, hexports]
    · exact .inr hunt

theorem next_cases (h : next formats module phase call = some phase') :
    phase' ≠ .compiled ∧
      ((phase = .compiled ∧ ∃ turn, call = .load turn) ∨ ∀ turn, call ≠ .load turn) := by
  cases phase with
  | compiled =>
    cases call with
    | load turn =>
      refine ⟨?_, .inl ⟨rfl, turn, rfl⟩⟩
      rintro rfl
      simp only [next] at h
      split at h <;> cases h
    | _ => cases h
  | loaded =>
    cases call with
    | load turn => cases h
    | _ =>
      cases h
      exact ⟨by simp, .inr (by simp)⟩
  | dropped => cases call <;> cases h

structure Contained (s : WasmPluginInstance) : Prop where
  isolated : TrapIsolated s.invocations
  fresh : s.phase = .compiled → s.invocations = []

theorem contained_step (h : s.Contained) (hqt : s.Quiet call)
    (hstep : step formats s call = some s') : s'.Contained := by
  obtain ⟨phase, hnx, rfl⟩ := Option.map_eq_some_iff.mp hstep
  obtain ⟨hph, hcl⟩ := next_cases hnx
  refine ⟨?_, fun hcom => absurd hcom hph⟩
  apply trapIsolated_append h.isolated (isolated_called hqt)
  rcases hcl with ⟨hcom, -⟩ | hcl
  · rw [h.fresh hcom]
    exact .inr (by simp)
  · rcases untrapped_of_called hqt hcl with hno | hunt
    · exact .inl hno
    · exact .inr (untrapped_iff.mp hunt)

/-- Whatever the guest exports and does, no function of it is called after one that has trapped, as
long as every call is quiet. -/
theorem isolated_of_run (h : Run (step formats) Quiet (new module) s) :
    TrapIsolated s.invocations := by
  have hcontained : s.Contained := by
    apply h.invariant ⟨.nil, fun _ => rfl⟩
    intro s call s' hs hquiet hstep
    exact contained_step hs hquiet hstep
  exact hcontained.isolated

def eventGuest : GuestModule where
  exports f := f ∈ [.alloc, .dealloc, .handleEvent, .onDisable]
  exportsMemory := true

def noFormats : GuestFormats := ⟨fun _ => none, fun _ => none⟩

def quietLoad : LoadTurn := ⟨.returned (), .returned (), .returned 0, [], .returned ()⟩

def stuckTurn : EventTurn where
  alloc := .returned 8
  size := 64
  handle := .trapped true
  handleLegacy := .returned 0
  free := .returned ()
  memory := []
  freeResponse := .returned ()

def servedTurn : EventTurn := { stuckTurn with handle := .returned 0, free := .trapped false }

theorem isolated_of_run_last_trap :
    ∃ s, Run (step noFormats) Quiet (new eventGuest) s ∧
      s.invocations.map (·.trapped) = [false, false, true] ∧ TrapIsolated s.invocations := by
  have hrun : Run (step noFormats) Quiet (new eventGuest) _ :=
    .of_exec [.load quietLoad, .handleEvent (some [0]) servedTurn] rfl
  exact ⟨_, hrun, by decide, isolated_of_run hrun⟩

/-- The watchdog interrupts the guest, the flag stays as it is, and the next event is delivered all
the same. -/
theorem called_after_trap :
    ∃ s, Run (step noFormats) (fun _ _ => True) (new eventGuest) s ∧ s.disabled = false ∧
      s.invocations.map (fun call => (call.function, call.trapped)) =
        [(.alloc, false), (.handleEvent, true), (.alloc, false), (.handleEvent, true)] ∧
      ¬TrapIsolated s.invocations := by
  have hrun : Run (step noFormats) (fun _ _ => True) (new eventGuest) _ :=
    .of_exec [.load quietLoad, .handleEvent (some [0]) stuckTurn,
      .handleEvent (some [0]) stuckTurn] rfl
  exact ⟨_, hrun, rfl, by decide, by decide⟩

end WasmPluginInstance

end Kojacoord
