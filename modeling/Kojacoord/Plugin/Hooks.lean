import Kojacoord.Plugin.Events

namespace Kojacoord

inductive PacketHookResult where
  | forward
  | drop
  | modify (data : List UInt8)
  | replace (id : Int32) (data : List UInt8)
  deriving DecidableEq

inductive PacketDirection where
  | clientbound
  | serverbound
  deriving DecidableEq

structure PacketFilter where
  protocolVersion : Option UInt32
  packetId : Option Int32
  direction : PacketDirection

structure PacketData where
  protocolVersion : UInt32
  packetId : Int32
  direction : PacketDirection
  data : List UInt8
  playerUuid : Option Uuid
  deriving DecidableEq

inductive HookOutcome where
  | ok (result : PacketHookResult)
  | error
  | panicked
  deriving DecidableEq

structure PacketEvent where
  filter : PacketFilter
  hook : PacketData → HookOutcome
  priority : Int32
  pluginName : String

namespace PacketEvent

def «matches» (h : PacketEvent) (packet : PacketData) : Bool :=
  packet.direction = h.filter.direction ∧
    (h.filter.protocolVersion.all (packet.protocolVersion = ·)) ∧
    (h.filter.packetId.all (packet.packetId = ·))

def execute (h : PacketEvent) (packet : PacketData) : HookOutcome := h.hook packet

end PacketEvent

def snapshotMatchingHooks (hooks : List PacketEvent) (packet : PacketData) : List PacketEvent :=
  hooks.filter (·.matches packet)

structure HookCall where
  place : Nat
  packet : PacketData
  deriving DecidableEq

structure HookRun where
  calls : List HookCall
  result : PacketHookResult
  deriving DecidableEq

def HookRun.after (call : HookCall) (run : HookRun) : HookRun := ⟨call :: run.calls, run.result⟩

/-- The loop of `run_hooks_inner` from a place of the list on; `modified` is what it returns once a
hook has modified the packet. -/
def hookLoop (modified : PacketData → HookRun) (packet : PacketData) :
    Nat → List PacketEvent → HookRun
  | _, [] => ⟨[], .forward⟩
  | i, hook :: rest =>
    .after ⟨i, packet⟩ <|
      match hook.execute packet with
      | .ok .drop => ⟨[], .drop⟩
      | .ok (.replace id data) => ⟨[], .replace id data⟩
      | .ok (.modify data) => modified { packet with data }
      | .ok .forward | .error | .panicked => hookLoop modified packet (i + 1) rest

/-- `run_hooks_inner` when the packet is already modified: the next modification is the last. -/
def runHooksAgain (hooks : List PacketEvent) (packet : PacketData) : HookRun :=
  hookLoop (fun packet => ⟨[], .modify packet.data⟩) packet 0 hooks

def runHooks (hooks : List PacketEvent) (packet : PacketData) : HookRun :=
  hookLoop (runHooksAgain hooks) packet 0 hooks

/-- Left to right, each hook once, on the packet as the hooks before it have left it; `touched` says
whether one of them has modified it. -/
def foldHooks (packet : PacketData) (touched : Bool) : Nat → List PacketEvent → HookRun
  | _, [] => ⟨[], if touched then .modify packet.data else .forward⟩
  | i, hook :: rest =>
    .after ⟨i, packet⟩ <|
      match hook.execute packet with
      | .ok .drop => ⟨[], .drop⟩
      | .ok (.replace id data) => ⟨[], .replace id data⟩
      | .ok (.modify data) => foldHooks { packet with data } true (i + 1) rest
      | .ok .forward | .error | .panicked => foldHooks packet touched (i + 1) rest

def PacketEvent.objection (h : PacketEvent) (packet : PacketData) : Option PacketHookResult :=
  match h.execute packet with
  | .ok .forward | .error | .panicked => none
  | .ok result => some result

def firstObjection (hooks : List PacketEvent) (packet : PacketData) : Option PacketHookResult :=
  hooks.findSome? (·.objection packet)

@[simp] theorem HookRun.after_inj : after call run = after call run' ↔ run = run' := by
  cases run
  cases run'
  simp [after]

@[simp] theorem HookRun.calls_after : (after call run).calls = call :: run.calls := rfl

theorem hookLoop_cons (hook : PacketEvent) :
    hookLoop modified packet i (hook :: rest) = .after ⟨i, packet⟩
      (match hook.objection packet with
      | none => hookLoop modified packet (i + 1) rest
      | some (.modify data) => modified { packet with data }
      | some result => ⟨[], result⟩) := by
  simp only [hookLoop, PacketEvent.objection]
  cases hook.execute packet with
  | ok result => cases result <;> rfl
  | error | panicked => rfl

theorem foldHooks_cons (hook : PacketEvent) :
    foldHooks packet touched i (hook :: rest) = .after ⟨i, packet⟩
      (match hook.objection packet with
      | none => foldHooks packet touched (i + 1) rest
      | some (.modify data) => foldHooks { packet with data } true (i + 1) rest
      | some result => ⟨[], result⟩) := by
  simp only [foldHooks, PacketEvent.objection]
  cases hook.execute packet with
  | ok result => cases result <;> rfl
  | error => rfl
  | panicked => rfl

theorem firstObjection_cons (hook : PacketEvent) :
    firstObjection (hook :: rest) packet =
      (hook.objection packet).or (firstObjection rest packet) := by
  simp [firstObjection, List.findSome?_cons]
  cases hook.objection packet <;> rfl

theorem place_le_of_mem_foldHooks (hooks : List PacketEvent)
    (h : call ∈ (foldHooks packet touched i hooks).calls) : i ≤ call.place := by
  induction hooks generalizing packet touched i with
  | nil => simp [foldHooks] at h
  | cons hook rest ih =>
    rw [foldHooks_cons, HookRun.calls_after, List.mem_cons] at h
    rcases h with rfl | h
    · exact Nat.le_refl _
    · split at h
      · exact Nat.le_of_succ_le (ih h)
      · exact Nat.le_of_succ_le (ih h)
      · simp at h

theorem hookLoop_eq_foldHooks (modified : PacketData → HookRun) (hooks : List PacketEvent)
    (h : ∀ data, firstObjection hooks packet ≠ some (.modify data)) :
    hookLoop modified packet i hooks = foldHooks packet false i hooks := by
  induction hooks generalizing i with
  | nil => rfl
  | cons hook rest ih =>
    rw [hookLoop_cons, foldHooks_cons]
    rw [firstObjection_cons] at h
    cases ho : hook.objection packet with
    | none =>
      rw [ho] at h
      rw [ih h]
    | some result =>
      rw [ho] at h
      cases result with
      | modify data => exact absurd rfl (h data)
      | forward | drop | replace pid data => rfl

theorem eq_of_hookLoop_eq_foldHooks (hooks : List PacketEvent)
    (h : firstObjection hooks packet = some (.modify data))
    (he : hookLoop modified packet i hooks = foldHooks packet false i hooks) :
    ∃ j rest, modified { packet with data } = foldHooks { packet with data } true (j + 1) rest := by
  induction hooks generalizing i with
  | nil => cases h
  | cons hook rest ih =>
    rw [hookLoop_cons, foldHooks_cons, HookRun.after_inj] at he
    rw [firstObjection_cons] at h
    cases ho : hook.objection packet with
    | none =>
      rw [ho] at h he
      exact ih h he
    | some result =>
      rw [ho] at h he
      obtain rfl : result = .modify data := by simpa using h
      exact ⟨i, rest, he⟩

theorem exists_call_runHooksAgain (packet : PacketData) (h : hooks ≠ []) :
    ⟨0, packet⟩ ∈ (runHooksAgain hooks packet).calls := by
  cases hooks with
  | nil => exact absurd rfl h
  | cons hook rest => simp [runHooksAgain, hookLoop_cons]

/-- A list of hooks comes to what its fold comes to, by the same calls, exactly if the first hook
that does not let the packet pass as it is drops or replaces it. -/
theorem runHooks_eq_foldHooks_iff (hooks : List PacketEvent) (packet : PacketData) :
    runHooks hooks packet = foldHooks packet false 0 hooks ↔
      ∀ data, firstObjection hooks packet ≠ some (.modify data) := by
  constructor
  · intro he data h
    obtain ⟨j, rest, hj⟩ := eq_of_hookLoop_eq_foldHooks hooks h he
    have hne : hooks ≠ [] := by
      rintro rfl
      cases h
    have hmem := exists_call_runHooksAgain { packet with data } hne
    rw [hj] at hmem
    exact absurd (place_le_of_mem_foldHooks rest hmem) (Nat.not_succ_le_zero j)
  · exact hookLoop_eq_foldHooks _ hooks

def replacingOne : PacketEvent where
  filter := ⟨none, none, .serverbound⟩
  hook packet := .ok (if packet.data = [1] then .modify [2] else .forward)
  priority := 0
  pluginName := "two"

/-- Its modification is lost: it is asked once more about the packet it has modified, and has
nothing to say against that one. -/
theorem runHooks_loses_modification :
    let packet : PacketData := ⟨47, 0, .serverbound, [1], none⟩
    (runHooks [replacingOne] packet).result = .forward ∧
      (foldHooks packet false 0 [replacingOne]).result = .modify [2] ∧
      (runHooks [replacingOne] packet).calls.map (·.place) = [0, 0] := by
  decide

end Kojacoord
