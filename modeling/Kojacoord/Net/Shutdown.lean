import Kojacoord.Net.ClientFrames

namespace Kojacoord
open Framing Notify Runs StopFlag List Option

structure RelayTask where
  env : PumpEnv
  pump : Pump
  told : Bool

structure LimboTask where
  protocol : UInt32
  limbo : Limbo
  told : Bool

inductive ShutdownStage where
  | idle
  | published
  | notified
deriving DecidableEq

structure Fleet where
  stage : ShutdownStage
  shutdown : ShutdownState
  relays : List RelayTask
  limbos : List LimboTask

/-- A loop starts or moves, or the shutdown goes on: it publishes the reason, notifies the waiters,
and kicks the players of the relays one by one. -/
inductive FleetLabel where
  | openRelay (env : PumpEnv) (shared : Shared) (client backend : List UInt8)
  | openLimbo (protocol : UInt32) (stream : List UInt8)
  | relay (i : Nat) (l : PumpLabel)
  | limbo (i : Nat) (l : Limbo.Label)
  | publish (reason : String)
  | notify
  | kick (i : Nat)

def Fleet.start : Fleet := ⟨.idle, calm, [], []⟩

def Fleet.stepRelay (f : Fleet) (i : Nat) (l : PumpLabel) : Option Fleet := do
  let r ← f.relays[i]?
  let pump ← Pump.step r.env r.pump (f.shutdown, l)
  return { f with relays := f.relays.set i { r with pump } }

def Fleet.stepLimbo (f : Fleet) (i : Nat) (l : Limbo.Label) : Option Fleet := do
  let b ← f.limbos[i]?
  let limbo ← Limbo.step b.protocol b.limbo (f.shutdown.signal, l)
  return { f with limbos := f.limbos.set i { b with limbo } }

def Fleet.step (f : Fleet) : FleetLabel → Option Fleet
  | .openRelay env shared client backend =>
    some { f with relays := f.relays ++ [⟨env, .start shared client backend, false⟩] }
  | .openLimbo protocol stream =>
    some { f with limbos := f.limbos ++ [⟨protocol, .start stream, false⟩] }
  | .relay i l => f.stepRelay i l
  | .limbo i l => f.stepLimbo i l
  | .publish reason =>
    if f.stage = .idle then
      some { f with stage := .published, shutdown := { f.shutdown with reason } }
    else none
  | .notify =>
    if f.stage = .published then
      some { f with
        stage := .notified
        shutdown := { f.shutdown with signal := f.shutdown.signal.notifyWaiters }
        relays := f.relays.map fun r => { r with told := true }
        limbos := f.limbos.map fun b => { b with told := true } }
    else none
  | .kick i => if f.stage = .notified then f.stepRelay i (.kickPlayer f.shutdown.reason) else none

namespace TaskPhase

def shutdownWaiter : TaskPhase ReadWait work → Option Waiter
  | waiting _ on => some on.shutdown
  | _ => none

def misses (signal : Signal) (phase : TaskPhase ReadWait work) : Bool :=
  phase.shutdownWaiter.any fun w => !w.ready signal

/-- The task waits, or it does not get to another wait because it is leaving its loop or has to
stop. -/
def hears (leaves : work → Bool) (stopped : Bool) : TaskPhase ReadWait work → Bool
  | waiting .. | storing _ | notifying _ | done _ => true
  | working w => stopped || leaves w
  | top | checked | created _ => stopped

/-- The shutdown has got to the task if it waits, and otherwise it does not wait again. -/
def Heard (leaves : work → Bool) (stopped : Bool) (signal : Signal) :
    TaskPhase ReadWait work → Prop
  | waiting _ on => on.shutdown.ready signal = true
  | working w => stopped = true ∨ leaves w = true
  | top | checked | created _ => stopped = true
  | storing _ | notifying _ | done _ => True

variable {phase before after leave : TaskPhase ReadWait work} {leaves : work → Bool}

theorem Heard.not_misses (h : phase.Heard leaves stopped signal) : phase.misses signal = false := by
  cases phase with
  | waiting stop on =>
    change (!on.shutdown.ready signal) = false
    rw [show on.shutdown.ready signal = true from h]
    rfl
  | _ => rfl

theorem Heard.stopping (h : phase.Heard leaves stopped signal)
    (hsto : stopped = true → stopped' = true) : phase.Heard leaves stopped' signal := by
  cases phase with
  | top | checked | created => exact hsto h
  | working => exact h.imp_left hsto
  | waiting | storing | notifying | done => exact h

theorem heard_of_hears (h : phase.hears leaves stopped = true)
    (hof : ∀ w, phase.shutdownWaiter = some w → w.Of signal) :
    phase.Heard leaves stopped signal.notifyWaiters := by
  cases phase with
  | waiting stop on => exact (hof _ rfl).ready
  | working => exact Bool.or_eq_true_iff.mp h
  | top | checked | created => exact h
  | storing | notifying | done => trivial

theorem Leaving.heard (h : leave.Leaving leaves) : leave.Heard leaves stopped signal := by
  cases leave with
  | working => exact .inr h
  | storing => trivial
  | _ => exact h.elim

theorem Leaving.shutdownWaiter (h : leave.Leaving leaves) : leave.shutdownWaiter = none := by
  cases leave with
  | working | storing => rfl
  | _ => exact h.elim

theorem Heard.not_open (h : Heard leaves stopped v.shutdown (waiting stop on))
    (hop : on.open v stop = true) : False := by
  have hrdy : on.shutdown.ready v.shutdown = true := h
  simp [ReadWait.open, hrdy] at hop

theorem Turn.heard (htn : Turn v leaves before after)
    (h : before.Heard leaves v.stopped v.shutdown)
    (hcle : before.stage.passed = true → v.stopped = false) :
    after.Heard leaves v.stopped v.shutdown := by
  cases htn with
  | proceed hph hlv =>
    cases proceeds_of_proceed hph with
    | heed | wake => exact hlv.heard
    | pass hs =>
      rw [show v.stopped = true from h] at hs
      cases hs
    | create => exact h
    | store | notify => trivial
  | enter =>
    have hsto : v.stopped = true := h
    rw [hcle rfl] at hsto
    cases hsto
  | read hop | wake hop => exact (h.not_open hop).elim
  | stop hlv | leave hlv => exact hlv.heard
  | loop hw =>
    rcases h with hsto | hlea
    · exact hsto
    · cases hw.symm.trans hlea

theorem Turn.waiter_of (htn : Turn v leaves before after)
    (h : ∀ w, before.shutdownWaiter = some w → w.Of v.shutdown)
    (hw : after.shutdownWaiter = some w) : w.Of v.shutdown := by
  cases htn with
  | proceed hph hlv =>
    cases proceeds_of_proceed hph with
    | heed | wake =>
      rw [hlv.shutdownWaiter] at hw
      cases hw
    | pass | create | store | notify => cases hw
  | enter =>
    cases hw
    exact Waiter.of_notified _
  | read => exact h w hw
  | wake | loop => cases hw
  | stop hlv | leave hlv =>
    rw [hlv.shutdownWaiter] at hw
    cases hw

end TaskPhase

theorem Pump.stopped_step {p q : Pump} (h : step env p l = some q) (hsto : p.stopped = true) :
    q.stopped = true := by
  rcases sys_step h with hsm | hmv
  · exact (congrArg Sys.stopped hsm).trans hsto
  · generalize hq : q.sys = after at hmv
    cases hmv with
    | move => exact (congrArg Sys.stopped hq).trans (by simp [Sys.move, sys, hsto])

namespace RelayTask

def hears (r : RelayTask) : Bool :=
  r.pump.c2s.phase.hears C2s.leaves r.pump.stopped &&
    r.pump.s2c.phase.hears S2c.leaves r.pump.stopped

def misses (signal : Signal) (r : RelayTask) : Bool :=
  r.pump.c2s.phase.misses signal || r.pump.s2c.phase.misses signal

/-- What holds of a relay at any time: its waiters are waiters of the signal, and if it was running
when the signal was given, its loops have heard it. -/
structure Sound (signal : Signal) (r : RelayTask) : Prop where
  stops : r.pump.sys.Sound
  c2sWaiter : ∀ w, r.pump.c2s.phase.shutdownWaiter = some w → w.Of signal
  s2cWaiter : ∀ w, r.pump.s2c.phase.shutdownWaiter = some w → w.Of signal
  c2sHeard : r.told = true → r.pump.c2s.phase.Heard C2s.leaves r.pump.stopped signal
  s2cHeard : r.told = true → r.pump.s2c.phase.Heard S2c.leaves r.pump.stopped signal

theorem Sound.not_misses {r : RelayTask} (h : r.Sound signal) (hto : r.told = true) :
    r.misses signal = false := by
  rw [misses, (h.c2sHeard hto).not_misses, (h.s2cHeard hto).not_misses]
  rfl

theorem sound_start (env : PumpEnv) (shared : Shared) (client backend : List UInt8) :
    Sound signal ⟨env, .start shared client backend, false⟩ where
  stops := Pump.sound_of_run (.refl : Run (Pump.step env) (fun _ _ => True) _ _)
  c2sWaiter _ := nofun
  s2cWaiter _ := nofun
  c2sHeard := nofun
  s2cHeard := nofun

theorem Sound.notify {r : RelayTask} (h : r.Sound signal) (hhea : r.hears = true) :
    Sound signal.notifyWaiters { r with told := true } := by
  obtain ⟨hc2s, hs2c⟩ := Bool.and_eq_true_iff.mp hhea
  exact
    { stops := h.stops
      c2sWaiter := fun w hw => (h.c2sWaiter w hw).notifyWaiters
      s2cWaiter := fun w hw => (h.s2cWaiter w hw).notifyWaiters
      c2sHeard := fun _ => TaskPhase.heard_of_hears hc2s h.c2sWaiter
      s2cHeard := fun _ => TaskPhase.heard_of_hears hs2c h.s2cWaiter }

theorem Sound.step {r : RelayTask} {w : ShutdownState} {q : Pump} (h : r.Sound w.signal)
    (hstep : Pump.step r.env r.pump (w, l) = some q) : Sound w.signal { r with pump := q } := by
  have hsto := Pump.stopped_step hstep
  have hc2s : q.c2s.phase = r.pump.c2s.phase ∨
      TaskPhase.Turn (r.pump.view w) C2s.leaves r.pump.c2s.phase q.c2s.phase := by
    rcases Pump.c2s_cases hstep with ⟨l', -, hnx⟩ | ⟨raw, hoff⟩ | hsm
    · exact .inr (C2s.turn_of_next hnx)
    · left
      rw [hoff]
      rfl
    · exact .inl (congrArg C2s.phase hsm)
  have hs2c : q.s2c.phase = r.pump.s2c.phase ∨
      TaskPhase.Turn (r.pump.view w) S2c.leaves r.pump.s2c.phase q.s2c.phase := by
    rcases Pump.s2c_cases hstep with ⟨l', -, hnx⟩ | hsm
    · exact .inr (S2c.turn_of_next hnx)
    · exact .inl (congrArg S2c.phase hsm)
  refine ⟨?_, ?_, ?_, ?_, ?_⟩
  · rcases Pump.sys_step hstep with hsm | hmv
    · change q.sys.Sound
      rw [hsm]
      exact h.stops
    · exact h.stops.step hmv
  · rcases hc2s with hsm | htn
    · rw [hsm]
      exact h.c2sWaiter
    · exact fun _ => htn.waiter_of h.c2sWaiter
  · rcases hs2c with hsm | htn
    · rw [hsm]
      exact h.s2cWaiter
    · exact fun _ => htn.waiter_of h.s2cWaiter
  · intro hto
    refine TaskPhase.Heard.stopping ?_ hsto
    rcases hc2s with hsm | htn
    · rw [hsm]
      exact h.c2sHeard hto
    · exact htn.heard (h.c2sHeard hto) (h.stops.clear .c2s)
  · intro hto
    refine TaskPhase.Heard.stopping ?_ hsto
    rcases hs2c with hsm | htn
    · rw [hsm]
      exact h.s2cHeard hto
    · exact htn.heard (h.s2cHeard hto) (h.stops.clear .s2c)

end RelayTask

namespace LimboPhase
variable {phase : LimboPhase}

def shutdownWaiter : LimboPhase → Option Waiter
  | selecting waiter _ => waiter
  | _ => none

def misses (signal : Signal) : LimboPhase → Bool
  | selecting waiter _ => !waiter.any fun w => w.ready signal
  | _ => false

def hears : LimboPhase → Bool
  | selecting waiter _ => waiter.isSome
  | dialing | beating => false
  | parting | done _ => true

def Heard (signal : Signal) : LimboPhase → Prop
  | selecting waiter _ => ∃ w, waiter = some w ∧ w.ready signal = true
  | dialing | beating => False
  | parting | done _ => True

theorem Heard.not_misses (h : phase.Heard signal) : phase.misses signal = false := by
  cases phase with
  | selecting waiter read =>
    obtain ⟨w, rfl, hrdy⟩ := h
    simp [misses, hrdy]
  | _ => rfl

theorem heard_of_hears (h : phase.hears = true)
    (hof : ∀ w, phase.shutdownWaiter = some w → w.Of signal) :
    phase.Heard signal.notifyWaiters := by
  cases phase with
  | selecting waiter read =>
    obtain ⟨w, rfl⟩ := isSome_iff_exists.mp h
    exact ⟨w, rfl, (hof w rfl).ready⟩
  | dialing | beating => cases h
  | parting | done => trivial

end LimboPhase

namespace Limbo
variable {b b' : Limbo} {l : Label}

/-- Where the shutdown is ready, no branch is taken in its place that leads to another round. -/
def heedsShutdown (protocol : UInt32) (b : Limbo) (move : Signal × Label) : Bool :=
  match move.2, b.phase with
  | .poll, .selecting (some w) _ | .keepalive, .selecting (some w) _ => !w.ready move.1
  | .feed, .selecting (some w) read =>
    !w.ready move.1 || match b.unread with
      | byte :: _ =>
        match (readAndDiscard protocol).progress (read ++ [byte]) with
        | .done _ => false
        | _ => true
      | [] => true
  | _, _ => true

theorem shutdownWaiter_next (hnx : Next protocol signal b l b')
    (hw : b'.phase.shutdownWaiter = some w) :
    b.phase.shutdownWaiter = some w ∨ w = signal.notified := by
  cases hnx with
  | listen =>
    cases hw
    exact .inr rfl
  | feed hph =>
    left
    rw [hph]
    simp only [Limbo.feed] at hw
    split at hw
    · exact hw
    · cases hw
    · cases hw
  | _ => cases hw

theorem heard_next (h : b.phase.Heard signal) (hnx : Next protocol signal b l b')
    (hhee : b.heedsShutdown protocol (signal, l) = true) : b'.phase.Heard signal := by
  cases hnx with
  | listen hph =>
    rw [hph] at h
    obtain ⟨w, hno, -⟩ := h
    cases hno
  | poll hph | keepalive hph =>
    rw [hph] at h
    obtain ⟨w, rfl, hrdy⟩ := h
    simp [heedsShutdown, hph, hrdy] at hhee
  | redial hph | connected hph | beaten hph | beatLost hph =>
    rw [hph] at h
    exact h.elim
  | shutdown | part | fail => trivial
  | feed hph hunr =>
    rw [hph] at h
    obtain ⟨w, rfl, hrdy⟩ := h
    simp only [heedsShutdown, hph, hrdy, hunr, Bool.not_true, Bool.false_or] at hhee
    simp only [Limbo.feed]
    split
    · exact ⟨w, rfl, hrdy⟩
    · rename_i hdn
      rw [hdn] at hhee
      cases hhee
    · trivial

end Limbo

structure LimboTask.Sound (signal : Signal) (b : LimboTask) : Prop where
  waiter : ∀ w, b.limbo.phase.shutdownWaiter = some w → w.Of signal
  heard : b.told = true → b.limbo.phase.Heard signal

theorem LimboTask.Sound.notify {b : LimboTask} (h : b.Sound signal)
    (hhea : b.limbo.phase.hears = true) : Sound signal.notifyWaiters { b with told := true } :=
  ⟨fun w hw => (h.waiter w hw).notifyWaiters, fun _ => LimboPhase.heard_of_hears hhea h.waiter⟩

theorem LimboTask.Sound.step {b : LimboTask} {after : Limbo} (h : b.Sound signal)
    (hstep : Limbo.step b.protocol b.limbo (signal, l) = some after)
    (hhee : b.limbo.heedsShutdown b.protocol (signal, l) = true) :
    Sound signal { b with limbo := after } := by
  have hnx := Limbo.next_of_step hstep
  refine ⟨?_, fun hto => Limbo.heard_next (h.heard hto) hnx hhee⟩
  intro w hw
  rcases Limbo.shutdownWaiter_next hnx hw with hw | rfl
  · exact h.waiter w hw
  · exact Waiter.of_notified _

namespace Fleet

/-- The signal is given only where every loop waits for it or is on its way out, and a limbo loop
takes no other branch in its place. -/
def heedsShutdown (f : Fleet) : FleetLabel → Bool
  | .notify => f.relays.all RelayTask.hears && f.limbos.all fun b => b.limbo.phase.hears
  | .limbo i l =>
    match f.limbos[i]? with
    | some b => b.limbo.heedsShutdown b.protocol (f.shutdown.signal, l)
    | none => true
  | _ => true

structure Sound (f : Fleet) : Prop where
  relays : ∀ r ∈ f.relays, r.Sound f.shutdown.signal
  limbos : ∀ b ∈ f.limbos, b.Sound f.shutdown.signal

theorem Sound.stepRelay {f g : Fleet} (h : f.Sound) (hstep : f.stepRelay i l = some g) :
    g.Sound := by
  obtain ⟨r, hr, hstep⟩ := bind_eq_some_iff.mp hstep
  obtain ⟨q, hq, hstep⟩ := bind_eq_some_iff.mp hstep
  cases hstep
  refine ⟨?_, h.limbos⟩
  intro s hs
  rcases mem_or_eq_of_mem_set hs with hs | rfl
  · exact h.relays s hs
  · exact (h.relays r (mem_of_getElem? hr)).step hq

theorem Sound.stepLimbo {f g : Fleet} (h : f.Sound) (hstep : f.stepLimbo i l = some g)
    (hhee : f.heedsShutdown (.limbo i l) = true) : g.Sound := by
  obtain ⟨b, hb, hstep⟩ := bind_eq_some_iff.mp hstep
  obtain ⟨after, haft, hstep⟩ := bind_eq_some_iff.mp hstep
  cases hstep
  refine ⟨h.relays, ?_⟩
  simp only [heedsShutdown, hb] at hhee
  intro c hc
  rcases mem_or_eq_of_mem_set hc with hc | rfl
  · exact h.limbos c hc
  · exact (h.limbos b (mem_of_getElem? hb)).step haft hhee

theorem Sound.step {f g : Fleet} (h : f.Sound) (hhee : f.heedsShutdown l = true)
    (hstep : f.step l = some g) : g.Sound := by
  cases l with
  | openRelay env shared client backend =>
    cases hstep
    refine ⟨?_, h.limbos⟩
    intro r hr
    rcases mem_append.mp hr with hr | hr
    · exact h.relays r hr
    · rw [mem_singleton.mp hr]
      exact RelayTask.sound_start env shared client backend
  | openLimbo protocol stream =>
    cases hstep
    refine ⟨h.relays, ?_⟩
    intro b hb
    rcases mem_append.mp hb with hb | hb
    · exact h.limbos b hb
    · rw [mem_singleton.mp hb]
      exact ⟨nofun, nofun⟩
  | relay i l => exact h.stepRelay hstep
  | limbo i l => exact h.stepLimbo hstep hhee
  | publish reason =>
    simp only [Fleet.step] at hstep
    split at hstep
    · cases hstep
      exact ⟨h.relays, h.limbos⟩
    · cases hstep
  | notify =>
    simp only [Fleet.step] at hstep
    split at hstep
    · cases hstep
      obtain ⟨hrel, hlim⟩ := Bool.and_eq_true_iff.mp hhee
      constructor
      · intro s hs
        obtain ⟨r, hr, rfl⟩ := mem_map.mp hs
        exact (h.relays r hr).notify (all_eq_true.mp hrel r hr)
      · intro c hc
        obtain ⟨b, hb, rfl⟩ := mem_map.mp hc
        exact (h.limbos b hb).notify (all_eq_true.mp hlim b hb)
    · cases hstep
  | kick i =>
    simp only [Fleet.step] at hstep
    split at hstep
    · exact h.stepRelay hstep
    · cases hstep

end Fleet

/-- In every run in which the signal is given where every loop waits for it or is on its way out,
and no limbo loop takes another branch in its place, the signal gets to every wait that a running
loop is in: none of them has begun another one without it. -/
theorem shutdown_observed_of_run {f : Fleet}
    (h : Run Fleet.step (fun f l => f.heedsShutdown l = true) .start f) :
    (∀ r ∈ f.relays, r.told = true → r.misses f.shutdown.signal = false) ∧
      ∀ b ∈ f.limbos, b.told = true → b.limbo.phase.misses f.shutdown.signal = false := by
  have hsound : f.Sound := by
    apply h.invariant (I := Fleet.Sound)
    · exact ⟨fun _ hr => absurd hr not_mem_nil, fun _ hb => absurd hb not_mem_nil⟩
    · intro f l g hf hheeds hstep
      exact hf.step hheeds hstep
  exact ⟨fun r hr htold => (hsound.relays r hr).not_misses htold,
    fun b hb htold => ((hsound.limbos b hb).heard htold).not_misses⟩

def twoLoops (backend : List UInt8) : List FleetLabel :=
  [.openRelay lobbyPump lobbyShared [] backend, .openLimbo 765 []]

def allSelect : List FleetLabel :=
  [.relay 0 (.s2c .proceed), .relay 0 (.s2c .proceed), .relay 0 (.s2c .enter),
   .relay 0 (.c2s .proceed), .relay 0 (.c2s .proceed), .relay 0 (.c2s .enter), .limbo 0 .listen]

theorem shutdown_observed_idle : ∃ f,
    Run Fleet.step (fun f l => f.heedsShutdown l = true) .start f ∧
    f.stage = .notified ∧ f.relays.map RelayTask.told = [true] ∧
    f.limbos.map LimboTask.told = [true] ∧
    (∀ r ∈ f.relays, r.told = true → r.misses f.shutdown.signal = false) ∧
    ∀ b ∈ f.limbos, b.told = true → b.limbo.phase.misses f.shutdown.signal = false := by
  obtain ⟨f, hrun, hstage, hrelays, hlimbos⟩ : ∃ f,
      Run Fleet.step (fun f l => f.heedsShutdown l = true) .start f ∧
      f.stage = .notified ∧ f.relays.map RelayTask.told = [true] ∧
      f.limbos.map LimboTask.told = [true] :=
    Run.exists_of_exec (twoLoops [] ++ allSelect ++ [.publish "bye", .notify, .kick 0])
      (by decide +kernel)
  exact ⟨f, hrun, hstage, hrelays, hlimbos, shutdown_observed_of_run hrun⟩

/-- A relay that is busy with a packet when the signal is given waits again without it, and so does
a limbo loop that takes its keep-alive branch instead. -/
theorem shutdown_missed :
    (¬ ∀ f, Run Fleet.step (fun _ _ => True) .start f →
      ∀ r ∈ f.relays, r.told = true → r.misses f.shutdown.signal = false) ∧
    ¬ ∀ f, Run Fleet.step (fun _ _ => True) .start f →
      ∀ b ∈ f.limbos, b.told = true → b.limbo.phase.misses f.shutdown.signal = false := by
  constructor
  · intro h
    obtain ⟨f, hrun, hmissed⟩ : ∃ f, Run Fleet.step (fun _ _ => True) .start f ∧
        ∃ r ∈ f.relays, r.told = true ∧ r.misses f.shutdown.signal = true :=
      Run.exists_of_exec (twoLoops [1, 5] ++ allSelect ++ [.relay 0 (.s2c (.fill 2)),
        .relay 0 (.s2c .feed), .relay 0 (.s2c .feed), .publish "bye", .notify,
        .relay 0 (.s2c .work), .relay 0 (.s2c .proceed), .relay 0 (.s2c .proceed),
        .relay 0 (.s2c .enter)]) (by decide +kernel)
    obtain ⟨r, hr, htold, hmisses⟩ := hmissed
    rw [h f hrun r hr htold] at hmisses
    cases hmisses
  · intro h
    obtain ⟨f, hrun, hmissed⟩ : ∃ f, Run Fleet.step (fun _ _ => True) .start f ∧
        ∃ b ∈ f.limbos, b.told = true ∧ b.limbo.phase.misses f.shutdown.signal = true :=
      Run.exists_of_exec (twoLoops [] ++ allSelect ++ [.publish "bye", .notify,
        .limbo 0 .keepalive, .limbo 0 (.beaten none), .limbo 0 .listen]) (by decide +kernel)
    obtain ⟨b, hb, htold, hmisses⟩ := hmissed
    rw [h f hrun b hb htold] at hmisses
    cases hmisses

end Kojacoord
