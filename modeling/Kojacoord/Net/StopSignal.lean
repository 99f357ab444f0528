import Kojacoord.Net.Isolation
import Kojacoord.Net.Pump

namespace Kojacoord
open Framing Notify Runs StopFlag

namespace TaskPhase

/-- Where a loop goes when it leaves: to its end, or to work after which there is no other round. -/
def Leaving (leaves : work → Bool) : TaskPhase ReadWait work → Prop
  | storing _ => True
  | working w => leaves w = true
  | _ => False

inductive Turn (v : View) (leaves : work → Bool) :
    TaskPhase ReadWait work → TaskPhase ReadWait work → Prop
  | proceed : before.proceed v leave = some after → leave.Leaving leaves → Turn v leaves before after
  | enter : Turn v leaves (created stop) (waiting stop ⟨v.shutdown.notified, []⟩)
  | read : on.open v stop = true → Turn v leaves (waiting stop on)
      (waiting stop { on with read := bytes })
  | wake : on.open v stop = true → Turn v leaves (waiting stop on) (working w)
  | stop : leave.Leaving leaves → Turn v leaves (waiting stop on) leave
  | loop : leaves w = false → Turn v leaves (working w) top
  | leave : leave.Leaving leaves → Turn v leaves (working w) leave

variable {before after leave : TaskPhase ReadWait work} {leaves : work → Bool}

theorem turn_afterRound (hw : leaves w = false) (hlv : leave.Leaving leaves)
    (result : Except ConnectionError Flow) :
    Turn v leaves (working w) (afterRound leave result) := by
  rcases result with e | flow
  · exact .leave trivial
  · cases flow with
    | «continue» => exact .loop hw
    | finish => exact .leave hlv

theorem Leaving.stage (h : leave.Leaving leaves) :
    leave.stage = .working ∨ leave.stage = .storing := by
  cases leave with
  | working => exact .inl rfl
  | storing => exact .inr rfl
  | _ => exact h.elim

theorem Turn.stage (h : Turn v leaves before after) :
    before.stage.Next v.stopped v.stop after.stage := by
  cases h with
  | proceed hph hlv => exact stage_proceed hlv.stage hph
  | enter => exact .suspend
  | read => exact .wait
  | wake => exact .wake (.inl rfl)
  | stop hlv => exact .wake hlv.stage
  | loop => exact .loop
  | leave hlv =>
    rcases hlv.stage with hsta | hsta <;> rw [hsta]
    · exact .work
    · exact .leave

end TaskPhase

def C2s.leaves : C2sWork → Bool := fun _ => false

theorem C2s.turn_of_next (h : C2s.Next env v c l c' r) :
    TaskPhase.Turn v leaves c.phase c'.phase := by
  cases h with
  | proceed hph => exact .proceed hph trivial
  | enter hph =>
    rw [hph]
    exact .enter
  | recv hph hop =>
    rw [hph]
    exact .wake hop
  | fill hph hop =>
    change TaskPhase.Turn v leaves c.phase c.phase
    rw [hph]
    exact .read hop
  | feed hph hop =>
    rw [hph]
    simp only [C2s.feed]
    split
    · exact .read hop
    · exact .wake hop
    · exact .stop trivial
  | shutdown hph | fail hph =>
    rw [hph]
    exact .stop trivial
  | work hph =>
    rw [hph]
    refine TaskPhase.turn_afterRound rfl ?_ _
    trivial

def S2c.leaves : S2cWork → Bool
  | .handle _ => false
  | .farewell | .close => true

theorem S2c.turn_work (env : PumpEnv) (v : View) (s : S2c) (w : S2cWork) :
    TaskPhase.Turn v leaves (.working w) (s.work env v w).1.phase := by
  cases w with
  | handle payload =>
    simp only [S2c.work]
    split
    · refine TaskPhase.turn_afterRound rfl ?_ _
      rfl
    · exact .leave trivial
  | farewell => exact .leave rfl
  | close => exact .leave trivial

theorem S2c.turn_of_next (h : S2c.Next env v s l after) :
    TaskPhase.Turn v leaves s.phase after.1.phase := by
  cases h with
  | proceed hph => exact .proceed hph rfl
  | enter hph =>
    rw [hph]
    exact .enter
  | shutdown hph =>
    rw [hph]
    exact .stop rfl
  | fill hph hop =>
    change TaskPhase.Turn v leaves s.phase s.phase
    rw [hph]
    exact .read hop
  | feed hph hop =>
    rw [hph]
    simp only [S2c.feed]
    split
    · exact .read hop
    · exact .wake hop
    · exact .stop trivial
  | fail hph =>
    rw [hph]
    exact .stop trivial
  | work hph =>
    rw [hph]
    exact S2c.turn_work env v s _

theorem Out.stage_step (h : Out.step v o l = some o') :
    o.phase.stage.Next v.stopped v.stop o'.phase.stage := by
  cases l with
  | proceed =>
    obtain ⟨phase, hph, rfl⟩ := Option.map_eq_some_iff.mp h
    exact TaskPhase.stage_proceed (.inr rfl) hph
  | enter =>
    cases hph : o.phase with
    | created stop =>
      simp only [Out.step, hph] at h
      cases h
      exact .suspend
    | _ => simp [Out.step, hph] at h
  | recv =>
    cases hph : o.phase with
    | waiting stop on =>
      simp only [Out.step, hph] at h
      split at h
      · split at h
        · cases h
        · cases h
          exact .wake (.inl rfl)
      · cases h
    | _ => simp [Out.step, hph] at h
  | work ok =>
    cases hph : o.phase with
    | working raw =>
      simp only [Out.step, hph] at h
      cases h
      cases ok with
      | true => exact .loop
      | false => exact .leave
    | _ => simp [Out.step, hph] at h

def Pump.sys (p : Pump) : Sys PumpTask := ⟨p.stage, p.running, p.stopped, p.stop⟩

theorem Pump.turn_of_mayRun {p : Pump} (h : p.mayRun t = true) :
    p.running = none ∨ p.running = some t := by
  simpa [mayRun] using h

theorem Pump.sys_settle {p q : Pump} {t : PumpTask} (hrun : p.mayRun t = true)
    (hsta : q.stage = Function.update p.stage t after) (hsto : q.stopped = p.stopped)
    (hsp : q.stop = p.stop) (hnx : (p.stage t).Next p.stopped p.stop after) :
    p.sys.Step (q.settle t (p.stage t) after).sys := by
  have hmv : (q.settle t (p.stage t) after).sys = p.sys.move t after := by
    have hkeep : (q.settle t (p.stage t) after).stage = q.stage := by
      funext u
      cases u <;> rfl
    simp only [sys, Sys.move, hkeep, hsta]
    simp only [settle, hsto, hsp]
    rfl
  rw [hmv]
  exact .move (turn_of_mayRun hrun) hnx

theorem Pump.sys_step (h : step env p l = some q) : q.sys = p.sys ∨ p.sys.Step q.sys := by
  obtain ⟨w, l⟩ := l
  cases l with
  | c2s l =>
    simp only [step] at h
    split at h
    · rename_i hrun
      obtain ⟨⟨c2s, relay⟩, hstep, rfl⟩ := Option.map_eq_some_iff.mp h
      right
      refine sys_settle (t := .c2s) hrun ?_ rfl rfl (C2s.turn_of_next (C2s.next_of_step hstep)).stage
      funext u
      cases u <;> rfl
    · cases h
  | s2c l =>
    simp only [step] at h
    split at h
    · rename_i hrun
      obtain ⟨⟨s2c, relay⟩, hstep, rfl⟩ := Option.map_eq_some_iff.mp h
      right
      refine sys_settle (t := .s2c) hrun ?_ rfl rfl (S2c.turn_of_next (S2c.next_of_step hstep)).stage
      funext u
      cases u <;> rfl
    · cases h
  | out l =>
    simp only [step] at h
    split at h
    · rename_i hrun
      obtain ⟨out, hstep, rfl⟩ := Option.map_eq_some_iff.mp h
      right
      refine sys_settle (t := .out) hrun ?_ rfl rfl (Out.stage_step hstep)
      funext u
      cases u <;> rfl
    · cases h
  | sendToBackend | sendToPlayer | kickPlayer | proxy =>
    cases h
    left
    simp only [sys, Sys.mk.injEq, and_true]
    funext u
    cases u <;> rfl

theorem Pump.sound_of_run {env : PumpEnv} (h : Run (step env) ok (.start shared client backend) p) :
    p.sys.Sound := by
  apply h.invariant
  · apply Sys.sound_init
    · intro t
      cases t <;> rfl
    · rfl
    · rfl
  · intro p l q hp _ hstep
    rcases sys_step hstep with hsm | hmv
    · rw [hsm]
      exact hp
    · exact hp.step hmv

/-- Once one of the three tasks has given the stop signal, no task is left waiting for it: it has
arrived wherever a task is suspended, a task at the top of its loop does not get past the flag, and
none begins another wait. -/
theorem stop_signal_arrives {env : PumpEnv} {shared : Shared} {client backend : List UInt8}
    {p : Pump} (h : Run (Pump.step env) (fun _ _ => True) (.start shared client backend) p)
    (hgiven : 0 < p.stop.calls) (t : PumpTask) :
    (∀ stop, p.stage t = .waiting stop → stop.ready p.stop = true) ∧
    (∀ l q, Pump.step env p l = some q → p.stage t = .top →
      q.stage t = .top ∨ q.stage t = .working ∨ q.stage t = .storing) ∧
    ∀ l q stop, Pump.step env p l = some q → q.stage t = .waiting stop →
      p.stage t = .waiting stop := by
  have hsound := Pump.sound_of_run h
  have hstopped : p.stopped = true := hsound.given hgiven
  refine ⟨hsound.delivered hgiven t, ?_, ?_⟩
  · intro l q hstep htop
    rcases Pump.sys_step hstep with hsame | hmove
    · left
      have hstage := congrArg (fun s => s.stage t) hsame
      exact hstage.trans htop
    · generalize hq : q.sys = after at hmove
      cases hmove with
      | @move u stage _ hnext =>
        have hstage : q.stage t = Function.update p.stage u stage t :=
          congrArg (fun s => s.stage t) hq
        by_cases htu : t = u
        · subst htu
          rw [Function.update_self] at hstage
          rw [hstage]
          change (p.stage t).Next p.stopped p.stop stage at hnext
          rw [htop, hstopped] at hnext
          cases hnext with
          | pass hclear => cases hclear
          | heed _ hafter => exact .inr hafter
        · left
          rw [hstage, Function.update_of_ne htu]
          exact htop
  · intro l q stop hstep hwaits
    rcases Pump.sys_step hstep with hsame | hmove
    · have hstage := congrArg (fun s => s.stage t) hsame
      exact hstage.symm.trans hwaits
    · exact hsound.no_new_wait hstopped hmove hwaits

def lobbyPump : PumpEnv :=
  { lobbyRelay with
    batchS2cWrites := true
    clientCompressionThreshold := -1
    backendCompressionThreshold := -1
    inflate := fun bytes => (bytes, none)
    deflate := fun bytes => bytes
    cbPlay := fun name => if name = "ClientboundDisconnect" then 0x1B else 0xFF
    packetHook := fun _ _ _ => .forward
    buildTransferReply := fun _ => []
    buildDisconnectPacket := fun reason => reason.toUTF8.data.toList
    clientRoom := none }

def lobbyShared : Shared := ⟨.start lobbyConfig (lobbyFor 2) ∅, []⟩

def calm : ShutdownState := ⟨.new, ""⟩

theorem stop_signal_arrives_hangup : ∃ p,
    Run (Pump.step lobbyPump) (fun _ _ => True) (.start lobbyShared [] []) p ∧ 0 < p.stop.calls ∧
      ∃ stop, p.stage .s2c = .waiting stop ∧ stop.ready p.stop = true := by
  have hrun : Run (Pump.step lobbyPump) (fun _ _ => True) (.start lobbyShared [] []) _ :=
    Run.of_exec [(calm, .s2c .proceed), (calm, .s2c .proceed), (calm, .s2c .enter),
      (calm, .c2s .proceed), (calm, .c2s .proceed), (calm, .c2s .enter),
      (calm, .c2s (.fail (.io .unexpectedEof ""))), (calm, .c2s .proceed), (calm, .c2s .proceed)]
      rfl
  refine ⟨_, hrun, by decide, _, rfl, ?_⟩
  exact (stop_signal_arrives hrun (by decide) .s2c).1 _ rfl

end Kojacoord
