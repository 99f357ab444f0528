import Kojacoord.Net.Batching

namespace Kojacoord
open Framing Journal Notify Runs StopFlag

def TaskPhase.awaits : TaskPhase on work → Bool
  | top | checked | created _ | waiting .. => true
  | working _ | storing _ | notifying _ | done _ => false

theorem TaskPhase.awaits_of_stage {phase : TaskPhase on work} (h : phase.stage = .waiting stop) :
    phase.awaits = true := by
  cases phase with
  | waiting => rfl
  | _ => cases h

theorem TaskPhase.awaits_of_proceed {before after leave : TaskPhase on work}
    (h : before.proceed v leave = some after) (ha : after.awaits = true) :
    before.awaits = true := by
  cases proceeds_of_proceed h with
  | heed | pass | create | wake => rfl
  | store | notify => cases ha

theorem Source.buffer_fill {s t : Source} (h : s.fill n = some t) : t.buffer ≠ [] := by
  simp only [fill] at h
  split at h
  · rename_i hs
    cases h
    intro hnil
    have hlen := congrArg List.length hnil
    rw [List.length_take, List.length_nil] at hlen
    omega
  · cases h

namespace S2cM
variable {env : PumpEnv} {s after : S2c}

theorem pending_of_flush (hrun : ExceptT.run (flush env) s = (.ok a, after)) :
    after.pending = [] := by
  by_cases hft : env.taken (s.sent ++ s.pending) = s.sent ++ s.pending
  · rw [run_flush_ok hft] at hrun
    cases hrun
    rfl
  · rw [run_flush_error hft] at hrun
    cases hrun

theorem pending_of_send (hrun : ExceptT.run (send env raw) s = (.ok a, after)) :
    after.pending = s.pending := by
  unfold send at hrun
  rw [run_write] at hrun
  exact (congrArg (fun round => round.2.pending) hrun).symm

theorem pending_of_enqueue
    (hrun : ExceptT.run (enqueue (env.batching true) raw) s = (.ok a, after))
    (hbuf : after.source.buffer = []) : after.pending = [] := by
  rw [run_enqueue_batching] at hrun
  by_cases hnow : pendingFlushCap ≤ (s.pending ++ env.frame raw).length ∨ s.source.buffer = []
  · rw [if_pos hnow] at hrun
    exact pending_of_flush hrun
  · rw [if_neg hnow] at hrun
    cases hrun
    exact absurd (.inr hbuf) hnow

theorem pending_of_apply (hsk : w = .skip → s.source.buffer = [] → s.pending = [])
    (hrun : ExceptT.run (apply (env.batching true) w) s = (.ok .continue, after))
    (hbuf : after.source.buffer = []) : after.pending = [] := by
  cases w with
  | skip =>
    cases hrun
    exact hsk rfl hbuf
  | direct raw =>
    obtain ⟨_, flushed, hflu, hrun⟩ := run_bind_eq_ok hrun
    obtain ⟨_, sent, hsend, hrun⟩ := run_bind_eq_ok hrun
    cases hrun
    rw [pending_of_send hsend, pending_of_flush hflu]
  | queue raw =>
    obtain ⟨_, queued, hque, hrun⟩ := run_bind_eq_ok hrun
    cases hrun
    exact pending_of_enqueue hque hbuf
  | kicked reason =>
    obtain ⟨_, drained, -, hrun⟩ := run_bind_eq_ok hrun
    cases hrun

end S2cM

def S2c.Prompt (s : S2c) : Prop :=
  s.phase.awaits = true → s.source.buffer = [] → s.pending = []

/-- A packet that the loop passes over does not come last while something is pending, and neither
does the beginning of a packet. -/
def S2c.keepsPrompt (env : PumpEnv) (s : S2c) : Label → Bool
  | .work =>
    match s.phase with
    | .working (.handle payload) =>
      s.pending.isEmpty || !s.source.buffer.isEmpty || !env.skips s.handled payload
    | _ => true
  | .feed =>
    match s.phase, s.source.pop with
    | .waiting _ on, some (byte, later) =>
      s.pending.isEmpty || !later.buffer.isEmpty ||
        match env.readBackend.progress (on.read ++ [byte]) with
        | .more => false
        | _ => true
    | _, _ => true
  | _ => true

theorem S2c.Prompt.next (h : Prompt s) (hnx : Next (env.batching true) v s l after)
    (hflu : s.keepsPrompt env l = true) : Prompt after.1 := by
  cases hnx with
  | proceed hph =>
    intro hawa
    exact h (TaskPhase.awaits_of_proceed hph hawa)
  | enter hph =>
    rw [Prompt, hph] at h
    exact fun _ => h rfl
  | shutdown | fail => exact nofun
  | fill hph _ hfill => exact fun _ hbuf => absurd hbuf (Source.buffer_fill hfill)
  | @feed stop on byte later hph _ hpop =>
    simp only [keepsPrompt, hph, hpop, Bool.or_eq_true, List.isEmpty_iff, Bool.not_eq_true']
      at hflu
    unfold S2c.feed
    dsimp only
    split
    · rename_i hmo
      change env.readBackend.progress _ = _ at hmo
      intro _ hbuf
      rw [hmo] at hflu
      rcases hflu with (hpend | hrs) | hmo
      · exact hpend
      · rw [hbuf] at hrs
        cases hrs
      · cases hmo
    · exact nofun
    · exact nofun
  | @work w hph =>
    cases w with
    | handle payload =>
      obtain ⟨w, r, hrun, hski⟩ := RelayM.run_verdict (env.batching true) s.handled payload v.relay
      rw [work_handle (env.batching true) hrun]
      rcases happ : ExceptT.run (S2cM.apply (env.batching true) w)
        { s with handled := s.handled + 1 } with ⟨result, after⟩
      have hsk (hw : w = .skip) (hbuf : s.source.buffer = []) : s.pending = [] := by
        have hskipp : env.skips s.handled payload = true := hski hw
        simpa [keepsPrompt, hph, hbuf, hskipp] using hflu
      intro hawa hbuf
      rcases result with e | flow
      · cases hawa
      · cases flow with
        | «continue» =>
          have hpend := S2cM.pending_of_apply (s := { s with handled := s.handled + 1 }) hsk
            happ
          exact hpend hbuf
        | finish => cases hawa
    | farewell | close =>
      exact nofun

def Pump.keepsPrompt (env : PumpEnv) (p : Pump) (l : ShutdownState × PumpLabel) : Bool :=
  match l.2 with
  | .s2c l => p.s2c.keepsPrompt env l
  | _ => true

/-- In every run in which neither a packet that the loop passes over nor the beginning of one is
last in the buffer while something is pending, nothing is pending where the loop waits with an empty
buffer. -/
theorem nothing_withheld_of_run {env : PumpEnv} {shared : Shared} {client backend : List UInt8}
    {p : Pump} {stop : Waiter}
    (h : Run (Pump.step (env.batching true)) (fun p l => p.keepsPrompt env l = true)
      (.start shared client backend) p)
    (hwaits : p.stage .s2c = .waiting stop) (hbuffer : p.s2c.source.buffer = []) :
    p.s2c.pending = [] := by
  have hprompt : p.s2c.Prompt := by
    apply h.invariant (I := fun p => p.s2c.Prompt)
    · exact fun _ _ => rfl
    · intro p ⟨w, l⟩ q hp hflushes hstep
      rcases Pump.s2c_cases hstep with ⟨l', rfl, hnext⟩ | hsame
      · exact hp.next hnext hflushes
      · rw [hsame]
        exact hp
  exact hprompt (TaskPhase.awaits_of_stage hwaits) hbuffer

def s2cToSelect : List (ShutdownState × PumpLabel) :=
  [(calm, .s2c .proceed), (calm, .s2c .proceed), (calm, .s2c .enter)]

def s2cFrame : List (ShutdownState × PumpLabel) :=
  [(calm, .s2c .feed), (calm, .s2c .feed), (calm, .s2c .work)] ++ s2cToSelect

theorem nothing_withheld_burst : ∃ p,
    Run (Pump.step (lobbyPump.batching true)) (fun p l => p.keepsPrompt lobbyPump l = true)
      (.start lobbyShared [] [1, 5, 1, 6]) p ∧
    p.stage .s2c = .waiting ⟨0⟩ ∧ p.s2c.source.buffer = [] ∧ p.s2c.handled = 2 ∧
    p.s2c.pending = [] := by
  obtain ⟨p, hrun, hwaits, hbuffer, hhandled⟩ : ∃ p,
      Run (Pump.step (lobbyPump.batching true)) (fun p l => p.keepsPrompt lobbyPump l = true)
        (.start lobbyShared [] [1, 5, 1, 6]) p ∧
      p.stage .s2c = .waiting ⟨0⟩ ∧ p.s2c.source.buffer = [] ∧ p.s2c.handled = 2 :=
    Run.exists_of_exec (s2cToSelect ++ [(calm, .s2c (.fill 4))] ++ s2cFrame ++ s2cFrame)
      (by decide +kernel)
  exact ⟨p, hrun, hwaits, hbuffer, hhandled, nothing_withheld_of_run hrun hwaits hbuffer⟩

/-- A packet whose id cannot be read keeps the one before it from the client. -/
theorem packet_withheld : ¬ ∀ (env : PumpEnv) (shared : Shared) (client backend : List UInt8)
    (p : Pump) (stop : Waiter),
    Run (Pump.step (env.batching true)) (fun _ _ => True) (.start shared client backend) p →
      p.stage .s2c = .waiting stop → p.s2c.source.buffer = [] → p.s2c.pending = [] := by
  intro h
  obtain ⟨p, hrun, hwaits, hbuffer, hpending⟩ : ∃ p,
      Run (Pump.step (lobbyPump.batching true)) (fun _ _ => True)
        (.start lobbyShared [] [1, 5, 1, 0x80]) p ∧
      p.stage .s2c = .waiting ⟨0⟩ ∧ p.s2c.source.buffer = [] ∧ p.s2c.pending ≠ [] :=
    Run.exists_of_exec (s2cToSelect ++ [(calm, .s2c (.fill 4))] ++ s2cFrame ++ s2cFrame)
      (by decide +kernel)
  exact hpending (h _ _ _ _ p _ hrun hwaits hbuffer)

end Kojacoord
