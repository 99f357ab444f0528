import Kojacoord.Net.ServerboundOrder

namespace Kojacoord
open Framing Interleaving Journal Notify Runs StopFlag

def ToBackend.fromClient : ToBackend → Bool
  | forwarded _ | response _ => true
  | queued _ => false

namespace Pump

def clientWrites (p : Pump) : List ToBackend :=
  (backendWrites p.relay.journal).filter ToBackend.fromClient

def kickNext (p : Pump) : Bool := p.out.queue.head?.any (·.kick)

def kicked (p : Pump) : Bool := p.out.taken.any (·.kick)

def handlesPacket (p : Pump) : Bool := (p.c2s.phase.inHand.bind C2sWork.fromClient).isSome

def completesPacket (env : PumpEnv) (p : Pump) (l : ShutdownState × PumpLabel) : Bool :=
  match l.2, p.c2s.source.pop with
  | .c2s .feed, some (byte, _) =>
    match env.readClient.progress (p.c2s.phase.read ++ [byte]) with
    | .done _ => true
    | _ => false
  | _, _ => false

/-- A kick is taken only where no packet of the client is in hand, and no packet is completed after
it. -/
def heedsKick (env : PumpEnv) (p : Pump) (l : ShutdownState × PumpLabel) : Bool :=
  match l.2 with
  | .out .recv => !(p.kickNext && p.handlesPacket)
  | _ => !(p.kicked && p.completesPacket env l)

end Pump

theorem C2s.idle_next (hnx : Next env v c l c' r)
    (hid : (c.phase.inHand.bind C2sWork.fromClient).isSome = false)
    (hkt : l = .feed → ∀ byte later payload, c.source.pop = some (byte, later) →
      env.readClient.progress (c.phase.read ++ [byte]) ≠ .done payload) :
    (c'.phase.inHand.bind C2sWork.fromClient).isSome = false ∧
      (backendWrites r.journal).filter ToBackend.fromClient =
        (backendWrites v.relay.journal).filter ToBackend.fromClient := by
  cases hnx with
  | proceed hph =>
    refine ⟨?_, rfl⟩
    rw [TaskPhase.inHand_proceed hph rfl]
    exact hid
  | enter | shutdown | recv | fail => exact ⟨rfl, rfl⟩
  | fill => exact ⟨hid, rfl⟩
  | feed hph _ _ hpop =>
    refine ⟨?_, rfl⟩
    rw [hph] at hkt
    simp only [C2s.feed]
    split
    · rfl
    · rename_i payload hdn
      exact absurd hdn (hkt rfl _ _ payload hpop)
    · rfl
  | @work w result relay hph hrun =>
    rw [hph] at hid
    cases w with
    | handle payload => cases hid
    | inject raw =>
      obtain ⟨acts, hlog, hacts⟩ := (C2sWork.inject raw).writes_program env v.relay
      rw [hrun] at hlog
      constructor
      · simp only [inHand_afterRound]
        rfl
      · rw [hlog, backendWrites, List.filterMap_append, ← backendWrites, ← backendWrites, hacts,
          List.filter_append]
        exact List.append_nil _

theorem Pump.taken_step_out (h : Out.step v o l = some o') :
    o'.taken = o.taken ∨ l = .recv ∧ ∃ packet, o.queue.head? = some packet ∧
      o'.taken = o.taken ++ [packet] := by
  cases l with
  | proceed =>
    obtain ⟨phase, -, rfl⟩ := Option.map_eq_some_iff.mp h
    exact .inl rfl
  | enter =>
    cases hph : o.phase with
    | created =>
      simp only [Out.step, hph] at h
      cases h
      exact .inl rfl
    | _ => simp [Out.step, hph] at h
  | recv =>
    cases hph : o.phase with
    | waiting =>
      simp only [Out.step, hph] at h
      split at h
      · rename_i packet queue hque
        split at h
        · cases h
        · cases h
          exact .inr ⟨rfl, packet, by rw [hque]; rfl, rfl⟩
      · cases h
    | _ => simp [Out.step, hph] at h
  | work ok =>
    cases hph : o.phase with
    | working =>
      simp only [Out.step, hph] at h
      cases h
      exact .inl rfl
    | _ => simp [Out.step, hph] at h

theorem Pump.kicked_step {p q : Pump} (h : step env p (w, l) = some q) :
    q.kicked = p.kicked ∨
      l = .out .recv ∧ p.kickNext = true ∧ q.kicked = true ∧ q.c2s = p.c2s := by
  cases l with
  | c2s l => exact .inl (congrArg (List.any · _) (step_c2s h).2.2.2)
  | s2c l =>
    left
    rw [kicked, (step_s2c h).2.2]
    rfl
  | out l =>
    obtain ⟨hstep, hc2s, -, -⟩ := step_out h
    rcases taken_step_out hstep with htk | ⟨rfl, packet, hnx, htk⟩
    · exact .inl (congrArg (List.any · _) htk)
    · by_cases hki : packet.kick = true
      · right
        refine ⟨rfl, ?_, ?_, hc2s⟩
        · rw [kickNext, hnx]
          exact hki
        · simp [kicked, htk, hki]
      · left
        simp [kicked, htk, hki]
  | sendToBackend | sendToPlayer | kickPlayer | proxy =>
    cases h
    exact .inl rfl

theorem Pump.idle_step (h : step env p (w, l) = some q) (hid : p.handlesPacket = false)
    (hkt : p.completesPacket env (w, l) = false) :
    q.handlesPacket = false ∧ q.clientWrites = p.clientWrites := by
  cases l with
  | c2s l =>
    apply C2s.idle_next (step_c2s h).1 hid
    rintro rfl byte later payload hpop hdn
    simp [completesPacket, hpop, hdn] at hkt
  | s2c l =>
    obtain ⟨hnx, hsm, -⟩ := step_s2c h
    rw [handlesPacket, clientWrites, hsm, S2c.journal_next hnx]
    exact ⟨hid, rfl⟩
  | out l =>
    obtain ⟨-, hsm, -, hrel⟩ := step_out h
    rw [handlesPacket, clientWrites, hsm, hrel]
    exact ⟨hid, rfl⟩
  | sendToBackend | sendToPlayer | kickPlayer | proxy =>
    cases h
    exact ⟨hid, rfl⟩

theorem Pump.completesPacket_of_heedsKick {p : Pump} (h : p.heedsKick env (w, l) = true)
    (hkic : p.kicked = true) : p.completesPacket env (w, l) = false := by
  unfold heedsKick at h
  split at h
  · rename_i hl
    change l = _ at hl
    rw [hl]
    rfl
  · simpa [hkic] using h

theorem Pump.idle_of_run
    (h : Run (step env) (fun p l => p.heedsKick env l = true) (.start shared client backend) p)
    (hkic : p.kicked = true) : p.handlesPacket = false := by
  revert hkic
  apply h.invariant (I := fun p => p.kicked = true → p.handlesPacket = false)
  · intro hkic
    cases hkic
  · intro p ⟨w, l⟩ q hp hhee hstep hkic
    rcases kicked_step hstep with hsm | ⟨rfl, hnx, -, hc2s⟩
    · rw [hsm] at hkic
      exact (idle_step hstep (hp hkic) (completesPacket_of_heedsKick hhee hkic)).1
    · have hid : p.handlesPacket = false := by simpa [heedsKick, hnx] using hhee
      rw [handlesPacket, hc2s]
      exact hid

/-- In every run in which a kick is only taken with no packet of the client in hand, and no packet
of the client is completed after it, nothing is written to the backend for the client once the kick
has been taken. -/
theorem kick_silences_of_run {env : PumpEnv} {shared : Shared} {client backend : List UInt8}
    {p q : Pump} (hp : Run (Pump.step env) (fun p l => p.heedsKick env l = true)
      (.start shared client backend) p)
    (hkicked : p.kicked = true)
    (hq : Run (Pump.step env) (fun p l => p.heedsKick env l = true) p q) :
    q.clientWrites = p.clientWrites := by
  have hinv : q.kicked = true ∧ q.handlesPacket = false ∧ q.clientWrites = p.clientWrites := by
    apply hq.invariant (I := fun q =>
      q.kicked = true ∧ q.handlesPacket = false ∧ q.clientWrites = p.clientWrites)
    · exact ⟨hkicked, Pump.idle_of_run hp hkicked, rfl⟩
    · intro q ⟨w, l⟩ r ⟨hkicked, hidle, hwrites⟩ hheeds hstep
      obtain ⟨hidle', hwrites'⟩ :=
        Pump.idle_step hstep hidle (Pump.completesPacket_of_heedsKick hheeds hkicked)
      refine ⟨?_, hidle', hwrites'.trans hwrites⟩
      rcases Pump.kicked_step hstep with hsame | ⟨-, -, hkicked', -⟩
      · exact hsame.trans hkicked
      · exact hkicked'
  exact hinv.2.2

def kickTaken : List (ShutdownState × PumpLabel) :=
  [(calm, .kickPlayer "bye"), (calm, .out .proceed), (calm, .out .proceed), (calm, .out .enter),
   (calm, .out .recv)]

def frameHandled : List (ShutdownState × PumpLabel) :=
  toSelect ++ [(calm, .c2s (.fill 3)), (calm, .c2s .feed), (calm, .c2s .feed), (calm, .c2s .feed),
    (calm, .c2s .work)]

theorem kick_silences_quiet_client : ∃ p q,
    Run (Pump.step lobbyPump) (fun p l => p.heedsKick lobbyPump l = true)
      (.start lobbyShared oneFrame []) p ∧ p.kicked = true ∧
    Run (Pump.step lobbyPump) (fun p l => p.heedsKick lobbyPump l = true) p q ∧
    p.clientWrites.length = 1 ∧ q.clientWrites = p.clientWrites := by
  obtain ⟨p, hp, hkicked, hone, hlater⟩ : ∃ p, Run (Pump.step lobbyPump)
      (fun p l => p.heedsKick lobbyPump l = true) (.start lobbyShared oneFrame []) p ∧
        p.kicked = true ∧ p.clientWrites.length = 1 ∧
        (exec (Pump.step lobbyPump) (fun p l => p.heedsKick lobbyPump l = true) p
          [(calm, .out (.work true))]).any (fun _ => decide True) = true :=
    Run.exists_of_exec (frameHandled ++ toSelect ++ kickTaken) (by decide +kernel)
  obtain ⟨q, hq, -⟩ := Run.exists_of_exec (P := fun _ => True) _ hlater
  exact ⟨p, q, hp, hkicked, hq, hone, kick_silences_of_run hp hkicked hq⟩

/-- The relay goes on: a client that keeps sending after it has been kicked still reaches the
backend. -/
theorem kick_overheard : ¬ ∀ (env : PumpEnv) (shared : Shared) (client backend : List UInt8)
    (p q : Pump), Run (Pump.step env) (fun _ _ => True) (.start shared client backend) p →
      p.kicked = true → Run (Pump.step env) (fun _ _ => True) p q →
        q.clientWrites = p.clientWrites := by
  intro h
  obtain ⟨p, hp, hkicked, hnone, hlater⟩ : ∃ p,
      Run (Pump.step lobbyPump) (fun _ _ => True) (.start lobbyShared oneFrame []) p ∧
        p.kicked = true ∧ p.clientWrites.length = 0 ∧
        (exec (Pump.step lobbyPump) (fun _ _ => True) p
          ([(calm, .out (.work true)), (calm, .out .proceed), (calm, .out .proceed),
            (calm, .out .enter)] ++ frameHandled)).any
          (fun q => decide (q.clientWrites.length = 1)) = true :=
    Run.exists_of_exec kickTaken (by decide +kernel)
  obtain ⟨q, hq, hone⟩ :=
    Run.exists_of_exec (P := fun q : Pump => q.clientWrites.length = 1) _ hlater
  rw [h _ _ _ _ p q hp hkicked hq, hnone] at hone
  cases hone

end Kojacoord
