import Kojacoord.Net.ClientFrames
import Kojacoord.Net.ClientWrites

namespace Kojacoord
open Framing Journal Notify Runs StopFlag

namespace S2c
variable {env : PumpEnv} {v : View} {s : S2c} {l : Label}

def advance (env : PumpEnv) (s : S2c) (move : View × Label) : S2c :=
  match s.step env move.1 move.2 with
  | some (s, _) => s
  | none => s

def drive (env : PumpEnv) (s : S2c) (moves : List (View × Label)) : S2c :=
  moves.foldl (advance env) s

def readFails (env : PumpEnv) (s : S2c) (move : View × Label) : Bool :=
  match move.2, s.phase with
  | .fail _, .waiting stop on => on.open move.1 stop && s.source.buffer.isEmpty
  | .feed, .waiting stop on =>
    match s.source.pop with
    | some (byte, _) =>
      on.open move.1 stop && match env.readBackend.progress (on.read ++ [byte]) with
        | .failed _ => true
        | _ => false
    | none => false
  | _, _ => false

/-- Wherever a read of the backend fails in the schedule, the client could not get any more of what
is pending. -/
def nothingLost (env : PumpEnv) (s : S2c) : List (View × Label) → Bool
  | [] => true
  | move :: moves =>
    (!s.readFails env move || env.taken (s.sent ++ s.pending) = s.sent) &&
      (s.advance env move).nothingLost env moves

theorem feed_with (on : Bool) (sent pending : List UInt8)
    (byte : UInt8) (later : Source) :
    feed (env.batching on) { s with sent, pending } stop wait byte later =
      { feed env s stop wait byte later with sent, pending } := by
  have hrd : (env.batching on).readBackend = env.readBackend := rfl
  unfold feed
  rw [hrd]
  dsimp only
  cases env.readBackend.progress (wait.read ++ [byte]) <;> rfl

theorem step_with (hl : l ≠ .work) (on : Bool) (sent pending : List UInt8) :
    step (env.batching on) v { s with sent, pending } l =
      (step env v s l).map fun (after, r) => ({ after with sent, pending }, r) := by
  cases l with
  | proceed =>
    unfold step
    rw [Option.map_map]
    rfl
  | work => exact absurd rfl hl
  | enter => cases hph : s.phase <;> simp [step, hph]
  | shutdown | fail e =>
    cases hph : s.phase with
    | waiting stop on =>
      simp only [step, hph]
      split <;> rfl
    | _ => simp [step, hph]
  | fill n =>
    cases hph : s.phase with
    | waiting stop on =>
      simp only [step, hph]
      split
      · rw [Option.map_map]
        rfl
      · rfl
    | _ => simp [step, hph]
  | feed =>
    cases hph : s.phase with
    | waiting stop on =>
      have hfeed := @feed_with env s
      simp only [step, hph] at hfeed ⊢
      split
      · split
        · rw [hfeed]
          rfl
        · rfl
      · rfl
    | _ => simp [step, hph]

theorem advance_with (hl : l ≠ .work) (on : Bool) (sent pending : List UInt8) :
    advance (env.batching on) { s with sent, pending } (v, l) =
      { advance env s (v, l) with sent, pending } := by
  unfold advance
  rw [step_with hl]
  cases step env v s l <;> rfl

theorem advance_batching (hl : l ≠ .work) (on : Bool) (s : S2c) :
    s.advance (env.batching on) (v, l) =
      { s.advance env (v, l) with sent := s.sent, pending := s.pending } :=
  advance_with hl on s.sent s.pending

theorem advance_settled (hl : l ≠ .work) (on : Bool) (s : S2c) :
    s.settled.advance (env.batching on) (v, l) =
      { s.advance env (v, l) with sent := s.sent ++ s.pending, pending := [] } :=
  advance_with hl on _ _

theorem advance_cases :
    advance env s (v, l) = s ∨ ∃ after, Next env v s l after ∧ advance env s (v, l) = after.1 := by
  unfold advance
  split
  · rename_i hstep
    exact .inr ⟨_, next_of_step hstep, rfl⟩
  · exact .inl rfl

theorem looping_of_reads (hl : l ≠ .work) (hlp : s.phase.looping = true)
    (hrds : s.readFails env (v, l) = false) :
    (advance env s (v, l)).phase.looping = true := by
  rcases advance_cases with hsm | ⟨after, hnx, haft⟩
  · rwa [hsm]
  · rw [haft]
    cases hnx with
    | proceed hph => exact TaskPhase.looping_proceed rfl hlp hph
    | enter | shutdown => rfl
    | fill => exact hlp
    | @feed stop on byte later hph hop hpop =>
      simp only [readFails, hph, hpop, hop, Bool.true_and] at hrds
      unfold feed
      dsimp only
      split
      · rfl
      · rfl
      · rename_i hfail
        rw [hfail] at hrds
        cases hrds
    | fail hph hop hbuf =>
      simp only [readFails, hph, hop, hbuf] at hrds
      cases hrds
    | work => exact absurd rfl hl

theorem ended_of_readFails (hfai : s.readFails env (v, l) = true) :
    (advance env s (v, l)).phase.looping = false := by
  unfold readFails at hfai
  dsimp only at hfai
  split at hfai
  · rename_i e stop on hph
    obtain ⟨hop, hbuf⟩ := Bool.and_eq_true_iff.mp hfai
    simp only [advance, step, hph, hop, List.isEmpty_iff.mp hbuf]
    rfl
  · rename_i stop on hph
    split at hfai
    · rename_i byte later hpop
      obtain ⟨hop, hfail⟩ := Bool.and_eq_true_iff.mp hfai
      simp only [advance, step, hph, hpop, hop, if_true, feed]
      split at hfail
      · rename_i hpro
        rw [hpro]
        rfl
      · cases hfail
    · cases hfai
  · cases hfai

theorem looping_of_readFails (hfai : s.readFails env (v, l) = true) : s.phase.looping = true := by
  unfold readFails at hfai
  split at hfai
  · rename_i hph
    rw [hph]
    rfl
  · rename_i hph
    rw [hph]
    rfl
  · cases hfai

theorem ended_advance (env : PumpEnv) (v : View) (l : Label) (h : s.phase.looping = false) :
    (advance env s (v, l)).phase.looping = false ∧ (advance env s (v, l)).sent = s.sent := by
  rcases advance_cases with hsm | ⟨after, hnx, haft⟩
  · rw [hsm]
    exact ⟨h, rfl⟩
  · rw [haft]
    cases hnx with
    | proceed hph =>
      refine ⟨?_, rfl⟩
      by_contra hlp
      rw [TaskPhase.looping_of_proceed hph (Bool.eq_true_of_not_eq_false hlp)] at h
      cases h
    | enter hph | shutdown hph | fill hph | feed hph | fail hph | work hph =>
      rw [hph] at h
      cases h

/-- The loop with batching and the one without, after the same moves: the client lacks only what is
pending, or the one without has met the end of what the client takes, or both have ended with the
same effect. -/
inductive Paired (env : PumpEnv) : S2c → S2c → Prop
  | same : b.phase.looping = true → S2cM.Fits env b → Paired env b b.settled
  | behind : b.phase.looping = true → u.phase.looping = false → S2cM.Short env u.sent b →
      Paired env b u
  | ended : b.phase.looping = false → u.phase.looping = false → b.sent = u.sent →
      Paired env b u

theorem Paired.of_level {round round' : Except ConnectionError Flow × S2c}
    (h : S2cM.Level env round round') :
    Paired env { round.2 with phase := afterRound (.working .close) round.1 }
      { round'.2 with phase := afterRound (.working .close) round'.1 } := by
  have hlp (flow : Flow) :
      (afterRound (.working .close) (.ok flow) : TaskPhase ReadWait S2cWork).looping = true := by
    cases flow <;> rfl
  cases h with
  | same hft => exact .same (hlp _) hft
  | behind hsh => exact .behind (hlp _) rfl hsh
  | failed hse => exact .ended rfl rfl hse

theorem advance_work (hph : s.phase = .working w) :
    advance env s (v, .work) = (work env v s w).1 := by
  simp only [advance, step, hph]

theorem advance_idle (hph : ∀ w, s.phase ≠ .working w) : advance env s (v, .work) = s := by
  cases h : s.phase with
  | working w => exact absurd h (hph w)
  | _ => simp only [advance, step, h]

theorem work_handle (env : PumpEnv) {s : S2c}
    (h : ExceptT.run (RelayM.verdict env s.handled payload) v.relay = (.ok w, r)) :
    (work env v s (.handle payload)).1 =
      { (ExceptT.run (S2cM.apply env w) { s with handled := s.handled + 1 }).2 with
        phase := afterRound (.working .close)
          (ExceptT.run (S2cM.apply env w) { s with handled := s.handled + 1 }).1 } := by
  simp only [work, h]
  rfl

theorem work_farewell : (work env v s .farewell).1 =
    { s with
      phase := .working .close
      sent := env.taken (env.taken (s.sent ++ s.pending) ++
        env.frame (env.buildDisconnectPacket v.shutdownReason))
      pending := [] } := by
  simp only [work, S2cM.run_farewell]

theorem Paired.of_work (hft : S2cM.Fits env b) (v : View) (w : S2cWork) :
    Paired env (work (env.batching true) v b w).1 (work (env.batching false) v b.settled w).1 := by
  cases w with
  | handle payload =>
    obtain ⟨w, r, hrun, -⟩ := RelayM.run_verdict env b.handled payload v.relay
    have hb := work_handle (env.batching true) (s := b) hrun
    have hu := work_handle (env.batching false) (s := b.settled) hrun
    rw [hb, hu]
    exact .of_level (S2cM.level_apply (s := { b with handled := b.handled + 1 }) hft w)
  | farewell =>
    have hpend : (S2c.work (env.batching true) v b .farewell).1.pending = [] := by
      rw [work_farewell]
    have hsm : (S2c.work (env.batching false) v b.settled .farewell).1 =
        (S2c.work (env.batching true) v b .farewell).1.settled := by
      rw [settled_eq hpend, work_farewell, work_farewell]
      simp only [settled, List.append_nil]
      rfl
    rw [hsm]
    refine .same rfl ?_
    unfold S2cM.Fits
    rw [hpend, List.append_nil, work_farewell]
    exact PumpEnv.taken_taken
  | close =>
    have hb : ExceptT.run (S2cM.flush (env.batching true)) b = (.ok (), b.settled) :=
      S2cM.run_flush_ok hft
    have hu : ExceptT.run (S2cM.flush (env.batching false)) b.settled =
      (.ok (), b.settled.settled) := S2cM.run_flush_ok hft.settled
    simp only [S2c.work, hb, hu]
    exact .ended rfl rfl (List.append_nil _).symm

theorem Paired.of_work_behind (hend : u.phase.looping = false) (hsh : S2cM.Short env u.sent b)
    (v : View) (w : S2cWork) : Paired env (work (env.batching true) v b w).1 u := by
  cases w with
  | handle payload =>
    obtain ⟨w, r, hrun, -⟩ := RelayM.run_verdict env b.handled payload v.relay
    have happ := S2cM.keepsShort_apply env w u.sent { b with handled := b.handled + 1 }
      hsh
    rw [work_handle (env.batching true) (s := b) hrun]
    split at happ
    · rename_i flow after hrun
      rw [hrun]
      refine .behind ?_ hend happ
      cases flow <;> rfl
    · rename_i hrun
      rw [hrun]
      exact .ended rfl hend happ
  | farewell =>
    exact .behind rfl hend (S2cM.short_farewell hsh)
  | close =>
    by_cases hft : env.taken (b.sent ++ b.pending) = b.sent ++ b.pending
    · have hrun : ExceptT.run (S2cM.flush (env.batching true)) b = _ := S2cM.run_flush_ok hft
      simp only [work, hrun]
      exact .ended rfl hend (hft.symm.trans hsh.taken)
    · have hrun : ExceptT.run (S2cM.flush (env.batching true)) b = _ := S2cM.run_flush_error hft
      simp only [work, hrun]
      exact .ended rfl hend hsh.taken

theorem Paired.of_readFails (h : Paired env b u) (hfai : b.readFails env (v, l) = true) :
    (b.advance (env.batching true) (v, l)).phase.looping = false ∧
      (u.advance (env.batching false) (v, l)).phase.looping = false ∧
      (b.advance (env.batching true) (v, l)).sent = b.sent ∧
      (u.advance (env.batching false) (v, l)).sent = env.taken (b.sent ++ b.pending) := by
  have hl : l ≠ .work := by
    rintro rfl
    cases hfai
  have hend := ended_of_readFails hfai
  rw [advance_batching hl]
  cases h with
  | same hlp hft =>
    rw [advance_settled hl]
    exact ⟨hend, hend, rfl, hft.symm⟩
  | behind hlp hu hsh =>
    obtain ⟨hu, hse⟩ := ended_advance (env.batching false) v l hu
    exact ⟨hend, hu, rfl, hse.trans hsh.taken.symm⟩
  | ended hb =>
    have hlp := looping_of_readFails hfai
    rw [hb] at hlp
    cases hlp

theorem Paired.of_reads (h : Paired env b u) (hrds : b.readFails env (v, l) = false) :
    Paired env (b.advance (env.batching true) (v, l)) (u.advance (env.batching false) (v, l)) := by
  cases h with
  | same hlp hft =>
    by_cases hl : l = .work
    · subst hl
      cases hph : b.phase with
      | working w =>
        rw [advance_work hph, advance_work (s := b.settled) hph]
        exact .of_work hft v w
      | _ =>
        rw [advance_idle (by simp [hph]),
          advance_idle (s := b.settled) (by simp [settled, hph])]
        exact .same hlp hft
    · rw [advance_batching hl, advance_settled hl]
      exact .same (looping_of_reads hl hlp hrds) hft
  | behind hlp hend hsh =>
    obtain ⟨hend', hse⟩ := ended_advance (env.batching false) v l hend
    rw [← hse] at hsh
    by_cases hl : l = .work
    · subst hl
      cases hph : b.phase with
      | working w =>
        rw [advance_work hph]
        exact .of_work_behind hend' hsh v w
      | _ =>
        rw [advance_idle (by simp [hph])]
        exact .behind hlp hend' hsh
    · rw [advance_batching hl]
      exact .behind (looping_of_reads hl hlp hrds) hend' hsh
  | ended hb hu hse =>
    obtain ⟨hb', hbse⟩ := ended_advance (env.batching true) v l hb
    obtain ⟨hu', huse⟩ := ended_advance (env.batching false) v l hu
    exact .ended hb' hu' (hbse.trans (hse.trans huse.symm))

theorem ended_drive (env : PumpEnv) (h : s.phase.looping = false) (moves : List (View × Label)) :
    (drive env s moves).sent = s.sent := by
  induction moves generalizing s with
  | nil => rfl
  | cons move moves ih =>
    obtain ⟨hend, hse⟩ := ended_advance env move.1 move.2 h
    exact (ih hend).trans hse

theorem Paired.drive (h : Paired env b u) (moves : List (View × Label))
    (hb : (b.drive (env.batching true) moves).phase.looping = false)
    (hu : (u.drive (env.batching false) moves).phase.looping = false) :
    (b.drive (env.batching true) moves).sent = (u.drive (env.batching false) moves).sent ↔
      b.nothingLost (env.batching true) moves = true := by
  induction moves generalizing b u with
  | nil =>
    cases h with
    | same hlp | behind hlp =>
      rw [show b.phase.looping = false from hb] at hlp
      cases hlp
    | ended _ _ hse => exact ⟨fun _ => rfl, fun _ => hse⟩
  | cons move moves ih =>
    obtain ⟨v, l⟩ := move
    have hrds : b.readFails (env.batching true) (v, l) = b.readFails env (v, l) := rfl
    have htk : (env.batching true).taken (b.sent ++ b.pending) =
      env.taken (b.sent ++ b.pending) := rfl
    rw [nothingLost, hrds, htk]
    cases hfai : b.readFails env (v, l) with
    | false =>
      exact ih (h.of_reads hfai) hb hu
    | true =>
      obtain ⟨hend, hend', hse, hse'⟩ := h.of_readFails hfai
      simp only [Bool.not_true, Bool.false_or, Bool.and_eq_true, decide_eq_true_eq]
      by_cases hkt : env.taken (b.sent ++ b.pending) = b.sent
      · have hnx := ih (.ended hend hend' (by rw [hse, hse', hkt])) hb hu
        exact hnx.trans (iff_and_self.mpr fun _ => hkt)
      · refine iff_of_false ?_ fun h => hkt h.1
        intro hsm
        have hb := ended_drive (env.batching true) hend moves
        have hu := ended_drive (env.batching false) hend' moves
        rw [hse] at hb
        rw [hse'] at hu
        exact hkt (hu.symm.trans (hsm.symm.trans hb))

end S2c

end Kojacoord
