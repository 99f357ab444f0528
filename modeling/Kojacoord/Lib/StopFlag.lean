import Kojacoord.Lib.Notify

namespace StopFlag
open Notify

inductive Stage where
  | top
  | checked
  | created (stop : Waiter)
  | waiting (stop : Waiter)
  | working
  | storing
  | notifying
  | done
deriving DecidableEq

namespace Stage

def suspends : Stage → Bool
  | waiting _ | working | done => true
  | _ => false

def waiter : Stage → Option Waiter
  | created w | waiting w => some w
  | _ => none

def passed : Stage → Bool
  | checked | created _ => true
  | _ => false

inductive Next (stopped : Bool) (stop : Signal) : Stage → Stage → Prop
  | pass : stopped = false → Next stopped stop top checked
  | heed : stopped = true → after = working ∨ after = storing → Next stopped stop top after
  | create : Next stopped stop checked (created stop.notified)
  | suspend : Next stopped stop (created w) (waiting w)
  | wait : Next stopped stop (waiting w) (waiting w)
  | wake : after = working ∨ after = storing → Next stopped stop (waiting w) after
  | work : Next stopped stop working working
  | loop : Next stopped stop working top
  | leave : Next stopped stop working storing
  | store : Next stopped stop storing notifying
  | notify : Next stopped stop notifying done

theorem Next.waiter_eq {before after : Stage} (h : Next stopped stop before after)
    (hw : after.waiter = some w) :
    before.waiter = some w ∨ (before = checked ∧ w = stop.notified) := by
  cases h with
  | create =>
    cases hw
    exact .inr ⟨rfl, rfl⟩
  | suspend | wait => exact .inl hw
  | heed _ h | wake h => rcases h with rfl | rfl <;> cases hw
  | _ => cases hw

theorem Next.passed_or {before after : Stage} (h : Next stopped stop before after)
    (hp : after.passed = true) : before.passed = true ∨ stopped = false := by
  cases h with
  | pass hs => exact .inr hs
  | create => exact .inl rfl
  | heed _ h | wake h => rcases h with rfl | rfl <;> cases hp
  | _ => cases hp

theorem Next.waits {before : Stage} (h : Next stopped stop before (waiting w)) :
    before = created w ∨ before = waiting w := by
  cases h with
  | suspend => exact .inl rfl
  | wait => exact .inr rfl
  | heed _ h | wake h => rcases h with h | h <;> cases h

theorem Next.from_notifying {after : Stage} (h : Next stopped stop notifying after) :
    after = done := by
  cases h
  rfl

end Stage

/-- Tasks that share the flag and the signal and are run by one executor, which changes from one
task to another only where the task can be suspended. -/
structure Sys (ι : Type) where
  stage : ι → Stage
  running : Option ι
  stopped : Bool
  stop : Signal

namespace Sys
variable {ι : Type}

structure Sound (s : Sys ι) : Prop where
  /-- A task keeps its turn between the test of the flag and the wait, and from the end of its
  loop to the signal. -/
  turn : ∀ i, (s.stage i).suspends = false → s.stage i ≠ .top → s.running = some i
  clear : ∀ i, (s.stage i).passed = true → s.stopped = false
  waiter : ∀ i w, (s.stage i).waiter = some w → w.Of s.stop
  flag : ∀ i, s.stage i = .notifying → s.stopped = true
  given : 0 < s.stop.calls → s.stopped = true
  delivered : 0 < s.stop.calls → ∀ i w, s.stage i = .waiting w → w.ready s.stop = true

theorem sound_init {s : Sys ι} (h : ∀ i, s.stage i = .top) (hs : s.stopped = false)
    (hnew : s.stop = .new) : Sound s where
  turn i _ htop := absurd (h i) htop
  clear _ _ := hs
  waiter i w hw := by
    rw [h i] at hw
    cases hw
  flag i hi := by
    rw [h i] at hi
    cases hi
  given hcs := by
    rw [hnew] at hcs
    cases hcs
  delivered hcs := by
    rw [hnew] at hcs
    cases hcs

theorem Sound.others {s : Sys ι} (h : s.Sound) (htn : s.running = none ∨ s.running = some i)
    (hne : j ≠ i) : (s.stage j).suspends = true ∨ s.stage j = .top := by
  by_contra hj
  obtain ⟨hsusp, htop⟩ := not_or.mp hj
  have hrun := h.turn j (by simpa using hsusp) htop
  rcases htn with htn | htn <;> rw [htn] at hrun <;> cases hrun
  exact hne rfl

section Moves
variable [DecidableEq ι]

def move (s : Sys ι) (i : ι) (after : Stage) : Sys ι where
  stage := Function.update s.stage i after
  running := if after.suspends then none else some i
  stopped := s.stopped || after = .notifying
  stop := if s.stage i = .notifying then s.stop.notifyWaiters else s.stop

inductive Step (s : Sys ι) : Sys ι → Prop
  | move : s.running = none ∨ s.running = some i → (s.stage i).Next s.stopped s.stop after →
      Step s (s.move i after)

variable {s : Sys ι} {after : Stage}

theorem stage_move_self : (s.move i after).stage i = after := Function.update_self ..

theorem stage_move_ne (hj : j ≠ i) : (s.move i after).stage j = s.stage j :=
  Function.update_of_ne hj ..

theorem stop_move_of_ne (h : s.stage i ≠ .notifying) : (s.move i after).stop = s.stop :=
  if_neg h

namespace Sound

theorem waiting_of_move (h : s.Sound) (hs : s.stopped = true)
    (hnx : (s.stage i).Next s.stopped s.stop after)
    (hj : (s.move i after).stage j = .waiting w) : s.stage j = .waiting w := by
  by_cases hji : j = i
  · subst hji
    rw [stage_move_self] at hj
    rw [hj] at hnx
    rcases hnx.waits with hb | hb
    · have hcle := h.clear j (by rw [hb]; rfl)
      rw [hs] at hcle
      cases hcle
    · exact hb
  · rwa [stage_move_ne hji] at hj

theorem turn_move (h : s.Sound) (htn : s.running = none ∨ s.running = some i)
    (hsusp : ((s.move i after).stage j).suspends = false)
    (htop : (s.move i after).stage j ≠ .top) : (s.move i after).running = some j := by
  by_cases hj : j = i
  · subst hj
    rw [stage_move_self] at hsusp
    simp [move, hsusp]
  · rw [stage_move_ne hj] at hsusp htop
    rcases h.others htn hj with hs | ht
    · rw [hs] at hsusp
      cases hsusp
    · exact absurd ht htop

theorem clear_move (h : s.Sound) (htn : s.running = none ∨ s.running = some i)
    (hnx : (s.stage i).Next s.stopped s.stop after)
    (hps : ((s.move i after).stage j).passed = true) : (s.move i after).stopped = false := by
  by_cases hj : j = i
  · subst hj
    rw [stage_move_self] at hps
    have hcle : s.stopped = false := by
      rcases hnx.passed_or hps with hp | hs
      · exact h.clear j hp
      · exact hs
    have hne : after ≠ .notifying := by
      rintro rfl
      cases hps
    simp [move, hcle, hne]
  · rw [stage_move_ne hj] at hps
    rcases h.others htn hj with hs | ht
    · cases hsta : s.stage j <;> rw [hsta] at hps hs <;> cases hps <;> cases hs
    · rw [ht] at hps
      cases hps

theorem waiter_move (h : s.Sound) (hnx : (s.stage i).Next s.stopped s.stop after)
    (hw : ((s.move i after).stage j).waiter = some w) : w.Of (s.move i after).stop := by
  by_cases hj : j = i
  · subst hj
    rw [stage_move_self] at hw
    have hkeep : s.stage j ≠ .notifying := by
      intro hn
      rw [hn] at hnx
      rw [hnx.from_notifying] at hw
      cases hw
    rw [stop_move_of_ne hkeep]
    rcases hnx.waiter_eq hw with hw' | ⟨-, rfl⟩
    · exact h.waiter j w hw'
    · exact Waiter.of_notified _
  · rw [stage_move_ne hj] at hw
    have hof := h.waiter j w hw
    dsimp only [move]
    split
    · exact hof.notifyWaiters
    · exact hof

theorem flag_move (h : s.Sound) (hj : (s.move i after).stage j = .notifying) :
    (s.move i after).stopped = true := by
  by_cases hji : j = i
  · subst hji
    rw [stage_move_self] at hj
    simp [move, hj]
  · rw [stage_move_ne hji] at hj
    simp [move, h.flag j hj]

theorem given_move (h : s.Sound) (hcs : 0 < (s.move i after).stop.calls) :
    (s.move i after).stopped = true := by
  have hs : s.stopped = true := by
    by_cases hgiv : s.stage i = .notifying
    · exact h.flag i hgiv
    · rw [stop_move_of_ne hgiv] at hcs
      exact h.given hcs
  simp [move, hs]

theorem delivered_move (h : s.Sound) (hnx : (s.stage i).Next s.stopped s.stop after)
    (hcs : 0 < (s.move i after).stop.calls) (hj : (s.move i after).stage j = .waiting w) :
    w.ready (s.move i after).stop = true := by
  by_cases hgiv : s.stage i = .notifying
  · have hbef := h.waiting_of_move (h.flag i hgiv) hnx hj
    simp only [move, hgiv, if_true]
    exact (h.waiter j w (by rw [hbef]; rfl)).ready
  · rw [stop_move_of_ne hgiv] at hcs ⊢
    exact h.delivered hcs j w (h.waiting_of_move (h.given hcs) hnx hj)

theorem step (h : s.Sound) (hstep : s.Step t) : t.Sound := by
  cases hstep with
  | move htn hnx =>
    exact
      { turn := fun _ => h.turn_move htn
        clear := fun _ => h.clear_move htn hnx
        waiter := fun _ _ => h.waiter_move hnx
        flag := fun _ => h.flag_move
        given := h.given_move
        delivered := fun hcs _ _ => h.delivered_move hnx hcs }

theorem no_new_wait (h : s.Sound) (hs : s.stopped = true) (hstep : s.Step t)
    (ht : t.stage i = .waiting w) : s.stage i = .waiting w := by
  cases hstep with
  | move _ hnx => exact h.waiting_of_move hs hnx ht

end Sound

end Moves

end Sys

end StopFlag
