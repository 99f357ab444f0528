import Mathlib.Order.Basic

namespace Notify

/-- A signal that wakes everybody who waits for it, as the number of times it has been given. -/
structure Signal where
  calls : Nat
deriving DecidableEq

structure Waiter where
  seen : Nat
deriving DecidableEq

def Signal.new : Signal := ⟨0⟩

def Signal.notifyWaiters (s : Signal) : Signal := ⟨s.calls + 1⟩

def Signal.notified (s : Signal) : Waiter := ⟨s.calls⟩

def Waiter.ready (w : Waiter) (s : Signal) : Bool := w.seen < s.calls

def Waiter.Of (w : Waiter) (s : Signal) : Prop := w.seen ≤ s.calls

theorem Waiter.of_notified (s : Signal) : s.notified.Of s := Nat.le_refl s.calls

theorem Waiter.Of.notifyWaiters {w : Waiter} {s : Signal} (h : w.Of s) : w.Of s.notifyWaiters :=
  Nat.le_succ_of_le h

theorem Waiter.Of.ready {w : Waiter} {s : Signal} (h : w.Of s) :
    w.ready s.notifyWaiters = true :=
  decide_eq_true (Nat.lt_succ_of_le h)

end Notify
