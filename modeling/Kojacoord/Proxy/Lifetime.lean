import Kojacoord.Proxy.Sessions
import Kojacoord.QueueOrder

namespace Kojacoord
open Runs List

section Conns
variable {c : ConnId} {k : Conn}

end Conns

def Effect.queueOp (uuid : Uuid) : Effect → Option QueueOp
  | .enqueue server => some (.enqueue server uuid)
  | .dequeue server => some (.remove server uuid)
  | .leaveQueues => some (.removeFromAll uuid)
  | _ => Option.none

def queueOp (cfg : ProxyConfig) (s : State) : Label → Option QueueOp
  | .move c m => do
    let k ← s.conns[c]?
    let (_, e) ← k.move cfg s m
    e.queueOp k.uuid
  | .evictEmpty => some .evictEmpty
  | _ => none

/-- The operations on queues that a run consists of. -/
def queueOps (cfg : ProxyConfig) (s : State) : List Label → List QueueOp
  | [] => []
  | l :: ls => (queueOp cfg s l).toList ++ (step cfg s l).elim [] (queueOps cfg · ls)

def QueueManager.after (q : QueueManager) (op : Option QueueOp) : QueueManager :=
  op.elim q fun op => (q.perform op).1

theorem step_queues (h : step cfg s l = some s') :
    s'.queues = s.queues.after (queueOp cfg s l) := by
  cases l with
  | move c m =>
    obtain ⟨k, k', e, hk, hm, rfl⟩ := step_move h
    simp only [queueOp, hk, hm, Option.bind_eq_bind, Option.bind_some]
    cases e <;> rfl
  | access c i =>
    obtain ⟨k, owner, o, -, -, rfl⟩ := step_access h
    rfl
  | evictEmpty =>
    cases h
    rfl
  | _ =>
    cases quietStep_of_step rfl h with
    | spawn => exact State.spawn_queues
    | _ => rfl

theorem queues_exec (hist : QueueHistory) (h : exec (step cfg) (fun _ _ => True) s ls = some t)
    (hs : hist.manager = s.queues) :
    ((queueOps cfg s ls).foldl .record hist).manager = t.queues := by
  induction ls generalizing s hist with
  | nil =>
    cases h
    exact hs
  | cons l ls ih =>
    rw [exec, if_pos trivial] at h
    cases hu : step cfg s l with
    | none =>
      rw [hu] at h
      cases h
    | some u =>
      rw [hu] at h
      rw [queueOps, hu, foldl_append]
      refine ih _ h ?_
      rw [step_queues hu, ← hs]
      cases queueOp cfg s l with
      | none | some op => rfl

/-- Whatever the interleaving, the proxy's queues are what their operations in a row make of new
ones, and so lines of first come, first served. -/
theorem queues_of_exec (h : exec (step cfg) (fun _ _ => True) (.start cfg r gs) ls = some s) :
    let hist := QueueHistory.run (.new cfg.maxQueueSize) (queueOps cfg (.start cfg r gs) ls)
    hist.manager = s.queues ∧ FirstCome hist :=
  ⟨queues_exec ⟨.new cfg.maxQueueSize, []⟩ h rfl, (FirstCome.new _).foldl _⟩

theorem queues_of_exec_queued :
    let ops := queueOps lobbyConfig (.start lobbyConfig (lobbyFor 1) ∅) queuedRun
    ops = [.enqueue "lobby" 2] ∧ FirstCome (.run (.new 0) ops) := by
  have hrun : exec (step lobbyConfig) (fun _ _ => True) (.start lobbyConfig (lobbyFor 1) ∅)
      queuedRun = some _ := rfl
  exact ⟨by decide, (queues_of_exec hrun).2⟩

end Kojacoord
