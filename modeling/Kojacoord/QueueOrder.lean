import Mathlib.Data.List.Induction
import Kojacoord.Queue
import Kojacoord.Lib.Tenure

namespace Kojacoord
open Tenure List Option

inductive QueueOp where
  | enqueue (server : String) (uuid : Uuid)
  | remove (server : String) (uuid : Uuid)
  | removeFromAll (uuid : Uuid)
  | evictEmpty
  deriving DecidableEq

structure QueueEvent where
  op : QueueOp
  result : Option (Except String Nat)

def QueueManager.perform (q : QueueManager) : QueueOp → QueueManager × Option (Except String Nat)
  | .enqueue server uuid => ((q.enqueue server uuid).1, some (q.enqueue server uuid).2)
  | .remove server uuid => (q.remove server uuid, none)
  | .removeFromAll uuid => (q.removeFromAll uuid, none)
  | .evictEmpty => (q.evictEmpty, none)

def QueueManager.event (q : QueueManager) (op : QueueOp) : QueueEvent := ⟨op, (q.perform op).2⟩

structure QueueHistory where
  manager : QueueManager
  log : List QueueEvent

def QueueHistory.record (h : QueueHistory) (op : QueueOp) : QueueHistory :=
  ⟨(h.manager.perform op).1, h.log ++ [h.manager.event op]⟩

def QueueHistory.run (q : QueueManager) (ops : List QueueOp) : QueueHistory := ops.foldl record ⟨q, []⟩

def Joins (server : String) (uuid : Uuid) (e : QueueEvent) : Prop :=
  e.op = .enqueue server uuid ∧ ∃ n, e.result = some (.ok n)

def Leaves (server : String) (uuid : Uuid) (e : QueueEvent) : Prop :=
  e.op = .remove server uuid ∨ e.op = .removeFromAll uuid

instance : Decidable (Leaves server uuid e) := inferInstanceAs (Decidable (_ ∨ _))

abbrev WaitsSince (server : String) (uuid : Uuid) : List QueueEvent → Nat → Prop :=
  Since (Joins server uuid) (Leaves server uuid)

theorem Joins.not_leaves (e : QueueEvent) (h : Joins server uuid e) : ¬Leaves server uuid e := by
  rintro (hop | hop)
  · cases h.1.symm.trans hop
  · cases h.1.symm.trans hop

theorem waitsSince_append : WaitsSince server uuid (log ++ [e]) i ↔
    WaitsSince server uuid log i ∧ ¬Leaves server uuid e ∨
      i = log.length ∧ Joins server uuid e ∧ ∀ j, ¬WaitsSince server uuid log j :=
  Since.append_iff Joins.not_leaves

namespace QueueManager

structure Moved (server : String) (e : QueueEvent) (limit : Nat) (line line' : List Uuid)
    (added : Option Uuid) : Prop where
  eq : line' = line.filter (fun u => ¬Leaves server u e) ++ added.toList
  added_iff : ∀ u, added = some u ↔ Joins server u e ∧ u ∉ line
  room : added ≠ none → limit ≠ 0 → line.length < limit

theorem Moved.same (hlea : ∀ u, u ∈ line → ¬Leaves server u e)
    (hjoi : ∀ u, Joins server u e → u ∈ line) : Moved server e limit line line none where
  eq := by
    have hkt : line.filter (fun u => ¬Leaves server u e) = line := by
      apply filter_eq_self.mpr
      intro u hu
      exact decide_eq_true (hlea u hu)
    rw [hkt, toList_none, append_nil]
  added_iff u := by
    constructor
    · intro h
      cases h
    · rintro ⟨hjoin, hnot⟩
      exact absurd (hjoi u hjoin) hnot
  room h := absurd rfl h

theorem moved_enqueue (q : QueueManager) : ∃ added, Moved n (q.event (.enqueue server uuid))
    q.maxQueueSize (q.queue n) ((q.enqueue server uuid).1.queue n) added := by
  have hlea (u : Uuid) : ¬Leaves n u (q.event (.enqueue server uuid)) := by
    rintro (h | h)
    · cases h
    · cases h
  rcases enqueue_cases q server uuid with ⟨hmem, heq⟩ | ⟨hnot, hfu, heq⟩ | ⟨hnot, hfu, heq⟩
  · refine ⟨none, ?_⟩
    rw [heq, queue_setQueue_self]
    refine .same (fun u _ => hlea u) ?_
    rintro u ⟨hop, -⟩
    cases hop
    exact hmem
  · refine ⟨none, ?_⟩
    rw [heq, queue_setQueue_self]
    refine .same (fun u _ => hlea u) ?_
    rintro u ⟨-, n, hok⟩
    simp only [event, perform, heq] at hok
    cases hok
  · by_cases hn : n = server
    · subst hn
      refine ⟨some uuid, ?_, ?_, ?_⟩
      · rw [heq, queue_setQueue, if_pos rfl, toList_some,
          filter_eq_self.mpr fun u _ => decide_eq_true (hlea u)]
      · intro u
        constructor
        · intro hu
          cases hu
          exact ⟨⟨rfl, (q.queue n).length + 1, by simp only [event, perform, heq]⟩, hnot⟩
        · rintro ⟨⟨hop, -⟩, -⟩
          cases hop
          rfl
      · intro _ hmax
        simpa [isFull, hmax] using hfu
    · refine ⟨none, ?_⟩
      rw [heq, queue_setQueue, if_neg hn]
      refine .same (fun u _ => hlea u) ?_
      rintro u ⟨hop, -⟩
      cases hop
      exact absurd rfl hn

theorem Moved.filter (hjoi : ∀ u, ¬Joins server u e)
    (hlea : ∀ u, u ∈ line → (Leaves server u e ↔ p u = false)) :
    Moved server e limit line (line.filter p) none where
  eq := by
    rw [toList_none, append_nil]
    apply filter_congr
    intro u hu
    rw [decide_not, Bool.eq_iff_iff]
    simp [hlea u hu]
  added_iff u := by
    constructor
    · intro h
      cases h
    · exact fun h => absurd h.1 (hjoi u)
  room h := absurd rfl h

theorem moved_perform (q : QueueManager) (op : QueueOp) : ∃ added,
    Moved n (q.event op) q.maxQueueSize (q.queue n) ((q.perform op).1.queue n) added := by
  have hjoi (hop : ∀ server u, op ≠ .enqueue server u) (u : Uuid) : ¬Joins n u (q.event op) :=
    fun h => hop n u h.1
  cases op with
  | enqueue server uuid => exact moved_enqueue q
  | remove server uuid =>
    refine ⟨none, ?_⟩
    have hjoi := hjoi (by intro server u h; cases h)
    simp only [perform, queue_remove]
    split
    · rename_i hn
      subst hn
      apply Moved.filter hjoi
      simp [Leaves, event, eq_comm (a := uuid)]
    · rename_i hn
      refine Moved.same ?_ fun u h => absurd h (hjoi u)
      rintro u - (h | h)
      · cases h
        exact hn rfl
      · cases h
  | removeFromAll uuid =>
    refine ⟨none, ?_⟩
    simp only [perform, queue_removeFromAll]
    apply Moved.filter (hjoi (by intro server u h; cases h))
    simp [Leaves, event, eq_comm (a := uuid)]
  | evictEmpty =>
    refine ⟨none, ?_⟩
    simp only [perform, queue_evictEmpty]
    refine Moved.same ?_ fun u h => absurd h (hjoi (by intro server u h; cases h) u)
    rintro u - (h | h)
    · cases h
    · cases h

theorem maxQueueSize_perform (q : QueueManager) :
    (q.perform op).1.maxQueueSize = q.maxQueueSize := by
  cases op with
  | enqueue server uuid =>
    rcases enqueue_cases q server uuid with ⟨-, heq⟩ | ⟨-, -, heq⟩ | ⟨-, -, heq⟩
    · simp only [perform, heq, setQueue]
    · simp only [perform, heq, setQueue]
    · simp only [perform, heq, setQueue]
  | remove server uuid =>
    simp only [perform, remove]
    split
    · rfl
    · rfl
  | removeFromAll uuid | evictEmpty => rfl

theorem position_eq (q : QueueManager) :
    q.position server uuid = ((q.queue server).idxOf? uuid).map (· + 1) := by
  unfold position queue
  cases q.queues.lookup server with
  | none | some line => rfl

end QueueManager

theorem QueueHistory.maxQueueSize_run : (run q ops).manager.maxQueueSize = q.maxQueueSize := by
  induction ops using List.reverseRecOn with
  | nil => rfl
  | append_singleton ops op ih =>
    rw [run, foldl_append, foldl_cons, foldl_nil, ← run]
    exact (QueueManager.maxQueueSize_perform _).trans ih

structure FirstCome (h : QueueHistory) : Prop where
  waiting : ∀ server u, u ∈ h.manager.queue server ↔ ∃ i, WaitsSince server u h.log i
  sorted : ∀ server, (h.manager.queue server).Pairwise fun u v =>
    ∀ i j, WaitsSince server u h.log i → WaitsSince server v h.log j → i < j
  bounded : ∀ server, h.manager.maxQueueSize ≠ 0 →
    (h.manager.queue server).length ≤ h.manager.maxQueueSize

namespace FirstCome

theorem new (max : Nat) : FirstCome ⟨.new max, []⟩ where
  waiting server u := by
    constructor
    · intro h
      cases h
    · rintro ⟨i, hi⟩
      exact absurd hi.lt (Nat.not_lt_zero i)
  sorted server := List.Pairwise.nil
  bounded server _ := Nat.zero_le _

theorem nodup (h : FirstCome hist) : (hist.manager.queue server).Nodup := by
  refine (h.sorted server).imp_of_mem ?_
  rintro u v hu - hlt rfl
  obtain ⟨i, hi⟩ := (h.waiting server u).mp hu
  exact Nat.lt_irrefl i (hlt i i hi hi)

theorem place_of_record (h : FirstCome hist) (hu : u ∈ hist.manager.queue server)
    (hi : WaitsSince server u (hist.record op).log i) : WaitsSince server u hist.log i := by
  rcases waitsSince_append.mp hi with ⟨hi, -⟩ | ⟨-, -, hno⟩
  · exact hi
  · obtain ⟨j, hj⟩ := (h.waiting server u).mp hu
    exact absurd hj (hno j)

theorem waiting_record (h : FirstCome hist) (server : String) (u : Uuid) :
    u ∈ (hist.record op).manager.queue server ↔
      ∃ i, WaitsSince server u (hist.record op).log i := by
  obtain ⟨added, hmov⟩ := hist.manager.moved_perform op (n := server)
  have hmem : u ∈ (hist.record op).manager.queue server ↔
      (u ∈ hist.manager.queue server ∧ ¬Leaves server u (hist.manager.event op)) ∨
        (Joins server u (hist.manager.event op) ∧ u ∉ hist.manager.queue server) := by
    rw [← hmov.added_iff u]
    simp [QueueHistory.record, hmov.eq]
  rw [hmem]
  simp only [QueueHistory.record, waitsSince_append, exists_or, h.waiting, exists_and_right,
    exists_eq, true_and, not_exists]

theorem sorted_record (h : FirstCome hist) (server : String) :
    ((hist.record op).manager.queue server).Pairwise fun u v => ∀ i j,
      WaitsSince server u (hist.record op).log i →
        WaitsSince server v (hist.record op).log j → i < j := by
  obtain ⟨added, hmov⟩ := hist.manager.moved_perform op (n := server)
  have hque : (hist.record op).manager.queue server = _ := hmov.eq
  rw [hque]
  refine pairwise_append.mpr ⟨?_, ?_, ?_⟩
  · apply ((h.sorted server).sublist filter_sublist).imp_of_mem
    intro u v hu hv hlt i j hi hj
    exact hlt i j (h.place_of_record (mem_of_mem_filter hu) hi)
      (h.place_of_record (mem_of_mem_filter hv) hj)
  · cases added with
    | none => exact List.Pairwise.nil
    | some u => exact pairwise_singleton _ u
  · intro u hu v hv i j hi hj
    have hv : added = some v := by simpa using hv
    obtain ⟨hjoin, hnot⟩ := (hmov.added_iff v).mp hv
    rcases waitsSince_append.mp hj with ⟨hj, -⟩ | ⟨hj, -⟩
    · exact absurd ((h.waiting server v).mpr ⟨j, hj⟩) hnot
    · rw [hj]
      exact (h.place_of_record (mem_of_mem_filter hu) hi).lt

theorem bounded_record (h : FirstCome hist) (server : String)
    (hmax : hist.manager.maxQueueSize ≠ 0) :
    ((hist.record op).manager.queue server).length ≤ hist.manager.maxQueueSize := by
  obtain ⟨added, hmov⟩ := hist.manager.moved_perform op (n := server)
  have hque : (hist.record op).manager.queue server = _ := hmov.eq
  rw [hque, length_append]
  have hkt := length_filter_le (fun u => ¬Leaves server u (hist.manager.event op))
    (hist.manager.queue server)
  cases added with
  | none =>
    have hbou := h.bounded server hmax
    simp only [toList_none, length_nil]
    omega
  | some u =>
    have hrm := hmov.room (by simp) hmax
    simp only [toList_some, length_singleton]
    omega

theorem record (h : FirstCome hist) (op : QueueOp) : FirstCome (hist.record op) where
  waiting := h.waiting_record
  sorted := h.sorted_record
  bounded server hmax := by
    have hsz : (hist.record op).manager.maxQueueSize = hist.manager.maxQueueSize :=
      hist.manager.maxQueueSize_perform
    rw [hsz] at hmax ⊢
    exact h.bounded_record server hmax

theorem foldl (h : FirstCome hist) (ops : List QueueOp) :
    FirstCome (ops.foldl .record hist) := by
  induction ops generalizing hist with
  | nil => exact h
  | cons op ops ih => exact ih (h.record op)

end FirstCome

namespace QueueManager

theorem enqueue_snd_eq (q : QueueManager) : (q.enqueue server uuid).2 =
    if uuid ∈ (q.enqueue server uuid).1.queue server then
      .ok (((q.enqueue server uuid).1.queue server).idxOf uuid + 1)
    else .error "queue is full" := by
  rcases enqueue_cases q server uuid with ⟨hmem, heq⟩ | ⟨hnot, hfu, heq⟩ | ⟨hnot, hfu, heq⟩
  · simp only [heq, queue_setQueue, if_true, if_pos hmem]
  · simp only [heq, queue_setQueue, if_true, if_neg hnot]
  · simp [heq, queue_setQueue, idxOf_append_of_notMem hnot]

def Alike (q q' : QueueManager) : Prop :=
  q.maxQueueSize = q'.maxQueueSize ∧ ∀ n, q.queue n = q'.queue n

theorem alike_evictEmpty : Alike q.evictEmpty q :=
  ⟨rfl, fun _ => queue_evictEmpty⟩

namespace Alike

theorem position (h : Alike q q') : q.position server uuid = q'.position server uuid := by
  rw [position_eq, position_eq, h.2]

theorem isFrontOrUnqueued (h : Alike q q') :
    q.isFrontOrUnqueued server uuid = q'.isFrontOrUnqueued server uuid := by
  simp only [QueueManager.isFrontOrUnqueued, h.2]

theorem isFull (h : Alike q q') : q.isFull server = q'.isFull server := by
  simp only [QueueManager.isFull, h.1, h.2]

theorem enqueue_snd (h : Alike q q') :
    (q.enqueue server uuid).2 = (q'.enqueue server uuid).2 := by
  rw [enqueue_snd_eq, enqueue_snd_eq]
  simp only [queue_enqueue, h.2, h.isFull]

theorem perform (h : Alike q q') (op : QueueOp) :
    Alike (q.perform op).1 (q'.perform op).1 := by
  refine ⟨by rw [maxQueueSize_perform, maxQueueSize_perform, h.1], ?_⟩
  intro n
  cases op with
  | enqueue server uuid => simp only [QueueManager.perform, queue_enqueue, h.2, h.isFull]
  | remove server uuid => simp only [QueueManager.perform, queue_remove, h.2]
  | removeFromAll uuid => simp only [QueueManager.perform, queue_removeFromAll, h.2]
  | evictEmpty => simp only [QueueManager.perform, queue_evictEmpty, h.2]

theorem event (h : Alike q q') (op : QueueOp) : q.event op = q'.event op := by
  cases op with
  | enqueue server uuid => simp only [QueueManager.event, QueueManager.perform, h.enqueue_snd]
  | remove server uuid | removeFromAll uuid | evictEmpty => rfl

theorem run (h : Alike q q') (ops : List QueueOp) :
    (QueueHistory.run q ops).log = (QueueHistory.run q' ops).log ∧
      Alike (QueueHistory.run q ops).manager (QueueHistory.run q' ops).manager := by
  induction ops using List.reverseRecOn with
  | nil => exact ⟨rfl, h⟩
  | append_singleton ops op ih =>
    obtain ⟨hlog, hali⟩ := ih
    simp only [QueueHistory.run] at hlog hali
    simp only [QueueHistory.run, foldl_append, foldl_cons, foldl_nil]
    exact ⟨by simp only [QueueHistory.record, hlog, hali.event], hali.perform op⟩

end Alike

theorem mem_enqueue_self (q : QueueManager) : uuid ∈ (q.enqueue server uuid).1.queue server ↔
    uuid ∈ q.queue server ∨ q.isFull server = false := by
  rw [queue_enqueue]
  by_cases hmem : uuid ∈ q.queue server
  · simp [hmem]
  · cases hfu : q.isFull server with
    | false | true => simp [hmem]

theorem position_of_mem (q : QueueManager) (h : uuid ∈ q.queue server) :
    q.position server uuid = some ((q.queue server).idxOf uuid + 1) := by
  rw [position_eq, idxOf?_of_mem h, map_some]

theorem position_of_not_mem (q : QueueManager) (h : uuid ∉ q.queue server) :
    q.position server uuid = none := by
  rw [position_eq, idxOf?_eq_none_iff.mpr h, map_none]

theorem isFrontOrUnqueued_iff (q : QueueManager) : q.isFrontOrUnqueued server uuid = true ↔
    q.queue server = [] ∨ (q.queue server).head? = some uuid := by
  unfold isFrontOrUnqueued
  cases q.queue server with
  | nil | cons front rest => simp

end QueueManager

/-- After any operations every queue is a line of first come, first served, and the answers are
read off it. -/
theorem queue_first_come_first_served (maxQueueSize : Nat) (ops : List QueueOp)
    (server : String) :
    let hist := QueueHistory.run (.new maxQueueSize) ops
    let line := hist.manager.queue server
    (line.Nodup ∧ (maxQueueSize ≠ 0 → line.length ≤ maxQueueSize) ∧
      (∀ u, u ∈ line ↔ ∃ i, WaitsSince server u hist.log i) ∧
      (line.Pairwise fun u v =>
        ∀ i j, WaitsSince server u hist.log i → WaitsSince server v hist.log j → i < j)) ∧
    (∀ u, hist.manager.position server u =
      if u ∈ line then some (line.idxOf u + 1) else none) ∧
    (∀ u, let line' := (hist.manager.enqueue server u).1.queue server
      (u ∈ line' ↔ u ∈ line ∨ maxQueueSize = 0 ∨ line.length < maxQueueSize) ∧
      (hist.manager.enqueue server u).2 =
        if u ∈ line' then .ok (line'.idxOf u + 1) else .error "queue is full") ∧
    (∀ u, hist.manager.isFrontOrUnqueued server u = true ↔ line = [] ∨ line.head? = some u) ∧
    (∀ later, let kept := QueueHistory.run hist.manager later
      let evicted := QueueHistory.run hist.manager.evictEmpty later
      evicted.log = kept.log ∧ ∀ n u,
        evicted.manager.position n u = kept.manager.position n u ∧
        evicted.manager.isFrontOrUnqueued n u = kept.manager.isFrontOrUnqueued n u) := by
  intro hist line
  have hfirst : FirstCome hist := (FirstCome.new maxQueueSize).foldl ops
  have hsize : hist.manager.maxQueueSize = maxQueueSize := QueueHistory.maxQueueSize_run
  refine ⟨⟨hfirst.nodup, ?_, hfirst.waiting server, hfirst.sorted server⟩, ?_, ?_, ?_, ?_⟩
  · intro hmax
    rw [← hsize] at hmax ⊢
    exact hfirst.bounded server hmax
  · intro u
    split
    · rename_i hu
      exact hist.manager.position_of_mem hu
    · rename_i hu
      exact hist.manager.position_of_not_mem hu
  · intro u
    refine ⟨?_, hist.manager.enqueue_snd_eq⟩
    rw [hist.manager.mem_enqueue_self]
    simp [QueueManager.isFull, hsize, line, or_iff_not_imp_left]
  · exact fun u => hist.manager.isFrontOrUnqueued_iff
  · intro later
    obtain ⟨hlog, halike⟩ := QueueManager.alike_evictEmpty.run later
    exact ⟨hlog, fun n u => ⟨halike.position, halike.isFrontOrUnqueued⟩⟩

end Kojacoord
