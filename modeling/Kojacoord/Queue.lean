import Kojacoord.Lib.AssocList

namespace Kojacoord

abbrev Uuid := BitVec 128

structure QueueManager where
  queues : AList (fun _ : String => List Uuid)
  maxQueueSize : Nat

namespace QueueManager

def new (maxQueueSize : Nat) : QueueManager := ⟨∅, maxQueueSize⟩

def queue (q : QueueManager) (server : String) : List Uuid := (q.queues.lookup server).getD []

def setQueue (q : QueueManager) (server : String) (line : List Uuid) : QueueManager :=
  { q with queues := q.queues.insert server line }

def enqueue (q : QueueManager) (server : String) (uuid : Uuid) :
    QueueManager × Except String Nat :=
  let line := q.queue server
  match line.idxOf? uuid with
  | some i => (q.setQueue server line, .ok (i + 1))
  | none =>
    if q.maxQueueSize ≠ 0 ∧ q.maxQueueSize ≤ line.length then
      (q.setQueue server line, .error "queue is full")
    else (q.setQueue server (line ++ [uuid]), .ok (line.length + 1))

def position (q : QueueManager) (server : String) (uuid : Uuid) : Option Nat :=
  (q.queues.lookup server).bind fun line => (line.idxOf? uuid).map (· + 1)

def isFrontOrUnqueued (q : QueueManager) (server : String) (uuid : Uuid) : Bool :=
  match (q.queue server).head? with
  | some front => front == uuid
  | none => true

def remove (q : QueueManager) (server : String) (uuid : Uuid) : QueueManager :=
  match q.queues.lookup server with
  | some line => q.setQueue server (line.filter (· ≠ uuid))
  | none => q

def removeFromAll (q : QueueManager) (uuid : Uuid) : QueueManager :=
  { q with queues := AssocList.mapValues (fun line => line.filter (· ≠ uuid)) q.queues }

def evictEmpty (q : QueueManager) : QueueManager :=
  { q with queues := AssocList.retain (fun line => !line.isEmpty) q.queues }

theorem queue_setQueue :
    (setQueue q server line).queue n = if n = server then line else q.queue n := by
  by_cases h : n = server
  · subst h
    simp [setQueue, queue]
  · simp [setQueue, queue, h, AList.lookup_insert_ne h]

def isFull (q : QueueManager) (server : String) : Bool :=
  q.maxQueueSize ≠ 0 && q.maxQueueSize ≤ (q.queue server).length

theorem idxOf?_of_mem {line : List Uuid} (h : u ∈ line) : line.idxOf? u = some (line.idxOf u) := by
  cases hidx : line.idxOf? u with
  | none => exact absurd h (List.idxOf?_eq_none_iff.mp hidx)
  | some i => rw [List.idxOf_eq_getD_idxOf?, hidx, Option.getD_some]

theorem enqueue_cases (q : QueueManager) (server : String) (uuid : Uuid) :
    (uuid ∈ q.queue server ∧ enqueue q server uuid =
      (q.setQueue server (q.queue server), .ok ((q.queue server).idxOf uuid + 1))) ∨
    uuid ∉ q.queue server ∧ q.isFull server = true ∧
      enqueue q server uuid = (q.setQueue server (q.queue server), .error "queue is full") ∨
    uuid ∉ q.queue server ∧ q.isFull server = false ∧
      enqueue q server uuid =
        (q.setQueue server (q.queue server ++ [uuid]), .ok ((q.queue server).length + 1)) := by
  by_cases hmem : uuid ∈ q.queue server
  · exact .inl ⟨hmem, by simp only [enqueue, idxOf?_of_mem hmem]⟩
  · have hidx := List.idxOf?_eq_none_iff.mpr hmem
    right
    by_cases hfu : q.maxQueueSize ≠ 0 ∧ q.maxQueueSize ≤ (q.queue server).length
    · exact .inl ⟨hmem, by simpa [isFull] using hfu, by simp only [enqueue, hidx, if_pos hfu]⟩
    · exact .inr ⟨hmem, by simpa [isFull] using hfu, by simp only [enqueue, hidx, if_neg hfu]⟩

theorem queue_setQueue_self : (setQueue q server (q.queue server)).queue n = q.queue n := by
  rw [queue_setQueue]
  split
  · rename_i hn
    rw [hn]
  · rfl

theorem queue_enqueue : (enqueue q server uuid).1.queue n =
    if n = server ∧ uuid ∉ q.queue server ∧ q.isFull server = false then q.queue n ++ [uuid]
    else q.queue n := by
  rcases enqueue_cases q server uuid with ⟨hmem, heq⟩ | ⟨hnot, hfu, heq⟩ | ⟨hnot, hfu, heq⟩
  · rw [heq, queue_setQueue_self, if_neg fun h => h.2.1 hmem]
  · rw [heq, queue_setQueue_self, if_neg]
    rintro ⟨-, -, hrm⟩
    cases hfu.symm.trans hrm
  · rw [heq, queue_setQueue]
    by_cases hn : n = server
    · subst hn
      rw [if_pos rfl, if_pos ⟨rfl, hnot, hfu⟩]
    · rw [if_neg hn, if_neg fun h => hn h.1]

theorem queue_remove : (remove q server uuid).queue n =
    if n = server then (q.queue n).filter (· ≠ uuid) else q.queue n := by
  unfold remove
  split
  · rename_i line hline
    rw [queue_setQueue]
    split
    · rename_i hn
      rw [hn, queue, hline, Option.getD_some]
    · rfl
  · rename_i hline
    split
    · rename_i hn
      rw [hn, queue, hline]
      rfl
    · rfl

theorem queue_removeFromAll :
    (removeFromAll q uuid).queue n = (q.queue n).filter (· ≠ uuid) := by
  simp only [removeFromAll, queue, AssocList.lookup_mapValues]
  cases q.queues.lookup n <;> rfl

theorem mem_enqueue (h : u ∈ (enqueue q server uuid).1.queue n) :
    u ∈ q.queue n ∨ n = server ∧ u = uuid := by
  rw [queue_enqueue] at h
  split at h
  · rename_i hnew
    rcases List.mem_append.mp h with h | h
    · exact .inl h
    · exact .inr ⟨hnew.1, List.mem_singleton.mp h⟩
  · exact .inl h

theorem mem_remove :
    u ∈ (remove q server uuid).queue n ↔ u ∈ q.queue n ∧ (n = server → u ≠ uuid) := by
  rw [queue_remove]
  split
  · rename_i hn
    simp [hn]
  · rename_i hn
    simp [hn]

theorem mem_removeFromAll : u ∈ (removeFromAll q uuid).queue n ↔ u ∈ q.queue n ∧ u ≠ uuid := by
  rw [queue_removeFromAll]
  simp

theorem queue_evictEmpty : (evictEmpty q).queue n = q.queue n := by
  simp only [evictEmpty, queue, AssocList.lookup_retain]
  cases q.queues.lookup n with
  | none => rfl
  | some line =>
    cases line with
    | nil | cons u us => rfl

end QueueManager

end Kojacoord
