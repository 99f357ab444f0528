import Kojacoord.Lib.Runs
import Kojacoord.Proxy.Valid

namespace Kojacoord
open Runs List

def Phase.waitingFor (r : ServerRegistry) : Phase → Option String
  | .limbo _ waiting => waiting
  | .polled _ b | .full _ b | .vacant _ b | .limboDialing _ b | .admitted _ b =>
    some (r.server b).name
  | _ => none

def State.Waits (s : State) (server : String) (uuid : Uuid) : Prop :=
  ∃ (c : ConnId) (k : Conn), s.conns[c]? = some k ∧ k.uuid = uuid ∧
    k.phase.waitingFor s.registry = some server

def State.QueueResident (s : State) : Prop :=
  ∀ server uuid, uuid ∈ s.queues.queue server → s.Waits server uuid

/-- The place in a queue that the step's connection turns away from, by failing in limbo or because
its poll resolves another server. -/
def abandonedPlace (cfg : ProxyConfig) (s : State) : Label → Option (String × Uuid)
  | .move c .fail =>
    match s.conns[c]? with
    | some k =>
      match k.phase with
      | .limbo _ waiting => waiting.map fun server => (server, k.uuid)
      | _ => none
    | none => none
  | .move c (.poll roll) =>
    match s.conns[c]? with
    | some k =>
      match k.phase with
      | .limbo leg (some server) =>
        match leg.candidateBackend cfg s.registry roll with
        | some b => if (s.registry.server b).name = server then none else some (server, k.uuid)
        | none => none
      | _ => none
    | none => none
  | _ => none

def LeavesNoPlace (cfg : ProxyConfig) (s : State) (l : Label) : Prop :=
  ∀ p ∈ abandonedPlace cfg s l, p.2 ∉ s.queues.queue p.1

instance : Decidable (LeavesNoPlace cfg s l) := inferInstanceAs (Decidable (∀ _ ∈ _, _))

theorem Conn.uuid_advance {k : Conn} : (k.advance r i owner o).uuid = k.uuid := by
  cases o <;> rfl

theorem Phase.waitingFor_extends {p : Phase} (he : r.Extends r')
    (hv : ∀ b ∈ p.ids, b < r.heap.length) : p.waitingFor r' = p.waitingFor r := by
  cases p with
  | polled leg b | full leg b | vacant leg b | limboDialing leg b | admitted leg b =>
    exact congrArg some (he.name (hv b (by simp [ids])))
  | _ => rfl

theorem Moves.uuid (hm : Moves cfg s k m k' e) : k'.uuid = k.uuid := by
  cases hm with
  | login hp =>
    rename_i credit
    rcases credit with (_ | _) | _ <;> rfl
  | _ => rfl

theorem Moves.waitingFor (hm : Moves cfg s k m k' e) (hc : s.conns[c]? = some k)
    (hw : k.phase.waitingFor s.registry = some server) :
    k'.phase.waitingFor s.registry = some server ∨ e = .dequeue server ∨
      abandonedPlace cfg s (.move c m) = some (server, k.uuid) ∨ cfg.queueEnabled = false := by
  cases hm with
  | poll hp hb =>
    rename_i b
    rw [hp] at hw
    cases hw
    by_cases hn : (s.registry.server b).name = server
    · exact .inl (by simp [Conn.enter, Phase.waitingFor, hn])
    · exact .inr (.inr (.inl (by simp [abandonedPlace, hc, hp, hb, hn])))
  | fail hp =>
    rw [hp] at hw
    cases hw
    exact .inr (.inr (.inl (by simp [abandonedPlace, hc, hp])))
  | dequeue hp hq =>
    rw [hp] at hw
    cases hw
    exact .inr (.inl rfl)
  | noDequeue hp hq => exact .inr (.inr (.inr hq))
  | _ hp =>
    left
    revert hw
    simp [hp, Conn.enter, Phase.waitingFor]

theorem step_keeps_phase {c : ConnId} {k : Conn} (hl : ∀ c m, l ≠ .move c m)
    (h : step cfg s l = some s')
    (hk : s.conns[c]? = some k) :
    ∃ k', s'.conns[c]? = some k' ∧ k'.uuid = k.uuid ∧ k'.phase = k.phase := by
  by_cases hq : l.quiet = true
  · have hc := step_quiet_conns hq h
    generalize s'.conns = ks at hc
    cases hc with
    | same => exact ⟨k, hk, rfl, rfl⟩
    | accept =>
      have hlt := (List.getElem?_eq_some_iff.mp hk).1
      exact ⟨k, by rw [getElem?_append_left hlt, hk], rfl, rfl⟩
    | spawn ho hd =>
      rename_i d o kd owner
      have hlt := (List.getElem?_eq_some_iff.mp hd).1
      by_cases hcd : d = c
      · subst hcd
        obtain rfl : kd = k := by simpa [hd] using hk
        exact ⟨kd.spawn owner o, getElem?_set_self hlt, rfl, rfl⟩
      · exact ⟨k, by rw [getElem?_set_ne hcd, hk], rfl, rfl⟩
  · cases l with
    | move c m => exact absurd rfl (hl c m)
    | access d i =>
      obtain ⟨kd, owner, o, hd, -, rfl⟩ := step_access h
      have hlt := (List.getElem?_eq_some_iff.mp hd).1
      by_cases hcd : d = c
      · subst hcd
        obtain rfl : kd = k := by simpa [hd] using hk
        exact ⟨_, getElem?_set_self hlt, Conn.uuid_advance, Conn.phase_advance⟩
      · exact ⟨k, by rw [← hk]; exact getElem?_set_ne hcd, rfl, rfl⟩
    | _ => exact absurd rfl hq

theorem Effect.mem_queue (h : u ∈ (State.perform s c uuid e).queues.queue n) :
    u ∈ s.queues.queue n ∧ (e = .dequeue n → u ≠ uuid) ∨ e = .enqueue n ∧ u = uuid := by
  cases e with
  | enqueue server =>
    rcases QueueManager.mem_enqueue h with h | ⟨rfl, hu⟩
    · exact .inl ⟨h, by simp⟩
    · exact .inr ⟨rfl, hu⟩
  | dequeue server =>
    obtain ⟨h, hne⟩ := QueueManager.mem_remove.mp h
    refine .inl ⟨h, ?_⟩
    rintro ⟨⟩
    exact hne rfl
  | leaveQueues => exact .inl ⟨(QueueManager.mem_removeFromAll.mp h).1, by simp⟩
  | _ => exact .inl ⟨h, by simp⟩

structure State.QueueOff (s : State) : Prop where
  queue : ∀ n u, u ∉ s.queues.queue n
  phase : ∀ k ∈ s.conns, ∀ leg b, k.phase ≠ .full leg b

theorem Moves.ne_full (hm : Moves cfg s k m k' e) (hq : cfg.queueEnabled = false) :
    k'.phase ≠ .full leg b := by
  cases hm with
  | full hp hq' => simp [hq] at hq'
  | login hp =>
    rename_i credit
    rcases credit with (_ | _) | _ <;> simp [Conn.startCredit, Conn.spawn, Conn.enter]
  | leaveFailed hp | fail hp =>
    rename_i leg' _
    cases leg' <;> simp [Conn.enter, Leg.failure]
  | loginFailed hp =>
    rename_i credit
    cases credit <;> simp [Conn.enter, Credit.failure]
  | finishRelay hp hi =>
    rename_i why roll
    cases why <;> simp [Conn.enter, RelayEnd.nextPhase]
  | _ hp => simp [Conn.enter, Conn.spawn, Conn.startCredit]

theorem step_queueOff (h : step cfg s l = some s') (hq : cfg.queueEnabled = false)
    (hs : s.QueueOff) : s'.QueueOff := by
  constructor
  · intro n u hu
    by_cases hl : l.quiet = true
    · rw [step_quiet_queue hl h] at hu
      exact hs.queue n u hu
    · cases l with
      | move c m =>
        obtain ⟨k, k', e, hk, hm, rfl⟩ := step_move h
        rcases Effect.mem_queue hu with ⟨hu, -⟩ | ⟨rfl, -⟩
        · exact hs.queue n u hu
        · cases Conn.moves_of_move hm with
          | enqueue hp => exact hs.phase k (mem_of_getElem? hk) _ _ hp
      | access c i =>
        obtain ⟨k, owner, o, -, -, rfl⟩ := step_access h
        exact hs.queue n u hu
      | _ => exact absurd rfl hl
  · refine step_forall (P := fun _ k => ∀ leg b, k.phase ≠ .full leg b) h hs.phase
      (fun _ _ hk => hk) ?_ ?_ ?_ ?_
    · intro uuid ip v leg b
      simp [Conn.new]
    · intro k owner o _ hk
      exact hk
    · intro c m k k' e _ _ hm _ leg b
      exact (Conn.moves_of_move hm).ne_full hq
    · intro c i k owner o _ _ _ hk
      rwa [Conn.phase_advance]

theorem step_queueResident (h : step cfg s l = some s') (hv : s.Valid) (hs : s.QueueResident)
    (hoff : cfg.queueEnabled = false → s.QueueOff) (hok : LeavesNoPlace cfg s l) :
    s'.QueueResident := by
  intro server uuid hu
  by_cases hl : ∃ c m, l = .move c m
  · obtain ⟨c, m, rfl⟩ := hl
    obtain ⟨k, k', e, hk, hm, rfl⟩ := step_move h
    have hlt := (List.getElem?_eq_some_iff.mp hk).1
    have hm := Conn.moves_of_move hm
    have hc' : ((s.setConn c k').perform c k.uuid e).conns[c]? = some k' := by
      simp [getElem?_set_self hlt]
    rcases Effect.mem_queue hu with ⟨hu, hne⟩ | ⟨rfl, rfl⟩
    · obtain ⟨d, kd, hd, rfl, hw⟩ := hs server uuid hu
      by_cases hcd : c = d
      · subst hcd
        obtain rfl : k = kd := by simpa [hk] using hd
        rcases hm.waitingFor hk hw with hw' | rfl | hpla | hq
        · exact ⟨c, k', hc', hm.uuid, by simpa using hw'⟩
        · exact absurd rfl (hne rfl)
        · exact absurd hu (hok _ hpla)
        · exact absurd hu ((hoff hq).queue _ _)
      · exact ⟨d, kd, by simp [getElem?_set_ne hcd, hd], rfl, by simpa using hw⟩
    · cases hm with
      | enqueue hp => exact ⟨c, _, hc', rfl, rfl⟩
  · have hl : ∀ c m, l ≠ .move c m := fun c m he => hl ⟨c, m, he⟩
    have hu : uuid ∈ s.queues.queue server := by
      by_cases hq : l.quiet = true
      · rwa [step_quiet_queue hq h] at hu
      · cases l with
        | move c m => exact absurd rfl (hl c m)
        | access c i =>
          obtain ⟨k, owner, o, -, -, rfl⟩ := step_access h
          exact hu
        | _ => exact absurd rfl hq
    obtain ⟨c, k, hk, rfl, hw⟩ := hs server uuid hu
    obtain ⟨k', hk', hu', hp'⟩ := step_keeps_phase hl h hk
    have hvd := (hv k (mem_of_getElem? hk)).phase
    exact ⟨c, k', hk', hu', by rw [hp', Phase.waitingFor_extends (step_extends h) hvd, hw]⟩

theorem start_queueOff : (State.start cfg r gs).QueueOff :=
  ⟨by simp [State.start, QueueManager.new, QueueManager.queue], by simp [State.start]⟩

/-- In every run in which nobody still queued fails out of limbo or has the candidate change,
everybody in a queue is in limbo waiting for that server. -/
theorem queue_resident (h : Run (step cfg) (LeavesNoPlace cfg) (.start cfg r gs) s) :
    s.QueueResident := by
  have hinv : s.Valid ∧ s.QueueResident ∧ (cfg.queueEnabled = false → s.QueueOff) := by
    refine h.invariant (I := fun t => t.Valid ∧ t.QueueResident ∧
      (cfg.queueEnabled = false → t.QueueOff)) ⟨start_valid, ?_, fun _ => start_queueOff⟩ ?_
    · intro server uuid hu
      exact absurd hu (start_queueOff.queue _ _)
    · intro t l u ht hok hu
      obtain ⟨hv, hr, hoff⟩ := ht
      exact ⟨step_valid hu hv, step_queueResident hu hv hr hoff hok,
        fun hq => step_queueOff hu hq (hoff hq)⟩
  exact hinv.2.1

def queuedMoves (c : ConnId) : List Label :=
  [.move c (.welcome true), .move c (.selectBackend 0), .move c (.joinLogin false),
    .move c (.poll 0), .move c .checkFull, .move c .enqueue]

def queuedRun : List Label :=
  [.accept 1 (.v4 1) 765] ++ joinMoves 0 ++ [.accept 2 (.v4 2) 765] ++ queuedMoves 1

theorem queue_resident_queued :
    ∃ s, Run (step lobbyConfig) (LeavesNoPlace lobbyConfig) (.start lobbyConfig (lobbyFor 1) ∅) s ∧
      s.queues.queue "lobby" = [2] ∧ s.QueueResident := by
  have hrun : Run (step lobbyConfig) (LeavesNoPlace lobbyConfig)
      (.start lobbyConfig (lobbyFor 1) ∅) _ := Run.of_exec queuedRun rfl
  exact ⟨_, hrun, by decide, queue_resident hrun⟩

theorem State.not_queueResident {s : State} (hu : u ∈ s.queues.queue n)
    (hw : ∀ k ∈ s.conns, k.uuid = u → k.phase.waitingFor s.registry = none) :
    ¬ s.QueueResident := by
  intro h
  obtain ⟨c, k, hk, rfl, hn⟩ := h n u hu
  rw [hw k (mem_of_getElem? hk) rfl] at hn
  cases hn

/-- A queued player whose client disconnects during the first join stays at the head of the queue. -/
theorem queue_keeps_departed :
    ∃ s, Run (step lobbyConfig) (fun _ _ => True) (.start lobbyConfig (lobbyFor 1) ∅) s ∧
      s.queues.queue "lobby" = [2] ∧ ¬ s.QueueResident :=
  ⟨_, Run.of_exec (queuedRun ++ [.move 1 .fail, .move 1 .removeSession]) rfl, by decide,
    State.not_queueResident (n := "lobby") (u := 2) (by decide) (by decide)⟩

end Kojacoord
