import Kojacoord.Lib.Runs
import Kojacoord.Lib.Tally
import Kojacoord.Proxy.Valid

namespace Kojacoord
open Runs

def Phase.admittedTo (b : ServerId) : Phase → Bool
  | .dialing d | .limboDialing _ d | .admitted _ d | .departing _ d | .leftLimbo _ d | .routing d _
  | .loggingIn d _ _ => d == b
  | _ => false

def Phase.loads (b : ServerId) (p : Phase) : Bool := p.residence == some b || p.admittedTo b

namespace State

def attached (s : State) (b : ServerId) : Nat := s.conns.countP fun k => k.phase.residence == some b

def load (s : State) (b : ServerId) : Nat := s.conns.countP fun k => k.phase.loads b

def capacity (s : State) (b : ServerId) : Nat := (s.registry.server b).maxPlayers.toNat

def RoomFor (s : State) (b : ServerId) : Prop := s.capacity b ≠ 0 → s.load b < s.capacity b

theorem attached_le_load {s : State} : s.attached b ≤ s.load b := by
  apply List.countP_mono_left
  intro k _ hk
  simp only [Phase.loads, hk, Bool.true_or]

end State

def admission (cfg : ProxyConfig) (s : State) : Label → Option ServerId
  | .move c (.selectBackend roll) =>
    match s.conns[c]? with
    | some k =>
      if k.phase = .connecting then cfg.routing.selectWithRegion s.registry k.clientIp roll else none
    | none => none
  | .move c .checkFront =>
    match s.conns[c]? with
    | some k =>
      match k.phase with
      | .vacant _ b =>
        if s.queues.isFrontOrUnqueued (s.registry.server b).name k.uuid then some b else none
      | _ => none
    | none => none
  | _ => none

def AdmitsWithRoom (cfg : ProxyConfig) (s : State) (l : Label) : Prop :=
  ∀ b ∈ admission cfg s l, s.RoomFor b

instance : Decidable (State.RoomFor s b) := inferInstanceAs (Decidable (_ → _))

instance : Decidable (AdmitsWithRoom cfg s l) := inferInstanceAs (Decidable (∀ _ ∈ _, _))

theorem Phase.loads_failure {leg : Leg} : leg.failure.loads b = false := by
  cases leg <;> rfl

theorem Phase.loads_creditFailure {credit : Credit} : credit.failure.loads b = false := by
  cases credit <;> rfl

theorem Phase.loads_nextPhase {why : RelayEnd} : (why.nextPhase cfg r roll).loads b = false := by
  cases why <;> rfl

theorem Conn.loads_startCredit {k : Conn} : (k.startCredit b credit).phase.loads d = (b == d) := by
  cases credit with
  | named target => simp [startCredit, spawn, enter, Phase.loads, Phase.residence, Phase.admittedTo]
  | held selected =>
    cases selected <;>
      simp [startCredit, spawn, enter, Phase.loads, Phase.residence, Phase.admittedTo]

theorem Moves.loads (hm : Moves cfg s k m k' e) (hq : cfg.queueEnabled = true)
    (hc : s.conns[c]? = some k) (hok : AdmitsWithRoom cfg s (.move c m))
    (hb : k'.phase.loads b = true) (hv : k.Valid s.registry) :
    k.phase.loads b = true ∨ s.RoomFor b ∧ b < s.registry.heap.length := by
  cases hm with
  | select hp hd =>
    obtain rfl : _ = b := by simpa [Conn.enter, Phase.loads, Phase.residence, Phase.admittedTo] using hb
    exact .inr ⟨hok _ (by simp [admission, hc, hp, hd]), (selectWithRegion_bound hd).valid⟩
  | front hp hf =>
    obtain rfl : _ = b := by simpa [Conn.enter, Phase.loads, Phase.residence, Phase.admittedTo] using hb
    exact .inr ⟨hok _ (by simp [admission, hc, hp, hf]), hv.phase _ (by simp [hp, Phase.ids])⟩
  | noQueue hp hn => simp [hq] at hn
  | joined hp | login hp =>
    rw [Conn.loads_startCredit] at hb
    exact .inl (by simpa [hp, Phase.loads, Phase.residence, Phase.admittedTo] using hb)
  | leaveFailed hp | fail hp => simp [Conn.enter, Phase.loads_failure] at hb
  | loginFailed hp => simp [Conn.enter, Phase.loads_creditFailure] at hb
  | finishRelay hp => simp [Conn.enter, Phase.loads_nextPhase] at hb
  | _ hp =>
    left
    revert hb
    simp [hp, Conn.enter, Conn.spawn, Phase.loads, Phase.residence, Phase.admittedTo]

theorem ConnsChange.load (h : ConnsChange s l ks) :
    ks.countP (fun k => k.phase.loads b) = s.load b := by
  cases h with
  | same => rfl
  | accept => simp [State.load, Conn.new, Phase.loads, Phase.residence, Phase.admittedTo]
  | spawn _ hk => exact Tally.countP_set_of_eq hk rfl

theorem step_load (h : step cfg s l = some s') (hq : cfg.queueEnabled = true) (hv : s.Valid)
    (hok : AdmitsWithRoom cfg s l) :
    s'.load b ≤ s.load b ∨
      s'.load b ≤ s.load b + 1 ∧ s.RoomFor b ∧ b < s.registry.heap.length := by
  by_cases hl : l.quiet = true
  · exact .inl (step_quiet_conns hl h).load.le
  · cases l with
    | move c m =>
      obtain ⟨k, k', e, hk, hm, rfl⟩ := step_move h
      have hset := Tally.countP_set_add (p := fun k : Conn => k.phase.loads b) hk k'
      simp only [State.load, State.perform_conns, State.setConn_conns]
      cases hb : k'.phase.loads b with
      | false =>
        rw [hb] at hset
        exact .inl (by simp at hset; omega)
      | true =>
        rcases (Conn.moves_of_move hm).loads hq hk hok hb (hv k (List.mem_of_getElem? hk)) with
          hk | hrm
        · rw [hb, hk] at hset
          exact .inl (by omega)
        · rw [hb] at hset
          exact .inr ⟨by simp at hset; omega, hrm⟩
    | access c i =>
      obtain ⟨k, owner, o, hk, -, rfl⟩ := step_access h
      have heq : (k.advance s.registry i owner o).phase.loads b = k.phase.loads b := by
        rw [Conn.phase_advance]
      exact .inl (Tally.countP_set_of_eq (p := fun k : Conn => k.phase.loads b) hk heq).le
    | _ => exact absurd rfl hl

theorem State.Valid.load_eq_zero {s : State} (h : s.Valid) (hb : s.registry.heap.length ≤ b) :
    s.load b = 0 := by
  apply List.countP_eq_zero.mpr
  intro k hk hl
  have hid : b ∈ k.phase.ids := by
    cases hp : k.phase <;>
      simp_all [Phase.loads, Phase.residence, Phase.admittedTo, Phase.ids]
  exact absurd ((h k hk).phase b hid) (Nat.not_lt.mpr hb)

def State.WithinCapacity (s : State) : Prop := ∀ b, s.capacity b ≠ 0 → s.load b ≤ s.capacity b

theorem start_withinCapacity : (State.start cfg r gs).WithinCapacity :=
  fun _ _ => Nat.zero_le _

theorem step_withinCapacity (h : step cfg s l = some s') (hq : cfg.queueEnabled = true)
    (hv : s.Valid) (hs : s.WithinCapacity) (hok : AdmitsWithRoom cfg s l) : s'.WithinCapacity := by
  intro b hb
  have hl := step_load (b := b) h hq hv hok
  by_cases hlen : b < s.registry.heap.length
  · have hcap : s'.capacity b = s.capacity b := by
      rw [State.capacity, (step_extends h).maxPlayers hlen, State.capacity]
    rw [hcap] at hb ⊢
    have hle := hs b hb
    rcases hl with hl | ⟨hl, hrm, -⟩
    · omega
    · have := hrm hb
      omega
  · have hz := hv.load_eq_zero (Nat.le_of_not_lt hlen)
    rcases hl with hl | ⟨-, -, hlen'⟩
    · omega
    · exact absurd hlen' hlen

/-- With the queue enabled, a backend that starts within its capacity stays within it in every run
that lets players through only while there is room. -/
theorem attached_le_capacity (hq : cfg.queueEnabled = true) (hv : s₀.Valid)
    (hs : s₀.WithinCapacity) (h : Run (step cfg) (AdmitsWithRoom cfg) s₀ s)
    (hb : s.capacity b ≠ 0) : s.attached b ≤ s.capacity b := by
  have hinv : s.Valid ∧ s.WithinCapacity := by
    refine h.invariant (I := fun t => t.Valid ∧ t.WithinCapacity) ⟨hv, hs⟩ ?_
    intro t l u ht hok hu
    exact ⟨step_valid hu ht.1, step_withinCapacity hu hq ht.1 ht.2 hok⟩
  exact State.attached_le_load.trans (hinv.2 b hb)

theorem attached_le_capacity_one :
    ∃ s, Run (step lobbyConfig) (AdmitsWithRoom lobbyConfig) (.start lobbyConfig (lobbyFor 1) ∅) s ∧
      s.attached 0 = 1 ∧ s.attached 0 ≤ s.capacity 0 := by
  have hrun : Run (step lobbyConfig) (AdmitsWithRoom lobbyConfig)
      (.start lobbyConfig (lobbyFor 1) ∅) _ :=
    Run.of_exec ([.accept 1 (.v4 1) 765] ++ joinMoves 0) rfl
  exact ⟨_, hrun, by decide,
    attached_le_capacity rfl start_valid start_withinCapacity hrun (by decide)⟩

/-- Two players join one after the other and both are attached to a lobby for one. -/
theorem capacity_exceeded :
    ∃ s, Run (step lobbyConfig) (fun _ _ => True) (.start lobbyConfig (lobbyFor 1) ∅) s ∧
      s.capacity 0 = 1 ∧ s.attached 0 = 2 :=
  ⟨_, Run.of_exec
    ([.accept 1 (.v4 1) 765] ++ joinMoves 0 ++ [.accept 2 (.v4 2) 765] ++ joinMoves 1) rfl,
    by decide, by decide⟩

end Kojacoord
