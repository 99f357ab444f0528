import Kojacoord.Proxy.Accounting

namespace Kojacoord
open Runs Tally Option Bool

def Op.active : Op → Bool
  | evacRead .. => false
  | _ => true

def Op.charge (k : Conn) : Op → Option String
  | release .. | connectRelease .. | setTransferred | evacRead .. | exitFlag
  | exitRelease false => k.currentServer
  | write server _ | joinWrite server => some server
  | evacWrite fromServer _ | evacSub fromServer _ => some fromServer
  | credit .. | connectCredit .. | evacAdd _ | joinAdd _ | switchAdd _ | exitRelease true
  | exitClear => none

def Op.evacTarget : Op → Option String
  | evacSub _ toServer | evacAdd toServer => some toServer
  | _ => none

def Op.connects : Op → Option (ServerId × String)
  | connectRelease b server | connectCredit b server => some (b, server)
  | _ => none

namespace Conn

def activeOps (k : Conn) : List (Owner × Op) := k.ops.filter fun p => p.2.active

def busy (k : Conn) : Bool := !k.activeOps.isEmpty

def charge (k : Conn) : Option String :=
  match k.activeOps with
  | [] => k.currentServer
  | p :: _ => p.2.charge k

/-- Operations on the session take turns, an evacuation has written its target, and a `Connect`
holds a record of the name it looked up. -/
structure Orderly (r : ServerRegistry) (k : Conn) : Prop where
  single : k.activeOps.length ≤ 1
  evacuated : ∀ p ∈ k.ops, ∀ n ∈ p.2.evacTarget, k.currentServer = some n
  connects : ∀ p ∈ k.ops, ∀ q ∈ p.2.connects, r.name q.1 = q.2

end Conn

def State.charged (s : State) (n : String) : Nat := s.conns.countP fun k => k.charge = some n

def startsOn (s : State) : Label → Option Conn
  | .move c (.joinLogin true) | .move c (.login true) | .move c (.stopRelay _) | .connect c _ =>
    s.conns[c]?
  | .transfer uuid _ _ => (s.sessions.lookup uuid).bind fun c => s.conns[c]?
  | .access c i =>
    match s.conns[c]? with
    | some k =>
      match k.ops[i]? with
      | some (_, .evacRead fromServer _) => if k.currentServer = some fromServer then some k else none
      | _ => none
    | none => none
  | _ => none

def storedCount (s : State) : Label → Option (String × UInt64)
  | .task i =>
    match s.tasks[i]? with
    | some (.inserting server) | some (.reloading _ (some server) _) =>
      some (server.name, server.playerCount)
    | some (.counting b count) =>
      if s.registry.get (s.registry.name b) = some b then some (s.registry.name b, count) else none
    | _ => none
  | _ => none

def incremented (s : State) : Label → Option ServerId
  | .access c i =>
    match s.conns[c]? with
    | some k =>
      match k.ops[i]? with
      | some (_, o) =>
        match o.tick s.registry k with
        | some (.add b) => some b
        | _ => none
      | none => none
    | none => none
  | _ => none

/-- Operations on one session take turns, a stored count covers the sessions that count on it, and
an increment neither goes to a replaced record nor overflows. -/
structure CountsSafely (s : State) (l : Label) : Prop where
  alone : ∀ k ∈ startsOn s l, k.busy = false
  stored : ∀ p ∈ storedCount s l, s.charged p.1 ≤ p.2.toNat
  current : ∀ b ∈ incremented s l, ∀ d ∈ s.registry.get (s.registry.name b), d = b
  room : ∀ b ∈ incremented s l, (s.registry.count b).toNat + 1 < 2 ^ 64

instance : Decidable (CountsSafely s l) :=
  decidable_of_iff ((∀ k ∈ startsOn s l, k.busy = false) ∧
      (∀ p ∈ storedCount s l, s.charged p.1 ≤ p.2.toNat) ∧
      (∀ b ∈ incremented s l, ∀ d ∈ s.registry.get (s.registry.name b), d = b) ∧
      ∀ b ∈ incremented s l, (s.registry.count b).toNat + 1 < 2 ^ 64)
    ⟨fun ⟨ha, hs, hc, hr⟩ => ⟨ha, hs, hc, hr⟩, fun h => ⟨h.alone, h.stored, h.current, h.room⟩⟩

inductive Covers (r : ServerRegistry) : Option Tick → Option String → Option String → Prop
  | keep : Covers r none u u
  | drop : Covers r none u none
  | sub : r.get n = some b → Covers r (some (.sub b)) (some n) none
  | add : (∀ d ∈ r.get (r.name b), d = b) → Covers r (some (.add b)) none (some (r.name b))
  | unregistered : r.get n = none → Covers r none none (some n)

theorem Op.next_active (h : Op.next r k o = some o') : o'.active = true := by
  cases o with
  | write server flag =>
    cases flag <;> cases h
    rfl
  | evacRead fromServer toServer =>
    simp only [next] at h
    split at h <;> cases h
    rfl
  | _ =>
    cases h
    try rfl

theorem Op.active_of_evacTarget (h : n ∈ Op.evacTarget o) : o.active = true := by
  cases o <;> first | rfl | cases h

theorem Op.next_evacTarget (h : Op.next r k o = some o') (hn : n ∈ o'.evacTarget) :
    (∃ fromServer, o = .evacWrite fromServer n) ∨ ∃ fromServer, o = .evacSub fromServer n := by
  cases o with
  | evacWrite fromServer toServer =>
    cases h
    cases hn
    exact .inl ⟨_, rfl⟩
  | evacSub fromServer toServer =>
    cases h
    cases hn
    exact .inr ⟨_, rfl⟩
  | write server flag =>
    cases flag <;> cases h
    cases hn
  | evacRead fromServer toServer =>
    simp only [next] at h
    split at h <;> cases h
    cases hn
  | _ =>
    cases h
    try cases hn

namespace Conn

theorem activeOps_spawn {k : Conn} :
    (k.spawn owner o).activeOps = k.activeOps ++ if o.active then [(owner, o)] else [] := by
  simp only [activeOps, spawn, List.filter_append, List.filter_singleton, cond_eq_ite]

theorem busy_eq_false {k : Conn} : k.busy = false ↔ k.activeOps = [] := by
  simp [busy]

theorem ops_advance {k : Conn} (ho : k.ops[i]? = some (owner, o)) :
    ∃ l₁ l₂, k.ops = l₁ ++ (owner, o) :: l₂ ∧
      (k.advance r i owner o).ops = l₁ ++ ((o.next r k).map (owner, ·)).toList ++ l₂ := by
  obtain ⟨hi, hget⟩ := List.getElem?_eq_some_iff.mp ho
  refine ⟨k.ops.take i, k.ops.drop (i + 1), ?_, ?_⟩
  · rw [← hget, ← List.drop_eq_getElem_cons hi, List.take_append_drop]
  · simp only [advance]
    cases o.next r k with
    | none => simp [List.eraseIdx_eq_take_drop_succ]
    | some o' => simp [List.set_eq_take_append_cons_drop, hi]

theorem activeOps_advance {k : Conn} (h : k.Orderly r) (ho : k.ops[i]? = some (owner, o))
    (ha : o.active = true) : k.activeOps = [(owner, o)] ∧
      (k.advance r i owner o).activeOps = ((o.next r k).map (owner, ·)).toList := by
  obtain ⟨l₁, l₂, hops, hops'⟩ := ops_advance (r := r) ho
  have hsin := h.single
  simp only [activeOps, hops, List.filter_append, List.filter_cons, ha, if_true, List.length_append,
    List.length_cons] at hsin
  have hl₁ : l₁.filter (fun p => p.2.active) = [] := List.length_eq_zero_iff.mp (by omega)
  have hl₂ : l₂.filter (fun p => p.2.active) = [] := List.length_eq_zero_iff.mp (by omega)
  refine ⟨by simp [activeOps, hops, hl₁, hl₂, ha], ?_⟩
  simp only [activeOps, hops', List.filter_append, hl₁, hl₂, List.nil_append, List.append_nil]
  cases hn : o.next r k with
  | none => rfl
  | some o' => simp [Op.next_active hn]

theorem charge_of_activeOps {k : Conn} (h : k.activeOps = [(owner, o)]) :
    k.charge = o.charge k := by
  rw [charge, h]

theorem charge_of_idle {k : Conn} (h : k.activeOps = []) : k.charge = k.currentServer := by
  rw [charge, h]

variable {r : ServerRegistry}

theorem covers_named (n : String) : Covers r ((r.get n).map .add) none (some n) := by
  cases hn : r.get n with
  | none => exact .unregistered hn
  | some b =>
    have hnm : r.name b = n := ServerRegistry.get_name hn
    rw [← hnm]
    exact .add (by simp [hnm, hn])

theorem covers_released (u : Option String) : Covers r ((u.bind r.get).map .sub) u none := by
  cases u with
  | none => exact .keep
  | some n =>
    cases hn : r.get n with
    | none => simpa [hn] using .drop
    | some b => simpa [hn] using .sub hn

theorem covers_advance {k : Conn} (h : k.Orderly r) (ho : k.ops[i]? = some (owner, o))
    (ha : o.active = true)
    (hadd : ∀ b, o.tick r k = some (.add b) → ∀ d ∈ r.get (r.name b), d = b) :
    Covers r (o.tick r k) k.charge (k.advance r i owner o).charge := by
  obtain ⟨hact, hact'⟩ := activeOps_advance (r := r) h ho ha
  have hmem := List.mem_of_getElem? ho
  rw [charge_of_activeOps hact]
  cases o with
  | evacRead fromServer toServer => cases ha
  | release server flag | connectRelease b server =>
    rw [charge_of_activeOps hact']
    exact covers_released _
  | credit server flag =>
    rw [charge_of_activeOps hact']
    exact covers_named server
  | write server flag =>
    cases flag with
    | true =>
      rw [charge_of_activeOps hact']
      exact .keep
    | false =>
      rw [charge_of_idle hact']
      exact .keep
  | setTransferred | joinWrite server | exitClear =>
    rw [charge_of_idle hact']
    exact .keep
  | connectCredit b server =>
    rw [charge_of_activeOps hact']
    obtain rfl : r.name b = server := h.connects _ hmem (b, server) rfl
    exact .add (hadd b rfl)
  | evacWrite fromServer toServer =>
    rw [charge_of_activeOps hact']
    exact .keep
  | evacSub fromServer toServer =>
    rw [charge_of_activeOps hact']
    exact covers_released (some fromServer)
  | evacAdd toServer =>
    rw [charge_of_idle hact']
    have hcur : (k.advance r i owner (.evacAdd toServer)).currentServer = some toServer :=
      h.evacuated _ hmem toServer rfl
    rw [hcur]
    exact covers_named toServer
  | joinAdd b =>
    rw [charge_of_activeOps hact']
    exact .add (hadd b rfl)
  | switchAdd target =>
    rw [charge_of_activeOps hact']
    exact covers_named target
  | exitFlag =>
    rw [charge_of_activeOps hact']
    cases hf : k.transferred with
    | true => exact .drop
    | false => exact .keep
  | exitRelease transferred =>
    rw [charge_of_activeOps hact']
    cases transferred with
    | true => exact .keep
    | false => exact covers_released _

theorem Orderly.extend (h : Orderly r k) (hv : k.Valid r) (he : r.Extends r') : Orderly r' k := by
  refine ⟨h.single, h.evacuated, ?_⟩
  rintro p hp ⟨b, server⟩ hq
  have hid : b ∈ p.2.ids := by
    revert hq
    cases p.2 <;> simp +contextual [Op.connects, Op.ids, eq_comm]
  have hnm : r'.name b = r.name b := he.name (hv.ops p hp b hid)
  exact hnm.trans (h.connects p hp _ hq)

theorem Orderly.enter {k : Conn} (h : k.Orderly r) : (k.enter p).Orderly r :=
  ⟨h.single, h.evacuated, h.connects⟩

theorem Orderly.spawn {k : Conn} (h : k.Orderly r) (hb : o.active = true → k.busy = false)
    (he : o.evacTarget = none) (hc : ∀ q ∈ o.connects, r.name q.1 = q.2) :
    (k.spawn owner o).Orderly r := by
  refine ⟨?_, ?_, ?_⟩
  · rw [activeOps_spawn]
    split
    · rename_i ha
      rw [busy_eq_false.mp (hb ha)]
      simp
    · simpa using h.single
  · intro p hp n hn
    rcases List.mem_append.mp hp with hp | hp
    · exact h.evacuated p hp n hn
    · rw [List.mem_singleton.mp hp, he] at hn
      cases hn
  · intro p hp
    rcases List.mem_append.mp hp with hp | hp
    · exact h.connects p hp
    · rw [List.mem_singleton.mp hp]
      exact hc

theorem charge_spawn {k : Conn} (hb : o.active = true → k.busy = false)
    (ho : o.active = true → o.charge k = k.currentServer ∨ o.charge k = none) :
    (k.spawn owner o).charge = k.charge ∨ (k.spawn owner o).charge = none := by
  cases ha : o.active with
  | false =>
    have hact : (k.spawn owner o).activeOps = k.activeOps := by simp [activeOps_spawn, ha]
    left
    simp only [charge, hact]
    rfl
  | true =>
    have hid := busy_eq_false.mp (hb ha)
    have hact : (k.spawn owner o).activeOps = [(owner, o)] := by simp [activeOps_spawn, ha, hid]
    rw [charge_of_activeOps hact, charge_of_idle hid]
    exact ho ha

theorem activeOps_evacRead {k : Conn} (ho : k.ops[i]? = some (owner, .evacRead fromServer toServer))
    (hb : k.currentServer = some fromServer → k.busy = false) :
    (k.advance r i owner (.evacRead fromServer toServer)).activeOps =
      if k.currentServer = some fromServer then [(owner, .evacWrite fromServer toServer)]
      else k.activeOps := by
  obtain ⟨l₁, l₂, hops, hops'⟩ := ops_advance (r := r) ho
  have hact : k.activeOps =
      l₁.filter (fun p => p.2.active) ++ l₂.filter (fun p => p.2.active) := by
    simp [activeOps, hops, Op.active]
  split
  · rename_i hc
    have hid := busy_eq_false.mp (hb hc)
    rw [hact, List.append_eq_nil_iff] at hid
    have hw : (Op.evacWrite fromServer toServer).active = true := rfl
    simp [activeOps, hops', Op.next, hc, hw, hid.1, hid.2]
  · rename_i hc
    rw [hact]
    simp [activeOps, hops', Op.next, hc]

theorem charge_evacRead {k : Conn} (ho : k.ops[i]? = some (owner, .evacRead fromServer toServer))
    (hb : k.currentServer = some fromServer → k.busy = false) :
    (k.advance r i owner (.evacRead fromServer toServer)).charge = k.charge := by
  have hact := activeOps_evacRead (r := r) ho hb
  split at hact
  · rename_i hc
    rw [charge_of_activeOps hact, charge_of_idle (busy_eq_false.mp (hb hc)), hc]
    rfl
  · simp only [charge, hact]
    rfl

theorem orderly_advance {k : Conn} (h : k.Orderly r) (ho : k.ops[i]? = some (owner, o))
    (hb : ∀ fromServer toServer, o = .evacRead fromServer toServer →
      k.currentServer = some fromServer → k.busy = false) :
    (k.advance r i owner o).Orderly r := by
  have hmem := List.mem_of_getElem? ho
  refine ⟨?_, ?_, ?_⟩
  · cases ha : o.active with
    | true =>
      rw [(activeOps_advance (r := r) h ho ha).2]
      cases o.next r k <;> simp
    | false =>
      cases o with
      | evacRead fromServer toServer =>
        rw [activeOps_evacRead ho (hb _ _ rfl)]
        split
        · simp
        · exact h.single
      | _ => cases ha
  · intro p hp n hn
    cases ha : o.active with
    | true =>
      -- the operation that has just been advanced is the only active one
      have hp' : p ∈ (k.advance r i owner o).activeOps :=
        List.mem_filter.mpr ⟨hp, Op.active_of_evacTarget hn⟩
      rw [(activeOps_advance (r := r) h ho ha).2, mem_toList] at hp'
      obtain ⟨o', ho', rfl⟩ := map_eq_some_iff.mp hp'
      rcases Op.next_evacTarget ho' hn with ⟨fromServer, rfl⟩ | ⟨fromServer, rfl⟩
      · rfl
      · exact h.evacuated _ hmem n rfl
    | false =>
      cases o with
      | evacRead fromServer toServer =>
        rcases mem_ops_advance hp with hp | ⟨o', ho', rfl⟩
        · exact h.evacuated p hp n hn
        · simp only [Op.next] at ho'
          split at ho' <;> cases ho'
          cases hn
      | _ => cases ha
  · intro p hp q hq
    rcases mem_ops_advance hp with hp | ⟨o', ho', rfl⟩
    · exact h.connects p hp q hq
    · refine h.connects _ hmem q ?_
      cases o with
      | connectRelease b server =>
        cases ho'
        exact hq
      | write server flag =>
        cases flag <;> cases ho'
        cases hq
      | evacRead fromServer toServer =>
        simp only [Op.next] at ho'
        split at ho' <;> cases ho'
        cases hq
      | _ =>
        cases ho'
        try cases hq

end Conn

theorem Covers.le_count {r : ServerRegistry} (h : Covers r t u u') (hg : r.get n = some b)
    (hrm : ∀ d, t = some (.add d) → (r.count d).toNat + 1 < 2 ^ 64)
    (hm : m ≤ (r.count b).toNat) (hpos : u = some n → 0 < m)
    (hm' : m' + (decide (u = some n)).toNat = m + (decide (u' = some n)).toNat) :
    m' ≤ ((r.tick t).count b).toNat := by
  have hb := ServerRegistry.get_valid hg
  have hnm : r.name b = n := ServerRegistry.get_name hg
  cases h with
  | keep =>
    rw [ServerRegistry.tick]
    omega
  | drop =>
    rw [ServerRegistry.tick]
    simp only [reduceCtorEq, decide_false, toNat_false] at hm'
    omega
  | sub hn =>
    rename_i n' b'
    rw [ServerRegistry.tick, ServerRegistry.count_fetchSub hb]
    by_cases hnn : n' = n
    · subst hnn
      obtain rfl : b' = b := Option.some.inj (hn.symm.trans hg)
      have hpos := hpos rfl
      have hle : (1 : UInt64) ≤ r.count b' := by
        exact le_trans hpos hm
      simp only [decide_true, toNat_true, reduceCtorEq, decide_false, toNat_false] at hm'
      rw [if_pos rfl, UInt64.toNat_sub_of_le _ _ hle, UInt64.toNat_one]
      omega
    · have hne : b' ≠ b := by
        rintro rfl
        exact hnn ((ServerRegistry.get_name hn).symm.trans hnm)
      simp only [Option.some.injEq, hnn, reduceCtorEq, decide_false, toNat_false] at hm'
      rw [if_neg hne, UInt64.sub_zero]
      omega
  | add hd =>
    rename_i b'
    rw [ServerRegistry.tick, ServerRegistry.count_fetchAdd hb]
    by_cases hnn : r.name b' = n
    · obtain rfl : b = b' := hd b (by rw [hnn]; exact hg)
      have hrm := hrm b rfl
      simp only [hnn, decide_true, toNat_true, reduceCtorEq, decide_false, toNat_false] at hm'
      rw [if_pos rfl, UInt64.toNat_add, UInt64.toNat_one, Nat.mod_eq_of_lt hrm]
      omega
    · have hne : b' ≠ b := by
        rintro rfl
        exact hnn hnm
      simp only [Option.some.injEq, hnn, reduceCtorEq, decide_false, toNat_false] at hm'
      rw [if_neg hne, UInt64.add_zero]
      omega
  | unregistered hn =>
    rename_i n'
    have hnn : n' ≠ n := by
      rintro rfl
      cases hn.symm.trans hg
    simp only [Option.some.injEq, hnn, reduceCtorEq, decide_false, toNat_false] at hm'
    rw [ServerRegistry.tick]
    omega

structure State.Covered (s : State) : Prop where
  valid : s.Valid
  orderly : ∀ k ∈ s.conns, k.Orderly s.registry
  covered : ∀ n b, s.registry.get n = some b → s.charged n ≤ (s.registry.count b).toNat

theorem State.Covered.replace {s s' : State} (h : s.Covered) (hv : s'.Valid)
    (hc : s.conns[c]? = some k) (hcon : s'.conns = s.conns.set c k')
    (hreg : s'.registry = s.registry.tick t) (ho : k'.Orderly s.registry)
    (hcov : Covers s.registry t k.charge k'.charge)
    (hrm : ∀ d, t = some (.add d) → (s.registry.count d).toNat + 1 < 2 ^ 64) :
    s'.Covered := by
  refine ⟨hv, ?_, ?_⟩
  · have he : s.registry.Agrees s'.registry := by
      rw [hreg]
      exact .tick
    intro q hq
    rw [hcon] at hq
    rcases List.mem_or_eq_of_mem_set hq with hq | rfl
    · have hq := h.orderly q hq
      exact ⟨hq.single, hq.evacuated, fun p hp x hx => (he.name _).trans (hq.connects p hp x hx)⟩
    · exact ⟨ho.single, ho.evacuated, fun p hp x hx => (he.name _).trans (ho.connects p hp x hx)⟩
  · intro n b hg
    rw [hreg, ServerRegistry.get_tick] at hg
    rw [hreg, State.charged, hcon]
    refine hcov.le_count hg hrm (h.covered n b hg) ?_ ?_
    · intro hk
      exact List.countP_pos_iff.mpr ⟨k, List.mem_of_getElem? hc, by simpa using hk⟩
    · exact countP_set_add hc k'

def BindsOldOr (stored : Option (String × UInt64)) (r r' : ServerRegistry) : Prop :=
  ∀ n b, r'.get n = some b →
    r.get n = some b ∧ r'.count b = r.count b ∨ stored = some (n, r'.count b)

namespace BindsOldOr

variable {r : ServerRegistry}

theorem refl : BindsOldOr stored r r := fun _ _ hg => .inl ⟨hg, rfl⟩

theorem remove : BindsOldOr stored r (r.remove n) :=
  fun _ _ hg => .inl ⟨ServerRegistry.get_of_get_remove hg, rfl⟩

theorem register : BindsOldOr (some (srv.name, srv.playerCount)) r (r.register srv) := by
  intro n b hg
  by_cases hn : n = srv.name
  · subst hn
    rw [ServerRegistry.get_register_self] at hg
    cases hg
    simp [ServerRegistry.count]
  · rw [ServerRegistry.get_register_ne hn] at hg
    have hb := ServerRegistry.get_valid hg
    exact .inl ⟨hg, congrArg BackendServer.playerCount (ServerRegistry.server_register hb)⟩

theorem update (hf : ∀ s, (f s).name = s.name) (hp : ∀ s, (f s).playerCount = s.playerCount) :
    BindsOldOr stored r (r.update b f hf) :=
  fun _ _ hg => .inl ⟨hg, ServerRegistry.update_field hp⟩

theorem storeCount : BindsOldOr (if r.get (r.name b) = some b then some (r.name b, count) else none)
    r (r.storeCount b count) := by
  intro n d hg
  have hg : r.get n = some d := hg
  by_cases hd : b = d
  · subst hd
    have hnm : r.name b = n := ServerRegistry.get_name hg
    have hcnt : (r.storeCount b count).count b = count :=
      congrArg BackendServer.playerCount (ServerRegistry.server_update_self
        (ServerRegistry.get_valid hg))
    right
    rw [hnm, if_pos hg, hcnt]
  · exact .inl ⟨hg, congrArg BackendServer.playerCount (ServerRegistry.server_update_ne hd)⟩

end BindsOldOr

theorem RegistryChange.binds (h : RegistryChange s l r) :
    BindsOldOr (storedCount s l) s.registry r := by
  cases h with
  | same => exact .refl
  | update hf hm hp => exact .update hf hp
  | inserting ht | reloading ht =>
    simp only [storedCount, ht]
    exact .register
  | counting ht =>
    simp only [storedCount, ht]
    exact .storeCount
  | remove => exact .remove
  | reorder hp =>
    intro n b hg
    exact .inl ⟨by simpa using hg, rfl⟩

theorem startsOn_spawned (h : spawned s l = some (c, o)) (hk : s.conns[c]? = some k)
    (ha : o.active = true) : startsOn s l = some k := by
  cases l with
  | connect d server =>
    obtain ⟨b, -, heq⟩ := map_eq_some_iff.mp h
    cases heq
    exact hk
  | transfer uuid server flag =>
    obtain ⟨d, hd, heq⟩ := map_eq_some_iff.mp h
    cases heq
    simp [startsOn, hd, hk]
  | task i =>
    simp only [spawned] at h
    split at h <;> cases h
    cases ha
  | _ => cases h

theorem ConnsChange.charged (h : ConnsChange s l ks) (hok : ∀ k ∈ startsOn s l, k.busy = false) :
    ks.countP (fun k => k.charge = some n) ≤ s.charged n := by
  cases h with
  | same => exact le_rfl
  | accept => simp [State.charged, Conn.charge, Conn.new, Conn.activeOps]
  | spawn hs hk =>
    rename_i c o k owner
    have hb : o.active = true → k.busy = false := fun ha => hok k (startsOn_spawned hs hk ha)
    have hch : (k.spawn owner o).charge = k.charge ∨ (k.spawn owner o).charge = none := by
      refine Conn.charge_spawn hb ?_
      have hst := spawned_starts hs
      intro _
      cases o with
      | release | connectRelease | evacRead => exact .inl rfl
      | _ => exact hst.elim
    have hcnt := countP_set_add (p := fun k : Conn => decide (k.charge = some n)) hk
      (k.spawn owner o)
    rw [State.charged]
    rcases hch with hch | hch
    · rw [hch] at hcnt
      omega
    · rw [hch] at hcnt
      simp only [reduceCtorEq, decide_false, toNat_false] at hcnt
      omega

theorem ConnsChange.orderly (h : ConnsChange s l ks) (hs : s.Covered)
    (hok : ∀ k ∈ startsOn s l, k.busy = false) :
    ∀ k ∈ ks, k.Valid s.registry ∧ k.Orderly s.registry := by
  intro k' hk'
  cases h with
  | same => exact ⟨hs.valid k' hk', hs.orderly k' hk'⟩
  | accept =>
    rcases List.mem_append.mp hk' with hk' | hk'
    · exact ⟨hs.valid k' hk', hs.orderly k' hk'⟩
    · rw [List.mem_singleton.mp hk']
      exact ⟨⟨by simp [Conn.new, Phase.ids], by simp [Conn.new]⟩,
        ⟨by simp [Conn.new, Conn.activeOps], by simp [Conn.new], by simp [Conn.new]⟩⟩
  | spawn hsp hk =>
    rename_i c o k owner
    have hst := spawned_starts hsp
    rcases List.mem_or_eq_of_mem_set hk' with hk' | rfl
    · exact ⟨hs.valid k' hk', hs.orderly k' hk'⟩
    · have hmem := List.mem_of_getElem? hk
      refine ⟨(hs.valid k hmem).spawn hst.valid, (hs.orderly k hmem).spawn ?_ ?_ ?_⟩
      · exact fun ha => hok k (startsOn_spawned hsp hk ha)
      · cases o <;> first | rfl | exact hst.elim
      · intro q hq
        cases o with
        | connectRelease b server =>
          cases hq
          exact ServerRegistry.get_name hst
        | connectCredit b server => exact hst.elim
        | _ => cases hq

theorem Moves.orderly (hm : Moves cfg s k m k' e) (hc : s.conns[c]? = some k)
    (hok : ∀ k ∈ startsOn s (.move c m), k.busy = false) (h : k.Orderly s.registry) :
    k'.Orderly s.registry ∧ Covers s.registry none k.charge k'.charge := by
  have hcov : ∀ {k'' : Conn}, k''.charge = k.charge ∨ k''.charge = none →
      Covers s.registry none k.charge k''.charge := by
    rintro k'' (hk | hk)
    · rw [hk]
      exact .keep
    · rw [hk]
      exact .drop
  have hcre : ∀ {b credit}, k.busy = false → (k.startCredit b credit).Orderly s.registry ∧
      Covers s.registry none k.charge (k.startCredit b credit).charge := by
    intro b credit hb
    rcases credit with (_ | d) | target
    · exact ⟨h.enter, .keep⟩
    all_goals
      refine ⟨h.enter.spawn (fun _ => hb) rfl (by simp [Op.connects]), hcov ?_⟩
      exact Conn.charge_spawn (fun _ => hb) fun _ => .inr rfl
  cases hm with
  | joined hp | login hp => exact hcre (hok k hc)
  | stopRelay hp hi =>
    refine ⟨h.enter.spawn (fun _ => hok k hc) rfl (by simp [Op.connects]), hcov ?_⟩
    exact Conn.charge_spawn (fun _ => hok k hc) fun _ => .inl rfl
  | _ => exact ⟨h.enter, .keep⟩

theorem step_covered (h : step cfg s l = some s') (hs : s.Covered) (hok : CountsSafely s l) :
    s'.Covered := by
  have hv := step_valid h hs.valid
  by_cases hl : l.quiet = true
  · have hcon := step_quiet_conns hl h
    have hcha : ∀ n, s'.charged n ≤ s.charged n := fun n => hcon.charged hok.alone
    refine ⟨hv, ?_, ?_⟩
    · intro k hk
      obtain ⟨hvk, hok⟩ := hcon.orderly hs hok.alone k hk
      exact hok.extend hvk (step_extends h)
    · intro n b hg
      refine (hcha n).trans ?_
      rcases (step_quiet_registry hl h).binds n b hg with ⟨hg, hcnt⟩ | hst
      · rw [hcnt]
        exact hs.covered n b hg
      · exact hok.stored _ hst
  · cases l with
    | move c m =>
      obtain ⟨k, k', e, hk, hm, rfl⟩ := step_move h
      have hm := Conn.moves_of_move hm
      obtain ⟨ho, hc⟩ := hm.orderly hk hok.alone (hs.orderly k (List.mem_of_getElem? hk))
      exact hs.replace (t := none) hv hk (by simp) (by simp [ServerRegistry.tick]) ho hc (by simp)
    | access c i =>
      obtain ⟨k, owner, o, hk, ho, rfl⟩ := step_access h
      have hord := hs.orderly k (List.mem_of_getElem? hk)
      have hevac : ∀ fromServer toServer, o = .evacRead fromServer toServer →
          k.currentServer = some fromServer → k.busy = false := by
        rintro fromServer toServer rfl hc
        exact hok.alone k (by simp [startsOn, hk, ho, hc])
      have hadd : ∀ b, o.tick s.registry k = some (.add b) →
          incremented s (.access c i) = some b := by
        intro b hb
        simp [incremented, hk, ho, hb]
      refine hs.replace hv hk rfl rfl (Conn.orderly_advance hord ho hevac) ?_ ?_
      · cases ha : o.active with
        | true =>
          exact Conn.covers_advance hord ho ha fun b hb => hok.current b (hadd b hb)
        | false =>
          cases o with
          | evacRead fromServer toServer =>
            rw [Conn.charge_evacRead ho (hevac _ _ rfl)]
            exact .keep
          | _ => cases ha
      · intro b hb
        exact hok.room b (hadd b hb)
    | _ => exact absurd rfl hl

theorem Conn.charge_of_sub {k : Conn} {i : Nat} {o : Op} (h : k.Orderly r)
    (ho : k.ops[i]? = some (owner, o))
    (ht : o.tick r k = some (.sub b)) : ∃ n, k.charge = some n ∧ r.get n = some b := by
  have hcha : o.active = true → k.charge = o.charge k := fun ha =>
    charge_of_activeOps (activeOps_advance (r := r) h ho ha).1
  have hcur : (k.currentServer.bind r.get).map Tick.sub = some (.sub b) →
      ∃ n, k.currentServer = some n ∧ r.get n = some b := by
    intro hsub
    obtain ⟨d, hd, heq⟩ := map_eq_some_iff.mp hsub
    cases heq
    exact bind_eq_some_iff.mp hd
  cases o with
  | release server flag | connectRelease d server =>
    rw [hcha rfl]
    exact hcur ht
  | evacSub fromServer toServer =>
    rw [hcha rfl]
    obtain ⟨d, hd, heq⟩ := map_eq_some_iff.mp ht
    cases heq
    exact ⟨fromServer, rfl, hd⟩
  | exitRelease transferred =>
    cases transferred with
    | true => cases ht
    | false =>
      rw [hcha rfl]
      exact hcur ht
  | credit server flag | evacAdd toServer | switchAdd target => simp [Op.tick] at ht
  | _ => cases ht

/-- In every run that meets the condition at each step, no access is about to decrement a counter
that is zero. -/
theorem count_ne_zero_of_sub {c : ConnId} {k : Conn} {i : Nat} {o : Op}
    (h : Run (step cfg) CountsSafely (.start cfg r gs) s)
    (hk : s.conns[c]? = some k) (ho : k.ops[i]? = some (owner, o))
    (ht : o.tick s.registry k = some (.sub b)) : s.registry.count b ≠ 0 := by
  have hinv : s.Covered := by
    refine h.invariant ⟨start_valid, ?_, ?_⟩ fun t l u ht hok hu => step_covered hu ht hok
    · intro k hk
      cases hk
    · intro n b _
      exact Nat.zero_le _
  have hmem := List.mem_of_getElem? hk
  obtain ⟨n, hn, hget⟩ := Conn.charge_of_sub (hinv.orderly k hmem) ho ht
  have hpos : 0 < s.charged n := List.countP_pos_iff.mpr ⟨k, hmem, by simpa using hn⟩
  have hle := hinv.covered n b hget
  intro hzero
  rw [hzero, UInt64.toNat_zero] at hle
  omega

def exitMoves (c : ConnId) : List Label := [.move c (.stopRelay .disconnected), .access c 0]

theorem count_ne_zero_of_sub_exit :
    ∃ s k, Run (step lobbyConfig) CountsSafely (.start lobbyConfig (lobbyFor 1) ∅) s ∧
      s.conns[0]? = some k ∧ k.ops[0]? = some (.own, .exitRelease false) ∧
      (Op.exitRelease false).tick s.registry k = some (.sub 0) ∧ s.registry.count 0 ≠ 0 := by
  have hrun : Run (step lobbyConfig) CountsSafely (.start lobbyConfig (lobbyFor 1) ∅) _ :=
    Run.of_exec ([.accept 1 (.v4 1) 765] ++ joinMoves 0 ++ [.move 0 (.startRelay true)] ++
      exitMoves 0) rfl
  exact ⟨_, _, hrun, rfl, rfl, rfl, count_ne_zero_of_sub (c := 0) (i := 0) hrun rfl rfl rfl⟩

/-- A server registered again while a player is on it counts from zero, and the player's exit makes
the counter wrap around. -/
theorem count_wraps :
    ∃ s k s', Run (step lobbyConfig) (fun _ _ => True) (.start lobbyConfig (lobbyFor 1) ∅) s ∧
      s.conns[0]? = some k ∧ k.ops[0]? = some (.own, .exitRelease false) ∧
      (Op.exitRelease false).tick s.registry k = some (.sub 1) ∧ s.registry.count 1 = 0 ∧
      step lobbyConfig s (.access 0 0) = some s' ∧ (s'.registry.count 1).toNat = 2 ^ 64 - 1 := by
  have hrun : Run (step lobbyConfig) (fun _ _ => True) (.start lobbyConfig (lobbyFor 1) ∅) _ :=
    Run.of_exec ([.accept 1 (.v4 1) 765] ++ joinMoves 0 ++ [.move 0 (.startRelay true),
      .register "lobby" loopback 1, .task 0] ++ exitMoves 0) rfl
  exact ⟨_, _, _, hrun, rfl, rfl, rfl, rfl, rfl, by decide⟩

end Kojacoord
