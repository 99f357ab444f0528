import Kojacoord.Proxy.Handover

namespace Kojacoord
open Runs List

def Op.isExit : Op → Bool
  | .exitFlag | .exitRelease _ | .exitClear => true
  | _ => false

def Phase.isDraining : Phase → Bool
  | .draining _ => true
  | _ => false

namespace Conn

def home (r : ServerRegistry) (k : Conn) : Option ServerId :=
  if ∀ p ∈ k.ops, p.2.joinName r = none then k.phase.residence else none

theorem home_eq_some {k : Conn} :
    k.home r = some b ↔ (∀ p ∈ k.ops, p.2.joinName r = none) ∧ k.phase.residence = some b := by
  rw [home, Option.ite_none_right_eq_some]

theorem home_enter {k : Conn} (hp : p.residence = none ∨ p.residence = k.phase.residence)
    (h : (k.enter p).home r = some b) : k.home r = some b := by
  obtain ⟨hops, hres⟩ := home_eq_some.mp h
  refine home_eq_some.mpr ⟨hops, ?_⟩
  rcases hp with hp | hp
  · rw [enter, hp] at hres
    cases hres
  · exact hp.symm.trans hres

theorem home_spawn {k : Conn} (h : (k.spawn owner o).home r = some b) :
    k.home r = some b ∧ o.joinName r = none := by
  obtain ⟨hops, hres⟩ := home_eq_some.mp h
  refine ⟨home_eq_some.mpr ⟨fun p hp => hops p (mem_append_left _ hp), hres⟩, ?_⟩
  exact hops (owner, o) (mem_append_right _ (mem_singleton.mpr rfl))

structure Resides (r : ServerRegistry) (k : Conn) : Prop where
  home : ∀ b ∈ k.home r, k.currentServer = some (r.name b)
  exits : ∀ p ∈ k.ops, p.2.isExit = true → p.1 = .own ∧ k.phase.isDraining = true

end Conn

def overwrites (s : State) : Label → Option (ServerId × String)
  | .access c i =>
    match s.conns[c]? with
    | some k =>
      match k.home s.registry, k.ops[i]? with
      | some b, some (_, .write server _) => some (b, server)
      | some b, some (_, .evacWrite _ toServer) => some (b, toServer)
      | _, _ => none
    | none => none
  | _ => none

/-- No transfer or evacuation writes another name than that of the backend the player is on, and
the choice after limbo agrees with the dialed server. -/
structure KeepsResidence (cfg : ProxyConfig) (s : State) (l : Label) : Prop where
  routes : RoutesToDialed cfg s l
  writes : ∀ p ∈ overwrites s l, p.2 = s.registry.name p.1

instance : Decidable (KeepsResidence cfg s l) :=
  decidable_of_iff (RoutesToDialed cfg s l ∧ ∀ p ∈ overwrites s l, p.2 = s.registry.name p.1)
    ⟨fun ⟨hr, hw⟩ => ⟨hr, hw⟩, fun h => ⟨h.routes, h.writes⟩⟩

theorem Conn.Resides.extend (h : Resides r k) (hv : k.Valid r) (he : r.Extends r') : Resides r' k := by
  refine ⟨?_, h.exits⟩
  intro b hb
  obtain ⟨hops, hres⟩ := home_eq_some.mp hb
  have hops' : ∀ p ∈ k.ops, p.2.joinName r = none := by
    intro p hp
    rw [← Op.joinName_extends (hv.ops p hp) he]
    exact hops p hp
  have hid : b ∈ k.phase.ids := by
    revert hres
    cases k.phase <;> simp [Phase.residence, Phase.ids, eq_comm]
  have hnm : r'.name b = r.name b := he.name (hv.phase b hid)
  rw [hnm]
  exact h.home b (home_eq_some.mpr ⟨hops', hres⟩)

theorem Conn.Resides.enter (h : Resides r k)
    (hp : p.residence = none ∨ p.residence = k.phase.residence)
    (hd : k.phase.isDraining = false ∨ k.ownIdle = true) : Resides r (k.enter p) := by
  refine ⟨fun b hb => h.home b (home_enter hp hb), ?_⟩
  intro q hq he
  obtain ⟨hown, hdr⟩ := h.exits q hq he
  rcases hd with hd | hd
  · rw [hd] at hdr
    cases hdr
  · exact absurd hown (by simpa using all_eq_true.mp hd q hq)

theorem Conn.Resides.startCredit (h : Resides r k) (hc : credit.name r = some (r.name b))
    (hd : k.phase.isDraining = false) : Resides r (k.startCredit b credit) := by
  have hexits : ∀ p ∈ k.ops, p.2.isExit = false := by
    intro p hp
    by_contra he
    have hdr := (h.exits p hp (by simpa using he)).2
    rw [hd] at hdr
    cases hdr
  rcases credit with (_ | d) | target
  · cases hc
  all_goals
    refine ⟨fun b' hb => ?_, fun p hp he => ?_⟩
    · cases (home_spawn hb).2
    · rcases mem_append.mp hp with hp | hp
      · rw [hexits p hp] at he
        cases he
      · rw [mem_singleton.mp hp] at he
        cases he

theorem Moves.resides (hm : Moves cfg s k m k' e) (hf : k.Follows s.registry)
    (h : k.Resides s.registry) : k'.Resides s.registry := by
  cases hm with
  | joined hp => exact h.startCredit rfl (by rw [hp]; rfl)
  | login hp =>
    have hc := hf.phase
    rw [hp] at hc
    exact h.startCredit hc (by rw [hp]; rfl)
  | stopRelay hp hi =>
    rename_i b why
    have hd := h.enter (p := .draining why) (.inl rfl) (.inr hi)
    refine ⟨fun b hb => hd.home b (Conn.home_spawn hb).1, fun p hp' he => ?_⟩
    rcases mem_append.mp hp' with hp' | hp'
    · exact hd.exits p hp' he
    · rw [mem_singleton.mp hp']
      exact ⟨rfl, rfl⟩
  | finishRelay hp hi =>
    rename_i why _
    exact h.enter (.inl (by cases why <;> rfl)) (.inr hi)
  | leaveFailed hp | fail hp =>
    rename_i leg _
    exact h.enter (.inl (by cases leg <;> rfl)) (.inl (by rw [hp]; rfl))
  | loginFailed hp =>
    rename_i credit
    exact h.enter (.inl (by cases credit <;> rfl)) (.inl (by rw [hp]; rfl))
  | toReset hp hi | attach hp hi | worldReset hp | startRelay hp =>
    exact h.enter (.inr (by rw [hp]; rfl)) (.inl (by rw [hp]; rfl))
  | _ hp => exact h.enter (.inl rfl) (.inl (by rw [hp]; rfl))

theorem Conn.mem_ops_of_advance {k : Conn} (ho : k.ops[i]? = some (owner, o)) (hp : p ∈ k.ops) :
    p = (owner, o) ∨ p ∈ (k.advance r i owner o).ops := by
  obtain ⟨j, hj⟩ := mem_iff_getElem?.mp hp
  by_cases hij : i = j
  · subst hij
    exact .inl (Option.some.inj (hj.symm.trans ho))
  · right
    simp only [advance]
    split
    · exact mem_of_getElem? ((getElem?_set_ne hij).trans hj)
    · exact mem_eraseIdx_iff_getElem?.mpr ⟨j, .symm hij, hj⟩

theorem Conn.home_advance {k : Conn} (ho : k.ops[i]? = some (owner, o))
    (hj : o.joinName r = none ∨ ∃ o', o.next r k = some o')
    (h : (k.advance r i owner o).home r = some b) : k.home r = some b := by
  obtain ⟨hops, hres⟩ := home_eq_some.mp h
  rw [phase_advance] at hres
  refine home_eq_some.mpr ⟨?_, hres⟩
  intro p hp
  rcases mem_ops_of_advance (r := r) ho hp with rfl | hp
  · rcases hj with hj | ⟨o', ho'⟩
    · exact hj
    · -- the successor of the operation is still in flight under the same name
      have hmem : (owner, o') ∈ (k.advance r i owner o).ops := by
        simp only [advance, ho']
        exact List.mem_set (List.getElem?_eq_some_iff.mp ho).1 _
      rw [← Op.next_joinName ho']
      exact hops _ hmem
  · exact hops p hp

theorem Op.next_isExit (h : Op.next r k o = some o') : o'.isExit = o.isExit := by
  cases o with
  | write server flag =>
    cases flag <;> cases h
    rfl
  | evacRead fromServer toServer =>
    simp only [next] at h
    split at h <;> cases h
    rfl
  | _ =>
    cases h
    try rfl

theorem Conn.advance_resides {k : Conn} (hc : s.conns[c]? = some k)
    (ho : k.ops[i]? = some (owner, o)) (hok : ∀ p ∈ overwrites s (.access c i),
      p.2 = s.registry.name p.1) (hf : k.Follows s.registry) (h : k.Resides s.registry) :
    (k.advance s.registry i owner o).Resides s.registry := by
  have hmem := mem_of_getElem? ho
  refine ⟨?_, ?_⟩
  · intro b hb
    cases o with
    | write server flag =>
      have hhome := home_advance ho (.inl rfl) hb
      have hw := hok (b, server) (by simp [overwrites, hc, ho, hhome])
      exact congrArg some hw
    | evacWrite fromServer toServer =>
      have hhome := home_advance ho (.inl rfl) hb
      have hw := hok (b, toServer) (by simp [overwrites, hc, ho, hhome])
      exact congrArg some hw
    | joinWrite server =>
      -- the name written is that of the backend being attached
      have hnm := (hf.ops _ hmem server rfl).2
      obtain ⟨-, hres⟩ := home_eq_some.mp hb
      rw [phase_advance] at hres
      cases hph : k.phase with
      | attaching b' switched =>
        rw [hph] at hnm hres
        cases hres
        exact hnm.symm
      | _ =>
        rw [hph] at hnm
        cases hnm
    | exitClear =>
      -- a drained relay is on no backend
      have hdr := (h.exits _ hmem rfl).2
      obtain ⟨-, hres⟩ := home_eq_some.mp hb
      rw [phase_advance] at hres
      revert hdr hres
      cases k.phase <;> simp [Phase.isDraining, Phase.residence]
    | joinAdd d | switchAdd target => exact h.home b (home_advance ho (.inr ⟨_, rfl⟩) hb)
    | _ => exact h.home b (home_advance ho (.inl rfl) hb)
  · intro p hp he
    rw [phase_advance]
    rcases mem_ops_advance hp with hp | ⟨o', ho', rfl⟩
    · exact h.exits p hp he
    · exact h.exits (owner, o) hmem ((Op.next_isExit ho').symm.trans he)

theorem Op.Starts.isExit {o : Op} (h : o.Starts r) : o.isExit = false := by
  cases o <;> first | rfl | cases h

def State.Resident (s : State) : Prop :=
  ∀ k ∈ s.conns, k.Valid s.registry ∧ k.Follows s.registry ∧ k.Resides s.registry

theorem step_resident (h : step cfg s l = some s') (hs : s.Resident)
    (hok : KeepsResidence cfg s l) : s'.Resident := by
  refine step_forall (P := fun r k => k.Valid r ∧ k.Follows r ∧ k.Resides r) h hs ?_ ?_ ?_ ?_ ?_
  · rintro k he ⟨hv, hf, hr⟩
    exact ⟨hv.extend he, hf.extend hv he, hr.extend hv he⟩
  · intro uuid ip v
    refine ⟨⟨by simp [Conn.new, Phase.ids], by simp [Conn.new]⟩, ⟨trivial, by simp [Conn.new]⟩,
      ?_, by simp [Conn.new]⟩
    intro b hb
    cases (Conn.home_eq_some.mp hb).2
  · rintro k owner o ho ⟨hv, hf, hr⟩
    refine ⟨hv.spawn ho.valid, hf.spawn (by simp [ho.joinName]),
      fun b hb => hr.home b (Conn.home_spawn hb).1, fun p hp he => ?_⟩
    rcases mem_append.mp hp with hp | hp
    · exact hr.exits p hp he
    · rw [mem_singleton.mp hp, ho.isExit] at he
      cases he
  · rintro c m k k' e rfl hk hm ⟨hv, hf, hr⟩
    have hm' := Conn.moves_of_move hm
    exact ⟨Conn.move_valid hv hm, hm'.follows hk hok.routes hf, hm'.resides hf hr⟩
  · rintro c i k owner o rfl hk ho ⟨hv, hf, hr⟩
    exact ⟨Conn.advance_valid hv ho, Conn.advance_follows hf ho,
      Conn.advance_resides hk ho hok.writes hf hr⟩

/-- In every run that meets the condition at each step, the session of a player whose relay runs
names the backend that the relay pumps. -/
theorem currentServer_pumped (h : Run (step cfg) (KeepsResidence cfg) (.start cfg r gs) s)
    (hk : k ∈ s.conns) (hp : k.phase = .pumping b) :
    k.currentServer = some (s.registry.name b) := by
  have hinv : s.Resident := by
    refine h.invariant ?_ fun t l u ht hok hu => step_resident hu ht hok
    intro k hk
    cases hk
  obtain ⟨-, hf, hr⟩ := hinv k hk
  refine hr.home b (Conn.home_eq_some.mpr ⟨hf.noJoin (.inl ?_), ?_⟩)
  · rw [hp]
    rfl
  · rw [hp]
    rfl

theorem currentServer_pumped_lobby :
    ∃ s k, Run (step lobbyConfig) (KeepsResidence lobbyConfig)
        (.start lobbyConfig (lobbyFor 1) ∅) s ∧ k ∈ s.conns ∧ k.phase = .pumping 0 ∧
      k.currentServer = some (s.registry.name 0) := by
  have hrun : Run (step lobbyConfig) (KeepsResidence lobbyConfig)
      (.start lobbyConfig (lobbyFor 1) ∅) _ :=
    Run.of_exec ([.accept 1 (.v4 1) 765] ++ joinMoves 0 ++ [.move 0 (.startRelay true)]) rfl
  exact ⟨_, _, hrun, mem_cons_self, rfl,
    currentServer_pumped hrun mem_cons_self rfl⟩

/-- A management transfer renames the server of a player whose relay still pumps the lobby. -/
theorem currentServer_not_pumped :
    ∃ s k, Run (step lobbyConfig) (fun _ _ => True) (.start lobbyConfig (lobbyFor 1) ∅) s ∧
      k ∈ s.conns ∧ k.phase = .pumping 0 ∧ s.registry.name 0 = "lobby" ∧
      k.currentServer = some "game" := by
  have hrun : Run (step lobbyConfig) (fun _ _ => True) (.start lobbyConfig (lobbyFor 1) ∅) _ :=
    Run.of_exec ([.accept 1 (.v4 1) 765] ++ joinMoves 0 ++ [.move 0 (.startRelay true),
      .transfer 1 "game" true, .access 0 0, .access 0 0, .access 0 0]) rfl
  exact ⟨_, _, hrun, mem_cons_self, rfl, rfl, rfl⟩

end Kojacoord
