import Kojacoord.Lib.Runs
import Kojacoord.Proxy.Valid

namespace Kojacoord
open Runs List Option

def ServerRegistry.name (r : ServerRegistry) (b : ServerId) : String := (r.server b).name

def Credit.name (r : ServerRegistry) : Credit → Option String
  | .held selected => selected.map r.name
  | .named target => some target

def Op.joinName (r : ServerRegistry) : Op → Option String
  | .joinAdd b => some (r.name b)
  | .switchAdd target => some target
  | .joinWrite server => some server
  | _ => none

/-- The choice made for a stream that limbo dialed to the first server: the record whose settings,
name and counter will be used. -/
def limboChoice (cfg : ProxyConfig) (s : State) : Label → Option (ServerId × Option ServerId)
  | .move c (.route roll) =>
    match s.conns[c]? with
    | some k =>
      match k.phase with
      | .leftLimbo .join b =>
        match cfg.routing.selectWithRegion s.registry k.clientIp roll with
        | some _ => none
        | none => some (b, none)
      | _ => none
    | none => none
  | .move c .findGroup =>
    match s.conns[c]? with
    | some k =>
      match k.phase with
      | .routing b (.selected d) =>
        match s.groups.getGroupForServer (s.registry.name d) with
        | some _ => none
        | none => some (b, some d)
      | _ => none
    | none => none
  | .move c .swapActive =>
    match s.conns[c]? with
    | some k =>
      match k.phase with
      | .routing b (.swapping d active) => some (b, some (swapInActive s.registry d active))
      | _ => none
    | none => none
  | _ => none

def RoutesToDialed (cfg : ProxyConfig) (s : State) (l : Label) : Prop :=
  ∀ p ∈ limboChoice cfg s l, p.2.map s.registry.name = some (s.registry.name p.1)

instance : Decidable (RoutesToDialed cfg s l) := inferInstanceAs (Decidable (∀ _ ∈ _, _))

def Leg.Follows (r : ServerRegistry) (b : ServerId) : Leg → Prop
  | .join => True
  | .switch target => r.name b = target

/-- The dialed server is the pinned target, and the server about to be recorded is the dialed one. -/
def Phase.Follows (r : ServerRegistry) : Phase → Prop
  | .polled leg b | .full leg b | .vacant leg b | .limboDialing leg b | .admitted leg b
  | .departing leg b | .leftLimbo leg b => leg.Follows r b
  | .loggingIn b _ credit => credit.name r = some (r.name b)
  | _ => True

def Phase.attachName (r : ServerRegistry) : Phase → Option String
  | .attaching b _ => some (r.name b)
  | _ => none

structure Conn.Follows (r : ServerRegistry) (k : Conn) : Prop where
  phase : k.phase.Follows r
  ops : ∀ p ∈ k.ops, ∀ n ∈ p.2.joinName r, p.1 = .own ∧ k.phase.attachName r = some n

theorem Phase.Follows.extend {p : Phase} (h : p.Follows r) (hv : ∀ b ∈ p.ids, b < r.heap.length)
    (he : r.Extends r') : p.Follows r' := by
  have hnm : ∀ b ∈ p.ids, r'.name b = r.name b := fun b hb => he.name (hv b hb)
  cases p with
  | polled leg b | full leg b | vacant leg b | limboDialing leg b | admitted leg b
  | departing leg b | leftLimbo leg b =>
    cases leg with
    | join => trivial
    | switch target => exact (hnm b (by simp [ids])).trans h
  | loggingIn b settings credit =>
    have hb := hnm b (by simp [ids])
    rcases credit with (_ | d) | target
    · cases h
    · have hd := hnm d (by simp [ids, Credit.ids])
      simpa only [Follows, Credit.name, map_some, hb, hd] using h
    · simpa only [Follows, Credit.name, hb] using h
  | _ => trivial

theorem Phase.attachName_extends {p : Phase} (hv : ∀ b ∈ p.ids, b < r.heap.length)
    (he : r.Extends r') : p.attachName r' = p.attachName r := by
  cases p with
  | attaching b switched => exact congrArg some (he.name (hv b (by simp [ids])))
  | _ => rfl

theorem Op.joinName_extends {o : Op} (hv : ∀ b ∈ o.ids, b < r.heap.length) (he : r.Extends r') :
    o.joinName r' = o.joinName r := by
  cases o with
  | joinAdd b => exact congrArg some (he.name (hv b (by simp [ids])))
  | _ => rfl

theorem Conn.Follows.extend (h : Conn.Follows r k) (hv : k.Valid r) (he : r.Extends r') :
    Conn.Follows r' k := by
  refine ⟨h.phase.extend hv.phase he, ?_⟩
  intro p hp n hn
  rw [Op.joinName_extends (hv.ops p hp) he] at hn
  rw [Phase.attachName_extends hv.phase he]
  exact h.ops p hp n hn

namespace Conn.Follows

theorem noJoin (h : Conn.Follows r k) (ha : k.phase.attachName r = none ∨ k.ownIdle = true) :
    ∀ p ∈ k.ops, p.2.joinName r = none := by
  intro p hp
  cases hn : p.2.joinName r with
  | none => rfl
  | some n =>
    obtain ⟨hown, hnm⟩ := h.ops p hp n hn
    rcases ha with ha | ha
    · rw [ha] at hnm
      cases hnm
    · exact absurd hown (by simpa using all_eq_true.mp ha p hp)

theorem enter {k : Conn} (hno : ∀ p ∈ k.ops, p.2.joinName r = none) (hp : Phase.Follows r p) :
    Conn.Follows r (k.enter p) := by
  refine ⟨hp, ?_⟩
  intro q hq n hn
  rw [hno q hq] at hn
  cases hn

theorem spawn (h : Conn.Follows r k)
    (ho : ∀ n ∈ o.joinName r, owner = .own ∧ k.phase.attachName r = some n) :
    Conn.Follows r (k.spawn owner o) := by
  refine ⟨h.phase, ?_⟩
  intro p hp
  rcases mem_append.mp hp with hp | hp
  · exact h.ops p hp
  · rw [mem_singleton.mp hp]
    exact ho

theorem startCredit {k : Conn} (hno : ∀ p ∈ k.ops, p.2.joinName r = none)
    (hc : credit.name r = some (r.name b)) : Conn.Follows r (k.startCredit b credit) := by
  rcases credit with (_ | d) | target
  · cases hc
  · refine (enter (p := .attaching b false) hno trivial).spawn ?_
    rintro n ⟨⟩
    exact ⟨rfl, hc.symm⟩
  · refine (enter (p := .attaching b true) hno trivial).spawn ?_
    rintro n ⟨⟩
    exact ⟨rfl, hc.symm⟩

end Conn.Follows

theorem Leg.follows_candidate {leg : Leg} (hb : leg.candidateBackend cfg r roll = some b) :
    leg.Follows r b := by
  cases leg with
  | join => trivial
  | switch target => exact ServerRegistry.get_name (filter_eq_some_iff.mp hb).1

theorem Leg.follows_failure {leg : Leg} : leg.failure.Follows r := by
  cases leg <;> trivial

theorem Credit.follows_failure {credit : Credit} : credit.failure.Follows r := by
  cases credit <;> trivial

theorem RelayEnd.follows_nextPhase {why : RelayEnd} : (why.nextPhase cfg r' roll).Follows r := by
  cases why <;> trivial

theorem Moves.follows (hm : Moves cfg s k m k' e) (hc : s.conns[c]? = some k)
    (hok : RoutesToDialed cfg s (.move c m)) (h : k.Follows s.registry) :
    k'.Follows s.registry := by
  have hf := h.phase
  cases hm with
  | joined hp => exact .startCredit (h.noJoin (.inl (by rw [hp]; rfl))) rfl
  | login hp =>
    rw [hp] at hf
    exact .startCredit (h.noJoin (.inl (by rw [hp]; rfl))) hf
  | poll hp hb => exact .enter (h.noJoin (.inl (by rw [hp]; rfl))) (Leg.follows_candidate hb)
  | routeNone hp hd =>
    simp [RoutesToDialed, limboChoice, hc, hp, hd] at hok
  | routeSwitch hp =>
    rw [hp] at hf
    exact .enter (h.noJoin (.inl (by rw [hp]; rfl))) (congrArg some hf.symm)
  | ungrouped hp hg =>
    refine .enter (h.noJoin (.inl (by rw [hp]; rfl))) ?_
    have hg : s.groups.getGroupForServer (s.registry.name _) = none := hg
    simpa [RoutesToDialed, limboChoice, hc, hp, hg, Phase.Follows, Credit.name] using hok
  | swapActive hp hd =>
    refine .enter (h.noJoin (.inl (by rw [hp]; rfl))) ?_
    simpa [RoutesToDialed, limboChoice, hc, hp, hd, Phase.Follows, Credit.name] using hok
  | stopRelay hp hi =>
    exact (Conn.Follows.enter (p := .draining _) (h.noJoin (.inr hi)) trivial).spawn
      (by simp [Op.joinName])
  | toReset hp hi | attach hp hi => exact .enter (h.noJoin (.inr hi)) trivial
  | finishRelay hp hi => exact .enter (h.noJoin (.inr hi)) RelayEnd.follows_nextPhase
  | leaveFailed hp | fail hp => exact .enter (h.noJoin (.inl (by rw [hp]; rfl))) Leg.follows_failure
  | loginFailed hp => exact .enter (h.noJoin (.inl (by rw [hp]; rfl))) Credit.follows_failure
  | _ hp =>
    rw [hp] at hf
    exact .enter (h.noJoin (.inl (by rw [hp]; rfl))) (by first | exact hf | trivial)

theorem Op.next_joinName (h : Op.next r k o = some o') : o'.joinName r = o.joinName r := by
  cases o with
  | write server flag =>
    cases flag with
    | true =>
      cases h
      rfl
    | false => cases h
  | evacRead fromServer toServer =>
    simp only [next] at h
    split at h <;> cases h
    rfl
  | _ =>
    cases h
    try rfl

theorem Conn.advance_follows {k : Conn} (h : k.Follows r) (ho : k.ops[i]? = some (owner, o)) :
    (k.advance r i owner o).Follows r := by
  refine ⟨by simpa only [phase_advance] using h.phase, ?_⟩
  intro p hp n hn
  rw [phase_advance]
  rcases mem_ops_advance hp with hp | ⟨o', ho', rfl⟩
  · exact h.ops p hp n hn
  · rw [Op.next_joinName ho'] at hn
    exact h.ops _ (mem_of_getElem? ho) n hn

theorem Op.Starts.joinName {o : Op} (h : o.Starts r) : o.joinName r' = none := by
  cases o <;> first | rfl | cases h

def Op.switchTarget : Op → Option String
  | .switchAdd target => some target
  | _ => none

def Phase.switchTarget : Phase → Option String
  | .loggingIn _ _ (.named target) => some target
  | _ => none

def Conn.Awaits (k : Conn) (target : String) : Prop :=
  target ∈ k.phase.switchTarget ∨ ∃ p ∈ k.ops, target ∈ p.2.switchTarget

instance {k : Conn} : Decidable (k.Awaits target) := inferInstanceAs (Decidable (_ ∨ _))

def pinnedTarget (s : State) : Label → Option String
  | .move c (.route _) =>
    match s.conns[c]? with
    | some k =>
      match k.phase with
      | .leftLimbo (.switch target) _ => some target
      | _ => none
    | none => none
  | _ => none

/-- The second choice after limbo agrees with the dialed server, and a pinned target stays
registered from the end of limbo to the increment. -/
structure HandsOverSafely (cfg : ProxyConfig) (s : State) (l : Label) : Prop where
  routes : RoutesToDialed cfg s l
  pinned : ∀ target ∈ pinnedTarget s l, (s.registry.get target).isSome
  keeps : ∀ n ∈ removedName s l, ∀ k ∈ s.conns, ¬ k.Awaits n

instance : Decidable (HandsOverSafely cfg s l) :=
  decidable_of_iff (RoutesToDialed cfg s l ∧
      (∀ target ∈ pinnedTarget s l, (s.registry.get target).isSome) ∧
      ∀ n ∈ removedName s l, ∀ k ∈ s.conns, ¬ k.Awaits n)
    ⟨fun ⟨hr, hp, hk⟩ => ⟨hr, hp, hk⟩, fun h => ⟨h.routes, h.pinned, h.keeps⟩⟩

/-- The login uses the settings of the dialed server, its counter is the one incremented and its
name the one stored. -/
structure Conn.HandsOver (r : ServerRegistry) (k : Conn) : Prop where
  settings : ∀ b settings credit, k.phase = .loggingIn b settings credit →
    settings.map r.name = some (r.name b)
  counted : ∀ p ∈ k.ops, (∃ d, p.2 = .joinAdd d) ∨ (∃ t, p.2 = .switchAdd t) →
    ∃ d, p.2.tick r k = some (.add d) ∧ k.phase.attachName r = some (r.name d)
  stored : ∀ p ∈ k.ops, ∀ n, p.2 = .joinWrite n → k.phase.attachName r = some n

def Phase.SettingsFollow (r : ServerRegistry) : Phase → Prop
  | .loggingIn b settings _ => settings.map r.name = some (r.name b)
  | _ => True

structure Conn.Prepared (r : ServerRegistry) (k : Conn) : Prop where
  valid : k.Valid r
  follows : k.Follows r
  settings : k.phase.SettingsFollow r
  awaits : ∀ t, k.Awaits t → (r.get t).isSome

theorem Conn.Prepared.handsOver (h : Conn.Prepared r k) : k.HandsOver r where
  settings b settings credit hp := by
    have hs := h.settings
    rwa [hp] at hs
  counted p hp ho := by
    have hnm := h.follows.ops p hp
    rcases ho with ⟨d, hd⟩ | ⟨t, ht⟩
    · rw [hd] at hnm ⊢
      exact ⟨d, rfl, (hnm _ rfl).2⟩
    · have hget := h.awaits t (.inr ⟨p, hp, by simp [ht, Op.switchTarget]⟩)
      obtain ⟨d, hd⟩ := isSome_iff_exists.mp hget
      rw [ht] at hnm ⊢
      refine ⟨d, by simp [Op.tick, hd], ?_⟩
      rw [(hnm t rfl).2, ServerRegistry.name, ServerRegistry.get_name hd]
  stored p hp n hn := by
    have hnm := h.follows.ops p hp
    rw [hn] at hnm
    exact (hnm n rfl).2

theorem Phase.SettingsFollow.extend {p : Phase} (h : p.SettingsFollow r)
    (hv : ∀ b ∈ p.ids, b < r.heap.length) (he : r.Extends r') : p.SettingsFollow r' := by
  cases p with
  | loggingIn b settings credit =>
    have hnm : ∀ d ∈ (Phase.loggingIn b settings credit).ids, r'.name d = r.name d :=
      fun d hd => he.name (hv d hd)
    cases settings with
    | none => cases h
    | some d =>
      have hb := hnm b (by simp [ids])
      have hd := hnm d (by simp [ids])
      simpa only [SettingsFollow, map_some, hb, hd] using h
  | _ => trivial

theorem Moves.settingsFollow (hm : Moves cfg s k m k' e) (hc : s.conns[c]? = some k)
    (hok : HandsOverSafely cfg s (.move c m)) (hf : k.Follows s.registry) :
    k'.phase.SettingsFollow s.registry := by
  have hfol := (hm.follows hc hok.routes hf).phase
  cases hm with
  | routeNone hp hd => cases hfol
  | routeSwitch hp =>
    rename_i target b roll
    have hpin := hok.pinned target (by simp [pinnedTarget, hc, hp])
    obtain ⟨d, hd⟩ := isSome_iff_exists.mp hpin
    have hph := hf.phase
    rw [hp] at hph
    simp only [Conn.enter, Phase.SettingsFollow, hd, map_some, ServerRegistry.name,
      ServerRegistry.get_name hd]
    exact congrArg some hph.symm
  | ungrouped hp hg | swapActive hp hd => exact hfol
  | login hp =>
    rename_i credit
    rcases credit with (_ | _) | _ <;> trivial
  | leaveFailed hp | fail hp =>
    rename_i leg _
    cases leg <;> trivial
  | loginFailed hp =>
    rename_i credit
    cases credit <;> trivial
  | finishRelay hp hi =>
    rename_i why _
    cases why <;> trivial
  | _ => trivial

theorem Conn.awaits_enter {k : Conn} (hp : p.switchTarget = none) (h : (k.enter p).Awaits t) :
    k.Awaits t := by
  rcases h with h | h
  · rw [enter, hp] at h
    cases h
  · exact .inr h

theorem Conn.awaits_spawn {k : Conn} (h : (k.spawn owner o).Awaits t) :
    k.Awaits t ∨ t ∈ o.switchTarget := by
  rcases h with h | ⟨p, hp, ht⟩
  · exact .inl (.inl h)
  · rcases mem_append.mp hp with hp | hp
    · exact .inl (.inr ⟨p, hp, ht⟩)
    · rw [mem_singleton.mp hp] at ht
      exact .inr ht

theorem Conn.awaits_advance {k : Conn} (h : (k.advance r i owner o).Awaits t) : k.Awaits t := by
  rcases h with h | ⟨p, hp, ht⟩
  · rw [phase_advance] at h
    exact .inl h
  · rcases mem_ops_advance hp with hp | ⟨o', ho', rfl⟩
    · exact .inr ⟨p, hp, ht⟩
    · have hno : o'.switchTarget = none := by
        cases o with
        | write server flag =>
          cases flag <;> cases ho'
          rfl
        | evacRead fromServer toServer =>
          simp only [Op.next] at ho'
          split at ho' <;> cases ho'
          rfl
        | _ => cases ho' <;> rfl
      rw [hno] at ht
      cases ht

theorem Conn.awaits_startCredit {k : Conn} (h : (k.startCredit b credit).Awaits t) :
    k.Awaits t ∨ credit = .named t := by
  rcases credit with (_ | d) | target
  · exact .inl (awaits_enter rfl h)
  · rcases awaits_spawn h with h | h
    · exact .inl (awaits_enter rfl h)
    · cases h
  · rcases awaits_spawn h with h | h
    · exact .inl (awaits_enter rfl h)
    · cases h
      exact .inr rfl

theorem Moves.awaits (hm : Moves cfg s k m k' e) (hc : s.conns[c]? = some k) (h : k'.Awaits t) :
    k.Awaits t ∨ pinnedTarget s (.move c m) = some t := by
  cases hm with
  | routeSwitch hp =>
    rcases h with h | h
    · cases h
      exact .inr (by simp [pinnedTarget, hc, hp])
    · exact .inl (.inr h)
  | joined hp =>
    rcases Conn.awaits_startCredit h with h | h
    · exact .inl h
    · cases h
  | login hp =>
    rcases Conn.awaits_startCredit h with h | rfl
    · exact .inl h
    · exact .inl (.inl (by rw [hp]; rfl))
  | stopRelay hp hi =>
    rcases Conn.awaits_spawn h with h | h
    · exact .inl (Conn.awaits_enter rfl h)
    · cases h
  | leaveFailed hp | fail hp =>
    rename_i leg _
    exact .inl (Conn.awaits_enter (by cases leg <;> rfl) h)
  | loginFailed hp =>
    rename_i credit
    exact .inl (Conn.awaits_enter (by cases credit <;> rfl) h)
  | finishRelay hp hi =>
    rename_i why _
    exact .inl (Conn.awaits_enter (by cases why <;> rfl) h)
  | _ => exact .inl (Conn.awaits_enter rfl h)

def State.Prepared (s : State) : Prop := ∀ k ∈ s.conns, k.Prepared s.registry

theorem step_prepared (h : step cfg s l = some s') (hs : s.Prepared)
    (hok : HandsOverSafely cfg s l) : s'.Prepared := by
  have hext := step_extends h
  cases hn : removedName s l with
  | some n =>
    -- a removal changes no connection, and nobody awaits the name it removes
    intro k hk
    rw [removedName_conns h hn] at hk
    obtain ⟨hv, hf, hset, haw⟩ := hs k hk
    refine ⟨hv.extend hext, hf.extend hv hext, hset.extend hv.phase hext, ?_⟩
    intro t ht
    refine step_get h ?_ (haw t ht)
    intro hnt
    exact hok.keeps t hnt k hk ht
  | none =>
    have hget : ∀ t, (s.registry.get t).isSome → (s'.registry.get t).isSome :=
      fun t => step_get h (by simp [hn])
    refine step_forall (P := fun r k => k.Prepared r) h hs ?_ ?_ ?_ ?_ ?_
    · rintro k he ⟨hv, hf, hset, haw⟩
      exact ⟨hv.extend he, hf.extend hv he, hset.extend hv.phase he, fun t ht => hget t (haw t ht)⟩
    · intro uuid ip v
      refine ⟨⟨by simp [Conn.new, Phase.ids], by simp [Conn.new]⟩,
        ⟨trivial, by simp [Conn.new]⟩, trivial, ?_⟩
      rintro t (ht | ⟨p, hp, -⟩)
      · cases ht
      · cases hp
    · rintro k owner o ho ⟨hv, hf, hset, haw⟩
      refine ⟨hv.spawn ho.valid, hf.spawn (by simp [ho.joinName]), hset, ?_⟩
      intro t ht
      rcases Conn.awaits_spawn ht with ht | ht
      · exact haw t ht
      · cases o with
        | switchAdd target => exact ho.elim
        | _ => cases ht
    · rintro c m k k' e rfl hk hm ⟨hv, hf, hset, haw⟩
      have hm' := Conn.moves_of_move hm
      refine ⟨Conn.move_valid hv hm, hm'.follows hk hok.routes hf, hm'.settingsFollow hk hok hf, ?_⟩
      intro t ht
      rcases hm'.awaits hk ht with ht | ht
      · exact haw t ht
      · exact hok.pinned t ht
    · rintro c i k owner o - - ho ⟨hv, hf, hset, haw⟩
      exact ⟨Conn.advance_valid hv ho, Conn.advance_follows hf ho,
        by simpa only [Conn.phase_advance] using hset, fun t ht => haw t (Conn.awaits_advance ht)⟩

/-- In every run whose second choices agree with the dialed server and whose pinned targets stay
registered, settings, stored name and counter are the dialed server's. -/
theorem handsOver_dialed (h : Run (step cfg) (HandsOverSafely cfg) (.start cfg r gs) s)
    (hk : k ∈ s.conns) : k.HandsOver s.registry := by
  have hinv : s.Prepared := by
    refine h.invariant ?_ fun t l u ht hok hu => step_prepared hu ht hok
    intro k hk
    cases hk
  exact (hinv k hk).handsOver

def limboMoves (c : ConnId) : List Label :=
  [.move c (.welcome true), .move c (.selectBackend 0), .move c (.joinLogin false),
    .move c (.poll 0), .move c .checkFull, .move c .checkFront, .move c (.dial true),
    .move c .dequeue, .move c (.leave true), .move c (.route 0), .move c .findGroup]

theorem handsOver_dialed_lobby :
    ∃ s k, Run (step lobbyConfig) (HandsOverSafely lobbyConfig)
        (.start lobbyConfig (lobbyFor 1) ∅) s ∧ k ∈ s.conns ∧
      k.phase = .loggingIn 0 (some 0) (.held (some 0)) ∧ k.HandsOver s.registry := by
  have hrun : Run (step lobbyConfig) (HandsOverSafely lobbyConfig)
      (.start lobbyConfig (lobbyFor 1) ∅) _ :=
    Run.of_exec ([.accept 1 (.v4 1) 765] ++ limboMoves 0) rfl
  exact ⟨_, _, hrun, mem_cons_self, rfl, handsOver_dialed hrun mem_cons_self⟩

def lobbyAndGame : ServerRegistry := (lobbyFor 1).register (.registered "game" loopback 1)

theorem not_handsOver {k : Conn} (hp : k.phase = .loggingIn b settings credit)
    (hne : settings.map r.name ≠ some (r.name b)) : ¬ k.HandsOver r :=
  fun h => hne (h.settings b settings credit hp)

theorem handsOver_other :
    ∃ s k, Run (step lobbyConfig) (fun _ _ => True) (.start lobbyConfig lobbyAndGame ∅) s ∧
      k ∈ s.conns ∧ k.phase = .loggingIn 0 (some 1) (.held (some 1)) ∧
      s.registry.name 0 = "lobby" ∧ s.registry.name 1 = "game" ∧ ¬ k.HandsOver s.registry := by
  have hrun : Run (step lobbyConfig) (fun _ _ => True) (.start lobbyConfig lobbyAndGame ∅) _ :=
    Run.of_exec ([.accept 1 (.v4 1) 765] ++ limboMoves 0) rfl
  exact ⟨_, _, hrun, mem_cons_self, rfl, rfl, rfl, not_handsOver rfl (by decide)⟩

end Kojacoord
