import Kojacoord.Lib.Tally
import Kojacoord.Proxy.Residence

namespace Kojacoord
open Runs Tally ServerRegistry List Option

def ProxyConfig.startRegistry (cfg : ProxyConfig) (entries : List ServerEntry) :
    Option ServerRegistry :=
  entries.foldlM (fun r e => (cfg.parseAddr e.address).map fun address =>
    r.register (e.toServer address 0 true)) .new

def Label.plays : Label → Bool
  | .accept .. | .move .. | .access .. | .probe .. | .failoverPass _ | .evictEmpty
  | .rehash _ => true
  | _ => false

def Label.abandons : Label → Bool
  | .move _ (.startRelay false) | .move _ (.worldReset false) => true
  | _ => false

/-- The choice after limbo is the record that was dialed, and no counted player is lost before
the relay pumps. -/
structure KeepsAccounts (cfg : ProxyConfig) (s : State) (l : Label) : Prop where
  plays : l.plays = true
  routes : ∀ p ∈ limboChoice cfg s l, p.2 = some p.1
  relays : l.abandons = false

instance : Decidable (KeepsAccounts cfg s l) :=
  decidable_of_iff (l.plays = true ∧ (∀ p ∈ limboChoice cfg s l, p.2 = some p.1) ∧
      l.abandons = false)
    ⟨fun ⟨hp, hr, ha⟩ => ⟨hp, hr, ha⟩, fun h => ⟨h.plays, h.routes, h.relays⟩⟩

def Phase.settled : Phase → Bool
  | .attaching .. | .resetting _ | .attached _ | .draining _ => false
  | _ => true

def Phase.pumps (b : ServerId) : Phase → Bool
  | .pumping d => d = b
  | _ => false

def State.pumping (s : State) (b : ServerId) : Nat := s.conns.countP fun k => k.phase.pumps b

namespace ServerRegistry

def count (r : ServerRegistry) (b : ServerId) : UInt64 := (r.server b).playerCount

structure Agrees (r r' : ServerRegistry) : Prop where
  get : ∀ n, r'.get n = r.get n
  name : ∀ b, r'.name b = r.name b

theorem Agrees.refl : Agrees r r := ⟨fun _ => rfl, fun _ => rfl⟩

theorem Agrees.update (hf : ∀ s, (f s).name = s.name) : Agrees r (r.update b f hf) :=
  ⟨fun _ => rfl, fun _ => update_field hf⟩

theorem Agrees.tick : Agrees r (r.tick t) := by
  cases t with
  | none => exact .refl
  | some t => cases t <;> exact .update (by intro; rfl)

theorem Agrees.bound (h : Agrees r r') : r'.Bound b ↔ r.Bound b := by
  have hnm : (r'.server b).name = (r.server b).name := h.name b
  rw [Bound, Bound, h.get, hnm]

theorem count_fetchAdd (hb : b < r.heap.length) :
    (fetchAdd r d).count b = r.count b + if d = b then 1 else 0 := by
  split
  · rename_i h
    subst h
    exact congrArg BackendServer.playerCount (server_update_self hb)
  · rename_i h
    rw [UInt64.add_zero]
    exact congrArg BackendServer.playerCount (server_update_ne h)

theorem count_fetchSub (hb : b < r.heap.length) :
    (fetchSub r d).count b = r.count b - if d = b then 1 else 0 := by
  split
  · rename_i h
    subst h
    exact congrArg BackendServer.playerCount (server_update_self hb)
  · rename_i h
    rw [UInt64.sub_zero]
    exact congrArg BackendServer.playerCount (server_update_ne h)

end ServerRegistry

/-- Every backend a connection has been handed is registered, and a login will be credited to the
backend that was dialed. -/
def Phase.Targets (r : ServerRegistry) : Phase → Prop
  | .dialing b | .routing b _ => r.Bound b
  | .polled leg b | .full leg b | .vacant leg b | .limboDialing leg b | .admitted leg b
  | .departing leg b | .leftLimbo leg b => r.Bound b ∧ leg.Follows r b
  | .loggingIn b _ credit => r.Bound b ∧ (credit = .held (some b) ∨ credit = .named (r.name b))
  | .attaching .. | .resetting _ | .attached _ | .pumping _ => False
  | .greeting | .connecting | .limbo .. | .draining _ | .rejected | .ended | .unqueueing
  | .gone => True

inductive Conn.Books (r : ServerRegistry) (k : Conn) : Option ServerId → Prop
  | away : k.phase.Targets r → k.ops = [] → Books r k none
  | crediting : r.Bound b → k.phase = .attaching b switched →
      o = .joinAdd b ∨ o = .switchAdd (r.name b) → k.ops = [(.own, o)] → Books r k none
  | recording : r.Bound b → k.phase = .attaching b switched →
      k.ops = [(.own, .joinWrite (r.name b))] → Books r k (some b)
  | resident : r.Bound b → k.phase.residence = some b → k.ops = [] →
      k.currentServer = some (r.name b) → Books r k (some b)
  | releasing : r.Bound b → k.phase = .draining why → o = .exitFlag ∨ o = .exitRelease false →
      k.ops = [(.own, o)] → k.currentServer = some (r.name b) → Books r k (some b)
  | clearing : k.phase = .draining why → k.ops = [(.own, .exitClear)] → Books r k none

def Op.counts : Op → Bool
  | .joinAdd _ | .switchAdd _ | .exitClear => false
  | _ => true

def Conn.unit (r : ServerRegistry) (k : Conn) : Option ServerId :=
  match k.phase, k.ops with
  | .attaching b _, [] | .resetting b, _ | .attached b, _ | .pumping b, _ => some b
  | .attaching b _, (_, o) :: _ => if o.counts then some b else none
  | .draining _, (_, o) :: _ => if o.counts then k.currentServer.bind r.get else none
  | _, _ => none

namespace Conn.Books

theorem unit_eq (h : Conn.Books r k u) : k.unit r = u := by
  cases h with
  | away hp ho =>
    revert hp
    cases hph : k.phase <;> simp [Conn.unit, hph, ho, Phase.Targets]
  | crediting hb hp ho hops => rcases ho with rfl | rfl <;> simp [Conn.unit, hp, hops, Op.counts]
  | recording hb hp hops | clearing hp hops => simp [Conn.unit, hp, hops, Op.counts]
  | resident hb hp hops hc =>
    revert hp
    cases hph : k.phase <;> simp [Conn.unit, hph, hops, Phase.residence]
  | releasing hb hp ho hops hc =>
    have hget : r.get (r.name _) = some _ := hb
    rcases ho with rfl | rfl <;> simp [Conn.unit, hp, hops, Op.counts, hc, hget]

theorem agrees (h : Conn.Books r k u) (ha : r.Agrees r') : Conn.Books r' k u := by
  cases h with
  | away hp ho =>
    refine .away ?_ ho
    have hleg : ∀ (leg : Leg) b, leg.Follows r b → leg.Follows r' b := by
      intro leg b h
      cases leg with
      | join => trivial
      | switch target => exact (ha.name b).trans h
    revert hp
    cases k.phase <;> simp only [Phase.Targets, ha.bound, ha.name, imp_self]
    all_goals exact fun h => ⟨h.1, hleg _ _ h.2⟩
  | crediting hb hp ho hops =>
    rw [← ha.name] at ho
    exact .crediting (ha.bound.mpr hb) hp ho hops
  | recording hb hp hops =>
    rw [← ha.name] at hops
    exact .recording (ha.bound.mpr hb) hp hops
  | resident hb hp hops hc =>
    rw [← ha.name] at hc
    exact .resident (ha.bound.mpr hb) hp hops hc
  | releasing hb hp ho hops hc =>
    rw [← ha.name] at hc
    exact .releasing (ha.bound.mpr hb) hp ho hops hc
  | clearing hp hops => exact .clearing hp hops

theorem of_away (h : Conn.Books r k u) (hres : k.phase.residence = none)
    (hd : k.phase.isDraining = false ∨ k.ownIdle = true) :
    u = none ∧ k.phase.Targets r ∧ k.ops = [] := by
  have hdr : ∀ {why o}, k.phase = .draining why → k.ops ≠ [(.own, o)] := by
    intro why o hp ho
    simp [hp, Phase.isDraining, Conn.ownIdle, ho] at hd
  cases h with
  | away hp ho => exact ⟨rfl, hp, ho⟩
  | resident hb hp ho hc => cases hres.symm.trans hp
  | crediting hb hp ho hops | recording hb hp hops =>
    rw [hp] at hres
    cases hres
  | releasing hb hp ho hops hc | clearing hp hops => exact absurd hops (hdr hp)

theorem of_phase (h : Conn.Books r k u) (hp : k.phase = p) (hres : p.residence = none)
    (hd : p.isDraining = false) : u = none ∧ p.Targets r ∧ k.ops = [] := by
  subst hp
  exact h.of_away hres (.inl hd)

theorem of_resident (h : Conn.Books r k u) (hres : k.phase.residence = some b)
    (ha : (∀ switched, k.phase ≠ .attaching b switched) ∨ k.ownIdle = true) :
    u = some b ∧ r.Bound b ∧ k.ops = [] ∧ k.currentServer = some (r.name b) := by
  have hat : ∀ {d switched o}, k.phase = .attaching d switched → k.ops ≠ [(.own, o)] := by
    intro d switched o hp ho
    rw [hp] at hres
    cases hres
    simp [hp, Conn.ownIdle, ho] at ha
  cases h with
  | away hp _ =>
    revert hres hp
    cases k.phase <;> simp [Phase.residence, Phase.Targets]
  | resident hb hp ho hc =>
    cases hres.symm.trans hp
    exact ⟨rfl, hb, ho, hc⟩
  | crediting hb hp _ hops | recording hb hp hops => exact absurd hops (hat hp)
  | releasing hb hp _ hops hc | clearing hp hops =>
    rw [hp] at hres
    cases hres

theorem enter_away {k : Conn} (hops : k.ops = []) (hp : Phase.Targets r p) :
    Conn.Books r (k.enter p) none := .away hp hops

theorem startCredit {k : Conn} {credit : Credit} (hops : k.ops = []) (hb : r.Bound b)
    (hc : credit = .held (some b) ∨ credit = .named (r.name b)) :
    Conn.Books r (k.startCredit b credit) none := by
  rcases hc with rfl | rfl
  · exact .crediting hb rfl (.inl rfl) (by simp [Conn.startCredit, Conn.spawn, Conn.enter, hops])
  · exact .crediting hb rfl (.inr rfl) (by simp [Conn.startCredit, Conn.spawn, Conn.enter, hops])

end Conn.Books

theorem Moves.books (hm : Moves cfg s k m k' e) (hc : s.conns[c]? = some k)
    (hok : KeepsAccounts cfg s (.move c m)) (h : k.Books s.registry u) :
    k'.Books s.registry u := by
  cases hm with
  | toReset hp hi | attach hp hi =>
    obtain ⟨rfl, hb, hops, hcur⟩ := h.of_resident (by rw [hp]; rfl) (.inr hi)
    exact .resident hb rfl hops hcur
  | worldReset hp | startRelay hp =>
    obtain ⟨rfl, hb, hops, hcur⟩ := h.of_resident (by rw [hp]; rfl) (.inl (by simp [hp]))
    exact .resident hb rfl hops hcur
  | resetFailed hp | relayFailed hp => cases hok.relays
  | stopRelay hp hi =>
    obtain ⟨rfl, hb, hops, hcur⟩ := h.of_resident (by rw [hp]; rfl) (.inr hi)
    exact .releasing hb rfl (.inl rfl) (by simp [Conn.spawn, Conn.enter, hops]) hcur
  | finishRelay hp hi =>
    rename_i why _
    obtain ⟨rfl, -, hops⟩ := h.of_away (by rw [hp]; rfl) (.inr hi)
    exact .enter_away hops (by cases why <;> trivial)
  | joined hp =>
    obtain ⟨rfl, ht, hops⟩ := h.of_phase hp rfl rfl
    exact .startCredit hops ht (.inl rfl)
  | login hp =>
    obtain ⟨rfl, ht, hops⟩ := h.of_phase hp rfl rfl
    exact .startCredit hops ht.1 ht.2
  | select hp hb =>
    obtain ⟨rfl, -, hops⟩ := h.of_phase hp rfl rfl
    exact .enter_away hops (selectWithRegion_bound hb)
  | poll hp hb =>
    obtain ⟨rfl, -, hops⟩ := h.of_phase hp rfl rfl
    exact .enter_away hops ⟨Leg.candidateBackend_bound hb, Leg.follows_candidate hb⟩
  | routeNone hp hd =>
    have hr := hok.routes
    simp [limboChoice, hc, hp, hd] at hr
  | routeSwitch hp =>
    obtain ⟨rfl, ht, hops⟩ := h.of_phase hp rfl rfl
    exact .enter_away hops ⟨ht.1, .inr (congrArg Credit.named ht.2.symm)⟩
  | ungrouped hp hg =>
    obtain ⟨rfl, ht, hops⟩ := h.of_phase hp rfl rfl
    have hg : s.groups.getGroupForServer (s.registry.name _) = none := hg
    have hr := hok.routes
    simp only [limboChoice, hc, hp, hg, mem_some_iff, forall_eq'] at hr
    exact .enter_away hops ⟨ht, .inl (congrArg Credit.held hr)⟩
  | swapActive hp hd =>
    obtain ⟨rfl, ht, hops⟩ := h.of_phase hp rfl rfl
    have hr := hok.routes
    simp only [limboChoice, hc, hp, hd, mem_some_iff, forall_eq'] at hr
    exact .enter_away hops ⟨ht, .inl (congrArg Credit.held hr)⟩
  | route hp hd =>
    obtain ⟨rfl, ht, hops⟩ := h.of_phase hp rfl rfl
    exact .enter_away hops ht.1
  | leaveFailed hp | fail hp =>
    rename_i leg _
    obtain ⟨rfl, -, hops⟩ := h.of_phase hp rfl rfl
    exact .enter_away hops (by cases leg <;> trivial)
  | loginFailed hp =>
    rename_i credit
    obtain ⟨rfl, -, hops⟩ := h.of_phase hp rfl rfl
    exact .enter_away hops (by cases credit <;> trivial)
  | _ hp =>
    obtain ⟨rfl, ht, hops⟩ := h.of_phase hp rfl rfl
    exact .enter_away hops (by first | exact ht | trivial)

inductive Pays : Option Tick → Option ServerId → Option ServerId → Prop
  | none : Pays none u u
  | add : Pays (some (.add b)) none (some b)
  | sub : Pays (some (.sub b)) (some b) none

theorem Conn.advance_books {k : Conn} (h : k.Books r u) (ht : k.transferred = false)
    (ho : k.ops[i]? = some (owner, o)) :
    ∃ u', (k.advance r i owner o).Books r u' ∧ (k.advance r i owner o).transferred = false ∧
      Pays (o.tick r k) u u' := by
  have hsin : ∀ {o'}, k.ops = [(.own, o')] → i = 0 ∧ owner = .own ∧ o = o' := by
    intro o' hops
    rw [hops, getElem?_singleton] at ho
    split at ho <;> cases ho
    exact ⟨‹_›, rfl, rfl⟩
  cases h with
  | away hp hops | resident hb hp hops hc =>
    rw [hops] at ho
    cases ho
  | crediting hb hp hop hops =>
    obtain ⟨rfl, rfl, rfl⟩ := hsin hops
    have hget : r.get (r.name _) = some _ := hb
    rcases hop with rfl | rfl
    · exact ⟨_, .recording hb hp (by simp [advance, Op.next, hops, ServerRegistry.name]), ht, .add⟩
    · refine ⟨_, .recording hb hp (by simp [advance, Op.next, hops]), ht, ?_⟩
      rw [Op.tick, hget]
      exact .add
  | recording hb hp hops =>
    obtain ⟨rfl, rfl, rfl⟩ := hsin hops
    refine ⟨_, .resident hb ?_ (by simp [advance, Op.next, hops]) rfl, ht, .none⟩
    rw [phase_advance, hp]
    rfl
  | releasing hb hp hop hops hc =>
    obtain ⟨rfl, rfl, rfl⟩ := hsin hops
    have hget : r.get (r.name _) = some _ := hb
    rcases hop with rfl | rfl
    · exact ⟨_, .releasing hb hp (.inr rfl) (by simp [advance, Op.next, hops, ht]) hc, ht, .none⟩
    · refine ⟨_, .clearing hp (by simp [advance, Op.next, hops]), ht, ?_⟩
      simp only [Op.tick, hc, bind_some, hget]
      exact .sub
  | clearing hp hops =>
    obtain ⟨rfl, rfl, rfl⟩ := hsin hops
    refine ⟨_, .away ?_ (by simp [advance, Op.next, hops]), ht, .none⟩
    rw [phase_advance, hp]
    trivial

structure State.Balanced (s : State) : Prop where
  books : ∀ k ∈ s.conns, k.Books s.registry (k.unit s.registry) ∧ k.transferred = false
  count : ∀ b, s.registry.Bound b → s.registry.count b =
    .ofNat (s.conns.countP fun k => k.unit s.registry = some b)

theorem Pays.count {r : ServerRegistry} (h : Pays t u u') (hb : b < r.heap.length) :
    (r.tick t).count b + .ofNat (decide (u = some b)).toNat =
      r.count b + .ofNat (decide (u' = some b)).toNat := by
  cases h with
  | none => rfl
  | add =>
    rename_i d
    by_cases hd : d = b
    · simp [tick, count_fetchAdd hb, hd]
    · simp [tick, count_fetchAdd hb, hd]
  | sub =>
    rename_i d
    by_cases hd : d = b
    · simp [tick, count_fetchSub hb, hd]
    · simp [tick, count_fetchSub hb, hd]

theorem Conn.unit_agrees {k : Conn} (ha : r.Agrees r') : k.unit r' = k.unit r := by
  have hget : r'.get = r.get := funext ha.get
  simp only [unit, hget]

theorem State.Balanced.replace {s s' : State} (h : s.Balanced) (hc : s.conns[c]? = some k)
    (hcon : s'.conns = s.conns.set c k') (hreg : s'.registry = s.registry.tick t)
    (hb : k'.Books s.registry u') (hf : k'.transferred = false)
    (hp : Pays t (k.unit s.registry) u') : s'.Balanced := by
  have ha : s.registry.Agrees s'.registry := by
    rw [hreg]
    exact .tick
  refine ⟨?_, ?_⟩
  · intro q hq
    rw [Conn.unit_agrees ha]
    rw [hcon] at hq
    rcases mem_or_eq_of_mem_set hq with hq | rfl
    · exact ⟨(h.books q hq).1.agrees ha, (h.books q hq).2⟩
    · rw [hb.unit_eq]
      exact ⟨hb.agrees ha, hf⟩
  · intro b hbd
    have hbd := ha.bound.mp hbd
    have hcnt := countP_set_add (p := fun q => q.unit s.registry = some b) hc k'
    have hpay := hp.count (r := s.registry) hbd.valid
    rw [h.count b hbd, ← hreg, ← UInt64.ofNat_add, ← hb.unit_eq, ← hcnt, UInt64.ofNat_add] at hpay
    rw [hcon]
    simp only [Conn.unit_agrees ha]
    exact (UInt64.add_left_inj _).mp hpay

theorem State.Balanced.frame {s s' : State} (h : s.Balanced) (hcon : s'.conns = s.conns)
    (ha : s.registry.Agrees s'.registry) (hcnt : ∀ b, s'.registry.count b = s.registry.count b) :
    s'.Balanced := by
  refine ⟨?_, ?_⟩
  · intro k hk
    rw [hcon] at hk
    rw [Conn.unit_agrees ha]
    exact ⟨(h.books k hk).1.agrees ha, (h.books k hk).2⟩
  · intro b hb
    rw [hcnt, hcon, h.count b (ha.bound.mp hb)]
    simp only [Conn.unit_agrees ha]

theorem Moves.transferred (hm : Moves cfg s k m k' e) : k'.transferred = k.transferred := by
  cases hm with
  | login hp =>
    rename_i credit
    rcases credit with (_ | d) | target <;> rfl
  | _ => rfl

theorem step_balanced (h : step cfg s l = some s') (hs : s.Balanced)
    (hok : KeepsAccounts cfg s l) : s'.Balanced := by
  cases l with
  | accept uuid ip v =>
    cases h
    refine ⟨?_, ?_⟩
    · intro k hk
      rcases mem_append.mp hk with hk | hk
      · exact hs.books k hk
      · rw [mem_singleton.mp hk]
        exact ⟨.away trivial rfl, rfl⟩
    · intro b hb
      rw [countP_append]
      exact hs.count b hb
  | move c m =>
    obtain ⟨k, k', e, hk, hm, rfl⟩ := step_move h
    obtain ⟨hb, hf⟩ := hs.books k (mem_of_getElem? hk)
    have hm := Conn.moves_of_move hm
    refine hs.replace (t := none) hk (by simp) (by simp [tick])
      (hm.books hk hok hb) (hm.transferred.trans hf) .none
  | access c i =>
    obtain ⟨k, owner, o, hk, ho, rfl⟩ := step_access h
    obtain ⟨hb, hf⟩ := hs.books k (mem_of_getElem? hk)
    obtain ⟨u', hb', hf', hp⟩ := Conn.advance_books hb hf ho
    exact hs.replace hk rfl rfl hb' hf' hp
  | probe b fails unhealthy latency =>
    cases h
    refine hs.frame rfl (.update (by intro; rfl)) ?_
    intro d
    apply update_field
    · intro server
      rfl
    · intro server
      rfl
  | failoverPass group =>
    simp only [step] at h
    split at h <;> cases h
    exact hs.frame rfl .refl fun _ => rfl
  | evictEmpty =>
    cases h
    exact hs.frame rfl .refl fun _ => rfl
  | rehash names =>
    simp only [step] at h
    split at h
    · rename_i hpm
      cases h
      exact hs.frame rfl ⟨fun _ => get_reorder (h := hpm), fun _ => rfl⟩ fun _ => rfl
    · cases h
  | _ => cases hok.plays

theorem ProxyConfig.count_startRegistry {cfg : ProxyConfig} {r : ServerRegistry}
    (h : cfg.startRegistry entries = some r) (hb : r.Bound b) : r.count b = 0 := by
  have hfold : ∀ (r₀ : ServerRegistry) (es : List ServerEntry),
      (∀ b, b < r₀.heap.length → r₀.count b = 0) →
      es.foldlM (fun r e => (cfg.parseAddr e.address).map fun address =>
        r.register (e.toServer address 0 true)) r₀ = some r →
      ∀ b, b < r.heap.length → r.count b = 0 := by
    intro r₀ es hz hes
    induction es generalizing r₀ with
    | nil =>
      cases hes
      exact hz
    | cons e es ih =>
      rw [foldlM_cons, bind_eq_bind, bind_eq_some_iff] at hes
      obtain ⟨r₁, hr₁, hes⟩ := hes
      obtain ⟨address, -, rfl⟩ := map_eq_some_iff.mp hr₁
      apply ih _ _ hes
      intro b hb
      rw [length_register] at hb
      rcases Nat.lt_succ_iff_lt_or_eq.mp hb with hb | rfl
      · exact (congrArg _ (server_register hb)).trans (hz b hb)
      · exact congrArg BackendServer.playerCount server_register_new
  refine hfold .new entries ?_ h b hb.valid
  intro b hb
  cases hb

theorem Conn.unit_settled {k : Conn} (h : k.phase.settled = true) :
    k.unit r = some b ↔ k.phase.pumps b = true := by
  cases hp : k.phase <;> simp [hp, Phase.settled] at h <;> simp [unit, hp, Phase.pumps]

/-- In every run of joins, switches, fallbacks and exits that meets the condition at each step, a
registered server's counter is the number of relays that pump to it. -/
theorem playerCount_eq_pumping (hr : cfg.startRegistry entries = some r)
    (h : Run (step cfg) (KeepsAccounts cfg) (.start cfg r gs) s)
    (hs : ∀ k ∈ s.conns, k.phase.settled = true) (hb : s.registry.get n = some b) :
    s.registry.count b = .ofNat (s.pumping b) := by
  have hinv : s.Balanced := by
    refine h.invariant ⟨?_, ?_⟩ fun t l u ht hok hu => step_balanced hu ht hok
    · intro k hk
      cases hk
    · intro b hb
      exact ProxyConfig.count_startRegistry hr hb
  rw [hinv.count b (bound_of_get hb), State.pumping]
  congr 1
  apply countP_congr
  intro k hk
  rw [decide_eq_true_iff]
  exact Conn.unit_settled (hs k hk)

def startConfig : ProxyConfig := { lobbyConfig with parseAddr := fun _ => some loopback }

def lobbyEntry : ServerEntry where
  name := "lobby"
  address := "127.0.0.1:25565"
  restricted := false
  forwardingOverride := none
  maxPlayers := none
  compressionThreshold := 256
  cipherSuites := ""
  healthProbeIntervalSecs := 0
  healthProbeTimeoutSecs := 5
  healthProbeFailThreshold := 3
  region := ""
  weight := 1
  backendType := .spigot

def lobbyRegistry : ServerRegistry := ServerRegistry.new.register (lobbyEntry.toServer loopback 0 true)

theorem playerCount_eq_pumping_one :
    ∃ s, startConfig.startRegistry [lobbyEntry] = some lobbyRegistry ∧
      Run (step startConfig) (KeepsAccounts startConfig) (.start startConfig lobbyRegistry ∅) s ∧
      (∀ k ∈ s.conns, k.phase.settled = true) ∧ s.registry.get "lobby" = some 0 ∧
      s.pumping 0 = 1 ∧ s.registry.count 0 = .ofNat (s.pumping 0) := by
  have hstart : startConfig.startRegistry [lobbyEntry] = some lobbyRegistry := rfl
  have hrun : Run (step startConfig) (KeepsAccounts startConfig)
      (.start startConfig lobbyRegistry ∅) _ :=
    Run.of_exec ([.accept 1 (.v4 1) 765] ++ joinMoves 0 ++ [.move 0 (.startRelay true)]) rfl
  exact ⟨_, hstart, hrun, by decide, rfl, by decide,
    playerCount_eq_pumping (n := "lobby") hstart hrun (by decide) rfl⟩

/-- A player whose relay fails before its first packet stays counted for ever. -/
theorem playerCount_ne_pumping :
    ∃ s, startConfig.startRegistry [lobbyEntry] = some lobbyRegistry ∧
      Run (step startConfig) (fun _ l => l.plays = true) (.start startConfig lobbyRegistry ∅) s ∧
      (∀ k ∈ s.conns, k.phase = .gone) ∧ s.registry.get "lobby" = some 0 ∧
      s.pumping 0 = 0 ∧ s.registry.count 0 = 1 := by
  have hrun : Run (step startConfig) (fun _ l => l.plays = true)
      (.start startConfig lobbyRegistry ∅) _ :=
    Run.of_exec ([.accept 1 (.v4 1) 765] ++ joinMoves 0 ++
      [.move 0 (.startRelay false), .move 0 .removeSession, .move 0 .leaveQueues]) rfl
  exact ⟨_, rfl, hrun, by decide, rfl, by decide, by decide⟩

end Kojacoord
