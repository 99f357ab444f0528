import Kojacoord.Proxy.Accounting

namespace Kojacoord
open Runs Option

def ServerEntry.apply (cfg : ProxyConfig) (r : ServerRegistry) (e : ServerEntry) : ServerRegistry :=
  match e.reload cfg r with
  | some server => r.register server
  | none => r

def ServerRegistry.prune (r : ServerRegistry) (names : List String) : List String → ServerRegistry
  | [] => r
  | name :: rest => prune (if name ∈ names then r else r.remove name) names rest

/-- `reload_servers`, with no other task in between. -/
def reloadServers (cfg : ProxyConfig) (r : ServerRegistry) (entries : List ServerEntry) :
    ServerRegistry :=
  let reloaded := entries.foldl (ServerEntry.apply cfg) r
  reloaded.prune (entries.map (·.name)) (reloaded.all.map fun b => (reloaded.server b).name)

section Task
variable {cfg : ProxyConfig} {s : State}

def State.at (s : State) (i : Nat) (r : ServerRegistry) (t : Task) : State :=
  { s with registry := r }.setTask i t

theorem State.step_at (hi : i < s.tasks.length) (h : t.step cfg (s.at i r t) i = some after) :
    Kojacoord.step cfg (s.at i r t) (.task i) = some after := by
  have htask : (s.at i r t).tasks[i]? = some t := by simp [State.at, State.setTask, hi]
  simp only [Kojacoord.step, htask, h]

theorem State.setTask_at : (s.at i r t).setTask i t' = s.at i r t' := by
  simp [State.at, State.setTask]

theorem State.register_setTask_at :
    { s.at i r t with registry := r' }.setTask i t' = s.at i r' t' := by
  simp [State.at, State.setTask]

theorem run_pruning (hi : i < s.tasks.length) :
    Run (step cfg) (fun _ l => l = .task i) (s.at i r (.pruning rest names))
      (s.at i (r.prune names rest) .finished) := by
  induction rest generalizing r with
  | nil =>
    refine .tail .refl rfl (State.step_at hi ?_)
    simp only [Task.step, State.setTask_at, ServerRegistry.prune]
  | cons name rest ih =>
    refine Run.trans (.tail .refl rfl (State.step_at hi ?_)) ih
    simp only [Task.step, State.register_setTask_at]
    rfl

theorem run_reloading (cfg : ProxyConfig) (r : ServerRegistry) (hi : i < s.tasks.length)
    (entries : List ServerEntry) (names : List String) :
    let reloaded := entries.foldl (ServerEntry.apply cfg) r
    Run (step cfg) (fun _ l => l = .task i) (s.at i r (.reloading entries none names))
      (s.at i reloaded (.pruning (reloaded.all.map fun b => (reloaded.server b).name) names)) := by
  induction entries generalizing r with
  | nil =>
    refine .tail .refl rfl (State.step_at hi ?_)
    simp only [Task.step, State.setTask_at, List.foldl_nil]
    rfl
  | cons e rest ih =>
    have hrd : Run (step cfg) (fun _ l => l = .task i)
        (s.at i r (.reloading (e :: rest) none names))
        (s.at i r (.reloading rest (e.reload cfg r) names)) := by
      refine .tail .refl rfl (State.step_at hi ?_)
      simp only [Task.step, State.setTask_at]
      rfl
    refine hrd.trans ?_
    rw [List.foldl_cons, ServerEntry.apply]
    cases e.reload cfg r with
    | none => exact ih r
    | some server =>
      refine Run.trans (.tail .refl rfl (State.step_at hi ?_)) (ih _)
      simp only [Task.step, State.register_setTask_at]
      rfl

theorem run_reload (cfg : ProxyConfig) (s : State) (entries : List ServerEntry) : ∃ t,
    Run (step cfg) (fun _ l => l = .reload entries ∨ l = .task s.tasks.length) s t ∧
      t.registry = reloadServers cfg s.registry entries := by
  let started := s.addTask (.reloading entries none (entries.map (·.name)))
  have hi : s.tasks.length < started.tasks.length := by simp [started, State.addTask]
  have hst : started.at s.tasks.length s.registry
      (.reloading entries none (entries.map (·.name))) = started := by
    simp [started, State.at, State.addTask, State.setTask]
  have hrun := (run_reloading cfg s.registry hi entries (entries.map (·.name))).trans
    (run_pruning hi)
  rw [hst] at hrun
  refine ⟨_, Run.trans (.tail .refl (.inl rfl) rfl) (hrun.mono fun _ _ => .inr), rfl⟩

end Task

structure Configured where
  address : SocketAddr
  backendType : BackendType
  forwardingOverride : Option ForwardingMode
  maxPlayers : UInt64
  weight : UInt32
  region : String
  compressionThreshold : Int32
  healthProbeIntervalSecs : UInt64
  healthProbeTimeoutSecs : UInt64
  healthProbeFailThreshold : UInt32
  deriving DecidableEq

def BackendServer.configured (s : BackendServer) : Configured where
  address := s.address
  backendType := s.backendType
  forwardingOverride := s.forwardingOverride
  maxPlayers := s.maxPlayers
  weight := s.weight
  region := s.region
  compressionThreshold := s.compressionThreshold
  healthProbeIntervalSecs := s.healthProbeIntervalSecs
  healthProbeTimeoutSecs := s.healthProbeTimeoutSecs
  healthProbeFailThreshold := s.healthProbeFailThreshold

def ServerEntry.configures (cfg : ProxyConfig) (e : ServerEntry) : Option Configured :=
  (cfg.parseAddr e.address).map fun address => (e.toServer address 0 true).configured

def ServerEntry.compared (cfg : ProxyConfig) (e : ServerEntry) :
    Option SocketAddr × Bool × Option ForwardingMode × BackendType :=
  (cfg.parseAddr e.address, e.restricted, e.forwardingOverride, e.backendType)

def lastStretch [DecidableEq β] (f : α → β) : List α → List α
  | [] => []
  | a :: l => if ∀ b ∈ l, f b = f a then a :: l else lastStretch f l

/-- What is kept when each new element replaces the last one that was kept, unless the function does
not tell them apart. -/
def keepUnlessChanged [DecidableEq β] (f : α → β) (kept : Option α) (new : α) : Option α :=
  match kept with
  | some a => if f new = f a then some a else some new
  | none => some new

theorem lastStretch_cons_cons [DecidableEq β] {f : α → β} (h : f b = f a) :
    (lastStretch f (a :: b :: l)).head? = (lastStretch f (a :: l)).head? := by
  simp only [lastStretch, List.forall_mem_cons, h, true_and]
  split <;> rfl

theorem foldl_keepUnlessChanged [DecidableEq β] (f : α → β) :
    l.foldl (keepUnlessChanged f) kept = (lastStretch f (kept.toList ++ l)).head? := by
  induction l generalizing kept with
  | nil => cases kept <;> simp [lastStretch]
  | cons b l ih =>
    rw [List.foldl_cons, ih]
    cases kept with
    | none => rfl
    | some a =>
      simp only [keepUnlessChanged]
      split
      · rename_i h
        exact (lastStretch_cons_cons h).symm
      · rename_i h
        simp [lastStretch, h]

def ServerRegistry.Holds (cfg : ProxyConfig) (r : ServerRegistry) (name : String) :
    Option ServerEntry → Prop
  | some e => e.name = name ∧ ∃ b address count online, r.get name = some b ∧
      cfg.parseAddr e.address = some address ∧ r.server b = e.toServer address count online
  | none => r.get name = none

section Entries
variable {cfg : ProxyConfig} {r : ServerRegistry} {e : ServerEntry} {name : String}
  {kept : Option ServerEntry} {entries : List ServerEntry} {count : UInt64} {online : Bool}

theorem ServerRegistry.Holds.register_other (h : r.Holds cfg name kept) (hnm : s.name ≠ name) :
    (r.register s).Holds cfg name kept := by
  have hget : (r.register s).get name = r.get name := get_register_ne hnm.symm
  cases kept with
  | none => exact hget.trans h
  | some e =>
    obtain ⟨he, b, address, count, online, hb, haddr, hsrv⟩ := h
    exact ⟨he, b, address, count, online, hget.trans hb, haddr,
      (server_register (get_valid hb)).trans hsrv⟩

theorem ServerRegistry.holds_register (haddr : cfg.parseAddr e.address = some address) :
    (r.register (e.toServer address count online)).Holds cfg e.name (some e) :=
  ⟨rfl, _, address, count, online, get_register_self, haddr, server_register_new⟩

theorem holds_apply (h : r.Holds cfg e.name kept) (haddr : cfg.parseAddr e.address = some a) :
    (e.apply cfg r).Holds cfg e.name (keepUnlessChanged (ServerEntry.compared cfg) kept e) := by
  unfold ServerEntry.apply ServerEntry.reload
  rw [haddr]
  cases kept with
  | none =>
    have hno : r.get e.name = none := h
    simp only [hno]
    exact ServerRegistry.holds_register haddr
  | some old =>
    obtain ⟨hold, b, address, count, online, hb, hprs, hsrv⟩ := h
    have hupd : e.needsUpdate (r.server b) a = true ↔
        ServerEntry.compared cfg e ≠ ServerEntry.compared cfg old := by
      simp only [ServerEntry.needsUpdate, ServerEntry.compared, hsrv, ServerEntry.toServer,
        haddr, hprs]
      grind
    simp only [hb]
    by_cases hsm : ServerEntry.compared cfg e = ServerEntry.compared cfg old
    · rw [if_neg (by simp [hupd, hsm]), keepUnlessChanged, if_pos hsm]
      exact ⟨hold, b, address, count, online, hb, hprs, hsrv⟩
    · rw [if_pos (hupd.mpr hsm), keepUnlessChanged, if_neg hsm]
      exact ServerRegistry.holds_register haddr

theorem holds_apply_other (h : r.Holds cfg name kept) (hnm : e.name ≠ name) :
    (e.apply cfg r).Holds cfg name kept := by
  unfold ServerEntry.apply
  split
  · rename_i server hsrv
    apply h.register_other
    unfold ServerEntry.reload at hsrv
    split at hsrv
    · cases hsrv
    · split at hsrv
      · dsimp only at hsrv
        split at hsrv
        · cases hsrv
          exact hnm
        · cases hsrv
      · cases hsrv
        exact hnm
  · exact h

def entriesOf (name : String) (entries : List ServerEntry) : List ServerEntry :=
  entries.filter (·.name = name)

theorem holds_foldl_apply (h : r.Holds cfg name kept)
    (hprs : ∀ e ∈ entries, (cfg.parseAddr e.address).isSome) :
    (entries.foldl (ServerEntry.apply cfg) r).Holds cfg name
      ((entriesOf name entries).foldl (keepUnlessChanged (ServerEntry.compared cfg)) kept) := by
  induction entries generalizing r kept with
  | nil => exact h
  | cons e rest ih =>
    have hrs : ∀ e ∈ rest, (cfg.parseAddr e.address).isSome :=
      fun e he => hprs e (List.mem_cons_of_mem _ he)
    by_cases hnm : e.name = name
    · obtain ⟨a, ha⟩ := isSome_iff_exists.mp (hprs e List.mem_cons_self)
      subst hnm
      simpa [entriesOf] using ih (holds_apply h ha) hrs
    · simpa [entriesOf, hnm] using ih (holds_apply_other h hnm) hrs

theorem holds_foldlM_register {r₀ : ServerRegistry} (hhe : r₀.Holds cfg name kept)
    (h : entries.foldlM (fun r e => (cfg.parseAddr e.address).map fun address =>
      r.register (e.toServer address 0 true)) r₀ = some r) :
    r.Holds cfg name ((entriesOf name entries).getLast?.or kept) := by
  induction entries generalizing r₀ kept with
  | nil =>
    cases h
    exact hhe
  | cons e entries ih =>
    rw [List.foldlM_cons, bind_eq_bind, bind_eq_some_iff] at h
    obtain ⟨r₁, hr₁, h⟩ := h
    obtain ⟨address, haddr, rfl⟩ := map_eq_some_iff.mp hr₁
    by_cases hnm : e.name = name
    · subst hnm
      have hla := ih (ServerRegistry.holds_register haddr) h
      rwa [entriesOf, List.filter_cons_of_pos (by simp), List.getLast?_cons, some_or,
        ← or_some]
    · rw [entriesOf, List.filter_cons_of_neg (by simpa using hnm)]
      exact ih (hhe.register_other hnm) h

theorem holds_startRegistry (h : cfg.startRegistry entries = some r) :
    r.Holds cfg name (entriesOf name entries).getLast? := by
  have hemp : ServerRegistry.new.Holds cfg name none := rfl
  simpa using holds_foldlM_register hemp h

theorem parses_of_startRegistry (h : cfg.startRegistry entries = some r) :
    ∀ e ∈ entries, (cfg.parseAddr e.address).isSome := by
  unfold ProxyConfig.startRegistry at h
  generalize ServerRegistry.new = r₀ at h
  induction entries generalizing r₀ with
  | nil => simp
  | cons e es ih =>
    rw [List.foldlM_cons, bind_eq_bind, bind_eq_some_iff] at h
    obtain ⟨r₁, hr₁, hes⟩ := h
    obtain ⟨address, haddr, rfl⟩ := map_eq_some_iff.mp hr₁
    exact List.forall_mem_cons.mpr ⟨by rw [haddr]; rfl, ih _ hes⟩

theorem get_prune (names : List String) :
    (r.prune names rest).get name = if name ∈ rest ∧ name ∉ names then none else r.get name := by
  induction rest generalizing r with
  | nil => simp [ServerRegistry.prune]
  | cons n rest ih =>
    rw [ServerRegistry.prune, ih]
    by_cases hn : name = n
    · subst hn
      by_cases hlis : name ∈ names <;> simp [hlis]
    · by_cases hlis : n ∈ names <;> simp [hlis, hn, ServerRegistry.get_remove_ne hn]

theorem server_prune (names : List String) :
    (r.prune names rest).server b = r.server b := by
  induction rest generalizing r with
  | nil => rfl
  | cons n rest ih =>
    rw [ServerRegistry.prune, ih]
    split <;> rfl

theorem mem_names_of_get (h : r.get name = some b) :
    name ∈ r.all.map fun b => (r.server b).name :=
  List.mem_map.mpr ⟨b, List.mem_map.mpr ⟨⟨name, b⟩, AList.mem_lookup_iff.mp h, rfl⟩,
    ServerRegistry.get_name h⟩

theorem holds_reloadServers (h : r.Holds cfg name kept)
    (hprs : ∀ e ∈ entries, (cfg.parseAddr e.address).isSome)
    (hnm : name ∈ entries.map (·.name)) :
    (reloadServers cfg r entries).Holds cfg name
      (lastStretch (ServerEntry.compared cfg) (kept.toList ++ entriesOf name entries)).head? := by
  have hfold := holds_foldl_apply h hprs
  rw [foldl_keepUnlessChanged] at hfold
  have hget : (reloadServers cfg r entries).get name =
      (entries.foldl (ServerEntry.apply cfg) r).get name := by
    rw [reloadServers, get_prune, if_neg fun h => h.2 hnm]
  generalize (lastStretch (ServerEntry.compared cfg) _).head? = held at hfold ⊢
  cases held with
  | none => exact hget.trans hfold
  | some e =>
    obtain ⟨he, b, address, count, online, hb, haddr, hsrv⟩ := hfold
    exact ⟨he, b, address, count, online, hget.trans hb, haddr, (server_prune ..).trans hsrv⟩

theorem get_reloadServers_unlisted (hnm : name ∉ entries.map (·.name)) :
    (reloadServers cfg r entries).get name = none := by
  rw [reloadServers, get_prune]
  split
  · rfl
  · rename_i hnot
    by_contra hso
    obtain ⟨b, hb⟩ := ne_none_iff_exists'.mp hso
    exact hnot ⟨mem_names_of_get hb, hnm⟩

def ServerRegistry.configured (r : ServerRegistry) (name : String) : Option Configured :=
  (r.get name).map fun b => (r.server b).configured

theorem ServerRegistry.Holds.configured (h : r.Holds cfg name kept) :
    r.configured name = kept.bind (ServerEntry.configures cfg) := by
  cases kept with
  | none =>
    have hno : r.get name = none := h
    rw [ServerRegistry.configured, hno]
    rfl
  | some e =>
    obtain ⟨-, b, address, count, online, hb, haddr, hsrv⟩ := h
    simp only [ServerRegistry.configured, hb, hsrv, bind_some, ServerEntry.configures,
      haddr, map_some]
    rfl

end Entries

/-- After a start with the first configuration and a reload of the second one, the servers are
configured as after a start with the second. -/
def ReloadsLikeRestart (cfg : ProxyConfig) (r fresh : ServerRegistry) (entries : List ServerEntry) :
    Prop :=
  (∀ name ∈ entries.map (·.name), ((reloadServers cfg r entries).configured name).isSome ∧
    (reloadServers cfg r entries).configured name = fresh.configured name) ∧
  ∀ name, name ∉ entries.map (·.name) → (reloadServers cfg r entries).get name = none

/-- The entries of a name in the order they count: the last one of the first configuration, and all
those of the second. -/
def ServerEntry.succession (name : String) (old new : List ServerEntry) : List ServerEntry :=
  (entriesOf name old).getLast?.toList ++ entriesOf name new

/-- The first of the last entries of a name that agree in what a reload compares agrees with the
last one in all that is configured. -/
def KeepsUncompared (cfg : ProxyConfig) (old new : List ServerEntry) (name : String) : Prop :=
  let entries := ServerEntry.succession name old new
  (lastStretch (ServerEntry.compared cfg) entries).head?.bind (ServerEntry.configures cfg) =
    entries.getLast?.bind (ServerEntry.configures cfg)

instance : Decidable (KeepsUncompared cfg old new name) := inferInstanceAs (Decidable (_ = _))

theorem exists_last_entry (hnm : name ∈ new.map (·.name)) :
    ∃ e ∈ new, (entriesOf name new).getLast? = some e ∧
      (ServerEntry.succession name old new).getLast? = some e := by
  obtain ⟨e, he, rfl⟩ := List.mem_map.mp hnm
  have hne : entriesOf e.name new ≠ [] := List.ne_nil_of_mem (List.mem_filter.mpr ⟨he, by simp⟩)
  refine ⟨(entriesOf e.name new).getLast hne, List.mem_of_mem_filter (List.getLast_mem hne),
    List.getLast?_eq_some_getLast hne, ?_⟩
  rw [ServerEntry.succession, List.getLast?_append, List.getLast?_eq_some_getLast hne, some_or]

theorem configured_startRegistry {cfg : ProxyConfig} {fresh : ServerRegistry}
    (hnew : cfg.startRegistry new = some fresh) (old : List ServerEntry)
    (hnm : name ∈ new.map (·.name)) : (fresh.configured name).isSome ∧
      fresh.configured name =
        (ServerEntry.succession name old new).getLast?.bind (ServerEntry.configures cfg) := by
  obtain ⟨e, he, hown, hboth⟩ := exists_last_entry hnm
  rw [(holds_startRegistry hnew).configured, hown, hboth]
  refine ⟨?_, rfl⟩
  rw [bind_some, ServerEntry.configures, isSome_map]
  exact parses_of_startRegistry hnew e he

theorem reloadsLikeRestart_iff {cfg : ProxyConfig} {r fresh : ServerRegistry}
    {old new : List ServerEntry} (hold : cfg.startRegistry old = some r)
    (hnew : cfg.startRegistry new = some fresh) :
    ReloadsLikeRestart cfg r fresh new ↔
      ∀ name ∈ new.map (·.name), KeepsUncompared cfg old new name := by
  have hreloaded {name : String} (hname : name ∈ new.map (·.name)) :=
    (holds_reloadServers (holds_startRegistry hold) (parses_of_startRegistry hnew) hname).configured
  constructor
  · intro h name hname
    have hfresh := (configured_startRegistry hnew old hname).2
    exact (hreloaded hname).symm.trans ((h.1 name hname).2.trans hfresh)
  · intro h
    refine ⟨fun name hname => ?_, fun name hname => get_reloadServers_unlisted hname⟩
    obtain ⟨hsome, hfresh⟩ := configured_startRegistry hnew old hname
    have heq : (reloadServers cfg r new).configured name = fresh.configured name :=
      (hreloaded hname).trans ((h name hname).trans hfresh.symm)
    exact ⟨by rw [heq]; exact hsome, heq⟩

def heavyEntry : ServerEntry := { lobbyEntry with weight := 5, maxPlayers := some 100 }

theorem reloadsLikeRestart_restricted : ∃ r fresh,
    startConfig.startRegistry [lobbyEntry] = some r ∧
      startConfig.startRegistry [{ heavyEntry with restricted := true }] = some fresh ∧
      ReloadsLikeRestart startConfig r fresh [{ heavyEntry with restricted := true }] := by
  have hold : startConfig.startRegistry [lobbyEntry] = some _ := rfl
  have hnew : startConfig.startRegistry [{ heavyEntry with restricted := true }] = some _ := rfl
  exact ⟨_, _, hold, hnew, (reloadsLikeRestart_iff hold hnew).mpr (by decide)⟩

/-- Alone it does not, nor does a new capacity. -/
theorem not_reloadsLikeRestart_weight : ∃ r fresh,
    startConfig.startRegistry [lobbyEntry] = some r ∧
      startConfig.startRegistry [heavyEntry] = some fresh ∧
      (fresh.configured "lobby").map (fun c => (c.weight, c.maxPlayers)) = some (5, 100) ∧
      ((reloadServers startConfig r [heavyEntry]).configured "lobby").map
        (fun c => (c.weight, c.maxPlayers)) = some (1, 0) :=
  ⟨_, _, rfl, rfl, by decide, by decide⟩

end Kojacoord
