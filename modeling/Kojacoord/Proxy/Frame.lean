import Kojacoord.Proxy.Step

namespace Kojacoord

namespace ServerRegistry

/-- The later registry still has every record, under the same name and with the same capacity. -/
structure Extends (r r' : ServerRegistry) : Prop where
  length : r.heap.length ≤ r'.heap.length
  name : b < r.heap.length → (r'.server b).name = (r.server b).name
  maxPlayers : b < r.heap.length → (r'.server b).maxPlayers = (r.server b).maxPlayers

variable {r : ServerRegistry}

theorem Extends.refl : Extends r r := ⟨le_rfl, fun _ => rfl, fun _ => rfl⟩

theorem Extends.update (hf : ∀ s, (f s).name = s.name) (hm : ∀ s, (f s).maxPlayers = s.maxPlayers) :
    Extends r (r.update b f hf) where
  length := by simp
  name _ := update_field hf
  maxPlayers _ := update_field hm

theorem Extends.register : Extends r (r.register s) where
  length := by simp
  name h := by rw [server_register h]
  maxPlayers h := by rw [server_register h]

theorem Extends.remove : Extends r (r.remove n) := ⟨le_rfl, fun _ => rfl, fun _ => rfl⟩

theorem Extends.reorder (h : ns.entries.Perm r.names.entries) : Extends r (r.reorder ns h) :=
  ⟨le_rfl, fun _ => rfl, fun _ => rfl⟩

theorem Extends.tick : Extends r (r.tick t) := by
  cases t with
  | none => exact .refl
  | some t => cases t <;> exact .update (by intro; rfl) (by intro; rfl)

@[simp] theorem get_tick : (r.tick t).get n = r.get n := by
  cases t with
  | none => rfl
  | some t => cases t <;> rfl

end ServerRegistry

namespace State

@[simp] theorem setConn_registry : (setConn s c k).registry = s.registry := rfl
@[simp] theorem setConn_conns : (setConn s c k).conns = s.conns.set c k := rfl

@[simp] theorem perform_registry : (perform s c u e).registry = s.registry := by
  cases e <;> rfl

@[simp] theorem perform_conns : (perform s c u e).conns = s.conns := by
  cases e <;> rfl

@[simp] theorem spawn_registry : (spawn s c w o).registry = s.registry := by
  unfold spawn
  split <;> rfl

@[simp] theorem spawn_queues : (spawn s c w o).queues = s.queues := by
  unfold spawn
  split <;> rfl

end State

theorem step_move (h : step cfg s (.move c m) = some s') :
    ∃ k k' e, s.conns[c]? = some k ∧ k.move cfg s m = some (k', e) ∧
      s' = (s.setConn c k').perform c k.uuid e := by
  simp only [step] at h
  split at h
  · cases h
  · rename_i k hk
    split at h
    · cases h
    · rename_i k' e hm
      cases h
      exact ⟨k, k', e, hk, hm, rfl⟩

theorem step_access (h : step cfg s (.access c i) = some s') :
    ∃ k owner o, s.conns[c]? = some k ∧ k.ops[i]? = some (owner, o) ∧
      s' = { s.setConn c (k.advance s.registry i owner o) with
        registry := s.registry.tick (o.tick s.registry k) } := by
  simp only [step] at h
  split at h
  · cases h
  · rename_i k hk
    split at h
    · cases h
    · rename_i owner o ho
      cases h
      exact ⟨k, owner, o, hk, ho, rfl⟩

def Op.Starts (r : ServerRegistry) : Op → Prop
  | .release .. | .evacRead .. => True
  | .connectRelease b server => r.get server = some b
  | _ => False

def spawned (s : State) : Label → Option (ConnId × Op)
  | .connect c server => (s.registry.get server).map fun b => (c, .connectRelease b server)
  | .transfer uuid server flag => (s.sessions.lookup uuid).map fun c => (c, .release server flag)
  | .task i =>
    match s.tasks[i]? with
    | some (.evacuating fromServer toServer (c :: _) _) => some (c, .evacRead fromServer toServer)
    | _ => none
  | _ => none

theorem spawned_starts (h : spawned s l = some (c, o)) : o.Starts s.registry := by
  cases l with
  | connect c server =>
    obtain ⟨b, hb, heq⟩ := Option.map_eq_some_iff.mp h
    cases heq
    exact hb
  | transfer uuid server flag =>
    obtain ⟨d, -, heq⟩ := Option.map_eq_some_iff.mp h
    cases heq
    trivial
  | task i =>
    simp only [spawned] at h
    split at h <;> cases h
    trivial
  | _ => cases h

inductive ConnsChange (s : State) (l : Label) : List Conn → Prop
  | same : ConnsChange s l s.conns
  | accept : ConnsChange s l (s.conns ++ [.new uuid ip v])
  | spawn : spawned s l = some (c, o) → s.conns[c]? = some k →
      ConnsChange s l (s.conns.set c (k.spawn owner o))

theorem ConnsChange.of_spawn (h : spawned s l = some (c, o)) :
    ConnsChange s l (s.spawn c owner o).conns := by
  unfold State.spawn
  split
  · rename_i k hk
    exact .spawn h hk
  · exact .same

def removedName (s : State) : Label → Option String
  | .register name _ _ => some name
  | .task i =>
    match s.tasks[i]? with
    | some (.evacuating fromServer _ [] true) => some fromServer
    | some (.pruning (name :: _) names) => if name ∈ names then none else some name
    | _ => none
  | _ => none

def Label.quiet : Label → Bool
  | .move .. | .access .. => false
  | _ => true

inductive RegistryChange (s : State) : Label → ServerRegistry → Prop
  | same : RegistryChange s l s.registry
  | update (hf : ∀ b, (f b).name = b.name) (hm : ∀ b, (f b).maxPlayers = b.maxPlayers)
      (hp : ∀ b, (f b).playerCount = b.playerCount) : RegistryChange s l (s.registry.update b f hf)
  | inserting : s.tasks[i]? = some (.inserting srv) →
      RegistryChange s (.task i) (s.registry.register srv)
  | reloading : s.tasks[i]? = some (.reloading rest (some srv) names) →
      RegistryChange s (.task i) (s.registry.register srv)
  | counting : s.tasks[i]? = some (.counting b count) →
      RegistryChange s (.task i) (s.registry.storeCount b count)
  | remove : removedName s l = some n → RegistryChange s l (s.registry.remove n)
  | reorder (hp : ns.entries.Perm s.registry.names.entries) :
      RegistryChange s l (s.registry.reorder ns hp)

inductive QuietStep (s : State) : Label → State → Prop
  | accept : QuietStep s (.accept uuid ip v) { s with
      conns := s.conns ++ [.new uuid ip v]
      sessions := s.sessions.insert uuid s.conns.length }
  | spawn : spawned s l = some (c, o) → QuietStep s l { s.spawn c owner o with tasks := ts }
  | change : RegistryChange s l r → QuietStep s l { s with registry := r, groups := gs, tasks := ts }
  | evictEmpty : QuietStep s .evictEmpty { s with queues := s.queues.evictEmpty }

theorem Task.quietStep (ht : s.tasks[i]? = some t) (h : t.step cfg s i = some s') :
    QuietStep s (.task i) s' := by
  unfold Task.step at h
  split at h
  case h_1 =>
    cases h
    exact .change (.inserting ht)
  case h_2 =>
    cases h
    exact .change (.counting ht)
  case h_3 =>
    split at h
    · cases h
    · split at h <;> cases h
      · rename_i hd
        exact .change (.remove (by simp [removedName, ht, hd]))
      · exact .change .same
  case h_4 =>
    split at h <;> cases h
    exact .spawn (by simp [spawned, ht])
  case h_5 =>
    cases h
    exact .change (.reloading ht)
  case h_8 =>
    cases h
    split
    · exact .change .same
    · rename_i hmem
      exact .change (.remove (by simp [removedName, ht, hmem]))
  all_goals
    cases h
    try exact .change .same

theorem quietStep_of_step (hl : l.quiet = true) (h : step cfg s l = some s') : QuietStep s l s' := by
  unfold step at h
  split at h
  case h_1 =>
    cases h
    exact .accept
  case h_2 => cases hl
  case h_3 => cases hl
  case h_4 =>
    split at h
    · rename_i hb
      split at h <;> cases h
      exact .spawn (by simp [spawned, hb])
    · cases h
  case h_5 =>
    split at h <;> cases h
    rename_i hc
    exact .spawn (by simp [spawned, hc])
  case h_7 =>
    cases h
    exact .change (.remove rfl)
  case h_8 =>
    split at h <;> cases h
    exact .change .same
  case h_9 =>
    split at h
    · cases h
    · split at h <;>
        (cases h; exact .change (.update (by intro; rfl) (by intro; rfl) (by intro; rfl)))
  case h_11 =>
    split at h
    · rename_i ht
      exact Task.quietStep ht h
    · cases h
  case h_12 =>
    cases h
    exact .change (.update (by intro; rfl) (by intro; rfl) (by intro; rfl))
  case h_13 =>
    split at h <;> cases h
    exact .change .same
  case h_14 =>
    cases h
    exact .evictEmpty
  case h_15 =>
    split at h <;> cases h
    rename_i hp
    exact .change (.reorder hp)
  all_goals
    cases h
    exact .change .same

theorem step_quiet_conns (hl : l.quiet = true) (h : step cfg s l = some s') :
    ConnsChange s l s'.conns := by
  cases quietStep_of_step hl h with
  | accept => exact .accept
  | spawn hs => exact .of_spawn hs
  | change | evictEmpty => exact .same

theorem step_quiet_queue (hl : l.quiet = true) (h : step cfg s l = some s') :
    s'.queues.queue n = s.queues.queue n := by
  cases quietStep_of_step hl h with
  | accept | change => rfl
  | spawn hs => rw [State.spawn_queues]
  | evictEmpty => exact QueueManager.queue_evictEmpty

theorem step_quiet_registry (hl : l.quiet = true) (h : step cfg s l = some s') :
    RegistryChange s l s'.registry := by
  cases quietStep_of_step hl h with
  | accept | evictEmpty => exact .same
  | spawn hs =>
    rw [State.spawn_registry]
    exact .same
  | change hr => exact hr

theorem RegistryChange.extends (h : RegistryChange s l r) : s.registry.Extends r := by
  cases h with
  | same => exact .refl
  | update hf hm hp => exact .update hf hm
  | inserting | reloading => exact .register
  | counting => exact .update (by intro; rfl) (by intro; rfl)
  | remove => exact .remove
  | reorder hp => exact .reorder hp

theorem step_extends (h : step cfg s l = some s') : s.registry.Extends s'.registry := by
  by_cases hl : l.quiet = true
  · exact (step_quiet_registry hl h).extends
  · cases l with
    | move c m =>
      obtain ⟨k, k', e, -, -, rfl⟩ := step_move h
      simp only [State.perform_registry, State.setConn_registry]
      exact .refl
    | access c i =>
      obtain ⟨k, owner, o, -, -, rfl⟩ := step_access h
      exact .tick
    | _ => exact absurd rfl hl

theorem ServerRegistry.isSome_get_register {r : ServerRegistry} (h : (r.get n).isSome) :
    ((r.register srv).get n).isSome := by
  by_cases hn : n = srv.name
  · rw [hn, get_register_self]
    rfl
  · rwa [get_register_ne hn]

theorem RegistryChange.isSome_get (h : RegistryChange s l r) (hn : removedName s l ≠ some n)
    (hg : (s.registry.get n).isSome) : (r.get n).isSome := by
  cases h with
  | same | update | counting => exact hg
  | inserting | reloading => exact ServerRegistry.isSome_get_register hg
  | remove hr =>
    rw [hr, ne_eq, Option.some.injEq] at hn
    rwa [ServerRegistry.get_remove_ne (.symm hn)]
  | reorder => rwa [ServerRegistry.get_reorder]

theorem step_get (h : step cfg s l = some s') (hn : removedName s l ≠ some n)
    (hg : (s.registry.get n).isSome) : (s'.registry.get n).isSome := by
  by_cases hl : l.quiet = true
  · exact (step_quiet_registry hl h).isSome_get hn hg
  · cases l with
    | move c m =>
      obtain ⟨k, k', e, -, -, rfl⟩ := step_move h
      simpa only [State.perform_registry, State.setConn_registry] using hg
    | access c i =>
      obtain ⟨k, owner, o, -, -, rfl⟩ := step_access h
      simpa only [ServerRegistry.get_tick] using hg
    | _ => exact absurd rfl hl

theorem spawned_of_removedName (h : removedName s l = some n) : spawned s l = none := by
  cases l with
  | register => rfl
  | task i =>
    simp only [removedName] at h
    split at h
    · rename_i ht
      simp [spawned, ht]
    · rename_i ht
      simp [spawned, ht]
    · cases h
  | _ => cases h

theorem removedName_conns (h : step cfg s l = some s') (hn : removedName s l = some n) :
    s'.conns = s.conns := by
  have hl : l.quiet = true := by
    cases l with
    | move | access => cases hn
    | _ => rfl
  cases quietStep_of_step hl h with
  | accept => cases hn
  | spawn hs =>
    rw [spawned_of_removedName hn] at hs
    cases hs
  | change | evictEmpty => rfl

end Kojacoord
