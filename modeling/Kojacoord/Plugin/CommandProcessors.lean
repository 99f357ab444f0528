import Kojacoord.Plugin.Manager

namespace Kojacoord
open AssocList Runs List

/-- The plugins of a proxy and the tasks that execute their commands. A channel goes by its
number. -/
structure CommandService where
  manager : PluginManager
  senders : AList fun _ : String => Nat
  cached : AList fun _ : String => Nat
  processors : List Nat

namespace CommandService

def new (allowed : AList fun _ : String => List PluginPermission) : CommandService where
  manager := .new allowed
  senders := ∅
  cached := ∅
  processors := []

def loadPlugin (lowercase : String → String) (s : CommandService) (file : PluginFile) :
    CommandService where
  manager := (s.manager.loadPlugin lowercase file).1
  senders :=
    match (s.manager.loadPlugin lowercase file).2 with
    | .ok _ => s.senders.insert file.stem (s.manager.channels + 1)
    | .error _ => s.senders
  cached :=
    if PluginManager.instantiates file then s.cached.insert file.stem (s.manager.channels + 1)
    else s.cached
  processors := s.processors

def unloadPlugin (s : CommandService) (name : String) : CommandService :=
  { s with manager := (s.manager.unloadPlugin name).1, senders := s.senders.erase name }

def startPluginCommandProcessors (s : CommandService) : CommandService :=
  { s with
    manager := { s.manager with commandReceivers := ∅ }
    processors := s.processors ++ s.manager.commandReceivers.entries.map (·.2) }

def start (lowercase : String → String) (allowed : AList fun _ : String => List PluginPermission)
    (files : List PluginFile) : CommandService :=
  (files.foldl (loadPlugin lowercase) (new allowed)).startPluginCommandProcessors

def isOpen (s : CommandService) (channel : Nat) : Bool :=
  s.senders.entries.any (·.2 = channel) || s.cached.entries.any (·.2 = channel)

/-- A reload is what the watcher asks for when a file has changed. A task ends when its channel is
closed. -/
inductive Label where
  | load (file : PluginFile)
  | unload (name : String)
  | reload (file : PluginFile)
  | ended (channel : Nat)

def step (lowercase : String → String) (s : CommandService) : Label → Option CommandService
  | .load file => some (s.loadPlugin lowercase file)
  | .unload name => some (s.unloadPlugin name)
  | .reload file => some ((s.unloadPlugin file.stem).loadPlugin lowercase file)
  | .ended channel =>
    if s.isOpen channel then none
    else some { s with processors := s.processors.filter (· ≠ channel) }

def Served (s : CommandService) : Prop :=
  ∀ name, (s.manager.plugins.lookup name).isSome →
    ∃ channel, s.senders.lookup name = some channel ∧ channel ∈ s.processors

def Settled (s : CommandService) : Label → Prop
  | .load file | .reload file => s.manager.loadable file = false
  | .unload _ | .ended _ => True

instance (s : CommandService) : (l : Label) → Decidable (s.Settled l)
  | .load file | .reload file => inferInstanceAs (Decidable (s.manager.loadable file = false))
  | .unload _ | .ended _ => inferInstanceAs (Decidable True)

/-- What holds while plugins are loaded one after the other: the sender of a plugin is paired with
the receiver that waits under its name. -/
structure Paired (s : CommandService) : Prop where
  held : (s.manager.plugins.lookup name).isSome → (s.senders.lookup name).isSome
  paired : s.senders.lookup name = some channel →
    s.manager.commandReceivers.lookup name = some channel
  numbered : s.manager.commandReceivers.lookup name = some channel → channel ≤ s.manager.channels

structure Owned (s : CommandService) : Prop where
  held : (s.manager.plugins.lookup name).isSome → (s.senders.lookup name).isSome
  owned : s.senders.lookup name = some channel → channel ∈ s.processors
  numbered : channel ∈ s.processors → channel ≤ s.manager.channels

variable {s : CommandService}

theorem Owned.served (h : s.Owned) : s.Served := by
  intro name hloa
  obtain ⟨channel, hchan⟩ := Option.isSome_iff_exists.mp (h.held hloa)
  exact ⟨channel, hchan, h.owned hchan⟩

theorem loadPlugin_of_loadable (lowercase : String → String)
    (h : s.manager.loadable file = true) :
    ∃ plugin,
      (s.loadPlugin lowercase file).manager.plugins =
        s.manager.plugins.insert file.stem plugin ∧
      (s.loadPlugin lowercase file).manager.commandReceivers =
        s.manager.commandReceivers.insert file.stem (s.manager.channels + 1) ∧
      (s.loadPlugin lowercase file).manager.channels = s.manager.channels + 1 ∧
      (s.loadPlugin lowercase file).senders =
        s.senders.insert file.stem (s.manager.channels + 1) := by
  obtain ⟨plugin, -, hld⟩ := PluginManager.loadPlugin_of_loadable lowercase h
  refine ⟨plugin, ?_⟩
  simp only [loadPlugin, hld]
  exact ⟨rfl, rfl, rfl, trivial⟩

theorem loadPlugin_of_not_loadable (lowercase : String → String)
    (h : s.manager.loadable file = false) :
    (s.loadPlugin lowercase file).manager.plugins = s.manager.plugins ∧
      (s.loadPlugin lowercase file).manager.commandReceivers = s.manager.commandReceivers ∧
      (s.loadPlugin lowercase file).manager.channels = s.manager.channels + 1 ∧
      (s.loadPlugin lowercase file).senders = s.senders := by
  obtain ⟨loaded, error, hld⟩ := PluginManager.loadPlugin_of_not_loadable lowercase h
  simp only [loadPlugin, hld]
  exact ⟨rfl, rfl, rfl, trivial⟩

theorem unloadPlugin_facts : (s.unloadPlugin name).manager.plugins = s.manager.plugins.erase name ∧
    (s.unloadPlugin name).manager.channels = s.manager.channels := by
  simp only [unloadPlugin, PluginManager.unloadPlugin]
  split
  · exact ⟨rfl, rfl⟩
  · rename_i hno
    refine ⟨AList.ext ?_, rfl⟩
    exact (kerase_of_notMem_keys (AList.lookup_eq_none.mp hno)).symm

theorem paired_loadPlugin (h : s.Paired) : (s.loadPlugin lowercase file).Paired := by
  cases hfl : s.manager.loadable file with
  | true =>
    obtain ⟨plugin, hplu, hrec, hcha, hsen⟩ := loadPlugin_of_loadable lowercase hfl
    constructor
    · intro name hloa
      rw [hplu] at hloa
      rw [hsen]
      by_cases hnm : name = file.stem
      · rw [hnm, AList.lookup_insert]
        rfl
      · rw [AList.lookup_insert_ne hnm] at hloa ⊢
        exact h.held hloa
    · intro name channel hchan
      rw [hsen] at hchan
      rw [hrec]
      by_cases hnm : name = file.stem
      · rw [hnm, AList.lookup_insert] at hchan ⊢
        exact hchan
      · rw [AList.lookup_insert_ne hnm] at hchan ⊢
        exact h.paired hchan
    · intro name channel hchan
      rw [hrec] at hchan
      rw [hcha]
      by_cases hnm : name = file.stem
      · rw [hnm, AList.lookup_insert] at hchan
        cases hchan
        exact Nat.le_refl _
      · rw [AList.lookup_insert_ne hnm] at hchan
        exact Nat.le_succ_of_le (h.numbered hchan)
  | false =>
    obtain ⟨hplu, hrec, hcha, hsen⟩ := loadPlugin_of_not_loadable lowercase hfl
    constructor
    · intro name
      rw [hplu, hsen]
      exact h.held
    · intro name channel
      rw [hsen, hrec]
      exact h.paired
    · intro name channel hchan
      rw [hrec] at hchan
      rw [hcha]
      exact Nat.le_succ_of_le (h.numbered hchan)

variable {lowercase : String → String}

theorem paired_loadAll {files : List PluginFile} (h : s.Paired) :
    (files.foldl (loadPlugin lowercase) s).Paired := by
  induction files generalizing s with
  | nil => exact h
  | cons file rest ih => exact ih (paired_loadPlugin h)

theorem processors_loadAll {files : List PluginFile} (s : CommandService) :
    (files.foldl (loadPlugin lowercase) s).processors = s.processors := by
  induction files generalizing s with
  | nil => rfl
  | cons file rest ih => exact ih (s.loadPlugin lowercase file)

theorem owned_start (allowed : AList fun _ : String => List PluginPermission) :
    (start lowercase allowed files).Owned := by
  have h : (files.foldl (loadPlugin lowercase) (new allowed)).Paired := by
    apply paired_loadAll
    exact ⟨by simp [new, PluginManager.new], by simp [new], by simp [new, PluginManager.new]⟩
  constructor
  · intro name hloa
    exact h.held hloa
  · intro name channel hchan
    apply mem_append_right
    exact mem_map_of_mem (f := (·.2)) (AList.mem_lookup_iff.mp (h.paired hchan))
  · intro channel hmem
    rcases mem_append.mp hmem with hold | hnew
    · rw [processors_loadAll] at hold
      cases hold
    · obtain ⟨⟨name, _⟩, hent, rfl⟩ := mem_map.mp hnew
      exact h.numbered (AList.mem_lookup_iff.mpr hent)

theorem owned_unloadPlugin (h : s.Owned) : (s.unloadPlugin name).Owned := by
  obtain ⟨hplu, hcha⟩ := unloadPlugin_facts
  have hsen : (s.unloadPlugin name).senders = s.senders.erase name := rfl
  constructor
  · intro other hloa
    rw [hplu] at hloa
    rw [hsen]
    by_cases hoth : other = name
    · rw [hoth, AList.lookup_erase] at hloa
      cases hloa
    · rw [AList.lookup_erase_ne hoth] at hloa ⊢
      exact h.held hloa
  · intro other channel hchan
    rw [hsen] at hchan
    by_cases hoth : other = name
    · rw [hoth, AList.lookup_erase] at hchan
      cases hchan
    · rw [AList.lookup_erase_ne hoth] at hchan
      exact h.owned hchan
  · intro channel hmem
    rw [hcha]
    exact h.numbered hmem

theorem owned_loadPlugin (h : s.Owned) (hfl : s.manager.loadable file = false) :
    (s.loadPlugin lowercase file).Owned := by
  obtain ⟨hplu, -, hcha, hsen⟩ := loadPlugin_of_not_loadable lowercase hfl
  constructor
  · intro name
    rw [hplu, hsen]
    exact h.held
  · intro name channel
    rw [hsen]
    exact h.owned
  · intro channel hmem
    rw [hcha]
    exact Nat.le_succ_of_le (h.numbered hmem)

theorem not_served_loadPlugin (h : s.Owned) (hfl : s.manager.loadable file = true) :
    ¬(s.loadPlugin lowercase file).Served := by
  obtain ⟨plugin, hplu, -, -, hsen⟩ := loadPlugin_of_loadable lowercase hfl
  intro hser
  obtain ⟨channel, hchan, hmem⟩ := hser file.stem (by rw [hplu, AList.lookup_insert]; rfl)
  rw [hsen, AList.lookup_insert] at hchan
  cases hchan
  exact Nat.not_succ_le_self _ (h.numbered hmem)

theorem isOpen_of_lookup (h : s.senders.lookup name = some channel) : s.isOpen channel = true := by
  rw [isOpen, Bool.or_eq_true, any_eq_true]
  exact .inl ⟨_, AList.mem_lookup_iff.mp h, decide_eq_true rfl⟩

theorem owned_ended (h : s.Owned) (hclo : s.isOpen channel = false) :
    { s with processors := s.processors.filter (· ≠ channel) }.Owned := by
  constructor
  · exact h.held
  · intro name other hoth
    refine mem_filter.mpr ⟨h.owned hoth, ?_⟩
    apply decide_eq_true
    rintro rfl
    have hop : s.isOpen other = true := isOpen_of_lookup hoth
    rw [hclo] at hop
    cases hop
  · intro other hmem
    exact h.numbered (mem_filter.mp hmem).1

theorem loadable_unloadPlugin :
    (s.unloadPlugin name).manager.loadable file = s.manager.loadable file := by
  have hall : (s.unloadPlugin name).manager.allowedPermissions =
      s.manager.allowedPermissions := s.manager.allowedPermissions_unloadPlugin name
  have hsm : (s.unloadPlugin name).manager.hasPermission = s.manager.hasPermission := by
    funext plugin permission
    rw [PluginManager.hasPermission, hall, PluginManager.hasPermission]
  rw [PluginManager.loadable, hsm, PluginManager.loadable]

theorem step_owned (h : s.Owned) (hset : s.Settled l) (hstep : step lowercase s l = some s') :
    s'.Owned := by
  cases l with
  | load file =>
    cases hstep
    exact owned_loadPlugin h hset
  | unload name =>
    cases hstep
    exact owned_unloadPlugin h
  | reload file =>
    cases hstep
    apply owned_loadPlugin (owned_unloadPlugin h)
    rw [loadable_unloadPlugin]
    exact hset
  | ended channel =>
    simp only [step] at hstep
    split at hstep
    · cases hstep
    · rename_i hclo
      cases hstep
      exact owned_ended h (Bool.not_eq_true _ ▸ hclo)

theorem settled_of_served (h : s.Owned) (hstep : step lowercase s l = some s')
    (hser : s'.Served) : s.Settled l := by
  cases l with
  | load file =>
    cases hstep
    by_contra hfl
    exact not_served_loadPlugin h (Bool.not_eq_false _ ▸ hfl) hser
  | unload name | ended channel => trivial
  | reload file =>
    cases hstep
    by_contra hfl
    apply not_served_loadPlugin (owned_unloadPlugin h) _ hser
    rw [loadable_unloadPlugin]
    exact Bool.not_eq_false _ ▸ hfl

/-- From the start on every loaded plugin is served until the first load or reload that brings a
plugin in, and not after it. -/
theorem served_of_run
    (h : Run (step lowercase) Settled (start lowercase allowed files) s) :
    s.Served ∧ ∀ l s', step lowercase s l = some s' → (s'.Served ↔ s.Settled l) := by
  have howned : s.Owned := by
    apply h.invariant (owned_start allowed)
    intro s l s' hs hsettled hstep
    exact step_owned hs hsettled hstep
  refine ⟨howned.served, ?_⟩
  intro l s' hstep
  constructor
  · exact settled_of_served howned hstep
  · intro hsettled
    exact (step_owned howned hsettled hstep).served

theorem served_of_run_refused :
    ∃ s, Run (step id) Settled (start id ∅ [PluginManager.shoutFile "shout",
        PluginManager.shoutFile "loud"]) s ∧
      (s.manager.plugins.lookup "shout").isSome ∧ s.processors = [1] ∧ s.Served := by
  have hrun : Run (step id) Settled (start id ∅ [PluginManager.shoutFile "shout",
      PluginManager.shoutFile "loud"]) _ :=
    .of_exec [.reload { PluginManager.shoutFile "loud" with
      module := some ⟨⟨"loud", [.useHttp]⟩, 0, [], []⟩ }, .ended 2] rfl
  exact ⟨_, hrun, by decide, by decide, (served_of_run hrun).1⟩

/-- After the first reload of its file a plugin sends on a channel that no task listens to. -/
theorem reloaded_unserved :
    ∃ s, Run (step id) (fun _ _ => True) (start id ∅ [PluginManager.shoutFile "shout"]) s ∧
      (s.manager.plugins.lookup "shout").isSome ∧ s.senders.lookup "shout" = some 2 ∧
      s.processors = [1] ∧ ¬s.Served := by
  have hrun : Run (step id) (fun _ _ => True) (start id ∅ [PluginManager.shoutFile "shout"]) _ :=
    .of_exec [.reload (PluginManager.shoutFile "shout")] rfl
  refine ⟨_, hrun, by decide, by decide, by decide, ?_⟩
  intro hserved
  obtain ⟨channel, hchannel, hmem⟩ := hserved "shout" (by decide)
  cases (show some 2 = some channel from hchannel)
  exact absurd hmem (by decide)

end CommandService

end Kojacoord
