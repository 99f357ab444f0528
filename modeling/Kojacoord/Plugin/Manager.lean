import Kojacoord.Lib.Runs
import Kojacoord.Plugin.Hooks
import Mathlib.Data.List.Sort

namespace Kojacoord
open AssocList Runs Option

inductive PluginPermission where
  | readPlayerInfo
  | kickPlayer
  | sendMessage
  | broadcast
  | modifyPackets
  | readPackets
  | accessServers
  | registerServers
  | accessRouting
  | readConfig
  | executeCommands
  | manageSanctions
  | useRedis
  | useHttp
  deriving DecidableEq

structure PluginMetadata where
  name : String
  permissions : List PluginPermission

structure PluginCommandSpec where
  label : String
  aliases : List String
  permission : Option String
  description : String

/-- A module that the loader has instantiated. What a callback would return counts as nothing if the
callback panics. -/
structure WasmModule where
  metadata : PluginMetadata
  subscribedEvents : UInt32
  registerPacketHooks : List PacketEvent
  registerCommands : List PluginCommandSpec

structure PluginFile where
  path : String
  stem : String
  extension : String
  readable : Bool
  module : Option WasmModule

inductive PluginError where
  | unsupportedExtension (extension path : String)
  | failedToRead
  | failedToLoad
  | permissionNotAllowed (permission : PluginPermission)
  | notFound (name : String)

/-- A hook in the manager's table. The plugin that has registered it, by the stem of its file, is
not kept in the source. -/
structure RegisteredHook extends PacketEvent where
  registeredBy : String

structure PluginActivity where
  eventMask : UInt32
  packetHookCount : Nat

def PluginActivity.hasPacketHooks (a : PluginActivity) : Bool := 0 < a.packetHookCount

abbrev CommandTable := AList fun _ : String => String × PluginCommandSpec

structure PluginManager where
  loaded : AList fun _ : String => PluginMetadata
  plugins : AList fun _ : String => WasmModule
  packetHooks : List RegisteredHook
  allowedPermissions : AList fun _ : String => List PluginPermission
  commandReceivers : AList fun _ : String => Nat
  channels : Nat
  activity : PluginActivity
  commands : CommandTable

namespace PluginManager

def new (allowed : AList fun _ : String => List PluginPermission) : PluginManager where
  loaded := ∅
  plugins := ∅
  packetHooks := []
  allowedPermissions := allowed
  commandReceivers := ∅
  channels := 0
  activity := ⟨0, 0⟩
  commands := ∅

def refreshActivity (m : PluginManager) : PluginManager :=
  { m with
    activity :=
      ⟨m.plugins.entries.foldl (fun mask e => mask ||| e.2.subscribedEvents) 0,
        m.packetHooks.length⟩ }

def hasPermission (m : PluginManager) (name : String) (permission : PluginPermission) : Bool :=
  ((m.allowedPermissions.lookup name).getD []).contains permission

def Ahead (a b : RegisteredHook) : Prop := b.priority ≤ a.priority

instance : DecidableRel Ahead := fun a b => inferInstanceAs (Decidable (b.priority ≤ a.priority))

def addHooks (hooks new : List RegisteredHook) : List RegisteredHook :=
  if new.isEmpty then hooks else (hooks ++ new).insertionSort Ahead

def tagHooks (stem : String) (plugin : WasmModule) : List RegisteredHook :=
  plugin.registerPacketHooks.map fun hook =>
    ⟨{ hook with pluginName := plugin.metadata.name }, stem⟩

def claim (lowercase : String → String) (owner : String) (spec : PluginCommandSpec)
    (table : CommandTable) (label : String) : CommandTable :=
  if (table.lookup (lowercase label)).isSome then table
  else table.insert (lowercase label) (owner, spec)

def claimAll (lowercase : String → String) (owner : String) (table : CommandTable)
    (spec : PluginCommandSpec) : CommandTable :=
  (spec.label :: spec.aliases).foldl (claim lowercase owner spec) table

def install (lowercase : String → String) (m : PluginManager) (stem : String)
    (plugin : WasmModule) : PluginManager :=
  refreshActivity
    { m with
      packetHooks := addHooks m.packetHooks (tagHooks stem plugin)
      commands := plugin.registerCommands.foldl (claimAll lowercase stem) m.commands
      plugins := m.plugins.insert stem plugin
      commandReceivers := m.commandReceivers.insert stem m.channels }

def loadPlugin (lowercase : String → String) (m : PluginManager) (file : PluginFile) :
    PluginManager × Except PluginError PluginMetadata :=
  let m := { m with channels := m.channels + 1 }
  if file.extension ≠ "wasm" then (m, .error (.unsupportedExtension file.extension file.path))
  else if file.readable = false then (m, .error .failedToRead)
  else
    match file.module with
    | none => (m, .error .failedToLoad)
    | some plugin =>
      let m := { m with loaded := m.loaded.insert file.stem plugin.metadata }
      match plugin.metadata.permissions.find? (!m.hasPermission plugin.metadata.name ·) with
      | some permission => (m, .error (.permissionNotAllowed permission))
      | none => (m.install lowercase file.stem plugin, .ok plugin.metadata)

def uninstall (m : PluginManager) (name : String) : PluginManager :=
  refreshActivity
    { m with
      plugins := m.plugins.erase name
      packetHooks := m.packetHooks.filter (·.pluginName ≠ name)
      commands := retain (·.1 ≠ name) m.commands }

def unloadPlugin (m : PluginManager) (name : String) :
    PluginManager × Except PluginError PluginMetadata :=
  match m.plugins.lookup name with
  | some plugin => (m.uninstall name, .ok plugin.metadata)
  | none => (m, .error (.notFound name))

def reloadPlugin (lowercase : String → String) (m : PluginManager) (file : PluginFile) :
    PluginManager × Except PluginError PluginMetadata :=
  loadPlugin lowercase (m.unloadPlugin file.stem).1 file

/-- What happens to a manager: its operations, the proxy takes the receivers to serve them, and the
loader is told to forget a plugin. -/
inductive Label where
  | load (file : PluginFile)
  | unload (name : String)
  | reload (file : PluginFile)
  | takeReceivers
  | forget (name : String)

def step (lowercase : String → String) (m : PluginManager) : Label → Option PluginManager
  | .load file => some (m.loadPlugin lowercase file).1
  | .unload name => some (m.unloadPlugin name).1
  | .reload file => some (m.reloadPlugin lowercase file).1
  | .takeReceivers => some { m with commandReceivers := ∅ }
  | .forget name => some { m with loaded := m.loaded.erase name }

/-- Whether the plugin of the file that registers hooks, if there is one, calls itself what the file
is called. -/
def namedAlike (file : PluginFile) : Bool :=
  file.module.all fun plugin =>
    plugin.registerPacketHooks.isEmpty || plugin.metadata.name = file.stem

/-- Only plugins called like their files bring hooks, and a plugin is unloaded only after its
receiver has been taken and the loader has forgotten it. -/
def Tidy (m : PluginManager) : Label → Prop
  | .load file | .reload file => namedAlike file = true
  | .unload name => (m.loaded.lookup name).isNone ∧ (m.commandReceivers.lookup name).isNone
  | .takeReceivers | .forget _ => True

instance (m : PluginManager) : (l : Label) → Decidable (m.Tidy l)
  | .load file | .reload file => inferInstanceAs (Decidable (namedAlike file = true))
  | .unload _ => inferInstanceAs (Decidable (_ ∧ _))
  | .takeReceivers | .forget _ => inferInstanceAs (Decidable True)

/-- The managers that differ only in what an operation does to the loader's table and to the
channels. -/
def withTables (m : PluginManager) (loaded : AList fun _ : String => PluginMetadata)
    (receivers : AList fun _ : String => Nat) (channels : Nat) : PluginManager :=
  { m with loaded := loaded, commandReceivers := receivers, channels := channels }

def instantiates (file : PluginFile) : Bool :=
  file.extension = "wasm" && file.readable && file.module.isSome

/-- The loader instantiates the file, and each permission that the plugin declares is allowed to the
name that it declares. -/
def loadable (m : PluginManager) (file : PluginFile) : Bool :=
  instantiates file && file.module.all fun plugin =>
    plugin.metadata.permissions.all (m.hasPermission plugin.metadata.name)

theorem loadPlugin_of_loadable {m : PluginManager} (lowercase : String → String)
    (h : m.loadable file = true) :
    ∃ plugin, file.module = some plugin ∧ m.loadPlugin lowercase file =
      ((m.withTables (m.loaded.insert file.stem plugin.metadata) m.commandReceivers
        (m.channels + 1)).install lowercase file.stem plugin, .ok plugin.metadata) := by
  simp only [loadable, instantiates, Bool.and_eq_true, decide_eq_true_eq] at h
  obtain ⟨⟨⟨hextension, hrea⟩, hmod⟩, hall⟩ := h
  obtain ⟨plugin, hplu⟩ := isSome_iff_exists.mp hmod
  rw [hplu, all_some, List.all_eq_true] at hall
  refine ⟨plugin, hplu, ?_⟩
  unfold loadPlugin
  simp only [hextension, hrea, hplu, ne_eq, not_true_eq_false, if_false, Bool.true_eq_false]
  split
  · rename_i permission hfi
    have hgra := hall permission (List.mem_of_find?_eq_some hfi)
    have hden := List.find?_some hfi
    change (!m.hasPermission plugin.metadata.name permission) = true at hden
    rw [hgra] at hden
    cases hden
  · rfl

theorem loadPlugin_of_not_loadable {m : PluginManager} (lowercase : String → String)
    (h : m.loadable file = false) :
    ∃ loaded error, m.loadPlugin lowercase file =
      (m.withTables loaded m.commandReceivers (m.channels + 1), .error error) := by
  unfold loadPlugin
  dsimp only
  split
  · exact ⟨_, _, rfl⟩
  · rename_i hextension
    split
    · exact ⟨_, _, rfl⟩
    · rename_i hrea
      split
      · exact ⟨_, _, rfl⟩
      · rename_i plugin hplu
        split
        · exact ⟨_, _, rfl⟩
        · rename_i hno
          -- Nothing is left that could refuse the file.
          have hall := List.find?_eq_none.mp hno
          have hloa : m.loadable file = true := by
            simp only [loadable, instantiates, hplu, isSome_some, all_some,
              Bool.and_eq_true, decide_eq_true_eq, List.all_eq_true, and_true]
            refine ⟨⟨not_not.mp hextension, by simpa using hrea⟩, ?_⟩
            intro permission hmem
            have hgra : ¬(!m.hasPermission plugin.metadata.name permission) = true :=
              hall permission hmem
            simpa using hgra
          rw [hloa] at h
          cases h

variable {m : PluginManager}

theorem loadPlugin_cases (lowercase : String → String) (file : PluginFile) :
    ∃ loaded, (m.loadPlugin lowercase file).1 =
        m.withTables loaded m.commandReceivers (m.channels + 1) ∨
      ∃ plugin, file.module = some plugin ∧ (m.loadPlugin lowercase file).1 =
        (m.withTables loaded m.commandReceivers (m.channels + 1)).install lowercase file.stem
          plugin := by
  cases hfl : m.loadable file with
  | true =>
    obtain ⟨plugin, hplu, hld⟩ := loadPlugin_of_loadable lowercase hfl
    rw [hld]
    exact ⟨_, .inr ⟨plugin, hplu, rfl⟩⟩
  | false =>
    obtain ⟨loaded, error, hld⟩ := loadPlugin_of_not_loadable lowercase hfl
    rw [hld]
    exact ⟨loaded, .inl rfl⟩

theorem unloadPlugin_cases (name : String) :
    (m.unloadPlugin name).1 = m ∨ (m.unloadPlugin name).1 = m.uninstall name := by
  unfold unloadPlugin
  split
  · exact .inr rfl
  · exact .inl rfl

theorem allowedPermissions_loadPlugin (lowercase : String → String) (m : PluginManager)
    (file : PluginFile) :
    (m.loadPlugin lowercase file).1.allowedPermissions = m.allowedPermissions := by
  obtain ⟨loaded, hsm | ⟨plugin, -, hnew⟩⟩ := loadPlugin_cases lowercase file
  · rw [hsm]
    rfl
  · rw [hnew]
    rfl

theorem allowedPermissions_unloadPlugin (m : PluginManager) (name : String) :
    (m.unloadPlugin name).1.allowedPermissions = m.allowedPermissions := by
  rcases unloadPlugin_cases name with hsm | hgone
  · rw [hsm]
  · rw [hgone]
    rfl

/-- A property of managers that depends on neither loader nor channels, and that installing or
uninstalling a plugin does not lose, is kept by every step. -/
theorem step_keeps {I : PluginManager → Prop} {p : PluginFile → Prop}
    (htab : ∀ m loaded receivers channels, I m → I (m.withTables loaded receivers channels))
    (hins : ∀ m (file : PluginFile) plugin, I m → p file → file.module = some plugin →
      I (m.install lowercase file.stem plugin))
    (huni : ∀ m name, I m → I (m.uninstall name))
    (hp : ∀ file, l = .load file ∨ l = .reload file → p file)
    (hstep : step lowercase m l = some m') (h : I m) : I m' := by
  have hld (m : PluginManager) (file : PluginFile) (h : I m) (hp : p file) :
      I (m.loadPlugin lowercase file).1 := by
    obtain ⟨loaded, hsm | ⟨plugin, hmod, hnew⟩⟩ := loadPlugin_cases lowercase file
    · rw [hsm]
      exact htab _ _ _ _ h
    · rw [hnew]
      exact hins _ file plugin (htab _ _ _ _ h) hp hmod
  have hunl (name : String) : I (m.unloadPlugin name).1 := by
    rcases unloadPlugin_cases name with hsm | hgone
    · rwa [hsm]
    · rw [hgone]
      exact huni m name h
  cases l with
  | load file =>
    cases hstep
    exact hld m file h (hp file (.inl rfl))
  | unload name =>
    cases hstep
    exact hunl name
  | reload file =>
    cases hstep
    exact hld _ file (hunl file.stem) (hp file (.inr rfl))
  | takeReceivers =>
    cases hstep
    exact htab m m.loaded ∅ m.channels h
  | forget name =>
    cases hstep
    exact htab m (m.loaded.erase name) m.commandReceivers m.channels h

variable {m : PluginManager}

theorem mem_addHooks : h ∈ addHooks hooks added ↔ h ∈ hooks ∨ h ∈ added := by
  unfold addHooks
  split
  · rename_i hemp
    simp [List.isEmpty_iff.mp hemp]
  · rw [(List.perm_insertionSort Ahead _).mem_iff, List.mem_append]

instance : IsTrans RegisteredHook Ahead := ⟨fun _ _ _ hab hbc => Int32.le_trans hbc hab⟩

instance : Std.Total Ahead := ⟨fun a b => Int32.le_total b.priority a.priority⟩

theorem pairwise_addHooks (h : hooks.Pairwise Ahead) : (addHooks hooks added).Pairwise Ahead := by
  unfold addHooks
  split
  · exact h
  · exact List.pairwise_insertionSort Ahead _

theorem lookup_claim (h : (claim lowercase owner spec table label).lookup key = some entry) :
    table.lookup key = some entry ∨ entry.1 = owner := by
  unfold claim at h
  split at h
  · exact .inl h
  · by_cases hkey : key = lowercase label
    · subst hkey
      rw [AList.lookup_insert] at h
      cases h
      exact .inr rfl
    · rw [AList.lookup_insert_ne hkey] at h
      exact .inl h

theorem lookup_claimAll (h : (claimAll lowercase owner table spec).lookup key = some entry) :
    table.lookup key = some entry ∨ entry.1 = owner := by
  unfold claimAll at h
  generalize spec.label :: spec.aliases = labels at h
  induction labels generalizing table with
  | nil => exact .inl h
  | cons label rest ih =>
    rcases ih h with h | h
    · exact lookup_claim h
    · exact .inr h

theorem lookup_registered (specs : List PluginCommandSpec)
    (h : (specs.foldl (claimAll lowercase owner) table).lookup key = some entry) :
    table.lookup key = some entry ∨ entry.1 = owner := by
  induction specs generalizing table with
  | nil => exact .inl h
  | cons spec rest ih =>
    rcases ih h with h | h
    · exact lookup_claimAll h
    · exact .inr h

/-- What holds of the tables of a manager whatever plugins it has been given. -/
structure Consistent (m : PluginManager) : Prop where
  counted : m.activity.packetHookCount = m.packetHooks.length
  ordered : m.packetHooks.Pairwise Ahead
  owned : m.commands.lookup label = some entry → (m.plugins.lookup entry.1).isSome

theorem consistent_install (h : m.Consistent) :
    (m.install lowercase stem plugin).Consistent where
  counted := rfl
  ordered := pairwise_addHooks h.ordered
  owned := by
    intro label entry hent
    show ((m.plugins.insert stem plugin).lookup entry.1).isSome = true
    by_cases hown : entry.1 = stem
    · rw [hown, AList.lookup_insert]
      rfl
    · rw [AList.lookup_insert_ne hown]
      exact h.owned ((lookup_registered _ hent).resolve_right hown)

theorem consistent_uninstall (h : m.Consistent) : (m.uninstall name).Consistent where
  counted := rfl
  ordered := h.ordered.filter _
  owned := by
    intro label entry hent
    have hent : (retain (·.1 ≠ name) m.commands).lookup label = some entry := hent
    rw [lookup_retain, filter_eq_some_iff] at hent
    obtain ⟨hlk, hown⟩ := hent
    show ((m.plugins.erase name).lookup entry.1).isSome = true
    rw [AList.lookup_erase_ne (by simpa using hown)]
    exact h.owned hlk

theorem consistent_of_run (h : Run (step lowercase) ok (.new allowed) m) : m.Consistent := by
  apply h.invariant ⟨rfl, .nil, by simp [new]⟩
  intro m l m' hm _ hstep
  exact step_keeps (p := fun _ => True)
    (fun _ _ _ _ h => ⟨h.counted, h.ordered, h.owned⟩)
    (fun _ _ _ h _ _ => consistent_install h)
    (fun _ _ h => consistent_uninstall h) (fun _ _ => trivial) hstep hm

theorem packetHooks_eq_nil (h : Run (step lowercase) ok (.new allowed) m)
    (hno : m.activity.hasPacketHooks = false) : m.packetHooks = [] := by
  rw [PluginActivity.hasPacketHooks, (consistent_of_run h).counted] at hno
  simpa using hno

def Tagged (m : PluginManager) : Prop := ∀ h ∈ m.packetHooks, h.pluginName = h.registeredBy

theorem tagged_install (h : m.Tagged) (hnm : namedAlike file = true)
    (hmod : file.module = some plugin) :
    (m.install lowercase file.stem plugin).Tagged := by
  intro hook hmem
  rcases mem_addHooks.mp hmem with hold | hnew
  · exact h hook hold
  · obtain ⟨event, hev, rfl⟩ := List.mem_map.mp hnew
    rw [namedAlike, hmod, all_some, Bool.or_eq_true, List.isEmpty_iff] at hnm
    rcases hnm with hno | hnm
    · rw [hno] at hev
      cases hev
    · exact of_decide_eq_true hnm

theorem tagged_of_run (h : Run (step lowercase) Tidy (.new allowed) m) : m.Tagged := by
  apply h.invariant (by simp [Tagged, new])
  intro m l m' hm htidy hstep
  apply step_keeps (fun _ _ _ _ h => h) (fun _ _ _ h => tagged_install h)
    (fun _ _ h hook hmem => h hook (List.mem_of_mem_filter hmem)) ?_ hstep hm
  rintro file (rfl | rfl) <;> exact htidy

/-- Nothing of the plugin is left, and all that belongs to others is as it was. -/
structure Unloaded (name : String) (before after : PluginManager) : Prop where
  hooks : ∀ h ∈ after.packetHooks, h.registeredBy ≠ name
  commands : after.commands.lookup label = some entry → entry.1 ≠ name
  receiver : after.commandReceivers.lookup name = none
  loaded : after.loaded.lookup name = none
  otherHooks : after.packetHooks.filter (·.registeredBy ≠ name) =
    before.packetHooks.filter (·.registeredBy ≠ name)
  otherCommands : entry.1 ≠ name →
    (after.commands.lookup label = some entry ↔ before.commands.lookup label = some entry)
  otherReceivers : other ≠ name →
    after.commandReceivers.lookup other = before.commandReceivers.lookup other

theorem unloaded_uninstall (htag : m.Tagged) (hloa : m.loaded.lookup name = none)
    (hrec : m.commandReceivers.lookup name = none) :
    Unloaded name m (m.uninstall name) where
  hooks := by
    intro h hmem
    obtain ⟨hmem, hnm⟩ := List.mem_filter.mp hmem
    rw [← htag h hmem]
    exact of_decide_eq_true hnm
  commands := by
    intro label entry hent
    have hent : (retain (·.1 ≠ name) m.commands).lookup label = some entry := hent
    rw [lookup_retain, filter_eq_some_iff] at hent
    exact of_decide_eq_true hent.2
  receiver := hrec
  loaded := hloa
  otherHooks := by
    show (m.packetHooks.filter (·.pluginName ≠ name)).filter (·.registeredBy ≠ name) = _
    rw [List.filter_filter]
    apply List.filter_congr
    intro h hmem
    rw [htag h hmem, Bool.and_self]
  otherCommands := by
    intro entry label hnm
    show (retain (·.1 ≠ name) m.commands).lookup label = some entry ↔ _
    rw [lookup_retain, filter_eq_some_iff]
    simp [hnm]
  otherReceivers := fun _ => rfl

/-- In a tidy run an unload is complete. -/
theorem unload_complete (hrun : Run (step lowercase) Tidy (.new allowed) m)
    (htidy : m.Tidy (.unload name)) (h : m.unloadPlugin name = (after, .ok metadata)) :
    Unloaded name m after := by
  obtain ⟨hloaded, hreceiver⟩ := htidy
  have hafter : after = m.uninstall name := by
    unfold unloadPlugin at h
    split at h <;> cases h
    rfl
  rw [hafter]
  exact unloaded_uninstall (tagged_of_run hrun) (isNone_iff_eq_none.mp hloaded)
    (isNone_iff_eq_none.mp hreceiver)

def shoutFile (stem : String) : PluginFile where
  path := "plugins/" ++ stem ++ ".wasm"
  stem := stem
  extension := "wasm"
  readable := true
  module := some ⟨⟨"shout", []⟩, 0, [replacingOne], [⟨"shout", ["s"], none, ""⟩]⟩

theorem unload_complete_shout : ∃ m after metadata,
    Run (step id) Tidy (.new ∅) m ∧ m.Tidy (.unload "shout") ∧
      m.unloadPlugin "shout" = (after, .ok metadata) ∧ Unloaded "shout" m after := by
  have hrun : Run (step id) Tidy (.new ∅) _ :=
    Run.of_exec [.load (shoutFile "shout"), .takeReceivers, .forget "shout"] rfl
  exact ⟨_, _, _, hrun, by decide, rfl, unload_complete hrun (by decide) rfl⟩

/-- Whatever plugins come and go, hooks stand in the order of their priorities, and every command
has an owner that is loaded. -/
theorem hooks_ordered_and_commands_owned (h : Run (step lowercase) ok (.new allowed) m) :
    m.packetHooks.Pairwise Ahead ∧ ∀ label entry,
      m.commands.lookup label = some entry → (m.plugins.lookup entry.1).isSome := by
  have hm := consistent_of_run h
  exact ⟨hm.ordered, fun label entry => hm.owned⟩

theorem hooks_ordered_and_commands_owned_two :
    ∃ m, Run (step id) (fun _ _ => True) (.new ∅) m ∧ m.packetHooks.length = 2 ∧
      m.packetHooks.Pairwise Ahead := by
  have hrun : Run (step id) (fun _ _ => True) (.new ∅) _ :=
    Run.of_exec [.load (shoutFile "loud"), .load (shoutFile "shout")] rfl
  exact ⟨_, hrun, by decide, (hooks_ordered_and_commands_owned hrun).1⟩

/-- An unload leaves the receiver and the loader's entry, and the hooks of a plugin whose file has
another name; those it takes from the other plugin when one of their tag is unloaded. -/
theorem unload_incomplete :
    (∃ m after metadata, Run (step id) (fun _ _ => True) (.new ∅) m ∧
      m.unloadPlugin "loud" = (after, .ok metadata) ∧
      after.packetHooks.map (·.registeredBy) = ["loud"] ∧
      after.commandReceivers.lookup "loud" = some 1 ∧ (after.loaded.lookup "loud").isSome) ∧
    (∃ m after metadata, Run (step id) (fun _ _ => True) (.new ∅) m ∧
      m.unloadPlugin "shout" = (after, .ok metadata) ∧
      m.packetHooks.map (·.registeredBy) = ["loud", "shout"] ∧ after.packetHooks.length = 0) := by
  constructor
  · have hrun : Run (step id) (fun _ _ => True) (.new ∅) _ :=
      Run.of_exec [.load (shoutFile "loud")] rfl
    exact ⟨_, _, _, hrun, rfl, by decide, by decide, by decide⟩
  · have hrun : Run (step id) (fun _ _ => True) (.new ∅) _ :=
      Run.of_exec [.load (shoutFile "loud"), .load (shoutFile "shout")] rfl
    exact ⟨_, _, _, hrun, rfl, by decide, by decide⟩

end PluginManager

end Kojacoord
