import Kojacoord.Plugin.CommandProcessors
import Kojacoord.Plugin.HostImports

namespace Kojacoord
open AssocList Runs Option

def readVaru32Loop (result shift : UInt32) (i : Nat) : List UInt8 → Option (UInt32 × Nat)
  | [] => none
  | b :: rest =>
    let result := result ||| (b &&& 0x7f).toUInt32 <<< shift
    if b &&& 0x80 = 0 then some (result, i + 1) else readVaru32Loop result (shift + 7) (i + 1) rest

def readVaru32 (bytes : List UInt8) : Option (UInt32 × Nat) := readVaru32Loop 0 0 0 (bytes.take 5)

def namedPayload (names : List String) (contents : List UInt8) : Option (List UInt8) :=
  (readVaru32 contents).bind fun (nameLen, nameUsed) =>
    if nameUsed + nameLen.toNat ≤ contents.length ∧
        names.any (·.toUTF8.data.toList = (contents.drop nameUsed).take nameLen.toNat) then
      some (contents.drop (nameUsed + nameLen.toNat))
    else none

def findSection (names : List String) : List UInt8 → Option (List UInt8)
  | [] => none
  | id :: rest =>
    match readVaru32 rest with
    | none => none
    | some (size, used) =>
      let body := rest.drop used
      if body.length < size.toNat then none
      else
        match if id = 0 then namedPayload names (body.take size.toNat) else none with
        | some payload => some payload
        | none => findSection names (body.drop size.toNat)
termination_by bytes => bytes.length
decreasing_by
  simp only [List.length_drop, List.length_cons]
  omega

def wasmMagic : List UInt8 := [0x00, 0x61, 0x73, 0x6d]

def findCustomSection (bytes : List UInt8) (names : List String) : Option (List UInt8) :=
  if bytes.length < 8 ∨ bytes.take 4 ≠ wasmMagic then none else findSection names (bytes.drop 8)

structure PluginVerifier where
  trustedHashes : List String
  requireVerification : Bool

inductive WasmLoadError where
  | missingMagicNumber
  | noTrustedHashes (name digest : String)
  | notTrusted (name digest : String)
  | failedToCompile

/-- How modules are hashed and compiled and their JSON is read is not looked into. -/
structure WasmLoader where
  verifier : PluginVerifier
  bytesSha256 : List UInt8 → String
  compiles : List UInt8 → Bool
  parseMetadata : List UInt8 → Option PluginMetadata

def WasmLoader.extractMetadata (loader : WasmLoader) (bytes : List UInt8) (name : String) : PluginMetadata :=
  match findCustomSection bytes ["kojacoord_metadata", "kojacoord:meta"] with
  | some payload =>
    match loader.parseMetadata payload with
    | some metadata => if metadata.name.isEmpty then { metadata with name := name } else metadata
    | none => ⟨name, []⟩
  | none => ⟨name, []⟩

def WasmLoader.prepare (loader : WasmLoader) (name : String) (bytes : List UInt8) :
    Except WasmLoadError PluginMetadata :=
  let digest := loader.bytesSha256 bytes
  if bytes.length < 8 ∨ bytes.take 4 ≠ wasmMagic then .error .missingMagicNumber
  else if loader.verifier.trustedHashes.isEmpty ∧ loader.verifier.requireVerification then
    .error (.noTrustedHashes name digest)
  else if ¬loader.verifier.trustedHashes.isEmpty ∧
      ¬loader.verifier.trustedHashes.contains digest then
    .error (.notTrusted name digest)
  else if ¬loader.compiles bytes then .error .failedToCompile
  else .ok (loader.extractMetadata bytes name)

structure PluginSource where
  path : String
  stem : String
  extension : String
  bytes : Option (List UInt8)

def PluginSource.file (source : PluginSource) (plugin : Option WasmModule) : PluginFile where
  path := source.path
  stem := source.stem
  extension := source.extension
  readable := source.bytes.isSome
  module := plugin

structure Loading where
  source : PluginSource
  metadata : PluginMetadata
  host : WasmHostState

structure Sandbox where
  manager : PluginManager
  loading : Option Loading
  stores : AList fun _ : String => WasmHostState

namespace Sandbox

def new (allowed : AList fun _ : String => List PluginPermission) : Sandbox where
  manager := .new allowed
  loading := none
  stores := ∅

def instantiated (loader : WasmLoader) (source : PluginSource) : Option PluginMetadata :=
  if source.extension = "wasm" then
    source.bytes.bind fun bytes => (loader.prepare source.stem bytes).toOption
  else none

def newHost (permissions : List PluginPermission) : WasmHostState where
  permissions := permissions
  runtime := true
  redis := ⟨none, none⟩

/-- What can happen: a load starts; a guest, that of the module being loaded or of a loaded plugin,
calls an import; the start of the module or its `init` traps; a load ends with what the export
`metadata` has given; a plugin is unloaded. -/
inductive Label where
  | load (source : PluginSource)
  | call (plugin : Option String) (memory : GuestMemory) (outside : Outside)
      (hostImport : HostImport)
  | abort
  | finish (runtime : Option PluginMetadata) (subscribedEvents : UInt32)
      (hooks : List PacketEvent) (commands : List PluginCommandSpec)
  | unload (name : String)

/-- The file and the store of a guest whose code can run. While a module is loaded no other runs. -/
def running (s : Sandbox) : Option String → Option (String × WasmHostState)
  | none => s.loading.map fun loading => (loading.source.stem, loading.host)
  | some name =>
    if s.loading.isSome then none else (s.stores.lookup name).map fun host => (name, host)

def setHost (s : Sandbox) (host : WasmHostState) : Option String → Sandbox
  | none => { s with loading := s.loading.map fun loading => { loading with host := host } }
  | some name => { s with stores := s.stores.insert name host }

/-- The manifest that `metadata` gives replaces the one from the section, and only then does the
manager compare the permissions with those that are allowed. -/
def finishLoad (lowercase : String → String) (s : Sandbox) (loading : Loading)
    (runtime : Option PluginMetadata) (subscribedEvents : UInt32) (hooks : List PacketEvent)
    (commands : List PluginCommandSpec) : Sandbox :=
  let metadata := runtime.getD loading.metadata
  let host :=
    match runtime with
    | some runtime => { loading.host with permissions := runtime.permissions }
    | none => loading.host
  let loaded := s.manager.loadPlugin lowercase
    (loading.source.file (some ⟨metadata, subscribedEvents, hooks, commands⟩))
  { manager := loaded.1
    loading := none
    stores := if loaded.2.isOk then s.stores.insert loading.source.stem host else s.stores }

def step (loader : WasmLoader) (lowercase : String → String) (s : Sandbox) :
    Label → Option Sandbox
  | .load source =>
    if s.loading.isSome then none
    else
      match instantiated loader source with
      | some metadata =>
        some { s with loading := some ⟨source, metadata, newHost metadata.permissions⟩ }
      | none => some { s with manager := (s.manager.loadPlugin lowercase (source.file none)).1 }
  | .call plugin memory outside hostImport =>
    (s.running plugin).map fun (_, host) =>
      match host.call memory outside hostImport with
      | some outcome => s.setHost outcome.host plugin
      | none => s
  | .abort =>
    s.loading.map fun loading =>
      { s with
        manager := (s.manager.loadPlugin lowercase (loading.source.file none)).1
        loading := none }
  | .finish runtime subscribedEvents hooks commands =>
    s.loading.map fun loading =>
      s.finishLoad lowercase loading runtime subscribedEvents hooks commands
  | .unload name =>
    if s.loading.isSome then none
    else some { s with
      manager := (s.manager.unloadPlugin name).1
      stores := s.stores.erase name }

/-- No import of a guest whose code can run gets anywhere unless the operator allows its permission
to the file of the guest. -/
def Enforced (s : Sandbox) : Prop :=
  ∀ plugin name host, s.running plugin = some (name, host) → ∀ memory outside hostImport,
    s.manager.hasPermission name hostImport.gate = false → host.Denies memory outside hostImport

def gates : List PluginPermission := [.useRedis, .useHttp]

/-- Of the permissions that imports look at, only those that are allowed to the file are there. -/
def grants (m : PluginManager) (name : String) (permissions : List PluginPermission) : Bool :=
  permissions.all fun p => !gates.contains p || m.hasPermission name p

/-- A module declares no more in its section than its file is allowed, and its manifest does not
either if the manager accepts it. -/
def Honest (loader : WasmLoader) (s : Sandbox) : Label → Prop
  | .load source =>
    ∀ metadata ∈ instantiated loader source, grants s.manager source.stem metadata.permissions
  | .finish runtime .. =>
    ∀ loading ∈ s.loading, ∀ manifest ∈ runtime,
      manifest.permissions.all (s.manager.hasPermission manifest.name) →
        grants s.manager loading.source.stem manifest.permissions
  | .call .. | .abort | .unload _ => True

structure Lawful (s : Sandbox) : Prop where
  underway : s.loading = some current →
    grants s.manager current.source.stem current.host.permissions = true
  stored : s.stores.lookup name = some host → grants s.manager name host.permissions = true

variable {s : Sandbox} {m : PluginManager} {host : WasmHostState} {hostImport : HostImport}

theorem has_of_grants (h : grants m name host.permissions = true)
    (hden : m.hasPermission name hostImport.gate = false) :
    host.has hostImport.gate = false := by
  by_contra hhas
  have hmem : hostImport.gate ∈ host.permissions := by simpa [WasmHostState.has] using hhas
  have hgra := List.all_eq_true.mp h _ hmem
  rw [hden] at hgra
  cases hostImport <;> cases hgra

theorem running_cases (h : s.running plugin = some (name, host)) :
    (∃ current, plugin = none ∧ s.loading = some current ∧ current.source.stem = name ∧
      current.host = host) ∨ (plugin = some name ∧ s.stores.lookup name = some host) := by
  cases plugin with
  | none =>
    obtain ⟨current, hloa, heq⟩ := map_eq_some_iff.mp h
    cases heq
    exact .inl ⟨current, rfl, hloa, rfl, rfl⟩
  | some other =>
    simp only [running] at h
    split at h
    · cases h
    · obtain ⟨_, hsto, heq⟩ := map_eq_some_iff.mp h
      cases heq
      exact .inr ⟨rfl, hsto⟩

theorem Lawful.enforced (h : s.Lawful) : s.Enforced := by
  intro plugin name host hrun memory outside hostImport hden
  apply WasmHostState.denies_of_not_has
  apply has_of_grants _ hden
  obtain ⟨current, -, hloa, rfl, rfl⟩ | ⟨-, hsto⟩ := running_cases hrun
  · exact h.underway hloa
  · exact h.stored hsto

theorem grants_congr (h : m'.allowedPermissions = m.allowedPermissions) :
    grants m' name permissions = grants m name permissions := by
  simp only [grants, PluginManager.hasPermission, h]

theorem lawful_setHost (h : s.Lawful) (hrun : s.running plugin = some (name, host))
    (hsm : host'.permissions = host.permissions) : (s.setHost host' plugin).Lawful := by
  obtain ⟨current, rfl, hloa, rfl, rfl⟩ | ⟨rfl, hsto⟩ := running_cases hrun
  · refine ⟨?_, h.stored⟩
    intro changed hcha
    obtain ⟨_, hold, rfl⟩ := map_eq_some_iff.mp hcha
    rw [hloa] at hold
    cases hold
    rw [hsm]
    exact h.underway hloa
  · refine ⟨h.underway, ?_⟩
    intro other changed hlk
    by_cases hoth : other = name
    · rw [hoth, setHost, AList.lookup_insert] at hlk
      cases hlk
      rw [hoth, hsm]
      exact h.stored hsto
    · rw [setHost, AList.lookup_insert_ne hoth] at hlk
      exact h.stored hlk

theorem lawful_manager (h : s.Lawful)
    (hall : m.allowedPermissions = s.manager.allowedPermissions) :
    { s with manager := m }.Lawful := by
  constructor
  · intro current hloa
    rw [grants_congr hall]
    exact h.underway hloa
  · intro name host hsto
    rw [grants_congr hall]
    exact h.stored hsto

theorem allowed_of_loadPlugin_isOk {source : PluginSource} {plugin : WasmModule}
    (h : (m.loadPlugin lowercase (source.file (some plugin))).2.isOk = true) :
    plugin.metadata.permissions.all (m.hasPermission plugin.metadata.name) = true := by
  cases hfl : m.loadable (source.file (some plugin)) with
  | true => exact (Bool.and_eq_true_iff.mp hfl).2
  | false =>
    obtain ⟨loaded, error, hld⟩ := PluginManager.loadPlugin_of_not_loadable lowercase hfl
    rw [hld] at h
    cases h

theorem lawful_finishLoad (h : s.Lawful) (hloa : s.loading = some current)
    (hhon : Honest loader s (.finish runtime events hooks commands)) :
    (s.finishLoad lowercase current runtime events hooks commands).Lawful := by
  have hmgr := lawful_manager h (s.manager.allowedPermissions_loadPlugin lowercase
    (current.source.file (some ⟨runtime.getD current.metadata, events, hooks, commands⟩)))
  constructor
  · intro _ hno
    cases hno
  · intro name host hsto
    simp only [finishLoad] at hsto ⊢
    split at hsto
    · rename_i hacc
      by_cases hnm : name = current.source.stem
      · rw [hnm, AList.lookup_insert] at hsto
        cases hsto
        rw [hnm, grants_congr (s.manager.allowedPermissions_loadPlugin lowercase _)]
        cases runtime with
        | none => exact h.underway hloa
        | some manifest =>
          exact hhon current hloa manifest rfl (allowed_of_loadPlugin_isOk hacc)
      · rw [AList.lookup_insert_ne hnm] at hsto
        exact hmgr.stored hsto
    · exact hmgr.stored hsto

theorem lawful_step (h : s.Lawful) (hhon : Honest loader s l)
    (hstep : step loader lowercase s l = some s') : s'.Lawful := by
  cases l with
  | load source =>
    simp only [step] at hstep
    split at hstep
    · cases hstep
    · split at hstep
      · rename_i metadata hmet
        cases hstep
        refine ⟨?_, h.stored⟩
        intro current hloa
        cases hloa
        exact hhon metadata hmet
      · cases hstep
        exact lawful_manager h (s.manager.allowedPermissions_loadPlugin lowercase _)
  | call plugin memory outside hostImport =>
    obtain ⟨⟨name, host⟩, hrun, rfl⟩ := map_eq_some_iff.mp hstep
    dsimp only
    split
    · rename_i outcome hcl
      exact lawful_setHost h hrun (WasmHostState.permissions_call hcl)
    · exact h
  | abort =>
    obtain ⟨current, hloa, rfl⟩ := map_eq_some_iff.mp hstep
    have hmgr := lawful_manager h
      (s.manager.allowedPermissions_loadPlugin lowercase (current.source.file none))
    refine ⟨?_, hmgr.stored⟩
    intro _ hno
    cases hno
  | finish runtime events hooks commands =>
    obtain ⟨current, hloa, rfl⟩ := map_eq_some_iff.mp hstep
    exact lawful_finishLoad h hloa hhon
  | unload name =>
    simp only [step] at hstep
    split at hstep
    · cases hstep
    · cases hstep
      have hmgr := lawful_manager h (s.manager.allowedPermissions_unloadPlugin name)
      refine ⟨hmgr.underway, ?_⟩
      intro other host hsto
      by_cases hoth : other = name
      · rw [hoth, AList.lookup_erase] at hsto
        cases hsto
      · rw [AList.lookup_erase_ne hoth] at hsto
        exact hmgr.stored hsto

/-- In every run whose modules are honest, no guest gets anything, from instantiation to unload,
from an import whose permission its file is not allowed. -/
theorem enforced_of_run
    (h : Run (step loader lowercase) (Honest loader) (.new allowed) s) : s.Enforced := by
  have hlawful : s.Lawful := by
    apply h.invariant ⟨by simp [new], by simp [new]⟩
    intro s l s' hs hhonest hstep
    exact lawful_step hs hhonest hstep
  exact hlawful.enforced

def bareModule : List UInt8 := wasmMagic ++ [1, 0, 0, 0]

def taggedModule : List UInt8 :=
  bareModule ++ [0, 16, 14] ++ "kojacoord:meta".toUTF8.data.toList ++ [0]

def spySource (bytes : List UInt8) : PluginSource := ⟨"plugins/spy.wasm", "spy", "wasm", some bytes⟩

def spyMetadata (name : String) : PluginMetadata := ⟨name, [.useHttp]⟩

def spyLoader : WasmLoader where
  verifier := ⟨[], false⟩
  bytesSha256 _ := ""
  compiles _ := true
  parseMetadata payload := if payload = [0] then some (spyMetadata "spy") else none

theorem instantiated_bareModule :
    instantiated spyLoader (spySource bareModule) = some ⟨"spy", []⟩ := by
  simp [instantiated, spySource, WasmLoader.prepare, WasmLoader.extractMetadata, findCustomSection,
    findSection, bareModule, wasmMagic, spyLoader, Except.toOption]

theorem findCustomSection_taggedModule :
    findCustomSection taggedModule ["kojacoord_metadata", "kojacoord:meta"] = some [0] := by
  have hwalk : findSection ["kojacoord_metadata", "kojacoord:meta"]
      (0 :: 16 :: 14 :: "kojacoord:meta".toUTF8.data.toList ++ [0]) = some [0] := by
    rw [List.cons_append, findSection]
    rfl
  exact hwalk

theorem instantiated_taggedModule :
    instantiated spyLoader (spySource taggedModule) = some (spyMetadata "spy") := by
  have hmet : spyLoader.extractMetadata taggedModule "spy" = spyMetadata "spy" := by
    rw [WasmLoader.extractMetadata, findCustomSection_taggedModule]
    rfl
  rw [← hmet]
  rfl

def starting (allowed : AList fun _ : String => List PluginPermission) (bytes : List UInt8)
    (metadata : PluginMetadata) : Sandbox :=
  { new allowed with loading := some ⟨spySource bytes, metadata, newHost metadata.permissions⟩ }

theorem step_load_spy (h : instantiated spyLoader (spySource bytes) = some metadata) :
    step spyLoader id (new allowed) (.load (spySource bytes)) =
      some (starting allowed bytes metadata) := by
  simp [step, h, new, starting]

theorem enforced_of_run_granted :
    ∃ s, Run (step spyLoader id) (Honest spyLoader) (.new (.singleton "spy" [.useHttp])) s ∧
      (s.running (some "spy")).isSome ∧ s.Enforced := by
  have hload : Honest spyLoader (new (.singleton "spy" [.useHttp]))
      (.load (spySource taggedModule)) := by
    intro metadata hmetadata
    rw [instantiated_taggedModule] at hmetadata
    cases hmetadata
    decide
  have hfinish : Honest spyLoader (starting (.singleton "spy" [.useHttp]) taggedModule
      (spyMetadata "spy")) (.finish none 0 [] []) := by
    intro current _ manifest hnone
    cases hnone
  have hrun := Run.tail (.tail .refl hload (step_load_spy instantiated_taggedModule)) hfinish rfl
  exact ⟨_, hrun, by decide, enforced_of_run hrun⟩

def spyRequest : HostImport := .httpRequest 0 0 0 0 0 0 0 2

def Answered (host : WasmHostState) : Prop :=
  ∃ outcome, host.call (some [0, 0]) (fun _ => some [79, 75]) spyRequest = some outcome ∧
    outcome.asked = some (.http [] [] []) ∧ outcome.code = 2 ∧ outcome.memory = some [79, 75]

theorem answered_newHost : Answered (newHost [.useHttp]) := ⟨_, rfl, rfl, rfl, rfl⟩

theorem not_enforced (plugin : Option String) (hrun : s.running plugin = some (name, host))
    (hans : Answered host)
    (hden : s.manager.hasPermission name .useHttp = false) : ¬s.Enforced := by
  intro henf
  obtain ⟨outcome, hcl, hask, -⟩ := hans
  have href := henf plugin name host hrun _ _ spyRequest hden outcome hcl
  rw [href] at hask
  cases hask

/-- A guest gets an answer to an HTTP request without a permission for its file: while loaded,
because its section says that it may, although the load is then refused; and afterwards, because its
manifest has the name of another plugin. -/
theorem answered_without_permission :
    (∃ s host, Run (step spyLoader id) (fun _ _ => True) (.new ∅) s ∧
      s.running none = some ("spy", host) ∧ Answered host ∧ ¬s.Enforced ∧
      (s.manager.loadPlugin id ((spySource taggedModule).file
        (some ⟨spyMetadata "spy", 0, [], []⟩))).2.isOk = false) ∧
    (∃ s host, Run (step spyLoader id) (fun _ _ => True)
        (.new (.singleton "trusted" [.useHttp])) s ∧
      s.running (some "spy") = some ("spy", host) ∧ Answered host ∧ ¬s.Enforced) := by
  constructor
  · have hrun : Run (step spyLoader id) (fun _ _ => True) (.new ∅) _ :=
      .tail .refl trivial (step_load_spy instantiated_taggedModule)
    exact ⟨_, _, hrun, rfl, answered_newHost,
      not_enforced none rfl answered_newHost (by decide), by decide⟩
  · have hrun : Run (step spyLoader id) (fun _ _ => True)
        (.new (.singleton "trusted" [.useHttp])) _ :=
      .tail (.tail .refl trivial (step_load_spy instantiated_bareModule)) trivial
        (l := .finish (some (spyMetadata "trusted")) 0 [] []) rfl
    exact ⟨_, _, hrun, rfl, answered_newHost,
      not_enforced (some "spy") rfl answered_newHost (by decide)⟩

end Sandbox

end Kojacoord
