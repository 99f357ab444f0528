import Mathlib.Data.List.AList

namespace Kojacoord
open List Option

/-- The bytes of a file name, which stand for its path in the watched directory. -/
abbrev FileName := List UInt8

namespace FileName

/-- What stands before the last dot and after it; a name that starts with its only dot is not
split. -/
def rsplitAtDot (file : FileName) : Option FileName × Option FileName :=
  let after := (file.reverse.takeWhile (· ≠ 0x2e)).reverse
  if file = [0x2e, 0x2e] then (some file, none)
  else if after.length = file.length then (none, some file)
  else if after.length + 1 = file.length then (some file, none)
  else (some (file.take (file.length - after.length - 1)), some after)

def fileStem (file : FileName) : Option FileName := file.rsplitAtDot.1.or file.rsplitAtDot.2

def extension (file : FileName) : Option FileName :=
  file.rsplitAtDot.1.bind fun _ => file.rsplitAtDot.2

def toStr (file : FileName) : Option String := String.fromUTF8? ⟨file.toArray⟩

def isPlugin (file : FileName) : Bool :=
  match file.extension.bind toStr with
  | some ext => ext.toLower ∈ ["dll", "so", "dylib", "kpl", "wasm"]
  | none => false

def pluginName (file : FileName) : String := (file.fileStem.bind toStr).getD "unknown"

end FileName

abbrev SystemTime := Int

abbrev PluginConfig := AList fun _ : String => String

abbrev PluginConfigs := AList fun _ : String => PluginConfig

structure DirEntry where
  name : FileName
  modified : Option SystemTime

/-- What `read_dir` lists until its end or its first error; a directory has no name twice. -/
structure DirListing where
  entries : List DirEntry
  nodup : (entries.map DirEntry.name).Nodup

abbrev Mtimes := AList fun _ : FileName => SystemTime

namespace HotReload

structure Watcher where
  mtimes : Mtimes
  queued : List (FileName × PluginConfig)

def visit (configs : PluginConfigs) (w : Watcher) (entry : DirEntry) : Watcher :=
  if entry.name.isPlugin then
    match entry.modified with
    | none => w
    | some mtime =>
      let prev := w.mtimes.lookup entry.name
      let mtimes := w.mtimes.insert entry.name mtime
      if prev.any (· ≠ mtime) then
        let cfg := (configs.lookup entry.name.pluginName).getD ∅
        ⟨mtimes, w.queued ++ [(entry.name, cfg)]⟩
      else { w with mtimes }
  else w

def poll (configs : PluginConfigs) (mtimes : Mtimes) (listing : Option DirListing) : Watcher :=
  match listing with
  | none => ⟨mtimes, []⟩
  | some l => l.entries.foldl (visit configs) ⟨mtimes, []⟩

def mtimesAt (configs : PluginConfigs) (polls : Nat → Option DirListing) : Nat → Mtimes
  | 0 => ∅
  | k + 1 => (poll configs (mtimesAt configs polls k) (polls k)).mtimes

def queuedAt (configs : PluginConfigs) (polls : Nat → Option DirListing) (k : Nat) :
    List FileName :=
  (poll configs (mtimesAt configs polls k) (polls k)).queued.map Prod.fst

end HotReload

section Contents

def DirEntry.content (e : DirEntry) : Option SystemTime :=
  if e.name.isPlugin then e.modified else none

def contentIn (entries : List DirEntry) (name : FileName) : Option SystemTime :=
  (entries.find? (·.name = name)).bind DirEntry.content

def DirListing.contents (listing : Option DirListing) : FileName → Option SystemTime :=
  contentIn (listing.elim [] DirListing.entries)

def DirListing.latest (baseline : Option DirListing) (polls : Nat → Option DirListing) :
    Nat → FileName → Option SystemTime
  | 0, name => contents baseline name
  | k + 1, name => (contents (polls k) name).or (latest baseline polls k name)

def HotReload.QueuesChanged (configs : PluginConfigs) (baseline : Option DirListing)
    (polls : Nat → Option DirListing) (k : Nat) : Prop :=
  (queuedAt configs polls k).Nodup ∧ ∀ name, name ∈ queuedAt configs polls k ↔
    ∃ time earlier, DirListing.contents (polls k) name = some time ∧
      DirListing.latest baseline polls k name = some earlier ∧ earlier ≠ time

end Contents

open DirListing

namespace HotReload
variable {w : Watcher} {e : DirEntry} {listed : List DirEntry} {listing : Option DirListing}

def differs (mtimes : Mtimes) (e : DirEntry) : Bool :=
  e.content.any fun time => (mtimes.lookup e.name).any (· ≠ time)

theorem visit_of_none (h : e.content = none) : visit configs w e = w := by
  unfold DirEntry.content at h
  unfold visit
  split at h
  · rw [h]
    split <;> rfl
  · rename_i hplu
    exact if_neg hplu

theorem visit_of_some (h : e.content = some time) :
    visit configs w e = ⟨w.mtimes.insert e.name time,
      w.queued ++ if (w.mtimes.lookup e.name).any (· ≠ time) then
        [(e.name, (configs.lookup e.name.pluginName).getD ∅)] else []⟩ := by
  unfold DirEntry.content at h
  split at h
  · rename_i hplu
    rw [visit, if_pos hplu, h]
    dsimp only
    split
    · rfl
    · rw [append_nil]
  · cases h

theorem lookup_visit : (visit configs w e).mtimes.lookup name =
    (if e.name = name then e.content else none).or (w.mtimes.lookup name) := by
  cases hcon : e.content with
  | none =>
    rw [visit_of_none hcon]
    simp
  | some time =>
    rw [visit_of_some hcon]
    by_cases h : e.name = name
    · rw [if_pos h, ← h]
      exact AList.lookup_insert _
    · rw [if_neg h]
      exact AList.lookup_insert_ne (.symm h)

theorem queued_visit : (visit configs w e).queued.map Prod.fst =
    w.queued.map Prod.fst ++ ([e].filter (differs w.mtimes)).map DirEntry.name := by
  rw [filter_singleton, differs]
  cases hcon : e.content with
  | none =>
    rw [visit_of_none hcon]
    exact (append_nil _).symm
  | some time =>
    rw [visit_of_some hcon, map_append, any_some]
    cases (w.mtimes.lookup e.name).any (· ≠ time) <;> rfl

theorem differs_visit (h : e.name ≠ d.name) :
    differs (visit configs w e).mtimes d = differs w.mtimes d := by
  rw [differs, lookup_visit, if_neg h, none_or, differs]

theorem name_ne (h : e.name ∉ listed.map DirEntry.name) (hd : d ∈ listed) : e.name ≠ d.name := by
  intro heq
  exact h (heq ▸ mem_map_of_mem hd)

theorem lookup_foldl (h : (listed.map DirEntry.name).Nodup) :
    (listed.foldl (visit configs) w).mtimes.lookup name =
      (contentIn listed name).or (w.mtimes.lookup name) := by
  induction listed generalizing w with
  | nil => rfl
  | cons e listed ih =>
    obtain ⟨hne, hnd⟩ := nodup_cons.mp h
    rw [foldl_cons, ih hnd, lookup_visit, contentIn, contentIn, find?_cons]
    by_cases hnm : e.name = name
    · have hno : listed.find? (·.name = name) = none := by
        rw [find?_eq_none]
        intro d hd
        simpa using hnm ▸ (name_ne hne hd).symm
      simp [hnm, hno]
    · simp [hnm]

theorem queued_foldl (h : (listed.map DirEntry.name).Nodup) :
    (listed.foldl (visit configs) w).queued.map Prod.fst =
      w.queued.map Prod.fst ++ (listed.filter (differs w.mtimes)).map DirEntry.name := by
  induction listed generalizing w with
  | nil => exact (append_nil _).symm
  | cons e listed ih =>
    obtain ⟨hne, hnd⟩ := nodup_cons.mp h
    have hsm : listed.filter (differs (visit configs w e).mtimes) =
        listed.filter (differs w.mtimes) :=
      filter_congr fun d hd => differs_visit (name_ne hne hd)
    rw [foldl_cons, ih hnd, queued_visit, hsm, append_assoc, ← map_append,
      ← filter_append, singleton_append]

theorem lookup_poll : (poll configs mtimes listing).mtimes.lookup name =
    (contents listing name).or (mtimes.lookup name) := by
  cases listing with
  | none => rfl
  | some l => exact lookup_foldl l.nodup

theorem queued_poll : (poll configs mtimes listing).queued.map Prod.fst =
    ((listing.elim [] entries).filter (differs mtimes)).map DirEntry.name := by
  cases listing with
  | none => rfl
  | some l => exact queued_foldl l.nodup

theorem nodup_names (listing : Option DirListing) :
    ((listing.elim [] entries).map DirEntry.name).Nodup := by
  cases listing with
  | none => exact nodup_nil
  | some l => exact l.nodup

theorem contents_eq_some : contents listing name = some time ↔
    ∃ e ∈ listing.elim [] entries, e.name = name ∧ e.content = some time := by
  rw [contents, contentIn, bind_eq_some_iff]
  constructor
  · rintro ⟨e, hfi, hcon⟩
    exact ⟨e, mem_of_find?_eq_some hfi, by simpa using find?_some hfi, hcon⟩
  · rintro ⟨e, hmem, hnm, hcon⟩
    obtain ⟨d, hfi⟩ := isSome_iff_exists.mp
      (find?_isSome (p := (·.name = name)).mpr ⟨e, hmem, by simpa using hnm⟩)
    have hd : d.name = name := by simpa using find?_some hfi
    have heq := inj_on_of_nodup_map (nodup_names listing) (mem_of_find?_eq_some hfi) hmem
      (hd.trans hnm.symm)
    exact ⟨e, heq ▸ hfi, hcon⟩

theorem mem_queued_poll : name ∈ (poll configs mtimes listing).queued.map Prod.fst ↔
    ∃ time earlier, contents listing name = some time ∧
      mtimes.lookup name = some earlier ∧ earlier ≠ time := by
  simp only [queued_poll, List.mem_map, mem_filter, contents_eq_some, differs,
    Option.any_eq_true, decide_eq_true_eq]
  constructor
  · rintro ⟨e, ⟨hmem, time, hcon, earlier, hlk, hne⟩, rfl⟩
    exact ⟨time, earlier, ⟨e, hmem, rfl, hcon⟩, hlk, hne⟩
  · rintro ⟨time, earlier, ⟨e, hmem, rfl, hcon⟩, hlk, hne⟩
    exact ⟨e, ⟨hmem, time, hcon, earlier, hlk, hne⟩, rfl⟩

theorem lookup_mtimesAt :
    (mtimesAt configs polls k).lookup name = latest none polls k name := by
  induction k with
  | zero => rfl
  | succ k ih => rw [mtimesAt, lookup_poll, ih, latest]

theorem nodup_queuedAt : (queuedAt configs polls k).Nodup := by
  rw [queuedAt, queued_poll]
  exact (nodup_names _).sublist (filter_sublist.map _)

end HotReload

theorem DirListing.latest_eq_or : latest baseline polls k name =
    (latest none polls k name).or (contents baseline name) := by
  induction k with
  | zero => rfl
  | succ k ih => rw [latest, ih, latest, Option.or_assoc]

theorem DirListing.latest_none_iff :
    latest none polls k name = none ↔ ∀ j < k, contents (polls j) name = none := by
  induction k with
  | zero => simp [latest, contents, contentIn]
  | succ k ih => rw [latest, or_eq_none_iff, ih, Nat.forall_lt_succ_right, and_comm]

/-- The reloads are right at all polls exactly if no path of the baseline has another time when a
poll first lists it: the watcher reads no baseline. -/
theorem HotReload.queuesChanged_iff (configs : PluginConfigs) (baseline : Option DirListing)
    (polls : Nat → Option DirListing) :
    (∀ k, QueuesChanged configs baseline polls k) ↔
      ∀ name k before time, contents baseline name = some before →
        (∀ j < k, contents (polls j) name = none) → contents (polls k) name = some time →
          time = before := by
  have hqueued (k name) : name ∈ queuedAt configs polls k ↔ ∃ time earlier,
      contents (polls k) name = some time ∧ latest none polls k name = some earlier ∧
        earlier ≠ time := by
    rw [queuedAt, mem_queued_poll, lookup_mtimesAt]
  constructor
  · intro h name k before time hbefore hfirst htime
    by_contra hne
    have hnone := latest_none_iff.mpr hfirst
    have hlatest : latest baseline polls k name = some before := by
      rw [latest_eq_or, hnone, none_or, hbefore]
    obtain ⟨_, _, _, hsome, _⟩ :=
      (hqueued k name).mp (((h k).2 name).mpr ⟨time, before, htime, hlatest, Ne.symm hne⟩)
    cases hnone.symm.trans hsome
  · intro h k
    refine ⟨nodup_queuedAt, fun name => (hqueued k name).trans ?_⟩
    cases hlatest : latest none polls k name with
    | some earlier => rw [latest_eq_or, hlatest, some_or]
    | none =>
      rw [latest_eq_or, hlatest, none_or]
      constructor
      · rintro ⟨_, _, _, hsome, _⟩
        cases hsome
      · rintro ⟨time, before, htime, hbefore, hne⟩
        exact absurd (h name k before time hbefore (latest_none_iff.mp hlatest) htime) hne.symm

def pluginListing (time : SystemTime) : Option DirListing :=
  some ⟨[⟨[0x61, 0x2e, 0x77, 0x61, 0x73, 0x6d], some time⟩], nodup_singleton _⟩

theorem HotReload.not_queued_after_start :
    ¬ ∀ k, QueuesChanged ∅ (pluginListing 1) (fun _ => pluginListing 2) k := by
  intro h
  have hmem := ((h 0).2 [0x61, 0x2e, 0x77, 0x61, 0x73, 0x6d]).mpr
    ⟨2, 1, by decide +kernel, by decide +kernel, by decide⟩
  have hqueued : queuedAt ∅ (fun _ => pluginListing 2) 0 = [] := by decide +kernel
  rw [hqueued] at hmem
  cases hmem

end Kojacoord
