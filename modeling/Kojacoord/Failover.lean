import Kojacoord.Lib.AssocList
import Kojacoord.Routing

namespace Kojacoord
open AssocList FailoverGroups List

structure FailoverGroup where
  name : String
  primary : String
  standbys : List String
  autoFailback : Bool

namespace FailoverGroups

def loadGroups (groups : List FailoverGroup) : FailoverGroups :=
  groups.foldl (fun gs g =>
    gs.insert g.name ⟨g.name, g.primary, g.standbys, g.autoFailback, g.primary⟩)
    ∅

def checkGroups (r : ServerRegistry) (gs : FailoverGroups) : List String → FailoverGroups
  | [] => gs
  | name :: rest =>
    match gs.lookup name with
    | some g => checkGroups r (gs.replace name (checkGroupFailover r g)) rest
    | none => checkGroups r gs rest

def checkAndFailover (r : ServerRegistry) (gs : FailoverGroups) : FailoverGroups :=
  checkGroups r gs gs.keys

def afterPasses (gs : FailoverGroups) (history : List ServerRegistry) : FailoverGroups :=
  history.foldl (fun gs r => checkAndFailover r gs) gs

theorem lookup_checkGroups (r : ServerRegistry) (gs : FailoverGroups) (h : names.Nodup) :
    (checkGroups r gs names).lookup name =
      if name ∈ names then (gs.lookup name).map (checkGroupFailover r) else gs.lookup name := by
  induction names generalizing gs with
  | nil => simp [checkGroups]
  | cons n rest ih =>
    obtain ⟨hn, hrs⟩ := nodup_cons.mp h
    rw [checkGroups]
    cases hg : gs.lookup n with
    | none =>
      rw [ih gs hrs]
      by_cases hnm : name = n
      · subst hnm
        simp [hn, hg]
      · simp [hnm]
    | some g =>
      rw [ih _ hrs, lookup_replace]
      by_cases hnm : name = n
      · subst hnm
        simp [hn, hg]
      · simp [hnm]

theorem lookup_checkAndFailover :
    (checkAndFailover r gs).lookup name = (gs.lookup name).map (checkGroupFailover r) := by
  rw [checkAndFailover, lookup_checkGroups r gs gs.keys_nodup]
  split
  · rfl
  · rename_i hnm
    rw [AList.lookup_eq_none.mpr hnm]
    rfl

end FailoverGroups

def ServerRegistry.serves (r : ServerRegistry) (name : String) : Bool :=
  match r.get name with
  | some b => r.isHealthy b
  | none => false

def ServerRegistry.ails (r : ServerRegistry) (name : String) : Bool :=
  match r.get name with
  | some b => !r.isHealthy b
  | none => false

/-- What a pass can make a healthy active server of: one that is so already, the first standby for
the primary, a later standby for another one, and the primary for a server that is gone. -/
inductive Settles (r : ServerRegistry) (g : FailoverGroupState) : Prop
  | already : r.serves g.currentActive = true → Settles r g
  | firstStandby : r.ails g.currentActive = true → g.currentActive = g.primary →
      g.standbys = standby :: rest → r.serves standby = true → Settles r g
  | laterStandby : r.ails g.currentActive = true → g.currentActive ≠ g.primary →
      g.standbys = earlier ++ g.currentActive :: later → g.currentActive ∉ earlier →
      standby ∈ later → r.serves standby = true → Settles r g
  | failback : r.get g.currentActive = none → g.currentActive ≠ g.primary →
      g.autoFailback = true → r.serves g.primary = true → Settles r g

section Pass
variable {r : ServerRegistry} {g : FailoverGroupState}

theorem checkGroupFailover_eq : checkGroupFailover r g =
    if r.ails g.currentActive then
      if g.currentActive = g.primary then
        match g.standbys.head? with
        | some standby => if r.serves standby then { g with currentActive := standby } else g
        | none => g
      else
        match g.standbys.idxOf? g.currentActive with
        | some i =>
          match (g.standbys.drop (i + 1)).find? r.serves with
          | some standby => { g with currentActive := standby }
          | none => g
        | none => g
    else if g.autoFailback && g.currentActive != g.primary && r.serves g.primary then
      { g with currentActive := g.primary }
    else g := rfl

theorem not_serves_of_ails (h : r.ails name = true) : r.serves name = false := by
  unfold ServerRegistry.ails at h
  unfold ServerRegistry.serves
  cases hb : r.get name with
  | none => rfl
  | some b =>
    rw [hb] at h
    simpa using h

theorem get_eq_none_of_not (hser : r.serves name ≠ true) (hails : r.ails name ≠ true) :
    r.get name = none := by
  unfold ServerRegistry.serves at hser
  unfold ServerRegistry.ails at hails
  cases hb : r.get name with
  | none => rfl
  | some b =>
    rw [hb] at hser hails
    simp at hser hails
    rw [hser] at hails
    cases hails

theorem ails_eq_false_of_get (h : r.get name = none) : r.ails name = false := by
  rw [ServerRegistry.ails, h]

theorem idxOf?_split [DecidableEq α] {a : α} (h : a ∉ earlier) :
    (earlier ++ a :: later).idxOf? a = some earlier.length := by
  induction earlier with
  | nil => simp [idxOf?_cons]
  | cons b earlier ih =>
    obtain ⟨hb, hearl⟩ := not_or.mp (mt mem_cons.mpr h)
    simp [idxOf?_cons, ih hearl, Ne.symm hb]

theorem serves_from_primary (hails : r.ails g.currentActive = true)
    (hprim : g.currentActive = g.primary) :
    r.serves (checkGroupFailover r g).currentActive = true ↔
      ∃ standby rest, g.standbys = standby :: rest ∧ r.serves standby = true := by
  have hbad := not_serves_of_ails hails
  rw [checkGroupFailover_eq, if_pos hails, if_pos hprim]
  cases hstan : g.standbys with
  | nil => simp [hbad]
  | cons standby rest =>
    by_cases hser : r.serves standby = true <;> simp [hser, hbad]

theorem serves_from_standby (hails : r.ails g.currentActive = true)
    (hprim : g.currentActive ≠ g.primary) :
    r.serves (checkGroupFailover r g).currentActive = true ↔
      ∃ earlier later standby, g.standbys = earlier ++ g.currentActive :: later ∧
        g.currentActive ∉ earlier ∧ standby ∈ later ∧ r.serves standby = true := by
  have hbad := not_serves_of_ails hails
  rw [checkGroupFailover_eq, if_pos hails, if_neg hprim]
  by_cases hmem : g.currentActive ∈ g.standbys
  · obtain ⟨earlier, later, hstan, hfst⟩ := eq_append_cons_of_mem hmem
    have hlat : g.standbys.drop (earlier.length + 1) = later := by
      rw [hstan, append_cons, drop_left' (by simp)]
    have hind : g.standbys.idxOf? g.currentActive = some earlier.length := by
      rw [hstan, idxOf?_split hfst]
    simp only [hind, hlat]
    constructor
    · intro h
      cases hfi : later.find? r.serves with
      | none => simp [hfi, hbad] at h
      | some standby => exact ⟨earlier, later, standby, hstan, hfst,
          mem_of_find?_eq_some hfi, find?_some hfi⟩
    · rintro ⟨earlier', later', standby, hstan', hfst', hsta, hser⟩
      have hlen : earlier'.length = earlier.length := by
        rw [hstan', idxOf?_split hfst'] at hind
        exact Option.some.inj hind
      have hsm : later' = later := by
        rw [← hlat, hstan', ← hlen, append_cons, drop_left' (by simp)]
      subst hsm
      cases hfi : later'.find? r.serves with
      | none => exact absurd hser (find?_eq_none.mp hfi standby hsta)
      | some found => exact find?_some hfi
  · rw [idxOf?_eq_none_iff.mpr hmem]
    constructor
    · intro h
      rw [hbad] at h
      cases h
    · rintro ⟨earlier, later, standby, hstan, -⟩
      exact absurd (hstan ▸ by simp) hmem

theorem serves_checkGroupFailover_iff :
    r.serves (checkGroupFailover r g).currentActive = true ↔ Settles r g := by
  by_cases hails : r.ails g.currentActive = true
  · have hbad := not_serves_of_ails hails
    constructor
    · intro h
      by_cases hprim : g.currentActive = g.primary
      · obtain ⟨standby, rest, hstan, hser⟩ := (serves_from_primary hails hprim).mp h
        exact .firstStandby hails hprim hstan hser
      · obtain ⟨earlier, later, standby, hstan, hfst, hsta, hser⟩ :=
          (serves_from_standby hails hprim).mp h
        exact .laterStandby hails hprim hstan hfst hsta hser
    · intro h
      cases h with
      | already hser =>
        rw [hbad] at hser
        cases hser
      | firstStandby _ hprim hstan hser =>
        exact (serves_from_primary hails hprim).mpr ⟨_, _, hstan, hser⟩
      | laterStandby _ hprim hstan hfst hsta hser =>
        exact (serves_from_standby hails hprim).mpr
          ⟨_, _, _, hstan, hfst, hsta, hser⟩
      | failback hno =>
        rw [ails_eq_false_of_get hno] at hails
        cases hails
  · rw [checkGroupFailover_eq, if_neg hails]
    constructor
    · intro h
      split at h
      · rename_i hbk
        simp only [Bool.and_eq_true, bne_iff_ne] at hbk
        obtain ⟨⟨hauto, hprim⟩, hser⟩ := hbk
        by_cases hact : r.serves g.currentActive = true
        · exact .already hact
        · exact .failback (get_eq_none_of_not hact hails) hprim hauto hser
      · exact .already h
    · intro h
      cases h with
      | already hser =>
        split
        · rename_i hbk
          exact (Bool.and_eq_true_iff.mp hbk).2
        · exact hser
      | firstStandby h | laterStandby h => exact absurd h hails
      | failback _ hprim hauto hser =>
        rw [if_pos (by simp [hauto, hprim, hser])]
        exact hser

end Pass

/-- After any passes, one more pass leaves a group with a healthy active server exactly if its
active server could be kept or replaced. -/
theorem active_serves_iff (groups : List FailoverGroup) (history : List ServerRegistry)
    (r : ServerRegistry) {name : String} {g : FailoverGroupState}
    (h : ((loadGroups groups).afterPasses history).lookup name = some g) :
    (∃ active, (checkAndFailover r
      ((loadGroups groups).afterPasses history)).getActiveServer name = some active ∧
        r.serves active = true) ↔ Settles r g := by
  rw [getActiveServer, lookup_checkAndFailover, h]
  simpa using serves_checkGroupFailover_iff

def threeServers (unhealthy : List ServerId) : ServerRegistry :=
  unhealthy.foldl (fun r b => r.storeHealth b 3 true 0)
    (["a", "b", "c"].foldl (fun r name => r.register (.registered name ⟨.v4 0, 25565⟩ 0)) .new)

def abcGroup : FailoverGroup := ⟨"g", "a", ["b", "c"], true⟩

theorem active_serves_first_standby : ∃ g,
    ((loadGroups [abcGroup]).afterPasses [threeServers []]).lookup "g" = some g ∧
      ∃ active, (checkAndFailover (threeServers [0])
        ((loadGroups [abcGroup]).afterPasses [threeServers []])).getActiveServer
          "g" = some active ∧ (threeServers [0]).serves active = true := by
  have hg : ((loadGroups [abcGroup]).afterPasses [threeServers []]).lookup "g" =
      some _ := rfl
  exact ⟨_, hg, (active_serves_iff _ _ _ hg).mpr (.firstStandby rfl rfl rfl rfl)⟩

theorem active_ails_second_standby :
    let r := threeServers [0, 1]
    r.serves "c" = true ∧
      (checkAndFailover r (.loadGroups [abcGroup])).getActiveServer "g" = some "a" ∧
      r.ails "a" = true := by
  decide +kernel

end Kojacoord
