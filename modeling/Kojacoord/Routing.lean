import Kojacoord.Server
import Mathlib.Algebra.GroupWithZero.Nat

namespace Kojacoord
open ServerRegistry List Option

inductive GroupStrategy where
  | leastConnections
  | weighted
  | latency
deriving DecidableEq

structure ServerGroupConfig where
  name : String
  members : List String
  strategy : GroupStrategy

/-- Routing configuration. `regionFor` stands for the GeoIP database. -/
structure RoutingRules where
  defaultServer : String
  regionFor : IpAddr → String
  serverGroups : AList (fun _ : String => ServerGroupConfig)

def regionFallbacks (preferred : String) : List String :=
  if preferred = "us-east" then ["us-west", "eu-west", "asia"]
  else if preferred = "us-west" then ["us-east", "eu-west", "asia"]
  else if preferred = "eu-west" then ["us-east", "asia", "us-west"]
  else if preferred = "asia" then ["us-east", "eu-west", "us-west"]
  else ["us-east", "eu-west", "asia"]

def ServerRegistry.fewestPlayers (r : ServerRegistry) (bs : List ServerId) : Option ServerId :=
  bs.minOn? fun b => (r.server b).playerCount

def ServerRegistry.isHealthy (r : ServerRegistry) (b : ServerId) : Bool := !(r.server b).healthUnhealthy

def selectLobbyByRegion (r : ServerRegistry) (available : List ServerId) (preferred : String) :
    Option String :=
  let healthy := available.filter r.isHealthy
  let best (region : String) := r.fewestPlayers (healthy.filter fun b => (r.server b).region = region)
  let inRegion := if preferred = "global" then r.fewestPlayers healthy else best preferred
  let choice := ((inRegion.or ((regionFallbacks preferred).findSome? best)).or
    (r.fewestPlayers healthy)).or available.head?
  choice.map fun b => (r.server b).name

def pickByRoll (r : ServerRegistry) (last : Option ServerId) : List ServerId → Nat → Option ServerId
  | [], _ => last
  | b :: bs, roll =>
    let w := (r.server b).weight.toNat
    if roll < w then some b else pickByRoll r last bs (roll - w)

/-- Weighted pick. `roll` stands for the random number, reduced into the range that is drawn. -/
def weightedPick (r : ServerRegistry) (candidates : List ServerId) (roll : Nat) : Option ServerId :=
  let totalWeight := (candidates.map fun b => (r.server b).weight.toNat).sum
  if totalWeight = 0 then candidates.head?
  else pickByRoll r candidates.getLast? candidates (roll % totalWeight)

def selectFromGroup (group : ServerGroupConfig) (r : ServerRegistry) (roll : Nat) :
    Option ServerId :=
  let candidates := (group.members.filterMap r.get).filter fun b =>
    (r.server b).isOnline && !(r.server b).isFull
  match group.strategy with
  | .leastConnections => r.fewestPlayers candidates
  | .latency => candidates.minOn? fun b =>
      let latency := (r.server b).lastLatencyMs
      if latency = 0 then (0xFFFFFFFFFFFFFFFF : UInt64) else latency
  | .weighted => weightedPick r candidates roll

def RoutingRules.resolveTarget (rules : RoutingRules) (name : String) (r : ServerRegistry) (roll : Nat) :
    Option ServerId :=
  match rules.serverGroups.lookup name with
  | some group => selectFromGroup group r roll
  | none => (r.get name).filter fun b => (r.server b).isOnline

def RoutingRules.select (rules : RoutingRules) (r : ServerRegistry) (roll : Nat) : Option ServerId :=
  (rules.resolveTarget rules.defaultServer r roll).or
    (r.all.find? fun b => (r.server b).isOnline)

def RoutingRules.selectWithRegion (rules : RoutingRules) (r : ServerRegistry) (ip : IpAddr) (roll : Nat) :
    Option ServerId :=
  let regional := (selectLobbyByRegion r r.all (rules.regionFor ip)).bind r.get
  (regional.filter fun b => (r.server b).isOnline).or (rules.select r roll)

structure FailoverGroupState where
  name : String
  primary : String
  standbys : List String
  autoFailback : Bool
  currentActive : String
deriving DecidableEq

abbrev FailoverGroups := AList (fun _ : String => FailoverGroupState)

def FailoverGroups.getActiveServer (gs : FailoverGroups) (group : String) : Option String :=
  (gs.lookup group).map (·.currentActive)

def FailoverGroups.getGroupForServer (gs : FailoverGroups) (server : String) : Option String :=
  (gs.entries.find? fun g => g.2.primary = server || g.2.standbys.contains server).map (·.1)

/-- The last step of failover routing: the active server of the group replaces the candidate if it
is another one, registered and online. -/
def swapInActive (r : ServerRegistry) (candidate : ServerId) (active : Option String) : ServerId :=
  match active with
  | none => candidate
  | some name =>
    if name = (r.server candidate).name then candidate
    else ((r.get name).filter fun b => (r.server b).isOnline).getD candidate

/-- One monitor pass over a group: away from an unhealthy active server to the next healthy
standby, or back to a healthy primary. -/
def checkGroupFailover (r : ServerRegistry) (g : FailoverGroupState) : FailoverGroupState :=
  let healthy (name : String) := match r.get name with
    | some b => r.isHealthy b
    | none => false
  let unhealthy := match r.get g.currentActive with
    | some b => !r.isHealthy b
    | none => false
  if unhealthy then
    if g.currentActive = g.primary then
      match g.standbys.head? with
      | some standby => if healthy standby then { g with currentActive := standby } else g
      | none => g
    else
      match g.standbys.idxOf? g.currentActive with
      | some i =>
        match (g.standbys.drop (i + 1)).find? healthy with
        | some standby => { g with currentActive := standby }
        | none => g
      | none => g
  else if g.autoFailback && g.currentActive != g.primary && healthy g.primary then
    { g with currentActive := g.primary }
  else g

section Bound

variable {r : ServerRegistry}

theorem pickByRoll_mem (h : pickByRoll r last bs roll = some b) : b ∈ bs ∨ last = some b := by
  induction bs generalizing roll with
  | nil => exact .inr h
  | cons c cs ih =>
    simp only [pickByRoll] at h
    split at h
    · cases h
      exact .inl (by simp)
    · rcases ih h with h | h
      · exact .inl (by simp [h])
      · exact .inr h

theorem weightedPick_mem (h : weightedPick r candidates roll = some b) : b ∈ candidates := by
  simp only [weightedPick] at h
  split at h
  · exact mem_of_head? h
  · rcases pickByRoll_mem h with h | h
    · exact h
    · exact mem_of_getLast? h

theorem selectFromGroup_bound (h : selectFromGroup group r roll = some b) : r.Bound b := by
  have hmem : b ∈ group.members.filterMap r.get := by
    simp only [selectFromGroup] at h
    split at h
    · exact (List.mem_filter.mp (List.minOn?_mem h)).1
    · exact (List.mem_filter.mp (List.minOn?_mem h)).1
    · exact (mem_filter.mp (weightedPick_mem h)).1
  obtain ⟨n, -, hn⟩ := mem_filterMap.mp hmem
  exact bound_of_get hn

theorem resolveTarget_bound (h : RoutingRules.resolveTarget rules n r roll = some b) :
    r.Bound b := by
  simp only [RoutingRules.resolveTarget] at h
  split at h
  · exact selectFromGroup_bound h
  · exact bound_of_get (filter_eq_some_iff.mp h).1

theorem select_bound (h : RoutingRules.select rules r roll = some b) : r.Bound b := by
  rcases or_eq_some_iff.mp h with h | ⟨-, h⟩
  · exact resolveTarget_bound h
  · exact bound_of_mem_all (mem_of_find?_eq_some h)

theorem selectWithRegion_bound (h : RoutingRules.selectWithRegion rules r ip roll = some b) :
    r.Bound b := by
  rcases or_eq_some_iff.mp h with h | ⟨-, h⟩
  · obtain ⟨h, -⟩ := filter_eq_some_iff.mp h
    obtain ⟨n, -, hn⟩ := bind_eq_some_iff.mp h
    exact bound_of_get hn
  · exact select_bound h

theorem swapInActive_cases :
    swapInActive r candidate active = candidate ∨ r.Bound (swapInActive r candidate active) := by
  unfold swapInActive
  split
  · exact .inl rfl
  · rename_i name
    split
    · exact .inl rfl
    · cases hb : (r.get name).filter fun b => (r.server b).isOnline with
      | none => exact .inl rfl
      | some b => exact .inr (bound_of_get (filter_eq_some_iff.mp hb).1)

end Bound

end Kojacoord
