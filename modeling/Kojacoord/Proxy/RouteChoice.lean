import Kojacoord.Proxy.GlobMatch

namespace Kojacoord
open List

structure Least [LE β] (f : α → β) (l : List α) (a : α) : Prop where
  mem : a ∈ l
  le : ∀ x ∈ l, f a ≤ f x

section Least
variable [LE β] [DecidableLE β] {f : α → β}

theorem least_of_minOn? [Std.IsLinearPreorder β] {l : List α} (h : l.minOn? f = some a) :
    Least f l a where
  mem := List.minOn?_mem h
  le x hx := by
    have hle := List.apply_get_minOn?_le_of_mem (f := f) hx
    simpa only [h, Option.get_some] using hle

theorem minOn?_eq_none {l : List α} : l.minOn? f = none ↔ l = [] := by
  rw [← Option.not_isSome_iff_eq_none, List.isSome_minOn?_iff, ne_eq, not_not]

end Least

namespace ServerRegistry
variable (r : ServerRegistry)

def InRegion (region : String) (b : ServerId) : Prop :=
  region = "global" ∨ (r.server b).region = region

instance : Decidable (r.InRegion region b) := inferInstanceAs (Decidable (_ ∨ _))

def healthyIn (available : List ServerId) (region : String) : List ServerId :=
  (available.filter r.isHealthy).filter fun b => r.InRegion region b

/-- What the choice of a lobby promises: health first, then the region, then the load. -/
structure LobbyChoice (available : List ServerId) (preferred : String) (b : ServerId) : Prop where
  mem : b ∈ available
  healthy : (∃ s ∈ available, r.isHealthy s = true) → r.isHealthy b = true
  region : ∀ before region after,
    preferred :: regionFallbacks preferred = before ++ region :: after →
    (∀ earlier ∈ before, r.healthyIn available earlier = []) →
    r.healthyIn available region ≠ [] →
    Least (fun s => (r.server s).playerCount) (r.healthyIn available region) b
  anywhere : preferred = "global" ∨
      (∀ region ∈ preferred :: regionFallbacks preferred, r.healthyIn available region = []) →
    ∀ s ∈ available, r.isHealthy s = true → (r.server b).playerCount ≤ (r.server s).playerCount

variable {r}

theorem healthyIn_global : r.healthyIn available "global" = available.filter r.isHealthy := by
  simp [healthyIn, InRegion]

theorem ne_global_of_mem_fallbacks (h : region ∈ regionFallbacks preferred) :
    region ≠ "global" := by
  rintro rfl
  revert h
  rw [regionFallbacks]
  split_ifs <;> decide

theorem healthyIn_of_ne (h : region ≠ "global") : r.healthyIn available region =
    (available.filter r.isHealthy).filter fun b => (r.server b).region = region := by
  simp [healthyIn, InRegion, h]

end ServerRegistry

section Lobby
open ServerRegistry
variable {r : ServerRegistry}

def regionalLobby (r : ServerRegistry) (available : List ServerId) (regions : List String) :
    Option ServerId :=
  regions.findSome? fun region => r.fewestPlayers (r.healthyIn available region)

theorem regionalLobby_of_ne (h : ∀ region ∈ regions, region ≠ "global") :
    regionalLobby r available regions = regions.findSome? fun region => r.fewestPlayers
      ((available.filter r.isHealthy).filter fun b => (r.server b).region = region) := by
  induction regions with
  | nil => rfl
  | cons region regions ih =>
    obtain ⟨hreg, hregi⟩ := forall_mem_cons.mp h
    rw [regionalLobby, findSome?_cons, findSome?_cons, healthyIn_of_ne hreg, ← ih hregi]
    rfl

theorem selectLobbyByRegion_eq : selectLobbyByRegion r available preferred =
    (((regionalLobby r available (preferred :: regionFallbacks preferred)).or
      (r.fewestPlayers (available.filter r.isHealthy))).or available.head?).map
      fun b => (r.server b).name := by
  have hpre : r.fewestPlayers (r.healthyIn available preferred) =
      if preferred = "global" then r.fewestPlayers (available.filter r.isHealthy)
      else r.fewestPlayers
        ((available.filter r.isHealthy).filter fun b => (r.server b).region = preferred) := by
    split
    · next hglo => rw [hglo, healthyIn_global]
    · next hglo => rw [healthyIn_of_ne hglo]
  have hreg : regionalLobby r available (preferred :: regionFallbacks preferred) =
      (r.fewestPlayers (r.healthyIn available preferred)).or
        (regionalLobby r available (regionFallbacks preferred)) := by
    rw [regionalLobby, findSome?_cons]
    cases r.fewestPlayers (r.healthyIn available preferred) <;> rfl
  rw [hreg, hpre, regionalLobby_of_ne fun _ => ne_global_of_mem_fallbacks]
  rfl

theorem fewestPlayers_eq_none : r.fewestPlayers bs = none ↔ bs = [] := minOn?_eq_none

theorem least_of_fewestPlayers (h : r.fewestPlayers bs = some b) :
    Least (fun s => (r.server s).playerCount) bs b :=
  least_of_minOn? h

theorem regionalLobby_split (after : List String)
    (hbef : ∀ earlier ∈ before, r.healthyIn available earlier = [])
    (hreg : r.healthyIn available region ≠ []) :
    ∃ b, regionalLobby r available (before ++ region :: after) = some b ∧
      Least (fun s => (r.server s).playerCount) (r.healthyIn available region) b := by
  cases hfew : r.fewestPlayers (r.healthyIn available region) with
  | none => exact absurd (fewestPlayers_eq_none.mp hfew) hreg
  | some b =>
    refine ⟨b, findSome?_eq_some_iff.mpr ⟨before, region, after, rfl, hfew, ?_⟩,
      least_of_fewestPlayers hfew⟩
    exact fun earlier hearl => fewestPlayers_eq_none.mpr (hbef earlier hearl)

theorem regionalLobby_eq_none : regionalLobby r available regions = none ↔
    ∀ region ∈ regions, r.healthyIn available region = [] := by
  simp only [regionalLobby, findSome?_eq_none_iff, fewestPlayers_eq_none]

theorem lobbyChoice_of_regional
    (h : regionalLobby r available (preferred :: regionFallbacks preferred) = some b) :
    r.LobbyChoice available preferred b := by
  have hreg : ∀ before region after,
      preferred :: regionFallbacks preferred = before ++ region :: after →
      (∀ earlier ∈ before, r.healthyIn available earlier = []) →
      r.healthyIn available region ≠ [] →
      Least (fun s => (r.server s).playerCount) (r.healthyIn available region) b := by
    intro before region after hspl hbef hne
    obtain ⟨b', hb', hlea⟩ := regionalLobby_split after hbef hne
    rw [← hspl, h] at hb'
    cases hb'
    exact hlea
  obtain ⟨before, region, after, -, hfew, -⟩ := findSome?_eq_some_iff.mp h
  obtain ⟨hmem, -⟩ := mem_filter.mp (least_of_fewestPlayers hfew).mem
  obtain ⟨hmem, hhl⟩ := mem_filter.mp hmem
  refine ⟨hmem, fun _ => hhl, hreg, ?_⟩
  rintro (rfl | hno) s hs hhl'
  · have hs' : s ∈ r.healthyIn available "global" := healthyIn_global ▸ mem_filter.mpr ⟨hs, hhl'⟩
    exact (hreg [] "global" _ rfl (by simp) (ne_nil_of_mem hs')).le s hs'
  · rw [regionalLobby_eq_none.mpr hno] at h
    cases h

theorem lobbyChoice_of_none
    (h : regionalLobby r available (preferred :: regionFallbacks preferred) = none)
    (hmem : b ∈ available)
    (hhl : (∃ s ∈ available, r.isHealthy s = true) → r.isHealthy b = true)
    (hlea : ∀ s ∈ available, r.isHealthy s = true →
      (r.server b).playerCount ≤ (r.server s).playerCount) :
    r.LobbyChoice available preferred b where
  mem := hmem
  healthy := hhl
  region := by
    intro before region after hspl _ hne
    exact absurd (regionalLobby_eq_none.mp h region (by rw [hspl]; simp)) hne
  anywhere _ := hlea

theorem lobbyChoice_of_choice
    (h : ((regionalLobby r available (preferred :: regionFallbacks preferred)).or
      (r.fewestPlayers (available.filter r.isHealthy))).or available.head? = some b) :
    r.LobbyChoice available preferred b := by
  rcases Option.or_eq_some_iff.mp h with h | ⟨hno, hhd⟩
  · rcases Option.or_eq_some_iff.mp h with hreg | ⟨hreg, hfew⟩
    · exact lobbyChoice_of_regional hreg
    · have hlea := least_of_fewestPlayers hfew
      obtain ⟨hmem, hhl⟩ := mem_filter.mp hlea.mem
      exact lobbyChoice_of_none hreg hmem (fun _ => hhl)
        fun s hs hs' => hlea.le s (mem_filter.mpr ⟨hs, hs'⟩)
  · obtain ⟨hreg, hfew⟩ := Option.or_eq_none_iff.mp hno
    have hsick : ∀ s ∈ available, ¬ r.isHealthy s = true :=
      filter_eq_nil_iff.mp (fewestPlayers_eq_none.mp hfew)
    exact lobbyChoice_of_none hreg (mem_of_head? hhd)
      (fun ⟨s, hs, hs'⟩ => absurd hs' (hsick s hs)) fun s hs hs' => absurd hs' (hsick s hs)

/-- The lobby is chosen by health, then by region, then by load, and there is one if there is a
server. -/
theorem selectLobbyByRegion_best (r : ServerRegistry) (available : List ServerId)
    (preferred : String) :
    (selectLobbyByRegion r available preferred = none ↔ available = []) ∧
      ∀ name, selectLobbyByRegion r available preferred = some name →
        ∃ b, (r.server b).name = name ∧ r.LobbyChoice available preferred b := by
  rw [selectLobbyByRegion_eq]
  constructor
  · rw [Option.map_eq_none_iff, Option.or_eq_none_iff, head?_eq_none_iff]
    refine and_iff_right_of_imp fun hempty => ?_
    rw [hempty, Option.or_eq_none_iff, regionalLobby_eq_none]
    exact ⟨fun _ _ => rfl, rfl⟩
  · intro name hname
    obtain ⟨b, hchoice, hb⟩ := Option.map_eq_some_iff.mp hname
    exact ⟨b, hb, lobbyChoice_of_choice hchoice⟩

theorem lobbyChoice_near :
    let far := { BackendServer.registered "far" ⟨.v4 0, 1⟩ 0 with region := "asia" }
    let near := { BackendServer.registered "near" ⟨.v4 0, 2⟩ 0 with
      region := "us-east", playerCount := 3 }
    let r := (ServerRegistry.new.register far).register near
    ∃ b, (r.server b).name = "near" ∧ r.LobbyChoice [0, 1] "us-east" b :=
  (selectLobbyByRegion_best _ _ _).2 "near" (by decide)

end Lobby

section Rules

end Rules

section Rolls

end Rolls

section Groups
variable {r : ServerRegistry}

end Groups

end Kojacoord
