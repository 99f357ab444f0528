import Kojacoord.Proxy.Step

namespace Kojacoord
open List

namespace BackendServer

def probed (s : BackendServer) : Option UInt64 → BackendServer
  | some latency =>
    let s : BackendServer := { s with lastLatencyMs := latency }
    let s := if s.healthFailCount > 0 then { s with healthFailCount := 0 } else s
    if s.healthUnhealthy then { s with healthUnhealthy := false } else s
  | none =>
    let newFailCount := s.healthFailCount + 1
    let s : BackendServer := { s with healthFailCount := newFailCount }
    if newFailCount ≥ s.healthProbeFailThreshold then
      if !s.healthUnhealthy then { s with healthUnhealthy := true } else s
    else s

variable {s : BackendServer}

theorem probed_some (latency : UInt64) : s.probed (some latency) =
    { s with healthFailCount := 0, healthUnhealthy := false, lastLatencyMs := latency } := by
  rw [probed]
  by_cases hcnt : s.healthFailCount > 0
  · rw [if_pos hcnt]
    cases s.healthUnhealthy <;> simp
  · have hz : s.healthFailCount = 0 := by
      exact UInt32.toNat_inj.mp (Nat.eq_zero_of_not_pos hcnt)
    cases s.healthUnhealthy <;> simp [hz]

theorem probed_none : s.probed none =
    { s with
      healthFailCount := s.healthFailCount + 1
      healthUnhealthy :=
        s.healthUnhealthy || s.healthProbeFailThreshold ≤ s.healthFailCount + 1 } := by
  rw [probed]
  by_cases hcnt : s.healthFailCount + 1 ≥ s.healthProbeFailThreshold
  · rw [if_pos hcnt]
    cases s.healthUnhealthy <;> simp [hcnt]
  · rw [if_neg hcnt]
    simp [hcnt]

structure Fresh (s : BackendServer) : Prop where
  count : s.healthFailCount = 0
  healthy : s.healthUnhealthy = false
  latency : s.lastLatencyMs = 0

def recentFailures (outcomes : List (Option UInt64)) : Nat :=
  (outcomes.reverse.takeWhile Option.isNone).length

def lastLatency (outcomes : List (Option UInt64)) : UInt64 := (outcomes.filterMap id).getLastD 0

theorem recentFailures_le (outcomes : List (Option UInt64)) :
    recentFailures outcomes ≤ outcomes.length := by
  rw [recentFailures, ← outcomes.length_reverse]
  exact (takeWhile_sublist _).length_le

structure Reflects (s : BackendServer) (outcomes : List (Option UInt64)) (t : BackendServer) :
    Prop where
  threshold : t.healthProbeFailThreshold = s.healthProbeFailThreshold
  count : t.healthFailCount.toNat = recentFailures outcomes
  unhealthy : t.healthUnhealthy = true ↔ s.healthProbeFailThreshold.toNat ≤ recentFailures outcomes
  latency : t.lastLatencyMs = lastLatency outcomes

theorem Reflects.probed {o : Option UInt64} (h : Reflects s outcomes t)
    (hk : 1 ≤ s.healthProbeFailThreshold) (hlen : outcomes.length + 1 < 2 ^ 32) :
    Reflects s (outcomes ++ [o]) (t.probed o) := by
  have hk' : 1 ≤ s.healthProbeFailThreshold.toNat := UInt32.le_iff_toNat_le.mp hk
  cases o with
  | some latency =>
    have hrec : recentFailures (outcomes ++ [some latency]) = 0 := by simp [recentFailures]
    rw [probed_some]
    refine ⟨h.threshold, hrec.symm, ?_, by simp [lastLatency]⟩
    simp
    omega
  | none =>
    have hrec : recentFailures (outcomes ++ [none]) = recentFailures outcomes + 1 := by
      simp [recentFailures]
    have hle := recentFailures_le outcomes
    have hcnt : (t.healthFailCount + 1).toNat = recentFailures outcomes + 1 := by
      rw [UInt32.toNat_add, h.count]
      exact Nat.mod_eq_of_lt (show recentFailures outcomes + 1 < 2 ^ 32 by omega)
    rw [probed_none]
    refine ⟨h.threshold, by rw [hrec, hcnt], ?_, by simp [lastLatency, h.latency]⟩
    rw [hrec, Bool.or_eq_true, h.unhealthy, decide_eq_true_eq, UInt32.le_iff_toNat_le, hcnt,
      h.threshold]
    omega

theorem Fresh.reflects (h : Fresh s) (hk : 1 ≤ s.healthProbeFailThreshold)
    (hlen : outcomes.length < 2 ^ 32) :
    Reflects s outcomes (outcomes.foldl BackendServer.probed s) := by
  induction outcomes using List.reverseRecOn with
  | nil =>
    have hk' : 1 ≤ s.healthProbeFailThreshold.toNat := UInt32.le_iff_toNat_le.mp hk
    refine ⟨rfl, by rw [foldl_nil, h.count]; rfl, ?_, h.latency⟩
    rw [foldl_nil, h.healthy]
    refine iff_of_false Bool.false_ne_true ?_
    exact Nat.not_le.mpr hk'
  | append_singleton outcomes o ih =>
    rw [length_append] at hlen
    rw [foldl_append]
    exact (ih (Nat.lt_of_succ_lt hlen)).probed hk hlen

/-- After any probes of a new server, it counts as unhealthy exactly if as many of the last ones
have failed as it takes, and its latency is that of the last that has not. -/
theorem health_after_probes (s : BackendServer) (outcomes : List (Option UInt64))
    (hfresh : Fresh s) (hk : 1 ≤ s.healthProbeFailThreshold) (hlength : outcomes.length < 2 ^ 32) :
    ((outcomes.foldl probed s).healthUnhealthy = true ↔
      s.healthProbeFailThreshold.toNat ≤ recentFailures outcomes) ∧
    (outcomes.foldl probed s).lastLatencyMs = lastLatency outcomes :=
  ⟨(hfresh.reflects hk hlength).unhealthy, (hfresh.reflects hk hlength).latency⟩

theorem health_after_probes_flapping :
    ([none, some 7, none, none, none].foldl probed
      (registered "lobby" ⟨.v4 0, 0⟩ 0)).healthUnhealthy = true :=
  (health_after_probes (registered "lobby" ⟨.v4 0, 0⟩ 0) [none, some 7, none, none, none]
    ⟨rfl, rfl, rfl⟩ (by decide) (by decide)).1.mpr (by decide)

end BackendServer

end Kojacoord
