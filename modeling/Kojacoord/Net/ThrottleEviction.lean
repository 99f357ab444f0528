import Kojacoord.Net.Accept

namespace Kojacoord
open TokenBucket

namespace ConnectionThrottle

def withLimits (maxPerIp maxPerAsn : UInt32) : ConnectionThrottle where
  ipRecords := ∅
  asnRecords := ∅
  maxPerIp := maxPerIp
  maxPerAsn := maxPerAsn

def evictStale (now : Nat) (t : ConnectionThrottle) : ConnectionThrottle :=
  { t with
    ipRecords := ipRules.evict now t.ipRecords
    asnRecords := asnRules.evict now t.asnRecords }

abbrev History := List (IpAddr × Nat)

/-- The throttles that checks and evictions come to, with the history and the time so far. -/
inductive Reached (ipLimit asnLimit : UInt32) : ConnectionThrottle → History → Nat → Prop
  | start : Reached ipLimit asnLimit (withLimits ipLimit asnLimit) [] 0
  | check : Reached ipLimit asnLimit t history clock → clock ≤ now →
      Reached ipLimit asnLimit ((check ip now later).run t).2 ((ip, now) :: history) now
  | evict : Reached ipLimit asnLimit t history clock → clock ≤ now →
      Reached ipLimit asnLimit (t.evictStale now) history now

/-- An address holds a record without a ban, and has not been checked for ten seconds. -/
def isStale (t : ConnectionThrottle) (history : History) (now : Nat) (ip : IpAddr) : Bool :=
  (t.ipRecords.lookup ip).any fun record => !record.bannedAt now &&
    history.all fun check => check.1 ≠ ip || check.2 + 10 * second ≤ now

def live (t : ConnectionThrottle) (history : History) (now : Nat) : List IpAddr :=
  t.ipRecords.keys.filter fun ip => !t.isStale history now ip

/-- Old records make way: an eviction leaves none, and they do not keep a new address out. -/
structure Reclaims (t : ConnectionThrottle) (history : History) (now : Nat) : Prop where
  evicted : ∀ ip, (t.evictStale now).isStale history now ip = false
  admits : ∀ ip later, ip ∉ t.ipRecords → (t.live history now).length < ipRules.maxRecords →
    ((check ip now later).run t).1 = .ok ()

section Run
variable {t : ConnectionThrottle}

theorem one_le_capacity : 1 ≤ ipRules.capacity := by decide

theorem Reached.drawn (h : Reached ipLimit asnLimit t history clock) :
    ipRules.Drawn t.ipRecords := by
  induction h with
  | start => exact Rules.drawn_empty
  | check h hclo ih =>
    rw [run_check]
    split
    · exact ih.check one_le_capacity _ _
    · exact ih
  | evict h hclo ih =>
    rw [evictStale, ih.evict_eq]
    exact ih

theorem Reached.evictStale_ipRecords (h : Reached ipLimit asnLimit t history clock) (now : Nat) :
    (t.evictStale now).ipRecords = t.ipRecords :=
  h.drawn.evict_eq now

theorem Reached.isStale_evictStale (h : Reached ipLimit asnLimit t history clock) (now : Nat) :
    (t.evictStale now).isStale history now = t.isStale history now := by
  funext ip
  rw [isStale, isStale, h.evictStale_ipRecords]

theorem run_check_new (h : Reached ipLimit asnLimit t history clock) (hnew : ip ∉ t.ipRecords)
    (hrm : t.ipRecords.keys.length < ipRules.maxRecords) :
    ((check ip now later).run t).1 = .ok () := by
  have hche := h.drawn.check_new one_le_capacity hnew now
  rw [if_neg (Nat.not_le.mpr hrm)] at hche
  rw [run_check]
  split
  · change (ipRules.check now ip t.ipRecords).1.mapError _ = _
    rw [hche]
    rfl
  · rfl

theorem live_eq_keys (h : ∀ ip, t.isStale history now ip = false) :
    t.live history now = t.ipRecords.keys :=
  List.filter_eq_self.mpr fun ip _ => by rw [h ip, Bool.not_false]

/-- Old records make way for new ones just where there are none. -/
theorem reclaims_iff (h : Reached ipLimit asnLimit t history clock) (now : Nat) :
    t.Reclaims history now ↔ ∀ ip, t.isStale history now ip = false := by
  rw [← h.isStale_evictStale now]
  constructor
  · exact fun hreclaims => hreclaims.evicted
  · refine fun hfresh => ⟨hfresh, fun ip later hnew hlive => ?_⟩
    rw [h.isStale_evictStale] at hfresh
    rw [live_eq_keys hfresh] at hlive
    exact run_check_new h hnew hlive

theorem reclaims_after_check :
    ((check (.v4 1) 0 0).run (withLimits 8 64)).2.Reclaims [(.v4 1, 0)] (5 * second) := by
  refine (reclaims_iff (.check .start (Nat.le_refl 0)) _).mpr fun ip => ?_
  by_cases hip : ip = .v4 1
  · subst hip
    decide +kernel
  · have hnone : ((check (.v4 1) 0 0).run (withLimits 8 64)).2.ipRecords.lookup ip = none := by
      rcases spares_check (.v4 1) 0 0 (withLimits 8 64) hip with h | ⟨h, -⟩
      · exact h.trans (AList.lookup_empty ip)
      · exact h
    rw [isStale, hnone, Option.any_none]

theorem stale_after_evictStale :
    let t := ((check (.v4 1) 0 0).run (withLimits 8 64)).2
    Reached 8 64 t [(.v4 1, 0)] 0 ∧
      (t.evictStale (10 * second)).isStale [(.v4 1, 0)] (10 * second) (.v4 1) = true :=
  ⟨.check .start (Nat.le_refl 0), by decide +kernel⟩

end Run

end ConnectionThrottle

end Kojacoord
