import Kojacoord.Proxy.QueueResidency

namespace Kojacoord
open Runs

def State.session (s : State) (player : Uuid) : Option Conn :=
  (s.sessions.lookup player).bind fun c => s.conns[c]?

def State.Indexed (s : State) : Prop :=
  ∀ player c, s.sessions.lookup player = some c → ∃ k, s.conns[c]? = some k ∧ k.uuid = player

section Step
variable {c : ConnId} {k : Conn}

/-- A step leaves a connection where it is in its life, or is one of its moves. -/
theorem step_conn (h : step cfg s l = some s') (hk : s.conns[c]? = some k) :
    ∃ k', s'.conns[c]? = some k' ∧
      (k'.uuid = k.uuid ∧ k'.phase = k.phase ∨ ∃ m e, Moves cfg s k m k' e) := by
  by_cases hl : ∀ c m, l ≠ .move c m
  · obtain ⟨k', hk', hkt⟩ := step_keeps_phase hl h hk
    exact ⟨k', hk', .inl hkt⟩
  · push Not at hl
    obtain ⟨d, m, rfl⟩ := hl
    obtain ⟨kd, kd', e, hd, hm, rfl⟩ := step_move h
    have hlt := (List.getElem?_eq_some_iff.mp hd).1
    rw [State.perform_conns, State.setConn_conns]
    by_cases hcd : d = c
    · subst hcd
      obtain rfl : kd = k := by simpa [hd] using hk
      exact ⟨kd', List.getElem?_set_self hlt, .inr ⟨m, e, Conn.moves_of_move hm⟩⟩
    · exact ⟨k, by rw [List.getElem?_set_ne hcd, hk], .inl ⟨rfl, rfl⟩⟩

theorem step_uuid_at (h : step cfg s l = some s') (hk : s.conns[c]? = some k) :
    ∃ k', s'.conns[c]? = some k' ∧ k'.uuid = k.uuid := by
  obtain ⟨k', hk', ⟨hu, -⟩ | ⟨m, e, hm⟩⟩ := step_conn h hk
  · exact ⟨k', hk', hu⟩
  · exact ⟨k', hk', hm.uuid⟩

end Step

structure State.SameMaps (s s' : State) : Prop where
  sessions : s'.sessions = s.sessions
  outbound : s'.outbound = s.outbound
  conns : s'.conns.length = s.conns.length

theorem State.sameMaps_spawn {s : State} : s.SameMaps (s.spawn c w o) := by
  unfold spawn
  split
  · exact ⟨rfl, rfl, List.length_set ..⟩
  · exact ⟨rfl, rfl, rfl⟩

theorem step_sameMaps (ha : ∀ uuid ip v, l ≠ .accept uuid ip v) (hm : ∀ c m, l ≠ .move c m)
    (h : step cfg s l = some s') : s.SameMaps s' := by
  by_cases hl : l.quiet = true
  · cases quietStep_of_step hl h with
    | accept => exact absurd rfl (ha _ _ _)
    | spawn =>
      obtain ⟨hses, hout, hcon⟩ := State.sameMaps_spawn
      exact ⟨hses, hout, hcon⟩
    | change | evictEmpty => exact ⟨rfl, rfl, rfl⟩
  · cases l with
    | move c m => exact absurd rfl (hm c m)
    | access d i =>
      obtain ⟨k, owner, o, -, -, rfl⟩ := step_access h
      exact ⟨rfl, rfl, List.length_set ..⟩
    | _ => exact absurd rfl hl

theorem step_lookup (h : step cfg s l = some s') (hc : s'.sessions.lookup player = some c) :
    s.sessions.lookup player = some c ∨ c = s.conns.length ∧ ∃ ip v, l = .accept player ip v := by
  by_cases ha : ∀ uuid ip v, l ≠ .accept uuid ip v
  · by_cases hm : ∀ c m, l ≠ .move c m
    · rw [(step_sameMaps ha hm h).sessions] at hc
      exact .inl hc
    · push Not at hm
      obtain ⟨d, m, rfl⟩ := hm
      obtain ⟨k, k', e, -, -, rfl⟩ := step_move h
      cases e with
      | removeSession =>
        by_cases hu : player = k.uuid
        · subst hu
          simp [State.perform] at hc
        · simp only [State.perform] at hc
          rw [AList.lookup_erase_ne hu] at hc
          exact .inl hc
      | _ => exact .inl hc
  · push Not at ha
    obtain ⟨uuid, ip, v, rfl⟩ := ha
    cases h
    by_cases hu : player = uuid
    · subst hu
      rw [AList.lookup_insert] at hc
      exact .inr ⟨(Option.some.inj hc).symm, ip, v, rfl⟩
    · rw [AList.lookup_insert_ne hu] at hc
      exact .inl hc

theorem step_indexed (h : step cfg s l = some s') (hs : s.Indexed) : s'.Indexed := by
  intro player c hc
  rcases step_lookup h hc with hc | ⟨rfl, ip, v, rfl⟩
  · obtain ⟨k, hk, rfl⟩ := hs player c hc
    exact step_uuid_at h hk
  · cases h
    exact ⟨.new player ip v, by simp, rfl⟩

theorem indexed_of_run (h : Run (step cfg) ok (.start cfg r gs) s) : s.Indexed := by
  apply h.invariant
  · intro player c hc
    cases hc
  · intro t l u ht _ hu
    exact step_indexed hu ht

end Kojacoord
