import Kojacoord.Proxy.Sessions

namespace Kojacoord
open Runs List

def Phase.inLimbo : Phase → Bool
  | .limbo .. | .polled .. | .full .. | .vacant .. | .limboDialing .. | .admitted ..
  | .departing .. => true
  | _ => false

def Phase.registered : Phase → Bool
  | .unqueueing | .gone => false
  | _ => true

/-- While a connection is in limbo or relays, the maps hold what it has inserted itself. -/
structure State.OwnsEntries (s : State) : Prop where
  session : s.conns[c]? = some k → (k.phase.inLimbo || k.isPumping) = true →
    s.sessions.lookup k.uuid = some c
  outbound : s.conns[c]? = some k → k.isPumping = true → s.outbound.lookup k.uuid = some c

def Label.login : Label → Option Uuid
  | .accept uuid _ _ => some uuid
  | _ => none

def LogsInAlone (s : State) (l : Label) : Prop :=
  ∀ k ∈ s.conns, l.login = some k.uuid → k.phase.registered = false

instance : Decidable (LogsInAlone s l) := inferInstanceAs (Decidable (∀ k ∈ s.conns, _ → _))

/-- Every connection that has yet to take its session out finds its own one there. -/
structure State.Registered (s : State) : Prop where
  session : s.conns[c]? = some k → k.phase.registered = true → s.sessions.lookup k.uuid = some c
  outbound : s.conns[c]? = some k → k.isPumping = true → s.outbound.lookup k.uuid = some c

theorem Conn.registered_of_pumping {k : Conn} (h : k.isPumping = true) :
    k.phase.registered = true := by
  unfold isPumping at h
  split at h
  · rename_i hp
    rw [hp]
    rfl
  · cases h

theorem Phase.registered_of_inLimbo {p : Phase} (h : p.inLimbo = true) : p.registered = true := by
  cases p <;> first | rfl | cases h

theorem State.Registered.ownsEntries {s : State} (h : s.Registered) : s.OwnsEntries where
  session hk hph := by
    apply h.session hk
    rcases Bool.or_eq_true_iff.mp hph with hlim | hpum
    · exact Phase.registered_of_inLimbo hlim
    · exact Conn.registered_of_pumping hpum
  outbound := h.outbound

theorem State.Registered.unique {s : State} {c d : ConnId} {k kd : Conn} (h : s.Registered)
    (hk : s.conns[c]? = some k)
    (hd : s.conns[d]? = some kd) (hr : k.phase.registered = true)
    (hrd : kd.phase.registered = true) (hu : k.uuid = kd.uuid) : c = d := by
  have hc := h.session hk hr
  rw [hu, h.session hd hrd] at hc
  exact (Option.some.inj hc).symm

theorem Moves.registered (hm : Moves cfg s k m k' e) (h : k'.phase.registered = true) :
    k.phase.registered = true ∧ e ≠ .removeSession := by
  cases hm with
  | dropRejected | dropEnded | leaveQueues => cases h
  | _ hp =>
    rw [hp]
    exact ⟨rfl, nofun⟩

theorem Moves.opens (hm : Moves cfg s k m k' e) (h : k'.isPumping = true) : e = .openOutbound := by
  cases hm with
  | startRelay => rfl
  | login hp =>
    rename_i credit
    rcases credit with (_ | _) | _ <;> cases h
  | leaveFailed hp | fail hp =>
    rename_i leg _
    cases leg <;> cases h
  | loginFailed hp =>
    rename_i credit
    cases credit <;> cases h
  | finishRelay hp =>
    rename_i why _ _
    cases why <;> cases h
  | _ => cases h

theorem Moves.registered_of_effect (hm : Moves cfg s k m k' e)
    (he : e = .removeSession ∨ e = .openOutbound ∨ e = .closeOutbound) :
    k.phase.registered = true := by
  cases hm with
  | leaveQueues => simp at he
  | _ hp =>
    rw [hp]
    rfl

theorem State.lookup_perform (h : u ≠ uuid ∨ e ≠ .removeSession) :
    (State.perform s c uuid e).sessions.lookup u = s.sessions.lookup u := by
  cases e with
  | removeSession =>
    apply AList.lookup_erase_ne
    simpa using h
  | _ => rfl

theorem State.lookup_outbound_perform
    (h : u ≠ uuid ∨ e ≠ .openOutbound ∧ e ≠ .closeOutbound) :
    (State.perform s c uuid e).outbound.lookup u = s.outbound.lookup u := by
  cases e with
  | openOutbound =>
    apply AList.lookup_insert_ne
    simpa using h
  | closeOutbound =>
    apply AList.lookup_erase_ne
    simpa using h
  | _ => rfl

theorem step_move_registered (hs : s.Registered) (h : step cfg s (.move d m) = some s') :
    s'.Registered := by
  obtain ⟨kd, kd', e, hd, hm, rfl⟩ := step_move h
  have hm := Conn.moves_of_move hm
  have hlt := (List.getElem?_eq_some_iff.mp hd).1
  -- Another player's or connection's entries are touched by nobody else.
  have hoth {c : ConnId} {k : Conn} (hk : s.conns[c]? = some k) (hne : d ≠ c)
      (hr : k.phase.registered = true) (he : e = .removeSession ∨ e = .openOutbound ∨
        e = .closeOutbound) : k.uuid ≠ kd.uuid := by
    intro hu
    exact hne (hs.unique hk hd hr (hm.registered_of_effect he) hu).symm
  constructor
  · intro c k hk hr
    rw [State.perform_conns, State.setConn_conns] at hk
    by_cases hdc : d = c
    · subst hdc
      rw [getElem?_set_self hlt] at hk
      cases hk
      obtain ⟨hr, he⟩ := hm.registered hr
      rw [hm.uuid, State.lookup_perform (.inr he)]
      exact hs.session hd hr
    · rw [getElem?_set_ne hdc] at hk
      rw [State.lookup_perform]
      · exact hs.session hk hr
      · by_cases he : e = .removeSession
        · exact .inl (hoth hk hdc hr (.inl he))
        · exact .inr he
  · intro c k hk hp
    rw [State.perform_conns, State.setConn_conns] at hk
    by_cases hdc : d = c
    · subst hdc
      rw [getElem?_set_self hlt] at hk
      cases hk
      rw [hm.opens hp, hm.uuid]
      exact AList.lookup_insert _
    · rw [getElem?_set_ne hdc] at hk
      rw [State.lookup_outbound_perform]
      · exact hs.outbound hk hp
      · by_cases he : e = .openOutbound ∨ e = .closeOutbound
        · exact .inl (hoth hk hdc (Conn.registered_of_pumping hp) (.inr he))
        · exact .inr (not_or.mp he)

theorem getElem?_accepted {ks : List Conn} {c : Nat} (h : (ks ++ [k'])[c]? = some k) :
    ks[c]? = some k ∨ c = ks.length ∧ k = k' := by
  rcases Nat.lt_or_ge c ks.length with hlt | hge
  · rw [getElem?_append_left hlt] at h
    exact .inl h
  · rw [getElem?_append_right hge, getElem?_singleton] at h
    split at h
    · rename_i hz
      cases h
      exact .inr ⟨by omega, rfl⟩
    · cases h

theorem step_accept_registered (hs : s.Registered) (hok : LogsInAlone s (.accept uuid ip v))
    (h : step cfg s (.accept uuid ip v) = some s') : s'.Registered := by
  cases h
  constructor
  · intro c k hk hr
    rcases getElem?_accepted hk with hk | ⟨rfl, rfl⟩
    · have hu : k.uuid ≠ uuid := by
        intro hu
        rw [hok k (mem_of_getElem? hk) (congrArg some hu.symm)] at hr
        cases hr
      rw [AList.lookup_insert_ne hu]
      exact hs.session hk hr
    · exact AList.lookup_insert _
  · intro c k hk hp
    rcases getElem?_accepted hk with hk | ⟨rfl, rfl⟩
    · exact hs.outbound hk hp
    · cases hp

theorem step_registered (hs : s.Registered) (hok : LogsInAlone s l) (h : step cfg s l = some s') :
    s'.Registered := by
  by_cases ha : ∀ uuid ip v, l ≠ .accept uuid ip v
  · by_cases hm : ∀ c m, l ≠ .move c m
    · have hmaps := step_sameMaps ha hm h
      -- The connections are the same, in the same phases.
      have hbk {c : ConnId} {k : Conn} (hk : s'.conns[c]? = some k) :
          ∃ k₀, s.conns[c]? = some k₀ ∧ k.uuid = k₀.uuid ∧ k.phase = k₀.phase := by
        have hlt := (List.getElem?_eq_some_iff.mp hk).1
        rw [hmaps.conns] at hlt
        have hk₀ := getElem?_eq_getElem hlt
        obtain ⟨k', hk', hu, hp⟩ := step_keeps_phase hm h hk₀
        rw [hk] at hk'
        cases hk'
        exact ⟨_, hk₀, hu, hp⟩
      constructor
      · intro c k hk hr
        obtain ⟨k₀, hk₀, hu, hp⟩ := hbk hk
        rw [hp] at hr
        rw [hmaps.sessions, hu]
        exact hs.session hk₀ hr
      · intro c k hk hr
        obtain ⟨k₀, hk₀, hu, hp⟩ := hbk hk
        rw [Conn.isPumping, hp] at hr
        rw [hmaps.outbound, hu]
        exact hs.outbound hk₀ hr
    · push Not at hm
      obtain ⟨d, m, rfl⟩ := hm
      exact step_move_registered hs h
  · push Not at ha
    obtain ⟨uuid, ip, v, rfl⟩ := ha
    exact step_accept_registered hs hok h

/-- In every run in which nobody logs in beside a live session of the same player, the entries of
whoever is in limbo or relays are its own. -/
theorem ownsEntries_of_run (h : Run (step cfg) LogsInAlone (.start cfg r gs) s) : s.OwnsEntries := by
  apply State.Registered.ownsEntries
  apply h.invariant
  · constructor
    · intro c k hk
      cases hk
    · intro c k hk
      cases hk
  · intro t l u ht hok hu
    exact step_registered ht hok hu

theorem ownsEntries_of_comeback : ∃ s, Run (step lobbyConfig) LogsInAlone
    (.start lobbyConfig (lobbyFor 0) ∅) s ∧ s.conns.map Conn.isPumping = [false, true] ∧
      s.OwnsEntries := by
  have hrun : Run (step lobbyConfig) LogsInAlone (.start lobbyConfig (lobbyFor 0) ∅) _ :=
    Run.of_exec ([.accept 1 (.v4 1) 765, .move 0 (.welcome false), .move 0 .removeSession,
      .accept 1 (.v4 1) 765] ++ joinMoves 1 ++ [.move 1 (.startRelay true)]) rfl
  exact ⟨_, hrun, rfl, ownsEntries_of_run hrun⟩

/-- A second login of the same player loses its entries when the first one ends. -/
theorem not_ownsEntries : ¬ ∀ (cfg : ProxyConfig) (r : ServerRegistry) (gs : FailoverGroups)
    (s : State), Run (step cfg) (fun _ _ => True) (.start cfg r gs) s → s.OwnsEntries := by
  intro h
  have hfirst : Run (step lobbyConfig) (fun _ _ => True) (.start lobbyConfig (lobbyFor 0) ∅) _ :=
    Run.of_exec ([.accept 1 (.v4 1) 765] ++ joinMoves 0 ++ [.move 0 (.startRelay true)]) rfl
  have hrun : Run (step lobbyConfig) (fun _ _ => True) (.start lobbyConfig (lobbyFor 0) ∅) _ :=
    hfirst.trans (Run.of_exec ([.accept 1 (.v4 2) 765] ++ joinMoves 1 ++
      [.move 1 (.startRelay true), .move 0 (.stopRelay .disconnected)]) rfl)
  have hlookup := (h _ _ _ _ hrun).outbound (c := 1) rfl rfl
  cases hlookup

end Kojacoord
