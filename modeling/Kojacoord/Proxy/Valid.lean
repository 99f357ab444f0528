import Kojacoord.Proxy.Moves

namespace Kojacoord
open List

/-- The rule for properties of single connections: a step keeps one that survives growth of the
registry and is kept by moves, accesses and started operations. -/
theorem step_forall {P : ServerRegistry → Conn → Prop} (h : step cfg s l = some s')
    (hP : ∀ k ∈ s.conns, P s.registry k)
    (hext : ∀ k, s.registry.Extends s'.registry → P s.registry k → P s'.registry k)
    (hnew : ∀ uuid ip v, P s.registry (.new uuid ip v))
    (hspa : ∀ k owner o, o.Starts s.registry → P s.registry k → P s.registry (k.spawn owner o))
    (hmv : ∀ c m k k' e, l = .move c m → s.conns[c]? = some k → k.move cfg s m = some (k', e) →
      P s.registry k → P s.registry k')
    (hacc : ∀ c i k owner o, l = .access c i → s.conns[c]? = some k →
      k.ops[i]? = some (owner, o) → P s.registry k →
      P s.registry (k.advance s.registry i owner o)) :
    ∀ k ∈ s'.conns, P s'.registry k := by
  intro k' hk'
  apply hext k' (step_extends h)
  by_cases hl : l.quiet = true
  · have hc := step_quiet_conns hl h
    generalize s'.conns = ks at hc hk'
    cases hc with
    | same => exact hP k' hk'
    | accept =>
      rcases mem_append.mp hk' with hk' | hk'
      · exact hP k' hk'
      · rw [mem_singleton.mp hk']
        exact hnew _ _ _
    | spawn ho hk =>
      rcases mem_or_eq_of_mem_set hk' with hk' | rfl
      · exact hP k' hk'
      · exact hspa _ _ _ (spawned_starts ho) (hP _ (mem_of_getElem? hk))
  · cases l with
    | move c m =>
      obtain ⟨k, k₁, e, hk, hm, rfl⟩ := step_move h
      rw [State.perform_conns, State.setConn_conns] at hk'
      rcases mem_or_eq_of_mem_set hk' with hk' | rfl
      · exact hP k' hk'
      · exact hmv c m k _ e rfl hk hm (hP k (mem_of_getElem? hk))
    | access c i =>
      obtain ⟨k, owner, o, hk, ho, rfl⟩ := step_access h
      rcases mem_or_eq_of_mem_set hk' with hk' | rfl
      · exact hP k' hk'
      · exact hacc c i k owner o rfl hk ho (hP k (mem_of_getElem? hk))
    | _ => exact absurd rfl hl

def RouteStage.ids : RouteStage → List ServerId
  | .selected candidate | .grouped candidate _ | .swapping candidate _ => [candidate]

def Credit.ids : Credit → List ServerId
  | .held selected => selected.toList
  | .named _ => []

def Phase.ids : Phase → List ServerId
  | .dialing b | .polled _ b | .full _ b | .vacant _ b | .limboDialing _ b | .admitted _ b
  | .departing _ b | .leftLimbo _ b | .attaching b _ | .resetting b | .attached b
  | .pumping b => [b]
  | .routing b stage => b :: stage.ids
  | .loggingIn b settings credit => b :: (settings.toList ++ credit.ids)
  | .greeting | .connecting | .limbo .. | .draining _ | .rejected | .ended | .unqueueing
  | .gone => []

def Op.ids : Op → List ServerId
  | .connectRelease b _ | .connectCredit b _ | .joinAdd b => [b]
  | _ => []

structure Conn.Valid (r : ServerRegistry) (k : Conn) : Prop where
  phase : ∀ b ∈ k.phase.ids, b < r.heap.length
  ops : ∀ o ∈ k.ops, ∀ b ∈ o.2.ids, b < r.heap.length

namespace Conn.Valid

theorem enter (h : Valid r k) (hp : ∀ b ∈ p.ids, b < r.heap.length) : Valid r (k.enter p) :=
  ⟨hp, h.ops⟩

theorem enter_of_subset (h : Valid r k) (hp : p.ids ⊆ k.phase.ids) : Valid r (k.enter p) :=
  h.enter fun b hb => h.phase b (hp hb)

theorem spawn (h : Valid r k) (ho : ∀ b ∈ o.ids, b < r.heap.length) :
    Valid r (k.spawn owner o) := by
  refine ⟨h.phase, ?_⟩
  intro p hp
  rcases mem_append.mp hp with hp | hp
  · exact h.ops p hp
  · rw [mem_singleton.mp hp]
    exact ho

theorem startCredit (h : Valid r k) (hb : b < r.heap.length)
    (hc : ∀ d ∈ credit.ids, d < r.heap.length) : Valid r (k.startCredit b credit) := by
  cases credit with
  | named target => exact (h.enter (by simpa [Phase.ids] using hb)).spawn (by simp [Op.ids])
  | held selected =>
    cases selected with
    | none => exact h.enter (by simpa [Phase.ids] using hb)
    | some d => exact (h.enter (by simpa [Phase.ids] using hb)).spawn hc

theorem extend (h : Valid r k) (he : r.Extends r') : Valid r' k :=
  ⟨fun b hb => (h.phase b hb).trans_le he.length,
    fun o ho b hb => (h.ops o ho b hb).trans_le he.length⟩

end Conn.Valid

theorem Leg.candidateBackend_bound {leg : Leg} (h : leg.candidateBackend cfg r roll = some b) :
    r.Bound b := by
  cases leg with
  | join => exact select_bound h
  | switch target => exact ServerRegistry.bound_of_get (Option.filter_eq_some_iff.mp h).1

theorem Phase.ids_failure {leg : Leg} : leg.failure.ids = [] := by
  cases leg <;> rfl

theorem Phase.ids_creditFailure {credit : Credit} : credit.failure.ids = [] := by
  cases credit <;> rfl

theorem Phase.ids_nextPhase {why : RelayEnd} : (why.nextPhase cfg r roll).ids = [] := by
  cases why <;> rfl

theorem Conn.move_valid {k : Conn} (h : k.Valid s.registry)
    (hm : k.move cfg s m = some (k', e)) : k'.Valid s.registry := by
  have hv := h.phase
  cases Conn.moves_of_move hm with
  | select hp hb => exact h.enter (by simpa [Phase.ids] using (selectWithRegion_bound hb).valid)
  | poll hp hb => exact h.enter (by simpa [Phase.ids] using (Leg.candidateBackend_bound hb).valid)
  | joined hp =>
    rw [hp] at hv
    exact h.startCredit (hv _ (by simp [Phase.ids])) (by simpa [Phase.ids, Credit.ids] using hv)
  | login hp =>
    rw [hp] at hv
    simp only [Phase.ids, mem_cons, mem_append] at hv
    exact h.startCredit (hv _ (.inl rfl)) fun d hd => hv d (.inr (.inr hd))
  | route hp hd =>
    rw [hp] at hv
    have hd := (selectWithRegion_bound hd).valid
    exact h.enter (by simpa [Phase.ids, RouteStage.ids] using ⟨hv _ (by simp [Phase.ids]), hd⟩)
  | routeSwitch hp =>
    rw [hp] at hv
    have hb := hv _ (mem_singleton.mpr rfl)
    refine h.enter ?_
    intro d hd
    simp only [Phase.ids, Credit.ids, append_nil, mem_cons, Option.mem_toList] at hd
    rcases hd with rfl | hd
    · exact hb
    · exact ServerRegistry.get_valid hd
  | swapActive hp hf =>
    rw [hp] at hv
    simp only [Phase.ids, RouteStage.ids, mem_cons, not_mem_nil, or_false,
      forall_eq_or_imp, forall_eq] at hv
    rcases swapInActive_cases with heq | hb
    · rw [← hf, heq]
      exact h.enter (by simpa [Phase.ids, Credit.ids] using hv)
    · exact h.enter (by simpa [Phase.ids, Credit.ids] using ⟨hv.1, hf ▸ hb.valid⟩)
  | leaveFailed hp | fail hp => exact h.enter (by simp [Phase.ids_failure])
  | loginFailed hp => exact h.enter (by simp [Phase.ids_creditFailure])
  | stopRelay hp => exact (h.enter (by simp [Phase.ids])).spawn (by simp [Op.ids])
  | finishRelay hp => exact h.enter (by simp [Phase.ids_nextPhase])
  | _ hp => exact h.enter_of_subset (by simp [hp, Phase.ids, RouteStage.ids, Credit.ids])

theorem Op.next_ids (h : Op.next r k o = some o') : o'.ids ⊆ o.ids := by
  cases o with
  | write server flag =>
    cases flag with
    | true =>
      cases h
      simp [ids]
    | false => cases h
  | evacRead fromServer toServer =>
    simp only [next] at h
    split at h <;> cases h
    simp [ids]
  | _ =>
    cases h
    try simp [ids]

theorem Conn.phase_advance {k : Conn} : (k.advance r i owner o).phase = k.phase := by
  cases o <;> rfl

theorem Conn.mem_ops_advance {k : Conn} (hp : p ∈ (k.advance r i owner o).ops) :
    p ∈ k.ops ∨ ∃ o', o.next r k = some o' ∧ p = (owner, o') := by
  simp only [advance] at hp
  split at hp
  · rename_i o' ho'
    rcases mem_or_eq_of_mem_set hp with hp | rfl
    · exact .inl hp
    · exact .inr ⟨o', ho', rfl⟩
  · exact .inl (mem_of_mem_eraseIdx hp)

theorem Conn.advance_valid {k : Conn} (h : k.Valid r) (ho : k.ops[i]? = some (owner, o)) :
    (k.advance r i owner o).Valid r := by
  refine ⟨by simpa only [phase_advance] using h.phase, ?_⟩
  intro p hp b hb
  rcases mem_ops_advance hp with hp | ⟨o', ho', rfl⟩
  · exact h.ops p hp b hb
  · exact h.ops _ (mem_of_getElem? ho) b (Op.next_ids ho' hb)

theorem Op.Starts.valid {o : Op} (h : o.Starts r) : ∀ b ∈ o.ids, b < r.heap.length := by
  cases o with
  | connectRelease b server => simpa [ids] using ServerRegistry.get_valid h
  | _ => simp [ids, Starts] at h ⊢

def State.Valid (s : State) : Prop := ∀ k ∈ s.conns, k.Valid s.registry

theorem step_valid (h : step cfg s l = some s') (hs : s.Valid) : s'.Valid := by
  refine step_forall h hs (fun k he hk => hk.extend he) ?_ ?_ ?_ ?_
  · intro uuid ip v
    exact ⟨by simp [Conn.new, Phase.ids], by simp [Conn.new]⟩
  · intro k owner o ho hk
    exact hk.spawn ho.valid
  · intro c m k k' e _ _ hm hk
    exact Conn.move_valid hk hm
  · intro c i k owner o _ _ ho hk
    exact Conn.advance_valid hk ho

theorem start_valid : (State.start cfg r gs).Valid := by
  intro k hk
  cases hk

end Kojacoord
