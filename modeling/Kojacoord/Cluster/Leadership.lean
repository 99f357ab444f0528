import Kojacoord.Cluster.Coordination
import Kojacoord.Lib.Runs

namespace Kojacoord
open Runs

structure Cluster where
  coordinator : ClusterCoordinator
  now : Int

namespace Cluster

def new (discovery : ServiceDiscovery) (localNodeId : Uuid) (now : Int) : Cluster :=
  ⟨.new discovery localNodeId, now⟩

/-- The calls that the coordinator completes, each with Redis' answers, and what goes on in between:
time passes and nodes send heartbeats. -/
inductive Label where
  | join (node : ClusterNode) (a : RedisAnswers)
  | leave (nodeId : Uuid) (a : RedisAnswers)
  | stepDown (a : RedisAnswers)
  | elect (a : RedisAnswers)
  | wait (later : Int)
  | heartbeat (nodeId : Uuid) (playerCount : Nat)

def Healthy (s : Cluster) (id : Uuid) : Prop :=
  ∃ node, s.coordinator.discovery.getNode id = some node ∧ node.isHealthy s.now = true

/-- Healthy nodes stay healthy while registered: no time passes in which one would have to be heard
of, and those heard of are healthy. -/
def step (text : UuidText) (s : Cluster) : Label → Option Cluster
  | .join node a => some { s with coordinator := s.coordinator.onNodeJoin text node s.now a }
  | .leave nodeId a => some { s with coordinator := s.coordinator.onNodeLeave text nodeId s.now a }
  | .stepDown a => some { s with coordinator := s.coordinator.stepDown text s.now a }
  | .elect a => some { s with coordinator := s.coordinator.electLeader text s.now a }
  | .wait later =>
    if s.now ≤ later ∧
        ∀ node ∈ s.coordinator.discovery.getHealthyNodes s.now, node.isHealthy later = true then
      some { s with now := later }
    else none
  | .heartbeat nodeId playerCount =>
    if ((s.coordinator.discovery.getNode nodeId).any (·.isHealthy s.now)) then
      some { s with
        coordinator.discovery :=
          s.coordinator.discovery.updateHeartbeat s.now nodeId playerCount }
    else none

def Led (s : Cluster) : Prop :=
  (∃ id, s.Healthy id) → ∃ id, s.coordinator.leaderId = some id ∧ s.Healthy id

def Orderly (s : Cluster) : Label → Prop
  | .leave nodeId _ => s.coordinator.leaderId = some nodeId →
      ∀ node ∈ s.coordinator.discovery.getHealthyNodes s.now, node.id = nodeId
  | _ => True

instance (s : Cluster) : (l : Label) → Decidable (s.Orderly l)
  | .leave _ _ => inferInstanceAs (Decidable (_ → ∀ _ ∈ _, _))
  | .join _ _ | .stepDown _ | .elect _ | .wait _ | .heartbeat _ _ =>
    inferInstanceAs (Decidable True)

variable {text : UuidText} {s s' : Cluster} {id nodeId : Uuid}

theorem healthy_iff : s.Healthy id ↔
    ∃ node ∈ s.coordinator.discovery.getHealthyNodes s.now, node.id = id := by
  constructor
  · rintro ⟨node, hnd, hhl⟩
    have hid : node.id = id := s.coordinator.discovery.keyed id node hnd
    exact ⟨node, ServiceDiscovery.mem_getHealthyNodes.mpr ⟨hid ▸ hnd, hhl⟩, hid⟩
  · rintro ⟨node, hmem, rfl⟩
    obtain ⟨hnd, hhl⟩ := ServiceDiscovery.mem_getHealthyNodes.mp hmem
    exact ⟨node, hnd, hhl⟩

variable {a : RedisAnswers}

theorem led_electLeader (c : ClusterCoordinator) (now : Int) :
    Led ⟨c.electLeader text now a, now⟩ := by
  rintro ⟨id, hid⟩
  unfold ClusterCoordinator.electLeader at hid ⊢
  cases hele : ClusterCoordinator.elected (c.discovery.getHealthyNodes now)
      (c.lockHolder text a) with
  | none =>
    rw [hele] at hid
    obtain ⟨node, hmem, -⟩ := healthy_iff.mp hid
    rw [ClusterCoordinator.elected_eq_none.mp hele] at hmem
    cases hmem
  | some leader =>
    obtain ⟨hnd, hhl⟩ :=
      ServiceDiscovery.mem_getHealthyNodes.mp (ClusterCoordinator.elected_mem hele)
    refine ⟨leader.id, rfl, ClusterCoordinator.withRole leader.id leader, ?_, hhl⟩
    rw [ClusterCoordinator.getNode_assignRoles, hnd, Option.map_some]

theorem led_stepDown (h : s.Led) :
    Led { s with coordinator := s.coordinator.stepDown text s.now a } := by
  unfold ClusterCoordinator.stepDown
  split
  · exact led_electLeader _ s.now
  · exact h

theorem healthy_unregisterNode :
    Healthy { s with coordinator.discovery := s.coordinator.discovery.unregisterNode nodeId } id ↔
      id ≠ nodeId ∧ s.Healthy id := by
  simp only [Healthy, ServiceDiscovery.getNode_unregisterNode]
  by_cases hid : id = nodeId
  · simp [hid]
  · simp [hid]

theorem led_onNodeLeave (h : s.Led) (hok : s.Orderly (.leave nodeId a)) :
    Led { s with coordinator := s.coordinator.onNodeLeave text nodeId s.now a } := by
  have hgone : Led
      { s with coordinator.discovery := s.coordinator.discovery.unregisterNode nodeId } := by
    rintro ⟨id, hid⟩
    obtain ⟨hne, hhl⟩ := healthy_unregisterNode.mp hid
    obtain ⟨leader, hlea, hvd⟩ := h ⟨id, hhl⟩
    refine ⟨leader, hlea, healthy_unregisterNode.mpr ⟨?_, hvd⟩⟩
    rintro rfl
    obtain ⟨node, hmem, rfl⟩ := healthy_iff.mp hhl
    exact hne (hok hlea node hmem)
  unfold ClusterCoordinator.onNodeLeave
  dsimp only
  split
  · split
    · exact led_electLeader _ s.now
    · exact hgone
  · exact hgone

theorem led_wait (h : s.Led) (hle : s.now ≤ later)
    (hstay : ∀ node ∈ s.coordinator.discovery.getHealthyNodes s.now, node.isHealthy later = true) :
    Led { s with now := later } := by
  have hbk {id : Uuid} (hid : Healthy { s with now := later } id) : s.Healthy id := by
    obtain ⟨node, hnd, hhl⟩ := hid
    refine ⟨node, hnd, ?_⟩
    simp only [ClusterNode.isHealthy, Bool.and_eq_true, decide_eq_true_eq] at hhl ⊢
    exact ⟨by omega, hhl.2⟩
  rintro ⟨id, hid⟩
  obtain ⟨leader, hlea, node, hnd, hhl⟩ := h ⟨id, hbk hid⟩
  have hid : node.id = leader := s.coordinator.discovery.keyed leader node hnd
  exact ⟨leader, hlea, node, hnd,
    hstay node (ServiceDiscovery.mem_getHealthyNodes.mpr ⟨hid ▸ hnd, hhl⟩)⟩

theorem led_heartbeat (h : s.Led)
    (hhea : (s.coordinator.discovery.getNode nodeId).any (·.isHealthy s.now) = true) :
    Led { s with coordinator.discovery :=
      s.coordinator.discovery.updateHeartbeat s.now nodeId playerCount } := by
  have hsm (id : Uuid) : Healthy { s with coordinator.discovery :=
      s.coordinator.discovery.updateHeartbeat s.now nodeId playerCount } id ↔ s.Healthy id := by
    simp only [Healthy, ServiceDiscovery.getNode_updateHeartbeat]
    by_cases hid : id = nodeId
    · subst hid
      cases hnd : s.coordinator.discovery.getNode id with
      | none => simp
      | some node =>
        rw [hnd, Option.any_some] at hhea
        simp only [ClusterNode.isHealthy, Bool.and_eq_true, decide_eq_true_eq] at hhea
        simp [ClusterNode.isHealthy, hhea.1]
    · simp [hid]
  rintro ⟨id, hid⟩
  obtain ⟨leader, hlea, hvd⟩ := h ⟨id, (hsm id).mp hid⟩
  exact ⟨leader, hlea, (hsm leader).mpr hvd⟩

theorem led_step (h : s.Led) (hok : s.Orderly l) (hstep : step text s l = some s') : s'.Led := by
  cases l with
  | join node a | elect a =>
    cases hstep
    exact led_electLeader _ s.now
  | leave nodeId a =>
    cases hstep
    exact led_onNodeLeave h hok
  | stepDown a =>
    cases hstep
    exact led_stepDown h
  | wait later =>
    simp only [step] at hstep
    split at hstep
    · rename_i hgd
      cases hstep
      exact led_wait h hgd.1 hgd.2
    · cases hstep
  | heartbeat nodeId playerCount =>
    simp only [step] at hstep
    split at hstep
    · rename_i hhea
      cases hstep
      exact led_heartbeat h hhea
    · cases hstep

/-- In a run in which the leader does not leave healthy nodes behind, some healthy node leads
whenever there is one. -/
theorem led_of_run (hrun : Run (step text) Orderly (.new (.new localNodeId) localNodeId start) s) :
    s.Led := by
  apply hrun.invariant
  · rintro ⟨id, node, hnode, -⟩
    simp [new, ClusterCoordinator.new, ServiceDiscovery.new, ServiceDiscovery.getNode] at hnode
  · intro s l s' h hok hstep
    exact led_step h hok hstep

def noText : UuidText := ⟨fun _ => "", fun _ => none⟩

def noRedis : RedisAnswers := ⟨false, none, 0, false⟩

def readyNode (id : Uuid) : ClusterNode :=
  { ClusterNode.new id ⟨.v4 0x7f000001#32, 25565⟩ .follower 100 0 with state := .ready }

theorem led_of_run_follower_leaves :
    ∃ s, Run (step noText) Orderly (.new (.new 0) 0 0) s ∧ s.Healthy 1 ∧ s.Led := by
  have hrun : Run (step noText) Orderly (.new (.new 0) 0 0) _ :=
    Run.of_exec [.join (readyNode 2) noRedis, .join (readyNode 1) noRedis, .wait 4000,
      .heartbeat 1 3, .leave 2 noRedis] rfl
  exact ⟨_, hrun, ⟨_, rfl, by decide⟩, led_of_run hrun⟩

/-- The leader leaves, and nobody is elected in its place. -/
theorem leader_lost : ∃ s, Run (step noText) (fun _ _ => True) (.new (.new 0) 0 0) s ∧
    s.Healthy 2 ∧ s.coordinator.leaderId = some 1 ∧ ¬s.Led := by
  have hrun : Run (step noText) (fun _ _ => True) (.new (.new 0) 0 0) _ :=
    Run.of_exec [.join (readyNode 1) noRedis, .join (readyNode 2) noRedis, .leave 1 noRedis] rfl
  refine ⟨_, hrun, ⟨_, rfl, by decide⟩, by decide, ?_⟩
  intro hled
  obtain ⟨id, hleader, node, hnode, -⟩ := hled ⟨2, _, rfl, by decide⟩
  have hid : (1 : Uuid) = id := Option.some.inj hleader
  subst hid
  cases hnode

/-- As long as there is a leader, it is the one node that is registered in that role. -/
def RolesAgree (c : ClusterCoordinator) : Prop :=
  ∀ leader, c.leaderId = some leader → ∀ id node, c.discovery.getNode id = some node →
    (node.role = .leader ↔ id = leader)

variable {c : ClusterCoordinator} {now : Int}

theorem rolesAgree_electLeader : RolesAgree (c.electLeader text now a) := by
  intro leader hlead id node hnd
  unfold ClusterCoordinator.electLeader at hlead hnd
  split at hlead <;> cases hlead
  rename_i leader hel
  rw [hel, ClusterCoordinator.getNode_assignRoles] at hnd
  obtain ⟨found, hfd, rfl⟩ := Option.map_eq_some_iff.mp hnd
  have hid : found.id = id := c.discovery.keyed id found hfd
  rw [ClusterCoordinator.withRole, hid]
  split <;> simp [*]

theorem rolesAgree_onNodeLeave (h : RolesAgree c) :
    RolesAgree (c.onNodeLeave text nodeId now a) := by
  have hleft : RolesAgree { c with discovery := c.discovery.unregisterNode nodeId } := by
    intro leader hlead id node hnd
    rw [ServiceDiscovery.getNode_unregisterNode] at hnd
    split at hnd
    · cases hnd
    · exact h leader hlead id node hnd
  unfold ClusterCoordinator.onNodeLeave
  dsimp only
  split
  · split
    · exact rolesAgree_electLeader
    · exact hleft
  · exact hleft

theorem rolesAgree_step (h : RolesAgree s.coordinator) (hstep : step text s l = some s') :
    RolesAgree s'.coordinator := by
  cases l with
  | join | elect =>
    cases hstep
    exact rolesAgree_electLeader
  | leave =>
    cases hstep
    exact rolesAgree_onNodeLeave h
  | stepDown =>
    cases hstep
    unfold ClusterCoordinator.stepDown
    dsimp only
    split
    · exact rolesAgree_electLeader
    · exact h
  | wait =>
    simp only [step] at hstep
    split at hstep <;> cases hstep
    exact h
  | heartbeat nodeId playerCount =>
    simp only [step] at hstep
    split at hstep <;> cases hstep
    intro leader hlead id node hnd
    rw [ServiceDiscovery.getNode_updateHeartbeat] at hnd
    split at hnd
    · obtain ⟨found, hfd, rfl⟩ := Option.map_eq_some_iff.mp hnd
      exact h leader hlead id found hfd
    · exact h leader hlead id node hnd

/-- Whatever joins, leaves, elections and heartbeats come, and whatever Redis answers, no two nodes
are registered as leaders while there is one. -/
theorem rolesAgree_of_run (h : Run (step text) ok (.new (.new localNodeId) localNodeId start) s) :
    RolesAgree s.coordinator := by
  refine h.invariant (I := fun s => RolesAgree s.coordinator) ?_ fun _ _ _ hs _ => rolesAgree_step hs
  rintro leader ⟨⟩

theorem rolesAgree_of_run_two : ∃ s, Run (step noText) (fun _ _ => True) (.new (.new 0) 0 0) s ∧
    s.coordinator.leaderId = some 1 ∧ RolesAgree s.coordinator := by
  have hrun : Run (step noText) (fun _ _ => True) (.new (.new 0) 0 0) _ :=
    Run.of_exec [.join (readyNode 2) noRedis, .join (readyNode 1) noRedis, .heartbeat 2 3] rfl
  exact ⟨_, hrun, by decide, rolesAgree_of_run hrun⟩

end Cluster

namespace ClusterCoordinator
variable {text : UuidText} {c : ClusterCoordinator} {localId minted : Uuid}

inductive LocalStep where
  | heartbeat (now : Int) (nodeId : Uuid) (playerCount : Nat)
  | elect (now : Int) (a : RedisAnswers)

def localStep (text : UuidText) (c : ClusterCoordinator) : LocalStep → ClusterCoordinator
  | .heartbeat now nodeId playerCount =>
    { c with discovery := c.discovery.updateHeartbeat now nodeId playerCount }
  | .elect now a => c.electLeader text now a

/-- The node that was registered under `minted` is the local one, and it leads from then on. -/
def SelfIdentified (text : UuidText) (c : ClusterCoordinator) (minted : Uuid) : Prop :=
  (∃ node, c.discovery.getNode minted = some node ∧ c.discovery.getLocalNode = some node) ∧
    ∀ steps : List LocalStep, (steps.foldl (localStep text) c).isLeader = true

structure Idle (c : ClusterCoordinator) : Prop where
  starting : ∀ id node, c.discovery.getNode id = some node → node.state = .starting
  leaderless : c.leaderId = none

theorem Idle.electLeader (h : ∀ id node, c.discovery.getNode id = some node →
    node.state = .starting) : c.electLeader text now a = { c with leaderId := none } := by
  have hno : c.discovery.getHealthyNodes now = [] := by
    apply List.eq_nil_iff_forall_not_mem.mpr
    intro node hmem
    obtain ⟨hnd, hhl⟩ := ServiceDiscovery.mem_getHealthyNodes.mp hmem
    simp [ClusterNode.isHealthy, h node.id node hnd] at hhl
  rw [ClusterCoordinator.electLeader, elected_eq_none.mpr hno]

theorem Idle.localStep (h : c.Idle) (l : LocalStep) : (c.localStep text l).Idle := by
  cases l with
  | heartbeat now nodeId playerCount =>
    refine ⟨?_, h.leaderless⟩
    intro id node hnd
    simp only [ClusterCoordinator.localStep, ServiceDiscovery.getNode_updateHeartbeat] at hnd
    split at hnd
    · obtain ⟨old, hold, rfl⟩ := Option.map_eq_some_iff.mp hnd
      exact h.starting id old hold
    · exact h.starting id node hnd
  | elect now a =>
    rw [ClusterCoordinator.localStep, electLeader h.starting]
    exact ⟨h.starting, rfl⟩

theorem Idle.foldl (h : c.Idle) (steps : List LocalStep) :
    (steps.foldl (.localStep text) c).Idle := by
  induction steps generalizing c with
  | nil => exact h
  | cons l steps ih => exact ih (h.localStep l)

theorem Idle.isLeader (h : c.Idle) : c.isLeader = false := by
  rw [ClusterCoordinator.isLeader, h.leaderless]
  rfl

def initialized (text : UuidText) (localId minted : Uuid) (localAddress : SocketAddr)
    (maxPlayers : Nat) (now : Int) (a : RedisAnswers) : ClusterCoordinator :=
  (new (.new localId) localId).initializeNode text minted localAddress maxPlayers now a

theorem starting_of_getNode {id : Uuid} {node : ClusterNode}
    (h : ((ServiceDiscovery.new localId).registerNode
      (.new minted localAddress role maxPlayers now)).getNode id = some node) :
    id = minted ∧ node.state = .starting := by
  rw [ServiceDiscovery.getNode_registerNode] at h
  split at h
  · rename_i hid
    cases h
    exact ⟨hid, rfl⟩
  · simp [ServiceDiscovery.new, ServiceDiscovery.getNode] at h

theorem initialized_eq :
    initialized text localId minted localAddress maxPlayers now a =
      new ((ServiceDiscovery.new localId).registerNode
        (.new minted localAddress .standalone maxPlayers now)) localId := by
  rw [initialized, initializeNode, Idle.electLeader]
  · rfl
  · intro id node hnd
    exact (starting_of_getNode hnd).2

/-- A coordinator does not know its own node, whose id is another one, and never makes it the
leader, since it never becomes ready. -/
theorem not_selfIdentified (text : UuidText) (localId minted : Uuid)
    (localAddress : SocketAddr) (maxPlayers : Nat) (now : Int) (a : RedisAnswers) :
    let c := initialized text localId minted localAddress maxPlayers now a
    ¬c.SelfIdentified text minted ∧ (localId ≠ minted → c.discovery.getLocalNode = none) ∧
      ∀ steps : List LocalStep, (steps.foldl (localStep text) c).isLeader = false := by
  intro c
  have hidle : c.Idle := by
    show (initialized ..).Idle
    rw [initialized_eq]
    exact ⟨fun _ _ hnode => (starting_of_getNode hnode).2, rfl⟩
  refine ⟨?_, ?_, fun steps => (hidle.foldl steps).isLeader⟩
  · rintro ⟨-, hleads⟩
    cases hidle.isLeader.symm.trans (hleads [])
  · intro hne
    show (initialized ..).discovery.getLocalNode = none
    rw [initialized_eq]
    cases hlocal : ServiceDiscovery.getLocalNode _ with
    | none => rfl
    | some node => exact absurd (starting_of_getNode hlocal).1 hne

theorem alone_without_leader :
    let c := initialized Cluster.noText 1 2 ⟨.v4 0x7f000001#32, 25565⟩ 100 0 Cluster.noRedis
    c.discovery.getLocalNode.isNone ∧ (c.discovery.getNode 2).isSome ∧
      ([.elect 5000 Cluster.noRedis].foldl (localStep Cluster.noText) c).isLeader = false := by
  decide

end ClusterCoordinator

end Kojacoord
