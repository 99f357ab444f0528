import Kojacoord.Queue
import Kojacoord.Server

namespace Kojacoord
open List Option

inductive NodeRole where
  | leader
  | follower
  | standalone
  deriving DecidableEq

inductive NodeState where
  | starting
  | ready
  | degraded
  | draining
  | shuttingDown
  deriving DecidableEq

structure NodeCapabilities where
  maxPlayers : Nat
  supportsProtocolVersions : List UInt32
  supportsMods : Bool

structure ClusterNode where
  id : Uuid
  address : SocketAddr
  role : NodeRole
  state : NodeState
  playerCount : Nat
  lastHeartbeat : Int
  capabilities : NodeCapabilities

def ClusterNode.new (minted : Uuid) (address : SocketAddr) (role : NodeRole) (maxPlayers : Nat) (now : Int) :
    ClusterNode where
  id := minted
  address := address
  role := role
  state := .starting
  playerCount := 0
  lastHeartbeat := now
  capabilities := ⟨maxPlayers, [47, 107, 340, 393, 401, 477, 573, 759, 761, 762, 763], true⟩

def ClusterNode.isHealthy (now : Int) (n : ClusterNode) : Bool :=
  now - n.lastHeartbeat < 5000 && (n.state = .ready || n.state = .degraded)

structure ServiceDiscovery where
  nodes : AList fun _ : Uuid => ClusterNode
  localNodeId : Uuid
  keyed : ∀ id node, nodes.lookup id = some node → node.id = id

namespace ServiceDiscovery

def new (localNodeId : Uuid) : ServiceDiscovery where
  nodes := ∅
  localNodeId := localNodeId
  keyed id node h := by simp at h

def getNode (d : ServiceDiscovery) (nodeId : Uuid) : Option ClusterNode := d.nodes.lookup nodeId

def registerNode (d : ServiceDiscovery) (node : ClusterNode) : ServiceDiscovery where
  nodes := d.nodes.insert node.id node
  localNodeId := d.localNodeId
  keyed id found h := by
    by_cases hid : id = node.id
    · subst hid
      rw [AList.lookup_insert] at h
      cases h
      rfl
    · rw [AList.lookup_insert_ne hid] at h
      exact d.keyed id found h

def unregisterNode (d : ServiceDiscovery) (nodeId : Uuid) : ServiceDiscovery where
  nodes := d.nodes.erase nodeId
  localNodeId := d.localNodeId
  keyed id found h := by
    by_cases hid : id = nodeId
    · rw [hid, AList.lookup_erase] at h
      cases h
    · rw [AList.lookup_erase_ne hid] at h
      exact d.keyed id found h

def updateHeartbeat (d : ServiceDiscovery) (now : Int) (nodeId : Uuid) (playerCount : Nat) :
    ServiceDiscovery :=
  match d.getNode nodeId with
  | some node => d.registerNode { node with lastHeartbeat := now, playerCount := playerCount }
  | none => d

def getAllNodes (d : ServiceDiscovery) : List ClusterNode := d.nodes.entries.map (·.2)

def getHealthyNodes (d : ServiceDiscovery) (now : Int) : List ClusterNode :=
  d.getAllNodes.filter (·.isHealthy now)

def getLocalNode (d : ServiceDiscovery) : Option ClusterNode := d.getNode d.localNodeId

end ServiceDiscovery

structure RedisAnswers where
  connects : Bool
  get : Option String
  eval : Int
  set : Bool

structure UuidText where
  print : Uuid → String
  parse : String → Option Uuid

structure ClusterCoordinator where
  discovery : ServiceDiscovery
  leaderId : Option Uuid
  localNodeId : Uuid

namespace ClusterCoordinator

def new (discovery : ServiceDiscovery) (localNodeId : Uuid) : ClusterCoordinator :=
  ⟨discovery, none, localNodeId⟩

def lockHolder (text : UuidText) (c : ClusterCoordinator) (a : RedisAnswers) : Option Uuid :=
  if !a.connects then none
  else if a.get = some (text.print c.localNodeId) then
    if a.eval = 1 then some c.localNodeId else none
  else if a.set then some c.localNodeId
  else a.get.bind text.parse

def elected (nodes : List ClusterNode) (holder : Option Uuid) : Option ClusterNode :=
  (holder.bind fun id => nodes.find? (·.id = id)).or (nodes.argmin (·.id.toNat))

def withRole (leader : Uuid) (node : ClusterNode) : ClusterNode :=
  { node with role := if node.id = leader then .leader else .follower }

def assignRoles (d : ServiceDiscovery) (leader : Uuid) : ServiceDiscovery :=
  d.getAllNodes.foldl (fun d node => d.registerNode (withRole leader node)) d

def electLeader (text : UuidText) (c : ClusterCoordinator) (now : Int) (a : RedisAnswers) :
    ClusterCoordinator :=
  match elected (c.discovery.getHealthyNodes now) (c.lockHolder text a) with
  | none => { c with leaderId := none } -- no node is healthy
  | some leader =>
    { c with leaderId := some leader.id, discovery := assignRoles c.discovery leader.id }

def initializeNode (text : UuidText) (c : ClusterCoordinator) (minted : Uuid)
    (localAddress : SocketAddr) (maxPlayers : Nat) (now : Int) (a : RedisAnswers) :
    ClusterCoordinator :=
  let localNode := ClusterNode.new minted localAddress .standalone maxPlayers now
  electLeader text { c with discovery := c.discovery.registerNode localNode } now a

def isLeader (c : ClusterCoordinator) : Bool := c.leaderId = some c.localNodeId

def getLeader (c : ClusterCoordinator) : Option ClusterNode := c.leaderId.bind c.discovery.getNode

def stepDown (text : UuidText) (c : ClusterCoordinator) (now : Int) (a : RedisAnswers) :
    ClusterCoordinator :=
  if c.isLeader then electLeader text { c with leaderId := none } now a else c

def onNodeJoin (text : UuidText) (c : ClusterCoordinator) (node : ClusterNode) (now : Int)
    (a : RedisAnswers) : ClusterCoordinator :=
  electLeader text { c with discovery := c.discovery.registerNode node } now a

def onNodeLeave (text : UuidText) (c : ClusterCoordinator) (nodeId : Uuid) (now : Int)
    (a : RedisAnswers) : ClusterCoordinator :=
  let c := { c with discovery := c.discovery.unregisterNode nodeId }
  match c.getLeader with
  | some leader => if leader.id = nodeId then electLeader text c now a else c
  | none => c

end ClusterCoordinator

namespace ServiceDiscovery
variable {d : ServiceDiscovery}

theorem mem_getAllNodes : node ∈ d.getAllNodes ↔ d.getNode node.id = some node := by
  constructor
  · intro h
    obtain ⟨⟨id, found⟩, hmem, rfl⟩ := mem_map.mp h
    have hlk : d.nodes.lookup id = some found := AList.mem_lookup_iff.mpr hmem
    rw [getNode, d.keyed id found hlk]
    exact hlk
  · intro h
    exact mem_map.mpr ⟨⟨node.id, node⟩, AList.mem_lookup_iff.mp h, rfl⟩

theorem mem_getHealthyNodes : node ∈ d.getHealthyNodes now ↔
    d.getNode node.id = some node ∧ node.isHealthy now = true := by
  rw [getHealthyNodes, mem_filter, mem_getAllNodes]

theorem getNode_registerNode (d : ServiceDiscovery) (node : ClusterNode) (id : Uuid) :
    (d.registerNode node).getNode id = if id = node.id then some node else d.getNode id := by
  by_cases hid : id = node.id
  · rw [if_pos hid, hid]
    exact AList.lookup_insert _
  · rw [if_neg hid]
    exact AList.lookup_insert_ne hid

theorem getNode_unregisterNode (d : ServiceDiscovery) (nodeId id : Uuid) :
    (d.unregisterNode nodeId).getNode id = if id = nodeId then none else d.getNode id := by
  by_cases hid : id = nodeId
  · rw [if_pos hid, hid]
    exact AList.lookup_erase nodeId d.nodes
  · rw [if_neg hid]
    exact AList.lookup_erase_ne hid

theorem getNode_updateHeartbeat (d : ServiceDiscovery) (nodeId id : Uuid) :
    (d.updateHeartbeat now nodeId playerCount).getNode id =
      if id = nodeId then (d.getNode id).map fun node =>
        { node with lastHeartbeat := now, playerCount := playerCount }
      else d.getNode id := by
  unfold updateHeartbeat
  split
  · rename_i node hnd
    have hid : node.id = nodeId := d.keyed nodeId node hnd
    rw [getNode_registerNode]
    by_cases heq : id = nodeId
    · rw [if_pos (heq.trans hid.symm), if_pos heq, heq, hnd, map_some]
    · rw [if_neg fun h => heq (h.trans hid), if_neg heq]
  · rename_i hno
    split
    · rename_i heq
      rw [heq, hno, map_none]
    · rfl

end ServiceDiscovery

namespace ClusterCoordinator

theorem getNode_foldl_withRole {d d' : ServiceDiscovery} {nodes : List ClusterNode} {id : Uuid}
    (h : ∀ node ∈ nodes, d.getNode node.id = some node) :
    (nodes.foldl (fun d node => d.registerNode (withRole leader node)) d').getNode id =
      if id ∈ nodes.map (·.id) then (d.getNode id).map (withRole leader) else d'.getNode id := by
  induction nodes generalizing d' with
  | nil => rfl
  | cons node nodes ih =>
    obtain ⟨hnd, hnod⟩ := forall_mem_cons.mp h
    rw [foldl_cons, ih hnod, map_cons, ServiceDiscovery.getNode_registerNode]
    have hid : (withRole leader node).id = node.id := rfl
    by_cases hmem : id ∈ nodes.map (·.id)
    · rw [if_pos hmem, if_pos (mem_cons_of_mem _ hmem)]
    · rw [if_neg hmem, hid]
      by_cases heq : id = node.id
      · rw [if_pos heq, if_pos (heq ▸ mem_cons_self), heq, hnd, map_some]
      · rw [if_neg heq, if_neg (by simpa [heq] using hmem)]

theorem getNode_assignRoles (d : ServiceDiscovery) (leader id : Uuid) :
    (assignRoles d leader).getNode id = (d.getNode id).map (withRole leader) := by
  rw [assignRoles, getNode_foldl_withRole fun node h => ServiceDiscovery.mem_getAllNodes.mp h]
  split
  · rfl
  · rename_i hnot
    cases hnd : d.getNode id with
    | none => rfl
    | some node =>
      have hid : node.id = id := d.keyed id node hnd
      have hmem : node ∈ d.getAllNodes := ServiceDiscovery.mem_getAllNodes.mpr (hid ▸ hnd)
      exact absurd (mem_map.mpr ⟨node, hmem, hid⟩) hnot

theorem elected_mem (h : elected nodes holder = some leader) : leader ∈ nodes := by
  rcases or_eq_some_iff.mp h with hhol | ⟨-, hlea⟩
  · obtain ⟨id, -, hfi⟩ := bind_eq_some_iff.mp hhol
    exact mem_of_find?_eq_some hfi
  · exact argmin_mem hlea

theorem elected_eq_none : elected nodes holder = none ↔ nodes = [] := by
  rw [elected, or_eq_none_iff, argmin_eq_none]
  constructor
  · exact And.right
  · rintro rfl
    exact ⟨by cases holder <;> rfl, rfl⟩

end ClusterCoordinator

end Kojacoord
