import Kojacoord.Proxy.State

namespace Kojacoord

/-- What a connection task does next. Booleans are outcomes of network operations, `roll` is the
random number of a weighted group. -/
inductive Move where
  | welcome (ok : Bool)
  | selectBackend (roll : Nat)
  | joinLogin (ok : Bool)
  | poll (roll : Nat)
  | checkFull
  | enqueue
  | checkFront
  | dial (ok : Bool)
  | dequeue
  | leave (ok : Bool)
  | fail
  | route (roll : Nat)
  | findGroup
  | readActive
  | swapActive
  | login (ok : Bool)
  | attach
  | worldReset (ok : Bool)
  | startRelay (ok : Bool)
  | stopRelay (why : RelayEnd)
  | finishRelay (roll : Nat)
  | removeSession
  | leaveQueues

inductive Effect where
  | none
  | enqueue (server : String)
  | dequeue (server : String)
  | leaveQueues
  | removeSession
  | openOutbound
  | closeOutbound

/-- Where an error sends a connection: a failed join never reaches the cleanup of the relay loop. -/
def Leg.failure : Leg → Phase
  | .join => .rejected
  | .switch _ => .ended

def Credit.failure : Credit → Phase
  | .held _ => .rejected
  | .named _ => .ended

def Leg.candidateBackend (leg : Leg) (cfg : ProxyConfig) (r : ServerRegistry) (roll : Nat) :
    Option ServerId :=
  match leg with
  | .switch target => (r.get target).filter fun b => (r.server b).isOnline
  | .join => cfg.routing.select r roll

def fallbackTarget (cfg : ProxyConfig) (r : ServerRegistry) (roll : Nat) : String :=
  match cfg.routing.select r roll with
  | some b => (r.server b).name
  | none => ""

def RelayEnd.nextPhase (cfg : ProxyConfig) (r : ServerRegistry) (roll : Nat) : RelayEnd → Phase
  | .disconnected => .ended
  | .switch target => .limbo (.switch target) none
  | .kicked => .limbo (.switch (fallbackTarget cfg r roll)) none

def Conn.startCredit (k : Conn) (b : ServerId) : Credit → Conn
  | .held (some selected) => (k.enter (.attaching b false)).spawn .own (.joinAdd selected)
  | .held none => k.enter (.attached b)
  | .named target => (k.enter (.attaching b true)).spawn .own (.switchAdd target)

def Conn.move (cfg : ProxyConfig) (s : State) (k : Conn) (m : Move) : Option (Conn × Effect) :=
  let r := s.registry
  let name (b : ServerId) := (r.server b).name
  match m, k.phase with
  | .welcome ok, .greeting => some (k.enter (if ok then .connecting else .rejected), .none)
  | .selectBackend roll, .connecting =>
    match cfg.routing.selectWithRegion r k.clientIp roll with
    | some b => some (k.enter (.dialing b), .none)
    | none => some (k.enter (.limbo .join none), .none)
  | .joinLogin ok, .dialing b =>
    if ok then some (k.startCredit b (.held (some b)), .none)
    else some (k.enter (.limbo .join none), .none)
  | .poll roll, .limbo leg waiting =>
    match leg.candidateBackend cfg r roll with
    | some b => some (k.enter (.polled leg b), .none)
    | none => some (k.enter (.limbo leg waiting), .none)
  | .checkFull, .polled leg b =>
    if !cfg.queueEnabled then some (k.enter (.limboDialing leg b), .none)
    else if (r.server b).isFull then some (k.enter (.full leg b), .none)
    else some (k.enter (.vacant leg b), .none)
  | .enqueue, .full leg b => some (k.enter (.limbo leg (some (name b))), .enqueue (name b))
  | .checkFront, .vacant leg b =>
    if s.queues.isFrontOrUnqueued (name b) k.uuid then some (k.enter (.limboDialing leg b), .none)
    else some (k.enter (.limbo leg (some (name b))), .none)
  | .dial ok, .limboDialing leg b =>
    if ok then some (k.enter (.admitted leg b), .none)
    else some (k.enter (.limbo leg (some (name b))), .none)
  | .dequeue, .admitted leg b =>
    some (k.enter (.departing leg b), if cfg.queueEnabled then .dequeue (name b) else .none)
  | .leave ok, .departing leg b =>
    some (k.enter (if ok then .leftLimbo leg b else leg.failure), .none)
  | .fail, .limbo leg _ => some (k.enter leg.failure, .none)
  | .route roll, .leftLimbo .join b =>
    match cfg.routing.selectWithRegion r k.clientIp roll with
    | some candidate => some (k.enter (.routing b (.selected candidate)), .none)
    | none => some (k.enter (.loggingIn b none (.held none)), .none)
  | .route _, .leftLimbo (.switch target) b =>
    some (k.enter (.loggingIn b (r.get target) (.named target)), .none)
  | .findGroup, .routing b (.selected candidate) =>
    match s.groups.getGroupForServer (name candidate) with
    | some group => some (k.enter (.routing b (.grouped candidate group)), .none)
    | none => some (k.enter (.loggingIn b (some candidate) (.held (some candidate))), .none)
  | .readActive, .routing b (.grouped candidate group) =>
    some (k.enter (.routing b (.swapping candidate (s.groups.getActiveServer group))), .none)
  | .swapActive, .routing b (.swapping candidate active) =>
    let selected := swapInActive r candidate active
    some (k.enter (.loggingIn b (some selected) (.held (some selected))), .none)
  | .login ok, .loggingIn b _ credit =>
    if ok then some (k.startCredit b credit, .none) else some (k.enter credit.failure, .none)
  | .attach, .attaching b switched =>
    if k.ownIdle then
      let reset := switched && decide (k.protocolVersion < 735)
      some (k.enter (if reset then .resetting b else .attached b), .none)
    else none
  | .worldReset ok, .resetting b => some (k.enter (if ok then .attached b else .ended), .none)
  | .startRelay ok, .attached b =>
    if ok then some (k.enter (.pumping b), .openOutbound) else some (k.enter .ended, .none)
  | .stopRelay why, .pumping _ =>
    if k.ownIdle then some ((k.enter (.draining why)).spawn .own .exitFlag, .closeOutbound)
    else none
  | .finishRelay roll, .draining why =>
    if k.ownIdle then some (k.enter (why.nextPhase cfg r roll), .none) else none
  | .removeSession, .rejected => some (k.enter .gone, .removeSession)
  | .removeSession, .ended => some (k.enter .unqueueing, .removeSession)
  | .leaveQueues, .unqueueing => some (k.enter .gone, .leaveQueues)
  | _, _ => none

namespace State

def perform (s : State) (c : ConnId) (uuid : Uuid) : Effect → State
  | .none => s
  | .enqueue server => { s with queues := (s.queues.enqueue server uuid).1 }
  | .dequeue server => { s with queues := s.queues.remove server uuid }
  | .leaveQueues => { s with queues := s.queues.removeFromAll uuid }
  | .removeSession => { s with sessions := s.sessions.erase uuid }
  | .openOutbound => { s with outbound := s.outbound.insert uuid c }
  | .closeOutbound => { s with outbound := s.outbound.erase uuid }

def setConn (s : State) (c : ConnId) (k : Conn) : State := { s with conns := s.conns.set c k }

def setTask (s : State) (i : Nat) (t : Task) : State := { s with tasks := s.tasks.set i t }

def addTask (s : State) (t : Task) : State := { s with tasks := s.tasks ++ [t] }

def spawn (s : State) (c : ConnId) (owner : Owner) (o : Op) : State :=
  match s.conns[c]? with
  | some k => s.setConn c (k.spawn owner o)
  | none => s

def taskIdle (s : State) (i : Nat) : Bool := s.conns.all fun k => k.ops.all fun o => o.1 ≠ .task i

end State

def ServerEntry.toServer (e : ServerEntry) (address : SocketAddr) (count : UInt64) (online : Bool) :
    BackendServer where
  name := e.name
  address := address
  restricted := e.restricted
  forwardingOverride := e.forwardingOverride
  playerCount := count
  online := online
  backendType := e.backendType
  compressionThreshold := e.compressionThreshold
  cipherSuites := e.cipherSuites
  healthProbeIntervalSecs := e.healthProbeIntervalSecs
  healthProbeTimeoutSecs := e.healthProbeTimeoutSecs
  healthProbeFailThreshold := e.healthProbeFailThreshold
  healthFailCount := 0
  healthUnhealthy := false
  region := e.region
  maxPlayers := e.maxPlayers.getD 0
  weight := e.weight
  lastLatencyMs := 0

def ServerEntry.needsUpdate (e : ServerEntry) (existing : BackendServer) (address : SocketAddr) :
    Bool :=
  existing.address ≠ address || existing.restricted ≠ e.restricted ||
    existing.forwardingOverride ≠ e.forwardingOverride || existing.backendType ≠ e.backendType

def ServerEntry.reload (cfg : ProxyConfig) (r : ServerRegistry) (e : ServerEntry) :
    Option BackendServer :=
  match cfg.parseAddr e.address with
  | none => none
  | some address =>
    match r.get e.name with
    | some b =>
      let existing := r.server b
      if e.needsUpdate existing address then
        some (e.toServer address existing.playerCount existing.online)
      else none
    | none => some (e.toServer address 0 true)

def Task.step (cfg : ProxyConfig) (s : State) (i : Nat) : Task → Option State
  | .inserting server => some ({ s with registry := s.registry.register server }.setTask i .finished)
  | .counting b count => some ({ s with registry := s.registry.storeCount b count }.setTask i .finished)
  | .evacuating fromServer _ [] deregister =>
    if !s.taskIdle i then none
    else if deregister then
      some ({ s with registry := s.registry.remove fromServer }.setTask i .finished)
    else some (s.setTask i .finished)
  | .evacuating fromServer toServer (c :: rest) deregister =>
    if s.taskIdle i then
      some ((s.spawn c (.task i) (.evacRead fromServer toServer)).setTask i
        (.evacuating fromServer toServer rest deregister))
    else none
  | .reloading rest (some server) names =>
    some ({ s with registry := s.registry.register server }.setTask i (.reloading rest none names))
  | .reloading (e :: rest) none names =>
    some (s.setTask i (.reloading rest (e.reload cfg s.registry) names))
  | .reloading [] none names =>
    let current := s.registry.all.map fun b => (s.registry.server b).name
    some (s.setTask i (.pruning current names))
  | .pruning (name :: rest) names =>
    let registry := if name ∈ names then s.registry else s.registry.remove name
    some ({ s with registry := registry }.setTask i (.pruning rest names))
  | .pruning [] _ => some (s.setTask i .finished)
  | .finished => none

inductive Label where
  | accept (uuid : Uuid) (ip : IpAddr) (protocolVersion : UInt32)
  | move (c : ConnId) (m : Move)
  | access (c : ConnId) (i : Nat)
  | connect (c : ConnId) (server : String)
  | transfer (uuid : Uuid) (server : String) (flag : Bool)
  | evacuate (fromServer toServer : String)
  | register (name : String) (address : SocketAddr) (maxPlayers : UInt32)
  | deregister (name : String)
  | report (name : String) (online : Bool) (count : Option UInt64)
  | reload (entries : List ServerEntry)
  | task (i : Nat)
  | probe (b : ServerId) (fails : UInt32) (unhealthy : Bool) (latency : UInt64)
  | failoverPass (group : String)
  | evictEmpty
  | rehash (names : AList (fun _ : String => ServerId))

def ProxyConfig.defaultServer (cfg : ProxyConfig) : String := cfg.firstServer.getD "lobby"

def State.sessionIds (s : State) : List ConnId := s.sessions.entries.map (·.2)

def step (cfg : ProxyConfig) (s : State) : Label → Option State
  | .accept uuid ip protocolVersion =>
    some { s with
      conns := s.conns ++ [.new uuid ip protocolVersion]
      sessions := s.sessions.insert uuid s.conns.length }
  | .move c m =>
    match s.conns[c]? with
    | none => none
    | some k =>
      match k.move cfg s m with
      | none => none
      | some (k', effect) => some ((s.setConn c k').perform c k.uuid effect)
  | .access c i =>
    match s.conns[c]? with
    | none => none
    | some k =>
      match k.ops[i]? with
      | none => none
      | some (owner, o) =>
        some { s.setConn c (k.advance s.registry i owner o) with
          registry := s.registry.tick (o.tick s.registry k) }
  | .connect c server =>
    match s.conns[c]?, s.registry.get server with
    | some k, some b =>
      if k.isPumping && k.ownIdle then some (s.spawn c .own (.connectRelease b server)) else none
    | _, _ => none
  | .transfer uuid server flag =>
    match s.sessions.lookup uuid with
    | some c => some (s.spawn c .handler (.release server flag))
    | none => none
  | .evacuate fromServer toServer =>
    some (s.addTask (.evacuating fromServer toServer s.sessionIds false))
  | .register name address maxPlayers =>
    let server := BackendServer.registered name address maxPlayers
    some ({ s with registry := s.registry.remove name }.addTask (.inserting server))
  | .deregister name =>
    match s.registry.get name with
    | some _ => some (s.addTask (.evacuating name cfg.defaultServer s.sessionIds true))
    | none => none
  | .report name online count =>
    match s.registry.get name with
    | none => none
    | some b =>
      let stored := { s with registry := s.registry.storeOnline b online }
      match count with
      | some count => some (stored.addTask (.counting b count))
      | none => some stored
  | .reload entries => some (s.addTask (.reloading entries none (entries.map (·.name))))
  | .task i =>
    match s.tasks[i]? with
    | some t => t.step cfg s i
    | none => none
  | .probe b fails unhealthy latency =>
    some { s with registry := s.registry.storeHealth b fails unhealthy latency }
  | .failoverPass group =>
    match s.groups.lookup group with
    | some g => some { s with groups := s.groups.replace group (checkGroupFailover s.registry g) }
    | none => none
  | .evictEmpty => some { s with queues := s.queues.evictEmpty }
  | .rehash names =>
    if h : names.entries.Perm s.registry.names.entries then
      some { s with registry := s.registry.reorder names h }
    else none

def loopback : SocketAddr := ⟨.v4 0x7f000001#32, 25565⟩

def lobbyConfig : ProxyConfig where
  routing := ⟨"lobby", fun _ => "global", ∅⟩
  firstServer := some "lobby"
  queueEnabled := true
  maxQueueSize := 0
  parseAddr _ := none

def lobbyFor (maxPlayers : UInt32) : ServerRegistry :=
  ServerRegistry.new.register (.registered "lobby" loopback maxPlayers)

def joinMoves (c : ConnId) : List Label :=
  [.move c (.welcome true), .move c (.selectBackend 0), .move c (.joinLogin true), .access c 0,
    .access c 0, .move c .attach]

end Kojacoord
