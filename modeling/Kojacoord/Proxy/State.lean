import Kojacoord.Routing
import Kojacoord.Queue

namespace Kojacoord

/-- Why a connection is in limbo: its first join, or a live switch pinned to a target. -/
inductive Leg where
  | join
  | switch (target : String)
deriving DecidableEq

/-- How far failover routing has come: its lookups are separated by await points. -/
inductive RouteStage where
  | selected (candidate : ServerId)
  | grouped (candidate : ServerId) (group : String)
  | swapping (candidate : ServerId) (active : Option String)
deriving DecidableEq

/-- Whose counter a completed backend login increments: a record held since routing, or whatever
the target name is bound to by then. -/
inductive Credit where
  | held (selected : Option ServerId)
  | named (target : String)
deriving DecidableEq

inductive RelayEnd where
  | disconnected
  | switch (target : String)
  | kicked
deriving DecidableEq

/-- Where a connection task stands between two await points. A `ServerId` argument named `b` is the
backend its stream is dialed to. -/
inductive Phase where
  | greeting
  | connecting
  | dialing (b : ServerId)
  | limbo (leg : Leg) (waiting : Option String)
  | polled (leg : Leg) (b : ServerId)
  | full (leg : Leg) (b : ServerId)
  | vacant (leg : Leg) (b : ServerId)
  | limboDialing (leg : Leg) (b : ServerId)
  | admitted (leg : Leg) (b : ServerId)
  | departing (leg : Leg) (b : ServerId)
  | leftLimbo (leg : Leg) (b : ServerId)
  | routing (b : ServerId) (stage : RouteStage)
  | loggingIn (b : ServerId) (settings : Option ServerId) (credit : Credit)
  | attaching (b : ServerId) (switched : Bool)
  | resetting (b : ServerId)
  | attached (b : ServerId)
  | pumping (b : ServerId)
  | draining (why : RelayEnd)
  | rejected
  | ended
  | unqueueing
  | gone
deriving DecidableEq

def Phase.residence : Phase → Option ServerId
  | .attaching b _ | .resetting b | .attached b | .pumping b => some b
  | _ => none

/-- One accounting operation on a session, named after the access it performs next. -/
inductive Op where
  -- `ConnectOther`, management and plugin transfers; `flag` says whether `transferred` is set
  | release (server : String) (flag : Bool)
  | credit (server : String) (flag : Bool)
  | write (server : String) (flag : Bool)
  | setTransferred
  -- a backend's `Connect` for its own player, which holds the record it looked up first
  | connectRelease (b : ServerId) (server : String)
  | connectCredit (b : ServerId) (server : String)
  -- evacuation of one session
  | evacRead (fromServer toServer : String)
  | evacWrite (fromServer toServer : String)
  | evacSub (fromServer toServer : String)
  | evacAdd (toServer : String)
  -- the connection's own increment after a backend login
  | joinAdd (b : ServerId)
  | switchAdd (target : String)
  | joinWrite (server : String)
  -- the accounting at the end of a relay
  | exitFlag
  | exitRelease (transferred : Bool)
  | exitClear
deriving DecidableEq

/-- Who runs an operation: the connection itself, a background task, or a handler nobody waits for. -/
inductive Owner where
  | own
  | task (i : Nat)
  | handler
deriving DecidableEq

abbrev ConnId := Nat

/-- A connection with the session it inserted and the operations in flight on that session. -/
structure Conn where
  uuid : Uuid
  clientIp : IpAddr
  protocolVersion : UInt32
  currentServer : Option String
  transferred : Bool
  phase : Phase
  ops : List (Owner × Op)

inductive Tick where
  | add (b : ServerId)
  | sub (b : ServerId)
deriving DecidableEq

def ServerRegistry.tick (r : ServerRegistry) : Option Tick → ServerRegistry
  | none => r
  | some (.add b) => r.fetchAdd b
  | some (.sub b) => r.fetchSub b

def Op.tick (r : ServerRegistry) (k : Conn) : Op → Option Tick
  | release .. | connectRelease .. => (k.currentServer.bind r.get).map .sub
  | credit server _ => (r.get server).map .add
  | connectCredit b _ => some (.add b)
  | evacSub fromServer _ => (r.get fromServer).map .sub
  | evacAdd toServer => (r.get toServer).map .add
  | joinAdd b => some (.add b)
  | switchAdd target => (r.get target).map .add
  | exitRelease transferred =>
    if transferred then none else (k.currentServer.bind r.get).map .sub
  | write .. | setTransferred | evacRead .. | evacWrite .. | joinWrite .. | exitFlag
  | exitClear => none

def Op.session (k : Conn) : Op → Conn
  | write server _ | joinWrite server => { k with currentServer := some server }
  | evacWrite _ toServer => { k with currentServer := some toServer }
  | setTransferred => { k with transferred := true }
  | exitClear => { k with currentServer := none }
  | _ => k

def Op.next (r : ServerRegistry) (k : Conn) : Op → Option Op
  | release server flag => some (credit server flag)
  | credit server flag => some (write server flag)
  | write _ flag => if flag then some setTransferred else none
  | setTransferred => none
  | connectRelease b server => some (connectCredit b server)
  | connectCredit _ server => some (write server true)
  | evacRead fromServer toServer =>
    if k.currentServer = some fromServer then some (evacWrite fromServer toServer) else none
  | evacWrite fromServer toServer => some (evacSub fromServer toServer)
  | evacSub _ toServer => some (evacAdd toServer)
  | evacAdd _ => none
  | joinAdd b => some (joinWrite (r.server b).name)
  | switchAdd target => some (joinWrite target)
  | joinWrite _ => none
  | exitFlag => some (exitRelease k.transferred)
  | exitRelease _ => some exitClear
  | exitClear => none

namespace Conn

def new (uuid : Uuid) (ip : IpAddr) (protocolVersion : UInt32) : Conn where
  uuid := uuid
  clientIp := ip
  protocolVersion := protocolVersion
  currentServer := none
  transferred := false
  phase := .greeting
  ops := []

def enter (k : Conn) (phase : Phase) : Conn := { k with phase := phase }

def spawn (k : Conn) (owner : Owner) (o : Op) : Conn := { k with ops := k.ops ++ [(owner, o)] }

def ownIdle (k : Conn) : Bool := k.ops.all fun o => o.1 ≠ .own

def isPumping (k : Conn) : Bool :=
  match k.phase with
  | .pumping _ => true
  | _ => false

def advance (k : Conn) (r : ServerRegistry) (i : Nat) (owner : Owner) (o : Op) : Conn :=
  { o.session k with
    ops := match o.next r k with
      | some o' => k.ops.set i (owner, o')
      | none => k.ops.eraseIdx i }

end Conn

structure ServerEntry where
  name : String
  address : String
  restricted : Bool
  forwardingOverride : Option ForwardingMode
  maxPlayers : Option UInt64
  compressionThreshold : Int32
  cipherSuites : String
  healthProbeIntervalSecs : UInt64
  healthProbeTimeoutSecs : UInt64
  healthProbeFailThreshold : UInt32
  region : String
  weight : UInt32
  backendType : BackendType

/-- What the running proxy never changes. `parseAddr` is the standard socket-address parser. -/
structure ProxyConfig where
  routing : RoutingRules
  firstServer : Option String
  queueEnabled : Bool
  maxQueueSize : Nat
  parseAddr : String → Option SocketAddr

inductive Task where
  | inserting (server : BackendServer)
  | counting (b : ServerId) (count : UInt64)
  | evacuating (fromServer toServer : String) (rest : List ConnId) (deregister : Bool)
  | reloading (rest : List ServerEntry) (next : Option BackendServer) (names : List String)
  | pruning (rest : List String) (names : List String)
  | finished

structure State where
  registry : ServerRegistry
  groups : FailoverGroups
  queues : QueueManager
  conns : List Conn
  sessions : AList (fun _ : Uuid => ConnId)
  outbound : AList (fun _ : Uuid => ConnId)
  tasks : List Task

def State.start (cfg : ProxyConfig) (r : ServerRegistry) (gs : FailoverGroups) : State where
  registry := r
  groups := gs
  queues := .new cfg.maxQueueSize
  conns := []
  sessions := ∅
  outbound := ∅
  tasks := []

end Kojacoord
