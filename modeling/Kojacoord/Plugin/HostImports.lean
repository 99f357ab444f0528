import Kojacoord.Plugin.Manager

namespace Kojacoord
open Option

structure RedisShared where
  client : Option (List UInt8)
  conn : Option (List UInt8)

structure WasmHostState where
  permissions : List PluginPermission
  runtime : Bool
  redis : RedisShared

/-- What an import asks for outside of the proxy. Texts are kept as the guest's bytes; the source
replaces what is not UTF-8 in them. -/
inductive HostRequest where
  | redisConnect (url : List UInt8)
  | redisPublish (channel message : List UInt8)
  | redisGet (key : List UInt8)
  | redisSet (key value : List UInt8)
  | redisDel (key : List UInt8)
  | redisExpire (key : List UInt8) (secs : UInt32)
  | redisSubscribe (channel : List UInt8)
  | redisPsubscribe (pattern : List UInt8)
  | http (method url body : List UInt8)
  deriving DecidableEq

/-- How a request is answered: by none if it fails or times out, or if there is no value. -/
abbrev Outside := HostRequest → Option (List UInt8)

abbrev GuestMemory := Option (List UInt8)

structure HostOutcome where
  code : Int32
  asked : Option HostRequest
  host : WasmHostState
  memory : GuestMemory

def readBytes (memory : GuestMemory) (ptr len : UInt32) : Option (List UInt8) :=
  memory.bind fun bytes =>
    if ptr.toNat + len.toNat ≤ bytes.length then some ((bytes.drop ptr.toNat).take len.toNat)
    else none

def writeOut (memory : GuestMemory) (ptr cap : UInt32) (data : List UInt8) :
    GuestMemory × UInt32 :=
  match memory with
  | none => (none, 0)
  | some bytes =>
    let n := min data.length cap.toNat
    if ptr.toNat + n ≤ bytes.length then
      (some (bytes.take ptr.toNat ++ data.take n ++ bytes.drop (ptr.toNat + n)), UInt32.ofNat n)
    else (some bytes, 0)

namespace WasmHostState

def has (host : WasmHostState) (permission : PluginPermission) : Bool :=
  host.permissions.contains permission

def refuse (host : WasmHostState) (memory : GuestMemory) (code : Int32) : HostOutcome :=
  ⟨code, none, host, memory⟩

def redisReady (host : WasmHostState) : Bool × Option (List UInt8) :=
  if !host.has .useRedis then (false, none) else (host.runtime, host.redis.conn)

def redisConnect (host : WasmHostState) (memory : GuestMemory) (outside : Outside)
    (ptr len : UInt32) : Option HostOutcome :=
  (readBytes memory ptr len).map fun url =>
    if !host.has .useRedis then host.refuse memory 0
    else if !host.runtime then host.refuse memory 0
    else
      match outside (.redisConnect url) with
      | some _ => ⟨1, some (.redisConnect url), { host with redis := ⟨some url, some url⟩ }, memory⟩
      | none => ⟨0, some (.redisConnect url), host, memory⟩

def redisCommand (host : WasmHostState) (memory : GuestMemory) (outside : Outside)
    (request : HostRequest) : HostOutcome :=
  match host.redisReady with
  | (true, some _) => ⟨if (outside request).isSome then 1 else 0, some request, host, memory⟩
  | _ => host.refuse memory 0

def redisPublish (host : WasmHostState) (memory : GuestMemory) (outside : Outside)
    (chanPtr chanLen msgPtr msgLen : UInt32) : Option HostOutcome :=
  (readBytes memory chanPtr chanLen).bind fun channel =>
    (readBytes memory msgPtr msgLen).map fun message =>
      host.redisCommand memory outside (.redisPublish channel message)

def redisGet (host : WasmHostState) (memory : GuestMemory) (outside : Outside)
    (keyPtr keyLen outPtr outCap : UInt32) : Option HostOutcome :=
  (readBytes memory keyPtr keyLen).map fun key =>
    match host.redisReady with
    | (true, some _) =>
      match outside (.redisGet key) with
      | some bytes =>
        let written := writeOut memory outPtr outCap bytes
        ⟨written.2.toInt32, some (.redisGet key), host, written.1⟩
      | none => ⟨-1, some (.redisGet key), host, memory⟩
    | _ => host.refuse memory (-1)

def redisSet (host : WasmHostState) (memory : GuestMemory) (outside : Outside)
    (keyPtr keyLen valPtr valLen : UInt32) : Option HostOutcome :=
  (readBytes memory keyPtr keyLen).bind fun key =>
    (readBytes memory valPtr valLen).map fun value =>
      host.redisCommand memory outside (.redisSet key value)

def redisDel (host : WasmHostState) (memory : GuestMemory) (outside : Outside)
    (keyPtr keyLen : UInt32) : Option HostOutcome :=
  (readBytes memory keyPtr keyLen).map fun key => host.redisCommand memory outside (.redisDel key)

def redisExpire (host : WasmHostState) (memory : GuestMemory) (outside : Outside)
    (keyPtr keyLen secs : UInt32) : Option HostOutcome :=
  (readBytes memory keyPtr keyLen).map fun key =>
    host.redisCommand memory outside (.redisExpire key secs)

/-- A subscription is handed to a task, and whether it works is not waited for. -/
def subscribe (host : WasmHostState) (memory : GuestMemory) (request : HostRequest) : HostOutcome :=
  if !host.has .useRedis then host.refuse memory 0
  else if !host.runtime then host.refuse memory 0
  else
    match host.redis.client with
    | none => host.refuse memory 0
    | some _ => ⟨1, some request, host, memory⟩

def redisSubscribe (host : WasmHostState) (memory : GuestMemory) (ptr len : UInt32) :
    Option HostOutcome :=
  (readBytes memory ptr len).map fun channel => host.subscribe memory (.redisSubscribe channel)

def redisPsubscribe (host : WasmHostState) (memory : GuestMemory) (ptr len : UInt32) :
    Option HostOutcome :=
  (readBytes memory ptr len).map fun pattern => host.subscribe memory (.redisPsubscribe pattern)

def httpRequest (host : WasmHostState) (memory : GuestMemory) (outside : Outside)
    (methodPtr methodLen urlPtr urlLen bodyPtr bodyLen outPtr outCap : UInt32) :
    Option HostOutcome :=
  (readBytes memory methodPtr methodLen).bind fun method =>
    (readBytes memory urlPtr urlLen).bind fun url =>
      (readBytes memory bodyPtr bodyLen).map fun body =>
        if !host.has .useHttp then host.refuse memory (-1)
        else if !host.runtime then host.refuse memory (-1)
        else
          match outside (.http method url body) with
          | some bytes =>
            let written := writeOut memory outPtr outCap bytes
            ⟨written.2.toInt32, some (.http method url body), host, written.1⟩
          | none => ⟨-1, some (.http method url body), host, memory⟩

end WasmHostState

inductive HostImport where
  | redisConnect (ptr len : UInt32)
  | redisPublish (chanPtr chanLen msgPtr msgLen : UInt32)
  | redisGet (keyPtr keyLen outPtr outCap : UInt32)
  | redisSet (keyPtr keyLen valPtr valLen : UInt32)
  | redisDel (keyPtr keyLen : UInt32)
  | redisExpire (keyPtr keyLen secs : UInt32)
  | redisSubscribe (ptr len : UInt32)
  | redisPsubscribe (ptr len : UInt32)
  | httpRequest (methodPtr methodLen urlPtr urlLen bodyPtr bodyLen outPtr outCap : UInt32)

def HostImport.gate : HostImport → PluginPermission
  | .httpRequest .. => .useHttp
  | _ => .useRedis

def HostImport.failure : HostImport → Int32
  | .redisGet .. | .httpRequest .. => -1
  | _ => 0

namespace WasmHostState

def call (host : WasmHostState) (memory : GuestMemory) (outside : Outside) :
    HostImport → Option HostOutcome
  | .redisConnect ptr len => host.redisConnect memory outside ptr len
  | .redisPublish chanPtr chanLen msgPtr msgLen =>
    host.redisPublish memory outside chanPtr chanLen msgPtr msgLen
  | .redisGet keyPtr keyLen outPtr outCap =>
    host.redisGet memory outside keyPtr keyLen outPtr outCap
  | .redisSet keyPtr keyLen valPtr valLen =>
    host.redisSet memory outside keyPtr keyLen valPtr valLen
  | .redisDel keyPtr keyLen => host.redisDel memory outside keyPtr keyLen
  | .redisExpire keyPtr keyLen secs => host.redisExpire memory outside keyPtr keyLen secs
  | .redisSubscribe ptr len => host.redisSubscribe memory ptr len
  | .redisPsubscribe ptr len => host.redisPsubscribe memory ptr len
  | .httpRequest methodPtr methodLen urlPtr urlLen bodyPtr bodyLen outPtr outCap =>
    host.httpRequest memory outside methodPtr methodLen urlPtr urlLen bodyPtr bodyLen outPtr outCap

def Denies (host : WasmHostState) (memory : GuestMemory) (outside : Outside)
    (hostImport : HostImport) : Prop :=
  ∀ outcome, host.call memory outside hostImport = some outcome →
    outcome = host.refuse memory hostImport.failure

structure Passes (host : WasmHostState) (permission : PluginPermission) (outcome : HostOutcome) :
    Prop where
  has : host.has permission = true
  same : outcome.host.permissions = host.permissions

variable {host : WasmHostState}

theorem redisReady_cases (host : WasmHostState) :
    host.redisReady = (false, none) ∨ host.has .useRedis = true := by
  unfold redisReady
  cases h : host.has .useRedis with
  | true => exact .inr rfl
  | false => exact .inl rfl

theorem redisCommand_cases :
    host.redisCommand memory outside request = host.refuse memory 0 ∨
      host.Passes .useRedis (host.redisCommand memory outside request) := by
  rcases redisReady_cases host with hno | hhas
  · left
    rw [redisCommand, hno]
  · right
    refine ⟨hhas, ?_⟩
    unfold redisCommand
    split <;> rfl

theorem subscribe_cases :
    host.subscribe memory request = host.refuse memory 0 ∨
      host.Passes .useRedis (host.subscribe memory request) := by
  cases hhas : host.has .useRedis with
  | false => simp [subscribe, hhas]
  | true =>
    right
    refine ⟨hhas, ?_⟩
    simp only [subscribe, hhas, Bool.not_true, Bool.false_eq_true, if_false]
    split
    · rfl
    · split <;> rfl

theorem call_cases (h : host.call memory outside hostImport = some outcome) :
    outcome = host.refuse memory hostImport.failure ∨ host.Passes hostImport.gate outcome := by
  cases hostImport with
  | redisConnect ptr len =>
    obtain ⟨url, -, rfl⟩ := map_eq_some_iff.mp h
    split
    · exact .inl rfl
    · rename_i hhas
      refine .inr ⟨by simpa [HostImport.gate] using hhas, ?_⟩
      split
      · rfl
      · split <;> rfl
  | redisPublish chanPtr chanLen msgPtr msgLen =>
    obtain ⟨channel, -, h⟩ := bind_eq_some_iff.mp h
    obtain ⟨message, -, rfl⟩ := map_eq_some_iff.mp h
    exact redisCommand_cases
  | redisGet keyPtr keyLen outPtr outCap =>
    obtain ⟨key, -, rfl⟩ := map_eq_some_iff.mp h
    rcases redisReady_cases host with hno | hhas
    · left
      rw [hno]
      rfl
    · refine .inr ⟨hhas, ?_⟩
      split
      · split <;> rfl
      · rfl
  | redisSet keyPtr keyLen valPtr valLen =>
    obtain ⟨key, -, h⟩ := bind_eq_some_iff.mp h
    obtain ⟨value, -, rfl⟩ := map_eq_some_iff.mp h
    exact redisCommand_cases
  | redisDel keyPtr keyLen | redisExpire keyPtr keyLen secs =>
    obtain ⟨key, -, rfl⟩ := map_eq_some_iff.mp h
    exact redisCommand_cases
  | redisSubscribe ptr len | redisPsubscribe ptr len =>
    obtain ⟨channel, -, rfl⟩ := map_eq_some_iff.mp h
    exact subscribe_cases
  | httpRequest methodPtr methodLen urlPtr urlLen bodyPtr bodyLen outPtr outCap =>
    obtain ⟨method, -, h⟩ := bind_eq_some_iff.mp h
    obtain ⟨url, -, h⟩ := bind_eq_some_iff.mp h
    obtain ⟨body, -, rfl⟩ := map_eq_some_iff.mp h
    split
    · exact .inl rfl
    · rename_i hhas
      refine .inr ⟨by simpa [HostImport.gate] using hhas, ?_⟩
      split
      · rfl
      · split <;> rfl

theorem denies_of_not_has (h : host.has hostImport.gate = false) :
    host.Denies memory outside hostImport := by
  intro outcome hcl
  rcases call_cases hcl with href | hpas
  · exact href
  · have hhas := hpas.has
    rw [h] at hhas
    cases hhas

theorem permissions_call (h : host.call memory outside hostImport = some outcome) :
    outcome.host.permissions = host.permissions := by
  rcases call_cases h with rfl | hpas
  · rfl
  · exact hpas.same

end WasmHostState

end Kojacoord
