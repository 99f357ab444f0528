import Kojacoord.Lib.Journal
import Kojacoord.Net.Serverbound

namespace Kojacoord
open Framing Notify StopFlag

namespace PumpEnv
variable (env : PumpEnv)

def cbChunkId : UInt8 := env.cbPlay "ClientboundLevelChunkWithLight"
def cbPluginMessageId : UInt8 := env.cbPlay "ClientboundPluginMessage"
def cbDisconnectId : UInt8 := env.cbPlay "ClientboundDisconnect"

def frame (raw : List UInt8) : List UInt8 :=
  encodeForClient env.deflate raw env.protocol env.clientCompressionThreshold

def taken (bytes : List UInt8) : List UInt8 :=
  match env.clientRoom with
  | none => bytes
  | some room => bytes.take room

def processPacketHooks (n : Nat) (id : UInt8) (payload : List UInt8) : Option (List UInt8) :=
  match env.packetHook n id payload with
  | .forward => some payload
  | .drop => none
  | .modify data => some data
  | .replace id data => some (encodeVarInt id ++ data)

end PumpEnv

def decodeClientboundPluginMessage (payload : List UInt8) (protocol : UInt32) :
    Except PluginMessageError PluginMessage :=
  decodeServerboundPluginMessage payload protocol

/-- What the server-to-client loop does with a packet: nothing, write a packet after all that is
pending, write one in its turn, or end because the backend has thrown the player out. -/
inductive Verdict where
  | skip
  | direct (raw : List UInt8)
  | queue (raw : List UInt8)
  | kicked (reason : String)

namespace RelayM
variable (env : PumpEnv)

def routeClientboundMessage (id : UInt8) (body : List UInt8) : RelayM (Option Verdict) := do
  if id = env.cbPluginMessageId then
    match decodeClientboundPluginMessage body env.protocol with
    | .ok msg =>
      if msg.channel = "minecraft:brand" ∨ msg.channel = "MC|Brand" then return some .skip
      else
        match parseCommand env.transfer msg.channel msg.data with
        | some command =>
          match ← handleTransferCommand env.toRelayEnv command with
          | some response => return some (.direct (env.buildTransferReply response))
          | none => return some .skip
        | none => return none
    | .error _ => return none
  else return none

def verdict (n : Nat) (payload : List UInt8) : RelayM Verdict := do
  match Decode.varInt payload with
  | .error _ => return .skip
  | .ok (v, body) =>
    if v < 0 ∨ 255 < v then return .direct payload
    else
      let id := v.toInt.toNat.toUInt8
      if id = env.cbChunkId then return .queue payload
      else
        match ← routeClientboundMessage env id body with
        | some verdict => return verdict
        | none =>
          if id = env.cbDisconnectId then
            match Decode.string body with
            | .ok (reason, _) => return .kicked reason
            | .error _ => return .kicked "Backend disconnected"
          else
            match env.processPacketHooks n id payload with
            | some data => return .queue data
            | none => return .skip

end RelayM

/-- The server-to-client loop works on a packet of the backend, on the farewell at a shutdown, or on
its last flush. -/
inductive S2cWork where
  | handle (payload : List UInt8)
  | farewell
  | close

structure S2c where
  phase : TaskPhase ReadWait S2cWork
  source : Source
  pending : List UInt8
  sent : List UInt8
  kickReason : Option String
  handled : Nat

def S2c.start (stream : List UInt8) : S2c where
  phase := .top
  source := ⟨[], stream⟩
  pending := []
  sent := []
  kickReason := none
  handled := 0

abbrev S2cM := ExceptT ConnectionError (StateM S2c)

namespace S2cM
variable (env : PumpEnv)

def write (bytes : List UInt8) : S2cM Unit := do
  let s ← get
  let written := s.sent ++ bytes
  set { s with sent := env.taken written }
  if (env.taken written).length < written.length then throw (.io .other "")

def send (raw : List UInt8) : S2cM Unit := write env (env.frame raw)

def ignore (x : S2cM Unit) : S2cM Unit := tryCatch x fun _ => pure ()

def clear : S2cM Unit := modify fun s => { s with pending := [] }

def flush : S2cM Unit := do
  write env (← get).pending
  clear

def drain : S2cM Unit := do
  ignore (write env (← get).pending)
  clear

def pendingFlushCap : Nat := 32 * 1024

def enqueue (raw : List UInt8) : S2cM Unit := do
  if env.batchS2cWrites then
    modify fun s => { s with pending := s.pending ++ env.frame raw }
    let s ← get
    if pendingFlushCap ≤ s.pending.length ∨ s.source.buffer = [] then flush env
  else send env raw

def apply : Verdict → S2cM Flow
  | .skip => return .continue
  | .direct raw => do
    flush env
    send env raw
    return .continue
  | .queue raw => do
    enqueue env raw
    return .continue
  | .kicked reason => do
    drain env
    modify fun s => { s with kickReason := some reason }
    return .finish

def farewell (reason : String) : S2cM Unit := do
  drain env
  ignore (send env (env.buildDisconnectPacket reason))

end S2cM

namespace S2c

def work (env : PumpEnv) (v : View) (s : S2c) : S2cWork → S2c × Relay
  | .handle payload =>
    match ExceptT.run (RelayM.verdict env s.handled payload) v.relay with
    | (.ok verdict, relay) =>
      match ExceptT.run (S2cM.apply env verdict) { s with handled := s.handled + 1 } with
      | (result, s) => ({ s with phase := afterRound (.working .close) result }, relay)
    | (.error e, relay) => ({ s with phase := .storing (.error e) }, relay)
  | .farewell =>
    match ExceptT.run (S2cM.farewell env v.shutdownReason) s with
    | (_, s) => ({ s with phase := .working .close }, v.relay)
  | .close =>
    match ExceptT.run (S2cM.flush env) s with
    | (result, s) => ({ s with phase := .storing result }, v.relay)

def feed (env : PumpEnv) (s : S2c) (stop : Waiter) (on : ReadWait) (byte : UInt8)
    (source : Source) : S2c :=
  let read := on.read ++ [byte]
  let s := { s with source }
  match env.readBackend.progress read with
  | .more => { s with phase := .waiting stop { on with read } }
  | .done payload => { s with phase := .working (.handle payload) }
  -- The error leaves the loop without the last flush.
  | .failed e => { s with phase := .storing (.error (.backend e)) }

inductive Label where
  | proceed
  | enter
  | shutdown
  | fill (n : Nat)
  | feed
  | fail (error : ConnectionError)
  | work

def step (env : PumpEnv) (v : View) (s : S2c) (l : Label) : Option (S2c × Relay) :=
  match l, s.phase with
  | .proceed, phase =>
    (phase.proceed v (.working .close)).map fun phase => ({ s with phase }, v.relay)
  | .enter, .created stop =>
    some ({ s with phase := .waiting stop ⟨v.shutdown.notified, []⟩ }, v.relay)
  | .shutdown, .waiting stop on =>
    if stop.ready v.stop = false ∧ on.shutdown.ready v.shutdown then
      some ({ s with phase := .working .farewell }, v.relay)
    else none
  | .fill n, .waiting stop on =>
    if on.open v stop then (s.source.fill n).map fun source => ({ s with source }, v.relay)
    else none
  | .feed, .waiting stop on =>
    match s.source.pop with
    | some (byte, source) =>
      if on.open v stop then some (s.feed env stop on byte source, v.relay) else none
    | none => none
  | .fail e, .waiting stop on =>
    if on.open v stop ∧ s.source.buffer = [] then
      some ({ s with phase := .storing (.error (.backend e)) }, v.relay)
    else none
  | .work, .working w => some (s.work env v w)
  | _, _ => none

inductive Next (env : PumpEnv) (v : View) (s : S2c) : Label → S2c × Relay → Prop
  | proceed : s.phase.proceed v (.working .close) = some after →
      Next env v s .proceed ({ s with phase := after }, v.relay)
  | enter : s.phase = .created stop →
      Next env v s .enter ({ s with phase := .waiting stop ⟨v.shutdown.notified, []⟩ }, v.relay)
  | shutdown : s.phase = .waiting stop on → on.shutdown.ready v.shutdown = true →
      Next env v s .shutdown ({ s with phase := .working .farewell }, v.relay)
  | fill : s.phase = .waiting stop on → on.open v stop = true → s.source.fill n = some later →
      Next env v s (.fill n) ({ s with source := later }, v.relay)
  | feed : s.phase = .waiting stop on → on.open v stop = true →
      s.source.pop = some (byte, later) →
      Next env v s .feed (s.feed env stop on byte later, v.relay)
  | fail : s.phase = .waiting stop on → on.open v stop = true → s.source.buffer = [] →
      Next env v s (.fail e) ({ s with phase := .storing (.error (.backend e)) }, v.relay)
  | work : s.phase = .working w → Next env v s .work (s.work env v w)

theorem next_of_step (h : step env v s l = some after) : Next env v s l after := by
  unfold step at h
  split at h
  · obtain ⟨phase, hph, heq⟩ := Option.map_eq_some_iff.mp h
    cases heq
    exact .proceed hph
  · rename_i hph
    cases h
    exact .enter hph
  · rename_i hph
    split at h
    · rename_i hrdy
      cases h
      exact .shutdown hph hrdy.2
    · cases h
  · rename_i hph
    split at h
    · rename_i hop
      obtain ⟨source, hsou, heq⟩ := Option.map_eq_some_iff.mp h
      cases heq
      exact .fill hph hop hsou
    · cases h
  · rename_i hph
    split at h
    · rename_i hpop
      split at h
      · rename_i hop
        cases h
        exact .feed hph hop hpop
      · cases h
    · cases h
  · rename_i hph
    split at h
    · rename_i hop
      cases h
      exact .fail hph hop.1 hop.2
    · cases h
  · rename_i hph
    cases h
    exact .work hph
  · cases h

end S2c

end Kojacoord
