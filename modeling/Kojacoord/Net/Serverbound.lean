import Kojacoord.Lib.StopFlag
import Kojacoord.Net.PacketIo
import Kojacoord.Net.Relay
import Kojacoord.Plugin.Hooks

namespace Kojacoord
open Framing Notify StopFlag

structure PumpEnv extends RelayEnv where
  batchS2cWrites : Bool
  clientCompressionThreshold : Int32
  backendCompressionThreshold : Int32
  inflate : Reader.Inflate
  deflate : Deflate
  cbPlay : String → UInt8
  /-- What the packet hooks say the `n`-th time they are asked; they forward if there are none. -/
  packetHook : Nat → UInt8 → List UInt8 → PacketHookResult
  buildTransferReply : TransferResponse → List UInt8
  buildDisconnectPacket : String → List UInt8
  /-- How many bytes the client's socket takes from the server-to-client loop before it breaks. -/
  clientRoom : Option Nat

def PumpEnv.readClient (env : PumpEnv) : Reader (List UInt8) :=
  readClientPacket env.inflate env.protocol env.clientCompressionThreshold

def PumpEnv.readBackend (env : PumpEnv) : Reader (List UInt8) :=
  Reader.readPacket env.inflate env.backendCompressionThreshold

structure View where
  stopped : Bool
  stop : Signal
  shutdown : Signal
  shutdownReason : String
  relay : Relay

/-- Where a task of the relay stands. The loops wait `on` something besides the stop signal and
`work` between two waits; they end with a result. -/
inductive TaskPhase (on work : Type) where
  | top
  | checked
  | created (stop : Waiter)
  | waiting (stop : Waiter) (on : on)
  | working (work : work)
  | storing (result : Except ConnectionError Unit)
  | notifying (result : Except ConnectionError Unit)
  | done (result : Except ConnectionError Unit)

namespace TaskPhase

def stage : TaskPhase on work → Stage
  | top => .top
  | checked => .checked
  | created stop => .created stop
  | waiting stop _ => .waiting stop
  | working _ => .working
  | storing _ => .storing
  | notifying _ => .notifying
  | done _ => .done

/-- The moves all tasks have in common: the test of the flag, the stop branch of the `select!`, and
the end. A task that is to stop goes on with `leave`. -/
def proceed (phase : TaskPhase on work) (v : View) (leave : TaskPhase on work) :
    Option (TaskPhase on work) :=
  match phase with
  | top => some (if v.stopped then leave else checked)
  | checked => some (created v.stop.notified)
  | waiting stop _ => if stop.ready v.stop then some leave else none
  | storing result => some (notifying result)
  | notifying result => some (done result)
  | created _ | working _ | done _ => none

inductive Proceeds (v : View) (leave : TaskPhase on work) :
    TaskPhase on work → TaskPhase on work → Prop
  | heed : v.stopped = true → Proceeds v leave top leave
  | pass : v.stopped = false → Proceeds v leave top checked
  | create : Proceeds v leave checked (created v.stop.notified)
  | wake : stop.ready v.stop = true → Proceeds v leave (waiting stop event) leave
  | store : Proceeds v leave (storing result) (notifying result)
  | notify : Proceeds v leave (notifying result) (done result)

theorem proceeds_of_proceed {leave before after : TaskPhase on work}
    (h : before.proceed v leave = some after) : Proceeds v leave before after := by
  cases before with
  | top =>
    cases h
    split
    · rename_i hs
      exact .heed hs
    · rename_i hs
      exact .pass (by simpa using hs)
  | checked =>
    cases h
    exact .create
  | waiting stop on =>
    simp only [proceed] at h
    split at h
    · rename_i hrdy
      cases h
      exact .wake hrdy
    · cases h
  | storing result =>
    cases h
    exact .store
  | notifying result =>
    cases h
    exact .notify
  | created | working | done => cases h

theorem stage_proceed {leave before after : TaskPhase on work}
    (hlv : leave.stage = .working ∨ leave.stage = .storing)
    (h : before.proceed v leave = some after) :
    before.stage.Next v.stopped v.stop after.stage := by
  cases proceeds_of_proceed h with
  | heed hs => exact .heed hs hlv
  | pass hs => exact .pass hs
  | create => exact .create
  | wake => exact .wake hlv
  | store => exact .store
  | notify => exact .notify

end TaskPhase

/-- A loop that reads from a socket also waits for the shutdown signal and for its read, which has
consumed some bytes. -/
structure ReadWait where
  shutdown : Waiter
  read : List UInt8

inductive C2sWork where
  | inject (raw : List UInt8)
  | handle (payload : List UInt8)

/-- The client-to-server loop. The last five fields are its history: the packets read from the
client, how many bytes it has consumed, how many up to the end of the last packet, and the packets
sent into its channel and received from there. -/
structure C2s where
  phase : TaskPhase ReadWait C2sWork
  source : Source
  backendOut : List (List UInt8)
  processed : List (List UInt8)
  consumed : Nat
  frameEnd : Nat
  offered : List (List UInt8)
  received : List (List UInt8)

namespace C2s

def start (stream : List UInt8) : C2s where
  phase := .top
  source := ⟨[], stream⟩
  backendOut := []
  processed := []
  consumed := 0
  frameEnd := 0
  offered := []
  received := []

def offer (c : C2s) (raw : List UInt8) : C2s :=
  { c with backendOut := c.backendOut ++ [raw], offered := c.offered ++ [raw] }

def receive (c : C2s) (raw : List UInt8) (rest : List (List UInt8)) : C2s :=
  { c with
    phase := .working (.inject raw)
    backendOut := rest
    received := c.received ++ [raw] }

/-- What can happen to the loop: `proceed` and `enter` lead it to its `select!`, the next are its
branches, with `fill`, `feed` and `fail` for the read, and `work` is a round's work. -/
inductive Label where
  | proceed
  | enter
  | shutdown
  | recv
  | fill (n : Nat)
  | feed
  | fail (error : ConnectionError)
  | work

end C2s

def C2sWork.program (env : PumpEnv) : C2sWork → RelayM Flow
  | inject raw => do
    RelayM.writeBackend env.toRelayEnv (.queued raw)
    return .continue
  | handle payload => RelayM.iteration env.toRelayEnv payload

def afterRound (leave : TaskPhase on work) : Except ConnectionError Flow → TaskPhase on work
  | .ok .continue => .top
  | .ok .finish => leave
  | .error e => .storing (.error e)

def ReadWait.open (v : View) (stop : Waiter) (on : ReadWait) : Bool :=
  !stop.ready v.stop && !on.shutdown.ready v.shutdown

namespace C2s

def feed (env : PumpEnv) (c : C2s) (stop : Waiter) (on : ReadWait) (byte : UInt8)
    (source : Source) : C2s :=
  let read := on.read ++ [byte]
  let c := { c with source, consumed := c.consumed + 1 }
  match env.readClient.progress read with
  | .more => { c with phase := .waiting stop { on with read } }
  | .done payload =>
    { c with
      phase := .working (.handle payload)
      processed := c.processed ++ [payload]
      frameEnd := c.consumed }
  | .failed e => { c with phase := .storing (.error e) }

/-- One move of the loop, with what it makes of the relay. The `select!` is biased: channel before
read, and both after the signals. -/
def step (env : PumpEnv) (v : View) (c : C2s) (l : Label) : Option (C2s × Relay) :=
  match l, c.phase with
  | .proceed, phase =>
    (phase.proceed v (.storing (.ok ()))).map fun phase => ({ c with phase }, v.relay)
  | .enter, .created stop =>
    some ({ c with phase := .waiting stop ⟨v.shutdown.notified, []⟩ }, v.relay)
  | .shutdown, .waiting stop on =>
    if stop.ready v.stop = false ∧ on.shutdown.ready v.shutdown then
      some ({ c with phase := .storing (.ok ()) }, v.relay)
    else none
  | .recv, .waiting stop on =>
    match c.backendOut with
    | raw :: rest => if on.open v stop then some (c.receive raw rest, v.relay) else none
    | [] => none
  | .fill n, .waiting stop on =>
    if on.open v stop ∧ c.backendOut = [] then
      (c.source.fill n).map fun source => ({ c with source }, v.relay)
    else none
  | .feed, .waiting stop on =>
    match c.source.pop with
    | some (byte, source) =>
      if on.open v stop ∧ c.backendOut = [] then some (c.feed env stop on byte source, v.relay)
      else none
    | none => none
  | .fail e, .waiting stop on =>
    if on.open v stop ∧ c.backendOut = [] ∧ c.source.buffer = [] then
      some ({ c with phase := .storing (.error e) }, v.relay)
    else none
  | .work, .working w =>
    match ExceptT.run (w.program env) v.relay with
    | (result, relay) => some ({ c with phase := afterRound (.storing (.ok ())) result }, relay)
  | _, _ => none

inductive Next (env : PumpEnv) (v : View) (c : C2s) : Label → C2s → Relay → Prop
  | proceed : c.phase.proceed v (.storing (.ok ())) = some after →
      Next env v c .proceed { c with phase := after } v.relay
  | enter : c.phase = .created stop →
      Next env v c .enter { c with phase := .waiting stop ⟨v.shutdown.notified, []⟩ } v.relay
  | shutdown : c.phase = .waiting stop on → on.shutdown.ready v.shutdown = true →
      Next env v c .shutdown { c with phase := .storing (.ok ()) } v.relay
  | recv : c.phase = .waiting stop on → on.open v stop = true → c.backendOut = raw :: rest →
      Next env v c .recv (c.receive raw rest) v.relay
  | fill : c.phase = .waiting stop on → on.open v stop = true → c.source.fill n = some later →
      Next env v c (.fill n) { c with source := later } v.relay
  | feed : c.phase = .waiting stop on → on.open v stop = true → c.backendOut = [] →
      c.source.pop = some (byte, later) →
      Next env v c .feed (c.feed env stop on byte later) v.relay
  | fail : c.phase = .waiting stop on → on.open v stop = true →
      Next env v c (.fail e) { c with phase := .storing (.error e) } v.relay
  | work : c.phase = .working w → ExceptT.run (w.program env) v.relay = (result, relay) →
      Next env v c .work { c with phase := afterRound (.storing (.ok ())) result } relay

theorem next_of_step (h : step env v c l = some (c', r)) : Next env v c l c' r := by
  unfold step at h
  split at h
  · obtain ⟨phase, hph, heq⟩ := Option.map_eq_some_iff.mp h
    cases heq
    exact .proceed hph
  · rename_i hph
    cases h
    exact .enter hph
  · rename_i hph
    split at h
    · rename_i hrdy
      cases h
      exact .shutdown hph hrdy.2
    · cases h
  · rename_i hph
    split at h
    · rename_i hout
      split at h
      · rename_i hop
        cases h
        exact .recv hph hop hout
      · cases h
    · cases h
  · rename_i hph
    split at h
    · rename_i hop
      obtain ⟨source, hsou, heq⟩ := Option.map_eq_some_iff.mp h
      cases heq
      exact .fill hph hop.1 hsou
    · cases h
  · rename_i hph
    split at h
    · rename_i hpop
      split at h
      · rename_i hop
        cases h
        exact .feed hph hop.1 hop.2 hpop
      · cases h
    · cases h
  · rename_i hph
    split at h
    · rename_i hop
      cases h
      exact .fail hph hop.1
    · cases h
  · rename_i hph
    cases h
    exact .work hph rfl
  · cases h

end C2s

end Kojacoord
