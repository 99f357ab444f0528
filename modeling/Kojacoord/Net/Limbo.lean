import Kojacoord.Lib.Notify
import Kojacoord.Net.PacketIo

namespace Kojacoord
open Framing Notify

/-- Where the limbo loop stands: in its `select!`, where the waiter for the shutdown is only made
when that branch is polled, or in the body of a branch. -/
inductive LimboPhase where
  | selecting (shutdown : Option Waiter) (read : List UInt8)
  | dialing
  | beating
  | parting
  | done (result : Except ConnectionError Unit)

structure Limbo where
  phase : LimboPhase
  unread : List UInt8
  discarded : List (List UInt8)

namespace Limbo

def start (stream : List UInt8) : Limbo := ⟨.selecting none [], stream, []⟩

/-- What can happen to the loop: the ticks of its two timers and what comes of them, the shutdown,
and the bytes of the client. -/
inductive Label where
  | listen
  | poll
  | dialed (outcome : Option (Except ConnectionError Unit))
  | keepalive
  | beaten (error : Option ConnectionError)
  | shutdown
  | part
  | feed
  | fail (error : ConnectionError)

def feed (protocol : UInt32) (b : Limbo) (shutdown : Option Waiter) (read : List UInt8) : Limbo :=
  match (readAndDiscard protocol).progress read with
  | .more => { b with phase := .selecting shutdown read }
  | .done () => { b with phase := .selecting none [], discarded := b.discarded ++ [read] }
  | .failed e => { b with phase := .done (.error e) }

/-- One move of the loop. The `select!` is not biased: any branch that is ready may be taken. -/
def step (protocol : UInt32) (b : Limbo) (move : Signal × Label) : Option Limbo :=
  match move.2, b.phase with
  | .listen, .selecting none read =>
    some { b with phase := .selecting (some move.1.notified) read }
  | .poll, .selecting _ _ => some { b with phase := .dialing }
  | .dialed outcome, .dialing =>
    some { b with phase := match outcome with
      | none => .selecting none []
      | some result => .done result }
  | .keepalive, .selecting _ _ => some { b with phase := .beating }
  | .beaten error, .beating =>
    some { b with phase := match error with
      | none => .selecting none []
      | some e => .done (.error e) }
  | .shutdown, .selecting (some waiter) _ =>
    if waiter.ready move.1 then some { b with phase := .parting } else none
  | .part, .parting => some { b with phase := .done (.error .closed) }
  | .feed, .selecting shutdown read =>
    match b.unread with
    | byte :: unread => some ({ b with unread }.feed protocol shutdown (read ++ [byte]))
    | [] => none
  | .fail e, .selecting _ _ => some { b with phase := .done (.error e) }
  | _, _ => none

inductive Next (protocol : UInt32) (signal : Signal) (b : Limbo) : Label → Limbo → Prop
  | listen : b.phase = .selecting none got →
      Next protocol signal b .listen { b with phase := .selecting (some signal.notified) got }
  | poll : b.phase = .selecting w got → Next protocol signal b .poll { b with phase := .dialing }
  | redial : b.phase = .dialing →
      Next protocol signal b (.dialed none) { b with phase := .selecting none [] }
  | connected : b.phase = .dialing →
      Next protocol signal b (.dialed (some result)) { b with phase := .done result }
  | keepalive : b.phase = .selecting w got →
      Next protocol signal b .keepalive { b with phase := .beating }
  | beaten : b.phase = .beating →
      Next protocol signal b (.beaten none) { b with phase := .selecting none [] }
  | beatLost : b.phase = .beating →
      Next protocol signal b (.beaten (some e)) { b with phase := .done (.error e) }
  | shutdown : b.phase = .selecting (some waiter) got → waiter.ready signal = true →
      Next protocol signal b .shutdown { b with phase := .parting }
  | part : b.phase = .parting →
      Next protocol signal b .part { b with phase := .done (.error .closed) }
  | feed : b.phase = .selecting w got → b.unread = byte :: rest →
      Next protocol signal b .feed ({ b with unread := rest }.feed protocol w (got ++ [byte]))
  | fail : b.phase = .selecting w got →
      Next protocol signal b (.fail e) { b with phase := .done (.error e) }

theorem next_of_step (h : step protocol b (signal, l) = some b') : Next protocol signal b l b' := by
  dsimp only [step] at h
  split at h
  · rename_i hph
    cases h
    exact .listen hph
  · rename_i hph
    cases h
    exact .poll hph
  · rename_i outcome hph
    cases h
    cases outcome with
    | none => exact .redial hph
    | some result => exact .connected hph
  · rename_i hph
    cases h
    exact .keepalive hph
  · rename_i error hph
    cases h
    cases error with
    | none => exact .beaten hph
    | some e => exact .beatLost hph
  · rename_i hph
    split at h
    · rename_i hrdy
      cases h
      exact .shutdown hph hrdy
    · cases h
  · rename_i hph
    cases h
    exact .part hph
  · rename_i hph
    split at h
    · rename_i hunr
      cases h
      exact .feed hph hunr
    · cases h
  · rename_i hph
    cases h
    exact .fail hph
  · cases h

end Limbo

end Kojacoord
