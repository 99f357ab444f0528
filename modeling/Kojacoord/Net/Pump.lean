import Kojacoord.Lib.Runs
import Kojacoord.Net.Clientbound

namespace Kojacoord
open Notify StopFlag

/-- A packet for the client from the outbound channel; `kick` if `kick_player` has sent it. -/
structure OutPacket where
  raw : List UInt8
  kick : Bool

structure Out where
  phase : TaskPhase Unit (List UInt8)
  queue : List OutPacket
  taken : List OutPacket

namespace Out

def start : Out := ⟨.top, [], []⟩

/-- `work` writes the packet in hand; the client's socket says whether it can. -/
inductive Label where
  | proceed
  | enter
  | recv
  | work (ok : Bool)

/-- One move of the task. The channel never closes under it: the other end is with the
client-to-server loop, which gives the stop signal when it ends. -/
def step (v : View) (o : Out) (l : Label) : Option Out :=
  match l, o.phase with
  | .proceed, phase => (phase.proceed v (.storing (.ok ()))).map fun phase => { o with phase }
  | .enter, .created stop => some { o with phase := .waiting stop () }
  | .recv, .waiting stop () =>
    match o.queue with
    | packet :: queue =>
      if stop.ready v.stop then none
      else some ⟨.working packet.raw, queue, o.taken ++ [packet]⟩
    | [] => none
  | .work ok, .working _ => some { o with phase := if ok then .top else .storing (.ok ()) }
  | _, _ => none

end Out

inductive PumpTask where
  | c2s
  | s2c
  | out
deriving DecidableEq

structure Pump where
  running : Option PumpTask
  stopped : Bool
  stop : Signal
  relay : Relay
  c2s : C2s
  s2c : S2c
  out : Out

structure ShutdownState where
  signal : Signal
  reason : String

/-- A move of one of the tasks, or of somebody else: a packet sent into one of the channels, a kick,
or a step of the rest of the proxy. -/
inductive PumpLabel where
  | c2s (l : C2s.Label)
  | s2c (l : S2c.Label)
  | out (l : Out.Label)
  | sendToBackend (raw : List UInt8)
  | sendToPlayer (raw : List UInt8)
  | kickPlayer (reason : String)
  | proxy (l : Label)

/-- How a relay ends. The client's bytes that are handed back are those its socket will deliver. -/
inductive RelayExit where
  | disconnected
  | switch (clientStream : List UInt8) (target : String)
  | backendKicked (clientStream : List UInt8) (reason : String)

def RelayAct.injection : RelayAct → Option OutPacket
  | injected raw => some ⟨raw, false⟩
  | _ => none

namespace Pump

def start (shared : Shared) (client backend : List UInt8) : Pump where
  running := none
  stopped := false
  stop := .new
  relay := .start shared
  c2s := .start client
  s2c := .start backend
  out := .start

def view (w : ShutdownState) (p : Pump) : View where
  stopped := p.stopped
  stop := p.stop
  shutdown := w.signal
  shutdownReason := w.reason
  relay := p.relay

def stage (p : Pump) : PumpTask → Stage
  | .c2s => p.c2s.phase.stage
  | .s2c => p.s2c.phase.stage
  | .out => p.out.phase.stage

/-- The tasks are polled by one `join!`: a task keeps the executor until it is suspended. -/
def mayRun (p : Pump) (t : PumpTask) : Bool := p.running = none || p.running = some t

/-- The shared part after a move: a task sets the flag on its way to the notification, and wakes
the others with it. -/
def settle (p : Pump) (t : PumpTask) (before after : Stage) : Pump :=
  { p with
    running := if after.suspends then none else some t
    stopped := p.stopped || after = .notifying
    stop := if before = .notifying then p.stop.notifyWaiters else p.stop }

def step (env : PumpEnv) (p : Pump) : ShutdownState × PumpLabel → Option Pump
  | (w, .c2s l) =>
    if p.mayRun .c2s then
      (C2s.step env (p.view w) p.c2s l).map fun (c2s, relay) =>
        let injected := (relay.journal.drop p.relay.journal.length).filterMap RelayAct.injection
        let out := { p.out with queue := p.out.queue ++ injected }
        { p with c2s, relay, out }.settle .c2s p.c2s.phase.stage c2s.phase.stage
    else none
  | (w, .s2c l) =>
    if p.mayRun .s2c then
      (S2c.step env (p.view w) p.s2c l).map fun (s2c, relay) =>
        { p with s2c, relay }.settle .s2c p.s2c.phase.stage s2c.phase.stage
    else none
  | (w, .out l) =>
    if p.mayRun .out then
      (Out.step (p.view w) p.out l).map fun out =>
        { p with out }.settle .out p.out.phase.stage out.phase.stage
    else none
  | (_, .sendToBackend raw) => some { p with c2s := p.c2s.offer raw }
  | (_, .sendToPlayer raw) =>
    some { p with out := { p.out with queue := p.out.queue ++ [⟨raw, false⟩] } }
  | (_, .kickPlayer reason) =>
    let packet := ⟨env.buildDisconnectPacket reason, true⟩
    some { p with out := { p.out with queue := p.out.queue ++ [packet] } }
  | (_, .proxy l) =>
    some { p with relay := { p.relay with shared := p.relay.shared.perform env.config l } }

theorem step_c2s {p q : Pump} (h : step env p (w, .c2s l) = some q) :
    C2s.Next env (p.view w) p.c2s l q.c2s q.relay ∧ q.s2c = p.s2c ∧ q.out.phase = p.out.phase ∧
      q.out.taken = p.out.taken := by
  simp only [step] at h
  split at h
  · obtain ⟨⟨c2s, relay⟩, hstep, rfl⟩ := Option.map_eq_some_iff.mp h
    exact ⟨C2s.next_of_step hstep, rfl, rfl, rfl⟩
  · cases h

theorem step_s2c {p q : Pump} (h : step env p (w, .s2c l) = some q) :
    S2c.Next env (p.view w) p.s2c l (q.s2c, q.relay) ∧ q.c2s = p.c2s ∧ q.out = p.out := by
  simp only [step] at h
  split at h
  · obtain ⟨⟨s2c, relay⟩, hstep, rfl⟩ := Option.map_eq_some_iff.mp h
    exact ⟨S2c.next_of_step hstep, rfl, rfl⟩
  · cases h

theorem step_out {p q : Pump} (h : step env p (w, .out l) = some q) :
    Out.step (p.view w) p.out l = some q.out ∧ q.c2s = p.c2s ∧ q.s2c = p.s2c ∧
      q.relay = p.relay := by
  simp only [step] at h
  split at h
  · obtain ⟨out, hstep, rfl⟩ := Option.map_eq_some_iff.mp h
    exact ⟨hstep, rfl, rfl, rfl⟩
  · cases h

theorem c2s_cases {p q : Pump} (h : step env p (w, l) = some q) :
    (∃ l', l = .c2s l' ∧ C2s.Next env (p.view w) p.c2s l' q.c2s q.relay) ∨
      (∃ raw, q.c2s = p.c2s.offer raw) ∨ q.c2s = p.c2s := by
  cases l with
  | c2s l => exact .inl ⟨l, rfl, (step_c2s h).1⟩
  | s2c l => exact .inr (.inr (step_s2c h).2.1)
  | out l => exact .inr (.inr (step_out h).2.1)
  | sendToBackend raw =>
    cases h
    exact .inr (.inl ⟨raw, rfl⟩)
  | sendToPlayer | kickPlayer | proxy =>
    cases h
    exact .inr (.inr rfl)

theorem s2c_cases {p q : Pump} (h : step env p (w, l) = some q) :
    (∃ l', l = .s2c l' ∧ S2c.Next env (p.view w) p.s2c l' (q.s2c, q.relay)) ∨ q.s2c = p.s2c := by
  cases l with
  | c2s l => exact .inr (step_c2s h).2.1
  | s2c l => exact .inl ⟨l, rfl, (step_s2c h).1⟩
  | out l => exact .inr (step_out h).2.2.1
  | sendToBackend | sendToPlayer | kickPlayer | proxy =>
    cases h
    exact .inr rfl

/-- What the relay returns, given how its loops have ended. The reader's buffer is not part of the
stream it hands back. -/
def outcome (p : Pump) (c2s s2c : Except ConnectionError Unit) : Except ConnectionError RelayExit :=
  match p.relay.switchTarget, c2s with
  | some target, .ok () => .ok (.switch p.c2s.source.unread target)
  | _, _ =>
    match p.s2c.kickReason with
    | some reason => .ok (.backendKicked p.c2s.source.unread reason)
    | none => do
      c2s
      s2c
      return .disconnected

def exit (p : Pump) : Option (Except ConnectionError RelayExit) :=
  match p.c2s.phase, p.s2c.phase, p.out.phase with
  | .done c2s, .done s2c, .done _ => some (p.outcome c2s s2c)
  | _, _, _ => none

end Pump

end Kojacoord
