import Kojacoord.Net.Clientbound

namespace Kojacoord
open Journal List

namespace PumpEnv
variable {env : PumpEnv} {x t : List UInt8}

def batching (env : PumpEnv) (on : Bool) : PumpEnv := { env with batchS2cWrites := on }

theorem taken_eq (h : ¬ (env.taken x).length < x.length) : env.taken x = x := by
  unfold taken at h ⊢
  cases hrm : env.clientRoom with
  | none => rfl
  | some room =>
    simp only [hrm, length_take] at h
    exact take_of_length_le (by omega)

theorem taken_taken : env.taken (env.taken x) = env.taken x := by
  unfold taken
  cases env.clientRoom with
  | none => rfl
  | some room => exact take_take.trans (by rw [Nat.min_self])

theorem taken_append (h : env.taken x ≠ x) : env.taken (x ++ more) = env.taken x := by
  unfold taken at h ⊢
  cases hrm : env.clientRoom with
  | none => simp [hrm] at h
  | some room =>
    simp only [hrm] at h
    have hlen : room ≤ x.length := by
      by_contra hlt
      exact h (take_of_length_le (by omega))
    exact take_append_of_le_length hlen

theorem taken_full (h : ∀ more, env.taken (x ++ more) = t) (more : List UInt8) :
    env.taken (t ++ more) = t := by
  unfold taken at h ⊢
  cases hrm : env.clientRoom with
  | none =>
    simp only [hrm] at h
    have hone := (h [0]).trans (h []).symm
    simp at hone
  | some room =>
    simp only [hrm] at h
    have hlen : room ≤ t.length := by
      rw [← h (List.replicate room 0), length_take, length_append, length_replicate]
      omega
    have ht : t.length ≤ room := by
      rw [← h []]
      exact length_take_le _ _
    exact (take_append_of_le_length hlen).trans (take_of_length_le ht)

end PumpEnv

def S2c.settled (s : S2c) : S2c := { s with pending := [], sent := s.sent ++ s.pending }

theorem S2c.settled_eq {s : S2c} (h : s.pending = []) : s.settled = s := by
  unfold settled
  rw [h, append_nil, ← h]

namespace S2cM
variable {env : PumpEnv} {s : S2c} {bytes raw : List UInt8}

theorem run_write : ExceptT.run (write env bytes) s =
    (if (env.taken (s.sent ++ bytes)).length < (s.sent ++ bytes).length then
      .error (.io .other "") else .ok (),
    { s with sent := env.taken (s.sent ++ bytes) }) := by
  change ExceptT.run (if (env.taken (s.sent ++ bytes)).length < (s.sent ++ bytes).length then
    throw (.io .other "") else pure () : S2cM Unit)
    { s with sent := env.taken (s.sent ++ bytes) } = _
  split <;> rfl

theorem run_write_ok (h : env.taken (s.sent ++ bytes) = s.sent ++ bytes) :
    ExceptT.run (write env bytes) s = (.ok (), { s with sent := s.sent ++ bytes }) := by
  rw [run_write, h, if_neg (Nat.lt_irrefl _)]

theorem run_write_error (h : env.taken (s.sent ++ bytes) ≠ s.sent ++ bytes) :
    ExceptT.run (write env bytes) s =
      (.error (.io .other ""), { s with sent := env.taken (s.sent ++ bytes) }) := by
  rw [run_write, if_pos]
  by_contra hlt
  exact h (PumpEnv.taken_eq hlt)

theorem run_ignore_write : ExceptT.run (ignore (write env bytes)) s =
    (.ok (), { s with sent := env.taken (s.sent ++ bytes) }) := by
  refine (run_tryCatch (write env bytes) (fun _ => pure ()) s).trans ?_
  by_cases h : env.taken (s.sent ++ bytes) = s.sent ++ bytes
  · rw [run_write_ok h, h]
  · rw [run_write_error h]
    rfl

theorem run_flush_ok (h : env.taken (s.sent ++ s.pending) = s.sent ++ s.pending) :
    ExceptT.run (flush env) s = (.ok (), s.settled) := by
  unfold flush
  rw [run_bind_ok _ (run_get s), run_bind_ok _ (run_write_ok h)]
  rfl

theorem run_flush_error (h : env.taken (s.sent ++ s.pending) ≠ s.sent ++ s.pending) :
    ExceptT.run (flush env) s =
      (.error (.io .other ""), { s with sent := env.taken (s.sent ++ s.pending) }) := by
  unfold flush
  rw [run_bind_ok _ (run_get s), run_bind_error _ (run_write_error h)]

theorem run_drain : ExceptT.run (drain env) s =
    (.ok (), { s with sent := env.taken (s.sent ++ s.pending), pending := [] }) := by
  unfold drain
  rw [run_bind_ok _ (run_get s), run_bind_ok _ run_ignore_write]
  rfl

theorem run_farewell : ExceptT.run (farewell env reason) s =
    (.ok (), { s with
      sent := env.taken (env.taken (s.sent ++ s.pending) ++
        env.frame (env.buildDisconnectPacket reason))
      pending := [] }) := by
  unfold farewell send
  rw [run_bind_ok _ run_drain, run_ignore_write]

theorem run_enqueue_batching : ExceptT.run (enqueue (env.batching true) raw) s =
    ExceptT.run (if pendingFlushCap ≤ (s.pending ++ env.frame raw).length ∨ s.source.buffer = []
      then flush env else pure ()) { s with pending := s.pending ++ env.frame raw } := rfl

def Fits (env : PumpEnv) (s : S2c) : Prop :=
  env.taken (s.sent ++ s.pending) = s.sent ++ s.pending

def Short (env : PumpEnv) (got : List UInt8) (s : S2c) : Prop :=
  ∀ more, env.taken (s.sent ++ s.pending ++ more) = got

theorem Fits.settled (h : Fits env s) : Fits env s.settled := by
  unfold Fits S2c.settled
  rw [append_nil, h]

theorem Short.taken (h : Short env got s) : env.taken (s.sent ++ s.pending) = got := by
  rw [← h [], append_nil]

def KeepsShort (env : PumpEnv) (x : S2cM α) : Prop :=
  ∀ got s, Short env got s → match ExceptT.run x s with
    | (.ok _, after) => Short env got after
    | (.error _, after) => after.sent = got

theorem KeepsShort.pure : KeepsShort env (pure a : S2cM α) := fun _ _ h => h

theorem KeepsShort.bind {x : S2cM α} {f : α → S2cM β} (hx : KeepsShort env x)
    (hf : ∀ a, KeepsShort env (f a)) : KeepsShort env (x >>= f) := by
  intro got s h
  have hx := hx got s h
  rcases hrun : ExceptT.run x s with ⟨result, after⟩
  rw [hrun] at hx
  cases result with
  | ok a =>
    rw [run_bind_ok f hrun]
    exact hf a got after hx
  | error e =>
    rw [run_bind_error f hrun]
    exact hx

theorem keepsShort_flush : KeepsShort env (flush env) := by
  intro got s h
  by_cases hft : env.taken (s.sent ++ s.pending) = s.sent ++ s.pending
  · rw [run_flush_ok hft]
    intro more
    change env.taken (s.sent ++ s.pending ++ [] ++ more) = got
    rw [append_nil]
    exact h more
  · rw [run_flush_error hft]
    exact h.taken

theorem keepsShort_flush_send : KeepsShort env (do flush env; send env raw) := by
  intro got s h
  by_cases hft : env.taken (s.sent ++ s.pending) = s.sent ++ s.pending
  · have hfu := PumpEnv.taken_full h
    rw [run_bind_ok _ (run_flush_ok hft)]
    unfold send
    by_cases hse : env.taken (s.settled.sent ++ env.frame raw) = s.settled.sent ++ env.frame raw
    · rw [run_write_ok hse, ← hse]
      intro more
      change env.taken (env.taken (s.sent ++ s.pending ++ env.frame raw) ++ [] ++ more) = got
      rw [h, append_nil, hfu]
    · rw [run_write_error hse]
      exact h _
  · rw [run_bind_error _ (run_flush_error hft)]
    exact h.taken

theorem keepsShort_drain : KeepsShort env (drain env) := by
  intro got s h
  rw [run_drain, h.taken]
  intro more
  rw [append_nil, PumpEnv.taken_full h]

theorem keepsShort_enqueue : KeepsShort env (enqueue (env.batching true) raw) := by
  intro got s h
  have hque : Short env got { s with pending := s.pending ++ env.frame raw } := by
    intro more
    rw [← append_assoc s.sent, append_assoc _ _ more]
    exact h _
  rw [run_enqueue_batching]
  by_cases hnow : pendingFlushCap ≤ (s.pending ++ env.frame raw).length ∨ s.source.buffer = []
  · rw [if_pos hnow]
    exact keepsShort_flush got _ hque
  · rw [if_neg hnow]
    exact hque

theorem keepsShort_apply (env : PumpEnv) (w : Verdict) :
    KeepsShort env (apply (env.batching true) w) := by
  cases w with
  | skip => exact .pure
  | direct raw =>
    have h : KeepsShort env (do (do flush env; send env raw); return Flow.continue) :=
      .bind keepsShort_flush_send fun _ => .pure
    rwa [bind_assoc] at h
  | queue raw => exact .bind keepsShort_enqueue fun _ => .pure
  | kicked reason => exact .bind keepsShort_drain fun _ => .bind (fun _ _ h => h) fun _ => .pure

theorem short_farewell (h : Short env got s) :
    Short env got (ExceptT.run (farewell env reason) s).2 := by
  rw [run_farewell, h.taken, PumpEnv.taken_full h]
  intro more
  rw [append_nil, PumpEnv.taken_full h]

/-- What a program comes to with batching and without: the client lacks only what is pending, or the
write has failed that is still to come with batching, or both have the same effect. -/
inductive Level (env : PumpEnv) :
    Except ConnectionError α × S2c → Except ConnectionError α × S2c → Prop
  | same : Fits env b → Level env (.ok a, b) (.ok a, b.settled)
  | behind : Short env u.sent b → Level env (.ok a, b) (.error e, u)
  | failed : b.sent = u.sent → Level env (.error e, b) (.error f, u)

theorem Level.of_settled (h : s.pending = []) (hft : Fits env s) (a : α) :
    Level env (.ok a, s) (.ok a, s) := by
  have hsm := Level.same (a := a) hft
  rwa [S2c.settled_eq h] at hsm

theorem Level.bind_pure {x y : S2cM α} (h : Level env (ExceptT.run x s) (ExceptT.run y t)) (b : β) :
    Level env (ExceptT.run (x >>= fun _ => Pure.pure b) s)
      (ExceptT.run (y >>= fun _ => Pure.pure b) t) := by
  rw [run_bind, run_bind]
  rcases hx : ExceptT.run x s with ⟨r, s'⟩
  rcases hy : ExceptT.run y t with ⟨r', t'⟩
  rw [hx, hy] at h
  cases h with
  | same h => exact .same h
  | behind h => exact .behind h
  | failed h => exact .failed h

theorem level_write (h : s.pending = []) :
    Level env (ExceptT.run (write env bytes) s) (ExceptT.run (write env bytes) s) := by
  by_cases hse : env.taken (s.sent ++ bytes) = s.sent ++ bytes
  · rw [run_write_ok hse]
    refine .of_settled (s := { s with sent := s.sent ++ bytes }) h ?_ ()
    change env.taken (s.sent ++ bytes ++ s.pending) = s.sent ++ bytes ++ s.pending
    rw [h, append_nil, hse]
  · rw [run_write_error hse]
    exact .failed rfl

theorem level_enqueue :
    Level env (ExceptT.run (enqueue (env.batching true) raw) s)
      (ExceptT.run (enqueue (env.batching false) raw) s.settled) := by
  have hwri : s.settled.sent ++ env.frame raw = s.sent ++ (s.pending ++ env.frame raw) :=
    append_assoc ..
  rw [run_enqueue_batching]
  change Level env _ (ExceptT.run (write env (env.frame raw)) s.settled)
  generalize hque : { s with pending := s.pending ++ env.frame raw } = queued
  have hall : queued.sent ++ queued.pending = s.settled.sent ++ env.frame raw := by
    rw [← hque, hwri]
  by_cases hft : env.taken (queued.sent ++ queued.pending) = queued.sent ++ queued.pending
  · have hset :
        { s.settled with sent := s.settled.sent ++ env.frame raw } = queued.settled := by
      rw [← hque]
      exact congrArg (fun sent => { s.settled with sent }) hwri
    rw [run_write_ok (by rw [← hall, hft]), hset]
    split
    · rw [run_flush_ok hft]
      exact .of_settled rfl (Fits.settled hft) ()
    · exact .same hft
  · rw [run_write_error (by rwa [← hall])]
    split
    · rw [run_flush_error hft, hall]
      exact .failed rfl
    · refine .behind ?_
      intro more
      rw [PumpEnv.taken_append hft, hall]

theorem run_direct (h : Fits env s) : ExceptT.run (apply (env.batching on) (.direct raw)) s =
    ExceptT.run (do send env raw; return Flow.continue) s.settled :=
  run_bind_ok _ (run_flush_ok h)

theorem run_kicked (h : Fits env s) : ExceptT.run (apply (env.batching on) (.kicked reason)) s =
    (.ok .finish, { s.settled with kickReason := some reason }) := by
  refine (run_bind_ok _ run_drain).trans ?_
  change (_, { s with
    sent := env.taken (s.sent ++ s.pending), pending := [], kickReason := some reason }) = _
  rw [h]
  rfl

theorem level_apply (h : Fits env s) (w : Verdict) :
    Level env (ExceptT.run (apply (env.batching true) w) s)
      (ExceptT.run (apply (env.batching false) w) s.settled) := by
  have haga : s.settled.settled = s.settled := S2c.settled_eq rfl
  cases w with
  | skip => exact .same h
  | direct raw =>
    rw [run_direct h, run_direct h.settled, haga]
    exact (level_write rfl).bind_pure _
  | queue raw => exact level_enqueue.bind_pure _
  | kicked reason =>
    rw [run_kicked h, run_kicked h.settled, haga]
    exact .of_settled (s := { s.settled with kickReason := some reason }) rfl h.settled _

end S2cM

def TransferCommand.unanswered : TransferCommand → Bool
  | connect _ | connectOther _ _ => true
  | getServer | getPlayers => false

namespace PumpEnv
variable (env : PumpEnv)

/-- Whether a plugin message of the backend that the proxy keeps from the client goes without a
reply; `none` for all other packets. -/
def swallows (id : UInt8) (body : List UInt8) : Option Bool :=
  if id = env.cbPluginMessageId then
    match decodeClientboundPluginMessage body env.protocol with
    | .ok msg =>
      if msg.channel = "minecraft:brand" ∨ msg.channel = "MC|Brand" then some true
      else (parseCommand env.transfer msg.channel msg.data).map TransferCommand.unanswered
    | .error _ => none
  else none

/-- The loop goes on without having written the `n`-th packet or put it aside: its id cannot be
read, the proxy keeps it, or a hook drops it. -/
def skips (n : Nat) (payload : List UInt8) : Bool :=
  match Decode.varInt payload with
  | .error _ => true
  | .ok (v, body) =>
    if v < 0 ∨ 255 < v then false
    else
      let id := v.toInt.toNat.toUInt8
      if id = env.cbChunkId then false
      else
        match env.swallows id body with
        | some skipped => skipped
        | none => id ≠ env.cbDisconnectId && (env.processPacketHooks n id payload).isNone

end PumpEnv

namespace RelayM
variable (env : PumpEnv)

theorem run_handleTransferCommand (command : TransferCommand) (r : Relay) : ∃ response after,
    ExceptT.run (handleTransferCommand env.toRelayEnv command) r = (.ok response, after) ∧
      response.isNone = command.unanswered := by
  cases command with
  | connect | getServer | getPlayers => exact ⟨_, _, rfl, rfl⟩
  | connectOther server uuid =>
    unfold handleTransferCommand
    rw [run_bind_ok _ (run_get r)]
    split <;> exact ⟨_, _, rfl, rfl⟩

inductive Routes (id : UInt8) (body : List UInt8) : Option Verdict → Prop
  | passed : env.swallows id body = none → Routes id body none
  | kept : env.swallows id body = some true → Routes id body (some .skip)
  | answered : env.swallows id body = some false → Routes id body (some (.direct raw))

theorem run_routeClientboundMessage (id : UInt8) (body : List UInt8) (r : Relay) : ∃ w after,
    ExceptT.run (routeClientboundMessage env id body) r = (.ok w, after) ∧
      Routes env id body w := by
  unfold routeClientboundMessage
  by_cases hid : id = env.cbPluginMessageId
  · rw [if_pos hid]
    cases hmsg : decodeClientboundPluginMessage body env.protocol with
    | error e => exact ⟨_, _, rfl, .passed (by simp [PumpEnv.swallows, hmsg])⟩
    | ok msg =>
      dsimp only
      by_cases hbra : msg.channel = "minecraft:brand" ∨ msg.channel = "MC|Brand"
      · rw [if_pos hbra]
        exact ⟨_, _, rfl, .kept (by simp [PumpEnv.swallows, hid, hmsg, hbra])⟩
      · rw [if_neg hbra]
        have hswa : env.swallows id body =
            (parseCommand env.transfer msg.channel msg.data).map TransferCommand.unanswered := by
          simp [PumpEnv.swallows, hid, hmsg, hbra]
        cases hcmd : parseCommand env.transfer msg.channel msg.data with
        | none => exact ⟨_, _, rfl, .passed (by simp [hswa, hcmd])⟩
        | some command =>
          obtain ⟨response, after, hrun, hno⟩ := run_handleTransferCommand env command r
          rw [run_bind_ok _ hrun]
          cases response with
          | some response => exact ⟨_, _, rfl, .answered (by simp [hswa, hcmd, ← hno])⟩
          | none => exact ⟨_, _, rfl, .kept (by simp [hswa, hcmd, ← hno])⟩
  · rw [if_neg hid]
    exact ⟨_, _, rfl, .passed (by simp [PumpEnv.swallows, hid])⟩

theorem run_verdict (n : Nat) (payload : List UInt8) (r : Relay) :
    ∃ w after, ExceptT.run (verdict env n payload) r = (.ok w, after) ∧
      (w = .skip → env.skips n payload = true) := by
  unfold verdict PumpEnv.skips
  cases Decode.varInt payload with
  | error e => exact ⟨_, _, rfl, fun _ => rfl⟩
  | ok decoded =>
    obtain ⟨v, body⟩ := decoded
    dsimp only
    by_cases hv : v < 0 ∨ 255 < v
    · rw [if_pos hv]
      exact ⟨_, _, rfl, nofun⟩
    · rw [if_neg hv, if_neg hv]
      by_cases hchu : v.toInt.toNat.toUInt8 = env.cbChunkId
      · rw [if_pos hchu]
        exact ⟨_, _, rfl, nofun⟩
      · rw [if_neg hchu, if_neg hchu]
        obtain ⟨w, after, hrun, hrou⟩ :=
          run_routeClientboundMessage env v.toInt.toNat.toUInt8 body r
        rw [run_bind_ok _ hrun]
        cases hrou with
        | kept hkt => exact ⟨_, _, rfl, fun _ => by rw [hkt]⟩
        | answered _ => exact ⟨_, _, rfl, nofun⟩
        | passed hpas =>
          rw [hpas]
          dsimp only
          split
          · split <;> exact ⟨_, _, rfl, nofun⟩
          · rename_i hki
            cases env.processPacketHooks n v.toInt.toNat.toUInt8 payload with
            | some data => exact ⟨_, _, rfl, nofun⟩
            | none => exact ⟨_, _, rfl, fun _ => by simpa using hki⟩

end RelayM

end Kojacoord
