import Kojacoord.Auth.Pipeline
import Kojacoord.Lib.Journal

namespace Kojacoord
open Journal AuthOutbound AuthPipeline

/-- One call of `process`: the event with its sender, what the cryptographic libraries do meanwhile,
and the token drawn if it asks for encryption. -/
structure AuthCall where
  lib : AuthLibrary
  token : List UInt8
  token_length : token.length = 4
  event : AuthEvent
  clientIp : IpAddr

structure AuthRecord (σ : Type) where
  before : AuthState
  world : σ
  call : AuthCall
  outbound : List AuthOutbound

def AuthOutbound.isLoginSuccess : AuthOutbound → Bool
  | loginSuccess .. => true
  | _ => false

def AuthOutbound.isFinal : AuthOutbound → Bool
  | loginSuccess .. | loginDisconnect _ => true
  | _ => false

def AuthState.closed : AuthState → Bool
  | .authenticated _ | .failed _ => true
  | _ => false

namespace AuthPipeline
variable (cfg : AuthConfig) (verifySession : VerifySession σ)

def call (state : AuthState) (world : σ) (c : AuthCall) : (AuthState × List AuthOutbound) × σ :=
  process cfg c.lib c.token verifySession state c.event c.clientIp world

def callAll (state : AuthState) (world : σ) : List AuthCall → List (AuthRecord σ)
  | [] => []
  | c :: rest =>
    let ((after, outbound), world') := call cfg verifySession state world c
    ⟨state, world, c, outbound⟩ :: callAll after world' rest

inductive Outcome (world : σ) (c : AuthCall) : AuthState → AuthState → List AuthOutbound → Prop
  | asked : Outcome world c .awaitingLoginStart
      (.awaitingEncryptionResponse c.token username c.clientIp)
      [.encryptionRequest "" c.lib.pubKeyDer c.token]
  | accepted : c.event = .encryptionResponse secretEnc tokenEnc proto →
      openSecret c.lib stored secretEnc tokenEnc proto = .ok secret →
      ((verifySession username (c.lib.hexDigest "" secret c.lib.pubKeyDer)
        (if cfg.preventProxyConnections then some ip else none)).run world).1 = .ok profile →
      Outcome world c (.awaitingEncryptionResponse stored username ip) (.authenticated profile)
        (.enableEncryption secret :: cfg.accepted profile)
  | refused : Outcome world c state (.failed reason) [.loginDisconnect reason]

variable {cfg verifySession} {state : AuthState} {world : σ} {c : AuthCall}
  {calls rest : List AuthCall}

theorem outcome_of_step (online : cfg.onlineMode = true)
    (h : ((step cfg c.lib c.token verifySession state c.event c.clientIp).run
      world).1 = .ok (after, outbound)) :
    Outcome cfg verifySession world c state after outbound := by
  cases state with
  | awaitingLoginStart =>
    cases hev : c.event with
    | loginStart username clientUuid =>
      simp only [step, hev, online, Bool.not_true, Bool.false_eq_true, if_false] at h
      split at h
      · cases h
      · cases h
        exact .asked
    | encryptionResponse secretEnc tokenEnc proto =>
      rw [hev] at h
      cases h
  | awaitingEncryptionResponse stored username ip =>
    cases hev : c.event with
    | loginStart username clientUuid =>
      rw [hev] at h
      cases h
    | encryptionResponse secretEnc tokenEnc proto =>
      simp only [step, hev] at h
      cases hop : openSecret c.lib stored secretEnc tokenEnc proto with
      | error e =>
        rw [hop] at h
        cases h
      | ok secret =>
        rw [hop] at h
        change ((verifySession username (c.lib.hexDigest "" secret c.lib.pubKeyDer)
          (if cfg.preventProxyConnections then some ip else none) >>= fun profile =>
            pure (AuthState.authenticated profile, .enableEncryption secret :: cfg.accepted profile)).run
              world).1 = _ at h
        rcases hver : (verifySession username (c.lib.hexDigest "" secret c.lib.pubKeyDer)
          (if cfg.preventProxyConnections then some ip else none)).run world with ⟨r, world'⟩
        cases r with
        | error e =>
          rw [run_bind_error _ hver] at h
          cases h
        | ok profile =>
          rw [run_bind_ok _ hver] at h
          cases h
          exact .accepted hev hop (by rw [hver])
  | authenticated profile | failed reason => cases h

theorem outcome_of_call (online : cfg.onlineMode = true) :
    Outcome cfg verifySession world c state (call cfg verifySession state world c).1.1
      (call cfg verifySession state world c).1.2 := by
  have hcl : call cfg verifySession state world c = _ := process_eq ..
  rw [hcl]
  rcases h : (step cfg c.lib c.token verifySession state c.event c.clientIp).run world with
    ⟨r, world'⟩
  cases r with
  | ok r =>
    apply outcome_of_step online
    rw [h]
    rfl
  | error e => exact .refused

theorem callAll_cons (online : cfg.onlineMode = true) : ∃ after outbound world',
      Outcome cfg verifySession world c state after outbound ∧
      callAll cfg verifySession state world (c :: rest) =
        ⟨state, world, c, outbound⟩ :: callAll cfg verifySession after world' rest :=
  ⟨_, _, _, outcome_of_call online, rfl⟩

theorem refused_of_closed (online : cfg.onlineMode = true) (h : state.closed = true) :
    ∀ r ∈ callAll cfg verifySession state world calls,
      ∃ reason, r.outbound = [.loginDisconnect reason] := by
  induction calls generalizing state world with
  | nil =>
    intro r hr
    cases hr
  | cons c rest ih =>
    obtain ⟨after, outbound, world', hout, hcons⟩ := callAll_cons online
    rw [hcons]
    intro r hr
    cases hout with
    | asked | accepted => cases h
    | refused =>
      rcases List.mem_cons.mp hr with rfl | hr
      · exact ⟨_, rfl⟩
      · exact ih rfl r hr

theorem accepted_eq : ∃ compression,
    (compression = [] ∨ compression = [.setCompression cfg.compressionThreshold]) ∧
      cfg.accepted profile =
        compression ++ [.loginSuccess profile.id profile.name profile.properties] := by
  unfold AuthConfig.accepted
  split
  · exact ⟨_, .inr rfl, rfl⟩
  · exact ⟨_, .inl rfl, rfl⟩

theorem Outcome.final (h : Outcome cfg verifySession world c state after outbound) :
    outbound.countP isLoginSuccess = 0 ∧ outbound.any isFinal = false ∨
      outbound.countP isLoginSuccess ≤ 1 ∧ after.closed = true := by
  cases h with
  | asked => exact .inl ⟨rfl, rfl⟩
  | accepted hev hop hver =>
    obtain ⟨compression, hcom, hacc⟩ := accepted_eq
    rw [hacc]
    rcases hcom with rfl | rfl <;> exact .inr ⟨Nat.le_refl 1, rfl⟩
  | refused => exact .inr ⟨Nat.zero_le 1, rfl⟩

theorem countP_refusals {records : List (AuthRecord σ)}
    (h : ∀ r ∈ records, ∃ reason, r.outbound = [.loginDisconnect reason]) :
    (records.flatMap AuthRecord.outbound).countP isLoginSuccess = 0 := by
  rw [List.countP_eq_zero]
  intro packet hpkt
  obtain ⟨r, hr, hmem⟩ := List.mem_flatMap.mp hpkt
  obtain ⟨reason, hrea⟩ := h r hr
  rw [hrea] at hmem
  rw [List.mem_singleton.mp hmem]
  exact Bool.false_ne_true

theorem countP_success_le (online : cfg.onlineMode = true) :
    ((callAll cfg verifySession state world calls).flatMap AuthRecord.outbound).countP
      isLoginSuccess ≤ 1 := by
  induction calls generalizing state world with
  | nil => exact Nat.zero_le 1
  | cons c rest ih =>
    obtain ⟨after, outbound, world', hout, hcons⟩ := callAll_cons online
    rw [hcons]
    rw [List.flatMap_cons, List.countP_append]
    dsimp only
    rcases hout.final with ⟨hno, -⟩ | ⟨hone, hclo⟩
    · have hrs := @ih after world'
      omega
    · rw [countP_refusals (refused_of_closed online hclo)]
      exact hone

theorem pairwise_final (online : cfg.onlineMode = true) :
    (callAll cfg verifySession state world calls).Pairwise fun r later =>
      r.outbound.any isFinal = true →
        ∃ reason, later.outbound = [.loginDisconnect reason] := by
  induction calls generalizing state world with
  | nil => exact .nil
  | cons c rest ih =>
    obtain ⟨after, outbound, world', hout, hcons⟩ := callAll_cons online
    rw [hcons]
    apply List.Pairwise.cons _ ih
    intro later hlat hfin
    rcases hout.final with ⟨-, hno⟩ | ⟨-, hclo⟩
    · rw [hno] at hfin
      cases hfin
    · exact refused_of_closed online hclo later hlat

theorem checkToken_ok (h : checkToken lib stored tokenEnc proto = .ok ()) :
    tokenEnc ≠ [] ∧ lib.rsaDecrypt tokenEnc = .ok stored ∨
      tokenEnc = [] ∧ (proto = 759 ∨ proto = 760) := by
  unfold checkToken at h
  split at h
  · rename_i hemp
    split at h
    · rename_i hpro
      exact .inr ⟨hemp, by grind⟩
    · cases h
  · rename_i hemp
    cases htok : lib.rsaDecrypt tokenEnc with
    | error e =>
      rw [htok] at h
      cases h
    | ok token =>
      rw [htok] at h
      change (if token = stored then Except.ok () else .error AuthError.verifyTokenMismatch) = _ at h
      split at h
      · rename_i heq
        exact .inl ⟨hemp, congrArg Except.ok heq⟩
      · cases h

theorem openSecret_ok (h : openSecret lib stored secretEnc tokenEnc proto = .ok secret) :
    lib.rsaDecrypt secretEnc = .ok secret ∧ secret.length = 16 ∧
      checkToken lib stored tokenEnc proto = .ok () := by
  unfold openSecret at h
  cases hsec : lib.rsaDecrypt secretEnc with
  | error e =>
    rw [hsec] at h
    cases h
  | ok opened =>
    rw [hsec] at h
    cases htok : checkToken lib stored tokenEnc proto with
    | error e =>
      rw [htok] at h
      cases h
    | ok _ =>
      rw [htok] at h
      change (if opened.length = 16 then Except.ok opened else _) = _ at h
      split at h
      · rename_i hlen
        cases h
        exact ⟨rfl, hlen, rfl⟩
      · cases h

end AuthPipeline

def AuthState.Tokened : AuthState → Prop
  | .awaitingEncryptionResponse stored _ _ => stored.length = 4
  | _ => True

/-- The call handles the response to an encryption request, every check goes through, and it logs
the profile in that the session server vouches for. -/
def AuthRecord.LogsIn (r : AuthRecord σ) (cfg : AuthConfig) (verifySession : VerifySession σ)
    (profile : AuthenticatedProfile) : Prop :=
  ∃ stored username ip secretEnc tokenEnc proto secret compression,
    r.before = .awaitingEncryptionResponse stored username ip ∧
    r.call.event = .encryptionResponse secretEnc tokenEnc proto ∧
    r.call.lib.rsaDecrypt secretEnc = .ok secret ∧ secret.length = 16 ∧ stored.length = 4 ∧
    (tokenEnc ≠ [] ∧ r.call.lib.rsaDecrypt tokenEnc = .ok stored ∨
      tokenEnc = [] ∧ (proto = 759 ∨ proto = 760)) ∧
    ((verifySession username (r.call.lib.hexDigest "" secret r.call.lib.pubKeyDer)
      (if cfg.preventProxyConnections then some ip else none)).run r.world).1 = .ok profile ∧
    (compression = [] ∨ compression = [.setCompression cfg.compressionThreshold]) ∧
    r.outbound = .enableEncryption secret :: compression ++
      [.loginSuccess profile.id profile.name profile.properties]

namespace AuthPipeline
variable {cfg : AuthConfig} {verifySession : VerifySession σ} {state : AuthState}

theorem Outcome.tokened (h : Outcome cfg verifySession world c state after outbound) :
    after.Tokened := by
  cases h with
  | asked => exact c.token_length
  | accepted | refused => trivial

theorem Outcome.logsIn (h : Outcome cfg verifySession world c state after outbound) (hs : state.Tokened)
    (hmem : .loginSuccess uuid name properties ∈ outbound) :
    AuthRecord.LogsIn ⟨state, world, c, outbound⟩ cfg verifySession ⟨uuid, name, properties⟩ := by
  cases h with
  | asked | refused => cases List.mem_singleton.mp hmem
  | accepted hev hop hver =>
    rename_i secretEnc tokenEnc proto stored secret username ip profile
    obtain ⟨hsec, hlen, htok⟩ := openSecret_ok hop
    obtain ⟨compression, hcom, hacc⟩ := accepted_eq
    rw [hacc] at hmem
    obtain ⟨rfl, rfl, rfl⟩ : uuid = profile.id ∧ name = profile.name ∧
        properties = profile.properties := by
      rcases hcom with rfl | rfl <;> simpa using hmem
    exact ⟨stored, username, ip, secretEnc, tokenEnc, proto, secret, compression, rfl, hev,
      hsec, hlen, hs, checkToken_ok htok, hver, hcom, by rw [hacc]; rfl⟩

theorem logsIn_of_success (online : cfg.onlineMode = true) (hs : state.Tokened) :
    ∀ r ∈ callAll cfg verifySession state world calls, ∀ uuid name properties,
      .loginSuccess uuid name properties ∈ r.outbound →
        r.LogsIn cfg verifySession ⟨uuid, name, properties⟩ := by
  induction calls generalizing state world with
  | nil =>
    intro r hr
    cases hr
  | cons c rest ih =>
    obtain ⟨after, outbound, world', hout, hcons⟩ := callAll_cons online
    rw [hcons]
    intro r hr uuid name properties hmem
    rcases List.mem_cons.mp hr with rfl | hr
    · exact hout.logsIn hs hmem
    · exact ih hout.tokened r hr uuid name properties hmem

end AuthPipeline

/-- With authentication on, whatever comes in and however the libraries and the session server
behave: there is at most one success, that of a verified profile, and after the end of the login
only refusals. -/
theorem login_verified (cfg : AuthConfig) (online : cfg.onlineMode = true)
    (verifySession : VerifySession σ) (world : σ) (calls : List AuthCall) :
    let records := callAll cfg verifySession .awaitingLoginStart world calls
    (records.flatMap AuthRecord.outbound).countP isLoginSuccess ≤ 1 ∧
    (∀ r ∈ records, ∀ uuid name properties, .loginSuccess uuid name properties ∈ r.outbound →
      r.LogsIn cfg verifySession ⟨uuid, name, properties⟩) ∧
    records.Pairwise fun r later => r.outbound.any isFinal = true →
      ∃ reason, later.outbound = [.loginDisconnect reason] := by
  refine ⟨?_, ?_, ?_⟩
  · exact countP_success_le online
  · exact logsIn_of_success online trivial
  · exact pairwise_final online

def plainLibrary : AuthLibrary where
  pubKeyDer := [1, 2]
  rsaDecrypt cipher := .ok cipher
  offlineUuid _ := 7
  hexDigest _ _ _ := ""
  redText text := text

def steveCalls : List AuthCall :=
  [⟨plainLibrary, [1, 2, 3, 4], rfl, .loginStart "Steve" none, .v4 1⟩,
    ⟨plainLibrary, [5, 6, 7, 8], rfl,
      .encryptionResponse (List.replicate 16 9) [1, 2, 3, 4] 47, .v4 1⟩]

def vouchForSteve : VerifySession Unit := fun _ _ _ => pure ⟨5, "Steve", []⟩

theorem login_verified_steve : ∃ r ∈ callAll ⟨true, 256, false⟩ vouchForSteve
    .awaitingLoginStart () steveCalls, .loginSuccess 5 "Steve" [] ∈ r.outbound ∧
      r.LogsIn ⟨true, 256, false⟩ vouchForSteve ⟨5, "Steve", []⟩ := by
  obtain ⟨-, hlogsIn, -⟩ := login_verified ⟨true, 256, false⟩ rfl vouchForSteve () steveCalls
  obtain ⟨r, hr, hsuccess⟩ : ∃ r ∈ callAll ⟨true, 256, false⟩ vouchForSteve
      .awaitingLoginStart () steveCalls, .loginSuccess 5 "Steve" [] ∈ r.outbound :=
    ⟨_, .tail _ (.head _), by decide⟩
  exact ⟨r, hr, hsuccess, hlogsIn r hr 5 "Steve" [] hsuccess⟩

end Kojacoord
