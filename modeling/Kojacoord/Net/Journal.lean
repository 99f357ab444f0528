import Kojacoord.Lib.Journal
import Kojacoord.Net.Connection

namespace Kojacoord
open Journal

def ClientPacket.isLoginSuccess : ClientPacket → Bool
  | loginSuccess .. => true
  | _ => false

inductive ClientPacket.Common (env : Env) (protocol : UInt32) : ClientPacket → Prop
  | loginRequest : (nearest protocol).canonicalTypedPacketVersion = .v1_6_4 →
      Common env protocol (.loginRequest request)
  | loginSuccess : (nearest protocol).canonicalTypedPacketVersion ≠ .v1_6_4 →
      Common env protocol (.loginSuccess uuid username properties)
  | legacyDisconnect : isPreNettyProto protocol = true →
      Common env protocol (.legacyDisconnect reason)
  | loginDisconnect : isPreNettyProto protocol = false →
      Common env protocol (.loginDisconnect reason)
  | playDisconnect : Common env protocol (.playDisconnect reason)
  | resourcePack : env.resourcePack protocol = some packet →
      Common env protocol (.resourcePack packet)
  | systemMessage : Common env protocol (.systemMessage text)

/-- A property that a state of the handler has for its version and its phase alone. -/
def Steady (I : Client → Prop) : Prop :=
  ∀ c d, I c → d.protocolVersion = c.protocolVersion → d.connState = c.connState → I d

theorem steady_true : Steady fun _ => True := fun _ _ _ _ _ => trivial

/-- A property of acts that the handler's routine acts have in the states where `I` holds. -/
structure Routine (env : Env) (I : Client → Prop) (p : Act → Prop) : Prop where
  steady : Steady I
  plays : ∀ c, I c → I { c with connState := .play }
  wrote : ∀ c packet, I c → packet.isLoginSuccess = false → packet.Common env c.protocolVersion →
    p (.wrote packet)
  asked : ∀ event results, p (.asked event results)
  noticed : ∀ notice, p (.noticed notice)
  removed : ∀ uuid, p (.removed uuid)

namespace Handler
variable {I : Client → Prop} {p : Act → Prop} {env : Env}

theorem run_write : ExceptT.run (write env packet) c =
    (match env.writeError c.writes with
      | none => .ok ()
      | some kind => .error (.io kind ""),
    { c with writes := c.writes + 1, journal := c.journal ++ [Act.wrote packet] }) := by
  simp only [write, run_bind, run_get, run_set]
  cases env.writeError c.writes <;> rfl

theorem keeps_orThrow {r : Except ConnectionError α} : KeepsIn Client.journal I p (orThrow r) := by
  cases r with
  | ok a => exact .pure
  | error e => exact .throw

theorem keeps_ignore (h : KeepsIn Client.journal I p x) : KeepsIn Client.journal I p (ignore x) :=
  .tryCatch h fun _ => .pure

theorem keeps_modify {f : Client → Client} (hI : ∀ c, I c → I (f c))
    (hlog : ∀ c, (f c).journal = c.journal) :
    KeepsIn Client.journal I p (modify f : Handler PUnit) := .of_silent hI hlog

theorem keeps_setState (hI : ∀ c, I c → I { c with connState := state }) :
    KeepsIn Client.journal I p (setState state) := .of_silent hI fun _ => rfl

section Steady
variable (hI : Steady I)
include hI

theorem keeps_record (h : p act) : KeepsIn Client.journal I p (record act) :=
  .of_append (fun _ => act) (fun c hc => hI c _ hc rfl rfl) (fun _ => rfl) fun _ _ => h

theorem keeps_onStream {x : StateM McStream α} : KeepsIn Client.journal I p (onStream x) :=
  .of_silent (fun c hc => hI c _ hc rfl rfl) fun _ => rfl

theorem keeps_readWithin {x : Reader α} : KeepsIn Client.journal I p (readWithin ms message x) := by
  apply KeepsIn.bind (keeps_onStream hI)
  intro r
  cases r with
  | some r => exact keeps_orThrow
  | none => exact .throw

theorem keeps_readUntimed {x : Reader α} : KeepsIn Client.journal I p (readUntimed x) :=
  .bind (keeps_onStream hI) fun _ => keeps_orThrow

theorem keeps_readDecoded {d : Decoder α} :
    KeepsIn Client.journal I p (readDecoded env message d) :=
  .get_bind fun _ _ => keeps_readWithin hI

theorem keeps_write (h : ∀ c, I c → p (.wrote packet)) :
    KeepsIn Client.journal I p (write env packet) := by
  apply KeepsIn.of_append (fun _ => .wrote packet)
  · intro c hc
    rw [run_write]
    exact hI c _ hc rfl rfl
  · intro c
    rw [run_write]
  · exact h

theorem keeps_writeBuilt (h : ∀ c, I c → p (.wrote packet)) :
    KeepsIn Client.journal I p (writeBuilt env packet) := by
  apply KeepsIn.get_bind
  intro c _
  split
  · exact keeps_write hI h
  · exact .pure

theorem keeps_readProxyHeaders : KeepsIn Client.journal I p (readProxyHeaders env) := by
  have hreal (real : SocketAddr) : KeepsIn Client.journal I p
      (modify fun c => { c with addr := real } : Handler PUnit) :=
    keeps_modify (fun c hc => hI c _ hc rfl rfl) fun _ => rfl
  unfold readProxyHeaders
  split
  · apply KeepsIn.get_bind
    intro c _
    split
    · apply KeepsIn.bind (keeps_readUntimed hI)
      intro header
      cases header with
      | found real => exact hreal real
      | notFound rest => exact .pure
    · exact .bind (keeps_readUntimed hI) fun _ => hreal _
  · exact .pure

theorem keeps_peekLooksLikeBedrock : KeepsIn Client.journal I p peekLooksLikeBedrock := by
  apply KeepsIn.bind (keeps_onStream hI)
  intro r
  split <;> exact .pure

theorem keeps_sendSetCompression (h : ∀ threshold, p (.wrote (.setCompression threshold))) :
    KeepsIn Client.journal I p (sendSetCompressionWithThreshold env threshold) := by
  apply KeepsIn.get_bind
  intro c _
  split
  · exact keeps_writeBuilt hI fun _ _ => h threshold
  · exact .pure

end Steady

section Routine
variable (hp : Routine env I p)
include hp

theorem keeps_broadcast : KeepsIn Client.journal I p (broadcast env event) := by
  apply KeepsIn.of_append fun c => .asked event (env.results c.events event)
  · intro c hc
    exact hp.steady c _ hc rfl rfl
  · intro c
    rfl
  · intro c _
    exact hp.asked _ _

theorem keeps_dispatch : KeepsIn Client.journal I p (dispatch env event) := by
  apply KeepsIn.bind (keeps_broadcast hp)
  intro results
  apply KeepsIn.bind (f := fun _ => pure _) _ fun _ => .pure
  intro c hc
  refine ⟨hp.steady c _ hc rfl rfl, _, rfl, ?_⟩
  intro a ha
  obtain ⟨notice, -, rfl⟩ := List.mem_map.mp ha
  exact hp.noticed notice

theorem keeps_sendDisconnectLogin :
    KeepsIn Client.journal I p (sendDisconnectLogin env reason) := by
  apply KeepsIn.get_bind
  intro c hc
  split
  · rename_i hver
    exact keeps_write hp.steady fun _ _ => hp.wrote c _ hc rfl (.legacyDisconnect hver)
  · rename_i hver
    apply keeps_writeBuilt hp.steady
    intro _ _
    exact hp.wrote c _ hc rfl (.loginDisconnect (Bool.eq_false_of_not_eq_true hver))

theorem keeps_sendPlayDisconnect : KeepsIn Client.journal I p (sendPlayDisconnect env reason) :=
  keeps_writeBuilt hp.steady fun c hc => hp.wrote c _ hc rfl .playDisconnect

theorem keeps_sendGracefulKick : KeepsIn Client.journal I p (sendGracefulKick env error) := by
  unfold sendGracefulKick
  split
  · exact .pure
  · apply KeepsIn.get_bind
    intro c _
    cases c.connState with
    | login | configuration => exact keeps_ignore (keeps_sendDisconnectLogin hp)
    | play => exact keeps_ignore (keeps_sendPlayDisconnect hp)
    | status | handshaking => exact .pure

theorem keeps_rejectLogin : KeepsIn Client.journal I p
    (do ignore (sendDisconnectLogin env reason); throw error : Handler α) :=
  .bind (keeps_ignore (keeps_sendDisconnectLogin hp)) fun _ => .throw

theorem keeps_checkLogin : KeepsIn Client.journal I p (checkLogin env uuid properties) := by
  unfold checkLogin
  split
  · exact keeps_rejectLogin hp
  · apply KeepsIn.get_bind
    intro c _
    split
    · exact keeps_rejectLogin hp
    · exact .pure

theorem keeps_checkPreLogin : KeepsIn Client.journal I p (checkPreLogin env username) := by
  unfold checkPreLogin
  split
  · apply KeepsIn.get_bind
    intro c _
    apply KeepsIn.bind (keeps_broadcast hp)
    intro results
    dsimp only
    split
    · exact keeps_rejectLogin hp
    · exact .pure
  · exact .pure

theorem keeps_joinKicked : KeepsIn Client.journal I p (joinKicked env uuid username) := by
  apply KeepsIn.bind (keeps_dispatch hp)
  intro kicked
  split
  · exact .pure
  · exact keeps_dispatch hp

theorem keeps_relayLoop (segments : List RelaySegment) :
    KeepsIn Client.journal I p (relayLoop env uuid segments) := by
  induction segments with
  | nil => exact .pure
  | cons segment rest ih =>
    cases segment with
    | switch target outcome =>
      cases outcome with
      | ok _ =>
        apply KeepsIn.bind (keeps_dispatch hp)
        intro _
        apply KeepsIn.bind (keeps_dispatch hp)
        intro _
        exact ih
      | error e =>
        simp only [relayLoop]
        split
        · exact .bind (keeps_ignore (keeps_sendPlayDisconnect hp)) fun _ => .pure
        · exact .pure
    | kicked reason kickedFrom fallback outcome =>
      apply KeepsIn.bind (keeps_dispatch hp)
      intro _
      apply KeepsIn.bind
      · exact keeps_ignore (keeps_write hp.steady fun c hc => hp.wrote c _ hc rfl .systemMessage)
      · intro _
        cases outcome with
        | ok _ => exact .bind (keeps_dispatch hp) fun _ => ih
        | error e => exact .pure

theorem keeps_play : KeepsIn Client.journal I p (play env uuid username target) := by
  apply KeepsIn.bind (keeps_dispatch hp)
  intro _
  apply KeepsIn.bind (keeps_dispatch hp)
  intro _
  apply KeepsIn.bind (keeps_setState hp.plays)
  intro _
  apply KeepsIn.bind (keeps_relayLoop hp _)
  intro result
  apply KeepsIn.bind (keeps_record hp.steady (hp.removed _))
  intro _
  apply KeepsIn.bind (keeps_dispatch hp)
  intro _
  apply KeepsIn.bind (keeps_dispatch hp)
  intro _
  cases result with
  | ok _ => exact .pure
  | error e =>
    dsimp only
    split
    · exact .bind (keeps_ignore (keeps_sendPlayDisconnect hp)) fun _ => .throw
    · exact .throw

theorem keeps_backendOutcome (outcome : Except ConnectionError String) :
    KeepsIn Client.journal I p (match outcome with
      | .ok target => play env uuid username target
      | .error e => do
        record (.removed uuid)
        if !e.clientGone then
          ignore (sendPlayDisconnect env (redLiteral "Could not connect to any backend server."))
        throw e : Handler Unit) := by
  cases outcome with
  | ok target => exact keeps_play hp
  | error e =>
    apply KeepsIn.bind (keeps_record hp.steady (hp.removed _))
    intro _
    split
    · exact .bind (keeps_ignore (keeps_sendPlayDisconnect hp)) fun _ => .throw
    · exact .throw

theorem keeps_connectAndPlay (hc : p (.connecting uuid)) :
    KeepsIn Client.journal I p (connectAndPlay env uuid username) :=
  .bind (keeps_record hp.steady hc) fun _ => keeps_backendOutcome hp _

theorem keeps_sendLoginSuccess (hs : ∀ c, I c →
      (nearest c.protocolVersion).canonicalTypedPacketVersion ≠ .v1_6_4 →
      p (.wrote (.loginSuccess uuid username properties))) :
    KeepsIn Client.journal I p (sendLoginSuccess env uuid username properties) := by
  apply KeepsIn.get_bind
  intro c hc
  split
  · rename_i hver
    exact keeps_write hp.steady fun _ _ => hp.wrote c _ hc rfl (.loginRequest hver)
  · rename_i hver
    exact keeps_writeBuilt hp.steady fun _ _ => hs c hc hver

theorem keeps_insertSession (hi : ∀ session, session.uuid = uuid → p (.inserted session)) :
    KeepsIn Client.journal I p (insertSession env uuid username properties) := by
  apply KeepsIn.get_bind
  intro c hc
  apply KeepsIn.bind
  · apply keeps_record hp.steady
    apply hi
    rfl
  · intro _
    split
    · rename_i packet hpack
      exact keeps_ignore
        (keeps_write hp.steady fun _ _ => hp.wrote c _ hc rfl (.resourcePack hpack))
    · exact .pure

theorem keeps_rejectJoin : KeepsIn Client.journal I p (do
    record (.removed uuid)
    ignore (sendPlayDisconnect env reason)
    throw error : Handler Unit) := by
  apply KeepsIn.bind (keeps_record hp.steady (hp.removed uuid))
  intro _
  exact .bind (keeps_ignore (keeps_sendPlayDisconnect hp)) fun _ => .throw

theorem keeps_finaliseLogin (hc : p (.connecting uuid))
    (hs : ∀ c, I c → (nearest c.protocolVersion).canonicalTypedPacketVersion ≠ .v1_6_4 →
      p (.wrote (.loginSuccess uuid username properties)))
    (hi : ∀ session, session.uuid = uuid → p (.inserted session)) :
    KeepsIn Client.journal I p (finaliseLogin env uuid username properties) := by
  apply KeepsIn.bind (keeps_checkLogin hp)
  intro _
  apply KeepsIn.bind (keeps_sendLoginSuccess hp hs)
  intro _
  apply KeepsIn.bind (keeps_insertSession hp hi)
  intro _
  apply KeepsIn.bind (keeps_joinKicked hp)
  intro kicked
  split
  · exact keeps_rejectJoin hp
  · exact keeps_connectAndPlay hp hc

theorem keeps_handleStatus (hsta : ∀ json, p (.wrote (.statusResponse json)))
    (hpong : ∀ payload, p (.wrote (.pongResponse payload))) :
    KeepsIn Client.journal I p (handleStatus env) := by
  apply KeepsIn.bind (keeps_readUntimed hp.steady)
  intro _
  apply KeepsIn.bind (keeps_readUntimed hp.steady)
  intro _
  apply KeepsIn.bind (keeps_broadcast hp)
  intro results
  apply KeepsIn.get_bind
  intro c _
  apply KeepsIn.bind (keeps_write hp.steady fun _ _ => hsta _)
  intro _
  apply KeepsIn.get_bind
  intro c _
  apply KeepsIn.bind (keeps_readUntimed hp.steady)
  intro ping
  dsimp only
  split
  · exact keeps_write hp.steady fun _ _ => hpong _
  · exact .throw

end Routine

end Handler

end Kojacoord
