import Kojacoord.Net.Clientbound
import Kojacoord.Net.SessionWrites

namespace Kojacoord
open Journal Bool

inductive Opening where
  | handshake
  | legacyLogin

def Opening.isLegacy : Opening → Bool
  | handshake => false
  | legacyLogin => true

def Opening.Opens (bytes : List UInt8) : Opening → Prop
  | handshake => ∃ h : ServerboundHandshake,
      h.serverAddress.length ≤ 255 ∧ encodeFrame h.encode <+: bytes
  | legacyLogin => [0x02] <+: bytes

/-- The form that a packet has on the stream of a client that opened this way: behind its length, or
as it is. -/
def Opening.Frames (raw bytes : List UInt8) : Opening → Prop
  | handshake => ∃ body, bytes = encodeFrame body
  | legacyLogin => bytes = raw

/-- The packets that are put behind a length whatever the version, where a pre-netty session can
come to them. -/
def Sent.framedAnyway : Sent → Bool
  | handler (.playDisconnect _) | handler (.systemMessage _) => true
  | session (.loginPluginRequest _) | session (.firstPlayPacket _) | session (.limboError _)
  | session (.brand _) => true
  | _ => false

def WriteCall.framed (protocol : UInt32) : WriteCall → Bool
  | packet _ => true
  | legacyBytes _ => false
  | clientPacket _ | typedPacket .. => !isPreNettyProto protocol

theorem WriteCall.encodePacket_framed (raw : List UInt8) :
    ∃ body, encodePacket deflate raw threshold = encodeFrame body := by
  rw [encodePacket]
  split <;> exact ⟨_, rfl⟩

theorem WriteCall.frames {opening : Opening} {call : WriteCall} (deflate : Deflate) (threshold : Int32)
    (h : call.framed protocol = !opening.isLegacy) :
    opening.Frames (call.raw protocol) (call.bytes deflate protocol threshold) := by
  cases opening with
  | handshake =>
    cases call with
    | packet raw => exact encodePacket_framed raw
    | legacyBytes raw => cases h
    | clientPacket raw =>
      have hver : isPreNettyProto protocol = false := not_eq_true' _ ▸ h
      rw [bytes, encodeForClient, hver]
      exact encodePacket_framed raw
    | typedPacket pid body =>
      have hver : isPreNettyProto protocol = false := not_eq_true' _ ▸ h
      rw [bytes, hver]
      exact encodePacket_framed _
  | legacyLogin =>
    cases call with
    | packet raw => cases h
    | legacyBytes raw => rfl
    | clientPacket raw =>
      have hver : isPreNettyProto protocol = true := not_eq_false' _ ▸ h
      simp only [Opening.Frames, bytes, encodeForClient, WriteCall.raw, hver, if_true]
    | typedPacket pid body =>
      have hver : isPreNettyProto protocol = true := not_eq_false' _ ▸ h
      simp only [Opening.Frames, bytes, WriteCall.raw, hver, if_true]

theorem not_preNetty_of_configuration (h : (nearest protocol).hasConfigurationPhase = true) :
    isPreNettyProto protocol = false := by
  by_contra hver
  have hepo : (nearest protocol).epoch = .preNetty :=
    of_decide_eq_true (eq_true_of_not_eq_false hver)
  have hph : 764 ≤ (nearest protocol).id := of_decide_eq_true h
  have hid := UInt32.le_trans hph (ProtocolVersion.id_le_of_preNetty hepo)
  cases (by decide : ¬(764 : UInt32) ≤ 78) hid

theorem SessionStage.Writes.framed {opening : Opening} (h : Writes protocol stage packet stage')
    (hver : isPreNettyProto protocol = opening.isLegacy)
    (hsite : opening = .legacyLogin → (Sent.session packet).framedAnyway = false) :
    (packet.call protocol).framed protocol = !opening.isLegacy := by
  have hany (hse : (Sent.session packet).framedAnyway = true) : opening.isLegacy = false := by
    cases opening with
    | handshake => rfl
    | legacyLogin =>
      rw [hsite rfl] at hse
      cases hse
  have hph (h : (nearest protocol).hasConfigurationPhase = true) : opening.isLegacy = false := by
    rw [← hver]
    exact not_preNetty_of_configuration h
  rw [← hver] at hany hph ⊢
  cases h with
  | loginPluginRequest | firstPlayPacket | limboError | brand => rw [hany rfl]; rfl
  | startConfiguration h | configuration h => rw [hph h]; rfl
  | switchRespawn | entry | registryData | keepAlive | queuePosition | bossbarRemove | respawn
  | limboShutdown | relayed => rfl
  | fml1HandshakeReset =>
    rw [SessionPacket.call]
    split
    · rename_i hver
      rw [hver]
      rfl
    · rename_i hver
      rw [eq_false_of_not_eq_true hver]
      rfl

def Act.Tells (q : ClientPacket → Prop) (a : Act) : Prop := ∀ packet, a = .wrote packet → q packet

/-- The handler writes the packet as the client's first packet was, given that the client has
announced this number. -/
def Opening.Suits (opening : Opening) (build : ClientPacket → List UInt8) (protocol : UInt32)
    (packet : ClientPacket) : Prop :=
  isPreNettyProto protocol = opening.isLegacy →
    (opening = .legacyLogin → (Sent.handler packet).framedAnyway = false) →
      (packet.call build).framed protocol = !opening.isLegacy

structure JoinRoutine (env : Env) (I : Client → Prop) (p : Act → Prop) : Prop
    extends Routine env I p where
  succeeded : ∀ c uuid username properties, I c →
    (nearest c.protocolVersion).canonicalTypedPacketVersion ≠ .v1_6_4 →
      p (.wrote (.loginSuccess uuid username properties))
  inserted : ∀ session, p (.inserted session)
  connecting : ∀ uuid, p (.connecting uuid)

structure LoginRoutine (env : Env) (I : Client → Prop) (p : Act → Prop) : Prop
    extends JoinRoutine env I p where
  requested : ∀ publicKey token, p (.wrote (.encryptionRequest publicKey token))
  compressed : ∀ threshold, p (.wrote (.setCompression threshold))
  verified : ∀ profile, p (.verified profile)

namespace Handler
variable {I : Client → Prop} {p : Act → Prop} {env : Env}

theorem keeps_join (hp : JoinRoutine env I p) :
    KeepsIn Client.journal I p (finaliseLogin env uuid username properties) := by
  apply keeps_finaliseLogin hp.toRoutine (hp.connecting uuid)
  · intro c hc
    exact hp.succeeded c uuid username properties hc
  · intro session _
    exact hp.inserted session

section Login
variable (hp : LoginRoutine env I p)
include hp

theorem keeps_pipelineStep (state : AuthState) (event : AuthEvent) (ip : IpAddr) :
    KeepsIn Client.journal I p (pipelineStep env state event ip) := by
  cases state with
  | authenticated profile | failed reason => exact .throw
  | awaitingLoginStart =>
    cases event with
    | encryptionResponse secretEnc tokenEnc proto => exact .throw
    | loginStart username clientUuid =>
      simp only [pipelineStep, AuthPipeline.step]
      split
      · exact .throw
      · split <;> exact .pure
  | awaitingEncryptionResponse stored username clientIp =>
    cases event with
    | loginStart username clientUuid => exact .throw
    | encryptionResponse secretEnc tokenEnc proto =>
      apply KeepsIn.bind (.of_silent (fun _ hc => hc) fun _ => rfl)
      intro secret
      apply KeepsIn.bind (f := fun _ => pure _) _ fun _ => .pure
      unfold verifySession
      split
      · rename_i profile _
        apply KeepsIn.of_append fun _ => .verified profile
        · intro c hc
          exact hp.steady c _ hc rfl rfl
        · intro c
          rfl
        · intro c _
          exact hp.verified profile
      · exact .throw

theorem keeps_process : KeepsIn Client.journal I p (process env state event) := by
  intro c hc
  have hstep := keeps_pipelineStep hp state event c.addr.ip c hc
  rw [run_process]
  rcases h : ExceptT.run (pipelineStep env state event c.addr.ip) c with ⟨r, d⟩
  rw [h] at hstep
  cases r with
  | ok r | error e => exact hstep

theorem keeps_sendOutbound (outbound : List AuthOutbound) :
    KeepsIn Client.journal I p (sendOutbound env first requested outbound) := by
  induction outbound generalizing requested with
  | nil => exact .pure
  | cons packet rest ih =>
    cases packet with
    | encryptionRequest server key token =>
      simp only [sendOutbound]
      split
      · exact .bind (keeps_writeBuilt hp.steady fun _ _ => hp.requested key token) fun _ => ih
      · exact ih
    | setCompression threshold =>
      apply KeepsIn.bind (keeps_sendSetCompression hp.steady hp.compressed)
      intro _
      apply KeepsIn.bind _ fun _ => ih
      apply KeepsIn.of_silent
      · intro c hc
        change I (if compresses c.protocolVersion then _ else c)
        split
        · exact hp.steady c _ hc rfl rfl
        · exact hc
      · intro c
        change Client.journal (if compresses c.protocolVersion then _ else c) = _
        split <;> rfl
    | loginSuccess uuid username properties =>
      exact .bind (keeps_join hp.toJoinRoutine) fun _ => .pure
    | loginDisconnect reason => exact keeps_rejectLogin hp.toRoutine
    | enableEncryption secret =>
      apply KeepsIn.bind _ fun _ => ih
      exact keeps_modify (fun c hc => hp.steady c _ hc rfl rfl) fun _ => rfl

theorem keeps_authenticate : KeepsIn Client.journal I p (authenticate env username clientUuid) := by
  apply KeepsIn.bind (keeps_process hp)
  intro answer
  apply KeepsIn.bind (keeps_sendOutbound hp _)
  intro flow
  cases flow with
  | finished => exact .pure
  | awaiting requested =>
    cases requested with
    | false => exact .throw
    | true =>
      apply KeepsIn.get_bind
      intro c _
      apply KeepsIn.bind (keeps_readDecoded hp.steady)
      intro response
      apply KeepsIn.bind (keeps_process hp)
      intro answer
      apply KeepsIn.bind (keeps_sendOutbound hp _)
      intro flow
      cases flow with
      | finished => exact .pure
      | awaiting requested => exact .throw

theorem keeps_handleLogin : KeepsIn Client.journal I p (handleLogin env) := by
  apply KeepsIn.bind (keeps_readDecoded hp.steady)
  intro start
  apply KeepsIn.get_bind
  intro c _
  dsimp only
  split
  · exact keeps_rejectLogin hp.toRoutine
  · split
    · exact .throw
    · exact .bind (keeps_checkPreLogin hp.toRoutine) fun _ => keeps_authenticate hp

end Login

theorem keeps_legacyIdentity (hI : Steady I) (hres : ∀ answer, p (.resolved username answer)) :
    KeepsIn Client.journal I p (legacyIdentity env username) := by
  apply KeepsIn.bind (keeps_record hI (hres _))
  intro _
  split
  · exact .pure
  · split <;> exact .pure
  · exact .pure

theorem keeps_admitLegacy (hp : JoinRoutine env I p)
    (hres : ∀ answer, p (.resolved username answer))
    (hki : ∀ reason, p (.wrote (.legacyDisconnect reason))) :
    KeepsIn Client.journal I p (admitLegacy env username) := by
  have hwr (reason : String) :
      KeepsIn Client.journal I p (write env (.legacyDisconnect reason)) :=
    keeps_write hp.steady fun _ _ => hki reason
  apply KeepsIn.bind (keeps_legacyIdentity hp.steady hres)
  intro identity
  cases identity with
  | none => exact keeps_ignore (hwr _)
  | some uuid => exact .tryCatch (keeps_join hp) fun _ => hwr _

def Settled (protocol : UInt32) (c : Client) : Prop :=
  c.connState ≠ .handshaking ∧ c.protocolVersion = protocol

theorem steady_settled : Steady (Settled protocol) := by
  rintro c d ⟨hsta, hver⟩ hprot hconn
  exact ⟨hconn ▸ hsta, hprot.trans hver⟩

section Suits
variable {opening : Opening} {build : ClientPacket → List UInt8} {packet : ClientPacket}

theorem suits_framed (hcl : packet.call build = .packet raw)
    (hver : isPreNettyProto protocol = false) : opening.Suits build protocol packet := by
  intro hagr _
  rw [hcl, ← hagr, hver]
  rfl

theorem suits_raw (hcl : packet.call build = .legacyBytes raw)
    (hver : isPreNettyProto protocol = true) : opening.Suits build protocol packet := by
  intro hagr _
  rw [hcl, ← hagr, hver]
  rfl

theorem suits_anyway (hcl : packet.call build = .packet raw)
    (hse : (Sent.handler packet).framedAnyway = true) : opening.Suits build protocol packet := by
  intro _ hsite
  cases opening with
  | handshake =>
    rw [hcl]
    rfl
  | legacyLogin =>
    rw [hsite rfl] at hse
    cases hse

end Suits

variable {build : ClientPacket → List UInt8} {protocol : UInt32}

theorem joinRoutine_suits (opening : Opening) (hpack : ∀ protocol, protocol < 765 → env.resourcePack protocol = none) :
    JoinRoutine env (Settled protocol) (Act.Tells (opening.Suits build protocol)) where
  steady := steady_settled
  plays c hc := ⟨nofun, hc.2⟩
  wrote c packet hc hlogi hcom := by
    rintro _ ⟨⟩
    rw [← hc.2]
    cases hcom with
    | loginRequest h =>
      apply suits_raw rfl
      rw [isPreNettyProto, (ProtocolVersion.canonical_eq_v1_6_4_iff _).mp h]
      rfl
    | loginSuccess => cases hlogi
    | legacyDisconnect h => exact suits_raw rfl h
    | loginDisconnect h => exact suits_framed rfl h
    | playDisconnect | systemMessage => exact suits_anyway rfl rfl
    | resourcePack h =>
      apply suits_framed rfl
      by_contra hver
      rw [hpack _ (lt_of_isPreNettyProto (eq_true_of_not_eq_false hver))] at h
      cases h
  asked _ _ := nofun
  noticed _ := nofun
  removed _ := nofun
  succeeded c uuid username properties hc h := by
    rintro _ ⟨⟩
    apply suits_framed rfl
    rw [← hc.2, isPreNettyProto, decide_eq_false_iff_not]
    exact (ProtocolVersion.canonical_eq_v1_6_4_iff _).not.mp h
  inserted _ := nofun
  connecting _ := nofun

theorem loginRoutine_suits (hpack : ∀ protocol, protocol < 765 → env.resourcePack protocol = none) :
    LoginRoutine env (Settled protocol) (Act.Tells (Opening.handshake.Suits build protocol)) where
  toJoinRoutine := joinRoutine_suits .handshake hpack
  requested _ _ := by rintro _ ⟨⟩ _ _; rfl
  compressed _ := by rintro _ ⟨⟩ _ _; rfl
  verified _ := nofun

/-- What this run writes, it writes after the handshake, and it meets `q` with the number that the
client has announced by then. -/
def TellsFrom (q : UInt32 → ClientPacket → Prop) (c : Client) (x : Handler α) : Prop :=
  ∃ acts, (ExceptT.run x c).2.journal = c.journal ++ acts ∧
    ∀ packet, .wrote packet ∈ acts → (ExceptT.run x c).2.connState ≠ .handshaking ∧
      q (ExceptT.run x c).2.protocolVersion packet

theorem steady_handshaking : Steady fun c => c.connState = .handshaking := by
  rintro c d hc - hconn
  exact hconn.trans hc

abbrev Mute (x : Handler α) : Prop :=
  KeepsIn Client.journal (fun c => c.connState = .handshaking) (Act.Tells fun _ => False) x

namespace TellsFrom
variable {q : UInt32 → ClientPacket → Prop} {c : Client} {x : Handler α}

theorem of_settled (hc : Settled protocol c)
    (hx : KeepsIn Client.journal (Settled protocol) (Act.Tells (q protocol)) x) :
    TellsFrom q c x := by
  obtain ⟨⟨hsta, hver⟩, acts, hlog, hacts⟩ := hx c hc
  refine ⟨acts, hlog, ?_⟩
  intro packet hpkt
  rw [hver]
  exact ⟨hsta, hacts _ hpkt packet rfl⟩

theorem bind {f : α → Handler β} (hx : Mute x) (hc : c.connState = .handshaking)
    (hf : ∀ a d, ExceptT.run x c = (.ok a, d) → d.connState = .handshaking →
      TellsFrom q d (f a)) : TellsFrom q c (x >>= f) := by
  obtain ⟨hsta, acts, hlog, hmute⟩ := hx c hc
  unfold TellsFrom
  rw [run_bind]
  rcases h : ExceptT.run x c with ⟨r, d⟩
  rw [h] at hsta hlog
  cases r with
  | ok a =>
    obtain ⟨acts', hlog', htel⟩ := hf a d h hsta
    refine ⟨acts ++ acts', by rw [hlog', hlog, List.append_assoc], ?_⟩
    intro packet hpkt
    rcases List.mem_append.mp hpkt with hpkt | hpkt
    · cases hmute _ hpkt packet rfl
    · exact htel packet hpkt
  | error e =>
    refine ⟨acts, hlog, ?_⟩
    intro packet hpkt
    cases hmute _ hpkt packet rfl

theorem run (hq : ∀ protocol, Routine env (Settled protocol) (Act.Tells (q protocol)))
    (hinn : TellsFrom q c (runInner env)) : TellsFrom q c (run env) := by
  obtain ⟨acts, hlog, htel⟩ := hinn
  unfold TellsFrom
  rw [Handler.run, run_tryCatch]
  rcases h : ExceptT.run (runInner env) c with ⟨r, d⟩
  rw [h] at hlog htel
  cases r with
  | ok _ => exact ⟨acts, hlog, htel⟩
  | error e =>
    by_cases hsta : d.connState = .handshaking
    · have hki : ExceptT.run (sendGracefulKick env e) d = (.ok (), d) := by
        unfold sendGracefulKick
        split
        · rfl
        · rw [run_bind_ok _ (run_get d), hsta]
          rfl
      dsimp only
      rw [run_bind_ok _ hki]
      exact ⟨acts, hlog, htel⟩
    · have hki : KeepsIn Client.journal (Settled d.protocolVersion)
          (Act.Tells (q d.protocolVersion)) (do sendGracefulKick env e; throw e : Handler Unit) :=
        .bind (keeps_sendGracefulKick (hq _)) fun _ => .throw
      obtain ⟨⟨hsta', hver⟩, acts', hlog', hacts⟩ := hki d ⟨hsta, rfl⟩
      refine ⟨acts ++ acts', by rw [hlog', hlog, List.append_assoc], ?_⟩
      intro packet hpkt
      rw [hver]
      rcases List.mem_append.mp hpkt with hpkt | hpkt
      · exact ⟨hsta', (htel packet hpkt).2⟩
      · exact ⟨hsta', hacts _ hpkt packet rfl⟩

theorem handleModern {h : ServerboundHandshake}
    (hq : ∀ protocol, LoginRoutine env (Settled protocol) (Act.Tells (q protocol)))
    (hstat : ∀ protocol json, q protocol (.statusResponse json))
    (hpong : ∀ protocol payload, q protocol (.pongResponse payload)) :
    TellsFrom q c (handleModern env h) := by
  let numbered : Client := { c with protocolVersion := h.protocolVersion.toUInt32 }
  have hnum : ExceptT.run (modify fun c : Client =>
      { c with protocolVersion := h.protocolVersion.toUInt32 } : Handler Unit) c =
      (.ok (), numbered) := rfl
  have hsta (state : ConnectionState) : ExceptT.run (setState state) numbered =
      (.ok (), { numbered with connState := state }) := rfl
  have hset {state : ConnectionState} (hne : state ≠ .handshaking) :
      Settled numbered.protocolVersion { numbered with connState := state } := ⟨hne, rfl⟩
  unfold TellsFrom
  rw [Handler.handleModern, run_bind_ok _ hnum]
  split
  · rw [run_bind_ok _ (hsta .status)]
    refine of_settled (hset (by decide)) (keeps_handleStatus (hq _).toRoutine ?_ ?_)
    · rintro json _ ⟨⟩
      exact hstat _ json
    · rintro payload _ ⟨⟩
      exact hpong _ payload
  · split
    · rw [run_bind_ok _ (hsta .login)]
      exact of_settled (hset (by decide)) (keeps_handleLogin (hq _))
    · exact ⟨[], (List.append_nil _).symm, by simp⟩

theorem handleLegacyLogin (hc : c.connState = .handshaking)
    (hq : ∀ protocol, JoinRoutine env (Settled protocol) (Act.Tells (q protocol)))
    (hki : ∀ protocol reason, q protocol (.legacyDisconnect reason)) :
    TellsFrom q c (handleLegacyLogin env) := by
  have hrd : Mute readLegacyHandshake := by
    apply KeepsIn.bind (keeps_readWithin steady_handshaking)
    intro body
    split <;> exact .pure
  rw [handleLegacyLogin_eq]
  apply bind hrd hc
  intro handshake d _ _
  cases handshake with
  | none => exact ⟨[], (List.append_nil _).symm, nofun⟩
  | some handshake =>
    let joined : Client :=
      { d with protocolVersion := handshake.protocolVersion.toUInt32, connState := .login }
    have hjoin : ExceptT.run (modify fun c : Client =>
        { c with protocolVersion := handshake.protocolVersion.toUInt32, connState := .login } :
          Handler Unit) d = (.ok (), joined) := rfl
    unfold TellsFrom
    dsimp only
    rw [joinLegacy, run_bind_ok _ hjoin]
    refine of_settled (c := joined) ⟨nofun, rfl⟩
      (keeps_admitLegacy (hq _) (fun _ => nofun) ?_)
    rintro reason _ ⟨⟩
    exact hki _ reason

end TellsFrom

theorem mute_readFirst : Mute (readFirst env) := by
  have hpro (peek : UInt8) (bedrock : Bool) : Mute (do
      if bedrock then return .bedrock
      else if peek = 0x02 then return .legacyLogin
      else return .modern (← readHandshake env [peek]) : Handler FirstPacket) := by
    split
    · exact .pure
    · split
      · exact .pure
      · apply KeepsIn.bind _ fun _ => .pure
        apply KeepsIn.bind
        · exact keeps_modify (fun c hc => steady_handshaking c _ hc rfl rfl) fun _ => rfl
        · intro _
          exact .bind (keeps_readDecoded steady_handshaking) fun _ => .pure
  apply KeepsIn.bind (keeps_onStream steady_handshaking)
  intro r
  dsimp only
  split
  · rename_i peek
    apply KeepsIn.bind (keeps_record steady_handshaking nofun)
    intro _
    split
    · exact .pure
    · split
      · exact .bind (keeps_peekLooksLikeBedrock steady_handshaking) fun _ => hpro peek _
      · exact .bind .pure fun _ => hpro peek _
  · exact .throw

theorem run_timeout_eq_ok {x : Reader α}
    (h : ExceptT.run (onStream (timeout ms x)) c = (.ok (some (.ok a)), d)) :
    ∃ t, x.run { c.stream with budget := some ms } = (.ok a, t) := by
  change (Except.ok (timeout ms x c.stream).1, { c with stream := (timeout ms x c.stream).2 }) = _
    at h
  rw [timeout] at h
  rcases hx : x.run { c.stream with budget := some ms } with ⟨r, t⟩
  rw [hx] at h
  rcases r with (_ | e) | a'
  · cases h
  · cases h
  · cases h
    exact ⟨t, rfl⟩

theorem readFirst_ok (h : ExceptT.run (readFirst env) c = (.ok first, d)) :
    ∃ peek rest, c.stream.available = peek :: rest ∧
      (peek = 0x02 → first = .legacyLogin) ∧
      (peek ≠ 0xFE → peek ≠ 0x05 → peek ≠ 0x02 → ∃ handshake, first = .modern handshake) := by
  obtain ⟨r, c₁, hrd, h⟩ := run_bind_eq_ok h
  rcases r with _ | (e | peek)
  · cases h
  · cases h
  obtain ⟨t, hrd⟩ := run_timeout_eq_ok hrd
  refine ⟨peek, t.available,
    Reader.readU8_ok (s := { c.stream with budget := some 5000 }) hrd, ?_, ?_⟩
  · rintro rfl
    cases h
    rfl
  · intro hpg hpro hlogi
    obtain ⟨_, c₂, -, h⟩ := run_bind_eq_ok h
    rw [if_neg hpg, if_neg hpro, pure_bind] at h
    dsimp only at h
    rw [if_neg Bool.false_ne_true, if_neg hlogi] at h
    obtain ⟨handshake, c₃, -, h⟩ := run_bind_eq_ok h
    cases h
    exact ⟨handshake, rfl⟩

end Handler

namespace Connection
variable (x : Connection)

/-- Whatever the handler writes goes to a client whose number it has got, in the form of the
client's first packet if that number fits it. -/
theorem handler_suits {opening : Opening} (hope : opening.Opens x.firstBytes)
    (hpg : x.firstBytes.head? ≠ some 0xFE) (hwro : .wrote packet ∈ x.last.journal) :
    x.last.connState ≠ .handshaking ∧
      opening.Suits x.build x.last.protocolVersion packet := by
  have htel : Handler.TellsFrom (opening.Suits x.build) (.new x.arrivals x.addr)
      (Handler.run x.env) := by
    apply Handler.TellsFrom.run
    · intro protocol
      exact (Handler.joinRoutine_suits opening x.pack).toRoutine
    · rw [Handler.runInner_eq]
      apply Handler.TellsFrom.bind (Handler.keeps_readProxyHeaders Handler.steady_handshaking) rfl
      intro _ c hhdrs hc
      apply Handler.TellsFrom.bind Handler.mute_readFirst hc
      intro first d hfst hd
      obtain ⟨peek, rest, hbs, hleg, hmod⟩ := Handler.readFirst_ok hfst
      have hstrm : x.firstBytes = peek :: rest := by
        rw [firstBytes, hhdrs]
        exact hbs
      rw [hstrm] at hope hpg
      cases opening with
      | legacyLogin =>
        obtain ⟨_, hope⟩ := hope
        cases hope
        rw [hleg rfl]
        apply Handler.TellsFrom.handleLegacyLogin hd
        · intro protocol
          exact Handler.joinRoutine_suits .legacyLogin x.pack
        · intro protocol reason _ _
          rfl
      | handshake =>
        obtain ⟨h, haddr, tail, hope⟩ := hope
        obtain ⟨hmin, hmax⟩ := ServerboundHandshake.length_encode haddr
        obtain ⟨first', later, hfrm, -, hpro, hlogi⟩ := encodeFrame_first hmax
        rw [hfrm] at hope
        cases hope
        have hpeek : peek ≠ 0xFE := fun hpeek => hpg (congrArg some hpeek)
        obtain ⟨handshake, rfl⟩ := hmod hpeek (by rw [Ne, hpro]; omega) (by rw [Ne, hlogi]; omega)
        apply Handler.TellsFrom.handleModern
        · intro protocol
          exact Handler.loginRoutine_suits x.pack
        · intro protocol json _ _
          rfl
        · intro protocol payload _ _
          rfl
  obtain ⟨acts, hlog, hacts⟩ := htel
  apply hacts packet
  rwa [last, hlog] at hwro

inductive Origin : Sent → Prop
  | handler : .wrote packet ∈ x.last.journal → Origin (.handler packet)
  | session : x.announced = some protocol → SessionStage.Writes protocol stage packet stage' →
      Origin (.session packet)

theorem origin_of_step (h : x.Step c new c') : c'.sent = c.sent ++ new ∧ ∀ s ∈ new, x.Origin s := by
  cases h with
  | @act acts a sent hacts =>
    refine ⟨rfl, ?_⟩
    intro s hs
    have ha : a ∈ x.last.journal :=
      hacts.subset (List.mem_append_right _ (List.mem_singleton_self a))
    cases a with
    | wrote packet =>
      rw [List.mem_singleton.mp hs]
      exact .handler ha
    | _ => cases hs
  | move =>
    refine ⟨(List.append_nil _).symm, ?_⟩
    intro s hs
    cases hs
  | write hann hwrs =>
    refine ⟨rfl, ?_⟩
    intro s hs
    rw [List.mem_singleton.mp hs]
    exact .session hann hwrs

theorem origin_of_run {p : Sent → Prop} (h : x.Runs p c) : ∀ s ∈ c.sent, x.Origin s ∧ p s := by
  induction h with
  | refl =>
    intro s hs
    cases hs
  | tail _ hstep ih =>
    obtain ⟨new, hstep, hnew⟩ := hstep
    obtain ⟨hse, hori⟩ := x.origin_of_step hstep
    intro s hs
    rw [hse] at hs
    rcases List.mem_append.mp hs with hs | hs
    · exact ih s hs
    · exact ⟨hori s hs, hnew s hs⟩

theorem announced_eq_some (h : x.announced = some protocol) :
    x.last.connState ≠ .handshaking ∧ x.last.protocolVersion = protocol := by
  rw [announced] at h
  split at h
  · cases h
  · rename_i hsta
    exact ⟨hsta, Option.some.inj h⟩

end Connection

/-- Every packet of a connection has the form of the client's first packet, in every run in which
the announced number fits that packet, it does not begin like a legacy ping, and a pre-netty client
is sent nothing that is framed whatever the version. -/
theorem framing_consistent (x : Connection) (opening : Opening)
    (hopens : opening.Opens x.firstBytes) (hping : x.firstBytes.head? ≠ some 0xFE)
    (hnumber : ∀ protocol, x.announced = some protocol →
      isPreNettyProto protocol = opening.isLegacy)
    (c : Conversation)
    (hrun : x.Runs (fun s => opening = .legacyLogin → s.framedAnyway = false) c) :
    ∀ s ∈ c.sent, ∀ threshold, opening.Frames ((x.call s).raw x.last.protocolVersion)
      ((x.call s).bytes x.deflate x.last.protocolVersion threshold) := by
  intro s hs threshold
  obtain ⟨horigin, hsite⟩ := x.origin_of_run hrun s hs
  apply WriteCall.frames
  cases horigin with
  | handler hwrote =>
    obtain ⟨hstate, hsuits⟩ := x.handler_suits hopens hping hwrote
    apply hsuits _ hsite
    apply hnumber
    rw [Connection.announced, if_neg hstate]
  | session hannounced hwrites =>
    obtain ⟨-, rfl⟩ := x.announced_eq_some hannounced
    exact hwrites.framed (hnumber _ hannounced) hsite

namespace Connection

theorem runs_acts (x : Connection) {p : Sent → Prop} (hacts : acts <+: x.last.journal)
    (hp : ∀ s ∈ acts.flatMap Act.sent, p s) :
    x.Runs p ⟨acts, .handler, acts.flatMap Act.sent⟩ := by
  induction acts using List.reverseRecOn with
  | nil => exact .refl
  | append_singleton acts a ih =>
    rw [List.flatMap_append, List.flatMap_singleton] at hp ⊢
    apply Relation.ReflTransGen.tail (ih ((List.prefix_append _ _).trans hacts) _)
    · refine ⟨a.sent, .act hacts, ?_⟩
      intro s hs
      exact hp s (List.mem_append_right _ hs)
    · intro s hs
      exact hp s (List.mem_append_left _ hs)

theorem Runs.move {x : Connection} {p : Sent → Prop} (h : x.Runs p ⟨acts, stage, sent⟩)
    (hann : x.announced = some protocol) (hnx : SessionStage.Next protocol stage stage') :
    x.Runs p ⟨acts, stage', sent⟩ := h.tail ⟨[], .move hann hnx, nofun⟩

theorem Runs.write {x : Connection} {p : Sent → Prop} (h : x.Runs p ⟨acts, stage, sent⟩)
    (hann : x.announced = some protocol)
    (hwrs : SessionStage.Writes protocol stage packet stage') (hp : p (.session packet)) :
    x.Runs p ⟨acts, stage', sent ++ [.session packet]⟩ := by
  apply h.tail
  refine ⟨_, .write hann hwrs, ?_⟩
  intro s hs
  rwa [List.mem_singleton.mp hs]

def plain (onlineMode : Bool) (arrivals : List Arrival) : Connection where
  env := { onlineEnv with config := { onlineEnv.config with
    auth := { onlineEnv.config.auth with onlineMode } } }
  arrivals := arrivals
  addr := clientAddr
  deflate raw := raw
  build _ := [2]
  pack _ _ := rfl

end Connection

theorem framing_consistent_limbo : ∃ c : Conversation, c.sent.length = 2 ∧
    ∀ s ∈ c.sent, ∀ threshold, Opening.legacyLogin.Frames
      (((Connection.plain true legacyLogin).call s).raw
        (Connection.plain true legacyLogin).last.protocolVersion)
      (((Connection.plain true legacyLogin).call s).bytes
        (Connection.plain true legacyLogin).deflate
        (Connection.plain true legacyLogin).last.protocolVersion threshold) := by
  let x := Connection.plain true legacyLogin
  have hannounced : x.announced = some 78 := by decide +kernel
  have hquiet : ∀ s ∈ (x.last.journal.take 7).flatMap Act.sent, s.framedAnyway = false := by
    decide +kernel
  have hlogin : x.Runs (fun s => Opening.legacyLogin = .legacyLogin → s.framedAnyway = false) _ :=
    x.runs_acts (List.take_prefix 7 _) fun s hs _ => hquiet s hs
  have hlimbo : SessionStage.Next 78 .handler (.limbo false (limboEntry 78 false false)) :=
    .noBackend
  have hspawn (entry : List LimboPacket) : SessionStage.Writes 78
      (.limbo false (.spawnPosition :: entry)) (.limbo .spawnPosition 6 []) (.limbo false entry) :=
    .entry nofun
  have hentry := ((hlogin.move hannounced hlimbo).move hannounced .notBuilt).write hannounced
    (hspawn _) fun _ => rfl
  refine ⟨_, ?_, framing_consistent x .legacyLogin ⟨_, rfl⟩ (by decide +kernel) ?_ _ hentry⟩
  · decide +kernel
  · intro protocol hprotocol
    rw [hannounced] at hprotocol
    cases hprotocol
    decide +kernel

theorem toNat_of_encodeFrame (h : encodeFrame body = first :: tail) (hsh : tail.length < 128) :
    first.toNat = tail.length := by
  have hlens : ∀ n : Fin 128, encodeVarInt (Int32.ofNat n) = [UInt8.ofNat n] := by
    decide +kernel
  have hlen := congrArg List.length h
  have hpos := length_encodeVarInt_pos (Int32.ofNat body.length)
  rw [encodeFrame, List.length_append, List.length_cons] at hlen
  have hbd : body.length < 128 := by omega
  rw [encodeFrame, hlens ⟨body.length, hbd⟩] at h
  cases h
  exact UInt8.toNat_ofNat_of_lt' (Nat.lt_trans hbd (by decide))

def Connection.Consistent (x : Connection) (opening : Opening) : Prop :=
  ∀ c, x.Runs (fun _ => True) c → ∀ s ∈ c.sent, ∀ threshold,
    opening.Frames ((x.call s).raw x.last.protocolVersion)
      ((x.call s).bytes x.deflate x.last.protocolVersion threshold)

variable {x : Connection}

theorem Connection.not_consistent {opening : Opening}
    (hs : s ∈ (x.last.journal.take n).flatMap Act.sent)
    (h : ¬opening.Frames ((x.call s).raw x.last.protocolVersion)
      ((x.call s).bytes x.deflate x.last.protocolVersion (-1))) : ¬x.Consistent opening :=
  fun hx => h (hx _ (x.runs_acts (List.take_prefix n _) fun _ _ => trivial) s hs (-1))

theorem Connection.not_consistent_limbo (h : x.announced = some protocol) :
    ¬x.Consistent .legacyLogin := by
  intro hx
  have hst : x.Runs (fun _ => True) ⟨x.last.journal, .handler, _⟩ :=
    x.runs_acts (List.prefix_refl _) fun _ _ => trivial
  have hlim : SessionStage.Next protocol .handler
      (.limbo false (limboEntry protocol false false)) := .noBackend
  have hki := (hst.move h hlim).write h
    (.limboError : SessionStage.Writes protocol _ (.limboError [0xFF, 1, 0, 0]) _) trivial
  have hbs : encodeFrame [0xFF, 1, 0, 0] = [0xFF, 1, 0, 0] :=
    hx _ hki _ (List.mem_append_right _ (List.mem_singleton_self _)) (-1)
  revert hbs
  decide

def nettyLogin78 : List Arrival := [.bytes 7 [0, 78, 1, 97, 1, 2, 2, 3, 0, 1, 65]]

def legacyLogin47 : List Arrival := [.bytes 2 [47, 0, 1, 0, 65, 0, 0, 0, 0, 0, 0]]

/-- The number and not the first packet decides about the frames, and the kick out of limbo has one
in any case. -/
theorem framing_inconsistent :
    (Opening.handshake.Opens (Connection.plain false nettyLogin78).firstBytes ∧
      ¬(Connection.plain false nettyLogin78).Consistent .handshake) ∧
    (Opening.legacyLogin.Opens (Connection.plain true legacyLogin47).firstBytes ∧
      ¬(Connection.plain true legacyLogin47).Consistent .legacyLogin) ∧
    (Opening.legacyLogin.Opens (Connection.plain true legacyLogin).firstBytes ∧
      ¬(Connection.plain true legacyLogin).Consistent .legacyLogin) := by
  refine ⟨⟨?_, ?_⟩, ⟨⟨_, rfl⟩, ?_⟩, ⟨⟨_, rfl⟩, ?_⟩⟩
  · have hopens : encodeFrame (ServerboundHandshake.encode ⟨78, "a", 0x0102, 2⟩) ++ [3, 0, 1, 65] =
        (Connection.plain false nettyLogin78).firstBytes := by decide +kernel
    exact ⟨_, by decide +kernel, _, hopens⟩
  · have hsent : ∃ s ∈ ((Connection.plain false nettyLogin78).last.journal.take 2).flatMap Act.sent,
        ((Connection.plain false nettyLogin78).call s).bytes
          (Connection.plain false nettyLogin78).deflate
          (Connection.plain false nettyLogin78).last.protocolVersion (-1) =
            [1, 0, 0, 0, 0, 0, 4, 0, 102, 0, 108, 0, 97, 0, 116, 3, 0, 0, 0, 20] := by
      decide +kernel
    obtain ⟨s, hs, hbytes⟩ := hsent
    apply Connection.not_consistent hs
    rintro ⟨body, hframe⟩
    rw [hbytes] at hframe
    cases toNat_of_encodeFrame hframe.symm (by decide)
  · have hsent : ∃ s ∈ ((Connection.plain true legacyLogin47).last.journal.take 3).flatMap Act.sent,
        ((Connection.plain true legacyLogin47).call s).bytes
          (Connection.plain true legacyLogin47).deflate
          (Connection.plain true legacyLogin47).last.protocolVersion (-1) ≠
            ((Connection.plain true legacyLogin47).call s).raw
              (Connection.plain true legacyLogin47).last.protocolVersion := by decide +kernel
    obtain ⟨s, hs, hbytes⟩ := hsent
    exact Connection.not_consistent hs hbytes
  · have hannounced : (Connection.plain true legacyLogin).announced = some 78 := by decide +kernel
    exact Connection.not_consistent_limbo hannounced

end Kojacoord
