import Kojacoord.Net.HeaderReaders
import Kojacoord.Net.Identity
import Kojacoord.Net.VarInt
import Mathlib.Algebra.Order.BigOperators.Group.List

namespace Kojacoord
open Journal RoundTrip ServerboundHandshake Decode List

inductive FirstPacket where
  | legacyPing
  | bedrock
  | legacyLogin
  | modern (handshake : ServerboundHandshake)

namespace Handler
variable (env : Env)

def readHandshake (peeked : List UInt8) : Handler ServerboundHandshake := do
  modify fun c => { c with stream := { c.stream with pushed := c.stream.pushed ++ peeked } }
  let (handshake, _) ← readDecoded env "handshake timed out" do
    let _ ← varInt
    ServerboundHandshake.decode
  return handshake

def readFirst : Handler FirstPacket := do
  match ← onStream (timeout 5000 Reader.readU8) with
  | some (.ok peek) =>
    record (.peeked peek)
    if peek = 0xFE then return .legacyPing
    else
      let bedrock ← if peek = 0x05 then peekLooksLikeBedrock else pure false
      if bedrock then return .bedrock
      else if peek = 0x02 then return .legacyLogin
      else return .modern (← readHandshake env [peek])
  | _ => throw (.io .timedOut "connection timed out")

def handleModern (handshake : ServerboundHandshake) : Handler Unit := do
  modify fun c => { c with protocolVersion := handshake.protocolVersion.toUInt32 }
  if handshake.nextState = 1 then
    setState .status
    handleStatus env
  else if handshake.nextState = 2 then
    setState .login
    handleLogin env
  else throw .closed

def handleFirst : FirstPacket → Handler Unit
  | .legacyPing => handleLegacyPing env
  | .bedrock => handleBedrockUnsupported env
  | .legacyLogin => handleLegacyLogin env
  | .modern handshake => handleModern env handshake

theorem handleHandshake_eq :
    handleHandshake env peeked = readHandshake env peeked >>= handleModern env := by
  simp only [handleHandshake, readHandshake, handleModern, bind_assoc, pure_bind]

theorem runInner_eq :
    runInner env = (readProxyHeaders env >>= fun _ => readFirst env >>= handleFirst env) := by
  have hdis (peek : UInt8) (bedrock : Bool) :
      (if bedrock then handleBedrockUnsupported env
        else if peek = 0x02 then handleLegacyLogin env else handleHandshake env [peek]) =
      (if bedrock then pure .bedrock else if peek = 0x02 then pure .legacyLogin
        else (.modern <$> readHandshake env [peek])) >>= handleFirst env := by
    cases bedrock with
    | true => rfl
    | false =>
      by_cases hlog : peek = 0x02
      · simp only [if_pos hlog]
        rfl
      · simp only [if_neg hlog, handleHandshake_eq, map_eq_pure_bind, Bool.false_eq_true,
          if_false, bind_assoc, pure_bind]
        rfl
  simp only [runInner, readFirst, bind_assoc]
  congr 1
  funext _
  congr 1
  funext result
  rcases result with _ | (e | peek)
  · rfl
  · rfl
  · simp only [bind_assoc]
    by_cases hpg : peek = 0xFE
    · simp only [if_pos hpg]
      rfl
    · by_cases hpro : peek = 0x05
      · simp only [if_neg hpg, if_pos hpro, hdis, bind_assoc, map_eq_pure_bind]
      · simp only [if_neg hpg, if_neg hpro, hdis, bind_assoc, map_eq_pure_bind]

end Handler

namespace ServerboundHandshake

def encode (h : ServerboundHandshake) : List UInt8 :=
  encodeVarInt 0 ++ (encodeVarInt h.protocolVersion ++
    (encodeVarInt (Int32.ofNat h.serverAddress.toUTF8.data.toList.length) ++
      (h.serverAddress.toUTF8.data.toList ++
        (Encode.u16 h.serverPort ++ encodeVarInt h.nextState))))

theorem reads_takeFor (missing : String) (bytes : List UInt8) :
    Reads (takeFor bytes.length missing) bytes bytes := by
  intro rest
  rw [takeFor, if_neg (by rw [length_append]; omega)]
  exact reads_take rfl rest

theorem reads_decode (h : ServerboundHandshake)
    (hft : h.serverAddress.toUTF8.data.toList.length ≤ Reader.maxPacketSize) :
    Reads (do let _ ← varInt; decode) h.encode h := by
  refine (reads_varInt 0).bind ((reads_varInt h.protocolVersion).bind ((reads_varInt _).bind ?_))
  rw [Reader.asUsize_ofNat hft]
  refine (reads_takeFor _ _).bind ?_
  rw [fromUTF8_bytes]
  refine (reads_takeFor _ (Encode.u16 h.serverPort)).bind
    ((reads_varInt h.nextState).finish ?_)
  rw [Encode.u16, bigEndian_encode h.serverPort.toNat_lt, UInt16.ofNat_toNat]
  exact .pure h

theorem utf8ByteSize_le (s : String) : s.utf8ByteSize ≤ 4 * s.length := by
  have hbs : s.toByteArray = s.toList.utf8Encode := by simp
  have hsiz : ∀ size ∈ s.toList.map fun c => (String.utf8EncodeChar c).length, size ≤ 4 := by
    intro size hsz
    obtain ⟨c, -, rfl⟩ := mem_map.mp hsz
    rw [String.length_utf8EncodeChar]
    exact c.utf8Size_le_four
  have hsum := sum_le_card_nsmul _ 4 hsiz
  rw [length_map, String.length_toList, nsmul_eq_mul, Nat.mul_comm] at hsum
  rw [← String.size_toByteArray, hbs, List.utf8Encode, size_toByteArray, length_flatMap]
  exact hsum

theorem length_address_le {h : ServerboundHandshake} (haddr : h.serverAddress.length ≤ 255) :
    h.serverAddress.toUTF8.data.toList.length ≤ 1020 := by
  have hsz := utf8ByteSize_le h.serverAddress
  change h.serverAddress.utf8ByteSize ≤ 1020
  omega

theorem length_encode {h : ServerboundHandshake} (haddr : h.serverAddress.length ≤ 255) :
    6 ≤ h.encode.length ∧ h.encode.length ≤ Reader.maxPacketSize := by
  have haddr := length_address_le haddr
  have hid : (encodeVarInt 0).length = 1 := by decide
  have hprot := length_encodeVarInt_le h.protocolVersion
  have hprot' := length_encodeVarInt_pos h.protocolVersion
  have hlen := length_encodeVarInt_le (Int32.ofNat h.serverAddress.toUTF8.data.toList.length)
  have hlen' := length_encodeVarInt_pos (Int32.ofNat h.serverAddress.toUTF8.data.toList.length)
  have hsta := length_encodeVarInt_le h.nextState
  have hsta' := length_encodeVarInt_pos h.nextState
  simp only [encode, length_append, Encode.u16, Encode.length_bigEndian, Reader.maxPacketSize, hid]
  omega

end ServerboundHandshake

theorem encodeFrame_first (h : body.length ≤ Reader.maxPacketSize) :
    ∃ first tail, encodeFrame body = first :: tail ∧
      (first = 0xFE ↔ 128 ≤ body.length ∧ body.length % 128 = 126) ∧
      (first = 0x05 ↔ body.length = 5) ∧ (first = 0x02 ↔ body.length = 2) := by
  have hbs : ∀ n : Fin 128, UInt8.ofNat n ≠ 0xFE ∧ (UInt8.ofNat n = 0x05 ↔ n.val = 5) ∧
      (UInt8.ofNat n = 0x02 ↔ n.val = 2) ∧ (UInt8.ofNat n ||| 0x80 = 0xFE ↔ n.val = 126) ∧
      UInt8.ofNat n ||| 0x80 ≠ 0x05 ∧ UInt8.ofNat n ||| 0x80 ≠ 0x02 := by decide +kernel
  obtain ⟨hpg, hpro, hlog, hpg', hpro', hlog'⟩ :=
    hbs ⟨body.length % 128, Nat.mod_lt _ (by decide)⟩
  obtain ⟨tail, hfrm⟩ := encodeFrame_head h
  by_cases hsh : body.length < 128
  · rw [if_pos hsh] at hfrm
    simp only [Nat.mod_eq_of_lt hsh] at hpg hpro hlog hfrm
    exact ⟨_, tail, hfrm, iff_of_false hpg (by omega), hpro, hlog⟩
  · rw [if_neg hsh] at hfrm
    refine ⟨_, tail, hfrm, ?_, iff_of_false hpro' (by omega), iff_of_false hlog' (by omega)⟩
    rw [hpg']
    exact ⟨fun hmod => ⟨by omega, hmod⟩, And.right⟩

theorem Reader.takes_decode {d : Decoder α} (h : d bytes = .ok (a, rest)) :
    Takes (decode d bytes) [] (a, rest) := by
  rw [decode, h]
  exact .pure _

theorem Reader.readU8_pushed (h : readU8.run s = (.ok byte, t)) (hs : s.pushed = []) : t.pushed = [] := by
  obtain ⟨bytes, u, hrd, h⟩ := run_bind_eq_ok h
  have hres := readResult 1 s
  rw [hrd] at hres
  have hu : u.pushed = [] := by
    generalize hpr : (Except.ok bytes, u) = pair at hres
    cases hres with
    | pushed hpsh => exact absurd hs hpsh
    | stopped => cases hpr
    | chunk | ended => cases hpr; exact hs
  cases bytes with
  | nil => cases h
  | cons => cases h; exact hu

namespace Handler
variable (env : Env) {c : Client}

theorem run_timeout_ok {x : Reader α} (h : x.run { c.stream with budget := some ms } = (.ok a, t)) :
    ExceptT.run (onStream (timeout ms x)) c =
      (.ok (some (.ok a)), { c with stream := { t with budget := none } }) := by
  change (Except.ok (timeout ms x c.stream).1, { c with stream := (timeout ms x c.stream).2 }) = _
  rw [timeout, h]

theorem run_readWithin_ok {x : Reader α}
    (h : x.run { c.stream with budget := some ms } = (.ok a, t)) :
    ExceptT.run (readWithin ms message x) c =
      (.ok a, { c with stream := { t with budget := none } }) := by
  rw [readWithin, run_bind_ok _ (run_timeout_ok h)]
  rfl

theorem readWithin_takes {x : Reader α} (hx : x.Takes bytes a)
    (hfw : c.stream.Flowing) (hbs : c.stream.available = bytes ++ rest) :
    ∃ t, ExceptT.run (readWithin ms message x) c = (.ok a, { c with stream := t }) ∧
      t.available = rest := by
  obtain ⟨t, hrun, -, hrs⟩ := hx { c.stream with budget := some ms } rest hfw hbs
  exact ⟨{ t with budget := none }, run_readWithin_ok hrun, hrs⟩

theorem readHandshake_takes {h : ServerboundHandshake} (peeked : List UInt8)
    (haddr : h.serverAddress.length ≤ 255) (hthr : c.compressionThreshold < 0)
    (hpsh : c.stream.pushed = []) (hfw : c.stream.Flowing)
    (hbs : peeked ++ c.stream.available = encodeFrame h.encode ++ rest) :
    ∃ t, ExceptT.run (readHandshake env peeked) c = (.ok h, { c with stream := t }) ∧
      t.available = rest := by
  let back : Client := { c with stream := { c.stream with pushed := c.stream.pushed ++ peeked } }
  have hbk : back.stream.available = encodeFrame h.encode ++ rest := by
    rw [← hbs]
    simp only [McStream.available, back, hpsh, nil_append]
  have hdec : (do let _ ← varInt; ServerboundHandshake.decode : Decoder _) h.encode =
      .ok (h, []) := by
    have hrds := reads_decode h
      (Nat.le_trans (length_address_le haddr) (by decide)) []
    rwa [append_nil] at hrds
  obtain ⟨t, hrun, hrs⟩ := readWithin_takes (c := back)
    ((Reader.takes_readPacket env.inflate hthr
      (length_encode haddr).2).finish (Reader.takes_decode hdec))
    hfw hbk
  refine ⟨t, ?_, hrs⟩
  have hmod : ExceptT.run (modify fun c : Client =>
      { c with stream := { c.stream with pushed := c.stream.pushed ++ peeked } } : Handler Unit) c =
      (.ok (), back) := rfl
  rw [readHandshake, run_bind_ok _ hmod, readDecoded, bind_assoc,
    run_bind_ok _ (run_get back), run_bind_ok _ hrun]
  rfl

theorem readFirst_ping (hbs : c.stream.available = 0xFE :: rest) (hfw : c.stream.Flowing) :
    ∃ t, ExceptT.run (readFirst env) c = (.ok .legacyPing,
      { c with stream := t, journal := c.journal ++ [.peeked 0xFE] }) := by
  obtain ⟨t, hrd, -⟩ :=
    Reader.takes_readU8 0xFE { c.stream with budget := some 5000 } rest hfw hbs
  refine ⟨{ t with budget := none }, ?_⟩
  rw [readFirst, run_bind_ok _ (run_timeout_ok hrd)]
  rfl

theorem readFirst_modern {h : ServerboundHandshake} (haddr : h.serverAddress.length ≤ 255)
    (hthr : c.compressionThreshold < 0) (hpsh : c.stream.pushed = [])
    (hfw : c.stream.Flowing) (hbs : c.stream.available = encodeFrame h.encode ++ rest)
    (hlen : h.encode.length < 128 ∨ h.encode.length % 128 ≠ 126) :
    ∃ d, ExceptT.run (readFirst env) c = (.ok (.modern h), d) ∧ d.stream.available = rest := by
  obtain ⟨hmin, hmax⟩ := length_encode haddr
  obtain ⟨peek, tail, hfrm, hpg, hpro, hlog⟩ := encodeFrame_first hmax
  have hpeek : c.stream.available = [peek] ++ (tail ++ rest) := by
    rw [hbs, hfrm]
    rfl
  obtain ⟨t, hrd, ht, hrs⟩ :=
    Reader.takes_readU8 peek { c.stream with budget := some 5000 } (tail ++ rest) hfw hpeek
  let peeked : Client := { c with
    stream := { t with budget := none }, journal := c.journal ++ [.peeked peek] }
  have hbk : [peek] ++ peeked.stream.available = encodeFrame h.encode ++ rest := by
    rw [hfrm]
    exact congrArg (List.cons peek) hrs
  have hemp : t.pushed = [] := Reader.readU8_pushed hrd hpsh
  obtain ⟨u, hrun', hrs'⟩ := readHandshake_takes env (c := peeked) [peek] haddr hthr hemp ht hbk
  refine ⟨{ peeked with stream := u }, ?_, hrs'⟩
  have hrec : ExceptT.run (record (.peeked peek))
      { c with stream := { t with budget := none } } = (.ok (), peeked) := rfl
  rw [readFirst, run_bind_ok _ (run_timeout_ok hrd)]
  dsimp only
  rw [run_bind_ok _ hrec, if_neg (by rw [hpg]; omega), if_neg (by rw [hpro]; omega),
    pure_bind, if_neg Bool.false_ne_true, if_neg (by rw [hlog]; omega), run_bind_ok _ hrun']
  rfl

end Handler

/-- A modern handshake is taken for one, and read as the client wrote it, unless the first byte of
its length is that of a legacy ping. -/
theorem modern_handshake_iff (env : Env) (c : Client) (h : ServerboundHandshake)
    (rest : List UInt8) (haddress : h.serverAddress.length ≤ 255)
    (hthreshold : c.compressionThreshold = noCompression) (hpushed : c.stream.pushed = [])
    (hflow : c.stream.Flowing) (hbytes : c.stream.available = encodeFrame h.encode ++ rest) :
    (∃ d, ExceptT.run (Handler.readFirst env) c = (.ok (.modern h), d) ∧
      d.stream.available = rest) ↔ h.encode.length < 128 ∨ h.encode.length % 128 ≠ 126 := by
  constructor
  · rintro ⟨d, hrun, -⟩
    by_contra hlength
    obtain ⟨peek, tail, hframe, hping, -⟩ :=
      encodeFrame_first (length_encode haddress).2
    rw [hping.mpr (by omega)] at hframe
    obtain ⟨t, hping⟩ := Handler.readFirst_ping env (hbytes.trans (by rw [hframe]; rfl)) hflow
    rw [hping] at hrun
    cases hrun
  · exact Handler.readFirst_modern env haddress (by rw [hthreshold]; decide) hpushed hflow hbytes

theorem modern_handshake_chunks :
    ∃ d, ExceptT.run (Handler.readFirst onlineEnv)
      (.new [.bytes 7 [0, 47, 1], .bytes 97 [1, 2, 2, 3, 0]] clientAddr) =
        (.ok (.modern ⟨47, "a", 0x0102, 2⟩), d) ∧ d.stream.available = [3, 0] := by
  have hflow : (McStream.plain [.bytes 7 [0, 47, 1], .bytes 97 [1, 2, 2, 3, 0]]).Flowing := by
    simp [McStream.Flowing, McStream.plain]
  exact (modern_handshake_iff onlineEnv (.new _ clientAddr) ⟨47, "a", 0x0102, 2⟩ [3, 0]
    (by decide +kernel) rfl rfl hflow (by decide +kernel)).mpr (.inl (by decide +kernel))

def longHandshake : ServerboundHandshake :=
  ⟨760, .ofList (List.replicate 246 'a'), 25565, 2⟩

/-- The length of a packet may begin with the byte of a legacy ping. -/
theorem long_handshake_taken_for_ping : longHandshake.serverAddress.length = 246 ∧
    ¬∃ d, ExceptT.run (Handler.readFirst onlineEnv)
      (.new (Reader.putBack (encodeFrame longHandshake.encode) []) clientAddr) =
        (.ok (.modern longHandshake), d) := by
  have hlength : longHandshake.encode.length = 254 := by decide +kernel
  have hfits : longHandshake.encode.length ≤ Reader.maxPacketSize := by rw [hlength]; decide
  obtain ⟨first, tail, hframe, hping, -⟩ := encodeFrame_first hfits
  rw [hping.mpr (by rw [hlength]; decide)] at hframe
  refine ⟨by rw [longHandshake, String.length_ofList, length_replicate], ?_⟩
  rintro ⟨d, hrun⟩
  rw [hframe] at hrun
  have hbytes : (McStream.plain [.bytes 0xFE tail]).available = 0xFE :: tail := by
    simp [McStream.plain, McStream.available, Arrival.available]
  obtain ⟨t, hping⟩ := Handler.readFirst_ping onlineEnv (c := .new [.bytes 0xFE tail] clientAddr)
    hbytes (by simp [Client.new, McStream.plain, McStream.Flowing])
  cases hping.symm.trans hrun

namespace Handler
variable (env : Env)

def readLegacyHandshake : Handler (Option HandshakeC2S) := do
  let body ← readWithin 5000 "legacy handshake timed out" (Reader.read 1024)
  match HandshakeC2S.decode body with
  | .error _ => return none
  | .ok (handshake, _) => return some handshake

def admitLegacy (username : String) : Handler Unit := do
  match ← legacyIdentity env username with
  | none =>
    ignore (write env (.legacyDisconnect (env.plaintext (redLiteral
      ("This server requires a Minecraft.net account. The username you joined with isn't " ++
        "registered.")))))
  | some uuid =>
    tryCatch (finaliseLogin env uuid username []) fun _ =>
      write env (.legacyDisconnect (env.plaintext (redLiteral
        "1.6.4 login is not yet supported by this proxy. Use 1.7+ to connect.")))

def joinLegacy (handshake : HandshakeC2S) : Handler Unit := do
  modify fun c =>
    { c with protocolVersion := handshake.protocolVersion.toUInt32, connState := .login }
  admitLegacy env handshake.username

theorem handleLegacyLogin_eq :
    handleLegacyLogin env = readLegacyHandshake >>= fun handshake =>
      match handshake with
      | none => return ()
      | some handshake => joinLegacy env handshake := by
  rw [handleLegacyLogin, readLegacyHandshake, bind_assoc]
  congr 1
  funext body
  rcases HandshakeC2S.decode body with e | ⟨handshake, rest⟩
  · rfl
  · symm
    apply pure_bind

end Handler

/-- The login packet of a pre-netty client gets through, and what follows it with it, exactly when
the one read of the socket comes to the packet. -/
theorem legacy_login_iff (c : Client) (handshake : HandshakeC2S) (body rest : List UInt8)
    (hflow : c.stream.Flowing) (hbytes : c.stream.available = body ++ rest)
    (hbody : HandshakeC2S.decode body = .ok (handshake, [])) :
    (∃ d, ExceptT.run Handler.readLegacyHandshake c = (.ok (some handshake), d) ∧
      d.stream.available = rest) ↔ c.stream.chunk.take 1024 = body := by
  obtain ⟨t, hread, -⟩ :=
    Reader.read_flowing 1024 (s := { c.stream with budget := some 5000 }) hflow
  have hsplit : c.stream.available = c.stream.chunk.take 1024 ++ t.available :=
    Reader.read_ok (s := { c.stream with budget := some 5000 }) hread
  rw [hbytes] at hsplit
  rw [Handler.readLegacyHandshake, run_bind_ok _ (Handler.run_readWithin_ok hread)]
  constructor
  · rintro ⟨d, hrun, hrest⟩
    have hstream : d.stream.available = t.available := by
      split at hrun
      · cases hrun
      · cases hrun
        rfl
    rw [← hstream, hrest] at hsplit
    exact (append_cancel_right hsplit).symm
  · intro hchunk
    rw [hchunk] at hsplit
    have hrest : t.available = rest := (append_cancel_left hsplit).symm
    have hchunk : ({ c.stream with budget := some 5000 } : McStream).chunk.take 1024 = body :=
      hchunk
    rw [hchunk, hbody]
    exact ⟨_, rfl, hrest⟩

def legacyBody : List UInt8 := [78, 0, 1, 0, 65, 0, 0, 0, 0, 0, 0]

theorem decode_legacyBody : HandshakeC2S.decode legacyBody = .ok (⟨78, "A", "", 0⟩, []) := rfl

theorem legacy_login_whole :
    ∃ d, ExceptT.run Handler.readLegacyHandshake
      (.new [.bytes 78 [0, 1, 0, 65, 0, 0, 0, 0, 0, 0], .bytes 0xCD [0]] clientAddr) =
        (.ok (some ⟨78, "A", "", 0⟩), d) ∧ d.stream.available = [0xCD, 0] := by
  have hflow : (McStream.plain
      [.bytes 78 [0, 1, 0, 65, 0, 0, 0, 0, 0, 0], .bytes 0xCD [0]]).Flowing := by
    simp [McStream.Flowing, McStream.plain]
  exact (legacy_login_iff (.new _ clientAddr) ⟨78, "A", "", 0⟩ legacyBody [0xCD, 0] hflow rfl
    decode_legacyBody).mpr rfl

/-- In two pieces it is no login, and the next packet in the same piece is lost. -/
theorem legacy_login_chunked :
    (¬∃ d, ExceptT.run Handler.readLegacyHandshake
      (.new [.bytes 78 [0, 1], .bytes 0 [65, 0, 0, 0, 0, 0, 0]] clientAddr) =
        (.ok (some ⟨78, "A", "", 0⟩), d)) ∧
    (ExceptT.run Handler.readLegacyHandshake
      (.new [.bytes 78 [0, 1, 0, 65, 0, 0, 0, 0, 0, 0, 0xCD, 0]] clientAddr)).2.stream.available ≠
        [0xCD, 0] := by
  refine ⟨?_, by decide +kernel⟩
  rintro ⟨d, hrun⟩
  have hnone : (ExceptT.run Handler.readLegacyHandshake
      (.new [.bytes 78 [0, 1], .bytes 0 [65, 0, 0, 0, 0, 0, 0]] clientAddr)).1 = .ok none := rfl
  rw [hrun] at hnone
  cases hnone

end Kojacoord
