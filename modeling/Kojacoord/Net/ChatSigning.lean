import Kojacoord.Net.PluginMessages

namespace Kojacoord
open RoundTrip Decode ProtocolVersion

def Decode.u64 : Decoder UInt64 := do
  return .ofNat (bigEndian (← take 8))

def Encode.u64 (v : UInt64) : List UInt8 := bigEndian 8 v.toNat

namespace ChatSigning

abbrev Stripper := Parser UInt8 String

def decoding (field : String) (d : Decoder α) : Stripper α := fun src =>
  match d src with
  | .ok r => .ok r
  | .error e => .error ("Failed to decode " ++ field ++ ": " ++ e.display)

def encoding (field : String) (bytes : Except ProtocolError (List UInt8)) :
    Stripper (List UInt8) :=
  match bytes with
  | .ok bytes => return bytes
  | .error e => throw ("Failed to encode " ++ field ++ ": " ++ e.display)

def advance (n : Nat) (message : String) : Stripper Unit := fun src =>
  if src.length < n then .error message else .ok ((), src.drop n)

def skipUuid : Stripper Unit := do
  if ← decoding "has_signature" bool then advance 16 "truncated signature UUID"

def skipSignatureBytes : Stripper Unit := do
  if ← decoding "has_signature_bytes" bool then
    let len ← decoding "signature length" i32
    if len > 0 then advance len.toInt.toNat "signature byte length exceeds remaining buffer"

/-- The salt is dropped if it is there; what is too short for one stays. -/
def skipSalt : Stripper Unit := fun src =>
  match u64 src with
  | .ok (_, rest) => .ok ((), rest)
  | .error _ => .ok ((), src)

def skipSaltOf (canonical : ProtocolVersion) : Stripper Unit :=
  if 761 ≤ canonical.id then skipSalt else pure ()

def rebuild (canonical : ProtocolVersion) : Stripper (List UInt8) := do
  let packetId ← decoding "packet ID" varInt
  let message ← decoding "message" string
  let timestamp ← decoding "timestamp" i64
  skipUuid
  skipSignatureBytes
  skipSaltOf canonical
  let message ← encoding "message" (Encode.string message)
  let salt := if 761 ≤ canonical.id then Encode.u64 0 else []
  return encodeVarInt packetId ++ message ++ Encode.i64 timestamp ++ [0] ++ [0] ++ salt ++ (← get)

end ChatSigning

open ChatSigning

def stripChatSignature (payload : List UInt8) (protocolVersion : UInt32) :
    Except String (List UInt8) :=
  let canonical := fromId protocolVersion
  if !supportsChatSigning protocolVersion then .ok payload
  else (rebuild canonical).run' payload

structure ChatHead where
  packetId : Int32
  message : String
  timestamp : Int64

def ChatHead.decode : Decoder ChatHead := do
  let packetId ← varInt
  let message ← string
  let timestamp ← i64
  return ⟨packetId, message, timestamp⟩

def ChatHead.encode (head : ChatHead) : List UInt8 :=
  encodeVarInt head.packetId ++ encodeString head.message ++ Encode.i64 head.timestamp

inductive UuidField : List UInt8 → Prop
  | absent : UuidField [0]
  | present : flag ≠ 0 → uuid.length = 16 → UuidField (flag :: uuid)

/-- The bytes of a signature, if they are there. A negative length counts as none. -/
inductive SignatureField : List UInt8 → Prop
  | absent : SignatureField [0]
  | present : flag ≠ 0 → length.length = 4 →
      signature.length = (UInt32.ofNat (bigEndian length)).toInt32.toInt.toNat →
      SignatureField (flag :: (length ++ signature))

def afterSalt (protocolVersion : UInt32) (rest : List UInt8) : List UInt8 :=
  if 761 ≤ protocolVersion ∧ 8 ≤ rest.length then rest.drop 8 else rest

def unsignedChat (protocolVersion : UInt32) (head : ChatHead) (tail : List UInt8) : List UInt8 :=
  head.encode ++ [0, 0] ++ (if 761 ≤ protocolVersion then List.replicate 8 0 else []) ++ tail

namespace ChatSigning

theorem decoding_eq_ok {d : Decoder α} :
    decoding field d src = .ok (a, rest) ↔ d src = .ok (a, rest) := by
  unfold decoding
  cases d src with
  | ok r | error e => simp

theorem advance_eq_ok : advance n message src = .ok (u, rest) ↔
    ∃ front, front.length = n ∧ src = front ++ rest :=
  drop_eq_ok

theorem decoding_bool : decoding field bool (byte :: src) = .ok (byte != 0, src) :=
  decoding_eq_ok.mpr (bool_eq_ok.mpr ⟨byte, rfl, rfl⟩)

theorem i32_eq_ok : i32 src = .ok (v, rest) ↔ ∃ front, front.length = 4 ∧
    src = front ++ rest ∧ v = (UInt32.ofNat (bigEndian front)).toInt32 := by
  constructor
  · intro h
    obtain ⟨front, src₁, htk, h⟩ := bind_eq_ok.mp h
    cases h
    obtain ⟨hfr, rfl⟩ := take_eq_ok.mp htk
    exact ⟨front, hfr, rfl, rfl⟩
  · rintro ⟨front, hfr, rfl, rfl⟩
    exact bind_ok (reads_take hfr rest)

theorem skipUuid_eq_ok : skipUuid src = .ok (u, rest) ↔
    ∃ uuid, UuidField uuid ∧ src = uuid ++ rest := by
  constructor
  · intro h
    obtain ⟨present, src₁, hfg, h⟩ := bind_eq_ok.mp h
    obtain ⟨byte, rfl, rfl⟩ := bool_eq_ok.mp (decoding_eq_ok.mp hfg)
    by_cases hz : byte = 0
    · subst hz
      cases h
      exact ⟨[0], .absent, rfl⟩
    · rw [if_pos (by simpa using hz)] at h
      obtain ⟨uuid, huuid, rfl⟩ := advance_eq_ok.mp h
      exact ⟨byte :: uuid, .present hz huuid, rfl⟩
  · rintro ⟨uuid, hfld, rfl⟩
    cases hfld with
    | absent => rfl
    | @present flag uuid hfg huuid =>
      rw [skipUuid, List.cons_append, bind_ok decoding_bool, if_pos (by simpa using hfg)]
      exact advance_eq_ok.mpr ⟨uuid, huuid, rfl⟩

theorem advance_positive_eq_ok {len : Int32} :
    (if len > 0 then advance len.toInt.toNat message else pure ()) src = .ok (u, rest) ↔
      ∃ front, front.length = len.toInt.toNat ∧ src = front ++ rest := by
  by_cases hlen : len > 0
  · rw [if_pos hlen]
    exact advance_eq_ok
  · rw [if_neg hlen]
    have hz : len.toInt.toNat = 0 := by
      have hle : len.toInt ≤ 0 := Int32.le_iff_toInt_le.mp (Int32.not_lt.mp hlen)
      omega
    rw [hz]
    constructor
    · intro h
      cases h
      exact ⟨[], rfl, rfl⟩
    · rintro ⟨front, hfr, rfl⟩
      rw [List.eq_nil_of_length_eq_zero hfr]
      rfl

theorem skipSignatureBytes_eq_ok : skipSignatureBytes src = .ok (u, rest) ↔
    ∃ signature, SignatureField signature ∧ src = signature ++ rest := by
  constructor
  · intro h
    obtain ⟨present, src₁, hfg, h⟩ := bind_eq_ok.mp h
    obtain ⟨byte, rfl, rfl⟩ := bool_eq_ok.mp (decoding_eq_ok.mp hfg)
    by_cases hz : byte = 0
    · subst hz
      cases h
      exact ⟨[0], .absent, rfl⟩
    · rw [if_pos (by simpa using hz)] at h
      obtain ⟨len, src₂, hlen, h⟩ := bind_eq_ok.mp h
      obtain ⟨length, hleng, rfl, rfl⟩ := i32_eq_ok.mp (decoding_eq_ok.mp hlen)
      obtain ⟨signature, hsig, rfl⟩ := advance_positive_eq_ok.mp h
      refine ⟨_, .present hz hleng hsig, ?_⟩
      rw [List.cons_append, List.append_assoc]
  · rintro ⟨signature, hfld, rfl⟩
    cases hfld with
    | absent => rfl
    | @present flag length signature hfg hleng hsig =>
      have hlen : decoding "signature length" i32 (length ++ (signature ++ rest)) =
          .ok (_, signature ++ rest) :=
        decoding_eq_ok.mpr (i32_eq_ok.mpr ⟨length, hleng, rfl, rfl⟩)
      rw [skipSignatureBytes, List.cons_append, List.append_assoc, bind_ok decoding_bool,
        if_pos (by simpa using hfg), bind_ok hlen]
      exact advance_positive_eq_ok.mpr ⟨signature, hsig, rfl⟩

theorem skipSalt_eq : skipSalt src = .ok ((), if 8 ≤ src.length then src.drop 8 else src) := by
  unfold skipSalt u64
  by_cases hlen : src.length < 8
  · have htk : take 8 src = .error .unexpectedEof := by rw [take, if_pos hlen]
    rw [bind_error htk, if_neg (by omega)]
  · have htk : take 8 src = .ok (src.take 8, src.drop 8) := by
      rw [take, if_neg hlen]
    rw [bind_ok htk, if_pos (by omega)]
    rfl

theorem skipSaltOf_eq : skipSaltOf (fromId p) rest = .ok ((), afterSalt p rest) := by
  unfold skipSaltOf afterSalt
  rw [id_fromId]
  by_cases hp : 761 ≤ p
  · simp only [hp, if_true, true_and]
    exact skipSalt_eq
  · simp only [hp, if_false, false_and]
    rfl

theorem run'_eq_ok {x : Stripper α} : x.run' src = .ok a ↔ ∃ left, x src = .ok (a, left) := by
  unfold StateT.run'
  cases hx : x src with
  | error e =>
    constructor
    · intro h
      cases h
    · rintro ⟨left, h⟩
      cases h
  | ok r =>
    constructor
    · intro h
      cases h
      exact ⟨r.2, rfl⟩
    · rintro ⟨left, h⟩
      cases h
      rfl

theorem encode_string_of_decode (h : string src = .ok (message, rest)) :
    Encode.string message = .ok (encodeString message) := by
  obtain ⟨len, src₁, bytes, -, hlim, hbs, -, hutf8⟩ := string_inv h
  have hsz : message.toUTF8.data.toList = bytes := by
    unfold String.fromUTF8? at hutf8
    split at hutf8
    · cases hutf8
      rfl
    · cases hutf8
  rw [Encode.string, hsz, if_neg (by omega)]

theorem head_eq_ok : ChatHead.decode payload = .ok (head, rest) ↔
    ∃ src₁ src₂, varInt payload = .ok (head.packetId, src₁) ∧
      string src₁ = .ok (head.message, src₂) ∧
      i64 src₂ = .ok (head.timestamp, rest) := by
  constructor
  · intro h
    obtain ⟨packetId, src₁, hid, h⟩ := bind_eq_ok.mp h
    obtain ⟨message, src₂, hmsg, h⟩ := bind_eq_ok.mp h
    obtain ⟨timestamp, src₃, hts, h⟩ := bind_eq_ok.mp h
    cases h
    exact ⟨src₁, src₂, hid, hmsg, hts⟩
  · rintro ⟨src₁, src₂, hid, hmsg, hts⟩
    rw [ChatHead.decode, bind_ok hid, bind_ok hmsg, bind_ok hts]
    rfl

theorem message_encodes (h : ChatHead.decode payload = .ok (head, rest)) :
    Encode.string head.message = .ok (encodeString head.message) := by
  obtain ⟨src₁, src₂, -, hmsg, -⟩ := head_eq_ok.mp h
  exact encode_string_of_decode hmsg

theorem rebuild_of_head (h : ChatHead.decode payload = .ok (head, src)) :
    rebuild (fromId p) payload = (do
      skipUuid
      skipSignatureBytes
      skipSaltOf (fromId p)
      return unsignedChat p head (← get)) src := by
  obtain ⟨src₁, src₂, hid, hmsg, hts⟩ := head_eq_ok.mp h
  rw [rebuild, bind_ok (decoding_eq_ok.mpr hid), bind_ok (decoding_eq_ok.mpr hmsg),
    bind_ok (decoding_eq_ok.mpr hts), encode_string_of_decode hmsg,
    id_fromId]
  have hsalt : (if 761 ≤ p then Encode.u64 0 else []) =
      if 761 ≤ p then List.replicate 8 0 else [] := rfl
  rw [hsalt]
  simp only [encoding, pure_bind, unsignedChat, ChatHead.encode, List.append_assoc,
    List.cons_append, List.nil_append]

theorem head_of_rebuild (h : rebuild canonical payload = .ok (out, left)) :
    ∃ head src, ChatHead.decode payload = .ok (head, src) := by
  obtain ⟨packetId, src₁, hid, h⟩ := bind_eq_ok.mp h
  obtain ⟨message, src₂, hmsg, h⟩ := bind_eq_ok.mp h
  obtain ⟨timestamp, src₃, hts, h⟩ := bind_eq_ok.mp h
  exact ⟨⟨packetId, message, timestamp⟩, src₃, head_eq_ok.mpr
    ⟨src₁, src₂, decoding_eq_ok.mp hid, decoding_eq_ok.mp hmsg, decoding_eq_ok.mp hts⟩⟩

theorem strip_eq_ok (hp : supportsChatSigning p = true) :
    stripChatSignature payload p = .ok out ↔
      ∃ head uuid signature rest,
        ChatHead.decode payload = .ok (head, uuid ++ (signature ++ rest)) ∧
        UuidField uuid ∧ SignatureField signature ∧
        out = unsignedChat p head (afterSalt p rest) := by
  have hstr : stripChatSignature payload p = .ok out ↔
      ∃ left, rebuild (fromId p) payload = .ok (out, left) := by
    simp only [stripChatSignature, hp, Bool.not_true, Bool.false_eq_true, if_false]
    exact run'_eq_ok
  rw [hstr]
  constructor
  · rintro ⟨left, h⟩
    obtain ⟨head, src, hhd⟩ := head_of_rebuild h
    rw [rebuild_of_head hhd] at h
    obtain ⟨_, src₁, hsk, h⟩ := bind_eq_ok.mp h
    obtain ⟨_, rest, hsk', h⟩ := bind_eq_ok.mp h
    rw [bind_ok skipSaltOf_eq] at h
    cases h
    obtain ⟨uuid, huuid, rfl⟩ := skipUuid_eq_ok.mp hsk
    obtain ⟨signature, hsig, rfl⟩ := skipSignatureBytes_eq_ok.mp hsk'
    exact ⟨head, uuid, signature, rest, hhd, huuid, hsig, rfl⟩
  · rintro ⟨head, uuid, signature, rest, hhd, huuid, hsig, rfl⟩
    have hsk : skipUuid (uuid ++ (signature ++ rest)) = .ok ((), signature ++ rest) :=
      skipUuid_eq_ok.mpr ⟨uuid, huuid, rfl⟩
    have hsk' : skipSignatureBytes (signature ++ rest) = .ok ((), rest) :=
      skipSignatureBytes_eq_ok.mpr ⟨signature, hsig, rfl⟩
    refine ⟨afterSalt p rest, ?_⟩
    rw [rebuild_of_head hhd, bind_ok hsk, bind_ok hsk', bind_ok skipSaltOf_eq]
    rfl

theorem reads_head (head : ChatHead)
    (h : Encode.string head.message = .ok (encodeString head.message)) :
    Reads ChatHead.decode head.encode head := by
  rw [ChatHead.encode, List.append_assoc]
  refine (reads_varInt head.packetId).bind ?_
  refine (reads_string h).bind ?_
  exact (reads_i64 head.timestamp).finish (.pure head)

theorem afterSalt_unsigned (p : UInt32) (tail : List UInt8) :
    afterSalt p ((if 761 ≤ p then List.replicate 8 0 else []) ++ tail) = tail := by
  unfold afterSalt
  by_cases hp : 761 ≤ p
  · rw [if_pos hp, if_pos ⟨hp, by simp⟩]
    rfl
  · rw [if_neg hp, if_neg fun h => hp h.1, List.nil_append]

theorem decode_unsignedChat (h : ChatHead.decode payload = .ok (head, src)) (p : UInt32)
    (tail : List UInt8) : ChatHead.decode (unsignedChat p head tail) =
      .ok (head, [0] ++ ([0] ++ ((if 761 ≤ p then List.replicate 8 0 else []) ++ tail))) := by
  rw [unsignedChat, List.append_assoc, List.append_assoc]
  exact reads_head head (message_encodes h) _

end ChatSigning

/-- Stripping what is stripped already changes nothing, and stripping keeps the id, the message, the
timestamp and what follows the signature and the salt. -/
theorem strip_idempotent (hp : supportsChatSigning p = true)
    (h : stripChatSignature payload p = .ok out) :
    stripChatSignature out p = .ok out ∧
      ∃ head uuid signature rest rest',
        ChatHead.decode payload = .ok (head, uuid ++ (signature ++ rest)) ∧ UuidField uuid ∧
        SignatureField signature ∧ ChatHead.decode out = .ok (head, rest') ∧
        out = unsignedChat p head
          (if 761 ≤ p ∧ 8 ≤ rest.length then rest.drop 8 else rest) := by
  obtain ⟨head, uuid, signature, rest, hdecode, huuid, hsignature, rfl⟩ :=
    (strip_eq_ok hp).mp h
  have hout := decode_unsignedChat hdecode p (afterSalt p rest)
  refine ⟨(strip_eq_ok hp).mpr ⟨head, [0], [0], _, hout, .absent, .absent, ?_⟩,
    head, uuid, signature, rest, _, hdecode, huuid, hsignature, hout, rfl⟩
  rw [afterSalt_unsigned]

def signedChat : List UInt8 :=
  ChatHead.encode ⟨5, "/hi", 7⟩ ++ ((1 :: List.replicate 16 9) ++
    ((1 :: ([0, 0, 0, 2] ++ [8, 8])) ++ [1, 1, 1, 1, 1, 1, 1, 1, 3, 4]))

theorem decode_signedChat : ChatHead.decode signedChat = .ok (⟨5, "/hi", 7⟩,
    (1 :: List.replicate 16 9) ++ ((1 :: ([0, 0, 0, 2] ++ [8, 8])) ++
      [1, 1, 1, 1, 1, 1, 1, 1, 3, 4])) :=
  reads_head ⟨5, "/hi", 7⟩ rfl _

theorem strip_signedChat :
    stripChatSignature signedChat 765 = .ok (unsignedChat 765 ⟨5, "/hi", 7⟩ [3, 4]) :=
  (strip_eq_ok (by decide)).mpr ⟨_, _, _, _, decode_signedChat,
    .present (by decide) (by decide), .present (by decide) rfl (by decide), by decide⟩

theorem strip_idempotent_signedChat :
    stripChatSignature (unsignedChat 765 ⟨5, "/hi", 7⟩ [3, 4]) 765 =
      .ok (unsignedChat 765 ⟨5, "/hi", 7⟩ [3, 4]) :=
  (strip_idempotent (by decide) strip_signedChat).1

end Kojacoord
