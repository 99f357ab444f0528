import Kojacoord.Lib.JsonRoundTrip
import Kojacoord.Net.PluginMessages
import Kojacoord.Net.SessionWrites

namespace Kojacoord
open RoundTrip Decode Nat

inductive TypedChat where
  | legacy (message : String)
  | plain (jsonMessage : String)
  | positioned (jsonMessage : String) (position : UInt8)
  | sent (jsonMessage : String) (position : UInt8) (sender : Int64 × Int64)
  | system (content : String) (overlay : Bool)

/-- The encoders that the packet builders use; that of `ClientboundSystemChat` is of `v1_20_x`. -/
def TypedChat.encode : TypedChat → Except ProtocolError (List UInt8)
  | legacy message => return encodeLegacyString message
  | plain jsonMessage => return encodeString jsonMessage
  | positioned jsonMessage position => return encodeString jsonMessage ++ [position]
  | sent jsonMessage position sender =>
    return encodeString jsonMessage ++ (position :: Encode.i64 sender.1 ++ Encode.i64 sender.2)
  | system content overlay => do
    return (← Encode.string content) ++ [if overlay then 1 else 0]

def TypedChat.text : TypedChat → Option String
  | legacy message => some message
  | plain json | positioned json _ | sent json _ _ | system json _ => do
    match ← (← Json.parse json).member? "text" with
    | .str text => some text
    | _ => none

def Decode.sized (missing : Nat → Nat → String) (invalid : String) : Decoder String := do
  let len := asUsize (← varInt)
  let left := (← get).length
  if left < len then throw (.io .unexpectedEof (missing len left))
  let bytes ← take len
  match String.fromUTF8? ⟨bytes.toArray⟩ with
  | some s => return s
  | none => throw (.io .invalidData invalid)

def Decode.needU8 (missing : Nat → Nat → String) : Decoder UInt8 := do
  let left := (← get).length
  if left < 1 then throw (.io .unexpectedEof (missing 1 left))
  u8

def V1_6.decodeLegacyString : Decoder String := do
  let len ← u16
  let raw ← take (len.toNat * 2)
  match fromUtf16 (utf16Units raw) with
  | some chars => return .ofList chars
  | none => throw (.io .invalidData "invalid UCS-2 in pre-netty string")

def V1_6.decodeChatMessage : Decoder TypedChat := do
  return .legacy (← decodeLegacyString)

def decodeStr (ctx : String) : Decoder String :=
  sized (fun _ _ => s!"Missing bytes for {ctx}") s!"Invalid UTF-8 in {ctx}"

def V1_7.decodeChatMessage : Decoder TypedChat := do
  return .plain (← decodeStr "ClientboundChatMessage json_message")

def V1_12.decodeChatMessage : Decoder TypedChat := do
  let jsonMessage ← decodeStr "ClientboundChatMessage json_message"
  return .positioned jsonMessage
    (← needU8 fun n left => s!"Need {n} bytes, have {left}")

def V1_16.decodeString : Decoder String :=
  sized (fun _ _ => "Missing bytes for string") "Invalid UTF-8 in string"

def V1_16.decodeChatMessage : Decoder TypedChat := do
  let jsonMessage ← decodeString
  if (← get).length < 1 + 16 then
    throw (.io .unexpectedEof "Missing bytes for ClientboundChatMessage position/sender")
  let position ← u8
  let hi ← i64
  return .sent jsonMessage position (hi, ← i64)

def V1_20.decodeSystemChat : Decoder TypedChat := do
  let content ← string
  return .system content (← bool)

def V1_21.missing (n left : Nat) : String := s!"need {n} bytes, only {left} remaining"

def V1_21.decodeSystemChat : Decoder TypedChat := do
  let jsonMessage ← sized missing "invalid utf-8 string"
  return .system jsonMessage ((← needU8 missing) != 0)

/-- The packet of a name in the module for a version. The modules for 1.13 to 1.15 are the one for
1.16, those for 1.17 and 1.18 the one for 1.19, and 26.x has none of its own. -/
def typedPacket : CanonicalVersion → String → Option (Decoder TypedChat)
  | .v1_6_4, "ClientboundChatMessage" => some V1_6.decodeChatMessage
  | .v1_7_10, "ClientboundChatMessage" => some V1_7.decodeChatMessage
  | .v1_8, "ClientboundChatMessage" | .v1_12_2, "ClientboundChatMessage" =>
    some V1_12.decodeChatMessage
  | .v1_15_2, "ClientboundChatMessage" | .v1_16_5, "ClientboundChatMessage" =>
    some V1_16.decodeChatMessage
  | .v1_18_2, "ClientboundSystemChat" | .v1_19_4, "ClientboundSystemChat"
  | .v1_20_4, "ClientboundSystemChat" => some V1_20.decodeSystemChat
  | .v1_21, "ClientboundSystemChat" | .v26, "ClientboundSystemChat" => some V1_21.decodeSystemChat
  | _, _ => none

section Units

variable {u : UInt16} {c : Char} {units : List UInt16}

theorem toNat_and_mask : (u &&& 0xFC00).toNat = u.toNat / 1024 * 1024 := by
  have hmask : (0xFC00 : UInt16).toNat = 63 * 2 ^ 10 := rfl
  rw [UInt16.toNat_and, hmask]
  apply eq_of_testBit_eq
  intro i
  have hhi : Nat.testBit 63 (i - 10) = decide (i - 10 < 6) := testBit_two_pow_sub_one 6 _
  change _ = Nat.testBit (u.toNat / 2 ^ 10 * 2 ^ 10) i
  rw [testBit_and, testBit_mul_two_pow, testBit_mul_two_pow, hhi, Nat.testBit_div_two_pow]
  by_cases hlow : 10 ≤ i
  · rw [Nat.sub_add_cancel hlow]
    by_cases hi : i - 10 < 6
    · simp [hlow, hi]
    · have hbit : Nat.testBit u.toNat i = false := by
        apply testBit_lt_two_pow
        exact Nat.lt_of_lt_of_le u.toNat_lt (Nat.pow_le_pow_right (by decide) (by omega))
      simp [hbit]
  · simp [hlow]

theorem and_mask_eq_iff (u : UInt16) (hm : mask.toNat % 1024 = 0) :
    u &&& 0xFC00 = mask ↔ mask.toNat ≤ u.toNat ∧ u.toNat < mask.toNat + 1024 := by
  rw [← UInt16.toNat_inj, toNat_and_mask]
  omega

def charUnits (c : Char) : List UInt16 :=
  if c.toNat < 0x10000 then [.ofNat c.toNat]
  else
    let v := c.toNat - 0x10000
    [.ofNat (0xD800 + v / 0x400), .ofNat (0xDC00 + v % 0x400)]

theorem toNat_char (c : Char) : c.toNat < 0xD800 ∨ 0xDFFF < c.toNat ∧ c.toNat < 0x110000 := c.valid

theorem fromUtf16_charUnits (c : Char) (rest : List UInt16) :
    fromUtf16 (charUnits c ++ rest) = (fromUtf16 rest).map (c :: ·) := by
  have hchar := toNat_char c
  rw [charUnits]
  by_cases hsm : c.toNat < 0x10000
  · have hunit : (UInt16.ofNat c.toNat).toNat = c.toNat := UInt16.toNat_ofNat_of_lt' hsm
    have hhi : ¬UInt16.ofNat c.toNat &&& 0xFC00 = 0xD800 := by
      rw [and_mask_eq_iff _ rfl, hunit]
      change ¬(0xD800 ≤ _ ∧ _ < 0xD800 + 1024)
      omega
    have hlow : ¬UInt16.ofNat c.toNat &&& 0xFC00 = 0xDC00 := by
      rw [and_mask_eq_iff _ rfl, hunit]
      change ¬(0xDC00 ≤ _ ∧ _ < 0xDC00 + 1024)
      omega
    rw [if_pos hsm, List.singleton_append, fromUtf16.eq_def]
    dsimp only
    rw [if_neg hhi, if_neg hlow, hunit, Char.ofNat_toNat]
  · rw [if_neg hsm]
    generalize hv : c.toNat - 0x10000 = v
    have hfst : (UInt16.ofNat (0xD800 + v / 0x400)).toNat = 0xD800 + v / 0x400 :=
      UInt16.toNat_ofNat_of_lt' (show _ < 65536 by omega)
    have hsec : (UInt16.ofNat (0xDC00 + v % 0x400)).toNat = 0xDC00 + v % 0x400 :=
      UInt16.toNat_ofNat_of_lt' (show _ < 65536 by omega)
    have hhi : UInt16.ofNat (0xD800 + v / 0x400) &&& 0xFC00 = 0xD800 := by
      rw [and_mask_eq_iff _ rfl, hfst]
      change 0xD800 ≤ _ ∧ _ < 0xD800 + 1024
      omega
    have hlow : UInt16.ofNat (0xDC00 + v % 0x400) &&& 0xFC00 = 0xDC00 := by
      rw [and_mask_eq_iff _ rfl, hsec]
      change 0xDC00 ≤ _ ∧ _ < 0xDC00 + 1024
      omega
    have hcode : 0x10000 + (0xD800 + v / 0x400 - 0xD800) * 0x400 + (0xDC00 + v % 0x400 - 0xDC00) =
        c.toNat := by
      omega
    dsimp only [List.cons_append, List.nil_append]
    rw [fromUtf16.eq_def]
    dsimp only
    rw [if_pos hhi, if_pos hlow, hfst, hsec, hcode, Char.ofNat_toNat]

theorem fromUtf16_utf16 (s : String) : fromUtf16 (utf16 s) = some s.toList := by
  change fromUtf16 (s.toList.flatMap charUnits) = _
  induction s.toList with
  | nil => rfl
  | cons c cs ih => rw [List.flatMap_cons, fromUtf16_charUnits, ih, Option.map_some]

theorem utf16Units_flatMap : utf16Units (units.flatMap Encode.u16) = units := by
  induction units with
  | nil => rfl
  | cons u units ih =>
    have hbs : Encode.u16 u = [.ofNat (u.toNat / 256), .ofNat u.toNat] := by
      simp [Encode.u16, Encode.bigEndian]
    have hunit : (UInt8.ofNat (u.toNat / 256)).toUInt16 <<< 8 ||| (UInt8.ofNat u.toNat).toUInt16 =
        u := by
      apply UInt16.toNat_inj.mp
      have hlt := u.toNat_lt
      change (u.toNat / 256 % 256) <<< 8 % 65536 ||| u.toNat % 2 ^ 8 = _
      rw [mod_eq_of_lt, ← shiftLeft_add_eq_or_of_lt (mod_lt _ (by decide)),
        shiftLeft_eq]
      · omega
      · rw [shiftLeft_eq]
        omega
    rw [List.flatMap_cons, hbs]
    change (_ ||| _) :: utf16Units (units.flatMap Encode.u16) = _
    rw [hunit, ih]

theorem length_flatMap_u16 : (units.flatMap Encode.u16).length = units.length * 2 := by
  rw [List.length_flatMap]
  induction units with
  | nil => rfl
  | cons u units ih =>
    rw [List.map_cons, List.sum_cons, ih, Encode.u16, Encode.length_bigEndian, List.length_cons]
    omega

end Units

theorem V1_6.reads_chatMessage (h : (utf16 s).length ≤ 65535) :
    Reads decodeChatMessage (encodeLegacyString s) (.legacy s) := by
  have hleng : (UInt16.ofNat (utf16 s).length).toNat = (utf16 s).length :=
    UInt16.toNat_ofNat_of_lt' (lt_succ_of_le h)
  have hstr : Reads decodeLegacyString (encodeLegacyString s) s := by
    refine (reads_u16 _).bind ?_
    rw [hleng]
    apply (reads_take length_flatMap_u16).finish
    rw [utf16Units_flatMap, fromUtf16_utf16]
    dsimp only
    rw [String.ofList_toList]
    exact .pure s
  exact hstr.finish (.pure _)

theorem V1_6.length_le_of_decode (h : decodeChatMessage (encodeLegacyString s) = .ok (chat, [])) :
    (utf16 s).length ≤ 65535 := by
  obtain ⟨message, src₁, hstr, hct⟩ := bind_eq_ok.mp h
  cases hct
  obtain ⟨len, src₂, hlen, hstr⟩ := bind_eq_ok.mp hstr
  cases hlen.symm.trans (reads_u16 _ _)
  obtain ⟨raw, src₃, htk, hstr⟩ := bind_eq_ok.mp hstr
  have hemp : src₃ = [] := by
    generalize fromUtf16 (utf16Units raw) = decoded at hstr
    cases decoded with
    | none => cases hstr
    | some chars =>
      cases hstr
      rfl
  subst hemp
  obtain ⟨hraw, huni⟩ := take_eq_ok.mp htk
  have hleng := congrArg List.length huni
  rw [length_flatMap_u16, List.append_nil, hraw] at hleng
  have hlt := (UInt16.ofNat (utf16 s).length).toNat_lt
  omega

namespace Decode
variable {missing : Nat → Nat → String} {invalid : String}

theorem sized_eq_ok (hlen : varInt src = .ok (len, src₁)) :
    sized missing invalid src = .ok (s, left) ↔
      ∃ bytes, bytes.length = asUsize len ∧ src₁ = bytes ++ left ∧
        String.fromUTF8? ⟨bytes.toArray⟩ = some s := by
  rw [sized, bind_ok hlen]
  rw [bind_get]
  constructor
  · intro h
    by_cases hsh : src₁.length < asUsize len
    · rw [if_pos hsh] at h
      cases h
    · rw [if_neg hsh] at h
      obtain ⟨bytes, src₂, htk, hbd⟩ := bind_eq_ok.mp h
      obtain ⟨hbs, hsrc⟩ := take_eq_ok.mp htk
      generalize hutf8 : String.fromUTF8? ⟨bytes.toArray⟩ = decoded at hbd
      cases decoded with
      | none => cases hbd
      | some s =>
        cases hbd
        exact ⟨bytes, hbs, hsrc, hutf8⟩
  · rintro ⟨bytes, hbs, rfl, hutf8⟩
    have hlg : ¬(bytes ++ left).length < asUsize len := by
      rw [List.length_append]
      omega
    rw [if_neg hlg]
    refine bind_eq_ok.mpr ⟨bytes, left, reads_take hbs left, ?_⟩
    rw [hutf8]
    rfl

theorem reads_sized
    (h : asUsize (.ofNat s.toUTF8.data.toList.length) = s.toUTF8.data.toList.length) :
    Reads (sized missing invalid) (encodeString s) s := by
  intro rest
  rw [encodeString, List.append_assoc]
  exact (sized_eq_ok (reads_varInt _ _)).mpr ⟨_, h.symm, rfl, fromUTF8_bytes s⟩

theorem left_of_sized (h : sized missing invalid (encodeString s ++ tail) = .ok (s', left)) :
    left.length + asUsize (.ofNat s.toUTF8.data.toList.length) =
      s.toUTF8.data.toList.length + tail.length := by
  rw [encodeString, List.append_assoc] at h
  obtain ⟨bytes, hbs, hsrc, -⟩ := (sized_eq_ok (reads_varInt _ _)).mp h
  have hleng := congrArg List.length hsrc
  rw [List.length_append, List.length_append] at hleng
  omega

theorem needU8_eq_ok : needU8 missing src = .ok (byte, left) ↔ src = byte :: left := by
  cases src with
  | nil =>
    constructor
    · intro h
      cases h
    · intro h
      cases h
  | cons first src =>
    constructor
    · intro h
      cases h
      rfl
    · intro h
      cases h
      rfl

end Decode

theorem V1_7.reads_chatMessage
    (h : asUsize (.ofNat s.toUTF8.data.toList.length) = s.toUTF8.data.toList.length) :
    Reads decodeChatMessage (encodeString s) (.plain s) :=
  (reads_sized h).finish (.pure _)

theorem V1_12.reads_chatMessage (position : UInt8)
    (h : asUsize (.ofNat s.toUTF8.data.toList.length) = s.toUTF8.data.toList.length) :
    Reads decodeChatMessage (encodeString s ++ [position]) (.positioned s position) := by
  refine (reads_sized h).bind ?_
  have hpos (missing : Nat → Nat → String) :
      Reads (needU8 missing) [position] position :=
    fun rest => needU8_eq_ok.mpr rfl
  exact (hpos _).finish (.pure _)

theorem V1_16.reads_chatMessage (position : UInt8) (sender : Int64 × Int64)
    (h : asUsize (.ofNat s.toUTF8.data.toList.length) = s.toUTF8.data.toList.length) :
    Reads decodeChatMessage
      (encodeString s ++ (position :: Encode.i64 sender.1 ++ Encode.i64 sender.2))
      (.sent s position sender) := by
  refine (reads_sized h).bind ?_
  intro rest
  have hlg : ¬((position :: Encode.i64 sender.1 ++ Encode.i64 sender.2) ++ rest).length <
      1 + 16 := by
    simp only [Encode.i64, List.length_append, List.length_cons, Encode.length_bigEndian]
    omega
  rw [bind_get, if_neg hlg]
  have hflds : Reads (do
      let position ← u8
      let hi ← i64
      return TypedChat.sent s position (hi, ← i64))
      ([position] ++ (Encode.i64 sender.1 ++ Encode.i64 sender.2)) (.sent s position sender) :=
    (reads_u8 _).bind ((reads_i64 _).bind ((reads_i64 _).finish (.pure _)))
  exact hflds rest

theorem V1_7.asUsize_of_decode (h : decodeChatMessage (encodeString s) = .ok (chat, [])) :
    asUsize (.ofNat s.toUTF8.data.toList.length) = s.toUTF8.data.toList.length := by
  obtain ⟨jsonMessage, left, hstr, h⟩ := bind_eq_ok.mp h
  cases h
  rw [← List.append_nil (encodeString s)] at hstr
  simpa using left_of_sized hstr

theorem V1_12.asUsize_of_decode
    (h : decodeChatMessage (encodeString s ++ [position]) = .ok (chat, [])) :
    asUsize (.ofNat s.toUTF8.data.toList.length) = s.toUTF8.data.toList.length := by
  obtain ⟨jsonMessage, left, hstr, h⟩ := bind_eq_ok.mp h
  obtain ⟨byte, left', hby, h⟩ := bind_eq_ok.mp h
  cases h
  cases needU8_eq_ok.mp hby
  have hleng := left_of_sized hstr
  dsimp only [List.length_cons, List.length_nil] at hleng
  omega

theorem Decode.length_of_i64 (h : i64 src = .ok (v, left)) : src.length = left.length + 8 := by
  obtain ⟨bytes, left', htk, h⟩ := bind_eq_ok.mp h
  cases h
  obtain ⟨hbs, rfl⟩ := take_eq_ok.mp htk
  rw [List.length_append, hbs, add_comm]

theorem V1_16.asUsize_of_decode {sender : Int64 × Int64}
    (h : decodeChatMessage
      (encodeString s ++ (position :: Encode.i64 sender.1 ++ Encode.i64 sender.2)) =
        .ok (chat, [])) :
    asUsize (.ofNat s.toUTF8.data.toList.length) = s.toUTF8.data.toList.length := by
  obtain ⟨jsonMessage, left, hstr, h⟩ := bind_eq_ok.mp h
  have hleng := left_of_sized hstr
  rw [bind_get] at h
  by_cases hsh : left.length < 1 + 16
  · rw [if_pos hsh] at h
    cases h
  · rw [if_neg hsh] at h
    obtain ⟨byte, left₁, hby, h⟩ := bind_eq_ok.mp h
    obtain ⟨hi, left₂, hhi, h⟩ := bind_eq_ok.mp h
    obtain ⟨lo, left₃, hlo, h⟩ := bind_eq_ok.mp h
    cases h
    have hhi' := length_of_i64 hhi
    have hlo' := length_of_i64 hlo
    cases left with
    | nil => cases hby
    | cons first left =>
      cases hby
      simp only [Encode.i64, List.length_append, List.length_cons, Encode.length_bigEndian]
        at hleng
      rw [List.length_nil] at hlo'
      omega

section System

theorem reads_overlay : Reads bool [if overlay then 1 else 0] overlay := by
  intro rest
  cases overlay <;> rfl

theorem V1_20.reads_systemChat (h : Encode.string content = .ok bytes) (overlay : Bool) :
    Reads decodeSystemChat (bytes ++ [if overlay then 1 else 0]) (.system content overlay) :=
  (reads_string h).bind (reads_overlay.finish (.pure _))

theorem V1_21.reads_systemChat (h : Encode.string content = .ok bytes) (overlay : Bool) :
    Reads decodeSystemChat (bytes ++ [if overlay then 1 else 0]) (.system content overlay) := by
  obtain ⟨hleng, rfl⟩ := Encode.string_eq_ok h
  have hft : content.toUTF8.data.toList.length ≤ Reader.maxPacketSize :=
    le_trans hleng (by decide)
  refine (reads_sized (Reader.asUsize_ofNat hft)).bind ?_
  intro rest
  cases overlay <;> rfl

theorem varInt_ten (body : List UInt8) : varInt (0x0a :: body) = .ok (10, body) :=
  reads_varInt 10 body

theorem length_of_ten {bytes : List UInt8} (h : bytes.length = asUsize 10) : (bytes ++ byte :: left).length = left.length + 11 := by
  have hten : asUsize 10 = 10 := by decide
  rw [List.length_append, h, hten, List.length_cons]
  omega

theorem V1_20.left_of_compound (h : decodeSystemChat (0x0a :: body) = .ok (chat, left)) :
    body.length = left.length + 11 := by
  obtain ⟨content, left₁, hstr, h⟩ := bind_eq_ok.mp h
  obtain ⟨overlay, left₂, hby, h⟩ := bind_eq_ok.mp h
  cases h
  obtain ⟨len, src₁, bytes, hlen, -, hbs, rfl, -⟩ := string_inv hstr
  cases hlen.symm.trans (varInt_ten body)
  obtain ⟨byte, rfl, -⟩ := bool_eq_ok.mp hby
  exact length_of_ten hbs

theorem V1_21.left_of_compound (h : decodeSystemChat (0x0a :: body) = .ok (chat, left)) :
    body.length = left.length + 11 := by
  obtain ⟨content, left₁, hstr, h⟩ := bind_eq_ok.mp h
  obtain ⟨byte, left₂, hby, h⟩ := bind_eq_ok.mp h
  cases h
  obtain ⟨bytes, hbs, rfl, -⟩ := (sized_eq_ok (varInt_ten body)).mp hstr
  cases needU8_eq_ok.mp hby
  exact length_of_ten hbs

end System

end Kojacoord
