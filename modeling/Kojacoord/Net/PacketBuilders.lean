import Kojacoord.Lib.Utf8
import Kojacoord.Net.Components
import Kojacoord.Net.TypedChat
import Kojacoord.Protocol.Registry

namespace Kojacoord
open RoundTrip Encode

section Ids

def playRows (name : String) (ids : List (UInt32 × UInt8)) : List Registration :=
  ids.map fun (proto, id) => ⟨proto, .play, .clientbound, name, id⟩

def playEntries : List Registration :=
  playRows "ClientboundChatMessage"
    [(78, 0x03), (5, 0x02), (47, 0x02), (107, 0x0F), (108, 0x0F), (109, 0x0F), (110, 0x0F),
      (210, 0x0F), (315, 0x0F), (316, 0x0F), (335, 0x0F), (338, 0x0F), (340, 0x0F), (393, 0x0E),
      (401, 0x0E), (404, 0x0E), (477, 0x0E), (480, 0x0E), (485, 0x0E), (490, 0x0E), (498, 0x0E),
      (573, 0x0F), (575, 0x0F), (578, 0x0F), (735, 0x0E), (736, 0x0E), (751, 0x0E), (753, 0x0E),
      (754, 0x0E), (755, 0x0F), (756, 0x0F), (757, 0x0F), (758, 0x0F)] ++
  playRows "ClientboundSystemChat"
    [(759, 0x5F), (760, 0x62), (761, 0x60), (762, 0x64), (763, 0x64), (764, 0x67), (765, 0x69),
      (766, 0x6C), (767, 0x6C), (768, 0x73), (769, 0x73), (770, 0x72), (771, 0x72), (772, 0x72),
      (773, 0x77), (774, 0x77), (775, 0x79), (776, 0x79)] ++
  playRows "ClientboundDisconnect"
    [(78, 0xFF), (5, 0x40), (47, 0x40), (107, 0x1A), (108, 0x1A), (109, 0x1A), (110, 0x1A),
      (210, 0x1A), (315, 0x1A), (316, 0x1A), (335, 0x1A), (338, 0x1A), (340, 0x1A), (393, 0x1B),
      (401, 0x1B), (404, 0x1B), (477, 0x1A), (480, 0x1A), (485, 0x1A), (490, 0x1A), (498, 0x1A),
      (573, 0x1B), (575, 0x1B), (578, 0x1B), (735, 0x1A), (736, 0x1A), (751, 0x19), (753, 0x19),
      (754, 0x19), (755, 0x1A), (756, 0x1A), (757, 0x1A), (758, 0x1A), (759, 0x17), (760, 0x19),
      (761, 0x17), (762, 0x1A), (763, 0x1A), (764, 0x1B), (765, 0x1B), (766, 0x1D), (767, 0x1D),
      (768, 0x1D), (769, 0x1D), (770, 0x1C), (771, 0x1C), (772, 0x1C), (773, 0x20), (774, 0x20),
      (775, 0x20), (776, 0x20)]

def playRegistry : PacketRegistry := .build playEntries

def cbPlay (proto : UInt32) (name : String) : UInt8 :=
  playRegistry.lookup proto .play .clientbound name

def chatPacketName (proto : UInt32) : String :=
  match nearest proto with
  | .v1_6_4 | .v1_7_10 | .v1_8 | .v1_12_2 | .v1_16_5 => "ClientboundChatMessage"
  | _ => "ClientboundSystemChat"

def cbChatId (proto : UInt32) : UInt8 := cbPlay proto (chatPacketName proto)

theorem forall_mem_of_all {versions : List UInt32} {P : UInt32 → Prop} [DecidablePred P]
    (h : versions.all (fun proto => decide (P proto)) = true) : ∀ proto ∈ versions, P proto := by
  intro proto hpro
  exact of_decide_eq_true (List.all_eq_true.mp h proto hpro)

theorem chat_registered : ∀ proto ∈ supportedProtocols,
    proto ∈ [5, 47, 78, 340, 754] ∨ 759 ≤ proto →
      playRegistry.getIdForVersion proto .play .clientbound (chatPacketName proto) =
        some (cbChatId proto) :=
  forall_mem_of_all (by decide +kernel)

/-- A registered id that the builders write too is the one of that packet, where the version has
such a typed packet. -/
theorem chat_owner : ∀ proto ∈ supportedProtocols,
    ∀ name ∈ ["ClientboundChatMessage", "ClientboundSystemChat"],
      (typedPacket (nearest proto).canonicalTypedPacketVersion name).isSome = true →
      playRegistry.getIdForVersion proto .play .clientbound name = some (cbChatId proto) →
        name = chatPacketName proto ∧ (proto ∈ [5, 47, 78, 340, 754] ∨ 759 ≤ proto) :=
  forall_mem_of_all (by decide +kernel)

end Ids

section Builders
variable (lib : ComponentLibrary)

mutual

def walkText : SerdeValue → String
  | .string s => s
  | .object map =>
    (match map.lookup "text" with
      | some (.string t) => t
      | _ => "") ++ walkExtra map
  | .array items => walkItems items
  | _ => ""

def walkExtra : List (String × SerdeValue) → String
  | [] => ""
  | (name, value) :: map =>
    if name = "extra" then
      match value with
      | .array extras => walkItems extras
      | _ => ""
    else walkExtra map

def walkItems : List SerdeValue → String
  | [] => ""
  | item :: items => walkText item ++ walkItems items

end

def plaintextFromChatJson (s : String) : String :=
  match lib.fromStr s with
  | some v => if walkText v = "" then s else walkText v
  | none => s

def messageJson (text : String) : String :=
  (Json.Value.obj [("color", .str "yellow"), ("text", .str text)]).text

def systemMessageBody (text : String) (proto : UInt32) : Option (List UInt8) :=
  match nearest proto with
  | .v1_6_4 => (TypedChat.legacy text).encode.toOption
  | .v1_7_10 => (TypedChat.plain (messageJson text)).encode.toOption
  | .v1_8 | .v1_12_2 => (TypedChat.positioned (messageJson text) 1).encode.toOption
  | .v1_16_5 => (TypedChat.sent (messageJson text) 1 (0, 0)).encode.toOption
  | _ =>
    match if 765 ≤ proto then jsonComponentToNamelessNbt lib (messageJson text) else none with
    | some nbt => some (nbt ++ [0])
    | none => (TypedChat.system (messageJson text) false).encode.toOption

def buildSystemMessagePacket (text : String) (proto : UInt32) : Option (List UInt8) :=
  (systemMessageBody lib text proto).map (encodeVarInt (.ofNat (cbChatId proto).toNat) ++ ·)

def disconnectBody (jsonReason : String) (proto : UInt32) : Option (List UInt8) :=
  match nearest proto with
  | .v1_6_4 => some (encodeLegacyString (plaintextFromChatJson lib jsonReason))
  | .v1_7_10 | .v1_8 | .v1_12_2 | .v1_16_5 => some (encodeString jsonReason)
  | .v1_19_4 | .v1_20_4 => (string jsonReason).toOption
  | .v1_21 => some (encodeString jsonReason)
  | _ => some (encodeString jsonReason)

def buildDisconnectPacket (jsonReason : String) (proto : UInt32) : Option (List UInt8) :=
  (disconnectBody lib jsonReason proto).map
    (encodeVarInt (.ofNat (cbPlay proto "ClientboundDisconnect").toNat) ++ ·)

end Builders

section Disconnect
variable {lib : ComponentLibrary}

theorem nearest_ne_v1_6_4 (h : 765 ≤ proto) : nearest proto ≠ .v1_6_4 := by
  intro hnea
  have hleg : isPreNettyProto proto = true := by
    rw [isPreNettyProto, hnea]
    rfl
  exact UInt32.not_lt.mpr h (lt_of_isPreNettyProto hleg)

theorem disconnectBody_eq (hpro : 765 ≤ proto) (h : disconnectBody lib reason proto = some body) :
    body = encodeString reason := by
  have hleg := nearest_ne_v1_6_4 hpro
  rw [disconnectBody] at h
  split at h
  case h_1 hnea => exact absurd hnea hleg
  case h_6 | h_7 =>
    cases hstr : string reason with
    | error e =>
      rw [hstr] at h
      cases h
    | ok bytes =>
      rw [hstr] at h
      cases h
      exact (string_eq_ok hstr).2
  all_goals exact (Option.some.inj h).symm

theorem writeFields_cons (h : writeFields ((name, tag) :: map) = .ok out) :
    ∃ key bytes rest, writeNbtString name = .ok key ∧ writeTagPayload tag = .ok bytes ∧
      writeFields map = .ok rest ∧ out = tagTypeByte tag :: key ++ bytes ++ rest := by
  rw [writeFields] at h
  cases hkey : writeNbtString name with
  | error e =>
    rw [hkey] at h
    cases h
  | ok key =>
    cases htag : writeTagPayload tag with
    | error e =>
      rw [hkey, htag] at h
      cases h
    | ok bytes =>
      cases hmap : writeFields map with
      | error e =>
        rw [hkey, htag, hmap] at h
        cases h
      | ok rest =>
        rw [hkey, htag, hmap] at h
        cases h
        exact ⟨key, bytes, rest, rfl, rfl, rfl, rfl⟩

theorem zero_mem_writeFields (h : writeFields map = .ok out) : 0 ∈ out := by
  induction map generalizing out with
  | nil =>
    cases h
    exact List.mem_singleton_self _
  | cons field map ih =>
    obtain ⟨key, bytes, rest, -, -, hmap, rfl⟩ := writeFields_cons h
    exact List.mem_append_right _ (ih hmap)

theorem zero_mem_component (h : jsonComponentToNamelessNbt lib text = some nbt) :
    ∃ payload, nbt = 0x0a :: payload ∧ 0 ∈ payload := by
  obtain ⟨value, root, payload, -, -, henc, rfl⟩ := component_eq_some.mp h
  obtain ⟨payload', hwr, hpay⟩ := encode_nameless henc (lib.walk_same _).1
  cases hpay
  exact ⟨payload, rfl, zero_mem_writeFields hwr⟩

end Disconnect

/-- No client of 1.20.3 or later gets a reason as the component it reads, because it is written as
the text of the JSON. A text of JSON has no NUL in it. -/
theorem disconnect_not_component (lib : ComponentLibrary)
    (hjson : ∀ text value, lib.fromStr text = some value → '\x00' ∉ text.toList)
    (hproto : 765 ≤ proto) (h : jsonComponentToNamelessNbt lib reason = some nbt) :
    buildDisconnectPacket lib reason proto ≠
      some (encodeVarInt (.ofNat (cbPlay proto "ClientboundDisconnect").toNat) ++ nbt) := by
  intro hpacket
  obtain ⟨body, hbody, heq⟩ := Option.map_eq_some_iff.mp hpacket
  cases disconnectBody_eq hproto hbody
  cases List.append_cancel_left heq
  obtain ⟨value, root, payload, hvalue, -⟩ := component_eq_some.mp h
  apply hjson reason value hvalue
  apply Utf8.nul_mem_of_zero_mem
  rw [← Utf8.toUTF8_toList]
  -- The type of the root would be the length of the text.
  obtain ⟨payload, hpayload, hzero⟩ := zero_mem_component h
  have hlen := Decode.reads_varInt (.ofNat reason.toUTF8.data.toList.length)
    reason.toUTF8.data.toList
  change Decode.varInt (encodeString reason) = _ at hlen
  rw [hpayload] at hlen
  obtain ⟨-, hbytes⟩ := Prod.mk.inj (Except.ok.inj (hlen.symm.trans (varInt_ten payload)))
  rw [hbytes]
  exact hzero

def greeting : SerdeValue := .object [("text", .string "x")]

theorem no_nul_in_oneText (htx : '\x00' ∉ text.toList)
    (h : (oneTextLibrary text value).fromStr s = some v) : '\x00' ∉ s.toList := by
  change (if s = text then some value else none) = some v at h
  split at h
  · rename_i hs
    rwa [hs]
  · cases h

theorem greeting_not_component :
    buildDisconnectPacket (oneTextLibrary "\x7b\"text\":\"x\"\x7d" greeting)
        "\x7b\"text\":\"x\"\x7d" 767 ≠
      some (encodeVarInt (.ofNat (cbPlay 767 "ClientboundDisconnect").toNat) ++
        [0x0a, 8, 0, 4, 116, 101, 120, 116, 0, 1, 120, 0]) :=
  disconnect_not_component _ (fun _ _ => no_nul_in_oneText (by decide)) (by decide) (by decide)

theorem greeting_sent_as_text :
    buildDisconnectPacket (oneTextLibrary "\x7b\"text\":\"x\"\x7d" greeting)
        "\x7b\"text\":\"x\"\x7d" 767 =
      some (0x1D :: 12 :: [123, 34, 116, 101, 120, 116, 34, 58, 34, 120, 34, 125]) ∧
    jsonComponentToNamelessNbt (oneTextLibrary "\x7b\"text\":\"x\"\x7d" greeting)
        "\x7b\"text\":\"x\"\x7d" =
      some [0x0a, 8, 0, 4, 116, 101, 120, 116, 0, 1, 120, 0] := by
  decide +kernel

section Messages
variable {lib : ComponentLibrary}

def Says (decode : Decoder TypedChat) (body : List UInt8) (text : String) : Prop :=
  ∃ chat, decode body = .ok (chat, []) ∧ chat.text = some text

/-- The packet has the id that the registry has for one of the chat packets, and the rest is that
typed packet of the version, with this text. -/
def Delivered (proto : UInt32) (text : String) (packet : List UInt8) : Prop :=
  ∃ name ∈ ["ClientboundChatMessage", "ClientboundSystemChat"], ∃ id body decode,
    playRegistry.getIdForVersion proto .play .clientbound name = some id ∧
      packet = encodeVarInt (.ofNat id.toNat) ++ body ∧
      typedPacket (nearest proto).canonicalTypedPacketVersion name = some decode ∧
      Says decode body text

def messageSize (text : String) : Nat := NbtTag.textSize (messageJson text)

def Deliverable (proto : UInt32) (text : String) : Prop :=
  proto = 78 ∧ (utf16 text).length ≤ 65535 ∨
  proto ∈ [5, 47, 340, 754] ∧ Decode.asUsize (.ofNat (messageSize text)) = messageSize text ∨
  759 ≤ proto ∧ (765 ≤ proto → 65535 < NbtTag.textSize text) ∧
    messageSize text ≤ Decode.maxStringLength * 3

theorem int32_byte_inj {a b : UInt8} (h : Int32.ofNat a.toNat = Int32.ofNat b.toNat) : a = b := by
  have hval (c : UInt8) : (Int32.ofNat c.toNat).toInt = c.toNat := by
    have hlt := c.toNat_lt
    exact Int32.toInt_ofNat_of_lt (by omega)
  have hint := congrArg Int32.toInt h
  rw [hval, hval] at hint
  exact UInt8.toNat_inj.mp (Int.ofNat.inj hint)

theorem delivered_iff (hpro : proto ∈ supportedProtocols) :
    Delivered proto text (encodeVarInt (.ofNat (cbChatId proto).toNat) ++ body) ↔
      (proto ∈ [5, 47, 78, 340, 754] ∨ 759 ≤ proto) ∧ ∃ decode,
        typedPacket (nearest proto).canonicalTypedPacketVersion (chatPacketName proto) =
          some decode ∧ Says decode body text := by
  constructor
  · rintro ⟨name, hnm, id, body', decode, hid, hpkt, htyp, hmn⟩
    have hrd := Decode.reads_varInt (.ofNat (cbChatId proto).toNat) body
    rw [hpkt, Decode.reads_varInt] at hrd
    obtain ⟨hsm, rfl⟩ := Prod.mk.inj (Except.ok.inj hrd)
    obtain rfl := int32_byte_inj hsm
    obtain ⟨rfl, hver⟩ := chat_owner proto hpro name hnm (htyp ▸ rfl) hid
    exact ⟨hver, decode, htyp, hmn⟩
  · rintro ⟨hver, decode, htyp, hmn⟩
    have hnm : chatPacketName proto ∈ ["ClientboundChatMessage", "ClientboundSystemChat"] := by
      rw [chatPacketName]
      split <;> decide
    exact ⟨_, hnm, _, body, decode, chat_registered proto hpro hver, rfl, htyp, hmn⟩

theorem message_iff (hpro : proto ∈ supportedProtocols)
    (hver : proto ∈ [5, 47, 78, 340, 754] ∨ 759 ≤ proto)
    (htyp : typedPacket (nearest proto).canonicalTypedPacketVersion (chatPacketName proto) =
      some decode) :
    (∃ packet, buildSystemMessagePacket lib text proto = some packet ∧
      Delivered proto text packet) ↔
      ∃ body, systemMessageBody lib text proto = some body ∧ Says decode body text := by
  constructor
  · rintro ⟨packet, hpkt, hdel⟩
    obtain ⟨body, hbd, rfl⟩ := Option.map_eq_some_iff.mp hpkt
    obtain ⟨-, decode', htyp', hmn⟩ := (delivered_iff hpro).mp hdel
    cases htyp.symm.trans htyp'
    exact ⟨body, hbd, hmn⟩
  · rintro ⟨body, hbd, hmn⟩
    exact ⟨_, Option.map_eq_some_iff.mpr ⟨body, hbd, rfl⟩,
      (delivered_iff hpro).mpr ⟨hver, decode, htyp, hmn⟩⟩

theorem message_iff_body (hpro : proto ∈ supportedProtocols)
    (hver : proto ∈ [5, 47, 78, 340, 754])
    (htyp : typedPacket (nearest proto).canonicalTypedPacketVersion (chatPacketName proto) =
      some decode) (hbd : systemMessageBody lib text proto = some body) :
    (∃ packet, buildSystemMessagePacket lib text proto = some packet ∧
      Delivered proto text packet) ↔ Says decode body text := by
  rw [message_iff hpro (.inl hver) htyp, hbd]
  constructor
  · rintro ⟨body', hsm, hmn⟩
    cases hsm
    exact hmn
  · intro hmn
    exact ⟨body, rfl, hmn⟩

variable {text : String} {position : UInt8}

theorem text_of_json : (do
    match ← (← Json.parse (messageJson text)).member? "text" with
    | .str text => some text
    | _ => none) = some text := by
  rw [messageJson, Json.parse_text]
  rfl

theorem says_iff {decode : Decoder TypedChat} (chat : TypedChat) (hct : chat.text = some text)
    (hrds : fits → Reads decode body chat)
    (hft : ∀ chat, decode body = .ok (chat, []) → fits) : Says decode body text ↔ fits := by
  constructor
  · rintro ⟨chat', hdec, -⟩
    exact hft chat' hdec
  · intro h
    have hrd := hrds h []
    rw [List.append_nil] at hrd
    exact ⟨chat, hrd, hct⟩

theorem says_legacy_iff :
    Says V1_6.decodeChatMessage (encodeLegacyString text) text ↔ (utf16 text).length ≤ 65535 :=
  says_iff (.legacy text) rfl V1_6.reads_chatMessage fun _ => V1_6.length_le_of_decode

theorem says_plain_iff : Says V1_7.decodeChatMessage (encodeString (messageJson text)) text ↔
    Decode.asUsize (.ofNat (messageSize text)) = messageSize text :=
  says_iff (.plain (messageJson text)) text_of_json V1_7.reads_chatMessage
    fun _ => V1_7.asUsize_of_decode

theorem says_positioned_iff :
    Says V1_12.decodeChatMessage (encodeString (messageJson text) ++ [position]) text ↔
      Decode.asUsize (.ofNat (messageSize text)) = messageSize text :=
  says_iff (.positioned (messageJson text) position) text_of_json
    (V1_12.reads_chatMessage position) fun _ => V1_12.asUsize_of_decode

theorem says_sent_iff (sender : Int64 × Int64) :
    Says V1_16.decodeChatMessage (encodeString (messageJson text) ++
        (position :: i64 sender.1 ++ i64 sender.2)) text ↔
      Decode.asUsize (.ofNat (messageSize text)) = messageSize text :=
  says_iff (.sent (messageJson text) position sender) text_of_json
    (V1_16.reads_chatMessage position sender) fun _ => V1_16.asUsize_of_decode

section Component

theorem mem_of_same {map map' : NbtMap} (h : NbtTag.Same (.compound map') (.compound map))
    (hfld : (name, .string s) ∈ map) : (name, .string s) ∈ map' := by
  cases h with
  | refl => exact hfld
  | compound hpm hsm =>
    have hmem := hpm.symm.mem_iff.mp (List.mem_map_of_mem hfld)
    obtain ⟨⟨_, t⟩, ht, rfl⟩ := List.mem_map.mp hmem
    cases hsm _ t _ ht hfld
    exact ht

theorem writeNbtString_inv (h : writeNbtString s = .ok bytes) :
    NbtTag.textSize s ≤ 65535 ∧
      bytes = u16 (.ofNat s.toUTF8.data.toList.length) ++ s.toUTF8.data.toList := by
  rw [writeNbtString] at h
  split at h
  · cases h
  · rename_i hsz
    cases h
    exact ⟨Nat.le_of_not_lt hsz, rfl⟩

theorem le_of_writeFields (h : writeFields map = .ok out) (hfld : (name, .string s) ∈ map) :
    NbtTag.textSize s ≤ 65535 ∧ NbtTag.textSize name + NbtTag.textSize s + 5 ≤ out.length := by
  induction map generalizing out with
  | nil => cases hfld
  | cons field map ih =>
    obtain ⟨key, bytes, rest, hkey, hbs, hmap, rfl⟩ := writeFields_cons h
    rcases List.mem_cons.mp hfld with hfst | hrs
    · cases hfst
      obtain ⟨-, rfl⟩ := writeNbtString_inv hkey
      obtain ⟨hsz, rfl⟩ := writeNbtString_inv hbs
      refine ⟨hsz, ?_⟩
      simp only [NbtTag.textSize, u16, List.length_append, List.length_cons, length_bigEndian]
      omega
    · obtain ⟨hsz, hlen⟩ := ih hmap hrs
      rw [List.length_append]
      exact ⟨hsz, Nat.le_trans hlen (Nat.le_add_left _ _)⟩

def messageValue (text : String) : SerdeValue :=
  .object [("color", .string "yellow"), ("text", .string text)]

theorem message_converted (hlib : lib.fromStr (messageJson text) = some (messageValue text))
    (hsz : NbtTag.textSize text ≤ 65535) :
    ∃ nbt, jsonComponentToNamelessNbt lib (messageJson text) = some nbt := by
  have hpl : SerdeValue.Plain maxNbtDepth (messageValue text) := by
    refine .object ?_ ?_ (by decide : ["color", "text"].Nodup)
    · intro field hfld
      rcases List.mem_pair.mp hfld with rfl | rfl
      · exact .string (by decide)
      · exact .string hsz
    · intro field hfld
      rcases List.mem_pair.mp hfld with rfl | rfl
      · exact (by decide : NbtTag.textSize "color" ≤ 65535)
      · exact (by decide : NbtTag.textSize "text" ≤ 65535)
  have hstrs : ∀ field ∈ [("color", SerdeValue.string "yellow"), ("text", .string text)],
      field.2.Uniform ∧ field.2.InRange := by
    intro field hfld
    rcases List.mem_pair.mp hfld with rfl | rfl
    · exact ⟨.string, .string⟩
    · exact ⟨.string, .string⟩
  obtain ⟨nbt, -, hnbt, -⟩ := converts_of_uniform hpl hlib
    (.object fun field hfld => (hstrs field hfld).1)
    (.object fun field hfld => (hstrs field hfld).2)
  exact ⟨nbt, hnbt⟩

theorem of_message_converted (hlib : lib.fromStr (messageJson text) = some (messageValue text))
    (h : jsonComponentToNamelessNbt lib (messageJson text) = some nbt) :
    NbtTag.textSize text ≤ 65535 ∧ ∃ payload, nbt = 0x0a :: payload ∧ 16 ≤ payload.length := by
  obtain ⟨value, root, payload, hval, hroot, henc, rfl⟩ := component_eq_some.mp h
  cases hlib.symm.trans hval
  cases hroot
  have hwal := lib.walk_same ⟨"", [("color", .string "yellow"), ("text", .string text)]⟩
  obtain ⟨payload', hwr, hpay⟩ := encode_nameless henc hwal.1
  cases hpay
  have hcol := le_of_writeFields hwr (mem_of_same hwal.2 List.mem_cons_self)
  have htx := le_of_writeFields hwr
    (mem_of_same hwal.2 (List.mem_cons_of_mem _ List.mem_cons_self))
  exact ⟨htx.1, payload, rfl, hcol.2⟩

end Component

theorem systemMessageBody_of_system (h : chatPacketName proto = "ClientboundSystemChat") :
    systemMessageBody lib text proto =
      match if 765 ≤ proto then jsonComponentToNamelessNbt lib (messageJson text) else none with
      | some nbt => some (nbt ++ [0])
      | none => (TypedChat.system (messageJson text) false).encode.toOption := by
  have hct : ("ClientboundChatMessage" : String) ≠ "ClientboundSystemChat" := by decide
  rw [chatPacketName] at h
  rw [systemMessageBody]
  generalize nearest proto = v at h ⊢
  cases v <;> first | exact absurd h hct | rfl

theorem system_packet : ∀ proto ∈ supportedProtocols, 759 ≤ proto →
    chatPacketName proto = "ClientboundSystemChat" ∧
      ((nearest proto).canonicalTypedPacketVersion ∈ [.v1_19_4, .v1_20_4] ∨
        (nearest proto).canonicalTypedPacketVersion ∈ [.v1_21, .v26]) :=
  forall_mem_of_all (by decide +kernel)

structure ReadsSystem (decode : Decoder TypedChat) : Prop where
  reads : ∀ content bytes, string content = .ok bytes →
    Reads decode (bytes ++ [0]) (.system content false)
  left : ∀ body chat left, decode (0x0a :: body) = .ok (chat, left) →
    body.length = left.length + 11

theorem readsSystem (hpro : proto ∈ supportedProtocols) (h : 759 ≤ proto) :
    ∃ decode, typedPacket (nearest proto).canonicalTypedPacketVersion (chatPacketName proto) =
      some decode ∧ ReadsSystem decode := by
  obtain ⟨hnm, hver⟩ := system_packet proto hpro h
  rw [hnm]
  rcases hver with hver | hver
  · refine ⟨V1_20.decodeSystemChat, ?_, fun _ _ h => V1_20.reads_systemChat h false,
      fun _ _ _ => V1_20.left_of_compound⟩
    rcases List.mem_pair.mp hver with hver | hver <;> rw [hver] <;> rfl
  · refine ⟨V1_21.decodeSystemChat, ?_, fun _ _ h => V1_21.reads_systemChat h false,
      fun _ _ _ => V1_21.left_of_compound⟩
    rcases List.mem_pair.mp hver with hver | hver <;> rw [hver] <;> rfl

theorem system_eq_some : (TypedChat.system content false).encode.toOption = some body ↔
    ∃ bytes, string content = .ok bytes ∧ body = bytes ++ [0] := by
  rw [TypedChat.encode]
  cases string content with
  | error e =>
    constructor
    · intro h
      cases h
    · rintro ⟨bytes, h, -⟩
      cases h
  | ok bytes =>
    constructor
    · intro h
      cases h
      exact ⟨bytes, rfl, rfl⟩
    · rintro ⟨bytes', h, rfl⟩
      cases h
      rfl

theorem says_system_iff (hlib : lib.fromStr (messageJson text) = some (messageValue text))
    (hnm : chatPacketName proto = "ClientboundSystemChat") (hdec : ReadsSystem decode) :
    (∃ body, systemMessageBody lib text proto = some body ∧ Says decode body text) ↔
      (765 ≤ proto → 65535 < NbtTag.textSize text) ∧
        messageSize text ≤ Decode.maxStringLength * 3 := by
  rw [systemMessageBody_of_system hnm]
  cases hnbt : if 765 ≤ proto then jsonComponentToNamelessNbt lib (messageJson text) else none with
  | some nbt =>
    -- The component is taken for a text of ten bytes, and the client has bytes left.
    by_cases hpro : 765 ≤ proto
    · rw [if_pos hpro] at hnbt
      obtain ⟨hsz, payload, rfl, hlen⟩ := of_message_converted hlib hnbt
      refine iff_of_false ?_ fun h => Nat.not_lt.mpr hsz (h.1 hpro)
      rintro ⟨body, hbd, chat, hct, -⟩
      cases hbd
      rw [List.cons_append] at hct
      have hleft := hdec.left _ _ _ hct
      rw [List.length_append, List.length_singleton, List.length_nil] at hleft
      omega
    · rw [if_neg hpro] at hnbt
      cases hnbt
  | none =>
    have hsz (hpro : 765 ≤ proto) : 65535 < NbtTag.textSize text := by
      by_contra hsm
      obtain ⟨nbt, hso⟩ := message_converted hlib (Nat.le_of_not_lt hsm)
      rw [if_pos hpro, hso] at hnbt
      cases hnbt
    constructor
    · rintro ⟨body, hbd, -⟩
      obtain ⟨bytes, hbs, -⟩ := system_eq_some.mp hbd
      exact ⟨hsz, (string_eq_ok hbs).1⟩
    · rintro ⟨-, hlim⟩
      have hbs : string (messageJson text) = .ok (encodeString (messageJson text)) := by
        exact if_neg (Nat.not_lt.mpr hlim)
      have hrd := hdec.reads _ _ hbs []
      rw [List.append_nil] at hrd
      exact ⟨_, system_eq_some.mpr ⟨_, hbs, rfl⟩, _, hrd, text_of_json⟩

theorem not_delivered (hpro : proto ∈ supportedProtocols)
    (hold : proto ∉ [5, 47, 78, 340, 754]) (hnew : ¬759 ≤ proto) :
    ¬∃ packet, buildSystemMessagePacket lib text proto = some packet ∧
      Delivered proto text packet := by
  rintro ⟨packet, hpkt, hdel⟩
  obtain ⟨body, -, rfl⟩ := Option.map_eq_some_iff.mp hpkt
  rcases ((delivered_iff hpro).mp hdel).1 with h | h
  · exact hold h
  · exact hnew h

theorem deliverable_old (h : proto ∈ [5, 47, 340, 754]) : Deliverable proto text ↔
    Decode.asUsize (.ofNat (messageSize text)) = messageSize text := by
  have hold : ∀ proto ∈ [(5 : UInt32), 47, 340, 754], proto ≠ 78 ∧ ¬759 ≤ proto :=
    forall_mem_of_all (by decide)
  simp only [Deliverable, hold proto h, h, false_and, true_and, false_or, or_false]

theorem deliverable_legacy : Deliverable 78 text ↔ (utf16 text).length ≤ 65535 := by
  have hold : (78 : UInt32) ∉ [5, 47, 340, 754] ∧ ¬(759 : UInt32) ≤ 78 := by decide
  simp only [Deliverable, hold, false_and, true_and, or_false]

theorem deliverable_new (h : 759 ≤ proto) : Deliverable proto text ↔
    (765 ≤ proto → 65535 < NbtTag.textSize text) ∧
      messageSize text ≤ Decode.maxStringLength * 3 := by
  have hold : ∀ proto ∈ [(5 : UInt32), 47, 340, 754], ¬759 ≤ proto := forall_mem_of_all (by decide)
  have hls : proto ∉ [5, 47, 340, 754] := fun hmem => hold proto hmem h
  have h78 : proto ≠ 78 := by
    rintro rfl
    exact (by decide : ¬(759 : UInt32) ≤ 78) h
  simp only [Deliverable, h78, hls, h, false_and, true_and, false_or]

end Messages

/-- A message reaches the client of a supported version, as the packet that the registry says,
exactly on some versions and with texts that their packets have room for. The library reads back the
JSON it prints. -/
theorem message_delivered_iff (lib : ComponentLibrary) (text : String)
    (hlib : lib.fromStr (messageJson text) = some (messageValue text))
    (hproto : proto ∈ supportedProtocols) :
    (∃ packet, buildSystemMessagePacket lib text proto = some packet ∧
      Delivered proto text packet) ↔ Deliverable proto text := by
  by_cases hnew : 759 ≤ proto
  · obtain ⟨decode, htyped, hdecode⟩ := readsSystem hproto hnew
    rw [message_iff hproto (.inr hnew) htyped, deliverable_new hnew]
    exact says_system_iff hlib (system_packet proto hproto hnew).1 hdecode
  · by_cases hold : proto ∈ [5, 47, 78, 340, 754]
    · simp only [List.mem_cons, List.not_mem_nil, or_false] at hold
      rcases hold with rfl | rfl | rfl | rfl | rfl
      · rw [message_iff_body hproto (by decide) rfl rfl, deliverable_old (by decide)]
        exact says_plain_iff
      · rw [message_iff_body hproto (by decide) rfl rfl, deliverable_old (by decide)]
        exact says_positioned_iff
      · rw [message_iff_body hproto (by decide) rfl rfl, deliverable_legacy]
        exact says_legacy_iff
      · rw [message_iff_body hproto (by decide) rfl rfl, deliverable_old (by decide)]
        exact says_positioned_iff
      · rw [message_iff_body hproto (by decide) rfl rfl, deliverable_old (by decide)]
        exact says_sent_iff (0, 0)
    · refine iff_of_false (not_delivered hproto hold hnew) ?_
      rintro (⟨rfl, -⟩ | ⟨h, -⟩ | ⟨h, -⟩)
      · exact hold (by decide)
      · exact hold (List.Sublist.subset (by decide) h)
      · exact hnew h

theorem hi_delivered : ∃ packet,
    buildSystemMessagePacket (oneTextLibrary (messageJson "hi") (messageValue "hi")) "hi" 754 =
      some packet ∧ Delivered 754 "hi" packet :=
  (message_delivered_iff _ "hi" (oneText_self _ _) (by decide)).mpr
    (.inr (.inl ⟨by decide, by decide +kernel⟩))

/-- In 1.9 the message has the id of no packet, and not that of the chat. -/
theorem hi_not_delivered :
    (107 : UInt32) ∈ supportedProtocols ∧
    buildSystemMessagePacket (oneTextLibrary (messageJson "hi") (messageValue "hi")) "hi" 107 =
      some (0xFF :: 0x01 :: (encodeString (messageJson "hi") ++ [0])) ∧
    playRegistry.getIdForVersion 107 .play .clientbound "ClientboundChatMessage" = some 0x0F ∧
    ¬∃ packet, buildSystemMessagePacket (oneTextLibrary (messageJson "hi") (messageValue "hi"))
      "hi" 107 = some packet ∧ Delivered 107 "hi" packet :=
  ⟨by decide, by decide +kernel, by decide +kernel,
    not_delivered (by decide) (by decide) (by decide)⟩

end Kojacoord
