import Kojacoord.Net.FirstPacket
import Kojacoord.Net.TransferReplies

namespace Kojacoord
open RoundTrip Decode

def Encode.string (s : String) : Except ProtocolError (List UInt8) :=
  let length := s.toUTF8.data.toList.length
  if length > maxStringLength * 3 then
    .error (.stringTooLong length (maxStringLength * 3))
  else .ok (encodeString s)

theorem Encode.string_eq_ok (h : string s = .ok bytes) :
    s.toUTF8.data.toList.length ≤ maxStringLength * 3 ∧ bytes = encodeString s := by
  rw [string] at h
  split at h
  · cases h
  · rename_i hlen
    cases h
    exact ⟨Nat.le_of_not_gt hlen, rfl⟩

theorem Decode.reads_string (h : Encode.string s = .ok bytes) : Reads string bytes s := by
  obtain ⟨hlen, rfl⟩ := Encode.string_eq_ok h
  have hft : s.toUTF8.data.toList.length ≤ Reader.maxPacketSize := Nat.le_trans hlen (by decide)
  refine (reads_varInt _).bind ?_
  rw [Reader.asUsize_ofNat hft, if_neg (Nat.not_lt.mpr hlen)]
  apply (reads_take rfl).finish
  rw [fromUTF8_bytes]
  exact .pure s

theorem Decode.string_inv (h : string src = .ok (s, left)) :
    ∃ len src₁ bytes, varInt src = .ok (len, src₁) ∧ asUsize len ≤ maxStringLength * 3 ∧
      bytes.length = asUsize len ∧ src₁ = bytes ++ left ∧
      String.fromUTF8? ⟨bytes.toArray⟩ = some s := by
  obtain ⟨len, src₁, hlen, h⟩ := bind_eq_ok.mp h
  by_cases hlg : asUsize len > maxStringLength * 3
  · simp only [if_pos hlg] at h
    cases h
  · simp only [if_neg hlg] at h
    obtain ⟨bytes, src₂, htk, hbd⟩ := bind_eq_ok.mp h
    obtain ⟨hbs, hsrc⟩ := take_eq_ok.mp htk
    generalize hutf8 : String.fromUTF8? ⟨bytes.toArray⟩ = decoded at hbd
    cases decoded with
    | none => cases hbd
    | some s =>
      cases hbd
      exact ⟨len, src₁, bytes, hlen, Nat.le_of_not_gt hlg, hbs, hsrc, hutf8⟩

namespace PluginMessage
variable {channel : String} {data : List UInt8}

def encode (channel : String) (data : List UInt8) (protocol : UInt32) :
    Except PluginMessageError (List UInt8) :=
  match Encode.string channel with
  | .error e => .error (.encode ("channel: " ++ e.display))
  | .ok channel =>
    if nearest protocol ∈ [.v1_6_4, .v1_7_10, .v1_8] then
      if data.length > 65535 then .error (.dataTooLarge data.length 65535)
      else .ok (channel ++ Encode.u16 (.ofNat data.length) ++ data)
    else .ok (channel ++ data)

theorem decode_counted (h : Encode.string channel = .ok bytes)
    (hold : nearest protocol ∈ [.v1_6_4, .v1_7_10, .v1_8]) (hdata : data.length ≤ 65535) :
    decodeServerboundPluginMessage (bytes ++ Encode.u16 (.ofNat data.length) ++ data) protocol =
      .ok ⟨channel, data⟩ := by
  have hlen : data.length < 65536 := Nat.lt_succ_of_le hdata
  have hfld : Encode.u16 (.ofNat data.length) =
      [.ofNat (data.length / 256), .ofNat data.length] := by
    rw [Encode.u16, UInt16.toNat_ofNat_of_lt' hlen]
    simp [Encode.bigEndian]
  have hval : bigEndian [.ofNat (data.length / 256), .ofNat data.length] =
      data.length := by
    rw [← hfld, Encode.u16, UInt16.toNat_ofNat_of_lt' hlen]
    exact bigEndian_encode (w := 2) hlen
  rw [decodeServerboundPluginMessage, List.append_assoc, reads_string h, hfld]
  dsimp only [List.cons_append, List.nil_append]
  rw [if_pos hold, hval, if_neg (Nat.lt_irrefl _), List.take_length]

theorem decode_uncounted (h : Encode.string channel = .ok bytes)
    (hnew : nearest protocol ∉ [.v1_6_4, .v1_7_10, .v1_8]) (data : List UInt8) :
    decodeServerboundPluginMessage (bytes ++ data) protocol = .ok ⟨channel, data⟩ := by
  rw [decodeServerboundPluginMessage, reads_string h]
  dsimp only
  rw [if_neg hnew]

/-- Both decoders read back what the encoder writes, in every version. -/
theorem encode_decode (protocol : UInt32) (channel : String) (data : List UInt8)
    (hchannel : (Encode.string channel).isOk = true)
    (hdata : nearest protocol ∈ [.v1_6_4, .v1_7_10, .v1_8] → data.length ≤ 65535) :
    ∃ payload, encode channel data protocol = .ok payload ∧
      decodeServerboundPluginMessage payload protocol = .ok ⟨channel, data⟩ ∧
      decodeClientboundPluginMessage payload protocol = .ok ⟨channel, data⟩ := by
  cases hbytes : Encode.string channel with
  | error e => rw [hbytes] at hchannel; cases hchannel
  | ok bytes =>
    by_cases hold : nearest protocol ∈ [.v1_6_4, .v1_7_10, .v1_8]
    · have hdecode := decode_counted hbytes hold (hdata hold)
      refine ⟨_, ?_, hdecode, hdecode⟩
      rw [encode, hbytes]
      dsimp only
      rw [if_pos hold, if_neg (Nat.not_lt.mpr (hdata hold))]
    · have hdecode := decode_uncounted hbytes hold data
      refine ⟨_, ?_, hdecode, hdecode⟩
      rw [encode, hbytes]
      dsimp only
      rw [if_neg hold]

theorem encode_decode_brand : ∃ payload, encode "MC|Brand" [0x01, 0x02] 47 = .ok payload ∧
    decodeServerboundPluginMessage payload 47 = .ok ⟨"MC|Brand", [0x01, 0x02]⟩ ∧
    decodeClientboundPluginMessage payload 47 = .ok ⟨"MC|Brand", [0x01, 0x02]⟩ :=
  encode_decode 47 "MC|Brand" [0x01, 0x02] (by decide) fun _ => by decide

end PluginMessage

end Kojacoord
