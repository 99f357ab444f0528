import Kojacoord.Net.VarInt

namespace Kojacoord
open Journal

def Inverts (inflate : Reader.Inflate) (deflate : Deflate) : Prop :=
  ∀ raw, inflate (deflate raw) = (raw, none)

def packetBody (deflate : Deflate) (raw : List UInt8) (threshold : Int32) : List UInt8 :=
  if 0 ≤ threshold then compress deflate raw threshold else raw

theorem encodePacket_eq :
    encodePacket deflate raw threshold = encodeFrame (packetBody deflate raw threshold) := by
  rw [encodePacket, packetBody]
  split <;> rfl

namespace Reader
variable {inflate : Inflate} {deflate : Deflate} {raw body : List UInt8} {threshold : Int32}

theorem decode_encodeVarInt : decode Decode.varInt (encodeVarInt v ++ rest) = pure (v, rest) := by
  rw [decode, Decode.reads_varInt]

theorem ofNat_ne_zero (hpos : 0 < n) (h : n ≤ maxPacketSize) : Int32.ofNat n ≠ 0 := by
  intro hz
  have hint := toInt_ofNat h
  rw [hz] at hint
  change (0 : Int) = n at hint
  omega

theorem inflateExact_deflate (hzlib : Inverts inflate deflate) :
    inflateExact inflate raw.length (deflate raw) = pure raw := by
  simp [inflateExact, hzlib raw]

theorem decompress_deflated (hzlib : Inverts inflate deflate) (hne : raw ≠ [])
    (hraw : raw.length ≤ maxPacketSize) :
    decompress inflate (encodeVarInt (Int32.ofNat raw.length) ++ deflate raw) = pure raw := by
  have hpos := List.length_pos_iff.mpr hne
  rw [decompress, decode_encodeVarInt, pure_bind]
  simp only [if_neg (ofNat_ne_zero hpos hraw), asUsize_ofNat hraw, if_neg (not_tooLarge hraw)]
  exact inflateExact_deflate hzlib

theorem decompress_stored (inflate : Inflate) (raw : List UInt8) :
    decompress inflate (encodeVarInt 0 ++ raw) = pure raw := by
  rfl

theorem decompress_compress (hzlib : Inverts inflate deflate) (hne : raw ≠ [])
    (hraw : raw.length ≤ maxPacketSize) :
    decompress inflate (compress deflate raw threshold) = pure raw := by
  rw [compress]
  split
  · exact decompress_deflated hzlib hne hraw
  · exact decompress_stored inflate raw

theorem takes_readPacket_body (hbd : body.length ≤ maxPacketSize)
    (h : (if 0 ≤ threshold then decompress inflate body else pure body) = pure raw) :
    Takes (readPacket inflate threshold) (encodeFrame body) raw := by
  refine (takes_readFrame hbd).finish ?_
  rw [h]
  exact .pure raw

end Reader

open Reader

/-- Whatever follows a packet, the reader with the writer's threshold gets the packet back and
leaves the rest. -/
theorem packet_round_trip (inflate : Inflate) (deflate : Deflate) (hzlib : Inverts inflate deflate)
    (raw : List UInt8) (threshold : Int32) (hne : raw ≠ []) (hraw : raw.length ≤ 2 * 1024 * 1024)
    (hbody : (packetBody deflate raw threshold).length ≤ 2 * 1024 * 1024) :
    ∀ s suffix, s.Flowing → s.available = encodePacket deflate raw threshold ++ suffix →
      ∃ t, (readPacket inflate threshold).run s = (.ok raw, t) ∧ t.Flowing ∧
        t.available = suffix := by
  rw [encodePacket_eq]
  apply takes_readPacket_body hbody
  rw [packetBody]
  split
  · exact decompress_compress hzlib hne hraw
  · rfl

theorem packet_round_trip_short : ∃ t,
    (readPacket (·, none) 256).run (.plain [.bytes 0x03 [0x00], .bytes 0x10 [0x07, 0x2A]]) =
      (.ok [0x10, 0x07], t) ∧ t.Flowing ∧ t.available = [0x2A] := by
  have hflowing : McStream.Flowing (.plain [.bytes 0x03 [0x00], .bytes 0x10 [0x07, 0x2A]]) := by
    simp [McStream.Flowing, McStream.plain]
  exact packet_round_trip (·, none) id (fun _ => rfl) [0x10, 0x07] 256 (by decide) (by decide)
    (by decide) _ [0x2A] hflowing (by decide)

end Kojacoord
