import Kojacoord.Net.TransferReplies
import Kojacoord.Net.VarIntReaders

namespace Kojacoord
open Journal Option

deriving instance DecidableEq for LegacyPart

theorem Reader.follows_readExact : Follows (readExact n) (Splitter.exact n) := by
  constructor
  · intro s bytes rest hs h
    rw [Splitter.exact] at h
    split at h
    · rename_i hlen
      cases h
      exact readExact_flowing hs hlen
    · cases h
  · intro s hs h
    rw [Splitter.exact] at h
    split at h
    · cases h
    · rename_i hlen
      obtain ⟨t, hrun, -⟩ := readExact_end hs (Nat.lt_of_not_le hlen)
      exact ⟨_, t, hrun⟩

def Reader.consumed (x : Reader α) (s : McStream) : Option Nat :=
  match x.run s with
  | (.ok _, t) => some (s.available.length - t.available.length)
  | (.error _, _) => none

theorem Reader.Follows.consumed {x : Reader α} {f : Splitter α} (h : Follows x f) (hs : s.Flowing) :
    x.consumed s = (f s.available).map fun r => s.available.length - r.2.length := by
  rcases hf : f s.available with _ | ⟨a, rest⟩
  · obtain ⟨e, t, hrun⟩ := h.fails s hs hf
    rw [Reader.consumed, hrun]
    rfl
  · obtain ⟨t, hrun, -, rfl⟩ := h.takes s a rest hs hf
    rw [Reader.consumed, hrun]
    rfl

namespace LegacyPart
open Reader Splitter

def splitCounted : Splitter (List UInt8) := do
  let length ← exact 2
  let data ← exact (legacyLength length)
  return length ++ data

def split : LegacyPart → Splitter (List UInt8)
  | fixed n => exact n
  | ucs2 => do
    let length ← exact 2
    let chars ← exact (Decode.bigEndian length * 2)
    return length ++ chars
  | slot => do
    let item ← exact 2
    if Decode.bigEndian item = 0xFFFF then return item
    let countDamage ← exact 3
    return item ++ countDamage ++ (← splitCounted)
  | counted => splitCounted

theorem follows_readCounted : Follows readCounted splitCounted :=
  follows_readExact.bind fun _ => follows_readExact.bind fun _ => follows_pure _

theorem follows_read (part : LegacyPart) : Follows part.read part.split := by
  cases part with
  | fixed n => exact follows_readExact
  | ucs2 =>
    apply follows_readExact.bind
    intro length
    exact follows_readExact.bind fun _ => follows_pure _
  | slot =>
    apply follows_readExact.bind
    intro item
    split
    · exact follows_pure item
    · apply follows_readExact.bind
      intro countDamage
      exact follows_readCounted.bind fun _ => follows_pure _
  | counted => exact follows_readCounted

end LegacyPart

open Reader

def splitParts : List LegacyPart → Splitter (List UInt8)
  | [] => return []
  | part :: parts => do
    let bytes ← part.split
    return bytes ++ (← splitParts parts)

theorem follows_readParts : Follows (readParts parts) (splitParts parts) := by
  induction parts with
  | nil => exact follows_pure []
  | cons part parts ih =>
    apply part.follows_read.bind
    intro bytes
    exact ih.bind fun _ => follows_pure _

def splitPacket (shapes : List (UInt8 × List LegacyPart)) (result : UInt8 → List UInt8 → α) :
    Splitter α := do
  let id ← Splitter.byte
  match shapes.lookup id with
  | some parts => return result id (← splitParts parts)
  | none => failure

variable {shapes : List (UInt8 × List LegacyPart)} {result : UInt8 → List UInt8 → α} {id byte : UInt8}

theorem splitPacket_cons (rest : List UInt8) :
    splitPacket shapes result (id :: rest) = (shapes.lookup id).bind fun parts =>
      (splitParts parts rest).map fun r => (result id r.1, r.2) := by
  simp only [splitPacket, bind, StateT.bind, Splitter.byte, bind_some]
  cases shapes.lookup id with
  | none => rfl
  | some parts =>
    simp only [StateT.bind, bind_some, bind]
    cases splitParts parts rest <;> rfl

theorem follows_readPreNettyPacket :
    Follows readPreNettyPacket (splitPacket relayShapes List.cons) := by
  apply follows_readU8.bind
  intro id
  cases relayShapes.lookup id with
  | none => exact follows_fail _
  | some parts => exact follows_readParts.bind fun _ => follows_pure _

theorem follows_readAndDiscardPreNetty :
    Follows readAndDiscardPreNetty (splitPacket limboShapes fun _ _ => ()) := by
  apply follows_readU8.bind
  intro id
  cases limboShapes.lookup id with
  | none => exact follows_fail _
  | some parts => exact follows_readParts.bind fun _ => follows_pure _

def packetLength (shapes : List (UInt8 × List LegacyPart)) : List UInt8 → Option Nat
  | [] => none
  | id :: rest => (shapes.lookup id).bind fun parts =>
    (splitParts parts rest).map fun r => rest.length + 1 - r.2.length

theorem map_splitPacket (shapes : List (UInt8 × List LegacyPart))
    (result : UInt8 → List UInt8 → α) (bytes : List UInt8) :
    (splitPacket shapes result bytes).map (fun r => bytes.length - r.2.length) =
      packetLength shapes bytes := by
  cases bytes with
  | nil => rfl
  | cons id rest =>
    rw [splitPacket_cons, packetLength, map_bind]
    congr 1
    funext parts
    exact map_map ..

def loneIds : List UInt8 := [0x0F, 0x16, 0x65, 0x66, 0x6A, 0x82, 0xFE]

theorem lookup_shapes (id : UInt8) : if id ∈ loneIds
    then relayShapes.lookup id = none ∨ limboShapes.lookup id = none
    else relayShapes.lookup id = limboShapes.lookup id := by
  exact forall_byte id (by decide +kernel)

def EndsWithin (id : UInt8) (rest : List UInt8) : Prop :=
  ∀ parts, relayShapes.lookup id = some parts ∨ limboShapes.lookup id = some parts →
    splitParts parts rest = none

theorem packetLength_eq_none {id : UInt8} : packetLength shapes (id :: rest) = none ↔
    ∀ parts, shapes.lookup id = some parts → splitParts parts rest = none := by
  simp only [packetLength, bind_eq_none_iff, map_eq_none_iff]

/-- The relay and limbo agree on where a packet ends, but for packets that only one of them knows:
there the other always fails. -/
theorem preNetty_boundaries_iff (hs : s.Flowing) :
    readPreNettyPacket.consumed s = readAndDiscardPreNetty.consumed s ↔
      ∀ id rest, s.available = id :: rest → id ∈ loneIds → EndsWithin id rest := by
  rw [follows_readPreNettyPacket.consumed hs, follows_readAndDiscardPreNetty.consumed hs,
    map_splitPacket, map_splitPacket]
  cases s.available with
  | nil => exact iff_of_true rfl fun _ _ h => by cases h
  | cons id rest =>
    have hshapes := lookup_shapes id
    split at hshapes
    · rename_i hlone
      have hends : EndsWithin id rest ↔ packetLength relayShapes (id :: rest) = none ∧
          packetLength limboShapes (id :: rest) = none := by
        simp only [EndsWithin, packetLength_eq_none, or_imp, forall_and]
      have hcond : (∀ i r, id :: rest = i :: r → i ∈ loneIds → EndsWithin i r) ↔
          EndsWithin id rest := by
        constructor
        · intro h
          exact h id rest rfl hlone
        · rintro h i r ⟨⟩ -
          exact h
      rw [hcond, hends]
      rcases hshapes with hnone | hnone
      · have hlength : packetLength relayShapes (id :: rest) = none := by
          rw [packetLength, hnone, bind_none]
        rw [hlength, and_iff_right rfl]
        exact eq_comm
      · have hlength : packetLength limboShapes (id :: rest) = none := by
          rw [packetLength, hnone, bind_none]
        rw [hlength, and_iff_left rfl]
    · rename_i hknown
      refine iff_of_true ?_ fun _ _ h hlone => ?_
      · rw [packetLength, packetLength, hshapes]
      · cases h
        exact absurd hlone hknown

theorem preNetty_boundaries_iff_keepAlive :
    readPreNettyPacket.consumed (.plain [.bytes 0x00 [0, 0, 0, 1, 0x0A, 1]]) =
      readAndDiscardPreNetty.consumed (.plain [.bytes 0x00 [0, 0, 0, 1, 0x0A, 1]]) := by
  apply (preNetty_boundaries_iff ?_).mpr
  · rintro id rest ⟨⟩ hlone
    exact absurd hlone (by decide)
  · simp [McStream.Flowing, McStream.plain]

theorem closeWindow_unknown_to_limbo :
    readPreNettyPacket.consumed (.plain [.bytes 0x65 [0x00]]) = some 2 ∧
      readAndDiscardPreNetty.consumed (.plain [.bytes 0x65 [0x00]]) = none :=
  ⟨rfl, rfl⟩

theorem readClientPacket_preNetty (hpro : isPreNettyProto protocol = true)
    (h : (readClientPacket inflate protocol threshold).run s = (.ok payload, t)) :
    ∃ first body, payload = first :: body := by
  rw [readClientPacket, if_pos hpro, readPreNettyPacket] at h
  obtain ⟨id, u, -, h⟩ := run_bind_eq_ok h
  split at h
  · obtain ⟨body, v, -, h⟩ := run_bind_eq_ok h
    cases h
    exact ⟨id, body, rfl⟩
  · cases h

theorem byte_of_group : byte < 0x80 → byte &&& 0x80 = 0 ∧
    ¬((byte &&& 0x7F).toUInt32.toInt32 < 0 ∨ 255 < (byte &&& 0x7F).toUInt32.toInt32) ∧
    (byte &&& 0x7F).toUInt32.toInt32.toInt.toNat.toUInt8 = byte := by
  exact forall_byte byte (by decide +kernel)

theorem marked_of_le : ¬byte < 0x80 → byte &&& 0x80 ≠ 0 := by
  exact forall_byte byte (by decide +kernel)

theorem splitId_unmarked (hfst : first < 0x80) (body : List UInt8) :
    splitId (first :: body) = some (first, body) := by
  obtain ⟨hmk, hrng, hby⟩ := byte_of_group hfst
  have hvar : Decode.varInt (first :: body) = .ok ((first &&& 0x7F).toUInt32.toInt32, body) := by
    rw [Decode.varInt, Decode.varIntMaxBytes, Decode.varIntLoop_cons, if_neg (by simp),
      if_pos hmk, UInt32.zero_or, UInt32.shiftLeft_zero]
  rw [splitId, hvar]
  dsimp only
  rw [if_neg hrng, hby]

theorem splitId_marked {id : UInt8} (hfst : ¬first < 0x80)
    (h : splitId (first :: body) = some (id, rest)) : rest.length < body.length := by
  obtain ⟨v, hv, -, -⟩ := splitId_eq_some h
  have hlp : varintLoop 5 0 0 (first :: body) = some (v, rest) := (Decode.varInt_eq_ok.mp hv).2
  rw [varintLoop, if_neg (marked_of_le hfst)] at hlp
  obtain ⟨k, hpos, hk, rfl⟩ := rest_of_varintLoop hlp
  rw [List.length_drop]
  omega

namespace RelayM

end RelayM

/-- The relay takes the first byte of a packet without a frame for its id, and the others for its
body, exactly if that byte has no mark. -/
theorem preNetty_dispatch_iff (hproto : isPreNettyProto protocol = true)
    (h : (readClientPacket inflate protocol threshold).run s = (.ok payload, t)) :
    ∃ first body, payload = first :: body ∧
      (splitId payload = some (first, body) ↔ first < 0x80) := by
  obtain ⟨first, body, rfl⟩ := readClientPacket_preNetty hproto h
  refine ⟨first, body, rfl, ?_, fun hfirst => splitId_unmarked hfirst body⟩
  intro hsplit
  by_contra hmarked
  exact absurd (splitId_marked hmarked hsplit) (Nat.lt_irrefl _)

theorem preNetty_dispatch_iff_chat : ∃ first body, [0x03, 0x00, 0x00] = first :: body ∧
    (splitId [0x03, 0x00, 0x00] = some (first, body) ↔ first < 0x80) :=
  have hread : (readClientPacket (fun _ => ([], none)) 78 (-1)).run
      (.plain [.bytes 0x03 [0x00, 0x00]]) = (.ok [0x03, 0x00, 0x00], .plain []) := rfl
  preNetty_dispatch_iff (by decide) hread

/-- A plugin message on the channel without a name is taken for a packet 0x7A. -/
theorem pluginMessage_dispatched_as_0x7A :
    isPreNettyProto 78 = true ∧
      ((readClientPacket (fun _ => ([], none)) 78 (-1)).run
        (.plain [.bytes 0xFA [0x00, 0x00, 0x00, 0x00]])).1 = .ok [0xFA, 0x00, 0x00, 0x00, 0x00] ∧
      splitId [0xFA, 0x00, 0x00, 0x00, 0x00] = some (0x7A, [0x00, 0x00, 0x00]) :=
  ⟨by decide, rfl, by decide⟩

end Kojacoord
