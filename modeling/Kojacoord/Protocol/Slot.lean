import Kojacoord.Net.VarInt
import Kojacoord.Protocol.NbtRoundTrip

namespace Kojacoord
open RoundTrip Decode NbtTag

structure SlotData where
  itemId : Int32
  count : Int8
  nbt : Option Nbt

structure Slot where
  item : Option SlotData

structure LegacySlotData where
  itemId : Int16
  count : Int8
  damage : Int16
  nbt : Option Nbt

structure LegacySlot where
  item : Option LegacySlotData

def encodeItemNbt : Option Nbt → Except ProtocolError (List UInt8)
  | none => return [0]
  | some nbt => nbt.encode

def decodeItemNbt : Decoder (Option Nbt) := do
  if (← get).head? = some 0 then
    modify List.tail
    return none
  else return some (← Nbt.decode)

def Slot.encode (slot : Slot) : Except ProtocolError (List UInt8) :=
  match slot.item with
  | none => return [0]
  | some data => do
    return 1 :: encodeVarInt data.itemId ++ data.count.toUInt8 :: (← encodeItemNbt data.nbt)

def Slot.decode : Decoder Slot := do
  let present := (← u8) != 0
  if !present then return ⟨none⟩
  let itemId ← varInt
  let count := (← u8).toInt8
  let nbt ← decodeItemNbt
  return ⟨some { itemId, count, nbt }⟩

def LegacySlot.encode (slot : LegacySlot) : Except ProtocolError (List UInt8) :=
  match slot.item with
  | none => return Encode.i16 (-1)
  | some data => do
    return Encode.i16 data.itemId ++ data.count.toUInt8 :: Encode.i16 data.damage ++
      (← encodeItemNbt data.nbt)

def LegacySlot.decode : Decoder LegacySlot := do
  let itemId ← i16
  if itemId = -1 then return ⟨none⟩
  if (← get).length < 3 then throw .unexpectedEof
  let count := (← u8).toInt8
  let damage ← i16
  let nbt ← decodeItemNbt
  return ⟨some { itemId, count, damage, nbt }⟩

/-- The tag keeps to the codec's limits, with `n` levels to go before that on nesting, which counts
compounds and lists of compounds, but no other lists. -/
inductive NbtTag.Codable : Nat → NbtTag → Prop
  | leaf : Fits 0 t → Codable n t
  | list : (∀ item ∈ items, Codable n item) → (∀ item ∈ items, item.tagType = ty) →
      ty ≠ .compound → items.length ≤ 1048576 → Codable n (.list items)
  | compounds : (∀ item ∈ items, Codable n item) → (∀ item ∈ items, item.tagType = .compound) →
      items.length ≤ 1048576 → Codable (n + 1) (.list items)
  | compound : (∀ field ∈ map, Codable n field.2) → (∀ field ∈ map, textSize field.1 ≤ 65535) →
      (map.map Prod.fst).Nodup → Codable (n + 1) (.compound map)

def Nbt.Codable (nbt : Nbt) : Prop :=
  textSize nbt.name ≤ 65535 ∧ NbtTag.Codable maxNbtDepth (.compound nbt.root)

theorem NbtTag.Codable.tagType_ne_end (h : Codable n t) : t.tagType ≠ .end := by
  cases h with
  | leaf hft => exact hft.tagType_ne_end
  | list | compounds | compound => nofun

theorem NbtTag.Codable.returns (h : Codable n t) (hdp : depth + n ≤ maxNbtDepth) :
    Returns depth t := by
  induction h generalizing depth with
  | leaf hft => exact hft.returns (by omega)
  | list _ hty hne hlen ih =>
    refine returns_list ?_ hty hlen fun hcmp => absurd hcmp hne
    intro item hit
    rw [if_neg hne]
    exact ih item hit hdp
  | compounds _ hty hlen ih =>
    refine returns_list ?_ hty hlen fun _ => by omega
    intro item hit
    rw [if_pos rfl]
    exact ih item hit (by omega)
  | compound hflds hnms hnd ih =>
    refine returns_compound ?_ hnms ?_ hnd (by omega)
    · intro field hfld
      exact ih field hfld (by omega)
    · intro field hfld
      exact (hflds field hfld).tagType_ne_end

theorem reads_itemNbt (h : ∀ tag ∈ nbt, Nbt.Codable tag) :
    ∃ bytes, encodeItemNbt nbt = .ok bytes ∧ Reads decodeItemNbt bytes nbt := by
  cases nbt with
  | none => exact ⟨[0], rfl, fun rest => rfl⟩
  | some tag =>
    obtain ⟨hnm, hroot⟩ := h tag rfl
    obtain ⟨tail, henc, hrds⟩ :=
      Nbt.reads_of_returns hnm (hroot.returns (Nat.le_of_eq (Nat.zero_add _)))
    have hso : Reads (do return some (← Nbt.decode)) _ (some tag) := hrds.finish (.pure _)
    refine ⟨_, henc, ?_⟩
    intro rest
    exact hso rest

theorem Slot.returns (slot : Slot) (h : ∀ data ∈ slot.item, ∀ tag ∈ data.nbt, Nbt.Codable tag) :
    ∃ bytes, slot.encode = .ok bytes ∧ Reads Slot.decode bytes slot := by
  obtain ⟨_ | data⟩ := slot
  · exact ⟨[0], rfl, fun rest => rfl⟩
  · obtain ⟨bytes, henc, hrds⟩ := reads_itemNbt (h data rfl)
    refine ⟨[1] ++ (encodeVarInt data.itemId ++ ([data.count.toUInt8] ++ bytes)), ?_, ?_⟩
    · simp only [Slot.encode, henc]
      rfl
    · apply (reads_u8 1).bind
      apply (reads_varInt _).bind
      apply (reads_u8 _).bind
      exact hrds.finish (.pure _)

theorem LegacySlot.returns (slot : LegacySlot) (hid : ∀ data ∈ slot.item, data.itemId ≠ -1)
    (h : ∀ data ∈ slot.item, ∀ tag ∈ data.nbt, Nbt.Codable tag) :
    ∃ bytes, slot.encode = .ok bytes ∧ Reads LegacySlot.decode bytes slot := by
  obtain ⟨_ | data⟩ := slot
  · exact ⟨_, rfl, (reads_i16 (-1)).finish (.pure _)⟩
  · obtain ⟨bytes, henc, hrds⟩ := reads_itemNbt (h data rfl)
    refine ⟨Encode.i16 data.itemId ++ ([data.count.toUInt8] ++ (Encode.i16 data.damage ++ bytes)),
      ?_, ?_⟩
    · simp only [LegacySlot.encode, henc]
      rfl
    · apply (reads_i16 _).bind
      rw [if_neg (hid data rfl)]
      have hrs : Reads (do
          let count := (← u8).toInt8
          let damage ← i16
          let nbt ← decodeItemNbt
          return (⟨some ⟨data.itemId, count, damage, nbt⟩⟩ : LegacySlot))
          ([data.count.toUInt8] ++ (Encode.i16 data.damage ++ bytes)) ⟨some data⟩ := by
        apply (reads_u8 _).bind
        apply (reads_i16 _).bind
        exact hrds.finish (.pure _)
      intro rest
      exact hrs rest

/-- A slot is decoded as it was encoded, whatever follows it. -/
theorem slot_round_trip :
    (∀ slot : Slot, (∀ data ∈ slot.item, ∀ tag ∈ data.nbt, Nbt.Codable tag) →
      ∃ bytes, slot.encode = .ok bytes ∧
        ∀ rest, Slot.decode (bytes ++ rest) = .ok (slot, rest)) ∧
    (∀ slot : LegacySlot, (∀ data ∈ slot.item, data.itemId ≠ -1) →
      (∀ data ∈ slot.item, ∀ tag ∈ data.nbt, Nbt.Codable tag) →
      ∃ bytes, slot.encode = .ok bytes ∧
        ∀ rest, LegacySlot.decode (bytes ++ rest) = .ok (slot, rest)) :=
  ⟨Slot.returns, LegacySlot.returns⟩

end Kojacoord
