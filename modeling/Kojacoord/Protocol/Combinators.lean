import Kojacoord.Net.PluginMessages

namespace Kojacoord
open RoundTrip Decode

structure Codec (α : Type) where
  encode : α → Except ProtocolError (List UInt8)
  decode : Decoder α

namespace Codec

def Returns (c : Codec α) (a : α) : Prop := ∃ bytes, c.encode a = .ok bytes ∧ Reads c.decode bytes a

def bool : Codec Bool := ⟨fun b => return [if b then 1 else 0], Decode.bool⟩

def varInt : Codec Int32 := ⟨fun v => return encodeVarInt v, Decode.varInt⟩

def string : Codec String := ⟨Encode.string, Decode.string⟩

def maxPacketSize : Nat := 1 <<< 25

def length (maximum : Nat) : Decoder Nat := do
  let raw ← Decode.varInt
  if raw < 0 then throw (.packetTooLarge (asUsize raw) maximum)
  let len := asUsize raw
  if len > maximum then throw (.packetTooLarge len maximum)
  return len

def byteArray : Codec (List UInt8) where
  encode data := return encodeVarInt (.ofNat data.length) ++ data
  decode := do take (← length maxPacketSize)

def encodeItems (c : Codec α) : List α → Except ProtocolError (List UInt8)
  | [] => return []
  | item :: items => do
    let bytes ← c.encode item
    return bytes ++ (← encodeItems c items)

def maxVecLen : Nat := 65536

def vec (c : Codec α) : Codec (List α) where
  encode items := do return encodeVarInt (.ofNat items.length) ++ (← c.encodeItems items)
  decode := do times c.decode (← length maxVecLen)

def option (c : Codec α) : Codec (Option α) where
  encode
    | some a => do return (← bool.encode true) ++ (← c.encode a)
    | none => bool.encode false
  decode := do if ← bool.decode then return some (← c.decode) else return none

theorem reads_length (hmax : maximum < 2 ^ 31) (h : n ≤ maximum) :
    Reads (length maximum) (encodeVarInt (.ofNat n)) n := by
  have hint : (Int32.ofNat n).toInt = n := Int32.toInt_ofNat_of_lt (by omega)
  have hsz : asUsize (.ofNat n) = n := by
    rw [asUsize, hint]
    omega
  have hneg : ¬Int32.ofNat n < 0 := by
    rw [Int32.lt_iff_toInt_lt, hint]
    exact Int.not_lt.mpr (Int.natCast_nonneg n)
  apply (reads_varInt _).finish
  rw [hsz, if_neg hneg, if_neg (Nat.not_lt.mpr h)]
  exact .pure n

theorem encodeItems_of_returns {c : Codec α} (h : ∀ a ∈ items, c.Returns a) :
    ∃ bytess, c.encodeItems items = .ok bytess.flatten ∧
      List.Forall₂ (Reads c.decode) bytess items := by
  induction items with
  | nil => exact ⟨[], rfl, .nil⟩
  | cons a items ih =>
    obtain ⟨bytes, henc, hrd⟩ := h a List.mem_cons_self
    obtain ⟨bytess, hencs, hrds⟩ := ih fun a ha => h a (List.mem_cons_of_mem _ ha)
    refine ⟨bytes :: bytess, ?_, .cons hrd hrds⟩
    rw [encodeItems, henc, hencs]
    rfl

theorem returns_vec {c : Codec α} (h : ∀ a ∈ items, c.Returns a) (hlen : items.length ≤ maxVecLen) :
    c.vec.Returns items := by
  obtain ⟨bytess, henc, hrds⟩ := encodeItems_of_returns h
  refine ⟨encodeVarInt (.ofNat items.length) ++ bytess.flatten, ?_, ?_⟩
  · simp only [vec, henc]
    rfl
  · exact (reads_length (by decide) hlen).bind (.times hrds)

theorem returns_option {c : Codec α} (h : ∀ a ∈ o, c.Returns a) : c.option.Returns o := by
  cases o with
  | none => exact ⟨[0], rfl, fun rest => rfl⟩
  | some a =>
    obtain ⟨bytes, henc, hrd⟩ := h a rfl
    refine ⟨[1] ++ bytes, ?_, ?_⟩
    · simp only [option, henc]
      rfl
    · have htrue : Reads Decode.bool [1] true := fun rest => rfl
      exact htrue.bind (hrd.finish (.pure _))

theorem returns_byteArray (h : data.length ≤ maxPacketSize) : byteArray.Returns data :=
  ⟨_, rfl, (reads_length (by decide) h).bind (reads_take rfl)⟩

/-- Options and vectors of what is decoded as it was encoded are so too, and so are strings that can
be encoded and byte arrays. -/
theorem combinators_round_trip (c : Codec α) (h : ∀ a, c.Returns a) :
    (∀ o, c.option.Returns o) ∧ (∀ items, items.length ≤ 65536 → c.vec.Returns items) ∧
      (∀ s bytes, string.encode s = .ok bytes → Reads string.decode bytes s) ∧
      ∀ data : List UInt8, data.length ≤ 2 ^ 25 → byteArray.Returns data :=
  ⟨fun _ => returns_option fun a _ => h a, fun _ => returns_vec fun a _ => h a,
    fun _ _ => reads_string, fun _ => returns_byteArray⟩

theorem combinators_round_trip_varInt :
    varInt.vec.Returns [1, -1] ∧ varInt.option.Returns none := by
  obtain ⟨hoption, hvec, -⟩ := combinators_round_trip varInt fun v => ⟨_, rfl, reads_varInt v⟩
  exact ⟨hvec _ (by decide), hoption _⟩

end Codec

end Kojacoord
