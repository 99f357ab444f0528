import Kojacoord.Lib.Loops
import Kojacoord.Protocol.Encode

namespace Kojacoord
open RoundTrip Decode

def maxNbtDepth : Nat := 512

def maxNbtArrayLen : Int32 := 1048576

inductive TagType where
  | end
  | byte
  | short
  | int
  | long
  | float
  | double
  | byteArray
  | string
  | list
  | compound
  | intArray
  | longArray
deriving DecidableEq

def TagType.toU8 : TagType → UInt8
  | .end => 0
  | byte => 1
  | short => 2
  | int => 3
  | long => 4
  | float => 5
  | double => 6
  | byteArray => 7
  | string => 8
  | list => 9
  | compound => 10
  | intArray => 11
  | longArray => 12

def TagType.fromU8 : UInt8 → Except ProtocolError TagType
  | 0 => .ok .end
  | 1 => .ok byte
  | 2 => .ok short
  | 3 => .ok int
  | 4 => .ok long
  | 5 => .ok float
  | 6 => .ok double
  | 7 => .ok byteArray
  | 8 => .ok string
  | 9 => .ok list
  | 10 => .ok compound
  | 11 => .ok intArray
  | 12 => .ok longArray
  | other => .error (.unknownNbtTag other)

@[simp] theorem TagType.fromU8_toU8 (ty : TagType) : fromU8 ty.toU8 = .ok ty := by
  cases ty <;> rfl

/-- A tag. Floats are kept as their bits, and a hash map as its entries in iteration order. -/
inductive NbtTag where
  | end
  | byte (v : Int8)
  | short (v : Int16)
  | int (v : Int32)
  | long (v : Int64)
  | float (bits : UInt32)
  | double (bits : UInt64)
  | byteArray (arr : List Int8)
  | string (s : String)
  | list (items : List NbtTag)
  | compound (map : List (String × NbtTag))
  | intArray (arr : List Int32)
  | longArray (arr : List Int64)

abbrev NbtMap := List (String × NbtTag)

def NbtMap.insert (name : String) (tag : NbtTag) : NbtMap → NbtMap
  | [] => [(name, tag)]
  | (key, old) :: map =>
    if key = name then (key, tag) :: map else (key, old) :: NbtMap.insert name tag map

structure Nbt where
  name : String
  root : NbtMap

def Nbt.empty (name : String) : Nbt := ⟨name, []⟩

def tagType : Decoder TagType := do
  match TagType.fromU8 (← u8) with
  | .ok ty => return ty
  | .error e => throw e

def readNbtString : Decoder String := do
  let len ← u16
  let bytes ← take len.toNat
  match String.fromUTF8? ⟨bytes.toArray⟩ with
  | some s => return s
  | none => throw .invalidUtf8

def readNbtLength : Decoder Nat := do
  let rawLen ← i32
  if rawLen < 0 ∨ maxNbtArrayLen < rawLen then throw (.unknownNbtTag 0)
  return rawLen.toInt.toNat

def readFields (payload : TagType → Decoder NbtTag) : Nat → NbtMap → Decoder NbtMap
  | 0, _ => throw .unexpectedEof
  | n + 1, map => do
    let ty ← tagType
    if ty = .end then return map
    let name ← readNbtString
    let tag ← payload ty
    readFields payload n (NbtMap.insert name tag map)

/-- Every level of nesting takes a byte, so that `fuel` bytes and levels run out together. -/
def readTagPayloadDepth : Nat → TagType → Nat → Decoder NbtTag
  | 0, _, _ => throw .unexpectedEof
  | fuel + 1, ty, depth =>
    match ty with
    | .end => return .end
    | .byte => return .byte (← u8).toInt8
    | .short => return .short (← i16)
    | .int => return .int (← i32)
    | .long => return .long (← i64)
    | .float => return .float (← f32)
    | .double => return .double (← f64)
    | .byteArray => do
      let len ← readNbtLength
      return .byteArray ((← take len).map UInt8.toInt8)
    | .string => return .string (← readNbtString)
    | .list => do
      let elementType ← tagType
      let len ← readNbtLength
      if elementType = .compound then
        if maxNbtDepth ≤ depth then throw (.unknownNbtTag 0)
        return .list (← times (readTagPayloadDepth fuel elementType (depth + 1)) len)
      else
        return .list (← times (readTagPayloadDepth fuel elementType depth) len)
    | .compound => do
      if maxNbtDepth ≤ depth then throw (.unknownNbtTag 0)
      let map ← readFields (fun ty => readTagPayloadDepth fuel ty (depth + 1)) fuel []
      return .compound map
    | .intArray => do
      let len ← readNbtLength
      return .intArray (← times i32 len)
    | .longArray => do
      let len ← readNbtLength
      return .longArray (← times i64 len)

def readTagPayload (ty : TagType) : Decoder NbtTag := fun src =>
  readTagPayloadDepth (src.length + 1) ty 0 src

def writeNbtString (s : String) : Except ProtocolError (List UInt8) :=
  let bytes := s.toUTF8.data.toList
  if 65535 < bytes.length then .error (.unknownNbtTag 0)
  else .ok (Encode.u16 (.ofNat bytes.length) ++ bytes)

def tagTypeByte : NbtTag → UInt8
  | .end => 0
  | .byte _ => 1
  | .short _ => 2
  | .int _ => 3
  | .long _ => 4
  | .float _ => 5
  | .double _ => 6
  | .byteArray _ => 7
  | .string _ => 8
  | .list _ => 9
  | .compound _ => 10
  | .intArray _ => 11
  | .longArray _ => 12

def elementTypeByte : List NbtTag → UInt8
  | [] => 0
  | item :: _ => tagTypeByte item

mutual

def writeTagPayload : NbtTag → Except ProtocolError (List UInt8)
  | .end => return []
  | .byte v => return [v.toUInt8]
  | .short v => return Encode.i16 v
  | .int v => return Encode.i32 v
  | .long v => return Encode.i64 v
  | .float bits => return Encode.f32 bits
  | .double bits => return Encode.f64 bits
  | .byteArray arr => return Encode.i32 (.ofNat arr.length) ++ arr.map Int8.toUInt8
  | .string s => writeNbtString s
  | .list items => do
    let body ← writeItems items
    return elementTypeByte items :: Encode.i32 (.ofNat items.length) ++ body
  | .compound map => writeFields map
  | .intArray arr => return Encode.i32 (.ofNat arr.length) ++ (arr.map Encode.i32).flatten
  | .longArray arr => return Encode.i32 (.ofNat arr.length) ++ (arr.map Encode.i64).flatten

def writeItems : List NbtTag → Except ProtocolError (List UInt8)
  | [] => return []
  | item :: items => do
    let bytes ← writeTagPayload item
    return bytes ++ (← writeItems items)

def writeFields : List (String × NbtTag) → Except ProtocolError (List UInt8)
  | [] => return [TagType.toU8 .end]
  | (name, tag) :: map => do
    let key ← writeNbtString name
    let bytes ← writeTagPayload tag
    return tagTypeByte tag :: key ++ bytes ++ (← writeFields map)

end

def Nbt.encode (nbt : Nbt) : Except ProtocolError (List UInt8) := do
  let name ← writeNbtString nbt.name
  let payload ← writeTagPayload (.compound nbt.root)
  return TagType.toU8 .compound :: name ++ payload

def Nbt.decode : Decoder Nbt := do
  let typeByte ← u8
  if typeByte = 0 then return Nbt.empty ""
  match TagType.fromU8 typeByte with
  | .error e => throw e
  | .ok ty =>
    let name ← readNbtString
    match ← readTagPayload ty with
    | .compound map => return ⟨name, map⟩
    | _ => throw (.unknownNbtTag typeByte)

theorem consumes_tagType : Consumes 1 tagType := by
  refine consumes_u8.bind fun byte => ?_
  cases TagType.fromU8 byte with
  | ok ty => exact .pure ty
  | error e => exact .throw e

theorem consumes_nbtString : Consumes 2 readNbtString := by
  refine consumes_u16.bind fun len => ?_
  refine (consumes_take len.toNat).zero.bind fun bytes => ?_
  cases String.fromUTF8? ⟨bytes.toArray⟩ with
  | some s => exact .pure s
  | none => exact .throw _

theorem consumes_nbtLength : Consumes 4 readNbtLength := by
  refine consumes_i32.bind fun rawLen => ?_
  exact Consumes.ite ((Consumes.throw _).bind fun _ => Consumes.pure _) (Consumes.pure _)

def readField (payload : TagType → Decoder NbtTag) : Decoder (Option (String × NbtTag)) := do
  let ty ← tagType
  if ty = .end then return none
  let name ← readNbtString
  let tag ← payload ty
  return some (name, tag)

section Fields
variable {payload payload' : TagType → Decoder NbtTag}

theorem consumes_readField (h : ∀ ty, Consumes 0 (payload ty)) :
    Consumes 1 (readField payload) := by
  refine consumes_tagType.bind fun ty => .ite (.pure none) ?_
  refine consumes_nbtString.zero.bind fun name => ?_
  exact (h ty).bind fun tag => .pure _

theorem readFields_eq (n : Nat) (map : NbtMap) : readFields payload n map = (do
    let fields ← untilNone (readField payload) .unexpectedEof n
    return fields.foldl (fun map field => .insert field.1 field.2 map) map) := by
  induction n generalizing map with
  | zero => rfl
  | succ n ih =>
    simp only [readFields, untilNone, readField, ih, bind_assoc]
    congr 1
    funext ty
    split
    · rfl
    · simp only [bind_assoc, pure_bind, List.foldl_cons]

theorem readFields_agree (h : ∀ ty, AgreeBelow k (payload ty) (payload' ty))
    (h' : ∀ ty, Consumes 0 (payload' ty)) (map : NbtMap) (hk : m ≤ k + 3) (hn : m ≤ n + 1)
    (hn' : m ≤ n' + 1) : AgreeBelow m (readFields payload n map) (readFields payload' n' map) := by
  have hfld : AgreeBelow m (readField payload) (readField payload') := by
    refine .bind consumes_tagType fun ty => .ite (.refl _ _) ?_
    refine .bind consumes_nbtString fun name => ?_
    exact ((h ty).mono (by omega)).bind_left
  rw [readFields_eq, readFields_eq]
  exact (hfld.untilNone (consumes_readField h') rfl rfl hn hn').bind_left

end Fields

def listHeader : Decoder (TagType × Nat) := do
  let elementType ← tagType
  let len ← readNbtLength
  return (elementType, len)

def itemDepth (elementType : TagType) (depth : Nat) : Nat :=
  if elementType = .compound then depth + 1 else depth

def readList (payload : TagType → Nat → Decoder NbtTag) (depth : Nat) : Decoder NbtTag := do
  let header ← listHeader
  if header.1 = .compound ∧ maxNbtDepth ≤ depth then throw (.unknownNbtTag 0)
  return .list (← times (payload header.1 (itemDepth header.1 depth)) header.2)

theorem consumes_listHeader : Consumes 5 listHeader := by
  intro src header rest h
  obtain ⟨ty, src₁, hty, h⟩ := bind_eq_ok.mp h
  obtain ⟨len, src₂, hlen, h⟩ := bind_eq_ok.mp h
  cases h
  have hty' := consumes_tagType _ _ _ hty
  have hlen' := consumes_nbtLength _ _ _ hlen
  omega

theorem readTagPayloadDepth_list (fuel depth : Nat) :
    readTagPayloadDepth (fuel + 1) .list depth = readList (readTagPayloadDepth fuel) depth := by
  simp only [readTagPayloadDepth, readList, listHeader, bind_assoc, pure_bind]
  congr 1
  funext ty
  by_cases hty : ty = .compound
  · simp [hty, itemDepth]
  · simp [hty, itemDepth]

theorem readList_agree {payload payload' : TagType → Nat → Decoder NbtTag}
    (h : ∀ ty depth, AgreeBelow k (payload ty depth) (payload' ty depth))
    (h' : ∀ ty depth, Consumes 0 (payload' ty depth)) (depth : Nat) :
    AgreeBelow (k + 5) (readList payload depth) (readList payload' depth) := by
  refine .bind consumes_listHeader fun header => ?_
  exact .ite (.refl _ _) ((h _ _).times (h' _ _) _).bind_left

theorem consumes_tagPayload (fuel : Nat) (ty : TagType) (depth : Nat) :
    Consumes 0 (readTagPayloadDepth fuel ty depth) := by
  induction fuel generalizing ty depth with
  | zero => exact .throw _
  | succ fuel ih =>
    cases ty with
    | «end» => exact .pure _
    | byte => exact consumes_u8.zero.bind fun _ => .pure _
    | short => exact consumes_i16.zero.bind fun _ => .pure _
    | int => exact consumes_i32.zero.bind fun _ => .pure _
    | long => exact consumes_i64.zero.bind fun _ => .pure _
    | float => exact consumes_f32.zero.bind fun _ => .pure _
    | double => exact consumes_f64.zero.bind fun _ => .pure _
    | byteArray =>
      refine consumes_nbtLength.zero.bind fun len => ?_
      exact (consumes_take len).zero.bind fun _ => .pure _
    | string => exact consumes_nbtString.zero.bind fun _ => .pure _
    | list =>
      rw [readTagPayloadDepth_list]
      refine consumes_listHeader.zero.bind fun header => .ite (.throw _) ?_
      exact (Consumes.times (ih _ _) _).bind fun _ => Consumes.pure _
    | compound =>
      refine .ite (.throw _) ?_
      simp only [readFields_eq, bind_assoc]
      refine (consumes_untilNone ?_ fuel).bind fun _ => .pure _
      exact (consumes_readField fun ty => ih ty (depth + 1)).zero
    | intArray =>
      refine consumes_nbtLength.zero.bind fun len => ?_
      exact (Consumes.times consumes_i32.zero len).bind fun _ => Consumes.pure _
    | longArray =>
      refine consumes_nbtLength.zero.bind fun len => ?_
      exact (Consumes.times consumes_i64.zero len).bind fun _ => Consumes.pure _

theorem readTagPayloadDepth_agree (ty : TagType) (depth : Nat) (hm : m ≤ fuel)
    (hm' : m ≤ fuel') :
    AgreeBelow m (readTagPayloadDepth fuel ty depth) (readTagPayloadDepth fuel' ty depth) := by
  induction fuel generalizing m fuel' ty depth with
  | zero =>
    intro src hsrc
    omega
  | succ fuel ih =>
    cases fuel' with
    | zero =>
      intro src hsrc
      omega
    | succ fuel' =>
      cases ty with
      | list =>
        rw [readTagPayloadDepth_list, readTagPayloadDepth_list]
        refine (readList_agree (k := m - 1) (fun ty d => ih ty d ?_ ?_)
          (fun ty d => consumes_tagPayload fuel' ty d) depth).mono ?_
        · omega
        · omega
        · omega
      | compound =>
        refine .ite (.refl _ _) (.bind_left ?_)
        have hpay : ∀ ty, AgreeBelow (m - 1) (readTagPayloadDepth fuel ty (depth + 1))
            (readTagPayloadDepth fuel' ty (depth + 1)) := fun ty =>
          ih ty (depth + 1) (by omega) (by omega)
        exact readFields_agree hpay (fun ty => consumes_tagPayload fuel' ty (depth + 1)) []
          (by omega) (by omega) (by omega)
      | _ => exact .refl _ _

end Kojacoord
