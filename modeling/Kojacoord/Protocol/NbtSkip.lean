import Kojacoord.Protocol.NbtRoundTrip

namespace Kojacoord
open RoundTrip Decode TagType Nat

inductive SkipFault where
  | failed (error : ProtocolError)
  | panicked
deriving DecidableEq

abbrev Skipper := Parser UInt8 SkipFault

namespace Skip

def checked (d : Decoder α) : Skipper α := fun cur =>
  match d cur with
  | .ok r => .ok r
  | .error e => .error (.failed e)

def fail (error : ProtocolError) : Skipper α := throw (.failed error)

/-- `Buf::get_*` on its own, which panics when too little is left. -/
def unchecked (d : Decoder α) : Skipper α := fun cur =>
  match d cur with
  | .ok r => .ok r
  | .error _ => .error .panicked

def fromU8 (byte : UInt8) : Skipper TagType :=
  match TagType.fromU8 byte with
  | .ok ty => return ty
  | .error e => fail e

def need (n : Nat) : Skipper Unit := fun cur =>
  if cur.length < n then .error (.failed .unexpectedEof) else .ok ((), cur.drop n)

def skipName : Skipper Unit := do
  let len ← checked u16
  need len.toNat

def skipArray (width : Nat) : Skipper Unit := do
  need 4
  let n ← unchecked i32
  if n < 0 then fail (.unknownNbtTag 0)
  need (n.toInt.toNat * width)

def skipFields (payload : TagType → Skipper Unit) : Nat → Skipper Unit
  | 0 => fail .unexpectedEof
  | n + 1 => do
    let childByte ← checked u8
    if childByte = toU8 .end then return
    let child ← fromU8 childByte
    skipName
    payload child
    skipFields payload n

def skipPayloadDepth : Nat → TagType → Nat → Skipper Unit
  | 0, _, _ => fail .unexpectedEof
  | fuel + 1, ty, depth =>
    match ty with
    | .end => return
    | .byte => need 1
    | .short => need 2
    | .int | .float => need 4
    | .long | .double => need 8
    | .byteArray => skipArray 1
    | .string => do
      need 2
      let n ← unchecked u16
      need n.toNat
    | .list => do
      need 5
      let inner ← fromU8 (← unchecked u8)
      let n ← unchecked i32
      if n < 0 then fail (.unknownNbtTag 0)
      if inner = .compound ∨ inner = .list then
        if maxNbtDepth ≤ depth then fail (.unknownNbtTag 0)
        let _ ← times (skipPayloadDepth fuel inner (depth + 1)) n.toInt.toNat
      else
        let _ ← times (skipPayloadDepth fuel inner depth) n.toInt.toNat
    | .compound => do
      if maxNbtDepth ≤ depth then fail (.unknownNbtTag 0)
      skipFields (fun ty => skipPayloadDepth fuel ty (depth + 1)) fuel
    | .intArray => skipArray 4
    | .longArray => skipArray 8

def skipPayload (ty : TagType) : Skipper Unit := fun cur =>
  skipPayloadDepth (cur.length + 1) ty 0 cur

end Skip

open Skip in
def Nbt.skip : Skipper Nat := do
  let start ← get
  let tagByte ← checked u8
  if tagByte ≠ toU8 .end then
    let tag ← fromU8 tagByte
    skipName
    skipPayload tag
  return start.length - (← get).length

def TagType.lengthPrefixed : TagType → Bool
  | byteArray | string | list | intArray | longArray => true
  | _ => false

def TagType.width : TagType → Option Nat
  | byte => some 1
  | short => some 2
  | int | float => some 4
  | long | double => some 8
  | _ => none

theorem TagType.toU8_of_fromU8 {b : UInt8} (h : fromU8 b = .ok ty) : b = ty.toU8 := by
  unfold fromU8 at h
  split at h <;> cases h <;> rfl

/-- The entries at the front of the buffer and in the compounds among them have these types;
`rest` follows their end tag. -/
inductive FieldTypes : Nat → List TagType → List UInt8 → List UInt8 → Prop
  | done : FieldTypes depth [] (toU8 .end :: rest) rest
  | leaf : ty ≠ .end → ty ≠ .compound → readNbtString src = .ok (name, payload) →
      readTagPayloadDepth (payload.length + 1) ty depth payload = .ok (tag, next) →
      FieldTypes depth types next rest → FieldTypes depth (ty :: types) (ty.toU8 :: src) rest
  | nested : readNbtString src = .ok (name, body) → FieldTypes (depth + 1) within body next →
      FieldTypes depth types next rest →
      FieldTypes depth (.compound :: (within ++ types)) (toU8 .compound :: src) rest

inductive BufferTypes : List TagType → List UInt8 → Prop
  | empty : BufferTypes [] (toU8 .end :: rest)
  | root : readNbtString src = .ok (name, body) → FieldTypes 1 types body rest →
      BufferTypes types (toU8 .compound :: src)

theorem tagType_eq_ok (h : tagType src = .ok (ty, rest)) : src = ty.toU8 :: rest := by
  obtain ⟨byte, next, hby, hty⟩ := bind_eq_ok.mp h
  cases src with
  | nil => cases hby
  | cons first src =>
    cases hby
    generalize hfrom : fromU8 byte = result at hty
    cases result with
    | error e => cases hty
    | ok ty =>
      cases hty
      rw [toU8_of_fromU8 hfrom]

theorem readFields_cons {map : NbtMap} (hend : ty ≠ .end)
    (hnm : readNbtString src = .ok (name, src₁)) :
    readFields payload (n + 1) map (ty.toU8 :: src) =
      (payload ty >>= fun tag => readFields payload n (.insert name tag map)) src₁ := by
  have hty : tagType (ty.toU8 :: src) = .ok (ty, src) := by
    cases ty <;> rfl
  rw [readFields, bind_ok hty, if_neg hend, bind_ok hnm]

theorem readCompound_eq_ok (h : readTagPayloadDepth fuel .compound depth src = .ok (tag, rest)) :
    ∃ fuel' map, fuel = fuel' + 1 ∧ depth < maxNbtDepth ∧ tag = .compound map ∧
      readFields (fun ty => readTagPayloadDepth fuel' ty (depth + 1)) fuel' [] src =
        .ok (map, rest) := by
  cases fuel with
  | zero => cases h
  | succ fuel =>
    rw [readTagPayloadDepth] at h
    by_cases hdp : maxNbtDepth ≤ depth
    · simp only [if_pos hdp] at h
      cases h
    · simp only [if_neg hdp] at h
      obtain ⟨map, next, hflds, h⟩ := bind_eq_ok.mp h
      cases h
      exact ⟨fuel, map, rfl, not_le.mp hdp, rfl, hflds⟩

theorem tagType_of_map {d : Decoder α} {f : α → NbtTag} (hf : ∀ a, (f a).tagType = ty)
    (h : (d >>= fun a => pure (f a)) src = .ok (tag, rest)) : tag.tagType = ty := by
  obtain ⟨a, next, -, h⟩ := bind_eq_ok.mp h
  cases h
  exact hf a

theorem tagType_of_read (h : readTagPayloadDepth fuel ty depth src = .ok (tag, rest)) :
    tag.tagType = ty := by
  cases fuel with
  | zero => cases h
  | succ fuel =>
    cases ty with
    | «end» => cases h; rfl
    | byteArray | intArray | longArray =>
      obtain ⟨len, src₁, -, h⟩ := bind_eq_ok.mp h
      exact tagType_of_map (fun _ => rfl) h
    | list =>
      obtain ⟨elementType, src₁, -, h⟩ := bind_eq_ok.mp h
      obtain ⟨len, src₂, -, h⟩ := bind_eq_ok.mp h
      split at h
      · split at h
        · cases h
        · exact tagType_of_map (fun _ => rfl) h
      · exact tagType_of_map (fun _ => rfl) h
    | compound =>
      obtain ⟨fuel', map, -, -, rfl, -⟩ := readCompound_eq_ok h
      rfl
    | _ => exact tagType_of_map (fun _ => rfl) h

theorem decode_eq_ok (h : Nbt.decode b = .ok (nbt, rest)) :
    (b = toU8 .end :: rest ∧ nbt = Nbt.empty "") ∨
      ∃ src name body, b = toU8 .compound :: src ∧
        readNbtString src = .ok (name, body) ∧
        readTagPayload .compound body = .ok (.compound nbt.root, rest) := by
  obtain ⟨typeByte, src, hby, h⟩ := bind_eq_ok.mp h
  have hb : b = typeByte :: src := by
    cases b with
    | nil => cases hby
    | cons => cases hby; rfl
  by_cases hz : typeByte = 0
  · rw [if_pos hz] at h
    cases h
    subst hz
    exact .inl ⟨hb, rfl⟩
  · rw [if_neg hz] at h
    generalize hfrom : fromU8 typeByte = result at h
    cases result with
    | error e => cases h
    | ok ty =>
      obtain ⟨name, body, hnm, h⟩ := bind_eq_ok.mp h
      obtain ⟨payload, next, hpay, h⟩ := bind_eq_ok.mp h
      cases payload with
      | compound map =>
        cases h
        have hty : ty = .compound := (tagType_of_read hpay).symm
        subst hty
        exact .inr ⟨src, name, body, toU8_of_fromU8 hfrom ▸ hb, hnm, hpay⟩
      | _ => cases h

theorem fields_of_compound (h : readTagPayload .compound body = .ok (.compound map, rest)) :
    readFields (fun ty => readTagPayloadDepth body.length ty 1) body.length [] body =
      .ok (map, rest) := by
  obtain ⟨fuel, map', hfe, -, hmap, hflds⟩ := readCompound_eq_ok h
  cases hfe
  cases hmap
  exact hflds

namespace Skip

theorem checked_of_ok {d : Decoder α} (h : d src = .ok (a, rest)) :
    checked d src = .ok (a, rest) := by
  rw [checked, h]

theorem skipName_of_read (h : readNbtString src = .ok (name, rest)) :
    skipName src = .ok ((), rest) := by
  obtain ⟨len, src₁, hlen, h⟩ := bind_eq_ok.mp h
  obtain ⟨bytes, src₂, hbs, h⟩ := bind_eq_ok.mp h
  have hrs : src₂ = rest := by
    generalize String.fromUTF8? _ = decoded at h
    cases decoded with
    | none => cases h
    | some s => cases h; rfl
  rw [take] at hbs
  by_cases hsh : src₁.length < len.toNat
  · rw [if_pos hsh] at hbs
    cases hbs
  · rw [if_neg hsh] at hbs
    cases hbs
    rw [skipName, bind_ok (checked_of_ok hlen), need, if_neg hsh, hrs]

theorem skipFields_cons (hend : ty ≠ .end) (hnm : skipName src = .ok ((), src₁))
    (hpay : payload ty src₁ = .ok ((), src₂)) :
    skipFields payload (n + 1) (ty.toU8 :: src) = skipFields payload n src₂ := by
  have hby : checked u8 (ty.toU8 :: src) = .ok (ty.toU8, src) := rfl
  have hne : ty.toU8 ≠ toU8 .end := by
    cases ty <;> first | exact absurd rfl hend | decide
  have hfrom : fromU8 ty.toU8 src = .ok (ty, src) := by
    rw [fromU8, fromU8_toU8]
    rfl
  rw [skipFields, bind_ok hby, if_neg hne, bind_ok hfrom, bind_ok hnm, bind_ok hpay]

def Cuts (w : Nat) (d : Decoder α) : Prop :=
  ∀ src a rest, d src = .ok (a, rest) → ¬src.length < w ∧ rest = src.drop w

theorem Cuts.map {d : Decoder α} (hd : Cuts w d) (f : α → β) :
    Cuts w (d >>= fun a => pure (f a)) := by
  intro src b rest h
  obtain ⟨a, rest', ha, h⟩ := bind_eq_ok.mp h
  cases h
  exact hd src a _ ha

theorem cuts_take (w : Nat) : Cuts w (take w) := by
  intro src bytes rest h
  rw [take] at h
  by_cases hsh : src.length < w
  · rw [if_pos hsh] at h
    cases h
  · rw [if_neg hsh] at h
    cases h
    exact ⟨hsh, rfl⟩

theorem cuts_u8 : Cuts 1 u8 := by
  intro src b rest h
  cases src with
  | nil => cases h
  | cons first src =>
    cases h
    exact ⟨by simp, rfl⟩

theorem cuts_number (hw : width ty = some w) :
    Cuts w (readTagPayloadDepth (fuel + 1) ty depth) := by
  cases ty with
  | byte => cases hw; exact cuts_u8.map _
  | short => cases hw; exact (((cuts_take 2).map _).map _).map _
  | int | float => cases hw; exact ((cuts_take 4).map _).map _
  | long | double => cases hw; exact ((cuts_take 8).map _).map _
  | _ => cases hw

theorem skip_number (hw : width ty = some w) :
    skipPayloadDepth (fuel + 1) ty depth = need w := by
  cases ty <;> cases hw <;> rfl

theorem width_of_fixed (hpre : lengthPrefixed ty = false) (hend : ty ≠ .end)
    (hcmp : ty ≠ .compound) : ∃ w, ty.width = some w := by
  cases ty <;> first | exact ⟨_, rfl⟩ | contradiction

theorem skipFields_of_fieldTypes {map map' : NbtMap} (htyp : FieldTypes depth types src rest)
    (hfix : ∀ ty ∈ types, ty.lengthPrefixed = false)
    (h : readFields (fun ty => readTagPayloadDepth fuel ty depth) n map src = .ok (map', rest')) :
    rest' = rest ∧
      skipFields (fun ty => skipPayloadDepth fuel ty depth) n src = .ok ((), rest) := by
  induction htyp generalizing fuel n map map' rest' with
  | done =>
    cases n with
    | zero => cases h
    | succ n =>
      cases h
      exact ⟨rfl, rfl⟩
  | leaf hend hcmp hnm htag _ ih =>
    cases n with
    | zero => cases h
    | succ n =>
      obtain ⟨hty, hfix⟩ := List.forall_mem_cons.mp hfix
      obtain ⟨w, hw⟩ := width_of_fixed hty hend hcmp
      rw [readFields_cons hend hnm] at h
      obtain ⟨tag', next', htag', h⟩ := bind_eq_ok.mp h
      cases fuel with
      | zero => cases htag'
      | succ fuel =>
        obtain ⟨hlg, rfl⟩ := cuts_number hw _ _ _ htag
        obtain ⟨-, rfl⟩ := cuts_number hw _ _ _ htag'
        obtain ⟨hrs, hsk⟩ := ih hfix h
        refine ⟨hrs, ?_⟩
        rw [skipFields_cons hend (skipName_of_read hnm), hsk]
        rw [skip_number hw, need, if_neg hlg]
  | nested hnm _ _ ihinner ih =>
    cases n with
    | zero => cases h
    | succ n =>
      obtain ⟨-, hfix⟩ := List.forall_mem_cons.mp hfix
      obtain ⟨hinn, hfix⟩ := List.forall_mem_append.mp hfix
      have hne : compound ≠ .end := nofun
      rw [readFields_cons hne hnm] at h
      obtain ⟨tag', next', htag', h⟩ := bind_eq_ok.mp h
      obtain ⟨fuel, inner, rfl, hdp, -, hflds⟩ := readCompound_eq_ok htag'
      obtain ⟨rfl, hski⟩ := ihinner hinn hflds
      obtain ⟨hrs, hsk⟩ := ih hfix h
      refine ⟨hrs, ?_⟩
      rw [skipFields_cons hne (skipName_of_read hnm), hsk]
      simp only [skipPayloadDepth, if_neg (not_le.mpr hdp)]
      exact hski

theorem skip_end : Nbt.skip (toU8 .end :: rest) = .ok (1, rest) := by
  have hlen : (toU8 .end :: rest).length - rest.length = 1 := by simp
  rw [← hlen]
  rfl

theorem skip_compound (hnm : readNbtString src = .ok (name, body))
    (h : skipFields (fun ty => skipPayloadDepth body.length ty 1) body.length body =
      .ok ((), rest)) :
    Nbt.skip (toU8 .compound :: src) =
      .ok ((toU8 .compound :: src).length - rest.length, rest) := by
  have hpay : skipPayload .compound body = .ok ((), rest) := h
  have hby : checked u8 (toU8 .compound :: src) =
      .ok (toU8 .compound, src) := rfl
  have hfrom : fromU8 (TagType.toU8 .compound) src = .ok (.compound, src) := rfl
  rw [Nbt.skip, bind_ok rfl, bind_ok hby, if_pos (by decide), bind_ok hfrom,
    bind_ok (skipName_of_read hnm), bind_ok hpay]
  rfl

end Skip

def oneField : TagType → List UInt8
  | .byteArray => [10, 0, 0, 7, 0, 0, 0, 0, 0, 0, 0]
  | .string => [10, 0, 0, 8, 0, 0, 0, 0, 0]
  | .list => [10, 0, 0, 9, 0, 0, 0, 0, 0, 0, 0, 0]
  | .intArray => [10, 0, 0, 11, 0, 0, 0, 0, 0, 0, 0]
  | .longArray => [10, 0, 0, 12, 0, 0, 0, 0, 0, 0, 0]
  | _ => []

def emptyTag : TagType → NbtTag
  | .byteArray => .byteArray []
  | .string => .string ""
  | .list => .list []
  | .intArray => .intArray []
  | .longArray => .longArray []
  | _ => .end

theorem emptyTag_fits (h : lengthPrefixed ty) : NbtTag.Fits 511 (emptyTag ty) := by
  cases ty with
  | byteArray => exact .byteArray (zero_le _)
  | string => exact .string (by decide)
  | list => exact @NbtTag.Fits.list [] 510 .end nofun nofun (zero_le _)
  | intArray => exact .intArray (zero_le _)
  | longArray => exact .longArray (zero_le _)
  | _ => cases h

theorem decode_oneField (h : lengthPrefixed ty) :
    Nbt.decode (oneField ty) = .ok (⟨"", [("", emptyTag ty)]⟩, []) := by
  have hft : Nbt.Fits maxNbtDepth ⟨"", [("", emptyTag ty)]⟩ := by
    refine ⟨zero_le _, .compound (n := 511) ?_ ?_ (List.nodup_singleton _)⟩
    · simpa using emptyTag_fits h
    · simp [NbtTag.textSize]
  have henc : Nbt.encode ⟨"", [("", emptyTag ty)]⟩ = .ok (oneField ty) := by
    cases ty <;> first | rfl | cases h
  obtain ⟨bytes, hbs, hrds⟩ := hft.reads
  cases henc.symm.trans hbs
  simpa using hrds []

theorem readNbtString_empty (rest : List UInt8) :
    readNbtString (0 :: 0 :: rest) = .ok ("", rest) :=
  reads_nbtString (s := "") (by decide) rest

theorem bufferTypes_oneField (h : lengthPrefixed ty) :
    BufferTypes [ty] (oneField ty) := by
  cases ty with
  | byteArray | list | intArray | longArray =>
    exact .root (readNbtString_empty _) (.leaf nofun nofun (readNbtString_empty _) rfl .done)
  | string =>
    have hpay : readTagPayloadDepth 4 .string 1 [0, 0, 0] = .ok (.string "", [0]) :=
      bind_ok (readNbtString_empty [0])
    exact .root (readNbtString_empty _) (.leaf nofun nofun (readNbtString_empty _) hpay .done)
  | _ => cases h

theorem skip_oneField (h : TagType.lengthPrefixed ty) :
    Nbt.skip (oneField ty) = .error .panicked := by
  cases ty <;> first | rfl | cases h

/-- Over buffers with fields of given types, the skipper steps over what the decoder reads exactly
when none of these types begins with a length. -/
theorem skip_agrees_iff (S : TagType → Prop) :
    (∀ b nbt rest types, Nbt.decode b = .ok (nbt, rest) → BufferTypes types b →
        (∀ ty ∈ types, S ty) → Nbt.skip b = .ok (b.length - rest.length, rest)) ↔
      ∀ ty, S ty → ty.lengthPrefixed = false := by
  constructor
  · intro h ty hty
    by_contra hprefixed
    rw [Bool.not_eq_false] at hprefixed
    have hskip := h _ _ _ _ (decode_oneField hprefixed) (bufferTypes_oneField hprefixed)
      (by simpa using hty)
    rw [skip_oneField hprefixed] at hskip
    cases hskip
  · intro hS b nbt rest types hdecode htypes hin
    have hfixed : ∀ ty ∈ types, ty.lengthPrefixed = false := fun ty hty => hS ty (hin ty hty)
    rcases decode_eq_ok hdecode with ⟨rfl, -⟩ | ⟨src, name, body, rfl, hname, hpayload⟩
    · rw [Skip.skip_end, List.length_cons, Nat.add_sub_cancel_left]
    · cases htypes with
      | root hname' htypes =>
        cases hname.symm.trans hname'
        obtain ⟨rfl, hskip⟩ :=
          Skip.skipFields_of_fieldTypes htypes hfixed (fields_of_compound hpayload)
        exact Skip.skip_compound hname hskip

def steve : List UInt8 := [10, 0, 0, 8, 0, 4] ++ "name".toUTF8.data.toList ++ [0, 5] ++
  "Steve".toUTF8.data.toList ++ [0]

theorem decode_steve : Nbt.decode steve = .ok (⟨"", [("name", .string "Steve")]⟩, []) := by
  have hft : Nbt.Fits maxNbtDepth ⟨"", [("name", .string "Steve")]⟩ := by
    refine ⟨by decide, .compound (n := 511) ?_ ?_ (by decide)⟩
    · simpa using .string (by decide)
    · simpa using (by decide : NbtTag.textSize "name" ≤ 65535)
  have henc : Nbt.encode ⟨"", [("name", .string "Steve")]⟩ = .ok steve := by rfl
  obtain ⟨bytes, hbs, hrds⟩ := hft.reads
  cases henc.symm.trans hbs
  simpa using hrds []

/-- The decoder reads the whole buffer, and the skipper takes the letters "St" for a length. -/
theorem skip_fails_on_text : ∃ nbt, Nbt.decode steve = .ok (nbt, []) ∧
    Nbt.skip steve = .error (.failed .unexpectedEof) :=
  ⟨_, decode_steve, by rfl⟩

end Kojacoord
