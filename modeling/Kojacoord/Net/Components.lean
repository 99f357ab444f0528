import Kojacoord.Protocol.NbtCalls

namespace Kojacoord
open RoundTrip Option

/-- A `serde_json::Number`. A float is kept as its bits. -/
inductive SerdeNumber where
  | posInt (n : UInt64)
  | negInt (n : Int64)
  | float (bits : UInt64)

def SerdeNumber.toInt? : SerdeNumber → Option Int
  | posInt n => some n.toNat
  | negInt n => some n.toInt
  | float _ => none

def SerdeNumber.asI64 : SerdeNumber → Option Int64
  | posInt n => if n.toNat < 0x8000000000000000 then some n.toInt64 else none
  | negInt n => some n
  | float _ => none

inductive SerdeValue where
  | null
  | bool (b : Bool)
  | number (n : SerdeNumber)
  | string (s : String)
  | array (items : List SerdeValue)
  | object (map : List (String × SerdeValue))

structure ComponentLibrary where
  fromStr : String → Option SerdeValue
  asF64 : SerdeNumber → Option UInt64
  walk : Nbt → Nbt
  walk_same : ∀ nbt, (walk nbt).Same nbt

section Conversion
variable (lib : ComponentLibrary)

mutual

def jsonValueToNbt : SerdeValue → Option NbtTag
  | .string s => some (.string s)
  | .bool b => some (.byte (if b then 1 else 0))
  | .number n =>
    match n.asI64 with
    | some i => some (.int i.toInt32)
    | none => (lib.asF64 n).map .double
  | .array items => do
    let out ← itemsToNbt items
    return .list out
  | .object map => do
    let out ← fieldsToNbt map
    return .compound (NbtMap.collect out)
  | .null => none

def itemsToNbt : List SerdeValue → Option (List NbtTag)
  | [] => some []
  | item :: items => do
    let tag ← jsonValueToNbt item
    return tag :: (← itemsToNbt items)

def fieldsToNbt : List (String × SerdeValue) → Option (List (String × NbtTag))
  | [] => some []
  | (name, value) :: map => do
    let tag ← jsonValueToNbt value
    return (name, tag) :: (← fieldsToNbt map)

end

def jsonComponentToNamelessNbt (json : String) : Option (List UInt8) := do
  let value ← lib.fromStr json
  match ← jsonValueToNbt lib value with
  | .compound root =>
    match (lib.walk ⟨"", root⟩).encode with
    | .ok bytes =>
      if bytes.length < 3 ∨ bytes.head? ≠ some 0x0a then none else some (0x0a :: bytes.drop 3)
    | .error _ => none
  | _ => none

end Conversion

def NbtTag.integer : NbtTag → Option Int
  | short v => some v.toInt
  | int v => some v.toInt
  | long v => some v.toInt
  | _ => none

inductive SaysSame : SerdeValue → NbtTag → Prop
  | bool : SaysSame (.bool b) (.byte (if b then 1 else 0))
  | integer {n : SerdeNumber} {tag : NbtTag} : n.toInt? = some v → tag.integer = some v →
      SaysSame (.number n) tag
  | string : SaysSame (.string s) (.string s)
  | array : items.length = tags.length →
      (∀ (i : Nat) value tag, items[i]? = some value → tags[i]? = some tag → SaysSame value tag) →
      SaysSame (.array items) (.list tags)
  | object : (map.map Prod.fst).Perm (map'.map Prod.fst) →
      (∀ name value tag, (name, value) ∈ map → (name, tag) ∈ map' → SaysSame value tag) →
      SaysSame (.object map) (.compound map')

namespace SerdeValue

/-- The value has no null and no float in it, keeps to the format's limits for texts, and has at
most `n` arrays and objects inside one another. The keys of an object differ. -/
inductive Plain : Nat → SerdeValue → Prop
  | bool : Plain n (.bool b)
  | number : (SerdeNumber.toInt? num).isSome = true → Plain n (.number num)
  | string : NbtTag.textSize s ≤ 65535 → Plain n (.string s)
  | array : (∀ item ∈ items, Plain n item) → Plain (n + 1) (.array items)
  | object : (∀ field ∈ map, Plain n field.2) → (∀ field ∈ map, NbtTag.textSize field.1 ≤ 65535) →
      (map.map Prod.fst).Nodup → Plain (n + 1) (.object map)

def tagType : SerdeValue → TagType
  | null => .end
  | bool _ => .byte
  | number n => if n.asI64.isSome then .int else .double
  | string _ => .string
  | array _ => .list
  | object _ => .compound

/-- All items of an array become tags of one type, and there are not too many of them for a list. -/
inductive Uniform : SerdeValue → Prop
  | bool : Uniform (.bool b)
  | number : Uniform (.number n)
  | string : Uniform (.string s)
  | array : (∀ item ∈ items, Uniform item) → (∀ item ∈ items, item.tagType = ty) →
      items.length ≤ 1048576 → Uniform (.array items)
  | object : (∀ field ∈ map, Uniform field.2) → Uniform (.object map)

inductive InRange : SerdeValue → Prop
  | bool : InRange (.bool b)
  | number : SerdeNumber.toInt? n = some v → -0x80000000 ≤ v → v < 0x80000000 → InRange (.number n)
  | string : InRange (.string s)
  | array : (∀ item ∈ items, InRange item) → InRange (.array items)
  | object : (∀ field ∈ map, InRange field.2) → InRange (.object map)

end SerdeValue

section Pairs
variable {R : α → γ → Prop} {as : List α} {bs : List γ}

theorem exists_left_of_forall₂ (h : List.Forall₂ R as bs) (hb : b ∈ bs) : ∃ a ∈ as, R a b := by
  induction h with
  | nil => cases hb
  | cons hfst _ ih =>
    rcases List.mem_cons.mp hb with rfl | hb
    · exact ⟨_, List.mem_cons_self, hfst⟩
    · obtain ⟨a, ha, hab⟩ := ih hb
      exact ⟨a, List.mem_cons_of_mem _ ha, hab⟩

theorem exists_right_of_forall₂ (h : List.Forall₂ R as bs) (ha : a ∈ as) : ∃ b ∈ bs, R a b :=
  exists_left_of_forall₂ h.flip ha

theorem getElem?_of_forall₂ (h : List.Forall₂ R as bs) (i : Nat) (ha : as[i]? = some a)
    (hb : bs[i]? = some b) : R a b := by
  induction h generalizing i with
  | nil => cases ha
  | cons hfst _ ih =>
    cases i with
    | zero =>
      cases ha
      cases hb
      exact hfst
    | succ i => exact ih i ha hb

end Pairs

section Converted
variable {lib : ComponentLibrary}

theorem itemsToNbt_eq_some : itemsToNbt lib items = some tags ↔
    List.Forall₂ (fun value tag => jsonValueToNbt lib value = some tag) items tags := by
  induction items generalizing tags with
  | nil => simp [itemsToNbt, eq_comm]
  | cons item items ih =>
    rw [itemsToNbt, List.forall₂_cons_left_iff]
    simp only [bind_eq_bind, bind_eq_some_iff, pure_def, Option.some.injEq, ih]
    constructor
    · rintro ⟨tag, htag, tags, htags, rfl⟩
      exact ⟨tag, tags, htag, htags, rfl⟩
    · rintro ⟨tag, tags, htag, htags, rfl⟩
      exact ⟨tag, htag, tags, htags, rfl⟩

theorem fieldsToNbt_eq_some : fieldsToNbt lib map = some fields ↔
    List.Forall₂ (fun entry field => entry.1 = field.1 ∧
      jsonValueToNbt lib entry.2 = some field.2) map fields := by
  induction map generalizing fields with
  | nil => simp [fieldsToNbt, eq_comm]
  | cons entry map ih =>
    obtain ⟨name, value⟩ := entry
    rw [fieldsToNbt, List.forall₂_cons_left_iff]
    simp only [bind_eq_bind, bind_eq_some_iff, pure_def, Option.some.injEq, ih]
    constructor
    · rintro ⟨tag, htag, fields, hflds, rfl⟩
      exact ⟨(name, tag), fields, ⟨rfl, htag⟩, hflds, rfl⟩
    · rintro ⟨⟨_, tag⟩, fields, ⟨rfl, htag⟩, hflds, rfl⟩
      exact ⟨tag, htag, fields, hflds, rfl⟩

theorem array_eq_some : jsonValueToNbt lib (.array items) = some tag ↔
    ∃ tags, List.Forall₂ (fun value tag => jsonValueToNbt lib value = some tag) items tags ∧
      tag = .list tags := by
  rw [jsonValueToNbt]
  simp only [bind_eq_bind, bind_eq_some_iff, pure_def, Option.some.injEq, itemsToNbt_eq_some]
  exact exists_congr fun tags => and_congr_right fun _ => eq_comm

theorem names_of_forall₂ {map : List (String × SerdeValue)} {fields : NbtMap}
    {R : String × SerdeValue → String × NbtTag → Prop} (h : List.Forall₂ R map fields)
    (hR : ∀ entry field, R entry field → entry.1 = field.1) :
    map.map Prod.fst = fields.map Prod.fst := by
  induction h with
  | nil => rfl
  | cons hfst _ ih => rw [List.map_cons, List.map_cons, hR _ _ hfst, ih]

theorem object_eq_some (hnd : (map.map Prod.fst).Nodup) :
    jsonValueToNbt lib (.object map) = some tag ↔
      ∃ fields, List.Forall₂ (fun entry field => entry.1 = field.1 ∧
        jsonValueToNbt lib entry.2 = some field.2) map fields ∧ tag = .compound fields := by
  rw [jsonValueToNbt]
  simp only [bind_eq_bind, bind_eq_some_iff, pure_def, Option.some.injEq, fieldsToNbt_eq_some]
  refine exists_congr fun fields => and_congr_right fun h => ?_
  rw [NbtMap.collect_of_nodup (names_of_forall₂ h (fun _ _ h => h.1) ▸ hnd), eq_comm]

theorem tagType_of_converted (h : jsonValueToNbt lib value = some tag) :
    tag.tagType = value.tagType := by
  cases value with
  | null => cases h
  | bool | string => cases h; rfl
  | number n =>
    rw [jsonValueToNbt] at h
    cases hi : n.asI64 with
    | some i =>
      rw [hi] at h
      cases h
      simp [NbtTag.tagType, SerdeValue.tagType, hi]
    | none =>
      rw [hi] at h
      obtain ⟨bits, -, rfl⟩ := map_eq_some_iff.mp h
      simp [NbtTag.tagType, SerdeValue.tagType, hi]
  | array items =>
    obtain ⟨tags, -, rfl⟩ := array_eq_some.mp h
    rfl
  | object map =>
    obtain ⟨fields, -, h⟩ := bind_eq_some_iff.mp h
    cases h
    rfl

theorem fits_of_uniform (hpl : SerdeValue.Plain n value)
    (h : jsonValueToNbt lib value = some tag)
    (huni : value.Uniform) : NbtTag.Fits n tag := by
  induction hpl generalizing tag with
  | bool =>
    cases h
    exact .byte
  | @number num n _ =>
    rw [jsonValueToNbt] at h
    cases hi : num.asI64 with
    | some i =>
      rw [hi] at h
      cases h
      exact .int
    | none =>
      rw [hi] at h
      obtain ⟨bits, -, rfl⟩ := map_eq_some_iff.mp h
      exact .double
  | string hsz =>
    cases h
    exact .string hsz
  | @array items n _ ih =>
    obtain ⟨tags, htags, rfl⟩ := array_eq_some.mp h
    cases huni with
    | @array _ ty hits hty hlen =>
      have hty' : ∀ tag ∈ tags, tag.tagType = ty := by
        intro tag htag
        obtain ⟨item, hit, hcon⟩ := exists_left_of_forall₂ htags htag
        exact (tagType_of_converted hcon).trans (hty item hit)
      refine .list (fun tag htag => ?_) hty' (htags.length_eq ▸ hlen)
      obtain ⟨item, hit, hcon⟩ := exists_left_of_forall₂ htags htag
      exact ih item hit hcon (hits item hit)
  | @object map n _ hnms hnd ih =>
    obtain ⟨fields, hflds, rfl⟩ := (object_eq_some hnd).mp h
    cases huni with
    | object huni =>
      refine .compound (fun field hfld => ?_) (fun field hfld => ?_) ?_
      · obtain ⟨entry, hent, -, hcon⟩ := exists_left_of_forall₂ hflds hfld
        exact ih entry hent hcon (huni entry hent)
      · obtain ⟨entry, hent, hnm, -⟩ := exists_left_of_forall₂ hflds hfld
        exact hnm ▸ hnms entry hent
      · exact names_of_forall₂ hflds (fun _ _ h => h.1) ▸ hnd

theorem toInt?_of_asI64 {n : SerdeNumber} (h : n.asI64 = some i) : n.toInt? = some i.toInt := by
  cases n with
  | posInt n =>
    rw [SerdeNumber.asI64] at h
    split at h
    · rename_i hsm
      cases h
      have hval : n.toInt64.toInt = n.toNat := by
        change n.toBitVec.toInt = _
        rw [BitVec.toInt_eq_toNat_of_lt]
        · rfl
        · rw [UInt64.toNat_toBitVec]
          omega
      rw [SerdeNumber.toInt?, hval]
    · cases h
  | negInt n =>
    cases h
    rfl
  | float => cases h

theorem asI64_of_lt {n : SerdeNumber} (h : n.toInt? = some v) (hhi : v < 0x8000000000000000) :
    ∃ i, n.asI64 = some i := by
  cases n with
  | posInt n =>
    cases h
    exact ⟨_, if_pos (by omega)⟩
  | negInt n => exact ⟨n, rfl⟩
  | float => cases h

theorem toInt32_eq_iff (i : Int64) :
    i.toInt32.toInt = i.toInt ↔ -0x80000000 ≤ i.toInt ∧ i.toInt < 0x80000000 := by
  rw [Int64.toInt_toInt32, Int.bmod_def]
  split <;> omega

theorem number_says_iff (h : jsonValueToNbt lib (.number n) = some tag) :
    SaysSame (.number n) tag ↔ SerdeValue.InRange (.number n) := by
  rw [jsonValueToNbt] at h
  cases hi : n.asI64 with
  | some i =>
    rw [hi] at h
    cases h
    have hval := toInt?_of_asI64 hi
    constructor
    · intro hmn
      cases hmn with
      | integer hv htag =>
        cases hval.symm.trans hv
        have hsm : i.toInt32.toInt = i.toInt := Option.some.inj htag
        exact .number hval ((toInt32_eq_iff i).mp hsm).1 ((toInt32_eq_iff i).mp hsm).2
    · intro hrng
      cases hrng with
      | number hv hlow hhi =>
        cases hval.symm.trans hv
        exact .integer hval (congrArg some ((toInt32_eq_iff i).mpr ⟨hlow, hhi⟩))
  | none =>
    rw [hi] at h
    obtain ⟨bits, -, rfl⟩ := map_eq_some_iff.mp h
    refine iff_of_false (fun hmn => ?_) fun hrng => ?_
    · cases hmn with
      | integer hv htag => cases htag
    · cases hrng with
      | number hv hlow hhi =>
        obtain ⟨i, hso⟩ := asI64_of_lt hv (by omega)
        cases hi.symm.trans hso

theorem says_iff_inRange (hpl : SerdeValue.Plain n value)
    (h : jsonValueToNbt lib value = some tag) : SaysSame value tag ↔ value.InRange := by
  induction hpl generalizing tag with
  | bool =>
    cases h
    exact iff_of_true .bool .bool
  | number => exact number_says_iff h
  | string =>
    cases h
    exact iff_of_true .string .string
  | @array items n _ ih =>
    obtain ⟨tags, htags, rfl⟩ := array_eq_some.mp h
    constructor
    · intro hmn
      cases hmn with
      | array _ hmn =>
        refine .array fun item hit => ?_
        obtain ⟨i, hi, rfl⟩ := List.getElem_of_mem hit
        have hit' := List.getElem?_eq_getElem hi
        have htag' := List.getElem?_eq_getElem (htags.length_eq ▸ hi)
        have hcon := getElem?_of_forall₂ htags i hit' htag'
        exact (ih _ hit hcon).mp (hmn i _ _ hit' htag')
    · intro hrng
      cases hrng with
      | array hrng =>
        refine .array htags.length_eq fun i item tag hit htag => ?_
        have hcon := getElem?_of_forall₂ htags i hit htag
        have hmem := List.mem_of_getElem? hit
        exact (ih item hmem hcon).mpr (hrng item hmem)
  | @object map n _ _ hnd ih =>
    obtain ⟨fields, hflds, rfl⟩ := (object_eq_some hnd).mp h
    have hnms := names_of_forall₂ hflds fun _ _ h => h.1
    constructor
    · intro hmn
      cases hmn with
      | object _ hmn =>
        refine .object fun entry hent => ?_
        obtain ⟨field, hfld, hnm, hcon⟩ := exists_right_of_forall₂ hflds hent
        exact (ih entry hent hcon).mp (hmn _ _ _ hent (hnm ▸ hfld))
    · intro hrng
      cases hrng with
      | object hrng =>
        refine .object (hnms ▸ .refl _) fun name value tag hent hfld => ?_
        obtain ⟨entry, hent', hnm, hcon⟩ := exists_left_of_forall₂ hflds hfld
        cases List.inj_on_of_nodup_map hnd hent hent' hnm.symm
        exact (ih _ hent hcon).mpr (hrng _ hent)

theorem exists_forall₂ {R : α → γ → Prop} {as : List α} (h : ∀ a ∈ as, ∃ b, R a b) :
    ∃ bs, List.Forall₂ R as bs := by
  induction as with
  | nil => exact ⟨[], .nil⟩
  | cons a as ih =>
    obtain ⟨b, hb⟩ := h a List.mem_cons_self
    obtain ⟨bs, hbs⟩ := ih fun a ha => h a (List.mem_cons_of_mem _ ha)
    exact ⟨b :: bs, .cons hb hbs⟩

theorem converted_of_inRange (hpl : SerdeValue.Plain n value) (hrng : value.InRange) :
    ∃ tag, jsonValueToNbt lib value = some tag := by
  induction hpl with
  | bool | string => exact ⟨_, rfl⟩
  | @number num n _ =>
    cases hrng with
    | number hv _ hhi =>
      obtain ⟨i, hi⟩ := asI64_of_lt hv (by omega)
      exact ⟨.int i.toInt32, by rw [jsonValueToNbt, hi]⟩
  | array _ ih =>
    cases hrng with
    | array hrng =>
      obtain ⟨tags, htags⟩ := exists_forall₂ fun item hit => ih item hit (hrng item hit)
      exact ⟨_, array_eq_some.mpr ⟨tags, htags, rfl⟩⟩
  | @object map n _ _ hnd ih =>
    cases hrng with
    | object hrng =>
      have hentr : ∀ entry ∈ map, ∃ field : String × NbtTag, entry.1 = field.1 ∧
          jsonValueToNbt lib entry.2 = some field.2 := by
        intro entry hent
        obtain ⟨tag, htag⟩ := ih entry hent (hrng entry hent)
        exact ⟨(entry.1, tag), rfl, htag⟩
      obtain ⟨fields, hflds⟩ := exists_forall₂ hentr
      exact ⟨_, (object_eq_some hnd).mpr ⟨fields, hflds, rfl⟩⟩

end Converted

namespace NbtTag

theorem Same.symm (h : Same t u) : Same u t := by
  induction h with
  | refl => exact .refl
  | list hlen _ ih => exact .list hlen.symm fun i u t hu ht => ih i t u ht hu
  | compound hpm _ ih => exact .compound hpm.symm fun name u t hu ht => ih name t u ht hu

inductive UniformLists : NbtTag → Prop
  | leaf : (∀ items, tag ≠ .list items) → (∀ map, tag ≠ .compound map) → UniformLists tag
  | list : (∀ item ∈ items, UniformLists item) → (∀ item ∈ items, item.tagType = ty) →
      items.length ≤ 1048576 → UniformLists (.list items)
  | compound : (∀ field ∈ map, UniformLists field.2) → UniformLists (.compound map)

theorem uniformLists_of_read (h : payloadAt ty depth src = .ok (tag, rest)) :
    tag.UniformLists := by
  refine payloadAt_induct (P := fun _ _ _ tag _ => tag.UniformLists) ?_ ?_ ?_ h
  · intro ty depth src tag rest hls hcmp h
    have hty := tagType_of_read h
    refine .leaf (fun items => ?_) fun map => ?_
    · rintro rfl
      exact hls hty.symm
    · rintro rfl
      exact hcmp hty.symm
  · intro depth src header src₁ items rest hhdr _ hlen hch
    refine .list (hch.forall_mem fun _ _ _ h => h.2)
      (hch.forall_mem fun _ _ _ h => tagType_of_read h.1) (hlen ▸ listHeader_le hhdr)
  · intro depth src fields src₁ rest _ hch _
    refine .compound fun field hfld => ?_
    refine hch.forall_mem (P := fun field => field.2.UniformLists) (fun _ _ _ h => ?_) field
      (NbtMap.mem_collect hfld)
    obtain ⟨-, -, -, -, -, -, -, h⟩ := h
    exact h

end NbtTag

theorem SaysSame.of_same (h : SaysSame value t) (hs : NbtTag.Same u t) : SaysSame value u := by
  induction h generalizing u with
  | bool =>
    cases hs
    exact .bool
  | integer hn htag =>
    cases hs with
    | refl => exact .integer hn htag
    | list | compound => cases htag
  | string =>
    cases hs
    exact .string
  | array hlen hmn ih =>
    cases hs with
    | refl => exact .array hlen hmn
    | @list tags' _ hlen' hsm =>
      refine .array (hlen.trans hlen'.symm) fun i value u hval hu => ?_
      obtain ⟨hi, -⟩ := List.getElem?_eq_some_iff.mp hu
      have ht := List.getElem?_eq_getElem (hlen' ▸ hi)
      exact ih i value _ hval ht (hsm i u _ hu ht)
  | object hpm hmn ih =>
    cases hs with
    | refl => exact .object hpm hmn
    | compound hpm' hsm =>
      refine .object (hpm.trans hpm'.symm) fun name value u hval hu => ?_
      obtain ⟨⟨_, t⟩, ht, rfl⟩ := List.mem_map.mp (hpm'.mem_iff.mp (List.mem_map_of_mem hu))
      exact ih _ value t hval ht (hsm _ u t hu ht)

namespace SerdeValue

def kind : TagType → TagType
  | .short | .long => .int
  | ty => ty

theorem integer_lt {tag : NbtTag} (h : tag.integer = some v) : v < 0x8000000000000000 := by
  cases tag with
  | short i =>
    cases h
    have := Int16.toInt_lt i
    omega
  | int i =>
    cases h
    have := Int32.toInt_lt i
    omega
  | long i =>
    cases h
    exact Int64.toInt_lt i
  | _ => cases h

theorem tagType_of_saysSame (h : SaysSame value tag) : value.tagType = kind tag.tagType := by
  cases h with
  | bool | string | array | object => rfl
  | @integer _ n _ hn htag =>
    obtain ⟨i, hi⟩ := asI64_of_lt hn (integer_lt htag)
    have hint : tagType (.number n) = .int := by
      rw [tagType, hi]
      rfl
    rw [hint]
    cases tag with
    | short | int | long => rfl
    | _ => cases htag

theorem uniform_of_saysSame (h : SaysSame value tag) (htag : tag.UniformLists) : value.Uniform := by
  induction h with
  | bool => exact .bool
  | integer => exact .number
  | string => exact .string
  | @array items tags hlen hmn ih =>
    cases htag with
    | leaf hls => exact absurd rfl (hls tags)
    | @list _ ty htags hty hlen' =>
      have hpar (item : SerdeValue) (hit : item ∈ items) :
          item.Uniform ∧ item.tagType = kind ty := by
        obtain ⟨i, hi, rfl⟩ := List.getElem_of_mem hit
        have hit' := List.getElem?_eq_getElem hi
        have htag' := List.getElem?_eq_getElem (hlen ▸ hi)
        have hmem := List.mem_of_getElem? htag'
        refine ⟨ih i _ _ hit' htag' (htags _ hmem), ?_⟩
        rw [tagType_of_saysSame (hmn i _ _ hit' htag'), hty _ hmem]
      exact .array (fun item hit => (hpar item hit).1)
        (fun item hit => (hpar item hit).2) (hlen ▸ hlen')
  | @object map map' hpm hmn ih =>
    cases htag with
    | leaf _ hcmp => exact absurd rfl (hcmp map')
    | compound htags =>
      refine .object fun entry hent => ?_
      obtain ⟨field, hfld, hnm⟩ := List.mem_map.mp (hpm.mem_iff.mp (List.mem_map_of_mem hent))
      exact ih entry.1 entry.2 field.2 hent (hnm ▸ hfld) (htags field hfld)

end SerdeValue

def withRootName : List UInt8 → List UInt8
  | [] => []
  | ty :: payload => ty :: 0 :: 0 :: payload

theorem encode_nameless (h : Nbt.encode nbt = .ok bytes) (hnm : nbt.name = "") :
    ∃ payload, writeFields nbt.root = .ok payload ∧ bytes = 0x0a :: 0 :: 0 :: payload := by
  have hemp : writeNbtString nbt.name = .ok [0, 0] := by
    rw [hnm]
    decide
  rw [Nbt.encode, hemp] at h
  cases hpay : writeTagPayload (.compound nbt.root) with
  | error e =>
    rw [hpay] at h
    cases h
  | ok payload =>
    rw [hpay] at h
    cases h
    exact ⟨payload, hpay, rfl⟩

theorem fits_nameless (h : NbtTag.Fits n (.compound root)) : Nbt.Fits n ⟨"", root⟩ := by
  refine ⟨?_, h⟩
  change NbtTag.textSize "" ≤ 65535
  decide

section Component
variable {lib : ComponentLibrary}

theorem component_eq_some : jsonComponentToNamelessNbt lib text = some out ↔
    ∃ value root payload, lib.fromStr text = some value ∧
      jsonValueToNbt lib value = some (.compound root) ∧
      (lib.walk ⟨"", root⟩).encode = .ok (0x0a :: 0 :: 0 :: payload) ∧ out = 0x0a :: payload := by
  constructor
  · intro h
    obtain ⟨value, hval, h⟩ := bind_eq_some_iff.mp h
    obtain ⟨tag, htag, h⟩ := bind_eq_some_iff.mp h
    cases tag with
    | compound root =>
      dsimp only at h
      generalize henc : (lib.walk ⟨"", root⟩).encode = encoded at h
      cases encoded with
      | error e => cases h
      | ok bytes =>
        obtain ⟨payload, -, rfl⟩ := encode_nameless henc (lib.walk_same _).1
        dsimp only at h
        cases h
        exact ⟨value, root, payload, hval, htag, henc, rfl⟩
    | _ => cases h
  · rintro ⟨value, root, payload, hval, htag, henc, rfl⟩
    refine bind_eq_some_iff.mpr ⟨value, hval, bind_eq_some_iff.mpr ⟨_, htag, ?_⟩⟩
    dsimp only
    rw [henc]
    dsimp only
    rfl

/-- The bytes that the text is converted to are, with a name for the root, the whole of a value that
says the same. -/
def Converts (lib : ComponentLibrary) (text : String) (value : SerdeValue) : Prop :=
  ∃ out nbt, jsonComponentToNamelessNbt lib text = some out ∧
    Nbt.decode (withRootName out) = .ok (nbt, []) ∧ SaysSame value (.compound nbt.root)

theorem converts_of_uniform (hpl : SerdeValue.Plain maxNbtDepth (.object map))
    (htx : lib.fromStr text = some (.object map)) (huni : SerdeValue.Uniform (.object map))
    (hrng : SerdeValue.InRange (.object map)) : Converts lib text (.object map) := by
  obtain ⟨tag, htag⟩ : ∃ tag, jsonValueToNbt lib (.object map) = some tag :=
    converted_of_inRange hpl hrng
  have hft := fits_of_uniform hpl htag huni
  have hmn := (says_iff_inRange hpl htag).mpr hrng
  cases hmn with
  | @object _ root hpm hmn =>
    have hwal := lib.walk_same ⟨"", root⟩
    obtain ⟨bytes, henc, hrds⟩ := ((fits_nameless hft).of_same hwal).reads
    obtain ⟨payload, -, rfl⟩ := encode_nameless henc hwal.1
    have hdec := hrds []
    rw [List.append_nil] at hdec
    exact ⟨0x0a :: payload, _, component_eq_some.mpr ⟨_, root, payload, htx, htag, henc, rfl⟩,
      hdec, (SaysSame.object hpm hmn).of_same hwal.2⟩

theorem uniform_of_converts (htx : ∀ value, lib.fromStr text = some value → value = .object map)
    (hpl : SerdeValue.Plain maxNbtDepth (.object map)) (h : Converts lib text (.object map)) :
    lib.fromStr text = some (.object map) ∧ SerdeValue.Uniform (.object map) ∧
      SerdeValue.InRange (.object map) := by
  obtain ⟨out, nbt, hout, hdec, hmn⟩ := h
  obtain ⟨value, root, payload, hval, htag, henc, rfl⟩ := component_eq_some.mp hout
  cases htx value hval
  have hlis : NbtTag.UniformLists (.compound nbt.root) := by
    rcases decode_eq_ok hdec with ⟨-, rfl⟩ | ⟨src, name, body, -, -, hpay⟩
    · exact .compound fun field hfld => absurd hfld List.not_mem_nil
    · exact NbtTag.uniformLists_of_read hpay
  have huni := SerdeValue.uniform_of_saysSame hmn hlis
  -- The bytes can be read in one way only, as the value that was written.
  have hwal := lib.walk_same ⟨"", root⟩
  have hft := fits_of_uniform hpl htag huni
  obtain ⟨bytes, henc', hrds⟩ := ((fits_nameless hft).of_same hwal).reads
  cases henc.symm.trans henc'
  have hrd := hrds []
  rw [List.append_nil] at hrd
  cases hdec.symm.trans hrd
  exact ⟨hval, huni, (says_iff_inRange hpl htag).mp (hmn.of_same hwal.2.symm)⟩

end Component

/-- A component without nulls and floats that keeps to the limits is converted to what says the same
exactly if the JSON library accepts its text, the items of every array become tags of one type and
are not too many, and all its integers have 32 bits. -/
theorem component_converts_iff (lib : ComponentLibrary) (text : String)
    (map : List (String × SerdeValue)) (hplain : SerdeValue.Plain maxNbtDepth (.object map))
    (htext : ∀ value, lib.fromStr text = some value → value = .object map) :
    Converts lib text (.object map) ↔
      lib.fromStr text = some (.object map) ∧ SerdeValue.Uniform (.object map) ∧
        SerdeValue.InRange (.object map) := by
  constructor
  · exact uniform_of_converts htext hplain
  · rintro ⟨htext, huniform, hrange⟩
    exact converts_of_uniform hplain htext huniform hrange

def oneTextLibrary (text : String) (value : SerdeValue) : ComponentLibrary where
  fromStr s := if s = text then some value else none
  asF64 _ := none
  walk nbt := nbt
  walk_same _ := ⟨rfl, .refl⟩

theorem oneText_self (text : String) (value : SerdeValue) :
    (oneTextLibrary text value).fromStr text = some value := by
  simp [oneTextLibrary]

theorem oneText_eq (h : (oneTextLibrary text value).fromStr text = some value') :
    value' = value := by
  simpa [oneTextLibrary, eq_comm] using h

theorem plain_singleton (hits : ∀ item ∈ items, SerdeValue.Plain 510 item) :
    SerdeValue.Plain maxNbtDepth (.object [("a", .array items)]) := by
  refine .object (fun field hfld => ?_) (fun field hfld => ?_) (List.nodup_singleton _)
  · cases List.mem_singleton.mp hfld
    exact .array hits
  · cases List.mem_singleton.mp hfld
    change NbtTag.textSize "a" ≤ 65535
    decide

theorem component_converts_numbers :
    Converts (oneTextLibrary "\x7b\"a\":[1,2]\x7d"
        (.object [("a", .array [.number (.posInt 1), .number (.posInt 2)])]))
      "\x7b\"a\":[1,2]\x7d"
      (.object [("a", .array [.number (.posInt 1), .number (.posInt 2)])]) := by
  have hitems : ∀ item ∈ [SerdeValue.number (.posInt 1), .number (.posInt 2)],
      SerdeValue.Plain 510 item ∧ item.Uniform ∧ item.tagType = .int ∧ item.InRange := by
    intro item hitem
    rcases List.mem_pair.mp hitem with rfl | rfl
    · exact ⟨.number rfl, .number, rfl, .number rfl (by decide) (by decide)⟩
    · exact ⟨.number rfl, .number, rfl, .number rfl (by decide) (by decide)⟩
  refine (component_converts_iff _ _ _ (plain_singleton fun item hitem => (hitems item hitem).1)
    fun _ => oneText_eq).mpr ⟨rfl, .object fun field hfield => ?_, .object fun field hfield => ?_⟩
  · cases List.mem_singleton.mp hfield
    exact .array (fun item hitem => (hitems item hitem).2.1)
      (fun item hitem => (hitems item hitem).2.2.1) (by decide)
  · cases List.mem_singleton.mp hfield
    exact .array fun item hitem => (hitems item hitem).2.2.2

theorem mixed_array_not_converted :
    SerdeValue.Plain maxNbtDepth (.object [("a", .array [.string "x", .number (.posInt 1)])]) ∧
    ¬Converts (oneTextLibrary "\x7b\"a\":[\"x\",1]\x7d"
        (.object [("a", .array [.string "x", .number (.posInt 1)])]))
      "\x7b\"a\":[\"x\",1]\x7d" (.object [("a", .array [.string "x", .number (.posInt 1)])]) := by
  have hplain : ∀ item ∈ [SerdeValue.string "x", .number (.posInt 1)],
      SerdeValue.Plain 510 item := by
    intro item hitem
    rcases List.mem_pair.mp hitem with rfl | rfl
    · exact .string (by decide)
    · exact .number rfl
  refine ⟨plain_singleton hplain, fun h => ?_⟩
  obtain ⟨-, huniform, -⟩ := uniform_of_converts (fun _ => oneText_eq) (plain_singleton hplain) h
  cases huniform with
  | object hfields =>
    cases hfields _ (List.mem_singleton_self _) with
    | array _ hty _ =>
      have hsame := (hty _ List.mem_cons_self).trans
        (hty _ (List.mem_cons_of_mem _ (List.mem_singleton_self _))).symm
      cases hsame

end Kojacoord
