import Kojacoord.Protocol.NbtCalls
import Mathlib.Algebra.BigOperators.Group.List.Defs

namespace Kojacoord
open RoundTrip NbtTag List

namespace NbtTag

mutual

def tally (own : NbtTag → Nat) : NbtTag → Nat
  | .list items => own (.list items) + tallyItems own items
  | .compound map => own (.compound map) + tallyFields own map
  | tag => own tag

def tallyItems (own : NbtTag → Nat) : List NbtTag → Nat
  | [] => 0
  | item :: items => tally own item + tallyItems own items

def tallyFields (own : NbtTag → Nat) : List (String × NbtTag) → Nat
  | [] => 0
  | (_, tag) :: map => tally own tag + tallyFields own map

end

def weight : NbtTag → Nat
  | .byteArray arr => 1 + arr.length
  | .intArray arr => 1 + arr.length
  | .longArray arr => 1 + arr.length
  | _ => 1

def endWeight : NbtTag → Nat
  | .end => 1
  | _ => 0

def solidWeight : NbtTag → Nat
  | .end => 0
  | tag => tag.weight

def size (tag : NbtTag) : Nat := tag.tally weight

def ends (tag : NbtTag) : Nat := tag.tally endWeight

variable (own : NbtTag → Nat)

theorem tallyItems_eq (items : List NbtTag) :
    tallyItems own items = (items.map (tally own)).sum := by
  induction items with
  | nil => rfl
  | cons item items ih => rw [tallyItems, ih, map_cons, sum_cons]

theorem tallyFields_insert_le (name : String) (tag : NbtTag) (map : NbtMap) :
    tallyFields own (NbtMap.insert name tag map) ≤ tallyFields own map + tally own tag := by
  induction map with
  | nil => simp [NbtMap.insert, tallyFields]
  | cons field map ih =>
    rw [NbtMap.insert]
    split
    · simp only [tallyFields]
      omega
    · simp only [tallyFields]
      omega

theorem tallyFields_collect_le (fields : List (String × NbtTag)) :
    tallyFields own (NbtMap.collect fields) ≤ (fields.map fun field => tally own field.2).sum := by
  have hfold (map : NbtMap) : tallyFields own
      (fields.foldl (fun map field => NbtMap.insert field.1 field.2 map) map) ≤
      tallyFields own map + (fields.map fun field => tally own field.2).sum := by
    induction fields generalizing map with
    | nil => simp
    | cons field fields ih =>
      have hins := tallyFields_insert_le own field.1 field.2 map
      have hrs := ih (.insert field.1 field.2 map)
      rw [foldl_cons, map_cons, sum_cons]
      omega
  simpa [tallyFields, NbtMap.collect] using hfold []

mutual

theorem size_eq : ∀ tag : NbtTag, tag.size = tag.tally solidWeight + tag.ends
  | .end | .byte _ | .short _ | .int _ | .long _ | .float _ | .double _ | .string _
  | .byteArray _ | .intArray _ | .longArray _ => rfl
  | .list items => by
    have hits := sizeItems_eq items
    simp only [size, ends, tally, weight, solidWeight, endWeight]
    omega
  | .compound map => by
    have hflds := sizeFields_eq map
    simp only [size, ends, tally, weight, solidWeight, endWeight]
    omega

theorem sizeItems_eq : ∀ items : List NbtTag,
    tallyItems weight items = tallyItems solidWeight items + tallyItems endWeight items
  | [] => rfl
  | item :: items => by
    have hit := size_eq item
    have hits := sizeItems_eq items
    simp only [size, ends] at hit
    simp only [tallyItems]
    omega

theorem sizeFields_eq : ∀ map : List (String × NbtTag),
    tallyFields weight map = tallyFields solidWeight map + tallyFields endWeight map
  | [] => rfl
  | (_, tag) :: map => by
    have htag := size_eq tag
    have hflds := sizeFields_eq map
    simp only [size, ends] at htag
    simp only [tallyFields]
    omega

end

end NbtTag

section Leaves
variable {src rest : List UInt8} {tag : NbtTag} {depth : Nat}

theorem scalar_le {d : Decoder α} {f : α → NbtTag} (hd : Consumes (n + 1) d)
    (hf : ∀ a, (f a).tally solidWeight = 1)
    (h : (d >>= fun a => pure (f a)) src = .ok (tag, rest)) :
    tag.tally solidWeight + rest.length ≤ src.length := by
  obtain ⟨a, rest', ha, h⟩ := bind_eq_ok.mp h
  cases h
  have hlen := hd _ _ _ ha
  rw [hf]
  omega

theorem array_le {item : Decoder α} {f : List α → NbtTag} (hit : Consumes (w + 1) item)
    (hf : ∀ arr, (f arr).tally solidWeight = 1 + arr.length)
    (h : (readNbtLength >>= fun len => times item len >>= fun arr => pure (f arr)) src =
      .ok (tag, rest)) :
    tag.tally solidWeight + rest.length ≤ src.length := by
  obtain ⟨len, src₁, hlen, h⟩ := bind_eq_ok.mp h
  obtain ⟨arr, rest', harr, h⟩ := bind_eq_ok.mp h
  cases h
  have hlen' := consumes_nbtLength _ _ _ hlen
  have harr' := (times_eq_ok.mp harr).2.length_le (n := 1) fun s a t hrd => by
    have hrd' := hit _ _ _ hrd
    omega
  rw [hf]
  omega

theorem leaf_le (hls : ty ≠ .list) (hcmp : ty ≠ .compound)
    (h : payloadAt ty depth src = .ok (tag, rest)) :
    tag.tally solidWeight + rest.length ≤ src.length := by
  cases ty with
  | «end» =>
    cases h
    exact Nat.le_of_eq (Nat.zero_add _)
  | byte => exact scalar_le Decode.consumes_u8 (fun _ => rfl) h
  | short => exact scalar_le Decode.consumes_i16 (fun _ => rfl) h
  | int => exact scalar_le Decode.consumes_i32 (fun _ => rfl) h
  | long => exact scalar_le Decode.consumes_i64 (fun _ => rfl) h
  | float => exact scalar_le Decode.consumes_f32 (fun _ => rfl) h
  | double => exact scalar_le Decode.consumes_f64 (fun _ => rfl) h
  | string => exact scalar_le consumes_nbtString (fun _ => rfl) h
  | byteArray =>
    obtain ⟨len, src₁, hlen, h⟩ := bind_eq_ok.mp h
    obtain ⟨bytes, rest', hbs, h⟩ := bind_eq_ok.mp h
    cases h
    have hlen' := consumes_nbtLength _ _ _ hlen
    obtain ⟨hcnt, rfl⟩ := Decode.take_eq_ok.mp hbs
    simp only [tally, solidWeight, weight, length_map]
    rw [length_append] at hlen'
    omega
  | intArray => exact array_le Decode.consumes_i32 (fun _ => rfl) h
  | longArray => exact array_le Decode.consumes_i64 (fun _ => rfl) h
  | list => exact absurd rfl hls
  | compound => exact absurd rfl hcmp

theorem leaf_ends (hend : ty ≠ .end) (hls : ty ≠ .list) (hcmp : ty ≠ .compound)
    (h : payloadAt ty depth src = .ok (tag, rest)) : tag.ends = 0 := by
  have htag := tagType_of_read h
  cases tag with
  | «end» => exact absurd htag.symm hend
  | list => exact absurd htag.symm hls
  | compound => exact absurd htag.symm hcmp
  | _ => rfl

end Leaves

theorem solid_le (h : payloadAt ty depth src = .ok (tag, rest)) :
    tag.tally solidWeight + rest.length ≤ src.length := by
  refine payloadAt_induct (P := fun _ _ src tag rest =>
    tag.tally solidWeight + rest.length ≤ src.length) ?_ ?_ ?_ h
  · intro ty depth src tag rest hls hcmp h
    exact leaf_le hls hcmp h
  · intro depth src header src₁ items rest hhdr _ _ hch
    have hhdr' := consumes_listHeader _ _ _ hhdr
    have hits := hch.sum_le (f := tally solidWeight) (m := 1) (n := 1)
      fun s tag t hrd => by simpa using hrd.2
    rw [tally, tallyItems_eq]
    simp only [solidWeight, weight]
    omega
  · intro depth src fields src₁ rest _ hch hend
    have hflds := hch.sum_le (m := 1) (n := 1)
      (f := fun field => tally solidWeight field.2) fun s field t hrd => by
        obtain ⟨-, ty, s₁, s₂, -, rfl, hnm, htag⟩ := hrd
        have hnm' := consumes_nbtString _ _ _ hnm
        rw [length_cons]
        omega
    have hcol := tallyFields_collect_le solidWeight fields
    rw [hend, length_cons] at hflds
    simp only [tally, solidWeight, weight]
    omega

theorem ends_le (hty : ty ≠ .end) (h : payloadAt ty depth src = .ok (tag, rest)) :
    5 * tag.ends + 1048576 * rest.length ≤ 1048576 * src.length := by
  refine payloadAt_induct (P := fun ty _ src tag rest => ty ≠ .end →
    5 * tag.ends + 1048576 * rest.length ≤ 1048576 * src.length) ?_ ?_ ?_ h hty
  · intro ty depth src tag rest hls hcmp h hend
    have hlen := consumes_payloadAt _ _ _ _ _ h
    rw [leaf_ends hend hls hcmp h]
    omega
  · intro depth src header src₁ items rest hhdr _ hlen hch _
    have hhdr' := consumes_listHeader _ _ _ hhdr
    have hle := listHeader_le hhdr
    rw [ends, tally, tallyItems_eq]
    simp only [endWeight, Nat.zero_add]
    by_cases hend : header.1 = .end
    · have hall : ∀ item ∈ items, item = .end := hch.forall_mem fun s tag t hrd => by
        have htag := tagType_of_read hrd.1
        rw [hend] at htag
        cases tag <;> first | rfl | cases htag
      have hends : (items.map (tally endWeight)).sum = items.length := by
        rw [eq_replicate_of_mem hall, map_replicate, sum_replicate, length_replicate]
        exact Nat.mul_one _
      have hrs := hch.length_le (n := 0) fun s tag t hrd =>
        consumes_payloadAt _ _ _ _ _ hrd.1
      omega
    · have hits := hch.sum_le (f := tally endWeight) (m := 5) (n := 1048576)
        fun s tag t hrd => hrd.2 hend
      omega
  · intro depth src fields src₁ rest _ hch hend _
    have hflds := hch.sum_le (m := 5) (n := 1048576)
      (f := fun field => tally endWeight field.2) fun s field t hrd => by
        obtain ⟨-, ty, s₁, s₂, hne, rfl, hnm, htag⟩ := hrd
        have hnm' := consumes_nbtString _ _ _ hnm
        have htag' := htag hne
        rw [ends] at htag'
        rw [length_cons]
        omega
    have hcol := tallyFields_collect_le endWeight fields
    rw [hend, length_cons] at hflds
    rw [ends, tally]
    simp only [endWeight]
    omega

/-- What is decoded has at most one tag or array element for every byte, apart from end tags; of
these there are at most 1048576 for every five bytes. -/
theorem decoded_size_le (h : Nbt.decode b = .ok (nbt, rest)) :
    NbtTag.size (.compound nbt.root) ≤
        b.length - rest.length + ends (.compound nbt.root) ∧
      5 * ends (.compound nbt.root) ≤ 1048576 * (b.length - rest.length) := by
  rw [size_eq]
  rcases decode_eq_ok h with ⟨rfl, rfl⟩ | ⟨src, name, body, rfl, hname, hpayload⟩
  · have hlen : (TagType.toU8 .end :: rest).length - rest.length = 1 := by simp
    rw [hlen]
    exact ⟨Nat.le_refl _, Nat.zero_le _⟩
  · have hroot : payloadAt .compound 0 body = .ok (.compound nbt.root, rest) := hpayload
    have hname' := consumes_nbtString _ _ _ hname
    have hsolid := solid_le hroot
    have hends := ends_le (by decide) hroot
    rw [length_cons]
    omega

def endList (n : Nat) : List UInt8 := singleField .list (0 :: Encode.i32 (.ofNat n))

theorem chain_ends : Chain (Yields (payloadAt .end depth)) src (List.replicate n .end) src := by
  induction n with
  | zero => exact .nil
  | succ n ih => exact .cons rfl ih

theorem decode_endList (h : n ≤ 1048576) :
    Nbt.decode (endList n) = .ok (⟨"", [("", .list (List.replicate n .end))]⟩, []) := by
  refine decode_singleField (by decide) fun rest => ?_
  have hhdr := reads_listHeader .end h rest
  refine payloadAt_list_eq_ok.mpr ⟨_, rest, List.replicate n .end, hhdr, ?_, ?_, ?_, rfl⟩
  · intro hcmp
    cases hcmp
  · exact length_replicate
  · exact chain_ends

/-- Twelve bytes are decoded to a tree of 102 tags. -/
theorem endList_amplified : ∃ nbt, Nbt.decode (endList 100) = .ok (nbt, []) ∧
    (endList 100).length = 12 ∧ NbtTag.size (.compound nbt.root) = 102 :=
  ⟨_, decode_endList (by decide), by decide, by decide⟩

theorem decoded_size_le_endList : NbtTag.size (.compound [("", .list [.end, .end])]) ≤
      (endList 2).length - 0 + ends (.compound [("", .list [.end, .end])]) ∧
    5 * ends (.compound [("", .list [.end, .end])]) ≤
      1048576 * ((endList 2).length - 0) :=
  decoded_size_le (decode_endList (n := 2) (by decide))

end Kojacoord
