import Kojacoord.Protocol.NbtSkip

namespace Kojacoord
open RoundTrip List Nat

def payloadAt (ty : TagType) (depth : Nat) : Decoder NbtTag := fun src =>
  readTagPayloadDepth (src.length + 1) ty depth src

theorem payloadAt_eq (h : src.length < fuel) :
    readTagPayloadDepth fuel ty depth src = payloadAt ty depth src :=
  readTagPayloadDepth_agree ty depth h (le_refl _) src (lt_succ_self _)

theorem payloadAt_agree :
    AgreeBelow fuel (readTagPayloadDepth fuel ty depth) (payloadAt ty depth) :=
  fun _ h => payloadAt_eq h

theorem consumes_payloadAt (ty : TagType) (depth : Nat) : Consumes 0 (payloadAt ty depth) :=
  fun src tag rest h => consumes_tagPayload (src.length + 1) ty depth src tag rest h

def NbtMap.collect (fields : List (String × NbtTag)) : NbtMap :=
  fields.foldl (fun map field => NbtMap.insert field.1 field.2 map) []

theorem NbtMap.mem_insert {map : NbtMap} (h : field ∈ NbtMap.insert name tag map) :
    field = (name, tag) ∨ field ∈ map := by
  induction map with
  | nil => exact .inl (mem_singleton.mp h)
  | cons first map ih =>
    rw [NbtMap.insert] at h
    split at h
    · rename_i hnm
      rcases mem_cons.mp h with rfl | h
      · exact .inl (by rw [hnm])
      · exact .inr (mem_cons_of_mem _ h)
    · rcases mem_cons.mp h with rfl | h
      · exact .inr mem_cons_self
      · exact (ih h).imp_right (mem_cons_of_mem _)

theorem NbtMap.mem_collect (h : field ∈ NbtMap.collect fields) : field ∈ fields := by
  have hfold (map : NbtMap) (h : field ∈ fields.foldl
      (fun map field => NbtMap.insert field.1 field.2 map) map) : field ∈ map ∨ field ∈ fields := by
    clear * - h
    induction fields generalizing map with
    | nil => exact .inl h
    | cons first fields ih =>
      rcases ih _ h with hmap | hflds
      · rcases NbtMap.mem_insert hmap with rfl | hmap
        · exact .inr mem_cons_self
        · exact .inl hmap
      · exact .inr (mem_cons_of_mem _ hflds)
  exact (hfold [] h).resolve_left (not_mem_nil)

theorem NbtMap.collect_of_nodup {fields : NbtMap} (h : (fields.map Prod.fst).Nodup) :
    .collect fields = fields := by
  have hfold (map : NbtMap) (h : ((map ++ fields).map Prod.fst).Nodup) :
      fields.foldl (fun map field => .insert field.1 field.2 map) map = map ++ fields := by
    clear * - h
    induction fields generalizing map with
    | nil => exact (append_nil map).symm
    | cons field fields ih =>
      have hfre : field.1 ∉ map.map Prod.fst := by
        rw [map_append, nodup_append] at h
        intro hmem
        exact h.2.2 field.1 hmem field.1 mem_cons_self rfl
      rw [foldl_cons, NbtMap.insert_of_not_mem hfre, ih _ (by simpa using h)]
      simp
  exact hfold [] h

theorem reads_listHeader (ty : TagType) (h : n ≤ 1048576) :
    Reads listHeader (ty.toU8 :: Encode.i32 (.ofNat n)) (ty, n) :=
  (reads_tagType ty).bind ((reads_nbtLength h).finish (.pure _))

theorem readNbtLength_le (h : readNbtLength src = .ok (len, rest)) : len ≤ 1048576 := by
  obtain ⟨rawLen, src₁, -, h⟩ := bind_eq_ok.mp h
  by_cases hrng : rawLen < 0 ∨ maxNbtArrayLen < rawLen
  · simp only [if_pos hrng] at h
    cases h
  · simp only [if_neg hrng] at h
    cases h
    rw [not_or, Int32.not_lt, Int32.not_lt, Int32.le_iff_toInt_le, Int32.le_iff_toInt_le] at hrng
    have hmax : rawLen.toInt ≤ 1048576 := hrng.2
    omega

theorem listHeader_le (h : listHeader src = .ok (header, rest)) : header.2 ≤ 1048576 := by
  obtain ⟨ty, src₁, -, h⟩ := bind_eq_ok.mp h
  obtain ⟨len, src₂, hlen, h⟩ := bind_eq_ok.mp h
  cases h
  exact readNbtLength_le hlen

section Fields
variable {payload : TagType → Decoder NbtTag}

theorem readField_eq_some (h : readField payload src = .ok (some field, rest)) :
    ∃ ty src₁ src₂, ty ≠ .end ∧ src = ty.toU8 :: src₁ ∧
      readNbtString src₁ = .ok (field.1, src₂) ∧ payload ty src₂ = .ok (field.2, rest) := by
  obtain ⟨ty, src₁, hty, h⟩ := bind_eq_ok.mp h
  by_cases hend : ty = .end
  · rw [if_pos hend] at h
    cases h
  · rw [if_neg hend] at h
    obtain ⟨name, src₂, hnm, h⟩ := bind_eq_ok.mp h
    obtain ⟨tag, src₃, htag, h⟩ := bind_eq_ok.mp h
    cases h
    exact ⟨ty, src₁, src₂, hend, tagType_eq_ok hty, hnm, htag⟩

theorem readField_eq_none (h : readField payload src = .ok (none, rest)) :
    src = TagType.toU8 .end :: rest := by
  obtain ⟨ty, src₁, hty, h⟩ := bind_eq_ok.mp h
  by_cases hend : ty = .end
  · rw [if_pos hend] at h
    cases h
    rw [tagType_eq_ok hty, hend]
  · rw [if_neg hend] at h
    obtain ⟨name, src₂, -, h⟩ := bind_eq_ok.mp h
    obtain ⟨tag, src₃, -, h⟩ := bind_eq_ok.mp h
    cases h

end Fields

theorem payloadAt_list : payloadAt .list depth src = readList payloadAt depth src := by
  rw [payloadAt, readTagPayloadDepth_list]
  exact readList_agree (fun ty d => payloadAt_agree) consumes_payloadAt depth src
    (by omega)

theorem payloadAt_list_eq_ok : payloadAt .list depth src = .ok (tag, rest) ↔
    ∃ header src₁ items, listHeader src = .ok (header, src₁) ∧
      (header.1 = .compound → depth < maxNbtDepth) ∧ items.length = header.2 ∧
      Chain (Yields (payloadAt header.1 (itemDepth header.1 depth))) src₁ items rest ∧
      tag = .list items := by
  rw [payloadAt_list, readList]
  constructor
  · intro h
    obtain ⟨header, src₁, hhdr, h⟩ := bind_eq_ok.mp h
    by_cases hgd : header.1 = .compound ∧ maxNbtDepth ≤ depth
    · simp only [if_pos hgd] at h
      cases h
    · simp only [if_neg hgd] at h
      obtain ⟨items, src₂, hits, h⟩ := bind_eq_ok.mp h
      cases h
      obtain ⟨hlen, hch⟩ := times_eq_ok.mp hits
      exact ⟨header, src₁, items, hhdr, fun hty => not_le.mp fun hd => hgd ⟨hty, hd⟩,
        hlen, hch, rfl⟩
  · rintro ⟨header, src₁, items, hhdr, hgd, hlen, hch, rfl⟩
    have hps : ¬(header.1 = .compound ∧ maxNbtDepth ≤ depth) := fun h => not_lt.mpr h.2 (hgd h.1)
    rw [bind_ok hhdr]
    simp only [if_neg hps]
    exact bind_ok (times_eq_ok.mpr ⟨hlen, hch⟩)

theorem payloadAt_compound_eq_ok : payloadAt .compound depth src = .ok (tag, rest) ↔
    depth < maxNbtDepth ∧ ∃ fields src₁,
      Chain (YieldsSome (readField fun ty => payloadAt ty (depth + 1))) src fields src₁ ∧
      readField (fun ty => payloadAt ty (depth + 1)) src₁ = .ok (none, rest) ∧
      tag = .compound (NbtMap.collect fields) := by
  have hflds : readFields (fun ty => readTagPayloadDepth src.length ty (depth + 1)) src.length []
      src = readFields (fun ty => payloadAt ty (depth + 1)) (src.length + 1) [] src :=
    readFields_agree (fun ty => payloadAt_agree)
      (fun ty => consumes_payloadAt ty (depth + 1)) [] (le_add_right _ 2) (le_refl _)
      (le_succ _) src (lt_succ_self _)
  constructor
  · intro h
    obtain ⟨fuel, map, hfe, hdp, rfl, h⟩ := readCompound_eq_ok h
    cases hfe
    rw [hflds, readFields_eq] at h
    obtain ⟨fields, src₁, hlp, h⟩ := bind_eq_ok.mp h
    cases h
    obtain ⟨-, src₂, hch, hend⟩ := untilNone_eq_ok.mp hlp
    exact ⟨hdp, fields, src₂, hch, hend, rfl⟩
  · rintro ⟨hdp, fields, src₁, hch, hend, rfl⟩
    have hcon := consumes_readField fun ty => consumes_payloadAt ty (depth + 1)
    have hlen := hch.length_le (n := 1) fun s a t h => hcon s _ t h
    have hlp := untilNone_eq_ok (e := .unexpectedEof) (n := src.length + 1).mpr
      ⟨by omega, src₁, hch, hend⟩
    have hrd : readFields (fun ty => payloadAt ty (depth + 1)) (src.length + 1) [] src =
        .ok (.collect fields, rest) := by
      rw [readFields_eq]
      exact bind_ok hlp
    simp only [payloadAt, readTagPayloadDepth, if_neg (not_le.mpr hdp)]
    exact bind_ok (hflds.trans hrd)

/-- What holds of every tag that is read, if it does of tags without tags in them, and of lists and
compounds as soon as it does of what they are made of. -/
theorem payloadAt_induct {P : TagType → Nat → List UInt8 → NbtTag → List UInt8 → Prop}
    (leaf : ∀ ty depth src tag rest, ty ≠ .list → ty ≠ .compound →
      payloadAt ty depth src = .ok (tag, rest) → P ty depth src tag rest)
    (list : ∀ depth src header src₁ items rest, listHeader src = .ok (header, src₁) →
      (header.1 = .compound → depth < maxNbtDepth) → items.length = header.2 →
      Chain (fun s tag t => payloadAt header.1 (itemDepth header.1 depth) s = .ok (tag, t) ∧
        P header.1 (itemDepth header.1 depth) s tag t) src₁ items rest →
      P .list depth src (.list items) rest)
    (compound : ∀ depth src fields src₁ rest, depth < maxNbtDepth →
      Chain (fun s field t => readField (fun ty => payloadAt ty (depth + 1)) s =
          .ok (some field, t) ∧ ∃ ty s₁ s₂, ty ≠ .end ∧ s = ty.toU8 :: s₁ ∧
        readNbtString s₁ = .ok (field.1, s₂) ∧ P ty (depth + 1) s₂ field.2 t) src fields src₁ →
      src₁ = TagType.toU8 .end :: rest →
      P .compound depth src (.compound (NbtMap.collect fields)) rest)
    (h : payloadAt ty depth src = .ok (tag, rest)) : P ty depth src tag rest := by
  induction hn : src.length using Nat.strongRecOn generalizing ty depth src tag rest with
  | ind n ih =>
    by_cases hls : ty = .list
    · subst hls
      obtain ⟨header, src₁, items, hhdr, hgd, hlen, hch, rfl⟩ := payloadAt_list_eq_ok.mp h
      have hsho := consumes_listHeader _ _ _ hhdr
      refine list depth src header src₁ items rest hhdr hgd hlen ?_
      refine (hch.starts fun s tag t hrd => ?_).imp fun s tag t hrd => ⟨hrd.1, ?_⟩
      · exact consumes_payloadAt _ _ s tag t hrd
      · exact ih s.length (by omega) hrd.1 rfl
    · by_cases hcmp : ty = .compound
      · subst hcmp
        obtain ⟨hdp, fields, src₁, hch, hend, rfl⟩ := payloadAt_compound_eq_ok.mp h
        refine compound depth src fields src₁ rest hdp ?_ (readField_eq_none hend)
        have hcon := consumes_readField fun ty => consumes_payloadAt ty (depth + 1)
        refine (hch.starts fun s field t hrd => ?_).imp fun s field t hrd => ?_
        · exact hcon.zero s _ t hrd
        · obtain ⟨ty, s₁, s₂, hne, rfl, hnm, htag⟩ := readField_eq_some hrd.1
          have hnm' := consumes_nbtString _ _ _ hnm
          have hle := hrd.2
          rw [length_cons] at hle
          exact ⟨hrd.1, ty, s₁, s₂, hne, rfl, hnm, ih s₂.length (by omega) htag rfl⟩
      · exact leaf ty depth src tag rest hls hcmp h

section Single
variable {ty : TagType} {bytes : List UInt8} {tag : NbtTag}

def singleField (ty : TagType) (bytes : List UInt8) : List UInt8 :=
  10 :: 0 :: 0 :: ty.toU8 :: 0 :: 0 :: (bytes ++ [0])

theorem readField_some (hend : ty ≠ .end) (hnm : readNbtString src = .ok (name, src₁))
    (htag : payload ty src₁ = .ok (tag, rest)) :
    readField payload (ty.toU8 :: src) = .ok (some (name, tag), rest) := by
  have hty : tagType (ty.toU8 :: src) = .ok (ty, src) := reads_tagType ty src
  rw [readField, bind_ok hty, if_neg hend, bind_ok hnm, bind_ok htag]
  rfl

theorem decode_singleField (hend : ty ≠ .end) (h : Reads (payloadAt ty 1) bytes tag) :
    Nbt.decode (singleField ty bytes) = .ok (⟨"", [("", tag)]⟩, []) := by
  have hfld : readField (fun ty => payloadAt ty 1) (ty.toU8 :: 0 :: 0 :: (bytes ++ [0])) =
      .ok (some ("", tag), [0]) := readField_some hend (readNbtString_empty _) (h [0])
  have hroot : payloadAt .compound 0 (ty.toU8 :: 0 :: 0 :: (bytes ++ [0])) =
      .ok (.compound [("", tag)], []) :=
    payloadAt_compound_eq_ok.mpr ⟨by decide, [("", tag)], [0], .cons hfld .nil, rfl, rfl⟩
  have hby : Decode.u8 (singleField ty bytes) =
      .ok (10, 0 :: 0 :: ty.toU8 :: 0 :: 0 :: (bytes ++ [0])) := rfl
  rw [Nbt.decode, bind_ok hby, if_neg (by decide)]
  exact bind_ok (readNbtString_empty _) |>.trans (bind_ok hroot)

end Single

end Kojacoord
