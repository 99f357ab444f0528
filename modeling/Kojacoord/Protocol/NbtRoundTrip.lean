import Kojacoord.Protocol.Nbt

namespace Kojacoord
open RoundTrip Decode NbtTag

namespace NbtTag

def tagType : NbtTag → TagType
  | .end => .end
  | byte _ => .byte
  | short _ => .short
  | int _ => .int
  | long _ => .long
  | float _ => .float
  | double _ => .double
  | byteArray _ => .byteArray
  | string _ => .string
  | list _ => .list
  | compound _ => .compound
  | intArray _ => .intArray
  | longArray _ => .longArray

def textSize (s : String) : Nat := s.toUTF8.data.toList.length

/-- The tag keeps to the limits of the format, with at most `n` lists and compounds inside one
another. -/
inductive Fits : Nat → NbtTag → Prop
  | byte : Fits n (.byte v)
  | short : Fits n (.short v)
  | int : Fits n (.int v)
  | long : Fits n (.long v)
  | float : Fits n (.float bits)
  | double : Fits n (.double bits)
  | byteArray : arr.length ≤ 1048576 → Fits n (.byteArray arr)
  | string : textSize s ≤ 65535 → Fits n (.string s)
  | list : (∀ item ∈ items, Fits n item) → (∀ item ∈ items, item.tagType = ty) →
      items.length ≤ 1048576 → Fits (n + 1) (.list items)
  | compound : (∀ field ∈ map, Fits n field.2) → (∀ field ∈ map, textSize field.1 ≤ 65535) →
      (map.map Prod.fst).Nodup → Fits (n + 1) (.compound map)
  | intArray : arr.length ≤ 1048576 → Fits n (.intArray arr)
  | longArray : arr.length ≤ 1048576 → Fits n (.longArray arr)

/-- Equality of tags, in which the order of the entries of a map does not count. -/
inductive Same : NbtTag → NbtTag → Prop
  | refl : Same t t
  | list : items.length = items'.length →
      (∀ (i : Nat) t u, items[i]? = some t → items'[i]? = some u → Same t u) →
      Same (.list items) (.list items')
  | compound : (map.map Prod.fst).Perm (map'.map Prod.fst) →
      (∀ name t u, (name, t) ∈ map → (name, u) ∈ map' → Same t u) →
      Same (.compound map) (.compound map')

end NbtTag

def Nbt.Fits (n : Nat) (nbt : Nbt) : Prop :=
  textSize nbt.name ≤ 65535 ∧ NbtTag.Fits n (.compound nbt.root)

def Nbt.Same (nbt nbt' : Nbt) : Prop :=
  nbt.name = nbt'.name ∧ NbtTag.Same (.compound nbt.root) (.compound nbt'.root)

namespace NbtTag

theorem Same.tagType_eq (h : Same t u) : t.tagType = u.tagType := by
  cases h <;> rfl

theorem Same.of_perm {map map' : NbtMap} (hnd : (map.map Prod.fst).Nodup)
    (h : map'.Perm map) : Same (.compound map') (.compound map) := by
  refine .compound (h.map Prod.fst) ?_
  intro name t u ht hu
  have heq := List.inj_on_of_nodup_map hnd (h.mem_iff.mp ht) hu rfl
  cases heq
  exact .refl

theorem Fits.tagType_ne_end (h : Fits n t) : t.tagType ≠ .end := by
  cases h <;> nofun

theorem partner_of_mem {items items' : List NbtTag} (hleng : items.length = items'.length)
    (hsm : ∀ (i : Nat) t u, items[i]? = some t → items'[i]? = some u → Same t u)
    (hit : item ∈ items) : ∃ item' ∈ items', Same item item' := by
  obtain ⟨i, hi, rfl⟩ := List.getElem_of_mem hit
  have hi' := hleng ▸ hi
  have := hsm i _ _ (List.getElem?_eq_getElem hi) (List.getElem?_eq_getElem hi')
  exact ⟨_, List.getElem_mem hi', this⟩

theorem partner_of_mem_map {map map' : NbtMap}
    (hpm : (map.map Prod.fst).Perm (map'.map Prod.fst))
    (hsm : ∀ name t u, (name, t) ∈ map → (name, u) ∈ map' → Same t u)
    (hfld : field ∈ map) : ∃ field' ∈ map', field.1 = field'.1 ∧ Same field.2 field'.2 := by
  have hmem := hpm.mem_iff.mp (List.mem_map_of_mem hfld)
  obtain ⟨field', hfld', hnm⟩ := List.mem_map.mp hmem
  refine ⟨field', hfld', hnm.symm, hsm field.1 _ _ hfld ?_⟩
  rw [← hnm]
  exact hfld'

theorem Fits.of_same (h : Fits n t) (hs : Same u t) : Fits n u := by
  induction h generalizing u with
  | byte => cases hs; exact .byte
  | short => cases hs; exact .short
  | int => cases hs; exact .int
  | long => cases hs; exact .long
  | float => cases hs; exact .float
  | double => cases hs; exact .double
  | byteArray hlen => cases hs; exact .byteArray hlen
  | string hsz => cases hs; exact .string hsz
  | intArray hlen => cases hs; exact .intArray hlen
  | longArray hlen => cases hs; exact .longArray hlen
  | @list items n ty hits hty hlen ih =>
    cases hs with
    | refl => exact .list hits hty hlen
    | @list items' _ hleng hsm =>
      have hty' : ∀ item ∈ items', item.tagType = ty := by
        intro item hit
        obtain ⟨item', hit', hsm⟩ := partner_of_mem hleng hsm hit
        exact hsm.tagType_eq.trans (hty item' hit')
      refine .list ?_ hty' (hleng ▸ hlen)
      intro item hit
      obtain ⟨item', hit', hsm⟩ := partner_of_mem hleng hsm hit
      exact ih item' hit' hsm
  | compound hflds hnms hnd ih =>
    cases hs with
    | refl => exact .compound hflds hnms hnd
    | compound hpm hsm =>
      refine .compound ?_ ?_ (hpm.nodup_iff.mpr hnd)
      · intro field hfld
        obtain ⟨field', hfld', -, hsm⟩ := partner_of_mem_map hpm hsm hfld
        exact ih field' hfld' hsm
      · intro field hfld
        obtain ⟨field', hfld', hnm, -⟩ := partner_of_mem_map hpm hsm hfld
        rw [hnm]
        exact hnms field' hfld'

end NbtTag

theorem reads_tagType (ty : TagType) : Reads tagType [ty.toU8] ty := by
  apply (reads_u8 ty.toU8).finish
  rw [TagType.fromU8_toU8]
  exact .pure ty

theorem tagTypeByte_eq (t : NbtTag) : tagTypeByte t = t.tagType.toU8 := by
  cases t <;> rfl

theorem writeNbtString_eq (h : textSize s ≤ 65535) :
    writeNbtString s = .ok (Encode.u16 (.ofNat (textSize s)) ++ s.toUTF8.data.toList) := by
  rw [textSize] at h ⊢
  simp only [writeNbtString, if_neg (Nat.not_lt.mpr h)]

theorem reads_nbtString (h : textSize s ≤ 65535) :
    Reads readNbtString (Encode.u16 (.ofNat (textSize s)) ++ s.toUTF8.data.toList) s := by
  apply (reads_u16 _).bind
  have hlen : s.toUTF8.data.toList.length = (UInt16.ofNat (textSize s)).toNat := by
    rw [UInt16.toNat_ofNat_of_lt' (by change _ < 65536; omega)]
    rfl
  apply (reads_take hlen).finish
  simp only [fromUTF8_bytes]
  exact .pure s

theorem reads_nbtLength (h : n ≤ 1048576) : Reads readNbtLength (Encode.i32 (.ofNat n)) n := by
  have hn : (Int32.ofNat n).toInt = n := Int32.toInt_ofNat_of_lt (by omega)
  apply (reads_i32 _).finish
  have hrng : ¬(Int32.ofNat n < 0 ∨ maxNbtArrayLen < Int32.ofNat n) := by
    rw [Int32.lt_iff_toInt_lt, Int32.lt_iff_toInt_lt, hn]
    change ¬((n : Int) < 0 ∨ 1048576 < (n : Int))
    omega
  rw [if_neg hrng, hn, Int.toNat_natCast]
  exact .pure n

theorem NbtMap.insert_of_not_mem {map : NbtMap} (h : name ∉ map.map Prod.fst) :
    .insert name tag map = map ++ [(name, tag)] := by
  induction map with
  | nil => rfl
  | cons field map ih =>
    rw [List.map_cons, List.mem_cons, not_or] at h
    rw [NbtMap.insert, if_neg (Ne.symm h.1), ih h.2]
    rfl

def ReadsBack (depth : Nat) (bytes : List UInt8) (t : NbtTag) : Prop :=
  ∀ fuel, bytes.length < fuel → Reads (readTagPayloadDepth fuel t.tagType depth) bytes t

def Returns (depth : Nat) (t : NbtTag) : Prop :=
  ∃ bytes, writeTagPayload t = .ok bytes ∧ ReadsBack depth bytes t

theorem writeItems_of_returns (h : ∀ item ∈ items, Returns depth item) :
    ∃ bytess, writeItems items = .ok bytess.flatten ∧
      List.Forall₂ (ReadsBack depth) bytess items := by
  induction items with
  | nil => exact ⟨[], rfl, .nil⟩
  | cons item items ih =>
    obtain ⟨bytes, hwr, hrd⟩ := h item List.mem_cons_self
    obtain ⟨bytess, hwrs, hrds⟩ := ih fun item hit => h item (List.mem_cons_of_mem _ hit)
    refine ⟨bytes :: bytess, ?_, .cons hrd hrds⟩
    rw [writeItems, hwr, hwrs]
    rfl

theorem reads_items (h : List.Forall₂ (ReadsBack depth) bytess items)
    (hty : ∀ item ∈ items, item.tagType = ty) (hfe : bytess.flatten.length < fuel) :
    Reads (times (readTagPayloadDepth fuel ty depth) items.length) bytess.flatten items := by
  apply Reads.times
  induction h with
  | nil => exact .nil
  | @cons bytes item bytess items hrd _ ih =>
    rw [List.flatten_cons, List.length_append] at hfe
    have hit := hrd fuel (by omega)
    rw [hty item List.mem_cons_self] at hit
    exact .cons hit (ih (fun item hit => hty item (List.mem_cons_of_mem _ hit)) (by omega))

theorem reads_fields {map : NbtMap} (h : ∀ field ∈ map, Returns depth field.2)
    (hnms : ∀ field ∈ map, textSize field.1 ≤ 65535)
    (hend : ∀ field ∈ map, field.2.tagType ≠ .end) :
    ∃ bytes, writeFields map = .ok bytes ∧
      ∀ fuel n acc, bytes.length ≤ fuel → bytes.length ≤ n →
        ((acc ++ map).map Prod.fst).Nodup →
        Reads (readFields (fun ty => readTagPayloadDepth fuel ty depth) n acc) bytes
          (acc ++ map) := by
  induction map with
  | nil =>
    refine ⟨[TagType.toU8 .end], rfl, ?_⟩
    intro fuel n acc _ hn _
    cases n with
    | zero => simp at hn
    | succ n =>
      rw [List.append_nil]
      exact (reads_tagType .end).finish (.pure acc)
  | cons field map ih =>
    obtain ⟨name, tag⟩ := field
    obtain ⟨payload, hwr, hrd⟩ := h _ List.mem_cons_self
    have hnm := hnms _ List.mem_cons_self
    have htag := hend _ List.mem_cons_self
    obtain ⟨rest, hwrs, hrds⟩ := ih (fun f hf => h f (List.mem_cons_of_mem _ hf))
      (fun f hf => hnms f (List.mem_cons_of_mem _ hf))
      (fun f hf => hend f (List.mem_cons_of_mem _ hf))
    generalize hkey : Encode.u16 (.ofNat (textSize name)) ++ name.toUTF8.data.toList = key
    refine ⟨[tag.tagType.toU8] ++ (key ++ (payload ++ rest)), ?_, ?_⟩
    · rw [writeFields, writeNbtString_eq hnm, hwr, hwrs, hkey, tagTypeByte_eq]
      simp [bind, Except.bind, pure, Except.pure]
    · intro fuel n acc hfe hn hnd
      simp only [List.length_append, List.length_cons, List.length_nil] at hfe hn
      cases n with
      | zero => omega
      | succ n =>
        have hfre : name ∉ acc.map Prod.fst := by
          rw [List.map_append, List.nodup_append] at hnd
          intro hmem
          exact hnd.2.2 name hmem name List.mem_cons_self rfl
        rw [show acc ++ (name, tag) :: map = acc ++ [(name, tag)] ++ map by simp] at hnd ⊢
        apply (reads_tagType _).bind
        rw [if_neg htag, ← hkey]
        apply (reads_nbtString hnm).bind
        apply (hrd fuel (by omega)).bind
        rw [NbtMap.insert_of_not_mem hfre]
        exact hrds fuel n _ (by omega) (by omega) hnd

theorem returns_leaf (hwr : writeTagPayload t = .ok bytes)
    (h : ∀ fuel, Reads (readTagPayloadDepth (fuel + 1) t.tagType depth) bytes t) :
    Returns depth t := by
  refine ⟨bytes, hwr, ?_⟩
  intro fuel hfe
  cases fuel with
  | zero => omega
  | succ fuel => exact h fuel

theorem returns_byteArray {arr : List Int8} (hlen : arr.length ≤ 1048576) :
    Returns depth (.byteArray arr) := by
  refine returns_leaf rfl fun fuel => ?_
  apply (reads_nbtLength hlen).bind
  apply (reads_take (List.length_map ..)).finish
  rw [List.map_map, show UInt8.toInt8 ∘ Int8.toUInt8 = id from rfl, List.map_id]
  exact Reads.pure _

theorem returns_intArray {arr : List Int32} (hlen : arr.length ≤ 1048576) :
    Returns depth (.intArray arr) := by
  refine returns_leaf rfl fun fuel => ?_
  apply (reads_nbtLength hlen).bind
  exact (Reads.times_map fun v _ => reads_i32 v).finish (Reads.pure _)

theorem returns_longArray {arr : List Int64} (hlen : arr.length ≤ 1048576) :
    Returns depth (.longArray arr) := by
  refine returns_leaf rfl fun fuel => ?_
  apply (reads_nbtLength hlen).bind
  exact (Reads.times_map fun v _ => reads_i64 v).finish (Reads.pure _)

theorem returns_nil : Returns depth (.list []) := by
  refine returns_leaf rfl fun fuel => ?_
  apply (reads_tagType .end).bind
  exact .pure _

theorem returns_list
    (h : ∀ item ∈ items, Returns (if ty = .compound then depth + 1 else depth) item)
    (hty : ∀ item ∈ items, item.tagType = ty) (hlen : items.length ≤ 1048576)
    (hdp : ty = .compound → depth < maxNbtDepth) : Returns depth (.list items) := by
  cases items with
  | nil => exact returns_nil
  | cons item items =>
    obtain ⟨bytess, hwrs, hrds⟩ := writeItems_of_returns h
    have hele : elementTypeByte (item :: items) = ty.toU8 := by
      rw [elementTypeByte, tagTypeByte_eq, hty item List.mem_cons_self]
    generalize item :: items = items at *
    refine ⟨[ty.toU8] ++ (Encode.i32 (.ofNat items.length) ++ bytess.flatten), ?_, ?_⟩
    · rw [writeTagPayload, hwrs, hele]
      rfl
    · intro fuel hfe
      simp only [List.length_append, List.length_cons, List.length_nil] at hfe
      cases fuel with
      | zero => omega
      | succ fuel =>
        have hits := reads_items hrds hty (show bytess.flatten.length < fuel by omega)
        apply (reads_tagType ty).bind
        apply (reads_nbtLength hlen).bind
        by_cases hcmp : ty = .compound
        · rw [if_pos hcmp] at hits
          simp only [if_pos hcmp, if_neg (Nat.not_le.mpr (hdp hcmp))]
          exact hits.finish (.pure _)
        · rw [if_neg hcmp] at hits
          simp only [if_neg hcmp]
          exact hits.finish (.pure _)

theorem returns_compound {map : NbtMap} (h : ∀ field ∈ map, Returns (depth + 1) field.2)
    (hnms : ∀ field ∈ map, textSize field.1 ≤ 65535)
    (hend : ∀ field ∈ map, field.2.tagType ≠ .end) (hnd : (map.map Prod.fst).Nodup)
    (hdp : depth < maxNbtDepth) : Returns depth (.compound map) := by
  obtain ⟨bytes, hwrs, hrds⟩ := reads_fields h hnms hend
  refine ⟨bytes, by rw [writeTagPayload, hwrs], ?_⟩
  intro fuel hfe
  cases fuel with
  | zero => omega
  | succ fuel =>
    have hflds := hrds fuel fuel [] (by omega) (by omega) hnd
    simp only [tagType, readTagPayloadDepth, if_neg (Nat.not_le.mpr hdp)]
    exact hflds.finish (.pure _)

theorem NbtTag.Fits.returns (h : Fits n t) (hdp : depth + n ≤ maxNbtDepth) :
    Returns depth t := by
  induction h generalizing depth with
  | @byte n v => exact returns_leaf rfl fun _ => (reads_u8 v.toUInt8).finish (Reads.pure _)
  | short => exact returns_leaf rfl fun _ => (reads_i16 _).finish (Reads.pure _)
  | int => exact returns_leaf rfl fun _ => (reads_i32 _).finish (Reads.pure _)
  | long => exact returns_leaf rfl fun _ => (reads_i64 _).finish (Reads.pure _)
  | float => exact returns_leaf rfl fun _ => (reads_f32 _).finish (Reads.pure _)
  | double => exact returns_leaf rfl fun _ => (reads_f64 _).finish (Reads.pure _)
  | byteArray hlen => exact returns_byteArray hlen
  | string hsz =>
    exact returns_leaf (writeNbtString_eq hsz) fun _ =>
      (reads_nbtString hsz).finish (Reads.pure _)
  | list _ hty hlen ih =>
    refine returns_list ?_ hty hlen fun _ => (by omega)
    intro item hit
    exact ih item hit (by split <;> omega)
  | compound hflds hnms hnd ih =>
    refine returns_compound ?_ hnms ?_ hnd (by omega)
    · intro field hfld
      exact ih field hfld (by omega)
    · intro field hfld
      exact (hflds field hfld).tagType_ne_end
  | intArray hlen => exact returns_intArray hlen
  | longArray hlen => exact returns_longArray hlen

theorem Nbt.Fits.of_same (h : Nbt.Fits n nbt) (hs : Nbt.Same nbt' nbt) : Nbt.Fits n nbt' :=
  ⟨hs.1 ▸ h.1, h.2.of_same hs.2⟩

theorem Nbt.reads_of_returns (hnm : textSize nbt.name ≤ 65535)
    (h : Returns 0 (.compound nbt.root)) :
    ∃ tail, nbt.encode = .ok (TagType.toU8 .compound :: tail) ∧
      Reads Nbt.decode (TagType.toU8 .compound :: tail) nbt := by
  obtain ⟨payload, hwr, hrd⟩ := h
  generalize htx : Encode.u16 (.ofNat (textSize nbt.name)) ++
    nbt.name.toUTF8.data.toList = name
  refine ⟨name ++ payload, ?_, ?_⟩
  · rw [Nbt.encode, writeNbtString_eq hnm, hwr, htx]
    rfl
  · have hpay : Reads (readTagPayload .compound) payload (.compound nbt.root) := by
      intro rest
      exact hrd _ (by rw [List.length_append]; omega) rest
    rw [← htx]
    apply (reads_u8 _).bind
    apply (reads_nbtString hnm).bind
    exact hpay.finish (Reads.pure nbt)

theorem Nbt.Fits.reads (h : Nbt.Fits maxNbtDepth nbt) :
    ∃ bytes, nbt.encode = .ok bytes ∧ Reads Nbt.decode bytes nbt := by
  obtain ⟨tail, henc, hrds⟩ := Nbt.reads_of_returns h.1
    (h.2.returns (Nat.le_of_eq (Nat.zero_add _)))
  exact ⟨_, henc, hrds⟩

/-- Whatever the order in which its maps are walked, a value within the limits is written and read
back as an equal value. -/
theorem nbt_round_trip {nbt nbt' : Nbt} (h : Nbt.Fits maxNbtDepth nbt) (horder : nbt'.Same nbt) :
    ∃ bytes, nbt'.encode = .ok bytes ∧
      ∀ rest, ∃ back, Nbt.decode (bytes ++ rest) = .ok (back, rest) ∧ back.Same nbt := by
  obtain ⟨bytes, hencode, hreads⟩ := (h.of_same horder).reads
  exact ⟨bytes, hencode, fun rest => ⟨nbt', hreads rest, horder⟩⟩

def sampleNbt : Nbt := ⟨"r", [("a", .int 1), ("b", .list [.compound [], .compound []])]⟩

theorem sampleNbt_fits : sampleNbt.Fits maxNbtDepth := by
  have hls : NbtTag.Fits 511 (.list [.compound [], .compound []]) := by
    have hemp : NbtTag.Fits 510 (.compound []) := .compound nofun nofun .nil
    have hty : ∀ item ∈ [NbtTag.compound [], .compound []], item.tagType = .compound := by
      simp [NbtTag.tagType]
    exact .list (by simpa using hemp) hty (by decide)
  refine ⟨by decide, .compound ?_ ?_ (by decide)⟩
  · rintro field hfld
    rcases List.mem_pair.mp hfld with rfl | rfl
    · exact .int
    · exact hls
  · intro field hfld
    rcases List.mem_pair.mp hfld with rfl | rfl <;> decide

theorem nbt_round_trip_sample : ∃ bytes,
    Nbt.encode ⟨"r", sampleNbt.root.reverse⟩ = .ok bytes ∧
      ∀ rest, ∃ back, Nbt.decode (bytes ++ rest) = .ok (back, rest) ∧ back.Same sampleNbt := by
  apply nbt_round_trip sampleNbt_fits
  exact ⟨rfl, NbtTag.Same.of_perm (by decide) (List.reverse_perm _)⟩

end Kojacoord
