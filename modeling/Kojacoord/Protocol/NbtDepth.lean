import Kojacoord.Protocol.NbtCalls

namespace Kojacoord
open RoundTrip NbtTag Nat

namespace NbtTag

mutual

def nesting : NbtTag → Nat
  | .list items => nestingItems items + 1
  | .compound map => nestingFields map + 1
  | _ => 0

def nestingItems : List NbtTag → Nat
  | [] => 0
  | item :: items => max (nesting item) (nestingItems items)

def nestingFields : List (String × NbtTag) → Nat
  | [] => 0
  | (_, tag) :: map => max (nesting tag) (nestingFields map)

end

theorem nestingItems_le {items : List NbtTag} (h : ∀ item ∈ items, item.nesting ≤ n) :
    nestingItems items ≤ n := by
  induction items with
  | nil => exact zero_le n
  | cons item items ih =>
    obtain ⟨hit, hits⟩ := List.forall_mem_cons.mp h
    exact Nat.max_le.mpr ⟨hit, ih hits⟩

theorem nestingFields_le {map : NbtMap} (h : ∀ field ∈ map, field.2.nesting ≤ n) :
    nestingFields map ≤ n := by
  induction map with
  | nil => exact zero_le n
  | cons field map ih =>
    obtain ⟨hfld, hmap⟩ := List.forall_mem_cons.mp h
    exact Nat.max_le.mpr ⟨hfld, ih hmap⟩

end NbtTag

/-- A call of `read_tag_payload_depth`, with the number of lists and compounds being read around it,
and whether one of the lists among them, or the one to read, is an element of a list. -/
structure PayloadCall where
  ty : TagType
  depth : Nat
  src : List UInt8
  level : Nat
  listInList : Bool

namespace PayloadCall

variable {b : List UInt8} {c c' : PayloadCall}

inductive Opens (c : PayloadCall) : Prop
  | list : c.ty = .list → listHeader c.src = .ok (header, src₁) →
      (header.1 = .compound → c.depth < maxNbtDepth) → Opens c
  | compound : c.ty = .compound → c.depth < maxNbtDepth → Opens c

inductive Nests (c : PayloadCall) : Prop
  | list : c.ty = .list → listHeader c.src = .ok (header, src₁) → Nests c
  | compound : c.ty = .compound → Nests c

inductive ListsOthers (c : PayloadCall) : Prop
  | mk : c.ty = .list → listHeader c.src = .ok (header, src₁) → header.1 ≠ .compound →
      ListsOthers c

inductive Calls (c : PayloadCall) : PayloadCall → Prop
  | item : c.ty = .list → listHeader c.src = .ok (header, src₁) →
      (header.1 = .compound → c.depth < maxNbtDepth) →
      Chain (Yields (payloadAt header.1 (itemDepth header.1 c.depth))) src₁ items src₂ →
      items.length < header.2 →
      Calls c ⟨header.1, itemDepth header.1 c.depth, src₂, c.level + 1,
        c.listInList || header.1 = .list⟩
  | field : c.ty = .compound → c.depth < maxNbtDepth →
      Chain (YieldsSome (readField fun ty => payloadAt ty (c.depth + 1))) c.src fields src₁ →
      src₁ = TagType.toU8 kind :: src₂ → kind ≠ .end → readNbtString src₂ = .ok (name, src₃) →
      Calls c ⟨kind, c.depth + 1, src₃, c.level + 1, c.listInList⟩

inductive First (b : List UInt8) : PayloadCall → Prop
  | mk : b = TagType.toU8 kind :: src₁ → kind ≠ .end → readNbtString src₁ = .ok (name, body) →
      First b ⟨kind, 0, body, 0, false⟩

def MadeFor (b : List UInt8) (c : PayloadCall) : Prop :=
  ∃ first, First b first ∧ Relation.ReflTransGen Calls first c

theorem Calls.opens (h : Calls c c') : c.Opens := by
  cases h with
  | item hty hhdr hgd => exact .list hty hhdr hgd
  | field hty hdp => exact .compound hty hdp

theorem Calls.level_eq (h : Calls c c') : c'.level = c.level + 1 := by
  cases h <;> rfl

/-- The depth is the number of lists and compounds as long as no list is an element of a list, and
less than that afterwards. -/
structure Counted (c : PayloadCall) : Prop where
  depth_le : c.depth ≤ c.level
  depth_lt : c.listInList = true → c.ty = .list ∨ c.ty = .compound → c.depth < c.level
  depth_eq : c.listInList = false → c.ty = .list ∨ c.ty = .compound → c.depth = c.level

theorem itemDepth_le (kind : TagType) (d : Nat) : itemDepth kind d ≤ d + 1 := by
  unfold itemDepth
  split <;> omega

theorem Calls.counted (h : Calls c c') (hc : c.Counted) : c'.Counted := by
  have hle := hc.depth_le
  cases h with
  | @item header src₁ items src₂ hty =>
    refine ⟨(itemDepth_le _ _).trans (succ_le_succ hle), ?_, ?_⟩
    · rintro hfg (hls | hcmp)
      · have hoth : header.1 ≠ .compound := fun h => TagType.noConfusion (hls.symm.trans h)
        simp only [itemDepth, if_neg hoth]
        exact lt_succ_of_le hle
      · have hoth : header.1 ≠ .list := fun h => TagType.noConfusion (hcmp.symm.trans h)
        simp only [decide_eq_false hoth, Bool.or_false] at hfg
        simp only [itemDepth, if_pos (show header.1 = .compound from hcmp)]
        exact succ_lt_succ (hc.depth_lt hfg (.inl hty))
    · intro hfg hkd
      obtain ⟨hfg, hls⟩ := Bool.or_eq_false_iff.mp hfg
      have hcmp : header.1 = .compound := hkd.resolve_left (of_decide_eq_false hls)
      simp only [itemDepth, if_pos hcmp, hc.depth_eq hfg (.inl hty)]
  | field hty =>
    refine ⟨succ_le_succ hle, ?_, ?_⟩
    · intro hfg _
      exact succ_lt_succ (hc.depth_lt hfg (.inr hty))
    · intro hfg _
      exact congrArg (· + 1) (hc.depth_eq hfg (.inr hty))

theorem Counted.opens_at_limit (hc : c.Counted) (hlev : c.level = maxNbtDepth) :
    c.Opens ↔ c.ListsOthers ∨ c.listInList = true ∧ c.Nests := by
  constructor
  · intro h
    cases h with
    | @list header src₁ hty hhdr hgd =>
      by_cases hcmp : header.1 = .compound
      · refine .inr ⟨?_, .list hty hhdr⟩
        by_contra hfg
        have hdp := hc.depth_eq (Bool.not_eq_true _ ▸ hfg) (.inl hty)
        have hlt := hgd hcmp
        omega
      · exact .inl (.mk hty hhdr hcmp)
    | compound hty hlt =>
      refine .inr ⟨?_, .compound hty⟩
      by_contra hfg
      have hdp := hc.depth_eq (Bool.not_eq_true _ ▸ hfg) (.inr hty)
      omega
  · rintro (⟨hty, hhdr, hoth⟩ | ⟨hfg, hnes⟩)
    · exact .list hty hhdr fun hcmp => absurd hcmp hoth
    · cases hnes with
      | list hty hhdr =>
        have hlt := hc.depth_lt hfg (.inl hty)
        exact .list hty hhdr fun _ => hlev ▸ hlt
      | compound hty =>
        have hlt := hc.depth_lt hfg (.inr hty)
        exact .compound hty (hlev ▸ hlt)

theorem MadeFor.counted (h : MadeFor b c) : c.Counted := by
  obtain ⟨first, hfst, hcs⟩ := h
  induction hcs with
  | refl =>
    cases hfst
    exact ⟨le_refl _, fun hfg => Bool.noConfusion hfg, fun _ _ => rfl⟩
  | tail _ hcl ih => exact hcl.counted ih

/-- Where 512 lists and compounds are open, the buffer has no list of other things than compounds,
and no list or compound at all if one of the open lists is an element of a list. -/
def KeepsLimit (b : List UInt8) : Prop :=
  ∀ c, MadeFor b c → c.level = maxNbtDepth → ¬c.ListsOthers ∧ (c.listInList = true → ¬c.Nests)

def StaysBelow (b : List UInt8) : Prop :=
  ∀ c, MadeFor b c → c.Opens → c.level < maxNbtDepth

theorem MadeFor.level_le (hb : ∀ c, MadeFor b c → c.level = maxNbtDepth → ¬c.Opens)
    (h : MadeFor b c) : c.level ≤ maxNbtDepth := by
  obtain ⟨first, hfst, hcs⟩ := h
  induction hcs with
  | refl =>
    cases hfst
    exact zero_le _
  | @tail c c' hcs hcl ih =>
    have hbel : c.level ≠ maxNbtDepth := fun hlev =>
      hb c ⟨first, hfst, hcs⟩ hlev hcl.opens
    rw [hcl.level_eq]
    omega

theorem staysBelow_iff_at_limit :
    StaysBelow b ↔ ∀ c, MadeFor b c → c.level = maxNbtDepth → ¬c.Opens := by
  constructor
  · intro hb c h hlev hope
    exact absurd hlev (Nat.ne_of_lt (hb c h hope))
  · intro hb c h hope
    exact lt_of_le_of_ne (h.level_le hb) fun hlev => hb c h hlev hope

theorem staysBelow_iff : StaysBelow b ↔ KeepsLimit b := by
  rw [staysBelow_iff_at_limit]
  refine forall_congr' fun c => forall_congr' fun h => forall_congr' fun hlev => ?_
  rw [h.counted.opens_at_limit hlev, not_or, not_and]

theorem nesting_le (h : payloadAt kind d s = .ok (tag, rest))
    (hope : ∀ c, Relation.ReflTransGen Calls ⟨kind, d, s, n, inList⟩ c → c.Opens →
      c.level < maxNbtDepth) (hn : n ≤ maxNbtDepth) : n + tag.nesting ≤ maxNbtDepth := by
  refine payloadAt_induct (P := fun kind d s tag _ => ∀ n inList,
    (∀ c, Relation.ReflTransGen Calls ⟨kind, d, s, n, inList⟩ c → c.Opens →
      c.level < maxNbtDepth) → n ≤ maxNbtDepth → n + tag.nesting ≤ maxNbtDepth)
    ?_ ?_ ?_ h n inList hope hn
  · intro kind d s tag rest hls hcmp h n inList _ hn
    have hkd := tagType_of_read h
    cases tag with
    | list => exact absurd hkd.symm hls
    | compound => exact absurd hkd.symm hcmp
    | _ => exact hn
  · intro d s header src₁ items rest hhdr hgd hlen hch n inList hope _
    have hlev : n < maxNbtDepth := hope _ .refl (.list rfl hhdr hgd)
    have hits : ∀ item ∈ items, item.nesting ≤ maxNbtDepth - (n + 1) := by
      intro item hit
      obtain ⟨before, after, u, v, rfl, hbef, hrd⟩ := hch.split_of_mem hit
      have hcl : Calls ⟨.list, d, s, n, inList⟩ _ :=
        .item rfl hhdr hgd (hbef.imp fun _ _ _ h => h.1)
          (by rw [← hlen]; simp)
      have hle := hrd.2 (n + 1) _ (fun c hcs => hope c (hcs.head hcl)) hlev
      omega
    have hmax := nestingItems_le hits
    rw [nesting]
    omega
  · intro d s fields src₁ rest hdp hch hend n inList hope _
    have hlev : n < maxNbtDepth := hope _ .refl (.compound rfl hdp)
    have hflds : ∀ field ∈ fields, field.2.nesting ≤ maxNbtDepth - (n + 1) := by
      intro field hfld
      obtain ⟨before, after, u, v, rfl, hbef, -, kind, s₁, s₂, hne, hu, hnm, hrd⟩ :=
        hch.split_of_mem hfld
      have hcl : Calls ⟨.compound, d, s, n, inList⟩ _ :=
        .field rfl hdp (hbef.imp fun _ _ _ h => h.1) hu hne hnm
      have hle := hrd (n + 1) _ (fun c hcs => hope c (hcs.head hcl)) hlev
      omega
    have hmax := nestingFields_le fun field hfld =>
      hflds field (NbtMap.mem_collect hfld)
    rw [nesting]
    omega

theorem StaysBelow.nesting_le (hb : StaysBelow b) (h : Nbt.decode b = .ok (nbt, rest)) :
    nesting (.compound nbt.root) ≤ maxNbtDepth := by
  rcases decode_eq_ok h with ⟨-, rfl⟩ | ⟨src, name, body, rfl, hnm, hpay⟩
  · decide
  · have hfst : First (TagType.toU8 .compound :: src) ⟨.compound, 0, body, 0, false⟩ :=
      .mk rfl (by decide) hnm
    have hle := PayloadCall.nesting_le (n := 0) hpay
      (fun c hcs => hb c ⟨_, hfst, hcs⟩) (zero_le _)
    rwa [zero_add] at hle

end PayloadCall

/-- The depth of `read_tag_payload_depth` limits what is read and how deep the reader calls itself
only as far as it counts: it skips a list that is an element of a list, and lists of other things
than compounds are read without a look at it. -/
theorem depth_limited_iff (b : List UInt8) :
    ((∀ nbt rest, Nbt.decode b = .ok (nbt, rest) →
        nesting (.compound nbt.root) ≤ maxNbtDepth) ∧
      ∀ c, PayloadCall.MadeFor b c → c.Opens → c.level < maxNbtDepth) ↔
    PayloadCall.KeepsLimit b := by
  constructor
  · rintro ⟨-, hcalls⟩
    exact PayloadCall.staysBelow_iff.mp hcalls
  · intro hb
    have hbelow := PayloadCall.staysBelow_iff.mpr hb
    exact ⟨fun nbt rest h => hbelow.nesting_le h, hbelow⟩

def nestedLists : Nat → List UInt8
  | 0 => TagType.toU8 .end :: Encode.i32 (.ofNat 0)
  | n + 1 => TagType.toU8 .list :: Encode.i32 (.ofNat 1) ++ nestedLists n

def nestedTag : Nat → NbtTag
  | 0 => .list []
  | n + 1 => .list [nestedTag n]

theorem reads_nestedLists (n d : Nat) :
    Reads (payloadAt .list d) (nestedLists n) (nestedTag n) := by
  intro rest
  induction n with
  | zero =>
    have hhdr := reads_listHeader .end (zero_le 1048576) rest
    refine payloadAt_list_eq_ok.mpr ⟨_, _, [], hhdr, ?_, rfl, .nil, rfl⟩
    exact fun hcmp => TagType.noConfusion hcmp
  | succ n ih =>
    have hhdr := reads_listHeader .list (by decide : 1 ≤ 1048576) (nestedLists n ++ rest)
    refine payloadAt_list_eq_ok.mpr
      ⟨_, _, [nestedTag n], hhdr, ?_, rfl, .cons ih .nil, rfl⟩
    exact fun hcmp => TagType.noConfusion hcmp

theorem nesting_nestedTag (n : Nat) : (nestedTag n).nesting = n + 1 := by
  induction n with
  | zero => rfl
  | succ n ih => simp only [nestedTag, nesting, nestingItems, ih, max_zero]

theorem decode_nestedLists (n : Nat) : ∃ nbt,
    Nbt.decode (singleField .list (nestedLists n)) = .ok (nbt, []) ∧
      nesting (.compound nbt.root) = n + 2 := by
  refine ⟨_, decode_singleField (by decide) (reads_nestedLists n 1), ?_⟩
  simp only [nesting, nestingFields, nesting_nestedTag, max_zero]

theorem thousand_lists_decoded : ∃ nbt, Nbt.decode (singleField .list (nestedLists 1000)) =
    .ok (nbt, []) ∧ maxNbtDepth < nesting (.compound nbt.root) := by
  obtain ⟨nbt, hdecode, hnesting⟩ := decode_nestedLists 1000
  exact ⟨nbt, hdecode, by rw [hnesting]; decide⟩

end Kojacoord
