import Kojacoord.Protocol.NbtSkip

namespace Kojacoord
open RoundTrip Decode Nat

namespace Skip

def Safe (p : Skipper α) : Prop := ∀ cur, p cur ≠ .error .panicked

theorem safe_pure (a : α) : Safe (pure a : Skipper α) := fun _ h => by cases h

theorem safe_fail : Safe (fail e : Skipper α) := fun _ h => by cases h

theorem safe_checked : Safe (checked d) := by
  intro cur h
  unfold checked at h
  split at h <;> cases h

theorem safe_need : Safe (need n) := by
  intro cur h
  unfold need at h
  split at h <;> cases h

theorem safe_fromU8 : Safe (fromU8 byte) := by
  unfold fromU8
  cases TagType.fromU8 byte with
  | ok ty => exact safe_pure ty
  | error e => exact safe_fail

theorem Safe.ite {p q : Skipper α} [Decidable c] (hp : Safe p) (hq : Safe q) :
    Safe (if c then p else q) := by
  split
  · exact hp
  · exact hq

section Bind
variable {p : Skipper α} {f : α → Skipper γ}

theorem Safe.bind_panicked (hp : Safe p) : (p >>= f) cur = .error .panicked ↔
    ∃ a rest, p cur = .ok (a, rest) ∧ f a rest = .error .panicked := by
  rw [bind_eq_error, or_iff_right (hp cur)]

theorem panicked_of_first (hf : ∀ a, Safe (f a)) :
    (p >>= f) cur = .error .panicked ↔ p cur = .error .panicked := by
  rw [bind_eq_error, or_iff_left]
  rintro ⟨a, rest, -, h⟩
  exact hf a rest h

theorem Safe.bind (hp : Safe p) (hf : ∀ a, Safe (f a)) : Safe (p >>= f) := by
  intro cur h
  exact hp cur ((panicked_of_first hf).mp h)

end Bind

theorem safe_skipName : Safe skipName := safe_checked.bind fun _ => safe_need

theorem need_eq_ok :
    need n cur = .ok (u, rest) ↔ ∃ front, front.length = n ∧ cur = front ++ rest :=
  drop_eq_ok

theorem consumes_need (n : Nat) : Consumes n (need n) := by
  intro cur u rest h
  obtain ⟨front, rfl, rfl⟩ := need_eq_ok.mp h
  rw [List.length_append]
  omega

theorem unchecked_panicked {d : Decoder α} :
    unchecked d cur = .error .panicked ↔ ∃ e, d cur = .error e := by
  unfold unchecked
  cases d cur with
  | ok r | error e => simp

theorem unchecked_eq_ok {d : Decoder α} :
    unchecked d cur = .ok (a, rest) ↔ d cur = .ok (a, rest) := by
  unfold unchecked
  cases d cur with
  | ok r => simp
  | error e => simp

theorem checked_eq_ok {d : Decoder α} :
    checked d cur = .ok (a, rest) ↔ d cur = .ok (a, rest) := by
  unfold checked
  cases d cur with
  | ok r => simp
  | error e => simp

theorem consumes_unchecked {d : Decoder α} (hd : Consumes n d) : Consumes n (unchecked d) :=
  fun cur a rest h => hd cur a rest (unchecked_eq_ok.mp h)

theorem consumes_checked {d : Decoder α} (hd : Consumes n d) : Consumes n (checked d) :=
  fun cur a rest h => hd cur a rest (checked_eq_ok.mp h)

theorem fromU8_eq_ok : fromU8 byte cur = .ok (ty, rest) ↔ byte = ty.toU8 ∧ rest = cur := by
  unfold fromU8
  constructor
  · intro h
    generalize hfrom : TagType.fromU8 byte = result at h
    cases result with
    | error e => cases h
    | ok ty' =>
      cases h
      exact ⟨TagType.toU8_of_fromU8 hfrom, rfl⟩
  · rintro ⟨rfl, rfl⟩
    rw [TagType.fromU8_toU8]
    rfl

theorem consumes_fromU8 : Consumes 0 (fromU8 byte) := by
  intro cur ty rest h
  rw [(fromU8_eq_ok.mp h).2, add_zero]

theorem consumes_skipName : Consumes 2 skipName :=
  (consumes_checked consumes_u16).bind fun len => (consumes_need len.toNat).zero

theorem take_bind_failed {f : List UInt8 → α} :
    (∃ e, (take n >>= fun bytes => pure (f bytes)) cur = .error e) ↔ cur.length < n := by
  by_cases hlen : cur.length < n
  · have htk : take n cur = .error .unexpectedEof := by rw [take, if_pos hlen]
    simp only [bind_error htk, hlen, iff_true]
    exact ⟨_, rfl⟩
  · have htk : take n cur = .ok (cur.take n, cur.drop n) := by
      rw [take, if_neg hlen]
    simp only [bind_ok htk, hlen, iff_false]
    rintro ⟨e, h⟩
    cases h

theorem unchecked_i32_panicked :
    unchecked i32 cur = .error .panicked ↔ cur.length < 4 :=
  unchecked_panicked.trans take_bind_failed

theorem unchecked_u16_panicked :
    unchecked u16 cur = .error .panicked ↔ cur.length < 2 :=
  unchecked_panicked.trans take_bind_failed

theorem u8_eq_ok (h : u8 cur = .ok (byte, rest)) : cur = byte :: rest := by
  cases cur with
  | nil => cases h
  | cons first cur =>
    cases h
    rfl

theorem unchecked_u8_panicked : unchecked u8 cur = .error .panicked ↔ cur = [] := by
  cases cur with
  | nil => exact ⟨fun _ => rfl, fun _ => rfl⟩
  | cons byte cur => simp [unchecked, u8]

theorem skipArray_panicked : skipArray width cur = .error .panicked ↔
    ∃ front back, front.length = 4 ∧ back.length < 4 ∧ cur = front ++ back := by
  have htl (n : Int32) : Safe (do
      if n < 0 then fail (.unknownNbtTag 0)
      need (n.toInt.toNat * width)) :=
    safe_fail.ite safe_need
  rw [skipArray, safe_need.bind_panicked]
  simp only [panicked_of_first htl, unchecked_i32_panicked, need_eq_ok]
  constructor
  · rintro ⟨-, back, ⟨front, hfr, rfl⟩, hbk⟩
    exact ⟨front, back, hfr, hbk, rfl⟩
  · rintro ⟨front, back, hfr, hbk, rfl⟩
    exact ⟨(), back, ⟨front, hfr, rfl⟩, hbk⟩

def skipHeader : Skipper (TagType × Nat) := do
  need 5
  let inner ← fromU8 (← unchecked u8)
  let n ← unchecked i32
  if n < 0 then fail (.unknownNbtTag 0)
  return (inner, n.toInt.toNat)

theorem consumes_skipHeader : Consumes 5 skipHeader := by
  refine (consumes_need 5).bind fun _ => ?_
  refine (consumes_unchecked consumes_u8).zero.bind fun byte => ?_
  refine consumes_fromU8.bind fun inner => ?_
  refine (consumes_unchecked consumes_i32).zero.bind fun n => ?_
  exact .ite (.throw _) (.pure _)

theorem skipHeader_panicked : skipHeader cur = .error .panicked ↔
    ∃ front back, front.length = 5 ∧ cur = front ++ back ∧
      (back = [] ∨ ∃ inner rest, back = TagType.toU8 inner :: rest ∧ rest.length < 4) := by
  have htl (inner : TagType) (n : Int32) : Safe (do
      if n < 0 then fail (.unknownNbtTag 0)
      return (inner, n.toInt.toNat)) :=
    safe_fail.ite (safe_pure _)
  rw [skipHeader, safe_need.bind_panicked]
  simp only [bind_eq_error (p := unchecked u8), safe_fromU8.bind_panicked,
    panicked_of_first (htl _), unchecked_u8_panicked, unchecked_i32_panicked, need_eq_ok,
    fromU8_eq_ok, unchecked_eq_ok]
  constructor
  · rintro ⟨-, back, ⟨front, hfr, rfl⟩, hbk⟩
    refine ⟨front, back, hfr, rfl, hbk.imp_right ?_⟩
    rintro ⟨byte, rest, hby, inner, _, ⟨rfl, rfl⟩, hrs⟩
    cases back with
    | nil => cases hby
    | cons first back => cases hby; exact ⟨inner, _, rfl, hrs⟩
  · rintro ⟨front, back, hfr, rfl, hbk⟩
    refine ⟨(), back, ⟨front, hfr, rfl⟩, hbk.imp_right ?_⟩
    rintro ⟨inner, rest, rfl, hrs⟩
    exact ⟨_, rest, rfl, inner, rest, ⟨rfl, rfl⟩, hrs⟩

def skipField (payload : TagType → Skipper Unit) : Skipper (Option Unit) := do
  let childByte ← checked u8
  if childByte = TagType.toU8 .end then return none
  let child ← fromU8 childByte
  skipName
  payload child
  return some ()

def innerDepth (inner : TagType) (depth : Nat) : Nat :=
  if inner = .compound ∨ inner = .list then depth + 1 else depth

def skipList (payload : TagType → Nat → Skipper Unit) (depth : Nat) : Skipper Unit := do
  let header ← skipHeader
  if (header.1 = .compound ∨ header.1 = .list) ∧ maxNbtDepth ≤ depth then fail (.unknownNbtTag 0)
  let _ ← times (payload header.1 (innerDepth header.1 depth)) header.2

theorem skipPayloadDepth_list :
    skipPayloadDepth (fuel + 1) .list depth = skipList (skipPayloadDepth fuel) depth := by
  simp only [skipPayloadDepth, skipList, skipHeader, bind_assoc]
  congr 1
  funext _
  congr 1
  funext byte
  congr 1
  funext inner
  congr 1
  funext n
  by_cases hneg : n < 0
  · simp only [if_pos hneg]
    rfl
  · by_cases hnes : inner = .compound ∨ inner = .list
    · simp [hneg, hnes, innerDepth]
    · simp [hneg, hnes, innerDepth]

theorem skipFields_eq (payload : TagType → Skipper Unit) (n : Nat) : skipFields payload n = (do
    let _ ← untilNone (skipField payload) (.failed .unexpectedEof) n
    return ()) := by
  induction n with
  | zero => rfl
  | succ n ih =>
    simp only [skipFields, untilNone, skipField, ih, bind_assoc]
    congr 1
    funext childByte
    split
    · rfl
    · simp only [bind_assoc, pure_bind]

theorem consumes_skipField {payload : TagType → Skipper Unit} (h : ∀ ty, Consumes 0 (payload ty)) :
    Consumes 1 (skipField payload) := by
  refine (consumes_checked consumes_u8).bind fun byte => ?_
  refine .ite (.pure _) (consumes_fromU8.bind fun child => ?_)
  exact consumes_skipName.zero.bind fun _ => (h child).bind fun _ => .pure _

theorem consumes_skipPayloadDepth (ty : TagType) (depth : Nat) :
    Consumes 0 (skipPayloadDepth fuel ty depth) := by
  have harr (width : Nat) : Consumes 0 (skipArray width) := by
    refine (consumes_need 4).zero.bind fun _ => ?_
    refine (consumes_unchecked consumes_i32).zero.bind fun n => ?_
    exact .ite (.throw _) (consumes_need _).zero
  induction fuel generalizing ty depth with
  | zero => exact .throw _
  | succ fuel ih =>
    cases ty with
    | «end» => exact .pure _
    | byte => exact (consumes_need 1).zero
    | short => exact (consumes_need 2).zero
    | int | float => exact (consumes_need 4).zero
    | long | double => exact (consumes_need 8).zero
    | byteArray | intArray | longArray => exact harr _
    | string =>
      refine (consumes_need 2).zero.bind fun _ => ?_
      exact (consumes_unchecked consumes_u16).zero.bind fun n => (consumes_need _).zero
    | list =>
      rw [skipPayloadDepth_list]
      refine consumes_skipHeader.zero.bind fun header => .ite (.throw _) ?_
      exact (Consumes.times (ih _ _) _).bind fun _ => Consumes.pure _
    | compound =>
      refine .ite (.throw _) ?_
      rw [skipFields_eq]
      refine .bind ?_ fun _ => .pure _
      exact consumes_untilNone (consumes_skipField fun ty => ih ty _).zero fuel

def skipAt (ty : TagType) (depth : Nat) : Skipper Unit := fun cur =>
  skipPayloadDepth (cur.length + 1) ty depth cur

theorem skipField_agree {payload payload' : TagType → Skipper Unit}
    (h : ∀ ty, AgreeBelow k (payload ty) (payload' ty)) (hk : m ≤ k + 3) :
    AgreeBelow m (skipField payload) (skipField payload') := by
  refine .bind (consumes_checked consumes_u8) fun byte => ?_
  refine .ite (.refl _ _) ?_
  refine .bind consumes_fromU8 fun child => ?_
  refine .bind consumes_skipName fun _ => ?_
  exact ((h child).mono (by omega)).bind_left

theorem skipFields_agree {payload payload' : TagType → Skipper Unit}
    (h : ∀ ty, AgreeBelow k (payload ty) (payload' ty)) (h' : ∀ ty, Consumes 0 (payload' ty))
    (hk : m ≤ k + 3) (hn : m ≤ n + 1) (hn' : m ≤ n' + 1) :
    AgreeBelow m (skipFields payload n) (skipFields payload' n') := by
  rw [skipFields_eq, skipFields_eq]
  refine .bind_left ?_
  exact (skipField_agree h hk).untilNone (consumes_skipField h') rfl rfl hn hn'

theorem skipList_agree {payload payload' : TagType → Nat → Skipper Unit}
    (h : ∀ ty depth, AgreeBelow k (payload ty depth) (payload' ty depth))
    (h' : ∀ ty depth, Consumes 0 (payload' ty depth)) :
    AgreeBelow (k + 5) (skipList payload depth) (skipList payload' depth) := by
  refine .bind consumes_skipHeader fun header => ?_
  exact .ite (.refl _ _) ((h _ _).times (h' _ _) _).bind_left

theorem skipPayloadDepth_agree (ty : TagType) (depth : Nat) (hm : m ≤ fuel) (hm' : m ≤ fuel') :
    AgreeBelow m (skipPayloadDepth fuel ty depth) (skipPayloadDepth fuel' ty depth) := by
  induction fuel generalizing m fuel' ty depth with
  | zero =>
    intro cur hcur
    omega
  | succ fuel ih =>
    cases fuel' with
    | zero =>
      intro cur hcur
      omega
    | succ fuel' =>
      cases ty with
      | list =>
        rw [skipPayloadDepth_list, skipPayloadDepth_list]
        refine (skipList_agree (k := m - 1) (fun ty d => ih ty d ?_ ?_)
          (fun ty d => consumes_skipPayloadDepth ty d)).mono ?_
        · omega
        · omega
        · omega
      | compound =>
        refine .ite (.refl _ _) ?_
        refine skipFields_agree (k := m - 1) (fun ty => ih ty (depth + 1) (by omega) (by omega))
          (fun ty => consumes_skipPayloadDepth ty (depth + 1)) ?_ ?_ ?_
        · omega
        · omega
        · omega
      | _ => exact .refl _ _

theorem skipAt_agree (ty : TagType) (depth : Nat) :
    AgreeBelow fuel (skipPayloadDepth fuel ty depth) (skipAt ty depth) :=
  fun cur h => skipPayloadDepth_agree ty depth h (le_refl _) cur (lt_succ_self _)

theorem consumes_skipAt (ty : TagType) (depth : Nat) : Consumes 0 (skipAt ty depth) :=
  fun cur u rest h => consumes_skipPayloadDepth ty depth cur u rest h

theorem skipAt_list (depth : Nat) (cur : List UInt8) :
    skipAt .list depth cur = skipList skipAt depth cur := by
  rw [skipAt, skipPayloadDepth_list]
  exact skipList_agree (fun ty d => skipAt_agree ty d) consumes_skipAt cur
    (by omega)

theorem skipAt_list_panicked : skipAt .list depth cur = .error .panicked ↔
    skipHeader cur = .error .panicked ∨
      ∃ header cur₁ items cur₂, skipHeader cur = .ok (header, cur₁) ∧
        (header.1 = .compound ∨ header.1 = .list → depth < maxNbtDepth) ∧
        Chain (Yields (skipAt header.1 (innerDepth header.1 depth))) cur₁ items cur₂ ∧
        items.length < header.2 ∧
        skipAt header.1 (innerDepth header.1 depth) cur₂ = .error .panicked := by
  rw [skipAt_list, skipList, bind_eq_error]
  refine or_congr_right ⟨?_, ?_⟩
  · rintro ⟨header, cur₁, hhdr, h⟩
    by_cases hgd : (header.1 = .compound ∨ header.1 = .list) ∧ maxNbtDepth ≤ depth
    · simp only [if_pos hgd] at h
      cases h
    · simp only [if_neg hgd] at h
      rw [panicked_of_first fun _ => safe_pure _] at h
      obtain ⟨items, cur₂, hlen, hch, hit⟩ := times_eq_error.mp h
      exact ⟨header, cur₁, items, cur₂, hhdr,
        fun hnes => not_le.mp fun hdp => hgd ⟨hnes, hdp⟩, hch, hlen, hit⟩
  · rintro ⟨header, cur₁, items, cur₂, hhdr, hgd, hch, hlen, hit⟩
    have hps : ¬((header.1 = .compound ∨ header.1 = .list) ∧ maxNbtDepth ≤ depth) :=
      fun h => not_lt.mpr h.2 (hgd h.1)
    refine ⟨header, cur₁, hhdr, ?_⟩
    simp only [if_neg hps]
    exact (panicked_of_first fun _ => safe_pure _).mpr
      (times_eq_error.mpr ⟨items, cur₂, hlen, hch, hit⟩)

theorem toU8_ne_end (h : kind ≠ .end) : TagType.toU8 kind ≠ TagType.toU8 .end := by
  cases kind <;> first | exact absurd rfl h | decide

theorem named_panicked {payload : TagType → Skipper γ} : (do
      let child ← fromU8 byte
      skipName
      payload child : Skipper γ) cur = .error .panicked ↔
    ∃ kind cur₁, byte = TagType.toU8 kind ∧ skipName cur = .ok ((), cur₁) ∧
      payload kind cur₁ = .error .panicked := by
  rw [safe_fromU8.bind_panicked]
  simp only [safe_skipName.bind_panicked, fromU8_eq_ok]
  constructor
  · rintro ⟨kind, _, ⟨rfl, rfl⟩, _, cur₁, hnm, h⟩
    exact ⟨kind, cur₁, rfl, hnm, h⟩
  · rintro ⟨kind, cur₁, rfl, hnm, h⟩
    exact ⟨kind, cur, ⟨rfl, rfl⟩, (), cur₁, hnm, h⟩

theorem skipField_panicked {payload : TagType → Skipper Unit} :
    skipField payload cur = .error .panicked ↔
      ∃ kind cur₁ cur₂, kind ≠ .end ∧ cur = TagType.toU8 kind :: cur₁ ∧
        skipName cur₁ = .ok ((), cur₂) ∧ payload kind cur₂ = .error .panicked := by
  rw [skipField, safe_checked.bind_panicked]
  constructor
  · rintro ⟨byte, cur₁, hby, h⟩
    have hcur := u8_eq_ok (checked_eq_ok.mp hby)
    by_cases hend : byte = TagType.toU8 .end
    · rw [if_pos hend] at h
      cases h
    · rw [if_neg hend] at h
      obtain ⟨kind, cur₂, rfl, hnm, h⟩ := named_panicked.mp h
      rw [panicked_of_first fun _ => safe_pure _] at h
      exact ⟨kind, cur₁, cur₂, fun hkd => hend (by rw [hkd]), hcur, hnm, h⟩
  · rintro ⟨kind, cur₁, cur₂, hkd, rfl, hnm, h⟩
    refine ⟨_, cur₁, rfl, ?_⟩
    rw [if_neg (toU8_ne_end hkd)]
    exact named_panicked.mpr
      ⟨kind, cur₂, rfl, hnm, (panicked_of_first fun _ => safe_pure _).mpr h⟩

theorem skipAt_compound_panicked : skipAt .compound depth cur = .error .panicked ↔
    depth < maxNbtDepth ∧ ∃ fields cur₁,
      Chain (YieldsSome (skipField fun ty => skipAt ty (depth + 1))) cur fields cur₁ ∧
      skipField (fun ty => skipAt ty (depth + 1)) cur₁ = .error .panicked := by
  have hflds : skipFields (fun ty => skipPayloadDepth cur.length ty (depth + 1)) cur.length cur =
      skipFields (fun ty => skipAt ty (depth + 1)) (cur.length + 1) cur :=
    skipFields_agree (fun ty => skipAt_agree ty (depth + 1))
      (fun ty => consumes_skipAt ty (depth + 1)) (le_add_right (cur.length + 1) 2)
      (le_refl _) (le_succ _) cur (lt_succ_self _)
  have hcon := consumes_skipField fun ty => consumes_skipAt ty (depth + 1)
  rw [skipAt, skipPayloadDepth]
  by_cases hdp : maxNbtDepth ≤ depth
  · simp only [if_pos hdp, not_lt.mpr hdp, false_and, iff_false]
    intro h
    cases h
  · simp only [if_neg hdp, not_le.mp hdp, true_and]
    refine (Eq.congr_left hflds).trans ?_
    rw [skipFields_eq, panicked_of_first fun _ => safe_pure _]
    exact untilNone_eq_error hcon (lt_succ_self _)

end Skip

structure SkipCall where
  ty : TagType
  depth : Nat
  cur : List UInt8

namespace SkipCall
open Skip

variable {b : List UInt8} {c c' : SkipCall}

inductive Calls (c : SkipCall) : SkipCall → Prop
  | item : c.ty = .list → skipHeader c.cur = .ok (header, cur₁) →
      (header.1 = .compound ∨ header.1 = .list → c.depth < maxNbtDepth) →
      Chain (Yields (skipAt header.1 (innerDepth header.1 c.depth))) cur₁ items cur₂ →
      items.length < header.2 → Calls c ⟨header.1, innerDepth header.1 c.depth, cur₂⟩
  | field : c.ty = .compound → c.depth < maxNbtDepth →
      Chain (YieldsSome (skipField fun ty => skipAt ty (c.depth + 1))) c.cur fields cur₁ →
      kind ≠ .end → cur₁ = TagType.toU8 kind :: cur₂ → skipName cur₂ = .ok ((), cur₃) →
      Calls c ⟨kind, c.depth + 1, cur₃⟩

inductive First (b : List UInt8) : SkipCall → Prop
  | mk : kind ≠ .end → b = TagType.toU8 kind :: cur₁ → skipName cur₁ = .ok ((), body) →
      First b ⟨kind, 0, body⟩

def MadeFor (b : List UInt8) (c : SkipCall) : Prop :=
  ∃ first, First b first ∧ Relation.ReflTransGen Calls first c

/-- The buffer has what `need` asks for, which is stepped over, but behind it too little for the
number that is read then. -/
inductive Short : TagType → List UInt8 → Prop
  | array : kind = .byteArray ∨ kind = .intArray ∨ kind = .longArray → front.length = 4 →
      back.length < 4 → Short kind (front ++ back)
  | string : front.length = 2 → back.length < 2 → Short .string (front ++ back)
  | listEnd : front.length = 5 → Short .list front
  | list : front.length = 5 → back.length < 4 →
      Short .list (front ++ TagType.toU8 kind :: back)

theorem Calls.shorter (h : Calls c c') : c'.cur.length < c.cur.length := by
  cases h with
  | item hty hhdr hgd hch =>
    have hhd := consumes_skipHeader _ _ _ hhdr
    have hits := hch.length_le (n := 0) fun s a t h => by
      simpa using consumes_skipAt _ _ s a t h
    simp only at hhd hits ⊢
    omega
  | field hty hdp hch hkd hcur hnm =>
    have hflds := hch.length_le (n := 0) fun s a t h => by
      simpa using (consumes_skipField fun ty => consumes_skipAt ty (c.depth + 1)).zero s _ t h
    have hnm' := consumes_skipName _ _ _ hnm
    rw [hcur, List.length_cons] at hflds
    simp only at hnm' hflds ⊢
    omega

theorem short_array_iff (hkd : kind = .byteArray ∨ kind = .intArray ∨ kind = .longArray) :
    (∃ front back, front.length = 4 ∧ back.length < 4 ∧ s = front ++ back) ↔ Short kind s := by
  constructor
  · rintro ⟨front, back, hfr, hbk, rfl⟩
    exact .array hkd hfr hbk
  · intro h
    cases h with
    | array _ hfr hbk => exact ⟨_, _, hfr, hbk, rfl⟩
    | _ => simp at hkd

theorem short_list_iff : skipHeader s = .error .panicked ↔ Short .list s := by
  rw [skipHeader_panicked]
  constructor
  · rintro ⟨front, back, hfr, rfl, rfl | ⟨inner, rest, rfl, hrs⟩⟩
    · rw [List.append_nil]
      exact .listEnd hfr
    · exact .list hfr hrs
  · intro h
    cases h with
    | array hkd => simp at hkd
    | listEnd hfr => exact ⟨s, [], hfr, (List.append_nil s).symm, .inl rfl⟩
    | list hfr hbk => exact ⟨_, _, hfr, rfl, .inr ⟨_, _, rfl, hbk⟩⟩

theorem short_string_iff : skipAt .string d s = .error .panicked ↔ Short .string s := by
  rw [skipAt, skipPayloadDepth, safe_need.bind_panicked]
  simp only [panicked_of_first fun n : UInt16 => safe_need, unchecked_u16_panicked, need_eq_ok]
  constructor
  · rintro ⟨_, back, ⟨front, hfr, rfl⟩, hbk⟩
    exact .string hfr hbk
  · intro h
    cases h with
    | array hkd => simp at hkd
    | string hfr hbk => exact ⟨(), _, ⟨_, hfr, rfl⟩, hbk⟩

def Panics (c : SkipCall) : Prop := skipAt c.ty c.depth c.cur = .error .panicked

theorem no_calls (hls : c.ty ≠ .list) (hcmp : c.ty ≠ .compound) : ¬Calls c c' := by
  intro h
  cases h with
  | item hty => exact hls hty
  | field hty => exact hcmp hty

theorem short_prefixed (h : Short kind s) : TagType.lengthPrefixed kind = true := by
  cases h with
  | array hkd => rcases hkd with rfl | rfl | rfl <;> rfl
  | _ => rfl

theorem leaf_panicked (hls : kind ≠ .list) (hcmp : kind ≠ .compound) :
    skipAt kind d s = .error .panicked ↔ Short kind s := by
  have hneed {kind : TagType} {p : Skipper Unit} (hkd : TagType.lengthPrefixed kind = false)
      (hp : Safe p) : p s = .error .panicked ↔ Short kind s :=
    iff_of_false (hp s) fun h => Bool.noConfusion (hkd.symm.trans (short_prefixed h))
  cases kind with
  | list => exact absurd rfl hls
  | compound => exact absurd rfl hcmp
  | «end» => exact hneed rfl (safe_pure ())
  | byte => exact hneed rfl safe_need
  | short => exact hneed rfl safe_need
  | int | float => exact hneed rfl safe_need
  | long | double => exact hneed rfl safe_need
  | byteArray => exact skipArray_panicked.trans (short_array_iff (.inl rfl))
  | intArray => exact skipArray_panicked.trans (short_array_iff (.inr (.inl rfl)))
  | longArray => exact skipArray_panicked.trans (short_array_iff (.inr (.inr rfl)))
  | string => exact short_string_iff

theorem panics_iff (c : SkipCall) : c.Panics ↔ Short c.ty c.cur ∨ ∃ c', Calls c c' ∧ c'.Panics := by
  by_cases hls : c.ty = .list
  · rw [Panics, hls]
    refine skipAt_list_panicked.trans (or_congr short_list_iff ⟨?_, ?_⟩)
    · rintro ⟨header, cur₁, items, cur₂, hhdr, hgd, hch, hlen, hit⟩
      exact ⟨_, .item hls hhdr hgd hch hlen, hit⟩
    · rintro ⟨c', hcl, hpan⟩
      cases hcl with
      | item _ hhdr hgd hch hlen =>
        exact ⟨_, _, _, _, hhdr, hgd, hch, hlen, hpan⟩
      | field hty => exact absurd (hls.symm.trans hty) (by decide)
  · by_cases hcmp : c.ty = .compound
    · rw [Panics, hcmp]
      have hsh : ¬Short .compound c.cur := fun h => Bool.noConfusion (short_prefixed h)
      rw [or_iff_right hsh]
      refine skipAt_compound_panicked.trans ⟨?_, ?_⟩
      · rintro ⟨hdp, fields, cur₁, hch, hfld⟩
        obtain ⟨kind, cur₂, cur₃, hkd, hcur, hnm, hpan⟩ := skipField_panicked.mp hfld
        exact ⟨_, .field hcmp hdp hch hkd hcur hnm, hpan⟩
      · rintro ⟨c', hcl, hpan⟩
        cases hcl with
        | item hty => exact absurd hty hls
        | field _ hdp hch hkd hcur hnm =>
          exact ⟨hdp, _, _, hch, skipField_panicked.mpr ⟨_, _, _, hkd, hcur, hnm, hpan⟩⟩
    · refine (leaf_panicked hls hcmp).trans (or_iff_left ?_).symm
      rintro ⟨c', hcl, -⟩
      exact no_calls hls hcmp hcl

theorem skip_panicked : Nbt.skip b = .error .panicked ↔ ∃ first, First b first ∧ first.Panics := by
  have hcnt (start : List UInt8) : Safe (do return start.length - (← get).length : Skipper Nat) :=
    fun cur h => by cases h
  rw [Nbt.skip, bind_get, safe_checked.bind_panicked]
  constructor
  · rintro ⟨byte, cur₁, hby, h⟩
    have hb := u8_eq_ok (checked_eq_ok.mp hby)
    by_cases hend : byte = TagType.toU8 .end
    · rw [if_neg (not_not.mpr hend)] at h
      cases h
    · rw [if_pos hend] at h
      obtain ⟨kind, body, rfl, hnm, h⟩ := named_panicked.mp h
      rw [panicked_of_first fun _ => hcnt b] at h
      exact ⟨_, .mk (fun hkd => hend (by rw [hkd])) hb hnm, h⟩
  · rintro ⟨first, ⟨hkd, rfl, hnm⟩, h⟩
    refine ⟨_, _, rfl, ?_⟩
    rw [if_pos (toU8_ne_end hkd)]
    exact named_panicked.mpr
      ⟨_, _, rfl, hnm, (panicked_of_first fun _ => hcnt _).mpr h⟩

end SkipCall

/-- `skip` panics exactly on the buffers on which it gets to an array, a string or a list of which
only the bytes that `need` steps over, or some more, are there. -/
theorem skip_total_iff (b : List UInt8) : Nbt.skip b ≠ .error .panicked ↔
    ∀ c, SkipCall.MadeFor b c → ¬SkipCall.Short c.ty c.cur := by
  have hfails := fails_iff_reaches (fun c : SkipCall => c.cur.length)
    (fun _ _ h => h.shorter) SkipCall.panics_iff
  rw [ne_eq, SkipCall.skip_panicked]
  constructor
  · rintro h c ⟨first, hfirst, hcalls⟩ hshort
    exact h ⟨first, hfirst, (hfails first).mpr ⟨c, hcalls, hshort⟩⟩
  · rintro h ⟨first, hfirst, hpanics⟩
    obtain ⟨c, hcalls, hshort⟩ := (hfails first).mp hpanics
    exact h c ⟨first, hfirst, hcalls⟩ hshort

theorem skip_overruns : Nbt.skip [10, 0, 0, 8, 0, 0, 0, 0, 0] = .error .panicked := by
  decide

end Kojacoord
