import Kojacoord.Net.Components
import Kojacoord.Net.VarIntReaders

namespace Kojacoord
open RoundTrip Decode List

namespace RegistryBody

/-- The length in front of a string. A shift of 32 bits or more starts again at the lowest one, as
in a release build. -/
def mcLength : UInt32 → UInt32 → Decoder UInt32
  | _, _, [] => .error .unexpectedEof
  | len, shift, byte :: src =>
    let len := len ||| ((byte &&& 0x7F).toUInt32 <<< shift)
    if byte &&& 0x80 = 0 then .ok (len, src) else mcLength len (shift + 7) src

def readMcString : Decoder String := do
  let len ← mcLength 0 0
  let bytes ← take len.toNat
  match String.fromUTF8? ⟨bytes.toArray⟩ with
  | some s => return s
  | none => throw .invalidUtf8

def writeVarint (v : UInt32) : List UInt8 := varIntGroups 5 v

def writeMcString (s : String) : List UInt8 :=
  writeVarint (.ofNat (NbtTag.textSize s)) ++ s.toUTF8.data.toList

/-- A tag without a name is read with an empty name put in, which is then taken off the number of
bytes read. -/
def readNameless : Decoder Nbt := fun src =>
  if src.head? ≠ some 0x0a then .error .unexpectedEof
  else
    let named := 0x0a :: 0 :: 0 :: src.drop 1
    match Nbt.decode named with
    | .error e => .error e
    | .ok (nbt, nb) => .ok (nbt, src.drop (named.length - nb.length - 2))

/-- The names keep their place: the music is taken out of the map and put in again. -/
def wrapBiomeMusic (root : NbtMap) : NbtMap :=
  match root.lookup "effects" with
  | some (.compound effects) =>
    match effects.lookup "music" with
    | some (.compound music) =>
      let weighted := .list [.compound [("data", .compound music), ("weight", .int 1)]]
      NbtMap.insert "effects" (.compound (NbtMap.insert "music" weighted effects)) root
    | _ => root
  | _ => root

section Transform
-- The order in which hash maps are walked.
variable (walk : Nbt → Nbt)

def transformEntry : Decoder (List UInt8) := do
  let key ← readMcString
  let hasData ← u8
  if hasData = 0 then return writeMcString key ++ [hasData]
  let nbt ← readNameless
  match (walk ⟨nbt.name, wrapBiomeMusic nbt.root⟩).encode with
  | .error e => throw e
  | .ok b =>
    if b.length < 3 ∨ b.head? ≠ some 0x0a then throw .unexpectedEof
    return writeMcString key ++ (hasData :: 0x0a :: b.drop 3)

def transformBody : Decoder (List UInt8) := do
  let reg ← readMcString
  if reg ≠ "minecraft:worldgen/biome" then throw .unexpectedEof
  let count ← varInt
  let entries ← times (transformEntry walk) count.toInt.toNat
  return writeMcString reg ++ (writeVarint count.toUInt32 ++ entries.flatten)

/-- Whatever goes wrong, the caller keeps the body as it is. -/
def biomeMusicListTransform (proto : UInt32) (body : List UInt8) : Option (List UInt8) :=
  if proto ≠ 769 then none else (transformBody walk body).toOption.map Prod.fst

end Transform

structure Entry where
  key : String
  data : Option NbtMap

def writeEntry (e : Entry) : Except ProtocolError (List UInt8) :=
  match e.data with
  | none => .ok (writeMcString e.key ++ [0])
  | some root => (writeFields root).map fun payload => writeMcString e.key ++ (1 :: 0x0a :: payload)

def readEntry : Decoder Entry := do
  let key ← readMcString
  let hasData ← u8
  if hasData = 0 then return ⟨key, none⟩
  let nbt ← readNameless
  return ⟨key, some nbt.root⟩

structure Entry.Fits (n : Nat) (e : Entry) : Prop where
  key : NbtTag.textSize e.key < 2 ^ 32
  data : ∀ root ∈ e.data, NbtTag.Fits n (.compound root)

end RegistryBody

structure RegistryBody where
  registryId : String
  entries : List RegistryBody.Entry

namespace RegistryBody

def frame (registryId : String) (count : Nat) (entries : List (List UInt8)) : List UInt8 :=
  writeMcString registryId ++ (writeVarint (.ofNat count) ++ entries.flatten)

def encode (d : RegistryBody) : Except ProtocolError (List UInt8) := do
  return frame d.registryId d.entries.length (← d.entries.mapM writeEntry)

def decode : Decoder RegistryBody := do
  let registryId ← readMcString
  let count ← varInt
  return ⟨registryId, ← times readEntry count.toInt.toNat⟩

structure Fits (n : Nat) (d : RegistryBody) : Prop where
  registryId : NbtTag.textSize d.registryId < 2 ^ 32
  count : d.entries.length < 2 ^ 31
  entries : ∀ e ∈ d.entries, e.Fits n

def weighted : NbtTag → NbtTag
  | .compound music => .list [.compound [("data", .compound music), ("weight", .int 1)]]
  | tag => tag

def atField (name : String) (f : NbtTag → NbtTag) : NbtTag → NbtTag
  | .compound map => .compound (map.map fun field =>
      if field.1 = name then (field.1, f field.2) else field)
  | tag => tag

def musicListed (root : NbtMap) : NbtTag :=
  atField "effects" (atField "music" weighted) (.compound root)

structure Entry.Listed (e e' : Entry) : Prop where
  key : e'.key = e.key
  data : Option.Rel (fun root root' => NbtTag.Same (.compound root') (musicListed root))
    e.data e'.data

section Fields
variable {map : NbtMap}

theorem map_eq_self (h : ∀ field ∈ map, name ≠ field.1) (f : NbtTag → NbtTag) :
    map.map (fun field => if field.1 = name then (field.1, f field.2) else field) = map := by
  have hsf : ∀ field ∈ map,
      (if field.1 = name then (field.1, f field.2) else field) = field :=
    fun field hfld => if_neg (h field hfld).symm
  rw [map_congr_left hsf, map_id']

theorem insert_append {front : NbtMap} (h : ∀ field ∈ front, name ≠ field.1) :
    .insert name tag (front ++ (name, old) :: map) = front ++ (name, tag) :: map := by
  induction front with
  | nil => exact if_pos rfl
  | cons field front ih =>
    obtain ⟨hfld, hfr⟩ := forall_mem_cons.mp h
    rw [cons_append, NbtMap.insert, if_neg hfld.symm, ih hfr, cons_append]

theorem split_of_lookup (h : map.lookup name = some tag) :
    ∃ front rest, map = front ++ (name, tag) :: rest ∧ ∀ field ∈ front, name ≠ field.1 := by
  obtain ⟨front, rest, hmap, hfr⟩ := lookup_eq_some_iff.mp h
  exact ⟨front, rest, hmap, fun field hfld => bne_iff_ne.mp (hfr field hfld)⟩

theorem atField_of_lookup (hnd : (map.map Prod.fst).Nodup) (h : map.lookup name = some tag)
    (f : NbtTag → NbtTag) :
    atField name f (.compound map) = .compound (NbtMap.insert name (f tag) map) := by
  obtain ⟨front, rest, rfl, hfr⟩ := split_of_lookup h
  rw [map_append, map_cons, nodup_middle, nodup_cons] at hnd
  have hrs : ∀ field ∈ rest, name ≠ field.1 := by
    intro field hfld heq
    exact hnd.1 (mem_append_right _ (mem_map.mpr ⟨field, hfld, heq.symm⟩))
  rw [atField, insert_append hfr, map_append, map_cons, map_eq_self hfr,
    map_eq_self hrs, if_pos rfl]

theorem atField_of_fixed (hnd : (map.map Prod.fst).Nodup)
    (h : ∀ tag, map.lookup name = some tag → f tag = tag) :
    atField name f (.compound map) = .compound map := by
  cases hlk : map.lookup name with
  | none =>
    rw [atField, map_eq_self]
    exact fun field hfld => bne_iff_ne.mp (lookup_eq_none_iff.mp hlk field hfld)
  | some tag =>
    rw [atField_of_lookup hnd hlk, h tag hlk]
    obtain ⟨front, rest, rfl, hfr⟩ := split_of_lookup hlk
    rw [insert_append hfr]

end Fields

section Limits

theorem fits_add (h : NbtTag.Fits n t) (k : Nat) : NbtTag.Fits (n + k) t := by
  induction h with
  | list _ hty hlen ih =>
    rw [Nat.add_right_comm]
    exact .list ih hty hlen
  | compound _ hnms hnd ih =>
    rw [Nat.add_right_comm]
    exact .compound ih hnms hnd
  | byteArray hlen => exact .byteArray hlen
  | string hsz => exact .string hsz
  | intArray hlen => exact .intArray hlen
  | longArray hlen => exact .longArray hlen
  | byte => exact .byte
  | short => exact .short
  | int => exact .int
  | long => exact .long
  | float => exact .float
  | double => exact .double

theorem fits_weighted (h : NbtTag.Fits n t) : NbtTag.Fits (n + 2) (weighted t) := by
  cases t with
  | compound music =>
    have hsong :
        NbtTag.Fits (n + 1) (.compound [("data", .compound music), ("weight", .int 1)]) := by
      refine .compound ?_ ?_ (by simp)
      · simpa using ⟨h, .int⟩
      · have hnms : NbtTag.textSize "data" ≤ 65535 ∧ NbtTag.textSize "weight" ≤ 65535 := by decide
        simpa using hnms
    have htyp : ∀ t ∈ [NbtTag.compound [("data", .compound music), ("weight", .int 1)]],
        t.tagType = .compound := forall_mem_singleton.mpr rfl
    exact .list (by simpa using hsong) htyp (by simp)
  | _ => exact fits_add h 2

theorem fits_atField (hf : ∀ n t, NbtTag.Fits n t → NbtTag.Fits (n + 2) (f t))
    (h : NbtTag.Fits n t) : NbtTag.Fits (n + 2) (atField name f t) := by
  cases t with
  | compound map =>
    cases h with
    | @compound _ n hflds hnms hnd =>
      have hkeys : (map.map fun field => if field.1 = name then (field.1, f field.2) else field).map
          Prod.fst = map.map Prod.fst := by
        rw [map_map]
        apply map_congr_left
        intro field _
        rw [Function.comp_apply]
        split <;> rfl
      refine .compound (n := n + 2) ?_ ?_ (hkeys ▸ hnd)
      · rw [forall_mem_map]
        intro field hfld
        split
        · exact hf _ _ (hflds field hfld)
        · exact fits_add (hflds field hfld) 2
      · rw [forall_mem_map]
        intro field hfld
        split <;> exact hnms field hfld
  | _ => exact fits_add h 2

theorem fits_musicListed (h : NbtTag.Fits n (.compound root)) :
    NbtTag.Fits (n + 2) (musicListed root) :=
  fits_atField (fun _ _ => fits_atField fun _ _ => fits_weighted) h

theorem nodup_of_fits {map : NbtMap} (h : NbtTag.Fits n (.compound map)) :
    (map.map Prod.fst).Nodup := by
  cases h
  assumption

theorem fits_of_lookup {map : NbtMap} (h : NbtTag.Fits (n + 1) (.compound map))
    (hlk : map.lookup name = some tag) : NbtTag.Fits n tag := by
  obtain ⟨front, rest, rfl, -⟩ := split_of_lookup hlk
  cases h with
  | compound hflds _ _ => exact hflds (name, tag) (by simp)

end Limits

theorem wrapBiomeMusic_eq (h : NbtTag.Fits (n + 1) (.compound root)) :
    .compound (wrapBiomeMusic root) = musicListed root := by
  have hnd := nodup_of_fits h
  rw [musicListed, wrapBiomeMusic]
  split
  · next effects heff =>
    have hinn := nodup_of_fits (fits_of_lookup h heff)
    split
    · next music hmus =>
      rw [atField_of_lookup hnd heff, atField_of_lookup hinn hmus, weighted]
    · next hmus =>
      rw [atField_of_fixed hnd]
      intro tag htag
      cases heff.symm.trans htag
      apply atField_of_fixed hinn
      intro tag htag
      cases tag with
      | compound music => exact absurd htag (hmus music)
      | _ => rfl
  · next heff =>
    rw [atField_of_fixed hnd]
    intro tag htag
    cases tag with
    | compound effects => exact absurd htag (heff effects)
    | _ => rfl

section RoundTrip

theorem mcLength_of_varIntLoop (h : varIntLoop left len shift src = .ok (v, rest)) :
    mcLength len shift src = .ok (v.toUInt32, rest) := by
  induction left generalizing len shift src with
  | zero => cases h
  | succ left ih =>
    cases src with
    | nil => cases h
    | cons byte src =>
      rw [varIntLoop_cons] at h
      rw [mcLength]
      split at h
      · cases h
      · split at h
        · next hla =>
          cases h
          exact if_pos hla
        · next hmo =>
          rw [if_neg hmo]
          exact ih h

theorem reads_mcLength (v : UInt32) : Reads (mcLength 0 0) (writeVarint v) v := by
  intro rest
  exact mcLength_of_varIntLoop (reads_varInt v.toInt32 rest)

theorem reads_mcString (h : NbtTag.textSize s < 2 ^ 32) :
    Reads readMcString (writeMcString s) s := by
  have hlen : (UInt32.ofNat (NbtTag.textSize s)).toNat = NbtTag.textSize s :=
    UInt32.toNat_ofNat_of_lt h
  refine (reads_mcLength _).bind ?_
  rw [hlen]
  apply (reads_take rfl).finish
  rw [fromUTF8_bytes]
  exact .pure s

theorem reads_nameless (h : Reads Nbt.decode (0x0a :: 0 :: 0 :: payload) nbt) :
    Reads readNameless (0x0a :: payload) nbt := by
  intro rest
  have hrd : Nbt.decode (0x0a :: 0 :: 0 :: (payload ++ rest)) = .ok (nbt, rest) := h rest
  have hcon : (0x0a :: 0 :: 0 :: (payload ++ rest)).length - rest.length - 2 =
      (0x0a :: payload : List UInt8).length := by
    simp only [length_cons, length_append]
    omega
  rw [cons_append, readNameless, if_neg (by simp)]
  dsimp only
  rw [drop_succ_cons, drop_zero, hrd]
  dsimp only
  rw [hcon, ← cons_append, drop_left]

theorem transformEntry_entry {walk : Nbt → Nbt} (hwalk : ∀ nbt, (walk nbt).Same nbt)
    (h : e.Fits (maxNbtDepth - 2)) : ∃ bytes out e', writeEntry e = .ok bytes ∧
      Reads (transformEntry walk) bytes out ∧ Reads readEntry out e' ∧ e.Listed e' := by
  obtain ⟨key, data⟩ := e
  have hkey := reads_mcString h.key
  cases data with
  | none =>
    refine ⟨_, writeMcString key ++ [0], ⟨key, none⟩, rfl, ?_, ?_, rfl, .none⟩
    · exact hkey.bind ((reads_u8 0).finish (.pure _))
    · exact hkey.bind ((reads_u8 0).finish (.pure _))
  | some root =>
    have hft : NbtTag.Fits (509 + 1) (.compound root) := h.data root rfl
    have hlis := fits_musicListed hft
    rw [← wrapBiomeMusic_eq hft] at hlis
    have hwal := hwalk ⟨"", wrapBiomeMusic root⟩
    obtain ⟨bytes, henc, hrds⟩ := (fits_nameless (fits_add hft 2)).reads
    obtain ⟨payload, hpay, rfl⟩ := encode_nameless henc rfl
    obtain ⟨bytes', henc', hrds'⟩ := ((fits_nameless hlis).of_same hwal).reads
    obtain ⟨payload', -, rfl⟩ := encode_nameless henc' hwal.1
    have hsm := hwal.2
    rw [wrapBiomeMusic_eq hft] at hsm
    have hwri : writeEntry ⟨key, some root⟩ =
        .ok (writeMcString key ++ ([1] ++ (0x0a :: payload))) := by
      dsimp only [writeEntry]
      rw [hpay]
      rfl
    refine ⟨_, writeMcString key ++ ([1] ++ (0x0a :: payload')),
      ⟨key, some (walk ⟨"", wrapBiomeMusic root⟩).root⟩, hwri, ?_, ?_, rfl, .some hsm⟩
    · apply hkey.bind
      apply (reads_u8 1).bind
      apply (reads_nameless hrds).finish
      rw [henc']
      exact .pure _
    · apply hkey.bind
      apply (reads_u8 1).bind
      exact (reads_nameless hrds').finish (.pure _)

theorem transformEntry_entries {walk : Nbt → Nbt} (hwalk : ∀ nbt, (walk nbt).Same nbt)
    (h : ∀ e ∈ es, e.Fits (maxNbtDepth - 2)) : ∃ bytes outs es', es.mapM writeEntry = .ok bytes ∧
      List.Forall₂ (Reads (transformEntry walk)) bytes outs ∧
      List.Forall₂ (Reads readEntry) outs es' ∧ List.Forall₂ Entry.Listed es es' := by
  induction es with
  | nil => exact ⟨[], [], [], rfl, .nil, .nil, .nil⟩
  | cons e es ih =>
    obtain ⟨he, hes⟩ := forall_mem_cons.mp h
    obtain ⟨bytes, outs, es', hwr, htra, hrd, hlis⟩ := ih hes
    obtain ⟨b, out, e', hwr', htra', hrd', hlis'⟩ := transformEntry_entry hwalk he
    refine ⟨b :: bytes, out :: outs, e' :: es', ?_, .cons htra' htra,
      .cons hrd' hrd, .cons hlis' hlis⟩
    rw [mapM_cons, hwr', hwr]
    rfl

theorem reads_counted {entry : Decoder α} {f : Int32 → List α → Decoder β} {as : List α}
    (hent : List.Forall₂ (Reads entry) bytes as) (hlen : as.length = n) (hn : n < 2 ^ 31)
    (hf : Reads (f (.ofNat n) as) [] b) :
    Reads (do
      let count ← varInt
      f count (← times entry count.toInt.toNat)) (writeVarint (.ofNat n) ++ bytes.flatten) b := by
  have hcnt : Reads varInt (writeVarint (.ofNat n)) (Int32.ofNat n) := reads_varInt (Int32.ofNat n)
  apply hcnt.bind
  rw [Int32.toInt_ofNat_of_lt hn, Int.toNat_natCast, ← hlen]
  rw [← hlen] at hf
  exact (Reads.times hent).finish hf

end RoundTrip

/-- The biomes of a registry come back in order, each with its music as a list; a body of another
registry is left alone. -/
theorem biomeMusicListTransform_listed (walk : Nbt → Nbt) (hwalk : ∀ nbt, (walk nbt).Same nbt)
    (d : RegistryBody) (h : d.Fits (maxNbtDepth - 2)) : ∃ body, d.encode = .ok body ∧
      if d.registryId = "minecraft:worldgen/biome" then
        ∃ out d', biomeMusicListTransform walk 769 body = some out ∧ decode out = .ok (d', []) ∧
          d'.registryId = d.registryId ∧ List.Forall₂ Entry.Listed d.entries d'.entries
      else biomeMusicListTransform walk 769 body = none := by
  obtain ⟨bytes, outs, es', hwrite, htransform, hread, hlisted⟩ :=
    transformEntry_entries hwalk h.entries
  have hid := reads_mcString h.registryId
  have hes := hlisted.length_eq.symm
  refine ⟨frame d.registryId d.entries.length bytes, by rw [encode, hwrite]; rfl, ?_⟩
  split
  · next hbiome =>
    have hbody : Reads (transformBody walk) (frame d.registryId d.entries.length bytes)
        (frame d.registryId d.entries.length outs) := by
      apply hid.bind
      rw [if_neg (not_not.mpr hbiome)]
      exact reads_counted htransform (hread.length_eq.trans hes) h.count (.pure _)
    have hdecode : Reads decode (frame d.registryId d.entries.length outs) ⟨d.registryId, es'⟩ :=
      hid.bind (reads_counted hread hes h.count (.pure _))
    refine ⟨frame d.registryId d.entries.length outs, ⟨d.registryId, es'⟩, ?_, ?_, rfl, hlisted⟩
    · have hrun := hbody []
      rw [append_nil] at hrun
      rw [biomeMusicListTransform, if_neg (by decide), hrun]
      rfl
    · have hrun := hdecode []
      rwa [append_nil] at hrun
  · next hother =>
    have hrun := hid (writeVarint (.ofNat d.entries.length) ++ bytes.flatten)
    rw [biomeMusicListTransform, if_neg (by decide), transformBody, frame, bind_ok hrun,
      if_pos hother]
    rfl

def plains : Entry :=
  ⟨"minecraft:plains", some [("effects", .compound [("music", .compound [])])]⟩

theorem plains_fits : plains.Fits (maxNbtDepth - 2) := by
  have hmus : NbtTag.Fits 508 (.compound []) := .compound nofun nofun .nil
  have heff : NbtTag.Fits 509 (.compound [("music", .compound [])]) :=
    .compound (forall_mem_singleton.mpr hmus) (forall_mem_singleton.mpr (by decide))
      (nodup_singleton _)
  refine ⟨by decide, ?_⟩
  rintro root ⟨⟩
  exact .compound (forall_mem_singleton.mpr heff)
    (forall_mem_singleton.mpr (by decide)) (nodup_singleton _)

theorem biomeMusicListTransform_plains :
    ∃ body, encode ⟨"minecraft:worldgen/biome", [plains]⟩ = .ok body ∧
      ∃ out d', biomeMusicListTransform id 769 body = some out ∧ decode out = .ok (d', []) ∧
        d'.registryId = "minecraft:worldgen/biome" ∧
          List.Forall₂ Entry.Listed [plains] d'.entries := by
  obtain ⟨body, hbody, h⟩ := biomeMusicListTransform_listed id (fun _ => ⟨rfl, .refl⟩)
    ⟨"minecraft:worldgen/biome", [plains]⟩
    ⟨by decide, by decide, forall_mem_singleton.mpr plains_fits⟩
  rw [if_pos rfl] at h
  exact ⟨body, hbody, h⟩

end RegistryBody

end Kojacoord
