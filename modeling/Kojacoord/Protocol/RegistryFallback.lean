import Kojacoord.Protocol.Registry

namespace Kojacoord
open Versioned PacketRegistry List Option Nat

namespace PacketTable
variable {t : PacketTable} {proto : UInt32} {name : String} {id : UInt8}

theorem getIdForVersion_eq (h : name ≠ "ClientboundHeldItemChange" ∨
      latestIn (sameSide (· = 78) proto.toNat (t.ids name)) 0 (proto.toNat + 1) ≠ none) :
    t.getIdForVersion proto name =
      latestIn (sameSide (· = 78) proto.toNat (t.ids name)) 0 (proto.toNat + 1) := by
  have hnam : (t.latest fun e => e.2.name = name && reaches proto e).map (·.2.id) = _ :=
    map_latest t proto (f := t.ids name) fun q id => by simp only [ids_eq_some, decide_eq_true_eq]
  have hexact : t.getId proto name = sameSide (· = 78) proto.toNat (t.ids name) proto.toNat := by
    rw [sameSide_self, ids_toNat]
  rw [getIdForVersion]
  split
  · rename_i e hfi
    rw [getId, hfi] at hexact
    rw [latestIn_succ (zero_le _), ← hexact]
    rfl
  · dsimp only
    rw [if_neg, hnam]
    simp only [Bool.and_eq_true, isNone_iff_eq_none, decide_eq_true_eq]
    rintro ⟨⟨hno, -⟩, hhe⟩
    rcases h with hnm | hso
    · exact hnm hhe
    · rw [hno] at hnam
      exact hso hnam.symm

end PacketTable

def registeredIds (calls : List Registration) (state : ProtocolState) (dir : Direction)
    (name : String) (q : Nat) : Option UInt8 :=
  if q < UInt32.size then lastRegistered calls state dir name (.ofNat q) else none

theorem registeredIds_toNat :
    registeredIds calls state dir name proto.toNat = lastRegistered calls state dir name proto := by
  rw [registeredIds, if_pos proto.toNat_lt, UInt32.ofNat_toNat]

theorem ids_build : ((build calls).map state dir).ids name =
    registeredIds calls state dir name := by
  funext q
  rw [PacketTable.ids, getId_build]
  rfl

/-- The result is the id last registered at the greatest protocol up to the requested one that has
one and is pre-netty exactly when that one is. -/
def Expected (calls : List Registration) (state : ProtocolState) (dir : Direction) (name : String)
    (proto : UInt32) : Option UInt8 → Prop
  | some id => ∃ q ≤ proto, isPreNettyProto q = isPreNettyProto proto ∧
      lastRegistered calls state dir name q = some id ∧
      ∀ r ≤ proto, isPreNettyProto r = isPreNettyProto proto →
        lastRegistered calls state dir name r ≠ none → r ≤ q
  | none => ∀ q ≤ proto, isPreNettyProto q = isPreNettyProto proto →
      lastRegistered calls state dir name q = none

def Frameless (q : Nat) : Prop := 61 ≤ q ∧ q ≤ 92

instance : DecidablePred Frameless := fun q => inferInstanceAs (Decidable (61 ≤ q ∧ q ≤ 92))

theorem isPreNettyProto_eq_iff :
    isPreNettyProto q = isPreNettyProto p ↔ (Frameless q.toNat ↔ Frameless p.toNat) := by
  rw [Bool.eq_iff_iff, isPreNettyProto_iff, isPreNettyProto_iff]
  rfl

theorem exists_toNat {proto : UInt32} (h : q < proto.toNat + 1) :
    ∃ u : UInt32, u ≤ proto ∧ u.toNat = q := by
  have hsz : q < UInt32.size := lt_of_le_of_lt (le_of_lt_succ h) proto.toNat_lt
  refine ⟨.ofNat q, ?_, UInt32.toNat_ofNat_of_lt' hsz⟩
  rw [UInt32.le_iff_toNat_le, UInt32.toNat_ofNat_of_lt' hsz]
  exact le_of_lt_succ h

theorem expected_iff : Expected calls state dir name proto result ↔
    latestIn (sameSide Frameless proto.toNat (registeredIds calls state dir name)) 0
      (proto.toNat + 1) = result := by
  have hlt {q : UInt32} (hq : q ≤ proto) : q.toNat < proto.toNat + 1 :=
    lt_succ_of_le (UInt32.le_iff_toNat_le.mp hq)
  have hsm (q : UInt32) (id : UInt8) :
      sameSide Frameless proto.toNat (registeredIds calls state dir name) q.toNat = some id ↔
        isPreNettyProto q = isPreNettyProto proto ∧
          lastRegistered calls state dir name q = some id := by
    rw [sameSide_eq_some, registeredIds_toNat, isPreNettyProto_eq_iff]
  cases result with
  | some id =>
    rw [latestIn_eq_some]
    constructor
    · rintro ⟨q, hq, hsi, hid, hgrea⟩
      refine ⟨q.toNat, zero_le _, hlt hq, (hsm q id).mpr ⟨hsi, hid⟩, ?_⟩
      intro r hr hrng
      obtain ⟨u, hu, rfl⟩ := exists_toNat hrng
      rw [eq_none_iff_forall_not_mem]
      intro other hoth
      obtain ⟨husi, huid⟩ := (hsm u other).mp hoth
      have hle := UInt32.le_iff_toNat_le.mp (hgrea u hu husi (by simp [huid]))
      omega
    · rintro ⟨q, -, hrng, hid, hlat⟩
      obtain ⟨u, hu, rfl⟩ := exists_toNat hrng
      obtain ⟨hsi, huid⟩ := (hsm u id).mp hid
      refine ⟨u, hu, hsi, huid, ?_⟩
      intro r hr hrsi hreg
      obtain ⟨other, hoth⟩ := ne_none_iff_exists'.mp hreg
      rw [UInt32.le_iff_toNat_le]
      by_contra hgre
      have hno := hlat r.toNat (by omega) (hlt hr)
      rw [(hsm r other).mpr ⟨hrsi, hoth⟩] at hno
      cases hno
  | none =>
    rw [latestIn_eq_none]
    constructor
    · intro h q _ hrng
      obtain ⟨u, hu, rfl⟩ := exists_toNat hrng
      rw [eq_none_iff_forall_not_mem]
      intro other hoth
      obtain ⟨husi, huid⟩ := (hsm u other).mp hoth
      rw [h u hu husi] at huid
      cases huid
    · intro h q hq hsi
      rw [eq_none_iff_forall_not_mem]
      intro other hoth
      have hno := h q.toNat (zero_le _) (hlt hq)
      rw [(hsm q other).mpr ⟨hsi, hoth⟩] at hno
      cases hno

/-- The version is registered itself, or the latest registration before it does not depend on the
boundary: at 78 alone, or around 61 to 92. -/
def Uncrossed (f : Nat → Option UInt8) (p : Nat) : Prop :=
  f p ≠ none ∨
    if p < 61 then True
    else if p < 78 then latestIn f 61 p ≠ none ∨ latestIn f 0 61 = none
    else if p = 78 then latestIn f 61 78 = none
    else if p < 93 then
      latestIn f 79 p ≠ none ∨
        (f 78 = none ∧ (latestIn f 61 78 ≠ none ∨ latestIn f 0 61 = none)) ∨
        (f 78 ≠ none ∧ latestIn f 0 78 = f 78)
    else
      latestIn f 93 p ≠ none ∨ (latestIn f 79 93).or (latestIn f 61 78) = none ∨
        (latestIn f 79 93).or (latestIn f 61 78) = latestIn f 0 61

section Boundaries
variable {f : Nat → Option UInt8} {p : Nat}

theorem latestIn_alone (h : p ≠ 78) (hrng : hi ≤ 78 ∨ 78 < lo) :
    latestIn (sameSide (· = 78) p f) lo hi = latestIn f lo hi :=
  latestIn_same fun q hlo hhi => iff_of_false (by omega) h

theorem latestIn_frameless (hlo : 61 ≤ p) (hhi : p ≤ 92) :
    latestIn (sameSide Frameless p f) 0 p = latestIn f 61 p := by
  have hp : Frameless p := ⟨hlo, hhi⟩
  have hold : latestIn (sameSide Frameless p f) 0 61 = none :=
    latestIn_other fun q _ hq h => by have := (h.mpr hp).1; omega
  rw [latestIn_split (zero_le 61) hlo, hold, or_none]
  exact latestIn_same fun q hq hqp => iff_of_true ⟨hq, by omega⟩ hp

theorem latestIn_framed (hlo : 93 ≤ p) :
    latestIn (sameSide Frameless p f) 0 p = (latestIn f 93 p).or (latestIn f 0 61) := by
  have hp : ¬Frameless p := fun h => by have := h.2; omega
  have hmid : latestIn (sameSide Frameless p f) 61 93 = none :=
    latestIn_other fun q hq hq' h => hp (h.mp ⟨hq, by omega⟩)
  have hlate : latestIn (sameSide Frameless p f) 93 p = latestIn f 93 p :=
    latestIn_same fun q hq _ => iff_of_false (fun h => by have := h.2; omega) hp
  have hearl : latestIn (sameSide Frameless p f) 0 61 = latestIn f 0 61 :=
    latestIn_same fun q _ hq => iff_of_false (fun h => by have := h.1; omega) hp
  rw [latestIn_split (zero_le 93) hlo, latestIn_split (zero_le 61) (by omega : 61 ≤ 93),
    hmid, none_or, hlate, hearl]

theorem latestIn_beyond (h : 78 < p) (hlo : 79 ≤ mid) (hhi : mid ≤ p) :
    latestIn (sameSide (· = 78) p f) 0 p =
      ((latestIn f mid p).or ((latestIn f 79 mid).or (latestIn f 61 78))).or (latestIn f 0 61) := by
  have hne : p ≠ 78 := by omega
  have h78 : latestIn (sameSide (· = 78) p f) 78 79 = none :=
    latestIn_other fun q hlo hhi => by omega
  rw [latestIn_split (zero_le mid) hhi, latestIn_split (zero_le 79) hlo,
    latestIn_split (zero_le 78) (by omega : 78 ≤ 79), h78, none_or,
    latestIn_split (zero_le 61) (by omega : 61 ≤ 78),
    latestIn_alone hne (.inr (by omega)), latestIn_alone hne (.inr (by omega)),
    latestIn_alone hne (.inl (le_refl _)), latestIn_alone hne (.inl (by omega)),
    Option.or_assoc, Option.or_assoc]

theorem or_eq_left_iff {a b : Option α} : a.or b = a ↔ a ≠ none ∨ b = none := by
  cases a <;> cases b <;> simp

theorem latestIn_eq_iff_uncrossed :
    latestIn (sameSide (· = 78) p f) 0 (p + 1) = latestIn (sameSide Frameless p f) 0 (p + 1) ↔
      Uncrossed f p := by
  rw [latestIn_succ (zero_le p), latestIn_succ (zero_le p), sameSide_self, sameSide_self]
  cases hp : f p with
  | some id => exact iff_of_true rfl (.inl (by simp [hp]))
  | none =>
    rw [none_or, none_or, Uncrossed, or_iff_right (not_not.mpr hp)]
    rcases lt_or_ge p 61 with h61 | h61
    · rw [if_pos h61, latestIn_alone (by omega) (.inl (by omega))]
      have hfrmd : ¬Frameless p := fun h => by have := h.1; omega
      refine iff_of_true (latestIn_same fun q _ hq => ?_).symm trivial
      exact iff_of_false (fun h => by have := h.1; omega) hfrmd
    rw [if_neg (by omega)]
    rcases lt_or_ge p 78 with h78 | h78
    · rw [if_pos h78, latestIn_alone (by omega) (.inl (by omega)),
        latestIn_frameless h61 (by omega), latestIn_split (zero_le 61) h61]
      exact or_eq_left_iff
    rw [if_neg (by omega)]
    rcases eq_or_lt_of_le h78 with rfl | h78
    · have hno : latestIn (sameSide (· = 78) 78 f) 0 78 = none :=
        latestIn_other fun q _ hq => by omega
      rw [if_pos rfl, hno, latestIn_frameless (by omega) (by omega), eq_comm]
    rw [if_neg (by omega)]
    rcases lt_or_ge p 93 with h93 | h93
    · rw [if_pos h93, latestIn_frameless h61 (by omega),
        latestIn_beyond h78 (le_refl 79) h78, latestIn_of_le (le_refl 79), none_or,
        latestIn_split (by omega : 61 ≤ 79) h78, latestIn_succ (by omega : 61 ≤ 78),
        latestIn_split (zero_le 61) (by omega : 61 ≤ 78)]
      cases latestIn f 79 p <;> cases f 78 <;> cases latestIn f 61 78 <;>
        cases latestIn f 0 61 <;> simp
    · rw [if_neg (by omega), latestIn_framed h93, latestIn_beyond h78 (by omega) h93]
      cases latestIn f 93 p <;> cases (latestIn f 79 93).or (latestIn f 61 78) <;> simp

end Boundaries

/-- A lookup finds what it should exactly if the packet has no registrations that the two
boundaries tell apart. -/
theorem getIdForVersion_expected_iff (calls : List Registration) (state : ProtocolState)
    (dir : Direction) (name : String) (hname : name ≠ "ClientboundHeldItemChange")
    (proto : UInt32) :
    Expected calls state dir name proto
        ((build calls).getIdForVersion proto state dir name) ↔
      Uncrossed (registeredIds calls state dir name) proto.toNat := by
  rw [expected_iff, getIdForVersion,
    PacketTable.getIdForVersion_eq (.inl hname), ids_build, eq_comm,
    latestIn_eq_iff_uncrossed]

def keepAliveCalls : List Registration := [⟨5, .play, .clientbound, "ClientboundKeepAlive", 0x00⟩]

theorem getIdForVersion_expected_iff_keepAlive :
    Expected keepAliveCalls .play .clientbound "ClientboundKeepAlive" 47
      ((build keepAliveCalls).getIdForVersion 47 .play .clientbound
        "ClientboundKeepAlive") := by
  apply (getIdForVersion_expected_iff _ _ _ _ (by decide) _).mpr
  refine .inr ?_
  rw [if_pos (by decide)]
  trivial

/-- A client of 1.6.2 is given the id of 1.7, although it should be told that there is none. -/
theorem keepAlive_crosses_framing :
    (build keepAliveCalls).getIdForVersion 74 .play .clientbound
        "ClientboundKeepAlive" = some 0x00 ∧
      isPreNettyProto 74 = true ∧ isPreNettyProto 5 = false ∧
      ¬Expected keepAliveCalls .play .clientbound "ClientboundKeepAlive" 74 (some 0x00) := by
  refine ⟨by decide, by decide, by decide, ?_⟩
  rw [expected_iff]
  decide +kernel

/-- The packet that has the id at its latest version up to `p` gets no other id at a later one,
where 78 stands alone. -/
def Settled (ids : String → Nat → Option UInt8) (id : UInt8) (p : Nat) : Prop :=
  ∀ q name, q ≤ p → (q = 78 ↔ p = 78) → ids name q = some id →
    (∀ r other, q < r → r ≤ p → (r = 78 ↔ p = 78) → ids other r ≠ some id) →
    ∀ r, q < r → r ≤ p → (r = 78 ↔ p = 78) → ids name r = none

namespace PacketTable
variable {t : PacketTable} {proto : UInt32} {name : String} {id : UInt8}

def DistinctIds (t : PacketTable) : Prop :=
  ∀ q name other id, t.ids name q = some id → t.ids other q = some id → name = other

def names (t : PacketTable) (id : UInt8) (q : Nat) : Option String :=
  (t.entries.find? fun e => e.1.toNat = q && e.2.id = id).map (·.2.name)

theorem names_eq_some (h : t.DistinctIds) : t.names id q = some name ↔ t.ids name q = some id := by
  rw [names, map_eq_some_iff, ids_eq_some]
  constructor
  · rintro ⟨e, hfi, hnm⟩
    have hkey : e.1.toNat = q ∧ e.2.id = id := by simpa using find?_some hfi
    exact ⟨e, mem_of_find?_eq_some hfi, hkey.1, hnm, hkey.2⟩
  · rintro ⟨e, hmem, hpro, hnm, hid⟩
    obtain ⟨first, hfi⟩ :
        ∃ first, t.entries.find? (fun e => e.1.toNat = q && e.2.id = id) = some first := by
      apply isSome_iff_exists.mp
      exact find?_isSome.mpr ⟨e, hmem, by simp [hpro, hid]⟩
    have hkey : first.1.toNat = q ∧ first.2.id = id := by simpa using find?_some hfi
    refine ⟨first, hfi, h q _ _ id ?_ (ids_eq_some.mpr ⟨e, hmem, hpro, hnm, hid⟩)⟩
    exact ids_eq_some.mpr ⟨first, mem_of_find?_eq_some hfi, hkey.1, rfl, hkey.2⟩

theorem getNameFromId_eq (h : t.DistinctIds) : t.getNameFromId proto id =
    latestIn (sameSide (· = 78) proto.toNat (t.names id)) 0 (proto.toNat + 1) := by
  have hlat : (t.latest fun e => e.2.id = id && reaches proto e).map (·.2.name) = _ :=
    map_latest t proto (f := t.names id) fun q name => by
      simp only [names_eq_some h, ids_eq_some, decide_eq_true_eq, and_comm]
  rw [getNameFromId]
  split
  · rename_i e hfi
    have hexact : t.names id proto.toNat = some e.2.name := by
      simp only [names, UInt32.toNat_inj, hfi, map_some]
    rw [latestIn_succ (zero_le _), sameSide_self, hexact, some_or]
  · exact hlat

theorem consistent_iff (h : t.DistinctIds) :
    (∀ name, t.getNameFromId proto id = some name → t.getIdForVersion proto name = some id) ↔
      Settled t.ids id proto.toNat := by
  rw [getNameFromId_eq h]
  constructor
  · intro hcon q name hq hsi hid hla r hr hrp hrsi
    have hnm : latestIn (sameSide (· = 78) proto.toNat (t.names id)) 0 (proto.toNat + 1) =
        some name := by
      apply latestIn_eq_some.mpr
      refine ⟨q, zero_le q, lt_succ_of_le hq,
        sameSide_eq_some.mpr ⟨hsi, (names_eq_some h).mpr hid⟩, ?_⟩
      intro r hr hrp
      rw [eq_none_iff_forall_not_mem]
      intro other hoth
      obtain ⟨hrsi, hrna⟩ := sameSide_eq_some.mp hoth
      exact hla r other hr (le_of_lt_succ hrp) hrsi ((names_eq_some h).mp hrna)
    have hfd := hcon name hnm
    have hso : latestIn (sameSide (· = 78) proto.toNat (t.ids name)) 0 (proto.toNat + 1) ≠
        none := by
      intro hno
      have hq' := latestIn_eq_none.mp hno q (zero_le q) (lt_succ_of_le hq)
      rw [sameSide_eq_some.mpr ⟨hsi, hid⟩] at hq'
      cases hq'
    rw [getIdForVersion_eq (.inr hso)] at hfd
    -- The version that the id was found at is the one that the name was found at.
    obtain ⟨q', -, hq'p, hid', hlat⟩ := latestIn_eq_some.mp hfd
    obtain ⟨hsi', hids'⟩ := sameSide_eq_some.mp hid'
    have hle : q' ≤ q := by
      by_contra hlt
      exact hla q' name (Nat.lt_of_not_le hlt) (Nat.le_of_lt_succ hq'p) hsi' hids'
    have hno := hlat r (lt_of_le_of_lt hle hr) (lt_succ_of_le hrp)
    rwa [sameSide, if_pos hrsi] at hno
  · intro hset name hnm
    obtain ⟨q, -, hq, hqna, hlat⟩ := latestIn_eq_some.mp hnm
    obtain ⟨hsi, hqna⟩ := sameSide_eq_some.mp hqna
    have hid := (names_eq_some h).mp hqna
    have hfd : latestIn (sameSide (· = 78) proto.toNat (t.ids name)) 0 (proto.toNat + 1) =
        some id := by
      apply latestIn_eq_some.mpr
      refine ⟨q, zero_le q, hq, sameSide_eq_some.mpr ⟨hsi, hid⟩, ?_⟩
      intro r hr hrp
      rw [eq_none_iff_forall_not_mem]
      intro other hoth
      obtain ⟨hrsi, hrid⟩ := sameSide_eq_some.mp hoth
      have hno := hset q name (le_of_lt_succ hq) hsi hid ?_ r hr
        (le_of_lt_succ hrp) hrsi
      · rw [hno] at hrid
        cases hrid
      · intro r other hr hrp hrsi hrid
        have hno := hlat r hr (lt_succ_of_le hrp)
        rw [sameSide_eq_some.mpr ⟨hrsi, (names_eq_some h).mpr hrid⟩] at hno
        cases hno
    rw [getIdForVersion_eq (.inr (by simp [hfd])), hfd]

end PacketTable

/-- If the calls leave no two packets with one id at a protocol, looking up the name of an id and
then the id of that name leads back exactly if the packet has not been renumbered since. -/
theorem registry_consistent_iff (calls : List Registration) (state : ProtocolState)
    (dir : Direction)
    (hdistinct : ∀ q name other id, lastRegistered calls state dir name q = some id →
      lastRegistered calls state dir other q = some id → name = other)
    (proto : UInt32) (id : UInt8) :
    (∀ name, (build calls).getNameFromId proto state dir id = some name →
      (build calls).getIdForVersion proto state dir name = some id) ↔
      Settled (registeredIds calls state dir) id proto.toNat := by
  have hids : ((build calls).map state dir).ids = registeredIds calls state dir := by
    funext name
    exact ids_build
  have htable : ((build calls).map state dir).DistinctIds := by
    rw [PacketTable.DistinctIds, hids]
    intro q name other id hname hother
    rw [registeredIds] at hname hother
    split at hname
    · rename_i hsize
      rw [if_pos hsize] at hother
      exact hdistinct _ _ _ _ hname hother
    · cases hname
  rw [← hids]
  exact PacketTable.consistent_iff htable

theorem lastRegistered_keepAliveCalls {id : UInt8}
    (h : lastRegistered keepAliveCalls .play .clientbound name q = some id) :
    q = 5 ∧ name = "ClientboundKeepAlive" := by
  obtain ⟨c, hfi, -⟩ := map_eq_some_iff.mp h
  cases mem_singleton.mp (mem_of_find?_eq_some hfi)
  have hmt := find?_some hfi
  simp only [Bool.and_eq_true, decide_eq_true_eq] at hmt
  exact ⟨hmt.1.1.1.symm, hmt.2.symm⟩

theorem registry_consistent_iff_keepAlive :
    (build keepAliveCalls).getIdForVersion 340 .play .clientbound
      "ClientboundKeepAlive" = some 0x00 := by
  refine (registry_consistent_iff keepAliveCalls .play .clientbound ?_ 340 0x00).mpr ?_
    "ClientboundKeepAlive" (by decide)
  · intro q name other id hname hother
    rw [(lastRegistered_keepAliveCalls hname).2, (lastRegistered_keepAliveCalls hother).2]
  · have honly {name : String} {q : Nat} {id : UInt8}
        (h : registeredIds keepAliveCalls .play .clientbound name q = some id) : q = 5 := by
      rw [registeredIds] at h
      split at h
      · rename_i hsize
        have hq := congrArg UInt32.toNat (lastRegistered_keepAliveCalls h).1
        rwa [UInt32.toNat_ofNat_of_lt' hsize] at hq
      · cases h
    intro q name _ _ hid _ r hr _ _
    rw [eq_none_iff_forall_not_mem]
    intro other hother
    have hq := honly hid
    have hr' := honly hother
    omega

def renumbering : List Registration :=
  [⟨47, .play, .clientbound, "ClientboundKeepAlive", 0x00⟩,
    ⟨107, .play, .clientbound, "ClientboundKeepAlive", 0x1F⟩]

/-- The old id of the packet still has its name, but is not its id any more. -/
theorem keepAlive_renumbered :
    (build renumbering).getNameFromId 107 .play .clientbound 0x00 =
        some "ClientboundKeepAlive" ∧
      (build renumbering).getIdForVersion 107 .play .clientbound
        "ClientboundKeepAlive" = some 0x1F := by
  decide

end Kojacoord
