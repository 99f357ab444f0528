import Kojacoord.Lib.Versioned
import Kojacoord.Protocol.Version
import Mathlib.Data.List.Pairwise

namespace Kojacoord
open Versioned List

inductive ProtocolState where
  | handshake
  | status
  | login
  | configuration
  | play
deriving DecidableEq

inductive Direction where
  | serverbound
  | clientbound
deriving DecidableEq

structure PacketMeta where
  id : UInt8
  name : String
deriving DecidableEq

def IsFor (proto : UInt32) (name : String) (e : UInt32 × PacketMeta) : Bool :=
  e.1 = proto && e.2.name = name

structure PacketTable where
  entries : List (UInt32 × PacketMeta)
  distinct : entries.Pairwise fun e e' => ¬(e.1 = e'.1 ∧ e.2.name = e'.2.name)

namespace PacketTable
variable {proto : UInt32} {name : String} {id : UInt8} {entries : List (UInt32 × PacketMeta)}

def empty : PacketTable := ⟨[], .nil⟩

def setId (proto : UInt32) (name : String) (id : UInt8) :
    List (UInt32 × PacketMeta) → List (UInt32 × PacketMeta)
  | [] => [(proto, ⟨id, name⟩)]
  | e :: rest =>
    if IsFor proto name e then (e.1, { e.2 with id := id }) :: rest
    else e :: setId proto name id rest

theorem mem_setId (h : e ∈ setId proto name id entries) :
    (e.1 = proto ∧ e.2.name = name) ∨ e ∈ entries := by
  induction entries with
  | nil =>
    cases mem_singleton.mp h
    exact .inl ⟨rfl, rfl⟩
  | cons first rest ih =>
    rw [setId] at h
    split at h
    · rename_i hfor
      rcases mem_cons.mp h with rfl | hrs
      · exact .inl (by simpa [IsFor] using hfor)
      · exact .inr (mem_cons_of_mem _ hrs)
    · rcases mem_cons.mp h with rfl | hrs
      · exact .inr (mem_cons_self ..)
      · exact (ih hrs).imp_right (mem_cons_of_mem _)

theorem distinct_setId
    (h : entries.Pairwise fun e e' : UInt32 × PacketMeta => ¬(e.1 = e'.1 ∧ e.2.name = e'.2.name)) :
    (setId proto name id entries).Pairwise fun e e' => ¬(e.1 = e'.1 ∧ e.2.name = e'.2.name) := by
  induction entries with
  | nil => exact pairwise_singleton ..
  | cons first rest ih =>
    obtain ⟨hfst, hrs⟩ := pairwise_cons.mp h
    rw [setId]
    split
    · exact pairwise_cons.mpr ⟨hfst, hrs⟩
    · rename_i hoth
      refine pairwise_cons.mpr ⟨?_, ih hrs⟩
      intro e he hsm
      rcases mem_setId he with ⟨hpro, hnm⟩ | hmem
      · apply hoth
        simp [IsFor, hsm, hpro, hnm]
      · exact hfst e hmem hsm

def register (t : PacketTable) (proto : UInt32) (name : String) (id : UInt8) : PacketTable :=
  ⟨setId proto name id t.entries, distinct_setId t.distinct⟩

def getId (t : PacketTable) (proto : UInt32) (name : String) : Option UInt8 :=
  (t.entries.find? (IsFor proto name)).map (·.2.id)

theorem find?_setId : ((setId proto name id entries).find? (IsFor q n)).map (·.2.id) =
    if proto = q ∧ name = n then some id
    else (entries.find? (IsFor q n)).map (·.2.id) := by
  induction entries with
  | nil =>
    by_cases hkey : proto = q ∧ name = n
    · simp [setId, IsFor, hkey]
    · simp [setId, IsFor, hkey]
  | cons e rest ih =>
    rw [setId]
    by_cases hfor : IsFor proto name e = true
    · rw [if_pos hfor]
      obtain ⟨hpro, hnm⟩ : e.1 = proto ∧ e.2.name = name := by simpa [IsFor] using hfor
      by_cases hkey : proto = q ∧ name = n
      · simp [IsFor, hpro, hnm, hkey]
      · simp [IsFor, hpro, hnm, hkey]
    · rw [if_neg hfor]
      by_cases hq : IsFor q n e = true
      · have hkey : ¬(proto = q ∧ name = n) := by
          rintro ⟨rfl, rfl⟩
          exact hfor hq
        rw [find?_cons_of_pos hq, find?_cons_of_pos hq, if_neg hkey]
      · rw [find?_cons_of_neg hq, find?_cons_of_neg hq, ih]

theorem getId_register (t : PacketTable) (proto : UInt32) (name : String) (id : UInt8) (q : UInt32)
    (n : String) : (t.register proto name id).getId q n =
      if proto = q ∧ name = n then some id else t.getId q n :=
  find?_setId

theorem getId_eq_some {t : PacketTable} : t.getId proto name = some id ↔
    ∃ e ∈ t.entries, e.1 = proto ∧ e.2.name = name ∧ e.2.id = id := by
  rw [getId, Option.map_eq_some_iff]
  constructor
  · rintro ⟨e, hfi, hid⟩
    have hfor : e.1 = proto ∧ e.2.name = name := by simpa [IsFor] using find?_some hfi
    exact ⟨e, mem_of_find?_eq_some hfi, hfor.1, hfor.2, hid⟩
  · rintro ⟨e, hmem, hpro, hnm, hid⟩
    refine ⟨e, ?_, hid⟩
    obtain ⟨first, hfi⟩ : ∃ first, t.entries.find? (IsFor proto name) = some first := by
      apply Option.isSome_iff_exists.mp
      exact find?_isSome.mpr ⟨e, hmem, by simp [IsFor, hpro, hnm]⟩
    have hfor : first.1 = proto ∧ first.2.name = name := by
      simpa [IsFor] using find?_some hfi
    -- Two entries of one packet and protocol are one entry.
    have hsm : first = e := by
      by_contra hne
      have hsymm : Std.Symm fun e e' : UInt32 × PacketMeta =>
          ¬(e.1 = e'.1 ∧ e.2.name = e'.2.name) :=
        ⟨fun _ _ h h' => h ⟨h'.1.symm, h'.2.symm⟩⟩
      apply t.distinct.forall (mem_of_find?_eq_some hfi) hmem hne
      exact ⟨hfor.1.trans hpro.symm, hfor.2.trans hnm.symm⟩
    rw [hfi, hsm]

def latest (t : PacketTable) (keep : UInt32 × PacketMeta → Bool) : Option (UInt32 × PacketMeta) :=
  (t.entries.filter keep).argmax (·.1.toNat)

def reaches (proto : UInt32) (e : UInt32 × PacketMeta) : Bool :=
  e.1 ≤ proto && decide (e.1 = 78) == decide (proto = 78)

/-- The id of a packet, if need be that of an earlier protocol, or of the packet's later name. -/
def getIdForVersion (t : PacketTable) (proto : UInt32) (name : String) : Option UInt8 :=
  match t.entries.find? (IsFor proto name) with
  | some e => some e.2.id
  | none =>
    let best := t.latest fun e => e.2.name = name && reaches proto e
    if best.isNone && proto ≠ 78 && name = "ClientboundHeldItemChange" then
      (t.latest fun e => e.2.name = "ClientboundSetHeldItem" && e.1 ≤ proto && e.1 ≠ 78).map
        (·.2.id)
    else best.map (·.2.id)

def getNameFromId (t : PacketTable) (proto : UInt32) (id : UInt8) : Option String :=
  match t.entries.find? fun e => e.1 = proto && e.2.id = id with
  | some e => some e.2.name
  | none => (t.latest fun e => e.2.id = id && reaches proto e).map (·.2.name)

theorem getIdForVersion_of_single (t : PacketTable) {e : UInt32 × PacketMeta}
    (h : t.entries.filter (fun e => e.2.name = name) = [e])
    (hnm : name ≠ "ClientboundHeldItemChange") :
    t.getIdForVersion proto name = if reaches proto e then some e.2.id else none := by
  have hfi : t.entries.find? (IsFor proto name) = [e].find? fun e => e.1 = proto := by
    rw [← h, find?_filter]
    congr 1
    funext e
    simp [IsFor, Bool.and_comm]
  have hlat : (t.latest fun e => e.2.name = name && reaches proto e) =
      ([e].filter (reaches proto)).argmax (·.1.toNat) := by
    rw [latest, ← h, filter_filter]
    simp only [Bool.and_comm]
  rw [getIdForVersion, hfi, hlat]
  by_cases hpro : e.1 = proto
  · have hrea : reaches proto e = true := by simp [reaches, hpro]
    simp [hpro, hrea]
  · by_cases hrea : reaches proto e = true
    · simp [hpro, hrea]
    · simp [hpro, hrea, hnm]

def ids (t : PacketTable) (name : String) (q : Nat) : Option UInt8 :=
  if q < UInt32.size then t.getId (.ofNat q) name else none

theorem ids_toNat (t : PacketTable) (proto : UInt32) :
    t.ids name proto.toNat = t.getId proto name := by
  rw [ids, if_pos proto.toNat_lt, UInt32.ofNat_toNat]

theorem reaches_iff {e : UInt32 × PacketMeta} : reaches proto e = true ↔
    e.1.toNat ≤ proto.toNat ∧ (e.1.toNat = 78 ↔ proto.toNat = 78) := by
  have h78 (p : UInt32) : p.toNat = 78 ↔ p = 78 := by
    rw [← UInt32.toNat_inj]
    rfl
  rw [h78, h78, reaches, Bool.and_eq_true, decide_eq_true_iff, UInt32.le_iff_toNat_le, beq_iff_eq,
    decide_eq_decide]

theorem ids_eq_some {t : PacketTable} : t.ids name q = some id ↔
    ∃ e ∈ t.entries, e.1.toNat = q ∧ e.2.name = name ∧ e.2.id = id := by
  constructor
  · intro h
    rw [ids] at h
    split at h
    · rename_i hsz
      obtain ⟨e, hmem, hpro, hnm, hid⟩ := getId_eq_some.mp h
      exact ⟨e, hmem, by rw [hpro, UInt32.toNat_ofNat_of_lt' hsz], hnm, hid⟩
    · cases h
  · rintro ⟨e, hmem, rfl, hnm, hid⟩
    rw [ids_toNat]
    exact getId_eq_some.mpr ⟨e, hmem, rfl, hnm, hid⟩

theorem map_latest (t : PacketTable) (proto : UInt32) {keep : UInt32 × PacketMeta → Bool}
    {val : UInt32 × PacketMeta → α} {f : Nat → Option α}
    (h : ∀ q a, f q = some a ↔ ∃ e ∈ t.entries, e.1.toNat = q ∧ keep e = true ∧ val e = a) :
    (t.latest fun e => keep e && reaches proto e).map val =
      latestIn (sameSide (· = 78) proto.toNat f) 0 (proto.toNat + 1) := by
  apply map_argmax
  · intro e he
    have hrea := (Bool.and_eq_true_iff.mp (mem_filter.mp he).2).2
    exact Nat.lt_succ_of_le (reaches_iff.mp hrea).1
  · intro q hq a
    simp only [mem_filter, Bool.and_eq_true, reaches_iff, sameSide_eq_some, h]
    constructor
    · rintro ⟨hsi, e, hmem, rfl, hkeep, hval⟩
      exact ⟨e, ⟨hmem, hkeep, Nat.le_of_lt_succ hq, hsi⟩, rfl, hval⟩
    · rintro ⟨e, ⟨hmem, hkeep, -, hsi⟩, rfl, hval⟩
      exact ⟨hsi, e, hmem, rfl, hkeep, hval⟩

end PacketTable

structure Registration where
  proto : UInt32
  state : ProtocolState
  dir : Direction
  name : String
  id : UInt8

structure PacketRegistry where
  map : ProtocolState → Direction → PacketTable

namespace PacketRegistry

def new : PacketRegistry := ⟨fun _ _ => .empty⟩

def register (r : PacketRegistry) (c : Registration) : PacketRegistry where
  map state dir :=
    if state = c.state ∧ dir = c.dir then (r.map state dir).register c.proto c.name c.id
    else r.map state dir

def build (calls : List Registration) : PacketRegistry := calls.foldl register new

def getIdForVersion (r : PacketRegistry) (proto : UInt32) (state : ProtocolState) (dir : Direction)
    (name : String) : Option UInt8 :=
  (r.map state dir).getIdForVersion proto name

def getNameFromId (r : PacketRegistry) (proto : UInt32) (state : ProtocolState) (dir : Direction)
    (id : UInt8) : Option String :=
  (r.map state dir).getNameFromId proto id

def lookup (r : PacketRegistry) (proto : UInt32) (state : ProtocolState) (dir : Direction)
    (name : String) : UInt8 :=
  (r.getIdForVersion proto state dir name).getD 0xFF

end PacketRegistry

def lastRegistered (calls : List Registration) (state : ProtocolState) (dir : Direction)
    (name : String) (proto : UInt32) : Option UInt8 :=
  (calls.reverse.find? fun c =>
    c.proto = proto && c.state = state && c.dir = dir && c.name = name).map (·.id)

theorem getId_build (calls : List Registration) (state : ProtocolState) (dir : Direction)
    (name : String) (proto : UInt32) :
    ((PacketRegistry.build calls).map state dir).getId proto name =
      lastRegistered calls state dir name proto := by
  induction calls using List.reverseRecOn with
  | nil => rfl
  | append_singleton calls c ih =>
    have hbui : PacketRegistry.build (calls ++ [c]) =
        (PacketRegistry.build calls).register c := foldl_concat ..
    have hla : lastRegistered (calls ++ [c]) state dir name proto =
        if c.proto = proto ∧ c.state = state ∧ c.dir = dir ∧ c.name = name then some c.id
        else lastRegistered calls state dir name proto := by
      rw [lastRegistered, reverse_concat, find?_cons]
      split
      · rename_i hmt
        rw [if_pos (by simpa [and_assoc] using hmt)]
        rfl
      · rename_i hmt
        rw [if_neg (by simpa [and_assoc] using hmt)]
        rfl
    rw [hbui, hla, ← ih, PacketRegistry.register]
    dsimp only
    by_cases hpla : state = c.state ∧ dir = c.dir
    · rw [if_pos hpla, PacketTable.getId_register]
      obtain ⟨rfl, rfl⟩ := hpla
      simp
    · rw [if_neg hpla, if_neg]
      rintro ⟨-, hsta, hdir, -⟩
      exact hpla ⟨hsta.symm, hdir.symm⟩

end Kojacoord
