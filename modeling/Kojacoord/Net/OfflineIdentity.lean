import Kojacoord.Net.Identity
import Kojacoord.Protocol.Encode
import Mathlib.Data.List.OfFn

namespace Kojacoord
open Journal

abbrev Digest := Fin 16 → UInt8

abbrev Md5 := List UInt8 → Digest

def Uuid.fromBytes (bytes : Digest) : Uuid := .ofNat 128 (Decode.bigEndian (List.ofFn bytes))

def Uuid.namespaceOid : List UInt8 :=
  [0x6b, 0xa7, 0xb8, 0x12, 0x9d, 0xad, 0x11, 0xd1, 0x80, 0xb4, 0x00, 0xc0, 0x4f, 0xd4, 0x30, 0xc8]

def Uuid.stamp (bytes : Digest) : Digest := fun i =>
  if i = 6 then (bytes i &&& 0x0F) ||| 0x30
  else if i = 8 then (bytes i &&& 0x3F) ||| 0x80
  else bytes i

/-- `Uuid::new_v3`, which hashes the namespace before the name. -/
def Uuid.newV3 (md5 : Md5) (space : List UInt8) (name : String) : Uuid :=
  fromBytes (stamp (md5 (space ++ name.toUTF8.data.toList)))

def offlineUuid (md5 : Md5) (username : String) : Uuid :=
  Uuid.fromBytes (Uuid.stamp (md5 ("OfflinePlayer:" ++ username).toUTF8.data.toList))

theorem Uuid.fromBytes_inj {d d' : Digest} (h : fromBytes d = fromBytes d') : d = d' := by
  have hlt (d : Digest) : Decode.bigEndian (List.ofFn d) < 2 ^ 128 := by
    have hfold : (List.ofFn d).foldl (fun n b => n * 256 + UInt8.toNat b) 0 <
        256 ^ (0 + (List.ofFn d).length) := Decode.foldl_bytes_lt Nat.one_pos
    rwa [List.length_ofFn] at hfold
  have hnat := congrArg BitVec.toNat h
  rw [fromBytes, fromBytes, BitVec.toNat_ofNat, BitVec.toNat_ofNat, Nat.mod_eq_of_lt (hlt d),
    Nat.mod_eq_of_lt (hlt d')] at hnat
  exact List.ofFn_injective (Decode.bigEndian_inj (by simp) hnat)

def Uuid.unmarked (i : Fin 16) (byte : UInt8) : UInt8 :=
  if i = 6 then byte &&& 0x0F else if i = 8 then byte &&& 0x3F else byte

theorem Uuid.and_or_mark (byte : UInt8) : ((byte &&& 0x0F) ||| 0x30) &&& 0x0F = byte &&& 0x0F ∧
    ((byte &&& 0x3F) ||| 0x80) &&& 0x3F = byte &&& 0x3F := by
  exact forall_byte byte (by decide +kernel)

theorem Uuid.unmarked_stamp (d : Digest) (i : Fin 16) : unmarked i (stamp d i) = unmarked i (d i) := by
  have hby := and_or_mark (d i)
  unfold unmarked stamp
  split
  · exact hby.1
  · split
    · exact hby.2
    · rfl

theorem Uuid.stamp_eq_iff {d d' : Digest} :
    stamp d = stamp d' ↔ ∀ i, unmarked i (d i) = unmarked i (d' i) := by
  constructor
  · intro h i
    rw [← unmarked_stamp d, h, unmarked_stamp]
  · intro h
    funext i
    have hi := h i
    unfold unmarked at hi
    unfold stamp
    by_cases h6 : i = 6
    · rw [if_pos h6, if_pos h6] at hi ⊢
      rw [hi]
    · rw [if_neg h6, if_neg h6] at hi ⊢
      by_cases h8 : i = 8
      · rw [if_pos h8, if_pos h8] at hi ⊢
        rw [hi]
      · rwa [if_neg h8, if_neg h8] at hi ⊢

structure Env.Derives (env : Env) (md5 : Md5) : Prop where
  nameUuid : env.nameUuid = Uuid.newV3 md5 Uuid.namespaceOid
  offlineUuid : env.lib.offlineUuid = Kojacoord.offlineUuid md5

def Env.Unresolved (env : Env) (username : String) : Prop :=
  ∃ error, resolveMojangUuid env.accountLookup username = .error error ∧
    (error.isNotFound = true → env.config.auth.onlineMode = false)

theorem run_legacyIdentity {env : Env} (h : env.Unresolved username) (c : Client) :
    (ExceptT.run (Handler.legacyIdentity env username) c).1 =
      .ok (some (env.nameUuid ("OfflinePlayer:" ++ username))) := by
  obtain ⟨error, herr, honl⟩ := h
  unfold Handler.legacyIdentity
  rw [herr]
  cases error with
  | notFound name =>
    have hoff := honl rfl
    simp only [hoff]
    rfl
  | network message | parse message => rfl

/-- A player without a profile gets the offline UUID of its name on the pre-netty path exactly if
the hashes of the name with and without the namespace agree but for the marks. -/
theorem legacy_identity_offline_iff {env : Env} {md5 : Md5} (henv : env.Derives md5)
    (h : env.Unresolved username) (c : Client) :
    (ExceptT.run (Handler.legacyIdentity env username) c).1 =
        .ok (some (env.lib.offlineUuid username)) ↔
      ∀ i, Uuid.unmarked i
          (md5 (Uuid.namespaceOid ++ ("OfflinePlayer:" ++ username).toUTF8.data.toList) i) =
        Uuid.unmarked i (md5 ("OfflinePlayer:" ++ username).toUTF8.data.toList i) := by
  rw [run_legacyIdentity h, henv.nameUuid, henv.offlineUuid, ← Uuid.stamp_eq_iff]
  constructor
  · intro heq
    exact Uuid.fromBytes_inj (Option.some.inj (Except.ok.inj heq))
  · intro heq
    rw [Uuid.newV3, offlineUuid, heq]

def steveMd5 : Md5 := fun bytes i =>
  let hash := if bytes = "OfflinePlayer:Steve".toUTF8.data.toList then
      0x5627dd98e6bebc21f8a8e92344183641
    else if bytes = Uuid.namespaceOid ++ "OfflinePlayer:Steve".toUTF8.data.toList then
      0xc0a391a6070b6ca8864724919f87cf40
    else 0
  (Encode.bigEndian 16 hash).getD i 0

def cutOffEnv : Env :=
  { onlineEnv with
    lib := { onlineEnv.lib with offlineUuid := offlineUuid steveMd5 }
    accountLookup := fun _ => .error (.network "")
    nameUuid := Uuid.newV3 steveMd5 Uuid.namespaceOid }

theorem unresolved_cutOffEnv : cutOffEnv.Unresolved "Steve" := by
  refine ⟨.network "", ?_, fun h => ?_⟩
  · rfl
  · cases h

theorem legacy_identity_offline_iff_steve :
    (ExceptT.run (Handler.legacyIdentity cutOffEnv "Steve") (.new [] clientAddr)).1 ≠
      .ok (some (cutOffEnv.lib.offlineUuid "Steve")) := by
  intro h
  have hagree := (legacy_identity_offline_iff ⟨rfl, rfl⟩ unresolved_cutOffEnv _).mp h 0
  revert hagree
  decide +kernel

/-- Steve has another identity on this path than on the others. -/
theorem steve_has_two_identities :
    (ExceptT.run (Handler.legacyIdentity cutOffEnv "Steve") (.new [] clientAddr)).1 =
        .ok (some 0xc0a391a6070b3ca8864724919f87cf40) ∧
      offlineUuid steveMd5 "Steve" = 0x5627dd98e6be3c21b8a8e92344183641 := by
  rw [run_legacyIdentity unresolved_cutOffEnv]
  have hlegacy : cutOffEnv.nameUuid ("OfflinePlayer:" ++ "Steve") =
      0xc0a391a6070b3ca8864724919f87cf40 := by
    decide +kernel
  exact ⟨by rw [hlegacy], by decide +kernel⟩

end Kojacoord
