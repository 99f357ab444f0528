import Kojacoord.Net.HeaderReaders

namespace Kojacoord
open Journal Reader

namespace ProxyProtocol

/-- The byte behind the signature says that this is version 2, and that the header is about another
connection and not about that of the proxy itself. -/
def proxyCommand (verCmd : UInt8) : Bool := verCmd >>> 4 = 2 && verCmd &&& 0x0F = 1

def announced (hi lo : UInt8) : Nat := Decode.bigEndian [hi, lo]

def Reports (cfg : Settings) (peer : SocketAddr) (s : McStream) : Prop :=
  (∃ addr, ((readProxyHeaderOptional cfg peer).run s).1 = .ok (.found addr)) ∨
    ∃ addr, ((readProxyHeader cfg peer).run s).1 = .ok addr ∧ addr ≠ peer

structure Complete (fam hi lo : UInt8) (rest : List UInt8) : Prop where
  fits : 16 + announced hi lo ≤ headerCapacity
  arrived : announced hi lo ≤ rest.length
  family : fam = 0x11 ∧ 12 ≤ announced hi lo ∨ fam = 0x21 ∧ 36 ≤ announced hi lo

theorem Scanned.reports_iff : Reports cfg peer s ↔
    cfg.trusts peer = true ∧ ∃ addr bytes, (scan cfg s).1 = .address addr bytes := by
  rw [Reports, run_readProxyHeader, run_readProxyHeaderOptional]
  cases htru : cfg.trusts peer with
  | false =>
    refine iff_of_false ?_ fun h => Bool.false_ne_true h.1
    rintro (⟨addr, hfd⟩ | ⟨addr, hok, hne⟩)
    · exact Scanned.optional_untrusted htru _ hfd
    · rcases Scanned.strict_untrusted htru (scan cfg s).1 with ⟨e, herr⟩ | hpeer
      · rw [herr] at hok
        cases hok
      · rw [hpeer] at hok
        cases hok
        exact hne rfl
  | true =>
    cases (scan cfg s).1 with
    | address addr bytes =>
      exact iff_of_true (.inl ⟨addr, by simp [Scanned.optional, htru]⟩) ⟨rfl, addr, bytes, rfl⟩
    | _ => simp [Scanned.optional, Scanned.strict]

def scanBlock (head : List UInt8) (fam : UInt8) (block : List UInt8) : Scanned :=
  match v2Address fam block with
  | some addr => .address addr (head ++ block)
  | none =>
    .other (head ++ block) (.io .invalidData "Malformed PROXY v2 header: unknown address family")

theorem scanBlock_address_iff (head : List UInt8) (fam : UInt8) (block : List UInt8) :
    (∃ addr bytes, scanBlock head fam block = .address addr bytes) ↔
      fam = 0x11 ∧ 12 ≤ block.length ∨ fam = 0x21 ∧ 36 ≤ block.length := by
  rw [scanBlock, v2Address]
  by_cases hv4 : fam = 0x11 ∧ 12 ≤ block.length
  · rw [if_pos hv4]
    exact iff_of_true ⟨_, _, rfl⟩ (.inl hv4)
  · rw [if_neg hv4]
    by_cases hv6 : fam = 0x21 ∧ 36 ≤ block.length
    · rw [if_pos hv6]
      exact iff_of_true ⟨_, _, rfl⟩ (.inr hv6)
    · rw [if_neg hv6]
      exact iff_of_false (by simp) (not_or.mpr ⟨hv4, hv6⟩)

section Scan
variable {cfg : Settings} {s t : McStream} {verCmd fam hi lo : UInt8} {rest : List UInt8}

def v2Head (verCmd fam hi lo : UInt8) : List UInt8 := v2Sig ++ [verCmd, fam, hi, lo]

theorem run_readV2Block (verCmd fam hi lo : UInt8) (ht : t.Flowing) (hrs : t.available = rest) :
    if 16 + announced hi lo ≤ headerCapacity ∧ announced hi lo ≤ rest.length then
      ∃ u, (readV2Block (v2Head verCmd fam hi lo)).run t = (.ok (rest.take (announced hi lo)), u)
    else ∃ e u, (readV2Block (v2Head verCmd fam hi lo)).run t = (.error e, u) := by
  have hlen : Decode.bigEndian ((v2Head verCmd fam hi lo).drop 14) = announced hi lo := rfl
  rw [readV2Block]
  simp only [hlen]
  by_cases hlg : 16 + announced hi lo > headerCapacity
  · rw [if_pos hlg, if_neg fun h => Nat.not_le.mpr hlg h.1]
    exact ⟨_, t, rfl⟩
  · rw [if_neg hlg]
    split
    · rename_i hrd
      rw [← hrs] at hrd ⊢
      obtain ⟨u, hrun, -, -⟩ := readExact_flowing ht hrd.2
      exact ⟨u, hrun⟩
    · rename_i hrd
      have hsh := Nat.not_le.mp fun h => hrd ⟨Nat.not_lt.mp hlg, h⟩
      rw [← hrs] at hsh
      obtain ⟨u, hrun, -⟩ := readExact_end ht hsh
      exact ⟨_, u, hrun⟩

theorem run_scanRest (cfg : Settings) (ht : t.Flowing)
    (h : t.available = v2Sig.drop 6 ++ [verCmd, fam, hi, lo] ++ rest) :
    ∃ u, u.Flowing ∧ u.available = rest ∧ (scanRest cfg (v2Sig.take 6)).run t =
      (readV2Block (v2Head verCmd fam hi lo) >>= fun block =>
        pure (scanBlock (v2Head verCmd fam hi lo) fam block)).run u := by
  obtain ⟨u, hmo, hu, hrs⟩ :=
    takes_readExact (v2Sig.drop 6 ++ [verCmd, fam, hi, lo]) t rest ht h
  have hmo : (readExact 10).run t = (.ok (v2Sig.drop 6 ++ [verCmd, fam, hi, lo]), u) := hmo
  have hfam : (v2Sig.take 6 ++ (v2Sig.drop 6 ++ [verCmd, fam, hi, lo])).getD 13 0 = fam := rfl
  refine ⟨u, hu, hrs, ?_⟩
  rw [scanRest, if_neg (by decide), if_pos rfl, run_bind_ok _ hmo]
  refine congrArg (fun x : Reader Scanned => x.run u) (bind_congr fun block => ?_)
  rw [hfam, scanBlock]
  cases v2Address fam block <;> rfl

theorem scan_address_iff (hs : s.Flowing)
    (h : s.available = v2Head verCmd fam hi lo ++ rest) :
    (∃ addr bytes, (scan cfg s).1 = .address addr bytes) ↔ Complete fam hi lo rest := by
  -- Six bytes decide on the version of the header, and ten more end before the addresses.
  have hsix : s.available = v2Sig.take 6 ++ (v2Sig.drop 6 ++ [verCmd, fam, hi, lo] ++ rest) := h
  obtain ⟨t, hfst, ht, hten⟩ := takes_readExact (v2Sig.take 6) s _ hs hsix
  have hfst : (readExact 6).run s = (.ok (v2Sig.take 6), t) := hfst
  obtain ⟨u, hu, hrs, hscan⟩ := run_scanRest cfg ht hten
  have hblo := run_readV2Block verCmd fam hi lo hu hrs
  rw [scan, hfst]
  dsimp only
  rw [hscan]
  split at hblo
  · rename_i hrd
    obtain ⟨v, hrun⟩ := hblo
    rw [run_bind_ok _ hrun]
    change (∃ addr bytes, scanBlock _ fam (rest.take (announced hi lo)) = .address addr bytes) ↔ _
    rw [scanBlock_address_iff, List.length_take_of_le hrd.2]
    exact ⟨fun hfam => ⟨hrd.1, hrd.2, hfam⟩, Complete.family⟩
  · rename_i hrd
    obtain ⟨e, v, hrun⟩ := hblo
    rw [run_bind_error _ hrun]
    exact iff_of_false (by simp) fun hcom => hrd ⟨hcom.fits, hcom.arrived⟩

end Scan

end ProxyProtocol

open ProxyProtocol

/-- A header that is no PROXY command of version 2 is taken for one exactly if the peer is trusted
and it holds an address of a family that the readers know. -/
theorem other_commands_ignored_iff (cfg : Settings) (peer : SocketAddr) (s : McStream)
    (hs : s.Flowing) (verCmd fam hi lo : UInt8) (rest : List UInt8)
    (h : s.available = v2Head verCmd fam hi lo ++ rest) :
    (proxyCommand verCmd = false → ¬ Reports cfg peer s) ↔
      proxyCommand verCmd = true ∨ cfg.trusts peer = false ∨ ¬ Complete fam hi lo rest := by
  rw [Scanned.reports_iff, scan_address_iff hs h]
  cases proxyCommand verCmd <;> cases cfg.trusts peer <;> simp

def localHeader : McStream :=
  .plain [.bytes 0x0D (v2Sig.tail ++ [0x20, 0x11, 0, 12, 1, 2, 3, 4, 5, 6, 7, 8, 0, 80, 0, 25, 7])]

theorem flowing_localHeader : localHeader.Flowing := by
  simp [McStream.Flowing, McStream.plain, localHeader]

theorem other_commands_ignored_untrusted :
    ¬ Reports ⟨[fun ip => ip == .v4 1], fun _ => none⟩ ⟨.v4 0, 0⟩ localHeader :=
  (other_commands_ignored_iff ⟨[fun ip => ip == .v4 1], fun _ => none⟩ ⟨.v4 0, 0⟩ localHeader
    flowing_localHeader 0x20 0x11 0 12 _ rfl).mpr (.inr (.inl (by decide))) (by decide)

theorem local_header_reported :
    proxyCommand 0x20 = false ∧ Reports ⟨[], fun _ => none⟩ ⟨.v4 0, 0⟩ localHeader ∧
      ((readProxyHeader ⟨[], fun _ => none⟩ ⟨.v4 0, 0⟩).run localHeader).1.toOption =
        some ⟨.v4 0x01020304, 80⟩ := by
  have havailable : localHeader.available =
    v2Head 0x20 0x11 0 12 ++ [1, 2, 3, 4, 5, 6, 7, 8, 0, 80, 0, 25, 7] := rfl
  have hcomplete : Complete 0x11 0 12 [1, 2, 3, 4, 5, 6, 7, 8, 0, 80, 0, 25, 7] :=
    ⟨by decide, by decide, by decide⟩
  refine ⟨by decide, ?_, by decide +kernel⟩
  rw [Scanned.reports_iff]
  exact ⟨rfl, (scan_address_iff flowing_localHeader havailable).mpr hcomplete⟩

end Kojacoord
