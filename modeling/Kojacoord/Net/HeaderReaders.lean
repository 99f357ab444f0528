import Kojacoord.Net.Connection
import Kojacoord.Net.StreamBytes

namespace Kojacoord
open Journal Reader

namespace ProxyProtocol

inductive Scanned where
  | address (addr : SocketAddr) (bytes : List UInt8)
  | other (bytes : List UInt8) (complaint : ConnectionError)
  | short (stop : Stop)
  | failed (stop : Stop)

namespace Scanned

def optional (cfg : Settings) (peer : SocketAddr) : Scanned → Except Stop HeaderResult
  | address addr bytes => .ok (if cfg.trusts peer then .found addr else .notFound bytes)
  | other bytes _ => .ok (.notFound bytes)
  | short _ => .ok (.notFound [])
  | failed stop => .error stop

def strict (cfg : Settings) (peer : SocketAddr) : Scanned → Except Stop SocketAddr
  | address addr _ => .ok (if cfg.trusts peer then addr else peer)
  | other _ complaint => .error (.failed complaint)
  | short stop => .error stop
  | failed stop => .error stop

def stopped : Stop → Scanned
  | .failed (.io .unexpectedEof message) => .short (.failed (.io .unexpectedEof message))
  | e => .failed e

theorem strict_stopped (e : Stop) : (stopped e).strict cfg peer = .error e := by
  unfold stopped
  split <;> rfl

def Accounts (s t : McStream) : Scanned → Prop
  | address _ bytes | other bytes _ => s.available = bytes ++ t.available ∧ 6 ≤ bytes.length
  | short _ => s.available.length < 6
  | failed _ => True

theorem agree (htru : cfg.trusts peer = true) (r : Scanned) :
    r.optional cfg peer = .ok (.found addr) ↔ r.strict cfg peer = .ok addr := by
  cases r with
  | address addr bytes => simp [optional, strict, htru]
  | _ => simp [optional, strict]

theorem accounts_of_notFound (htru : cfg.trusts peer = true) (h : Accounts s t r)
    (hr : r.optional cfg peer = .ok (.notFound bytes)) :
    s.available = bytes ++ t.available ∨ s.available.length < 6 := by
  cases r with
  | address addr bytes => simp [optional, htru] at hr
  | other bytes complaint => cases hr; exact .inl h.1
  | short stop => exact .inr h
  | failed stop => cases hr

theorem strict_untrusted (htru : cfg.trusts peer = false) (r : Scanned) :
    (∃ e, r.strict cfg peer = .error e) ∨ r.strict cfg peer = .ok peer := by
  cases r with
  | address addr bytes => exact .inr (by simp [strict, htru])
  | _ => exact .inl ⟨_, rfl⟩

theorem optional_untrusted (htru : cfg.trusts peer = false) (r : Scanned) :
    r.optional cfg peer ≠ .ok (.found addr) := by
  cases r with
  | address addr bytes => simp [optional, htru]
  | _ => simp [optional]

end Scanned

theorem readV1Line_ok (h : (readV1Line left).run s = (.ok line, t)) :
    s.available = line ++ t.available := by
  induction left generalizing s line with
  | zero => cases h
  | succ left ih =>
    obtain ⟨byte, u, hby, h⟩ := run_bind_eq_ok h
    rw [readU8_ok hby]
    split at h
    · cases h
      rfl
    · obtain ⟨rest, v, hrs, h⟩ := run_bind_eq_ok h
      cases h
      rw [ih hrs]
      rfl

theorem readV2Block_ok (h : (readV2Block head).run s = (.ok block, t)) :
    s.available = block ++ t.available := by
  rw [readV2Block] at h
  split at h
  · cases h
  · exact (readExact_ok h).1

def scanRest (cfg : Settings) (first : List UInt8) : Reader Scanned := do
  if first = v1Sig then
    let header := first ++ (← readV1Line (headerCapacity - 6))
    match v1Address cfg header with
    | some addr => return .address addr header
    | none => Reader.fail (.io .invalidData "Malformed PROXY v1 header")
  else if first = v2Sig.take 6 then
    let head := first ++ (← readExact 10)
    if head.take 12 ≠ v2Sig then return .other head (.io .invalidData "Invalid PROXY v2 signature")
    let block ← readV2Block head
    match v2Address (head.getD 13 0) block with
    | some addr => return .address addr (head ++ block)
    | none =>
      let complaint := "Malformed PROXY v2 header: unknown address family"
      return .other (head ++ block) (.io .invalidData complaint)
  else
    let complaint := "Expected PROXY header, but signature did not match"
    return .other first (.io .invalidData complaint)

theorem scanRest_bind : scanRest cfg first >>= g =
    if first = v1Sig then do
      let line ← readV1Line (headerCapacity - 6)
      match v1Address cfg (first ++ line) with
      | some addr => g (.address addr (first ++ line))
      | none => .fail (.io .invalidData "Malformed PROXY v1 header")
    else if first = v2Sig.take 6 then do
      let more ← readExact 10
      if (first ++ more).take 12 ≠ v2Sig then
        g (.other (first ++ more) (.io .invalidData "Invalid PROXY v2 signature"))
      else
        let block ← readV2Block (first ++ more)
        match v2Address ((first ++ more).getD 13 0) block with
        | some addr => g (.address addr (first ++ more ++ block))
        | none => g (.other (first ++ more ++ block)
            (.io .invalidData "Malformed PROXY v2 header: unknown address family"))
    else g (.other first
      (.io .invalidData "Expected PROXY header, but signature did not match")) := by
  rw [scanRest]
  by_cases hv1 : first = v1Sig
  · simp only [if_pos hv1, bind_assoc]
    refine bind_congr fun line => ?_
    cases v1Address cfg (first ++ line) with
    | none => rfl
    | some addr => exact pure_bind _ g
  · simp only [if_neg hv1]
    by_cases hv2 : first = v2Sig.take 6
    · simp only [if_pos hv2, bind_assoc]
      refine bind_congr fun more => ?_
      by_cases hsig : (first ++ more).take 12 ≠ v2Sig
      · simp only [if_pos hsig, pure_bind]
      · simp only [if_neg hsig, bind_assoc]
        refine bind_congr fun block => ?_
        cases v2Address ((first ++ more).getD 13 0) block <;> exact pure_bind _ g
    · simp only [if_neg hv2, pure_bind]

/-- Both readers scan the stream in one way and differ only in what they answer. -/
def scan (cfg : Settings) (s : McStream) : Scanned × McStream :=
  match (readExact 6).run s with
  | (.ok first, t) =>
    match (scanRest cfg first).run t with
    | (.ok r, u) => (r, u)
    | (.error e, u) => (.failed e, u)
  | (.error e, t) => (.stopped e, t)

def reply : Except Stop α → Reader α
  | .ok a => pure a
  | .error e => throw e

theorem run_reply : (reply r).run s = (r, s) := by
  cases r <;> rfl

variable {cfg : Settings} {peer : SocketAddr}

theorem readProxyHeader_eq : readProxyHeader cfg peer =
    readExact 6 >>= fun first => scanRest cfg first >>= fun r => reply (r.strict cfg peer) := by
  simp only [scanRest_bind]
  rfl

def onShort : Stop → Reader (Option (List UInt8))
  | .failed (.io .unexpectedEof _) => pure none
  | e => throw e

theorem readProxyHeaderOptional_eq : readProxyHeaderOptional cfg peer =
    tryCatch (some <$> readExact 6) onShort >>= fun
      | none => pure (.notFound [])
      | some first => scanRest cfg first >>= fun r => reply (r.optional cfg peer) := by
  simp only [scanRest_bind]
  refine bind_congr fun first => ?_
  cases first with
  | none | some first => rfl

theorem run_scanRest_reply (f : Scanned → Except Stop α) (t : McStream)
    (hf : ∀ e, f (.failed e) = .error e) :
    (scanRest cfg first >>= fun r => reply (f r)).run t =
      match (scanRest cfg first).run t with
      | (.ok r, u) => (f r, u)
      | (.error e, u) => (f (.failed e), u) := by
  rw [run_bind]
  rcases (scanRest cfg first).run t with ⟨result, u⟩
  cases result with
  | ok r => exact run_reply
  | error e => exact congrArg (·, u) (hf e).symm

theorem run_readProxyHeader (cfg : Settings) (peer : SocketAddr) (s : McStream) :
    (readProxyHeader cfg peer).run s = ((scan cfg s).1.strict cfg peer, (scan cfg s).2) := by
  rw [readProxyHeader_eq, scan, run_bind]
  rcases (readExact 6).run s with ⟨result, t⟩
  cases result with
  | ok first =>
    dsimp only
    rw [run_scanRest_reply _ t fun _ => rfl]
    rcases (scanRest cfg first).run t with ⟨result, u⟩
    cases result <;> rfl
  | error e => exact congrArg (·, t) (Scanned.strict_stopped e).symm

theorem run_readProxyHeaderOptional (cfg : Settings) (peer : SocketAddr) (s : McStream) :
    (readProxyHeaderOptional cfg peer).run s =
      ((scan cfg s).1.optional cfg peer, (scan cfg s).2) := by
  rw [readProxyHeaderOptional_eq, scan, run_bind, run_tryCatch, run_map]
  rcases (readExact 6).run s with ⟨result, t⟩
  cases result with
  | ok first =>
    dsimp only
    rw [run_scanRest_reply _ t fun _ => rfl]
    rcases (scanRest cfg first).run t with ⟨result, u⟩
    cases result <;> rfl
  | error e =>
    cases e with
    | elapsed => rfl
    | failed e =>
      cases e with
      | io kind message => cases kind <;> rfl
      | _ => rfl

theorem scanRest_accounts (h : (scanRest cfg first).run t = (.ok r, u))
    (hfst : s.available = first ++ t.available) (hsix : 6 ≤ first.length) : r.Accounts s u := by
  have hlon (more : List UInt8) : 6 ≤ (first ++ more).length := by
    rw [List.length_append]
    omega
  rw [scanRest] at h
  split at h
  · obtain ⟨line, v, hline, h⟩ := run_bind_eq_ok h
    rw [readV1Line_ok hline, ← List.append_assoc] at hfst
    dsimp only at h
    split at h
    · cases h
      exact ⟨hfst, hlon line⟩
    · cases h
  · split at h
    · obtain ⟨more, v, hmo, h⟩ := run_bind_eq_ok h
      rw [(readExact_ok hmo).1, ← List.append_assoc] at hfst
      dsimp only at h
      split at h
      · cases h
        exact ⟨hfst, hlon more⟩
      · obtain ⟨block, w, hblo, h⟩ := run_bind_eq_ok h
        rw [readV2Block_ok hblo, ← List.append_assoc] at hfst
        have hsix := hlon (more ++ block)
        rw [← List.append_assoc] at hsix
        split at h <;> cases h <;> exact ⟨hfst, hsix⟩
    · cases h
      exact ⟨hfst, hsix⟩

theorem scan_accounts (cfg : Settings) (s : McStream) :
    (scan cfg s).1.Accounts s (scan cfg s).2 := by
  rw [scan]
  rcases hfst : (readExact 6).run s with ⟨result, t⟩
  cases result with
  | ok first =>
    dsimp only
    rcases hrs : (scanRest cfg first).run t with ⟨result, u⟩
    cases result with
    | ok r =>
      obtain ⟨hbs, hlen⟩ := readExact_ok hfst
      exact scanRest_accounts hrs hbs (Nat.le_of_eq hlen.symm)
    | error e => trivial
  | error e =>
    change (Scanned.stopped e).Accounts s t
    unfold Scanned.stopped
    split
    · exact readExact_failed hfst
    · trivial

theorem Settings.trusts_eq_true
    (h : cfg.trustedProxies = [] ∨ ∃ network ∈ cfg.trustedProxies, network peer.ip = true) :
    Settings.trusts cfg peer = true := by
  rw [Settings.trusts, Bool.or_eq_true]
  rcases h with hemp | ⟨network, hmem, hin⟩
  · exact .inl (List.isEmpty_iff.mpr hemp)
  · exact .inr (List.any_eq_true.mpr ⟨network, hmem, hin⟩)

theorem Settings.trusts_eq_false {cfg : Settings} (hne : cfg.trustedProxies ≠ [])
    (hpeer : ∀ network ∈ cfg.trustedProxies, network peer.ip = false) :
    cfg.trusts peer = false := by
  rw [Settings.trusts, Bool.or_eq_false_iff]
  constructor
  · rwa [List.isEmpty_eq_false_iff]
  · rw [List.any_eq_false]
    intro network hmem
    rw [hpeer network hmem]
    exact Bool.false_ne_true

end ProxyProtocol

open ProxyProtocol

/-- On every stream from a trusted peer the two readers find the same address and stop at the same
place, and what the optional reader hands back is what it has taken. -/
theorem header_readers_agree (cfg : Settings) (peer : SocketAddr) (s : McStream)
    (htrusted : cfg.trustedProxies = [] ∨ ∃ network ∈ cfg.trustedProxies, network peer.ip = true) :
    (∀ addr t, (readProxyHeaderOptional cfg peer).run s = (.ok (.found addr), t) ↔
      (readProxyHeader cfg peer).run s = (.ok addr, t)) ∧
    ∀ bytes t, (readProxyHeaderOptional cfg peer).run s = (.ok (.notFound bytes), t) →
      s.available = bytes ++ t.available ∨ s.available.length < 6 := by
  have htrusts := Settings.trusts_eq_true htrusted
  rw [run_readProxyHeader, run_readProxyHeaderOptional]
  constructor
  · intro addr t
    constructor
    · intro h
      obtain ⟨hresult, ht⟩ := Prod.mk.inj h
      rw [(Scanned.agree htrusts _).mp hresult, ht]
    · intro h
      obtain ⟨hresult, ht⟩ := Prod.mk.inj h
      rw [(Scanned.agree htrusts _).mpr hresult, ht]
  · intro bytes t h
    obtain ⟨hresult, ht⟩ := Prod.mk.inj h
    rw [← ht]
    exact Scanned.accounts_of_notFound htrusts (scan_accounts cfg s) hresult

def binaryHeader : McStream :=
  .plain [.bytes 0x0D (v2Sig.tail ++ [0x21, 0x11, 0, 12, 1, 2, 3, 4, 5, 6, 7, 8, 0, 80, 0, 25, 7])]

theorem header_readers_agree_binary :
    (readProxyHeaderOptional ⟨[], fun _ => none⟩ ⟨.v4 0, 0⟩).run binaryHeader =
      (.ok (.found ⟨.v4 0x01020304, 80⟩),
        ((readProxyHeader ⟨[], fun _ => none⟩ ⟨.v4 0, 0⟩).run binaryHeader).2) := by
  have hstrict : ((readProxyHeader ⟨[], fun _ => none⟩ ⟨.v4 0, 0⟩).run binaryHeader).1.toOption =
      some ⟨.v4 0x01020304, 80⟩ := by decide +kernel
  apply ((header_readers_agree ⟨[], fun _ => none⟩ ⟨.v4 0, 0⟩ binaryHeader (.inl rfl)).1 _ _).mpr
  generalize (readProxyHeader ⟨[], fun _ => none⟩ ⟨.v4 0, 0⟩).run binaryHeader = result at hstrict ⊢
  rcases result with ⟨e | addr, t⟩
  · cases hstrict
  · cases hstrict
    rfl

def Stop.toError : Stop → ConnectionError
  | .failed error => error
  | .elapsed => .io .timedOut ""

namespace Handler
variable {env : Env} {c : Client}

theorem run_readUntimed (x : Reader α) (c : Client) :
    ExceptT.run (readUntimed x) c =
      ((x.run { c.stream with budget := none }).1.mapError Stop.toError,
        { c with stream := (x.run { c.stream with budget := none }).2 }) := by
  change ExceptT.run (orThrow (untimed x c.stream).1) _ = _
  rw [untimed]
  rcases x.run { c.stream with budget := none } with ⟨result, t⟩
  cases result with
  | ok a => rfl
  | error e => cases e <;> rfl

theorem run_readProxyHeaders_off (h : env.config.proxyProtocol = false) :
    ExceptT.run (readProxyHeaders env) c = (.ok (), c) := by
  rw [readProxyHeaders, if_neg (by rw [h]; exact Bool.false_ne_true)]
  rfl

theorem run_readProxyHeaders_optional (h : env.config.proxyProtocol = true)
    (hopt : env.config.proxyProtocolOptional = true) :
    ExceptT.run (readProxyHeaders env) c =
      match scan env.config.headers { c.stream with budget := none } with
      | (r, t) =>
        match r.optional env.config.headers c.addr with
        | .ok (.found real) => (.ok (), { c with stream := t, addr := real })
        | .ok (.notFound _) => (.ok (), { c with stream := t })
        | .error e => (.error e.toError, { c with stream := t }) := by
  rw [readProxyHeaders, if_pos h, run_bind_ok _ (run_get c)]
  rw [if_pos hopt, run_bind, run_readUntimed, run_readProxyHeaderOptional]
  rcases scan env.config.headers { c.stream with budget := none } with ⟨r, t⟩
  dsimp only
  cases r.optional env.config.headers c.addr with
  | error e => rfl
  | ok result => cases result <;> rfl

theorem run_readProxyHeaders_strict (h : env.config.proxyProtocol = true)
    (hstr : env.config.proxyProtocolOptional = false) :
    ExceptT.run (readProxyHeaders env) c =
      match scan env.config.headers { c.stream with budget := none } with
      | (r, t) =>
        match r.strict env.config.headers c.addr with
        | .ok real => (.ok (), { c with stream := t, addr := real })
        | .error e => (.error e.toError, { c with stream := t }) := by
  rw [readProxyHeaders, if_pos h, run_bind_ok _ (run_get c)]
  rw [if_neg (by rw [hstr]; exact Bool.false_ne_true), run_bind, run_readUntimed,
    run_readProxyHeader]
  rcases scan env.config.headers { c.stream with budget := none } with ⟨r, t⟩
  dsimp only
  cases r.strict env.config.headers c.addr <;> rfl

theorem addr_of_untrusted (htru : env.config.headers.trusts c.addr = false) :
    (ExceptT.run (readProxyHeaders env) c).2.addr = c.addr := by
  cases hpx : env.config.proxyProtocol with
  | false => rw [run_readProxyHeaders_off hpx]
  | true =>
    cases hopt : env.config.proxyProtocolOptional with
    | true =>
      rw [run_readProxyHeaders_optional hpx hopt]
      rcases scan env.config.headers { c.stream with budget := none } with ⟨r, t⟩
      dsimp only
      split
      · rename_i hr
        exact absurd hr (Scanned.optional_untrusted htru r)
      · rfl
      · rfl
    | false =>
      rw [run_readProxyHeaders_strict hpx hopt]
      rcases scan env.config.headers { c.stream with budget := none } with ⟨r, t⟩
      rcases Scanned.strict_untrusted htru r with ⟨e, hr⟩ | hr
      · simp only [hr]
      · simp only [hr]

end Handler

/-- A peer outside the trusted networks keeps its own address whatever it sends, and so no two
streams give it two addresses. -/
theorem untrusted_peer_keeps_address (cfg : Settings) (peer : SocketAddr)
    (hne : cfg.trustedProxies ≠ [])
    (hpeer : ∀ network ∈ cfg.trustedProxies, network peer.ip = false) :
    (∀ s, (∃ e, ((readProxyHeader cfg peer).run s).1 = .error e) ∨
      ((readProxyHeader cfg peer).run s).1 = .ok peer) ∧
    (∀ s addr, ((readProxyHeaderOptional cfg peer).run s).1 ≠ .ok (.found addr)) ∧
    ∀ env : Env, env.config.headers = cfg → ∀ arrivals arrivals',
      (ExceptT.run (Handler.readProxyHeaders env) (.new arrivals peer)).2.addr =
        (ExceptT.run (Handler.readProxyHeaders env) (.new arrivals' peer)).2.addr := by
  have htrusts := Settings.trusts_eq_false hne hpeer
  refine ⟨?_, ?_, ?_⟩
  · intro s
    rw [run_readProxyHeader]
    exact Scanned.strict_untrusted htrusts _
  · intro s addr
    rw [run_readProxyHeaderOptional]
    exact Scanned.optional_untrusted htrusts _
  · rintro env rfl arrivals arrivals'
    rw [Handler.addr_of_untrusted htrusts, Handler.addr_of_untrusted htrusts]
    rfl

theorem untrusted_peer_keeps_address_binary :
    (∃ e, ((readProxyHeader ⟨[fun ip => ip == .v4 1], fun _ => none⟩ ⟨.v4 0, 0⟩).run
      binaryHeader).1 = .error e) ∨
    ((readProxyHeader ⟨[fun ip => ip == .v4 1], fun _ => none⟩ ⟨.v4 0, 0⟩).run binaryHeader).1 =
      .ok ⟨.v4 0, 0⟩ :=
  (untrusted_peer_keeps_address ⟨[fun ip => ip == .v4 1], fun _ => none⟩ ⟨.v4 0, 0⟩
    (List.cons_ne_nil _ _) (by decide)).1 binaryHeader

end Kojacoord
