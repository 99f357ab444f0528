import Kojacoord.Net.AcceptFilters
import Kojacoord.Net.HeaderReaders
import Kojacoord.Net.Identity

namespace Kojacoord
open Journal ProxyProtocol TokenBucket

structure Gate where
  throttle : ConnectionThrottle
  reputation : IpReputationFilter

inductive Screening where
  | throttled (ip : IpAddr) (verdict : Except String Unit)
  | vetted (ip : IpAddr) (verdict : Except String Unit)

structure Visit where
  gate : Gate
  asked : List Screening

structure Screener where
  clock : Nat → Nat
  query : String → IpAddr → Bool

namespace Screener
variable (screener : Screener) (env : Env)

def throttle (ip : IpAddr) : Filter ConnectionThrottle Unit :=
  ConnectionThrottle.check ip (screener.clock 0) (screener.clock 1)

def vet (ip : IpAddr) : Filter IpReputationFilter Unit :=
  IpReputationFilter.check env.config.headers.parseIp screener.query ip (screener.clock 2)
    (screener.clock 3)

def askThrottle (ip : IpAddr) : Filter Visit Unit := fun v =>
  let (verdict, throttle) := (screener.throttle ip).run v.gate.throttle
  (verdict, { gate := { v.gate with throttle }, asked := v.asked ++ [.throttled ip verdict] })

def askReputation (ip : IpAddr) : Filter Visit Unit := fun v =>
  let (verdict, reputation) := (screener.vet env ip).run v.gate.reputation
  (verdict, { gate := { v.gate with reputation }, asked := v.asked ++ [.vetted ip verdict] })

def accept (peer : SocketAddr) : Filter Visit Unit := do
  screener.askThrottle peer.ip
  screener.askReputation env peer.ip

def handshakeStart (gate : Gate) (peer : SocketAddr) (arrivals : List Arrival) :
    Option Client × Visit :=
  match (screener.accept env peer).run ⟨gate, []⟩ with
  | (.error _, visit) => (none, visit)
  | (.ok (), visit) =>
    match ExceptT.run (Handler.readProxyHeaders env) (.new arrivals peer) with
    | (.ok (), c) => (some c, visit)
    | (.error _, _) => (none, visit)

def Refuses (gate : Gate) (ip : IpAddr) : Prop :=
  ((screener.throttle ip).run gate.throttle).1 ≠ .ok () ∨
    ((screener.vet env ip).run gate.reputation).1 ≠ .ok ()

end Screener

structure Screened (env : Env) (gate : Gate) (visit : Visit) (ip : IpAddr) : Prop where
  clear : ∀ cidr ∈ gate.reputation.blocklistCidrs,
    cidrMatches env.config.headers.parseIp cidr ip = false
  admitted : .throttled ip (.ok ()) ∈ visit.asked
  charged : ∀ other, other ≠ ip →
    ipRules.Spares gate.throttle.ipRecords visit.gate.throttle.ipRecords other

theorem Handler.run_readProxyHeaders_of_header {source : SocketAddr}
    (hpx : env.config.proxyProtocol = true) (htru : env.config.headers.trusts peer = true)
    (hhdr : ((readProxyHeader env.config.headers peer).run (.plain arrivals)).1 = .ok source) :
    ∃ c, ExceptT.run (readProxyHeaders env) (.new arrivals peer) = (.ok (), c) ∧
      c.addr = source := by
  have hstrm : ({ (Client.new arrivals peer).stream with budget := none } : McStream) =
      .plain arrivals := rfl
  rw [run_readProxyHeader] at hhdr
  have hfd := (Scanned.agree htru _).mpr hhdr
  generalize hscan : scan env.config.headers (.plain arrivals) = result at hhdr hfd
  dsimp only at hhdr hfd
  cases hopt : env.config.proxyProtocolOptional with
  | true =>
    rw [run_readProxyHeaders_optional hpx hopt, hstrm, hscan]
    dsimp only [Client.new]
    rw [hfd]
    exact ⟨_, rfl, rfl⟩
  | false =>
    rw [run_readProxyHeaders_strict hpx hopt, hstrm, hscan]
    dsimp only [Client.new]
    rw [hhdr]
    exact ⟨_, rfl, rfl⟩

theorem ConnectionThrottle.run_check (ip : IpAddr) (now later : Nat) (t : ConnectionThrottle) :
    (check ip now later).run t =
      if 0 < t.maxPerIp then (checkIp ip now).run t else (.ok (), t) := by
  have hasn (u : ConnectionThrottle) : (do
      if 0 < (← get).maxPerAsn then return () : Filter ConnectionThrottle Unit).run u =
      (.ok (), u) := by
    rw [run_bind_ok _ (run_get u)]
    split <;> rfl
  rw [check, run_bind_ok _ (run_get t)]
  by_cases hip : 0 < t.maxPerIp
  · simp only [if_pos hip]
    rw [run_bind]
    rcases (checkIp ip now).run t with ⟨result, u⟩
    cases result with
    | ok _ => exact hasn u
    | error e => rfl
  · simp only [if_neg hip]
    exact hasn t

theorem ConnectionThrottle.spares_check (ip : IpAddr) (now later : Nat) (t : ConnectionThrottle) (hne : other ≠ ip) :
    ipRules.Spares t.ipRecords ((check ip now later).run t).2.ipRecords other := by
  rw [run_check]
  split
  · exact Rules.spares_check now ip t.ipRecords hne
  · exact .refl _ other

theorem IpReputationFilter.blocks_of_check {f : IpReputationFilter}
    (h : ((check parseIp query ip now later).run f).1 = .ok ()) : f.blocks parseIp ip = false := by
  by_contra hblo
  rw [Bool.not_eq_false] at hblo
  rw [check, run_bind_ok _ (run_get f)] at h
  simp only [if_pos hblo] at h
  cases h

namespace Screener
variable {screener : Screener} {env : Env} {gate : Gate} {peer : SocketAddr}

theorem run_accept (screener : Screener) (env : Env) (gate : Gate) (peer : SocketAddr) :
    (screener.accept env peer).run ⟨gate, []⟩ =
      match (screener.throttle peer.ip).run gate.throttle with
      | (.error e, throttle) =>
        (.error e, ⟨{ gate with throttle }, [.throttled peer.ip (.error e)]⟩)
      | (.ok (), throttle) =>
        match (screener.vet env peer.ip).run gate.reputation with
        | (verdict, reputation) => (verdict, ⟨{ throttle, reputation },
            [.throttled peer.ip (.ok ()), .vetted peer.ip verdict]⟩) := by
  have hthr : (screener.askThrottle peer.ip).run ⟨gate, []⟩ =
      match (screener.throttle peer.ip).run gate.throttle with
      | (verdict, throttle) => (verdict, ⟨{ gate with throttle }, [.throttled peer.ip verdict]⟩) :=
    rfl
  rw [accept, run_bind, hthr]
  rcases (screener.throttle peer.ip).run gate.throttle with ⟨verdict, throttle⟩
  cases verdict <;> rfl

theorem accept_ok (h : ¬screener.Refuses env gate peer.ip) :
    (screener.accept env peer).run ⟨gate, []⟩ =
      (.ok (), ⟨⟨((screener.throttle peer.ip).run gate.throttle).2,
          ((screener.vet env peer.ip).run gate.reputation).2⟩,
        [.throttled peer.ip (.ok ()), .vetted peer.ip (.ok ())]⟩) := by
  rw [Refuses, not_or, not_not, not_not] at h
  obtain ⟨hthr, hvet⟩ := h
  rw [run_accept]
  generalize (screener.throttle peer.ip).run gate.throttle = throttled at hthr ⊢
  generalize (screener.vet env peer.ip).run gate.reputation = vetted at hvet ⊢
  obtain ⟨verdict, throttle⟩ := throttled
  obtain ⟨verdict', reputation⟩ := vetted
  cases hthr
  cases hvet
  rfl

theorem accept_refused (h : screener.Refuses env gate peer.ip) :
    ∃ e visit, (screener.accept env peer).run ⟨gate, []⟩ = (.error e, visit) := by
  rw [Refuses] at h
  rw [run_accept]
  generalize (screener.throttle peer.ip).run gate.throttle = throttled at h ⊢
  generalize (screener.vet env peer.ip).run gate.reputation = vetted at h ⊢
  obtain ⟨e | _, throttle⟩ := throttled
  · exact ⟨_, _, rfl⟩
  · obtain ⟨e | _, reputation⟩ := vetted
    · exact ⟨_, _, rfl⟩
    · rcases h with h | h <;> exact absurd rfl h

end Screener

/-- The filters judge a connection by the client it comes from exactly where that is the address of
the peer. -/
theorem filters_see_client_iff (env : Env) (screener : Screener) (gate : Gate)
    (peer source : SocketAddr) (arrivals : List Arrival)
    (hproxy : env.config.proxyProtocol = true) (htrusts : env.config.headers.trusts peer = true)
    (hheader : ((readProxyHeader env.config.headers peer).run (.plain arrivals)).1 = .ok source) :
    ((screener.handshakeStart env gate peer arrivals).1.isSome →
      Screened env gate (screener.handshakeStart env gate peer arrivals).2 source.ip) ↔
        screener.Refuses env gate peer.ip ∨ source.ip = peer.ip := by
  obtain ⟨c, hheaders, -⟩ := Handler.run_readProxyHeaders_of_header hproxy htrusts hheader
  by_cases hrefuses : screener.Refuses env gate peer.ip
  · obtain ⟨e, visit, haccept⟩ := Screener.accept_refused hrefuses
    rw [Screener.handshakeStart, haccept]
    exact ⟨fun _ => .inl hrefuses, fun _ h => nomatch h⟩
  · rw [Screener.handshakeStart, Screener.accept_ok hrefuses, hheaders]
    constructor
    · intro h
      have hadmitted := (h rfl).admitted
      simp only [List.mem_cons, Screening.throttled.injEq, reduceCtorEq, List.not_mem_nil, or_false,
        and_true] at hadmitted
      exact .inr hadmitted
    · rintro (hrefused | hsource) -
      · exact absurd hrefused hrefuses
      · rw [Screener.Refuses, not_or, not_not, not_not] at hrefuses
        have hclear := IpReputationFilter.blocks_of_check hrefuses.2
        rw [IpReputationFilter.blocks, List.any_eq_false] at hclear
        rw [hsource]
        refine ⟨?_, List.mem_cons_self .., ?_⟩
        · intro cidr hcidr
          exact Bool.eq_false_iff.mpr (hclear cidr hcidr)
        · intro other hne
          exact ConnectionThrottle.spares_check peer.ip _ _ gate.throttle hne

def balancedEnv : Env :=
  { onlineEnv with config := { onlineEnv.config with
    proxyProtocol := true
    headers := {
      trustedProxies := []
      parseIp := fun text => if text = "1.2.3.4" then some (.v4 0x01020304) else none } } }

def balancedGate : Gate where
  throttle := ⟨∅, ∅, 8, 0⟩
  reputation := .new ⟨["1.2.3.4"], none, 3600⟩

def openGate : Gate := { balancedGate with reputation := .new ⟨[], none, 3600⟩ }

def balancedScreener : Screener := ⟨fun _ => 0, fun _ _ => false⟩

def headerSource : SocketAddr := ⟨.v4 0x01020304, 80⟩

theorem filters_see_client_direct :
    ((balancedScreener.handshakeStart balancedEnv openGate headerSource
      binaryHeader.arrivals).1.map Client.addr) = some headerSource ∧
    Screened balancedEnv openGate (balancedScreener.handshakeStart balancedEnv openGate
      headerSource binaryHeader.arrivals).2 headerSource.ip := by
  have hheader : ((readProxyHeader balancedEnv.config.headers headerSource).run
      (.plain binaryHeader.arrivals)).1.toOption = some headerSource := by decide +kernel
  refine ⟨by decide +kernel, (filters_see_client_iff balancedEnv balancedScreener openGate
    headerSource headerSource binaryHeader.arrivals rfl rfl ?_).mpr (.inr rfl) (by decide +kernel)⟩
  generalize ((readProxyHeader balancedEnv.config.headers headerSource).run
      (.plain binaryHeader.arrivals)).1 = result at hheader ⊢
  cases result <;> cases hheader
  rfl

/-- Behind a balancer a blocked client gets in, and the balancer pays for it. -/
theorem blocked_client_admitted :
    cidrMatches balancedEnv.config.headers.parseIp "1.2.3.4" headerSource.ip = true ∧
    ((balancedScreener.handshakeStart balancedEnv balancedGate clientAddr
      binaryHeader.arrivals).1.map Client.addr) = some headerSource ∧
    ¬Screened balancedEnv balancedGate (balancedScreener.handshakeStart balancedEnv balancedGate
      clientAddr binaryHeader.arrivals).2 headerSource.ip := by
  have hmatches :
      cidrMatches balancedEnv.config.headers.parseIp "1.2.3.4" headerSource.ip = true :=
    by decide +kernel
  refine ⟨hmatches, by decide +kernel, ?_⟩
  intro hscreened
  have hclear := hscreened.clear "1.2.3.4" (List.mem_cons_self ..)
  rw [hmatches] at hclear
  cases hclear

end Kojacoord
