import Kojacoord.Net.Orders
import Kojacoord.Proxy.Sessions

namespace Kojacoord
open Runs Journal List

def State.standing (s : State) (player : Uuid) : Option (Option String × Bool) :=
  (s.session player).map fun k => (k.currentServer, k.transferred)

def contribution (player : Uuid) (b : ServerId) (ledger : List (Uuid × Tick)) : Int :=
  ledger.count (player, .add b) - ledger.count (player, .sub b)

theorem contribution_append :
    contribution player b (ledger ++ more) =
      contribution player b ledger + contribution player b more := by
  simp only [contribution, count_append]
  omega

theorem contribution_of_others (h : ∀ e ∈ ledger, e.1 ≠ player) :
    contribution player b ledger = 0 := by
  have hcnt (t : Tick) : ledger.count (player, t) = 0 := by
    rw [count_eq_zero]
    intro hmem
    exact h _ hmem rfl
  simp [contribution, hcnt]

def State.Owns (s : State) (c : ConnId) (u : Uuid) : Prop := ∃ k, s.conns[c]? = some k ∧ k.uuid = u

theorem State.Owns.unique {s : State} (h : s.Owns c u) (h' : s.Owns c v) : u = v := by
  obtain ⟨k, hk, rfl⟩ := h
  obtain ⟨k', hk', rfl⟩ := h'
  rw [hk] at hk'
  rw [Option.some.inj hk']

theorem Conn.session_spawn {k : Conn} {o : Op} :
    o.session (k.spawn owner o') = (o.session k).spawn owner o' := by
  cases o <;> rfl

theorem Conn.advance_spawn {k : Conn} {o : Op} :
    (k.spawn owner o).advance r k.ops.length owner o =
      match o.next r k with
      | some o' => (o.session k).spawn owner o'
      | none => o.session k := by
  have hops : (o.session k).ops = k.ops := by cases o <;> rfl
  have hnx : o.next r (k.spawn owner o) = o.next r k := by cases o <;> rfl
  rw [advance, session_spawn, hnx]
  cases o.next r k with
  | some o' => simp [spawn, hops]
  | none =>
    simp only [spawn, eraseIdx_append_of_length_le le_rfl, Nat.sub_self, eraseIdx_zero,
      tail_cons, append_nil]
    rw [← hops]

namespace Shared
variable {cfg : ProxyConfig} {s s' : Shared} {c : ConnId} {u : Uuid} {k : Conn}

/-- Nothing has been worked on but the session of the connection `c`, whose player is `u`. -/
structure Touches (c : ConnId) (u : Uuid) (s s' : Shared) : Prop where
  sessions : s'.proxy.sessions = s.proxy.sessions
  get : ∀ n, s'.proxy.registry.get n = s.proxy.registry.get n
  others : ∀ d, d ≠ c → s'.proxy.conns[d]? = s.proxy.conns[d]?
  owns : s'.proxy.Owns c u
  ledger : ∃ more, s'.ledger = s.ledger ++ more ∧ ∀ e ∈ more, e.1 = u

theorem Touches.refl (h : s.proxy.Owns c u) : Touches c u s s where
  sessions := rfl
  get _ := rfl
  others _ _ := rfl
  owns := h
  ledger := ⟨[], by simp, by simp⟩

theorem Touches.trans (h : Touches c u s s') (h' : Touches c u s' s'') : Touches c u s s'' where
  sessions := h'.sessions.trans h.sessions
  get n := (h'.get n).trans (h.get n)
  others d hd := (h'.others d hd).trans (h.others d hd)
  owns := h'.owns
  ledger := by
    obtain ⟨more, hl, hm⟩ := h.ledger
    obtain ⟨more', hl', hm'⟩ := h'.ledger
    refine ⟨more ++ more', by rw [hl', hl, append_assoc], ?_⟩
    intro e he
    rcases mem_append.mp he with he | he
    · exact hm e he
    · exact hm' e he

theorem Touches.keeps_owner (h : Touches c u s s') (ho : s.proxy.Owns c u)
    (hd : s.proxy.Owns d v) : s'.proxy.Owns d v := by
  by_cases hdc : d = c
  · subst hdc
    rw [← ho.unique hd]
    exact h.owns
  · obtain ⟨k, hk, hv⟩ := hd
    exact ⟨k, (h.others d hdc).trans hk, hv⟩

def Within (s : State) (c : ConnId) : Label → Prop
  | .access d _ => d = c
  | .move d (.stopRelay _) => d = c
  | .transfer player _ _ => s.sessions.lookup player = some c
  | _ => False

theorem touches_perform (hl : Within s.proxy c l) (ho : s.proxy.Owns c u) :
    Touches c u s (s.perform cfg l) := by
  unfold perform
  split
  · rename_i proxy h
    have howns : proxy.Owns c u := by
      obtain ⟨k, hk, rfl⟩ := ho
      exact step_uuid_at h hk
    obtain ⟨k₀, hk₀, hu⟩ := ho
    cases l with
    | access d i =>
      cases hl
      obtain ⟨k, owner, o, hk, ho, rfl⟩ := step_access h
      obtain rfl : k₀ = k := by simpa [hk] using hk₀.symm
      refine ⟨rfl, fun n => ServerRegistry.get_tick, ?_, howns, _, rfl, ?_⟩
      · intro d hd
        exact getElem?_set_ne (.symm hd)
      · intro e he
        simp only [State.accessed, hk, ho] at he
        obtain ⟨t, -, rfl⟩ := by simpa using he
        exact hu
    | move d m =>
      cases m with
      | stopRelay why =>
        cases hl
        obtain ⟨k, k', e, -, hm, rfl⟩ := step_move h
        cases Conn.moves_of_move hm
        refine ⟨rfl, fun n => rfl, ?_, howns, [], rfl, by simp⟩
        intro d hd
        exact getElem?_set_ne (.symm hd)
      | _ => cases hl
    | transfer player server flag =>
      simp only [step, show s.proxy.sessions.lookup player = some c from hl, Option.some.injEq] at h
      subst h
      refine ⟨State.sameMaps_spawn.sessions, fun n => by rw [State.spawn_registry], ?_, howns, [], rfl,
        by simp⟩
      intro d hd
      rw [State.spawn, hk₀]
      exact getElem?_set_ne (.symm hd)
    | _ => cases hl
  · exact .refl ho

theorem touches_accesses (ho : s.proxy.Owns c u) :
    Touches c u s ((List.replicate n (.access c i)).foldl (perform cfg) s) := by
  induction n generalizing s with
  | zero => exact .refl ho
  | succ n ih =>
    have hfst : Touches c u s (s.perform cfg (.access c i)) := touches_perform rfl ho
    exact hfst.trans (ih hfst.owns)

theorem touches_performWhole (hl : Within s.proxy c l) (ho : s.proxy.Owns c u) :
    Touches c u s (s.performWhole cfg l c n) := by
  have hfst : Touches c u s (s.perform cfg l) := touches_perform hl ho
  exact hfst.trans (touches_accesses hfst.owns)

/-- The session of the connection `c` has become that of `k`, after these accesses to counters. -/
def account (s : Shared) (c : ConnId) (k : Conn) (ticks : List Tick) : Shared where
  proxy := { s.proxy with
    conns := s.proxy.conns.set c k
    registry := ticks.foldl (fun r t => r.tick (some t)) s.proxy.registry }
  ledger := s.ledger ++ ticks.map fun t => (k.uuid, t)

theorem get_account : (s.account c k ticks).proxy.registry.get n = s.proxy.registry.get n := by
  have h (r : ServerRegistry) :
      (ticks.foldl (fun r t => r.tick (some t)) r).get n = r.get n := by
    induction ticks generalizing r with
    | nil => rfl
    | cons t ticks ih => rw [foldl_cons, ih, ServerRegistry.get_tick]
  exact h _

theorem account_account (h : k'.uuid = k.uuid) :
    (s.account c k ticks).account c k' ticks' = s.account c k' (ticks ++ ticks') := by
  simp only [account, set_set, foldl_append, map_append, append_assoc, h]

theorem perform_access (hk : s.proxy.conns[c]? = some k) (ho : k.ops[i]? = some (owner, o)) :
    s.perform cfg (.access c i) =
      s.account c (k.advance s.proxy.registry i owner o) (o.tick s.proxy.registry k).toList := by
  simp only [perform, step, hk, ho, State.accessed, account, Conn.uuid_advance]
  cases o.tick s.proxy.registry k <;> rfl

theorem tick_account {o : Op} (ht : ∀ r, r.get = s.proxy.registry.get → o.tick r k = t) :
    o.tick (s.account c (k.spawn owner o) ticks).proxy.registry (k.spawn owner o) = t := by
  have h := ht (s.account c (k.spawn owner o) ticks).proxy.registry (funext fun n => get_account)
  rw [← h]
  cases o <;> rfl

theorem perform_account {o : Op} (next : Option Op) (hc : c < s.proxy.conns.length)
    (hn : ∀ r, o.next r k = next)
    (ht : ∀ r, r.get = s.proxy.registry.get → o.tick r k = t) :
    (s.account c (k.spawn owner o) ticks).perform cfg (.access c k.ops.length) =
      s.account c (next.elim (o.session k) ((o.session k).spawn owner)) (ticks ++ t.toList) := by
  have hk : (s.account c (k.spawn owner o) ticks).proxy.conns[c]? = some (k.spawn owner o) :=
    getElem?_set_self hc
  rw [perform_access hk getElem?_concat_length, tick_account ht, Conn.advance_spawn, hn,
    account_account]
  · cases next <;> rfl
  · cases next <;> cases o <;> rfl

theorem performWhole_transfer (hl : s.proxy.sessions.lookup player = some c)
    (hk : s.proxy.conns[c]? = some k) :
    s.performWhole cfg (.transfer player server true) c 4 =
      s.account c { k with currentServer := some server, transferred := true }
        (((k.currentServer.bind s.proxy.registry.get).map .sub).toList ++
          ((s.proxy.registry.get server).map .add).toList) := by
  have hc := (List.getElem?_eq_some_iff.mp hk).1
  have hst : s.perform cfg (.transfer player server true) =
      s.account c (k.spawn .handler (.release server true)) [] := by
    simp [perform, step, hl, State.spawn, hk, State.accessed, account, State.setConn]
  let old := (k.currentServer.bind s.proxy.registry.get).map Tick.sub
  let new := (s.proxy.registry.get server).map Tick.add
  let k' := { k with currentServer := some server }
  have hrel : (s.account c (k.spawn .handler (.release server true)) []).perform cfg
      (.access c k.ops.length) = s.account c (k.spawn .handler (.credit server true)) old.toList :=
    perform_account (some _) hc (fun _ => rfl) fun r hr => by rw [Op.tick, hr]
  have hcre : (s.account c (k.spawn .handler (.credit server true)) old.toList).perform cfg
      (.access c k.ops.length) =
        s.account c (k.spawn .handler (.write server true)) (old.toList ++ new.toList) :=
    perform_account (some _) hc (fun _ => rfl) fun r hr => by rw [Op.tick, hr]
  have hwr (ticks : List Tick) :
      (s.account c (k.spawn .handler (.write server true)) ticks).perform cfg
        (.access c k.ops.length) = s.account c (k'.spawn .handler .setTransferred) (ticks ++ []) :=
    perform_account (t := none) (some _) hc (fun _ => rfl) fun _ _ => rfl
  have hset (ticks : List Tick) :
      (s.account c (k'.spawn .handler .setTransferred) ticks).perform cfg (.access c k.ops.length) =
        s.account c { k' with transferred := true } (ticks ++ []) :=
    perform_account (t := none) none hc (fun _ => rfl) fun _ _ => rfl
  have hi : s.nextOp c = k.ops.length := by simp [nextOp, hk]
  simp only [performWhole, hi, List.replicate, foldl_cons, foldl_nil, hst, hrel,
    hcre, hwr, hset, append_nil]
  rfl

end Shared

def State.seat (s : State) (player : Uuid) : Option ServerId :=
  ((s.standing player).bind fun standing => standing.1).bind s.registry.get

def Shared.excess (s : Shared) (player : Uuid) (b : ServerId) : Int :=
  contribution player b s.ledger - if s.proxy.seat player = some b then 1 else 0

def transferTo (server : String) (standing : Option (Option String × Bool)) :
    Option (Option String × Bool) := standing.map fun _ => (some server, true)

namespace Shared
variable {s s' : Shared} {player u : Uuid} {c : ConnId} {k : Conn}

/-- As far as this player is concerned, the accesses since `s` were transfers to these servers. -/
structure Follows (player : Uuid) (servers : List String) (s s' : Shared) : Prop where
  sessions : s'.proxy.sessions = s.proxy.sessions
  get : s'.proxy.registry.get = s.proxy.registry.get
  owns : ∀ c u, s.proxy.Owns c u → s'.proxy.Owns c u
  standing : s'.proxy.standing player =
    servers.foldl (fun standing server => transferTo server standing) (s.proxy.standing player)
  excess : ∀ b, s'.excess player b = s.excess player b

theorem Follows.refl : Follows player [] s s := ⟨rfl, rfl, fun _ _ h => h, rfl, fun _ => rfl⟩

theorem Follows.trans (h : Follows player servers s s') (h' : Follows player servers' s' s'') :
    Follows player (servers ++ servers') s s'' where
  sessions := h'.sessions.trans h.sessions
  get := h'.get.trans h.get
  owns c u ho := h'.owns c u (h.owns c u ho)
  standing := by rw [h'.standing, h.standing, foldl_append]
  excess b := (h'.excess b).trans (h.excess b)

theorem Follows.indexed (h : Follows player servers s s') (hs : s.proxy.Indexed) :
    s'.proxy.Indexed := by
  intro v c hc
  rw [h.sessions] at hc
  exact h.owns c v (hs v c hc)

theorem Touches.follows (h : Touches c u s s') (hs : s.proxy.Indexed) (ho : s.proxy.Owns c u)
    (hne : u ≠ player) : Follows player [] s s' := by
  have hses : s'.proxy.session player = s.proxy.session player := by
    simp only [State.session, h.sessions]
    cases hl : s.proxy.sessions.lookup player with
    | none => rfl
    | some d =>
      apply h.others
      intro hd
      subst hd
      exact hne (ho.unique (hs player d hl))
  have hsta : s'.proxy.standing player = s.proxy.standing player := by
    rw [State.standing, State.standing, hses]
  have hseat : s'.proxy.seat player = s.proxy.seat player := by
    rw [State.seat, State.seat, hsta, funext h.get]
  refine ⟨h.sessions, funext h.get, fun _ _ => h.keeps_owner ho, hsta, ?_⟩
  intro b
  obtain ⟨more, hl, hmo⟩ := h.ledger
  have hoth : contribution player b more = 0 := by
    apply contribution_of_others
    intro e he
    rw [hmo e he]
    exact hne
  rw [excess, excess, hl, contribution_append, hoth, hseat, Int.add_zero]

theorem contribution_transfer :
    contribution u b (((old.map Tick.sub).toList ++ (new.map Tick.add).toList).map fun t => (u, t)) =
      (if new = some b then 1 else 0) - if old = some b then 1 else 0 := by
  have hcast (p : Prop) [Decidable p] :
      ((if p then 1 else 0 : Nat) : Int) = if p then 1 else 0 := by
    split <;> rfl
  cases old <;> cases new <;> simp [contribution, count_cons, hcast]

theorem follows_transfer (hs : s.proxy.Indexed) (hl : s.proxy.sessions.lookup player = some c) :
    Follows player [server] s (s.performWhole cfg (.transfer player server true) c 4) := by
  obtain ⟨k, hk, hu⟩ := hs player c hl
  have hc := (List.getElem?_eq_some_iff.mp hk).1
  have htou : Touches c player s (s.performWhole cfg (.transfer player server true) c 4) :=
    touches_performWhole hl ⟨k, hk, hu⟩
  have hses : s.proxy.session player = some k := by simp [State.session, hl, hk]
  rw [performWhole_transfer hl hk] at htou ⊢
  let k' := { k with currentServer := some server, transferred := true }
  have hses' (ticks : List Tick) : (s.account c k' ticks).proxy.session player = some k' := by
    simp [State.session, account, hl, getElem?_set_self hc]
  refine ⟨htou.sessions, funext htou.get, fun _ _ => htou.keeps_owner ⟨k, hk, hu⟩, ?_, ?_⟩
  · rw [State.standing, hses', State.standing, hses]
    rfl
  · intro b
    have hseat : s.proxy.seat player = k.currentServer.bind s.proxy.registry.get := by
      rw [State.seat, State.standing, hses]
      rfl
    have hseat' (ticks : List Tick) :
        (s.account c k' ticks).proxy.seat player = s.proxy.registry.get server := by
      rw [State.seat, State.standing, hses']
      exact get_account
    rw [excess, excess, hseat, hseat']
    simp only [account, contribution_append]
    rw [hu, contribution_transfer]
    omega

def ordered (player : Uuid) : Option (String × Uuid) → List String
  | none => []
  | some (server, uuid) => if uuid = player then [server] else []

theorem follows_obey (hs : s.proxy.Indexed) :
    Follows player (ordered player order) s (s.obey cfg order) := by
  match order with
  | none => exact .refl
  | some (server, uuid) =>
    simp only [ordered, obey]
    cases hl : s.proxy.sessions.lookup uuid with
    | none =>
      split
      · rename_i he
        subst he
        refine ⟨rfl, rfl, fun _ _ h => h, ?_, fun _ => rfl⟩
        simp [State.standing, State.session, hl, transferTo]
      · exact .refl
    | some c =>
      split
      · rename_i he
        subst he
        exact follows_transfer hs hl
      · rename_i hne
        have ho := hs uuid c hl
        have htou : Touches c uuid s (s.performWhole cfg (.transfer uuid server true) c 4) :=
          touches_performWhole hl ho
        exact htou.follows hs ho hne

theorem follows_exit (hs : s.proxy.Indexed) (ho : s.proxy.Owns env.conn env.uuid)
    (hne : env.uuid ≠ player) : Follows player [] s (s.exit env why) := by
  have htou : Touches env.conn env.uuid s (s.exit env why) := touches_performWhole rfl ho
  exact htou.follows hs ho hne

end Shared

def Relay.orders (env : RelayEnv) (player : Uuid) (r : Relay) : List (List UInt8) → List String
  | [] => []
  | payload :: rest =>
    let servers := Shared.ordered player (env.order r.events payload)
    match ExceptT.run (RelayM.iteration env payload) r with
    | (.ok .continue, r') => servers ++ r'.orders env player rest
    | _ => servers

theorem follows_c2s {env : RelayEnv} {r : Relay} (hs : r.shared.proxy.Indexed) : Shared.Follows player (r.orders env player packets) r.shared
      (ExceptT.run (RelayM.c2s env packets) r).2.shared := by
  induction packets generalizing r with
  | nil => exact .refl
  | cons payload rest ih =>
    have hrd : Shared.Follows player (Shared.ordered player (env.order r.events payload)) r.shared
        (ExceptT.run (RelayM.iteration env payload) r).2.shared := by
      rw [RelayM.shared_iteration]
      exact Shared.follows_obey hs
    rw [RelayM.shared_c2s_cons]
    unfold Relay.orders
    rcases h : ExceptT.run (RelayM.iteration env payload) r with ⟨outcome, r'⟩
    rw [h] at hrd
    cases outcome with
    | error e => exact hrd
    | ok flow =>
      cases flow with
      | finish => exact hrd
      | «continue» => exact hrd.trans (ih (hrd.indexed hs))

variable {packets : List (List UInt8)}

theorem follows_relay {env : RelayEnv} {s : Shared} (hs : s.proxy.Indexed)
    (ho : s.proxy.Owns env.conn env.uuid) (hne : env.uuid ≠ player) (packets : List (List UInt8)) :
    Shared.Follows player ((Relay.start s).orders env player packets) s (s.relay env packets) := by
  have hlp : Shared.Follows player ((Relay.start s).orders env player packets) s
      (ExceptT.run (RelayM.c2s env packets) (.start s)).2.shared :=
    follows_c2s (r := .start s) hs
  rcases Shared.relay_cases env s packets with h | ⟨why, h⟩
  · rw [h]
    exact hlp
  · rw [h, ← append_nil (Relay.orders ..)]
    exact hlp.trans (Shared.follows_exit (hlp.indexed hs) (hlp.owns _ _ ho) hne)

theorem foldl_transferTo (servers : List String) :
    servers.foldl (fun standing server => transferTo server standing) standing =
      match servers.getLast? with
      | some server => transferTo server standing
      | none => standing := by
  induction servers using List.reverseRecOn with
  | nil => rfl
  | append_singleton servers server ih =>
    rw [foldl_append, ih, getLast?_concat]
    cases servers.getLast? with
    | none => rfl
    | some last => cases standing <;> rfl

namespace Shared

def Reaches (cfg : ProxyConfig) (s s' : Shared) : Prop :=
  Run (step cfg) (fun _ _ => True) s.proxy s'.proxy

variable {s : Shared}

theorem reaches_performAll (s : Shared) (labels : List Label) :
    Reaches cfg s (labels.foldl (perform cfg) s) := by
  induction labels generalizing s with
  | nil => exact .refl
  | cons l labels ih =>
    have hfst : Reaches cfg s (s.perform cfg l) := by
      unfold perform
      split
      · rename_i proxy h
        exact .tail .refl trivial h
      · exact .refl
    exact .trans hfst (ih _)

theorem reaches_obey : Reaches cfg s (s.obey cfg order) := by
  unfold obey
  split
  · exact .refl
  · split
    · exact reaches_performAll s _
    · exact .refl

end Shared

theorem reaches_c2s {env : RelayEnv} (r : Relay) :
    Shared.Reaches env.config r.shared (ExceptT.run (RelayM.c2s env packets) r).2.shared := by
  induction packets generalizing r with
  | nil => exact Run.refl
  | cons payload rest ih =>
    have hrd : Shared.Reaches env.config r.shared
        (ExceptT.run (RelayM.iteration env payload) r).2.shared := by
      rw [RelayM.shared_iteration]
      exact Shared.reaches_obey
    rw [RelayM.shared_c2s_cons]
    rcases h : ExceptT.run (RelayM.iteration env payload) r with ⟨outcome, r'⟩
    rw [h] at hrd
    cases outcome with
    | error e => exact hrd
    | ok flow =>
      cases flow with
      | finish => exact hrd
      | «continue» => exact Run.trans hrd (ih r')

/-- All that a relay does to the proxy are steps of the proxy, so what holds in every reachable
state holds after it. -/
theorem reaches_relay (env : RelayEnv) : Shared.Reaches env.config s (s.relay env packets) := by
  have hlp : Shared.Reaches env.config s
      (ExceptT.run (RelayM.c2s env packets) (.start s)).2.shared := reaches_c2s (.start s)
  rcases Shared.relay_cases env s packets with h | ⟨why, h⟩
  · rw [h]
    exact hlp
  · rw [h]
    exact Run.trans hlp (Shared.reaches_performAll _ _)

structure Isolated (player : Uuid) (s s' : Shared) : Prop where
  standing : s'.proxy.standing player = s.proxy.standing player
  contribution : ∀ b, contribution player b s'.ledger = contribution player b s.ledger

def State.Heeds (s : State) (player : Uuid) (servers : List String) : Prop :=
  ∀ server ∈ servers.getLast?, s.standing player = none ∨
    s.standing player = some (some server, true)

instance (s : State) (player : Uuid) (servers : List String) : Decidable (s.Heeds player servers) :=
  inferInstanceAs (Decidable (∀ _ ∈ _, _))

theorem Shared.Follows.isolated {s s' : Shared} (h : Follows player servers s s')
    (hsta : s'.proxy.standing player = s.proxy.standing player) : Isolated player s s' := by
  refine ⟨hsta, ?_⟩
  intro b
  have hexcess := h.excess b
  have hseat : s'.proxy.seat player = s.proxy.seat player := by
    rw [State.seat, State.seat, hsta, h.get]
  rw [Shared.excess, Shared.excess, hseat] at hexcess
  omega

/-- For every reachable state and all that a client may send: its relay leaves another player alone
exactly when the last `ConnectOther` for that player, if any, names the server it has been
transferred to already. -/
theorem isolated_iff_heeds {env : RelayEnv} {s : State}
    (h : Run (step env.config) (fun _ _ => True) (.start env.config r gs) s)
    (hrelay : s.Owns env.conn env.uuid) (hne : env.uuid ≠ player)
    (history : List (Uuid × Tick)) (packets : List (List UInt8)) :
    Isolated player (Shared.relay env ⟨s, history⟩ []) (Shared.relay env ⟨s, history⟩ packets) ↔
      s.Heeds player ((Relay.start ⟨s, history⟩).orders env player packets) := by
  have hfollows := follows_relay (s := ⟨s, history⟩) (indexed_of_run h) hrelay hne packets
  generalize (Relay.start ⟨s, history⟩).orders env player packets = servers at hfollows ⊢
  generalize Shared.relay env ⟨s, history⟩ packets = s' at hfollows ⊢
  have hstanding := hfollows.standing
  rw [foldl_transferTo] at hstanding
  change Isolated player ⟨s, history⟩ s' ↔ _
  unfold State.Heeds
  constructor
  · intro hisolated server hserver
    rw [Option.mem_def.mp hserver] at hstanding
    have hsame := hstanding.symm.trans hisolated.standing
    cases hs : s.standing player with
    | none => exact .inl rfl
    | some standing =>
      simp only [hs, transferTo, Option.map_some] at hsame
      exact .inr hsame.symm
  · intro hheeds
    apply hfollows.isolated
    rw [hstanding]
    cases hlast : servers.getLast? with
    | none => rfl
    | some server =>
      rcases hheeds server hlast with hs | hs <;> simp [hs, transferTo]

def lobbyRelay : RelayEnv where
  config := lobbyConfig
  conn := 0
  uuid := 1
  username := "Alex"
  protocol := 765
  backendProtocol := 765
  chatSigningTranslation := false
  cookiesTransfersPassthrough := false
  sbPlay name := if name = "ServerboundPluginMessage" then 0x10 else 0xFF
  subscribesMove := false
  results _ _ := []
  transfer := { parseJson := fun _ => none, parseUuid := fun _ => some 2 }
  commands :=
    { lowercase := fun s => s, pluginCommand := fun _ _ => none, report := fun _ _ => [] }
  stripChatSignature payload := .ok payload
  cfgPackets := .ok []
  serverlistPayload _ := []
  playerNames := []
  redText text := text
  clientError _ := none
  backendError _ := none

def lobbyPlayers : List Label :=
  [.accept 1 (.v4 1) 765] ++ joinMoves 0 ++ [.move 0 (.startRelay true)] ++
    ([.accept 2 (.v4 2) 765] ++ joinMoves 1 ++ [.move 1 (.startRelay true)])

def connectOtherPacket : List UInt8 :=
  [0x10, 10] ++ "BungeeCord".toUTF8.data.toList ++ [0, 12] ++ "ConnectOther".toUTF8.data.toList ++
    [0, 4] ++ "game".toUTF8.data.toList ++ [0, 1] ++ "2".toUTF8.data.toList

theorem isolated_transferred : ∃ s,
    Run (step lobbyConfig) (fun _ _ => True) (.start lobbyConfig (lobbyFor 2) ∅) s ∧
      (Relay.start ⟨s, []⟩).orders lobbyRelay 2 [connectOtherPacket] = ["game"] ∧
      Isolated 2 (Shared.relay lobbyRelay ⟨s, []⟩ [])
        (Shared.relay lobbyRelay ⟨s, []⟩ [connectOtherPacket]) := by
  have hrun : Run (step lobbyRelay.config) (fun _ _ => True)
      (.start lobbyRelay.config (lobbyFor 2) ∅) _ :=
    Run.of_exec (lobbyPlayers ++ [.transfer 2 "game" true, .access 1 0, .access 1 0, .access 1 0,
      .access 1 0]) rfl
  refine ⟨_, hrun, by decide +kernel, ?_⟩
  apply (isolated_iff_heeds hrun ⟨_, rfl, rfl⟩ (by decide) [] [connectOtherPacket]).mpr
  decide +kernel

/-- A player moves another one to a server that does not even exist. -/
theorem not_isolated : ¬ ∀ (env : RelayEnv) (r : ServerRegistry) (gs : FailoverGroups) (s : State)
    (player : Uuid) (history : List (Uuid × Tick)) (packets : List (List UInt8)),
    Run (step env.config) (fun _ _ => True) (.start env.config r gs) s →
    s.Owns env.conn env.uuid → env.uuid ≠ player →
      Isolated player (Shared.relay env ⟨s, history⟩ []) (Shared.relay env ⟨s, history⟩ packets) := by
  intro h
  have hrun : Run (step lobbyRelay.config) (fun _ _ => True)
      (.start lobbyRelay.config (lobbyFor 2) ∅) _ := Run.of_exec lobbyPlayers rfl
  have hisolated := h lobbyRelay _ _ _ 2 [] [connectOtherPacket] hrun ⟨_, rfl, rfl⟩ (by decide)
  exact absurd hisolated.standing (by decide +kernel)

end Kojacoord
