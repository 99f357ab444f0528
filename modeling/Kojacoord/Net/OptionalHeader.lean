import Kojacoord.Net.FirstPacket

namespace Kojacoord
open Journal ProxyProtocol

def Env.direct (env : Env) : Env :=
  { env with config := { env.config with proxyProtocol := false } }

def bytesSeen (env : Env) (arrivals : List Arrival) (peer : SocketAddr) : Option (List UInt8) :=
  match ExceptT.run (Handler.readProxyHeaders env) (.new arrivals peer) with
  | (.ok (), c) => some c.stream.available
  | (.error _, _) => none

/-- The handling of a connection does not show that a header was looked for. -/
structure Transparent (env : Env) (arrivals : List Arrival) (peer : SocketAddr) : Prop where
  bytes : bytesSeen env arrivals peer = bytesSeen env.direct arrivals peer
  journal : connectionJournal env arrivals peer = connectionJournal env.direct arrivals peer

variable {peer : SocketAddr}

theorem bytesSeen_direct (env : Env) (arrivals : List Arrival) :
    bytesSeen env.direct arrivals peer = some (Arrival.available arrivals) := by
  rfl

theorem scan_takes (cfg : Settings) (hfw : s.Flowing) (hs : s.available ≠ [])
    (hr : (scan cfg s).1.optional cfg peer = .ok result) :
    (scan cfg s).2.available ≠ s.available := by
  by_cases hsh : s.available.length < 6
  · obtain ⟨t, hrun, ht⟩ := Reader.readExact_end hfw hsh
    have hscan : (scan cfg s).2 = t := by rw [scan, hrun]
    rw [hscan, ht]
    exact hs.symm
  · have hacc := scan_accounts cfg s
    intro hsm
    have hno : ∀ bytes : List UInt8,
        ¬(s.available = bytes ++ (scan cfg s).2.available ∧ 6 ≤ bytes.length) := by
      rintro bytes ⟨hbs, hsix⟩
      have hlen := congrArg List.length hbs
      rw [hsm, List.length_append] at hlen
      omega
    generalize (scan cfg s).1 = r at hacc hr
    cases r with
    | address addr bytes | other bytes complaint => exact hno bytes hacc
    | short stop => exact hsh hacc
    | failed stop => cases hr

theorem available_eq_nil
    (h : ∀ arrival ∈ arrivals, ∃ first rest, arrival = Arrival.bytes first rest) :
    Arrival.available arrivals = [] ↔ arrivals = [] := by
  constructor
  · intro hemp
    cases arrivals with
    | nil => rfl
    | cons arrival arrivals =>
      obtain ⟨first, rest, rfl⟩ := h arrival (List.mem_cons_self ..)
      cases hemp
  · rintro rfl
    rfl

theorem bytesSeen_optional (hpx : env.config.proxyProtocol = true)
    (hopt : env.config.proxyProtocolOptional = true) :
    bytesSeen env arrivals peer =
      match (scan env.config.headers (.plain arrivals)).1.optional env.config.headers peer with
      | .ok _ => some (scan env.config.headers (.plain arrivals)).2.available
      | .error _ => none := by
  rw [bytesSeen, Handler.run_readProxyHeaders_optional hpx hopt]
  have hstrm : ({ (Client.new arrivals peer).stream with budget := none } : McStream) =
      .plain arrivals := rfl
  rw [hstrm]
  rcases scan env.config.headers (.plain arrivals) with ⟨r, t⟩
  dsimp only [Client.new]
  rcases r.optional env.config.headers peer with e | result
  · rfl
  · cases result <;> rfl

theorem readProxyHeaders_nil (hpx : env.config.proxyProtocol = true)
    (hopt : env.config.proxyProtocolOptional = true) :
    ExceptT.run (Handler.readProxyHeaders env) (.new [] peer) = (.ok (), .new [] peer) := by
  rw [Handler.run_readProxyHeaders_optional hpx hopt]
  rfl

theorem connectionJournal_nil
    (h : ExceptT.run (Handler.readProxyHeaders env) (.new [] peer) = (.ok (), .new [] peer)) :
    connectionJournal env [] peer = [] := by
  rw [connectionJournal, Handler.run, run_tryCatch, Handler.runInner, run_bind_ok _ h]
  rfl

/-- The search for an optional header goes unnoticed only by a client that sends nothing. -/
theorem optional_header_transparent_iff (env : Env) (arrivals : List Arrival) (peer : SocketAddr)
    (hproxy : env.config.proxyProtocol = true) (hoptional : env.config.proxyProtocolOptional = true)
    (hflow : (McStream.plain arrivals).Flowing) :
    Transparent env arrivals peer ↔ arrivals = [] := by
  constructor
  · intro htransparent
    by_contra hne
    have hsome : (McStream.plain arrivals).available ≠ [] := mt (available_eq_nil hflow).mp hne
    have hbytes := htransparent.bytes
    rw [bytesSeen_direct, bytesSeen_optional hproxy hoptional] at hbytes
    cases hr : (scan env.config.headers (.plain arrivals)).1.optional env.config.headers peer with
    | error e =>
      rw [hr] at hbytes
      cases hbytes
    | ok result =>
      rw [hr] at hbytes
      exact scan_takes env.config.headers hflow hsome hr (Option.some.inj hbytes)
  · rintro rfl
    refine ⟨?_, ?_⟩
    · rw [bytesSeen_direct, bytesSeen, readProxyHeaders_nil hproxy hoptional]
      rfl
    · rw [connectionJournal_nil (readProxyHeaders_nil hproxy hoptional),
        connectionJournal_nil (Handler.run_readProxyHeaders_off rfl)]

def optionalEnv : Env :=
  { onlineEnv with config := { onlineEnv.config with
    proxyProtocol := true, proxyProtocolOptional := true } }

theorem optional_header_transparent_silent : Transparent optionalEnv [] clientAddr :=
  (optional_header_transparent_iff optionalEnv [] clientAddr rfl rfl fun _ h => nomatch h).mpr rfl

/-- The ping of an old client is answered by a proxy that does not look for headers. -/
theorem optional_header_swallows_ping :
    ¬v1Sig <+: [0xFE, 0x01] ∧ ¬v2Sig <+: [0xFE, 0x01] ∧
    connectionJournal optionalEnv [.bytes 0xFE [0x01]] clientAddr = [] ∧
    connectionJournal optionalEnv.direct [.bytes 0xFE [0x01]] clientAddr ≠ [] ∧
    ¬Transparent optionalEnv [.bytes 0xFE [0x01]] clientAddr := by
  have hjournal : connectionJournal optionalEnv [.bytes 0xFE [0x01]] clientAddr = [] := rfl
  have hdirect : connectionJournal optionalEnv.direct [.bytes 0xFE [0x01]] clientAddr ≠ [] := by
    rw [← List.length_pos_iff]
    decide +kernel
  refine ⟨by decide, by decide, hjournal, hdirect, ?_⟩
  intro htransparent
  exact hdirect (htransparent.journal.symm.trans hjournal)

end Kojacoord
