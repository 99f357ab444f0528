import Kojacoord.Net.Journal

namespace Kojacoord
open Journal List

def Act.identity : Act → Option Uuid
  | inserted session => some session.uuid
  | wrote (.loginSuccess uuid _ _) => some uuid
  | _ => none

def Act.Names (uuid : Uuid) (act : Act) : Prop := ∀ u, act.identity = some u → u = uuid

def MojangLookupError.isNotFound : MojangLookupError → Bool
  | notFound _ => true
  | _ => false

/-- Why the handler may take the connection for a player: the session server vouched for it, or it
logged in through the pre-netty path, which takes the announced name's account for granted and falls
back to a derived UUID when the account server cannot tell. -/
inductive Vouched (env : Env) (past : List Act) (uuid : Uuid) : Prop where
  | session : .verified profile ∈ past → profile.id = uuid → Vouched env past uuid
  | account : .peeked 0x02 ∈ past → .resolved username (.ok uuid) ∈ past → Vouched env past uuid
  | offline : .peeked 0x02 ∈ past → .resolved username (.error e) ∈ past → e.isNotFound = false →
      uuid = env.nameUuid ("OfflinePlayer:" ++ username) → Vouched env past uuid

theorem Vouched.append (h : Vouched env past uuid) (acts : List Act) :
    Vouched env (past ++ acts) uuid := by
  cases h with
  | session hp hid => exact .session (mem_append_left _ hp) hid
  | account hb hr => exact .account (mem_append_left _ hb) (mem_append_left _ hr)
  | offline hb hr hf hu =>
    exact .offline (mem_append_left _ hb) (mem_append_left _ hr) hf hu

def Legitimate (env : Env) (past : List Act) (act : Act) : Prop :=
  ∀ uuid, act.identity = some uuid → Vouched env past uuid

theorem routine_quiet : Routine env (fun _ => True) fun a => a.identity = none where
  steady := steady_true
  plays _ h := h
  wrote _ packet _ h _ := by cases packet <;> first | rfl | cases h
  asked _ _ := rfl
  noticed _ := rfl
  removed _ := rfl

theorem Routine.mono {p q : Act → Prop} (h : Routine env I p) (hpq : ∀ a, p a → q a) :
    Routine env I q where
  steady := h.steady
  plays := h.plays
  wrote c packet hc hlog hcom := hpq _ (h.wrote c packet hc hlog hcom)
  asked event results := hpq _ (h.asked event results)
  noticed notice := hpq _ (h.noticed notice)
  removed uuid := hpq _ (h.removed uuid)

abbrev Lawful (env : Env) (past : List Act) (x : Prog Client ε α) : Prop :=
  Safe Client.journal (Legitimate env) past x

namespace Handler
variable {env : Env} {past : List Act}

abbrev pipelineStep (env : Env) (state : AuthState) (event : AuthEvent) (ip : IpAddr) :
    Prog Client AuthError (AuthState × List AuthOutbound) :=
  AuthPipeline.step env.config.auth env.lib env.verifyToken (verifySession env) state event ip

theorem run_process (c : Client) : ExceptT.run (process env state event) c =
    (.ok (AuthPipeline.settle env.lib (ExceptT.run (pipelineStep env state event c.addr.ip) c).1),
      (ExceptT.run (pipelineStep env state event c.addr.ip) c).2) := by
  have hpro := AuthPipeline.process_eq env.config.auth env.lib env.verifyToken
    (verifySession env) state event c.addr.ip c
  exact congrArg (fun p => (Except.ok p.1, p.2)) hpro

end Handler

def onlineEnv : Env where
  config :=
    { proxyProtocol := false, proxyProtocolOptional := false,
      headers := { trustedProxies := [], parseIp := fun _ => none },
      auth := { onlineMode := true, compressionThreshold := 256, preventProxyConnections := false },
      maxPlayers := 100, bypassUuids := [], kickMessage := "" }
  lib :=
    { pubKeyDer := [1, 2], rsaDecrypt := fun cipher => .ok cipher, offlineUuid := fun _ => 7,
      hexDigest := fun _ _ _ => "", redText := fun text => text }
  inflate body := (body, none)
  verifyToken := [1, 2, 3, 4]
  verifySession _ _ _ := .ok ⟨5, "Steve", []⟩
  accountLookup _ := .ok 9
  nameUuid _ := 11
  hyphenated _ := ""
  plaintext text := text
  ipText _ := ""
  statusSuffix := ""
  onlinePlayers := 0
  maintenanceEnabled := false
  mojangKey := .error .missingSignature
  resourcePack _ := none
  builds _ _ := true
  writeError _ := none
  subscribesPreLogin := false
  results _ _ := []
  connectToBackend := .error .closed
  segments := []
  lastRelay := .ok ()

def modernLogin : List Arrival :=
  [.bytes 7 [0, 47, 1], .pause 3000, .bytes 97 [1, 2, 2, 3, 0, 1, 65],
    .bytes 24 ([1, 16] ++ List.replicate 16 9 ++ [4, 1, 2, 3, 4] ++ [0])]

def legacyLogin : List Arrival := [.bytes 2 [78, 0, 1, 0, 65, 0, 0, 0, 0, 0, 0]]

def clientAddr : SocketAddr := ⟨.v4 0, 0⟩

end Kojacoord
