import Kojacoord.Net.Isolation
import Mathlib.Data.List.TakeDrop

namespace Kojacoord
open Journal Commands List

/-- The line does not begin with white space, and the first white space in it, if there is some, is
a blank. -/
def BlankFirst (line : List Char) : Prop :=
  (∀ c ∈ line.head?, isWhitespace c = false) ∧ ∀ c ∈ line.find? isWhitespace, c = ' '

instance (line : List Char) : Decidable (BlankFirst line) :=
  @instDecidableAnd _ _ (Option.decidableForallMem _) (Option.decidableForallMem _)

/-- What the documentation of `str::to_lowercase` says of white space, which has no lower case, and
of the empty string. -/
structure Lowercases (lowercase : String → String) : Prop where
  empty : lowercase "" = ""
  whitespace : ∀ s : String, ∀ c ∈ s.toList, isWhitespace c = true → c ∈ (lowercase s).toList

def beforeBlank (line : List Char) : List Char := line.takeWhile (· ≠ ' ')

theorem splitn_head (n : Nat) :
    (splitn (n + 2) line).head? = some (beforeBlank line) := by
  rw [splitn, span_eq_takeWhile_dropWhile]
  cases line.dropWhile (· ≠ ' ') with
  | nil | cons => rfl

theorem takeWhile_eq_beforeBlank (h : ∀ c ∈ line.find? isWhitespace, c = ' ') :
    line.takeWhile (fun c => !isWhitespace c) = beforeBlank line := by
  unfold beforeBlank
  induction line with
  | nil => rfl
  | cons c line ih =>
    rw [find?_cons] at h
    cases hc : isWhitespace c with
    | true =>
      rw [hc] at h
      have hbla : c = ' ' := h c rfl
      rw [takeWhile_cons_of_neg (by simp [hc]), takeWhile_cons_of_neg (by simp [hbla])]
    | false =>
      rw [hc] at h
      have hne : c ≠ ' ' := by
        rintro rfl
        cases hc
      rw [takeWhile_cons_of_pos (by simp [hc]), takeWhile_cons_of_pos (by simp [hne]),
        ih h]

theorem BlankFirst.firstWord_eq (h : BlankFirst line) : firstWord line = beforeBlank line := by
  rw [← takeWhile_eq_beforeBlank h.2, firstWord]
  cases line with
  | nil => rfl
  | cons c line => rw [dropWhile_cons_of_neg (by simp [h.1 c rfl])]

theorem blankFirst_of_word (hne : beforeBlank line ≠ [])
    (hwd : ∀ c ∈ beforeBlank line, isWhitespace c = false) : BlankFirst line := by
  have hline : beforeBlank line ++ line.dropWhile (· ≠ ' ') = line := takeWhile_append_dropWhile
  constructor
  · intro c hc
    rw [← hline, head?_append_of_ne_nil _ hne] at hc
    exact hwd c (mem_of_head? hc)
  · intro c hc
    have hno : (beforeBlank line).find? isWhitespace = none :=
      find?_eq_none.mpr fun c hc => by simp [hwd c hc]
    rw [← hline, find?_append, hno, Option.none_or] at hc
    cases hrs : line.dropWhile (· ≠ ' ') with
    | nil =>
      rw [hrs] at hc
      cases hc
    | cons first rest =>
      have hbla : first = ' ' := by
        have hhd := head?_dropWhile_not (· ≠ ' ') line
        rw [hrs] at hhd
        simpa using hhd
      subst hbla
      rw [hrs, find?_cons_of_pos (by decide)] at hc
      cases hc
      rfl

namespace Commands

def proxyCommands : List String :=
  ["server", "servers", "hub", "lobby", "spawn", "glist", "list", "find", "koja", "kojacoord",
    "gplugins", "gtps", "register"]

theorem proxyCommands_words :
    ∀ name ∈ proxyCommands, name ≠ "" ∧ ∀ c ∈ name.toList, isWhitespace c = false := by
  have hall :
      proxyCommands.all (fun name => name ≠ "" && name.toList.all (!isWhitespace ·)) = true := by
    decide
  simpa [all_eq_true] using hall

theorem mem_proxyCommands (name : String) : name ∈ proxyCommands ↔
    name ∈ ["server", "servers"] ∨ name ∈ ["hub", "lobby", "spawn"] ∨
      name ∈ ["glist", "list", "find", "koja", "kojacoord", "register", "gplugins", "gtps"] := by
  have hpm : proxyCommands.Perm (["server", "servers"] ++ (["hub", "lobby", "spawn"] ++
      ["glist", "list", "find", "koja", "kojacoord", "register", "gplugins", "gtps"])) := by
    decide
  rw [hpm.mem_iff, mem_append, mem_append]

def Kept (reply : CommandReply) : Prop :=
  reply.result = .handled ∨ ∃ target, reply.result = .switch target

variable {r : ServerRegistry} {current : Option String}

theorem kept_handleServer (args : List String) : Kept (handleServer r current args) := by
  unfold handleServer
  split
  · exact .inl rfl
  · exact .inl rfl
  · split
    · exact .inl rfl
    · split
      · exact .inl rfl
      · split
        · exact .inl rfl
        · exact .inr ⟨_, rfl⟩

theorem kept_handleHub (default : String) : Kept (handleHub r current default) := by
  unfold handleHub
  split
  · exact .inl rfl
  · split
    · exact .inl rfl
    · exact .inr ⟨_, rfl⟩

/-- A line for the proxy is kept if what stands in front of its first blank names one of the proxy's
commands, and otherwise nothing is done about it. -/
theorem handleCommand_cases {env : CommandEnv} {input : String}
    (hpx : isProxyCommand env (input.toList.dropWhile (· = '/')) = true) (cfg : ProxyConfig)
    (r : ServerRegistry) (current : Option String) :
    if env.lowercase (.ofList (beforeBlank (input.toList.dropWhile (· = '/')))) ∈ proxyCommands then
      Kept (handleCommand env cfg r current input)
    else handleCommand env cfg r current input = ⟨[], [], .notACommand⟩ := by
  have hnm : ((splitn 5 (input.toList.dropWhile (· = '/'))).map String.ofList).headD "" =
      .ofList (beforeBlank (input.toList.dropWhile (· = '/'))) := by
    rw [headD_eq_head?_getD, head?_map, splitn_head]
    rfl
  unfold handleCommand
  simp only [hpx, hnm, Bool.not_true, Bool.false_eq_true, if_false]
  generalize env.lowercase _ = name
  split
  · rename_i hmem
    by_cases hsrv : name ∈ ["server", "servers"]
    · rw [if_pos hsrv]
      exact kept_handleServer _
    · rw [if_neg hsrv]
      by_cases hhub : name ∈ ["hub", "lobby", "spawn"]
      · rw [if_pos hhub]
        exact kept_handleHub _
      · rw [if_neg hhub,
          if_pos (((mem_proxyCommands name).mp hmem).resolve_left hsrv |>.resolve_left hhub)]
        exact .inl rfl
  · rename_i hmem
    rw [mem_proxyCommands, not_or, not_or] at hmem
    rw [if_neg hmem.1, if_neg hmem.2.1, if_neg hmem.2.2]

/-- The name in front of the first blank is one of the proxy's commands exactly on the lines that
begin with it and have a blank as their first white space. -/
theorem named_iff_blankFirst {env : CommandEnv} {line : List Char} (henv : Lowercases env.lowercase)
    (hpx : isProxyCommand env line = true) :
    env.lowercase (.ofList (beforeBlank line)) ∈ proxyCommands ↔ BlankFirst line := by
  constructor
  · intro hnm
    obtain ⟨hne, hwd⟩ := proxyCommands_words _ hnm
    apply blankFirst_of_word
    · intro hemp
      rw [hemp] at hne
      exact hne henv.empty
    · intro c hc
      by_contra hsp
      have hmem := henv.whitespace (.ofList (beforeBlank line)) c (by simpa using hc)
        (by simpa using hsp)
      exact hsp (hwd c hmem)
  · intro h
    rw [← h.firstWord_eq]
    exact of_decide_eq_true hpx

end Commands

namespace RelayM
open Commands

variable {env : RelayEnv} {line : String} {payload other : List UInt8}

theorem handleChatCommand_forwards (relay : Relay)
    (hrep : ∀ registry current,
      handleCommand env.commands env.config registry current line = ⟨[], [], .notACommand⟩) :
    ((handleChatCommand env line payload).run relay).1 = .ok (.forward payload) := by
  unfold handleChatCommand
  simp only [hrep]
  rfl

theorem handleChatCommand_keeps (hrep : ∀ registry current,
      Kept (handleCommand env.commands env.config registry current line)) :
    Yields (· ≠ .ok (.forward other)) (handleChatCommand env line payload) := by
  refine .bind (fun shared => .bind (fun current => ?_) nofun) nofun
  refine .bind (fun _ => .bind (fun _ => ?_) nofun) nofun
  rcases hrep shared.shared.proxy.registry current with hres | ⟨target, hres⟩
  · simp only [hres]
    exact fun _ => nofun
  · simp only [hres]
    exact .bind (fun _ _ => nofun) nofun

end RelayM

/-- The proxy keeps a line that it takes for its own command exactly if it begins with the command's
name and has a blank as its first white space. -/
theorem proxy_command_kept_iff (env : RelayEnv) (henv : Lowercases env.commands.lowercase)
    (line : String) (payload : List UInt8) (relay : Relay)
    (hproxy : isProxyCommand env.commands (line.toList.dropWhile (· = '/')) = true) :
    (∀ cfg registry current,
      (handleCommand env.commands cfg registry current line).result ≠ .notACommand ↔
        BlankFirst (line.toList.dropWhile (· = '/'))) ∧
    ((∀ other, ((RelayM.handleChatCommand env line payload).run relay).1 ≠ .ok (.forward other)) ↔
      BlankFirst (line.toList.dropWhile (· = '/'))) := by
  have hname := named_iff_blankFirst henv hproxy
  by_cases hblank : BlankFirst (line.toList.dropWhile (· = '/'))
  · have hkept (cfg : ProxyConfig) (registry : ServerRegistry) (current : Option String) :
        Commands.Kept (handleCommand env.commands cfg registry current line) := by
      have hcases := handleCommand_cases hproxy cfg registry current
      rwa [if_pos (hname.mpr hblank)] at hcases
    refine ⟨fun cfg registry current => iff_of_true (fun hresult => ?_) hblank,
      iff_of_true ?_ hblank⟩
    · rcases hkept cfg registry current with h | ⟨target, h⟩ <;> cases h.symm.trans hresult
    · exact fun other => RelayM.handleChatCommand_keeps (fun _ _ => hkept _ _ _) relay
  · have hreply (cfg : ProxyConfig) (registry : ServerRegistry) (current : Option String) :
        handleCommand env.commands cfg registry current line = ⟨[], [], .notACommand⟩ := by
      have hcases := handleCommand_cases hproxy cfg registry current
      rwa [if_neg (mt hname.mp hblank)] at hcases
    refine ⟨fun cfg registry current => iff_of_false ?_ hblank, iff_of_false (fun h => ?_) hblank⟩
    · rw [hreply]
      exact fun h => h rfl
    · exact h payload (RelayM.handleChatCommand_forwards relay fun _ _ => hreply _ _ _)

theorem lowercases_lobbyRelay : Lowercases lobbyRelay.commands.lowercase :=
  ⟨rfl, fun _ _ hc _ => hc⟩

theorem server_command_kept :
    isProxyCommand lobbyRelay.commands
        ("/server lobby".toList.dropWhile (· = '/')) = true ∧
      ((RelayM.handleChatCommand lobbyRelay "/server lobby" []).run
        (.start ⟨.start lobbyConfig (lobbyFor 2) ∅, []⟩)).1 ≠ .ok (.forward []) :=
  ⟨by decide, (proxy_command_kept_iff lobbyRelay lowercases_lobbyRelay "/server lobby" []
    (.start ⟨.start lobbyConfig (lobbyFor 2) ∅, []⟩) (by decide)).2.mpr (by decide) []⟩

theorem blank_command_not_kept :
    isProxyCommand lobbyRelay.commands ("/ server".toList.dropWhile (· = '/')) = true ∧
      (handleCommand lobbyRelay.commands lobbyConfig (lobbyFor 2) none "/ server").result =
        .notACommand :=
  ⟨by decide, by rw [handleCommand]; rfl⟩

end Kojacoord
