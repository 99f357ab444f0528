import Kojacoord.Net.Connection
import Kojacoord.Proxy.Step

namespace Kojacoord

inductive CommandResult where
  | handled
  | switch (target : String)
  | notACommand
  | error (message : String)

/-- What a command comes to: the lines its sender is told, what it queues for other players, and
what the relay does next. -/
structure CommandReply where
  messages : List String
  notices : List Notice
  result : CommandResult

def CommandReply.tell (messages : List String) : CommandReply := ⟨messages, [], .handled⟩

structure CommandEnv where
  lowercase : String → String
  pluginCommand : String → List String → Option (Except String (Option PluginResponse))
  /-- The lines of the commands that only report: who is online, versions, plugins, tick rates and
  account links. -/
  report : String → List String → List String

def splitn : Nat → List Char → List (List Char)
  | 0, _ => []
  | 1, s => [s]
  | n + 2, s =>
    match s.span (· ≠ ' ') with
    | (word, []) => [word]
    | (word, _ :: rest) => word :: splitn (n + 1) rest

def firstWord (s : List Char) : List Char :=
  (s.dropWhile isWhitespace).takeWhile fun c => !isWhitespace c

namespace Commands

def isProxyCommand (env : CommandEnv) (input : List Char) : Bool :=
  env.lowercase (.ofList (firstWord input)) ∈
    ["server", "servers", "hub", "lobby", "spawn", "glist", "list", "find", "koja", "kojacoord",
      "gplugins", "gtps", "register"]

def applyCommandResponse : PluginResponse → CommandReply
  | .message text => .tell [text]
  | .broadcast text => ⟨[], [.broadcast text], .handled⟩
  | .kickPlayer uuid reason => ⟨[], [.kick uuid reason], .handled⟩
  | .none | .cancel | .custom _ | .updatePlayerSample _ | .permissionResult .. => .tell []

def dispatchPluginCommand (env : CommandEnv) (command : String) (args : List String) :
    CommandReply :=
  match env.pluginCommand command args with
  | none => ⟨[], [], .notACommand⟩
  | some (.ok (some response)) => applyCommandResponse response
  | some (.ok none) => .tell []
  | some (.error _) => .tell ["§cThat command failed. Check the console for details."]

def serverLine (r : ServerRegistry) (current : Option String) (b : ServerId) : String :=
  let server := r.server b
  let status := if server.isOnline then "§a●" else "§c●"
  let marker := if current = some server.name then " §7(you are here)" else ""
  "  " ++ status ++ " §f" ++ server.name ++ "§7 [" ++ toString server.playerCount ++ " players]" ++
    marker

def handleServer (r : ServerRegistry) (current : Option String) (args : List String) :
    CommandReply :=
  match args with
  | [] | "" :: _ =>
    .tell ("§6§lKojacoordNetwork §7— §aOnline Servers" :: r.all.map (serverLine r current))
  | target :: _ =>
    match r.get target with
    | none => .tell ["§cServer '" ++ target ++ "' not found."]
    | some b =>
      if !(r.server b).isOnline then .tell ["§cServer '" ++ target ++ "' is currently offline."]
      else if current = some target then .tell ["§eYou are already on §f" ++ target ++ "§e."]
      else ⟨["§aConnecting you to §f" ++ target ++ "§a…"], [], .switch target⟩

def handleHub (r : ServerRegistry) (current : Option String) (default : String) : CommandReply :=
  match r.get default with
  | none => .tell ["§cLobby server is unavailable."]
  | some _ =>
    if current = some default then .tell ["§eYou are already on §f" ++ default ++ "§e."]
    else ⟨["§aSending you to §f" ++ default ++ "§a…"], [], .switch default⟩

def handleCommand (env : CommandEnv) (cfg : ProxyConfig) (r : ServerRegistry)
    (current : Option String) (input : String) : CommandReply :=
  let trimmed := input.toList.dropWhile (· = '/')
  let parts := (splitn 5 trimmed).map String.ofList
  let command := env.lowercase (parts.headD "")
  let args := parts.tail
  if !isProxyCommand env trimmed then dispatchPluginCommand env command args
  else if command ∈ ["server", "servers"] then handleServer r current args
  else if command ∈ ["hub", "lobby", "spawn"] then handleHub r current cfg.defaultServer
  else if command ∈ ["glist", "list", "find", "koja", "kojacoord", "register", "gplugins",
      "gtps"] then .tell (env.report command args)
  else ⟨[], [], .notACommand⟩

end Commands

end Kojacoord
