import Limux.TmuxTarget
import Limux.Lib.HashMap
import Limux.Lib.Json
import Limux.Lib.TextLines

/-! Agents started with a tmux shim in front of them (`agent_launch.go`): the program that
is found, the environment it gets, and what the shim later reads from it. -/
namespace Limux.AgentLaunch

open Text

abbrev Environ := HashMap String Text

def getenv (env : Environ) (k : String) : Text := (env.lookup k).getD []

/-! Paths. -/

/-- A component in `filepath.Clean`; the last one comes first. -/
def cleanStep (rooted : Bool) (out : List Text) (c : Text) : List Text :=
  if c = [] ∨ c = ['.'] then out
  else if c = ['.','.'] then
    match out with
    | [] => if rooted then [] else [c]
    | top :: rest => if top = ['.','.'] then c :: out else rest
  else c :: out

def clean (path : Text) : Text :=
  let rooted : Bool := path.head? = some '/'
  let out := ((path.splitOn '/').foldl (cleanStep rooted) []).reverse
  if rooted then '/' :: ['/'].intercalate out
  else if out = [] then ['.']
  else ['/'].intercalate out

/-- `filepath.Join` of two names that are not empty. -/
def joinPath (dir name : Text) : Text := clean (dir ++ '/' :: name)

def splitList (path : Text) : List Text := if path = [] then [] else path.splitOn ':'

/-- `isExec`: a file that is not a directory and has an execute bit. -/
def findExecutableInPath (isExec : Text → Bool) (name path skipDir : Text) : Text :=
  ((((splitList path).filter (fun dir => dir ≠ [] ∧ dir ≠ skipDir)).map
    (fun dir => joinPath dir name)).find? isExec).getD []

/-! The two agents. -/

inductive Agent
  | claudeTeams
  | omo
  deriving DecidableEq, Repr

namespace Agent

def program : Agent → Text
  | .claudeTeams => "claude".toList
  | .omo => "opencode".toList

def dirName : Agent → Text
  | .claudeTeams => "claude-teams-bin".toList
  | .omo => "omo-bin".toList

/-- Where `createTmuxShimDir` puts the shim. -/
def shimDir (home : Text) (a : Agent) : Text := clean (home ++ "/.limux/".toList ++ a.dirName)

def tmuxPathPrefix : Agent → Text
  | .claudeTeams => "limux-claude-teams".toList
  | .omo => "limux-omo".toList

def limuxBinEnvVar : Agent → String
  | .claudeTeams => "LIMUX_CLAUDE_TEAMS_LIMUX_BIN"
  | .omo => "LIMUX_OMO_LIMUX_BIN"

def termEnvVar : Agent → String
  | .claudeTeams => "LIMUX_CLAUDE_TEAMS_TERM"
  | .omo => "LIMUX_OMO_TERM"

def extraEnv : Agent → List (String × Text)
  | .claudeTeams => [("CLAUDE_CODE_EXPERIMENTAL_AGENT_TEAMS",['1'])]
  | .omo => []

end Agent

/-! The context the agent is started in. -/

/-- The first value that is a string with something in it, trimmed. -/
def stringFromAny {F : Type} (values : List (Option (Json F))) : Text :=
  ((values.filterMap (fun v => v.bind Json.asStr)).map trim).find? (fun s => s ≠ []) |>.getD []

/-- A workspace and a pane, and a window and a surface where they are known; none of the
names has blanks around it. -/
structure FocusedContext where
  workspaceId : Text
  windowId : Text
  paneHandle : Text
  surfaceId : Text
  workspace_ne : workspaceId ≠ []
  workspace_trim : trim workspaceId = workspaceId
  pane_ne : paneHandle ≠ []
  pane_trim : trim paneHandle = paneHandle

theorem stringFromAny_trim {F : Type} (values : List (Option (Json F))) :
    trim (stringFromAny values) = stringFromAny values := by
  unfold stringFromAny
  cases h : ((values.filterMap (fun v => v.bind Json.asStr)).map trim).find? (fun s => s ≠ []) with
  | none => rfl
  | some s =>
    obtain ⟨t,-,rfl⟩ := List.mem_map.mp (List.mem_of_find?_eq_some h)
    exact trim_trim t

/-- What `system.identify` says of the focus; nothing without a workspace or a pane. -/
def getFocusedContext {F : Type} (payload : Json F) : Option FocusedContext :=
  match payload.get "focused" with
  | some (.obj fields) =>
    let get := fun k => Json.get k (.obj fields : Json F)
    let ws := stringFromAny [get "workspace_id",get "workspace_ref"]
    let pane := stringFromAny [get "pane_id",get "pane_ref"]
    if h : ws ≠ [] ∧ pane ≠ [] then
      some ⟨ws,stringFromAny [get "window_id",get "window_ref"],pane,
        stringFromAny [get "surface_id",get "surface_ref"],h.1,stringFromAny_trim _,h.2,
        stringFromAny_trim _⟩
    else none
  | _ => none

def fakeTmux (a : Agent) : Option FocusedContext → Text
  | none => "/tmp/".toList ++ a.tmuxPathPrefix ++ "/default,0,0".toList
  | some f =>
    "/tmp/".toList ++ a.tmuxPathPrefix ++ '/' :: f.workspaceId ++
      ',' :: (if f.windowId = [] then f.workspaceId else f.windowId) ++ ',' :: f.paneHandle

def fakeTmuxPane : Option FocusedContext → Text
  | none => "%1".toList
  | some f => '%' :: f.paneHandle

def setFocus (env : Environ) : Option FocusedContext → Environ
  | none => env
  | some f =>
    let env := env.insert "LIMUX_WORKSPACE_ID" f.workspaceId
    if f.surfaceId = [] then env else env.insert "LIMUX_SURFACE_ID" f.surfaceId

def orElse (v d : Text) : Text := if v = [] then d else v

def configureAgentEnvironment (a : Agent) (home selfPath socketPath : Text)
    (focused : Option FocusedContext) (env : Environ) : Environ :=
  let env := env.insert a.limuxBinEnvVar (orElse selfPath "limux".toList)
  let env := env.insert "PATH" (a.shimDir home ++ ':' :: getenv env "PATH")
  let env := env.insert "TMUX" (fakeTmux a focused)
  let env := env.insert "TMUX_PANE" (fakeTmuxPane focused)
  let env := env.insert "TERM" (orElse (getenv env a.termEnvVar) "screen-256color".toList)
  let env := env.insert "LIMUX_SOCKET_PATH" socketPath
  let env := env.insert "LIMUX_SOCKET" socketPath
  let env := env.erase "TERM_PROGRAM"
  let env := env.insert "COLORTERM" (orElse (getenv env "COLORTERM") "truecolor".toList)
  a.extraEnv.foldl (fun env e => env.insert e.1 e.2) (setFocus env focused)

/-! The options of node. -/

def memoryFlag : Text := "--max-old-space-size".toList

/-- The words without settings of the memory; `skip` drops the value of one. -/
def cleanTokens : Bool → List Text → List Text
  | _, [] => []
  | true, _ :: rest => cleanTokens false rest
  | false, token :: rest =>
    if token = memoryFlag then cleanTokens true rest
    else if (memoryFlag ++ ['=']).isPrefixOf token then cleanTokens false rest
    else token :: cleanTokens false rest

def cleanedNodeOptions (existing : Text) : Text := spaced (cleanTokens false (words existing))

def mergeNodeOptions (existing restoreModulePath : Text) : Text :=
  let requireFlag := "--require=".toList ++ restoreModulePath
  let cleaned := cleanedNodeOptions existing
  if cleaned = [] then requireFlag ++ ' ' :: (memoryFlag ++ "=4096".toList)
  else requireFlag ++ ' ' :: (memoryFlag ++ "=4096".toList) ++ ' ' :: cleaned

def configureClaudeNodeOptions (restoreModulePath : Text) (env : Environ) : Environ :=
  let saved := match env.lookup "NODE_OPTIONS" with
    | some existing => (env.insert "LIMUX_ORIGINAL_NODE_OPTIONS_PRESENT" ['1']).insert
        "LIMUX_ORIGINAL_NODE_OPTIONS" existing
    | none => (env.insert "LIMUX_ORIGINAL_NODE_OPTIONS_PRESENT" ['0']).erase
        "LIMUX_ORIGINAL_NODE_OPTIONS"
  saved.insert "NODE_OPTIONS" (mergeNodeOptions (getenv env "NODE_OPTIONS") restoreModulePath)

/-- `claudeNodeOptionsRestoreModuleScript`, as node runs it. -/
def restoreNodeOptions (env : Environ) : Environ :=
  let restored :=
    if env.lookup "LIMUX_ORIGINAL_NODE_OPTIONS_PRESENT" = some ['1'] then
      env.insert "NODE_OPTIONS" (getenv env "LIMUX_ORIGINAL_NODE_OPTIONS")
    else env.erase "NODE_OPTIONS"
  (restored.erase "LIMUX_ORIGINAL_NODE_OPTIONS").erase "LIMUX_ORIGINAL_NODE_OPTIONS_PRESENT"

/-! Starting an agent. -/

/-- What the files of the machine say of a path. -/
structure Files where
  isExec : Text → Bool
  isNodeScript : Text → Bool

structure Launch where
  agent : Agent
  selfPath : Text
  socketPath : Text
  focused : Option FocusedContext
  /-- The restore module, if it could be written. -/
  restoreModule : Option Text
  args : List Text

structure Exec where
  path : Text
  argv : List Text
  env : Environ

/-- The program of an agent in the path that the shim is not in front of yet. -/
def agentPath (files : Files) (home : Text) (a : Agent) (env : Environ) : Text :=
  findExecutableInPath files.isExec a.program (getenv env "PATH") (a.shimDir home)

def claudeTeamsLaunchArgs (args : List Text) : List Text :=
  if args.any (fun arg => arg = "--teammate-mode".toList ||
      "--teammate-mode=".toList.isPrefixOf arg) then args
  else "--teammate-mode".toList :: "auto".toList :: args

def runClaudeTeamsRelay (files : Files) (home : Text) (l : Launch) (env : Environ) :
    Option Exec :=
  let claudePath := agentPath files home .claudeTeams env
  let env := configureAgentEnvironment .claudeTeams home l.selfPath l.socketPath l.focused env
  let env := match l.restoreModule with
    | some path => configureClaudeNodeOptions path env
    | none => env
  if claudePath = [] then none
  else some ⟨claudePath,claudePath :: claudeTeamsLaunchArgs l.args,env⟩

def resolveNodeScriptExec (files : Files) (binPath : Text) (args : List Text)
    (searchPath skipDir : Text) : Text × List Text :=
  let direct := (binPath,binPath :: args)
  if files.isNodeScript binPath = false then direct
  else if findExecutableInPath files.isExec "node".toList searchPath skipDir ≠ [] then direct
  else
    let bunPath := findExecutableInPath files.isExec "bun".toList searchPath skipDir
    if bunPath ≠ [] then (bunPath,bunPath :: binPath :: args) else direct

/-- The plugin is set up before; it adds a variable of its own. -/
def runOMORelay (files : Files) (home configDir : Text) (l : Launch) (env : Environ) :
    Option Exec :=
  let originalPath := getenv env "PATH"
  let opencodePath := agentPath files home .omo env
  if opencodePath = [] then none
  else
    let env := env.insert "OPENCODE_CONFIG_DIR" configDir
    let env := configureAgentEnvironment .omo home l.selfPath l.socketPath l.focused env
    let env := env.insert "OPENCODE_PORT" (orElse (getenv env "OPENCODE_PORT") "4096".toList)
    let hasPort := l.args.any (fun arg => arg = "--port".toList ||
      "--port=".toList.isPrefixOf arg)
    let args := if hasPort then l.args
      else "--port".toList :: getenv env "OPENCODE_PORT" :: l.args
    let (path,argv) := resolveNodeScriptExec files opencodePath args originalPath
      (Agent.omo.shimDir home)
    some ⟨path,argv,env⟩

def run (files : Files) (home configDir : Text) (l : Launch) (env : Environ) : Option Exec :=
  match l.agent with
  | .claudeTeams => runClaudeTeamsRelay files home l env
  | .omo => runOMORelay files home configDir l env

/-- The environment of what the agent starts: node has run the restore module. -/
def inside (l : Launch) (x : Exec) : Environ :=
  match l.agent, l.restoreModule with
  | .claudeTeams, some _ => restoreNodeOptions x.env
  | _, _ => x.env

def nested (files : Files) (home configDir : Text) : List Launch → Environ → Option Environ
  | [], env => some env
  | l :: ls, env =>
    (run files home configDir l env).bind (fun x => nested files home configDir ls (inside l x))

def shimEnv (env : Environ) : Tmux.Env :=
  ⟨getenv env "LIMUX_WORKSPACE_ID",getenv env "TMUX_PANE",getenv env "LIMUX_PANE_ID"⟩

end Limux.AgentLaunch
