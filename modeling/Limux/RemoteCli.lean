import Limux.Relay
import Limux.Lib.HashMap

/-! The remote command line tool (`daemon/remote/cmd/limuxd-remote/cli.go`): its
command table, its flags, and the request it sends to the relay. -/
namespace Limux

open Text

namespace RemoteCli

/-- A command is sent as text or as a JSON-RPC request. -/
inductive Proto
  | v1 (cmd : String)
  | v2 (method : String)
  deriving DecidableEq, Repr

structure CommandSpec where
  name : String
  proto : Proto
  flagKeys : List String := []
  noParams : Bool := false
  paramKeyOverrides : List (String × String) := []
  defaultParams : List (String × String) := []
  deriving DecidableEq, Repr

def commands : List CommandSpec :=
  [{ name := "ping", proto := .v1 "ping", noParams := true },
    { name := "new-window", proto := .v1 "new_window", noParams := true },
    { name := "current-window", proto := .v1 "current_window", noParams := true },
    { name := "close-window", proto := .v1 "close_window", flagKeys := ["window"] },
    { name := "focus-window", proto := .v1 "focus_window", flagKeys := ["window"] },
    { name := "list-windows", proto := .v1 "list_windows", noParams := true },
    { name := "capabilities", proto := .v2 "system.capabilities", noParams := true },
    { name := "list-workspaces", proto := .v2 "workspace.list", noParams := true },
    { name := "new-workspace", proto := .v2 "workspace.create"
      flagKeys := ["command","working-directory","name"] },
    { name := "close-workspace", proto := .v2 "workspace.close", flagKeys := ["workspace"] },
    { name := "select-workspace", proto := .v2 "workspace.select", flagKeys := ["workspace"] },
    { name := "current-workspace", proto := .v2 "workspace.current", noParams := true },
    { name := "list-panels", proto := .v2 "surface.list", flagKeys := ["workspace"] },
    { name := "focus-panel", proto := .v2 "surface.focus", flagKeys := ["panel","workspace"]
      paramKeyOverrides := [("panel","surface_id")] },
    { name := "list-panes", proto := .v2 "pane.list", flagKeys := ["workspace"] },
    { name := "list-pane-surfaces", proto := .v2 "pane.surfaces", flagKeys := ["pane"] },
    { name := "new-pane", proto := .v2 "pane.create"
      flagKeys := ["workspace","direction","type","url"]
      defaultParams := [("direction","right")] },
    { name := "new-surface", proto := .v2 "surface.create"
      flagKeys := ["workspace","pane","type","url"] },
    { name := "new-split", proto := .v2 "surface.split", flagKeys := ["surface","direction"] },
    { name := "close-surface", proto := .v2 "surface.close", flagKeys := ["surface"] },
    { name := "send", proto := .v2 "surface.send_text", flagKeys := ["surface","text"] },
    { name := "send-key", proto := .v2 "surface.send_key", flagKeys := ["surface","key"] },
    { name := "notify", proto := .v2 "notification.create"
      flagKeys := ["title","body","workspace"] },
    { name := "refresh-surfaces", proto := .v2 "surface.refresh", noParams := true }]

structure ParsedFlags where
  flags : HashMap Text Text
  positional : List Text

namespace ParsedFlags

def flag (p : ParsedFlags) (key : String) : Option Text := p.flags.lookup key.toList

end ParsedFlags

/-- The loop of `parseFlags`. A flag at the end of the list has no value and is
dropped; an unknown flag is an error. -/
def parseFlagsFrom (keys : List String) : List Text → ParsedFlags → Option ParsedFlags
  | [], p => some p
  | [a], p =>
    if a = "--".toList then some p
    else match stripDashes a with
      | none => some { p with positional := p.positional ++ [a] }
      | some key => if keys.any (fun k => k.toList = key) then some p else none
  | a :: v :: rest, p =>
    if a = "--".toList then some { p with positional := p.positional ++ v :: rest }
    else match stripDashes a with
      | none => parseFlagsFrom keys (v :: rest) { p with positional := p.positional ++ [a] }
      | some key =>
        if keys.any (fun k => k.toList = key) then
          parseFlagsFrom keys rest { p with flags := p.flags.insert key v }
        else none

def parseFlags (args : List Text) (keys : List String) : Option ParsedFlags :=
  parseFlagsFrom keys args ⟨∅,[]⟩

def flagToParamKey : String → String
  | "workspace" => "workspace_id"
  | "surface" => "surface_id"
  | "panel" => "panel_id"
  | "pane" => "pane_id"
  | "window" => "window_id"
  | "command" => "initial_command"
  | "name" => "title"
  | "working-directory" => "working_directory"
  | key => key

/-- `LIMUX_WORKSPACE_ID` and `LIMUX_SURFACE_ID`; an empty value counts as unset. -/
structure Env where
  workspace : Text
  surface : Text

def put (key : String) (v : Option Text) (params : HashMap String Text) : HashMap String Text :=
  match v with
  | some v => params.insert key v
  | none => params

def putNew (key : String) (v : Option Text) (params : HashMap String Text) :
    HashMap String Text :=
  if key ∈ params then params else put key v params

def setting (v : Text) : Option Text := if v = [] then none else some v

def defaults (spec : CommandSpec) : HashMap String Text :=
  spec.defaultParams.foldl (fun m e => put e.1 (some e.2.toList) m) ∅

/-- Parameters of the flags, the first positional argument and the environment. -/
def flagParams (spec : CommandSpec) (env : Env) (parsed : ParsedFlags) : HashMap String Text :=
  let params := spec.flagKeys.foldl (fun m key =>
    put ((spec.paramKeyOverrides.lookup key).getD (flagToParamKey key)) (parsed.flag key) m)
    (defaults spec)
  let params := putNew "initial_command" parsed.positional.head? params
  putNew "surface_id" (setting env.surface) (putNew "workspace_id" (setting env.workspace) params)

/-- The parameters `execV2` sends, or nothing when the flags are not accepted. -/
def execV2 (spec : CommandSpec) (env : Env) (args : List Text) : Option (HashMap String Text) :=
  if spec.noParams then some (defaults spec)
  else (parseFlags args spec.flagKeys).map (flagParams spec env)

def request {F : Type} (id : Text) (method : String) (params : HashMap String Text) : Json F :=
  .obj [("id",.str id),("method",.str method.toList),
    ("params",.obj (params.entries.map (fun e => (e.1,.str e.2))))]

end RemoteCli

end Limux
