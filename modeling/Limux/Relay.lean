import Limux.Command
import Limux.Lib.Json
import Limux.Socket

/-! The relay (`app/src/remote/relay.rs`) behind its authentication: one line of a
client, a JSON-RPC request or plain text, becomes one line on the control socket.
`parse` is the JSON parser. -/
namespace Limux

open Text

namespace Relay

def methods : List (String × String) :=
  [("workspace.list","list_workspaces"),("workspace.create","new_workspace"),
    ("workspace.close","close_workspace"),("workspace.select","select_workspace"),
    ("workspace.current","current_workspace"),("surface.list","list_surfaces"),
    ("surface.focus","focus_pane"),("surface.send_text","send"),
    ("surface.close","close_surface"),("surface.split","split_right"),("pane.list","list_panes"),
    ("pane.create","split_right"),("notification.create","log"),("system.capabilities","version")]

def v2MethodToV1 (method : Text) : Option String :=
  (methods.find? (fun e => e.1.toList = method)).map Prod.snd

section Translate

variable {F : Type}

def workspaceArg (params : Json F) : Option Text :=
  match params.getStr "workspace" with
  | some ws => some ws
  | none => ((params.get "workspace").bind Json.asU64).map ofNat

def surfaceArg (params : Json F) : Option Text :=
  (params.getStr "surface").or (params.getStr "surface_id")

def args (params : Json F) : List Text :=
  (workspaceArg params).toList ++ ((surfaceArg params).toList ++
    ((params.getStr "text").toList ++ (params.getStr "name").toList))

/-- The direction asks for a split downwards. -/
def Down (params : Json F) : Prop :=
  params.getStr "direction" = some "down".toList ∨ params.getStr "direction" = some "bottom".toList

instance (params : Json F) : Decidable (Down params) := inferInstanceAs (Decidable (_ ∨ _))

/-- The command with its arguments; a split downwards replaces it. -/
def socketCmd (v1Cmd : String) (params : Json F) : Text :=
  if Down params then "split_down".toList
  else v1Cmd.toList ++ (args params).flatMap (fun t => ' ' :: t)

def translateV2ToV1 (parse : Text → Option (Json F)) (cmd : Text) : Text × Option (Json F) :=
  if cmd.head? ≠ some '{' then (cmd,none)
  else match parse cmd with
    | none => (cmd,none)
    | some parsed =>
      match (parsed.index "method").asStr with
      | none => (cmd,none)
      | some method =>
        match v2MethodToV1 method with
        | none => (cmd,parsed.get "id")
        | some v1Cmd => (socketCmd v1Cmd (parsed.index "params"),parsed.get "id")

/-- The line put on the control socket for a line of the client, if any. -/
def forwarded (parse : Text → Option (Json F)) (line : Text) : Option Text :=
  if trim line = [] then none else some (translateV2ToV1 parse (trim line)).1

end Translate

end Relay

end Limux
