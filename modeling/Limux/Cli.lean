import Limux.Command

/-! The command line tool (`cli/src/commands`): its commands with their arguments,
the line each sends, and the request it stands for. -/
namespace Limux

open Text

/-- A command with the arguments the argument parser delivers. -/
inductive CliCmd (F : Type)
  | ping
  | version
  | listSurfaces
  | newWorkspace
  | workspaceCount
  | listWorkspaces
  | workspaceSetColor (id : UInt32) (color : Text)
  | workspacePin (id : UInt32)
  | selectWorkspace (id : UInt32)
  | closeWorkspace (id : Option UInt32)
  | currentWorkspace
  | listPanes (id : Option UInt32)
  | focusPane (id : UInt32)
  | renameWorkspace (id : UInt32) (name : Text)
  | toggleSidebar
  | splitRight
  | splitDown
  | openBrowser (url : Text)
  | navigate (id : UInt32) (url : Text)
  | browserBack (id : UInt32)
  | browserForward (id : UInt32)
  | browserReload (id : UInt32)
  | getUrl (id : UInt32)
  | jsEval (id : UInt32) (script : Text)
  | setStatus (key value : Text) (icon color : Option Text) (priority : Option Int32)
  | clearStatus (key : Text)
  | setProgress (value : F) (label : Option Text)
  | clearProgress
  | log (message level : Text)
  | clearLog
  | notifyEnable
  | notifyDisable
  | notifyStatus
  | remoteConnect (destination : Text) (port : Option UInt16) (identity : Option Text)
      (sshOption : List Text) (command : Option Text)
  | remoteDisconnect (workspaceId : Option UInt32) (clear : Bool)
  | remoteReconnect (workspaceId : Option UInt32)
  | remoteStatus (workspaceId : Option UInt32)
  | send (surfaceId : UInt32) (text : Text)
  | readScreen (surfaceId : UInt32)

namespace CliCmd

variable {F : Type}

/-- ` --key=value` for a value that is given. -/
def opt (k : String) : Option Text → Text
  | some v => ' ' :: '-' :: '-' :: (k.toList ++ '=' :: v)
  | none => []

def optId : Option UInt32 → Text
  | some id => ' ' :: ofNat id.toNat
  | none => []

def idLine (w : String) (id : UInt32) : Text := w.toList ++ ' ' :: ofNat id.toNat

/-- `<word> <id> <text>`. -/
def textLine (w : String) (id : UInt32) (text : Text) : Text :=
  w.toList ++ ' ' :: (ofNat id.toNat ++ ' ' :: text)

def line [F64Text F] : CliCmd F → Text
  | ping => "ping".toList
  | version => "version".toList
  | listSurfaces => "list_surfaces".toList
  | newWorkspace => "new_workspace".toList
  | workspaceCount => "workspace_count".toList
  | listWorkspaces => "list_workspaces".toList
  | workspaceSetColor id color => textLine "workspace_set_color" id color
  | workspacePin id => idLine "workspace_pin" id
  | selectWorkspace id => idLine "select_workspace" id
  | closeWorkspace id => "close_workspace".toList ++ optId id
  | currentWorkspace => "current_workspace".toList
  | listPanes id => "list_panes".toList ++ optId id
  | focusPane id => idLine "focus_pane" id
  | renameWorkspace id name => textLine "rename_workspace" id name
  | toggleSidebar => "toggle_sidebar".toList
  | splitRight => "split_right".toList
  | splitDown => "split_down".toList
  | openBrowser url => "open_browser".toList ++ ' ' :: url
  | navigate id url => textLine "navigate" id url
  | browserBack id => idLine "browser_back" id
  | browserForward id => idLine "browser_forward" id
  | browserReload id => idLine "browser_reload" id
  | getUrl id => idLine "get_url" id
  | jsEval id script => textLine "js_eval" id script
  | setStatus key value icon color priority =>
    "set_status".toList ++ ' ' :: (key ++ ' ' :: (value ++ (opt "icon" icon ++
      (opt "color" color ++ opt "priority" (priority.map (fun p => ofInt p.toInt))))))
  | clearStatus key => "clear_status".toList ++ ' ' :: key
  | setProgress value label =>
    "set_progress".toList ++ ' ' :: (F64Text.display value ++ opt "label" label)
  | clearProgress => "clear_progress".toList
  | log message level => "log".toList ++ ' ' :: (message ++ opt "level" (some level))
  | clearLog => "clear_log".toList
  | notifyEnable => "notify_enable".toList
  | notifyDisable => "notify_disable".toList
  | notifyStatus => "notify_status".toList
  | remoteConnect destination port identity sshOption command =>
    "remote_connect".toList ++ ' ' :: (destination ++
      (opt "port" (port.map (fun p => ofNat p.toNat)) ++ (opt "identity" identity ++
      (sshOption.flatMap (fun o => opt "ssh-option" (some o)) ++ opt "command" command))))
  | remoteDisconnect id clear =>
    "remote_disconnect".toList ++ (optId id ++ if clear then ' ' :: "--clear".toList else [])
  | remoteReconnect id => "remote_reconnect".toList ++ optId id
  | remoteStatus id => "remote_status".toList ++ optId id
  | send id text => textLine "send" id text
  | readScreen id => idLine "read_screen" id

def texts : CliCmd F → List Text
  | workspaceSetColor _ s | renameWorkspace _ s | openBrowser s | navigate _ s | jsEval _ s
  | clearStatus s | send _ s => [s]
  | setStatus key value icon color _ => key :: value :: (icon.toList ++ color.toList)
  | setProgress _ label => label.toList
  | log message level => [message,level]
  | remoteConnect destination _ identity sshOption command =>
    destination :: (identity.toList ++ sshOption ++ command.toList)
  | _ => []

/-- The request that carries exactly the given arguments. `none` where the command
needs a focused workspace and there is none. -/
def request (st : App F) : CliCmd F → Option (Request F)
  | ping => some .ping
  | version => some .version
  | listSurfaces => some .listSurfaces
  | newWorkspace => some .newWorkspace
  | workspaceCount => some .workspaceCount
  | listWorkspaces => some .listWorkspaces
  | workspaceSetColor id color => some (.workspaceSetColor id.toNat color)
  | workspacePin id => some (.workspacePin id.toNat)
  | selectWorkspace id => some (.selectWorkspace id.toNat)
  | closeWorkspace id =>
    ((id.map UInt32.toNat).or st.window.focusedWorkspaceId).map Request.closeWorkspace
  | currentWorkspace => some .currentWorkspace
  | listPanes id => ((id.map UInt32.toNat).or st.window.focusedWorkspaceId).map Request.listPanes
  | focusPane id => some (.focusPane id.toNat)
  | renameWorkspace id name => some (.renameWorkspace id.toNat name)
  | toggleSidebar => some .toggleSidebar
  | splitRight => some .splitRight
  | splitDown => some .splitDown
  | openBrowser url => some (.openBrowser url)
  | navigate id url => some (.navigate id.toNat url)
  | browserBack id => some (.browserBack id.toNat)
  | browserForward id => some (.browserForward id.toNat)
  | browserReload id => some (.browserReload id.toNat)
  | getUrl id => some (.getUrl id.toNat)
  | jsEval id script => some (.jsEval id.toNat script)
  | setStatus key value icon color priority => st.window.focusedWorkspaceId.map (fun ws =>
      .setStatus ws key value icon color ((priority.map Int32.toInt).getD 0))
  | clearStatus key => st.window.focusedWorkspaceId.map (fun ws => .clearStatus ws key)
  | setProgress value label =>
    st.window.focusedWorkspaceId.map (fun ws => .setProgress ws value label)
  | clearProgress => st.window.focusedWorkspaceId.map Request.clearProgress
  | log message level => st.window.focusedWorkspaceId.map (fun ws => .log ws message level)
  | clearLog => st.window.focusedWorkspaceId.map Request.clearLog
  | notifyEnable => some .notifyEnable
  | notifyDisable => some .notifyDisable
  | notifyStatus => some .notifyStatus
  | remoteConnect destination port identity sshOption command =>
    some (.remoteConnect destination (port.map UInt16.toNat) identity command sshOption)
  | remoteDisconnect id clear => some (.remoteDisconnect (id.map UInt32.toNat) clear)
  | remoteReconnect id => some (.remoteReconnect (id.map UInt32.toNat))
  | remoteStatus id => some (.remoteStatus (id.map UInt32.toNat))
  | send id text => some (.send id.toNat text)
  | readScreen id => some (.readScreen id.toNat)

end CliCmd

end Limux
