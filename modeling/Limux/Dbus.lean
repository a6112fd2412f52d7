import Limux.Command

/-! The scripting interface on the session bus (`LimuxInterface` in `app/src/dbus.rs`): its
methods and what each does to the application. -/
namespace Limux

namespace Dbus

/-- A method call with its arguments. -/
inductive Method (F : Type)
  | ping
  | version
  | workspaceCount
  | newWorkspace
  | listWorkspaces
  | currentWorkspace
  | selectWorkspace (id : UInt32)
  | closeWorkspace (id : UInt32)
  | renameWorkspace (id : UInt32) (name : Text)
  | workspaceSetColor (id : UInt32) (color : Text)
  | workspacePin (id : UInt32)
  | toggleSidebar
  | listPanes (wsId : UInt32)
  | focusPane (paneId : UInt32)
  | splitRight
  | splitDown
  | listSurfaces
  | send (surfaceId : UInt32) (text : Text)
  | readScreen (surfaceId : UInt32)
  | openBrowser (url : Text)
  | navigate (browserId : UInt32) (url : Text)
  | browserBack (browserId : UInt32)
  | browserForward (browserId : UInt32)
  | browserReload (browserId : UInt32)
  | getUrl (browserId : UInt32)
  | jsEval (browserId : UInt32) (script : Text)
  | setStatus (key value icon color : Text) (priority : Int32)
  | clearStatus (key : Text)
  | setProgress (value : F) (label : Text)
  | clearProgress
  | log (message level : Text)
  | clearLog
  | notifyEnable
  | notifyDisable
  | notifyStatus
  | remoteConnect (destination : Text) (port : UInt32) (identityFile sshOptions : Text)
  | remoteDisconnect (workspaceId : UInt32) (clear : Bool)
  | remoteReconnect (workspaceId : UInt32)
  | remoteStatus (workspaceId : UInt32)

/-- What a method returns. -/
inductive Reply
  | done
  | flag (b : Bool)
  | number (n : ℕ)
  | text (s : String)
  | numbers (ns : List ℕ)
  | texts (ss : List String)
  | workspace (id : ℕ) (title : String)
  | workspaces (rows : List (ℕ × String × ℕ × Bool × String))
  deriving DecidableEq, Repr

/-- An empty string stands for no value. -/
def emptyAsNone (s : Text) : Option String := if s = [] then none else some (.ofList s)

/-- Workspace 0 stands for no workspace. -/
def zeroAsNone (id : UInt32) : Option WorkspaceId := if id = 0 then none else some id.toNat

/-- The focused workspace, or the one with id 0. -/
def focused {F : Type} (st : App F) : WorkspaceId := st.window.focusedWorkspaceId.getD 0

def remoteConfiguration (destination : Text) (port : UInt32) (identityFile sshOptions : Text) :
    RemoteConfiguration where
  destination := .ofList destination
  port := if port = 0 then none else some port.toUInt16
  identityFile := emptyAsNone identityFile
  sshOptions := if sshOptions = [] then [] else (sshOptions.splitOn ',').map String.ofList
  terminalStartupCommand := none
  relayPort := none
  relayId := none
  relayToken := none
  localSocketPath := none

namespace Method

variable {F : Type} [F64Ops F]

def invoke (env : CommandEnv F) (st : App F) : Method F → Reply × App F
  | ping => (.text "pong",st)
  | version => (.text "limux 0.2.9",st)
  | workspaceCount => (.number st.window.workspaces.length,st)
  | newWorkspace => (.done,st.setWindow st.window.newWorkspace)
  | listWorkspaces =>
    (.workspaces (st.window.workspaces.map (fun ws => (ws.id,ws.displayTitle,
      ws.panes.entries.length,ws.pinned,(ws.color.map WorkspaceColor.toName).getD ""))),st)
  | currentWorkspace =>
    match st.window.current with
    | some (_,ws) => (.workspace ws.id ws.displayTitle,st)
    | none => (.workspace 0 "",st)
  | selectWorkspace id =>
    match st.selectWorkspaceById id.toNat with
    | some st => (.flag true,st)
    | none => (.flag false,st)
  | closeWorkspace id =>
    match st.closeWorkspaceById id.toNat with
    | some st => (.flag true,st)
    | none => (.flag false,st)
  | renameWorkspace id name =>
    (.done,st.setWindow (st.window.renameWorkspace id.toNat (.ofList name)))
  | workspaceSetColor id color =>
    let c := if color = [] ∨ color = "none".toList then none
      else WorkspaceColor.fromName (.ofList color)
    (.done,st.setWindow (st.window.setWorkspaceColor id.toNat c))
  | workspacePin id => (.done,st.setWindow (st.window.toggleWorkspacePinned id.toNat))
  | toggleSidebar => (.done,st.setWindow (App.toggleSidebar st.window))
  | listPanes id =>
    match st.window.findWorkspaceById id.toNat with
    | some (_,ws,_) => (.numbers ws.panes.keys,st)
    | none => (.numbers [],st)
  | focusPane id =>
    match st.window.focusPaneById id.toNat with
    | (b,aw) => (.flag b,st.setWindow aw)
  | splitRight => (.done,st.setWindow (st.window.splitFocused .horizontal))
  | splitDown => (.done,st.setWindow (st.window.splitFocused .vertical))
  | listSurfaces => (.texts (env.listSurfaces st),st)
  | send id text =>
    match st.sendText id.toNat text with
    | some st => (.flag true,st)
    | none => (.flag false,st)
  | readScreen id => (.text ((env.readScreen id.toNat).getD ""),st)
  | openBrowser url =>
    -- the index is that of the current workspace, so the split cannot panic
    (.done,st.setWindow ((st.window.splitFocusedBrowser .horizontal
      (.ofList (normalizeUrl url))).getD st.window))
  | navigate id url => (.done,st.addEffect (.navigate id.toNat (normalizeUrl url)))
  | browserBack id => (.done,st.addEffect (.goBack id.toNat))
  | browserForward id => (.done,st.addEffect (.goForward id.toNat))
  | browserReload id => (.done,st.addEffect (.reload id.toNat))
  | getUrl id => (.text ((env.getUrl id.toNat).getD ""),st)
  | jsEval id script => (.done,st.addEffect (.evaluateJs id.toNat script))
  | setStatus key value icon color priority =>
    (.done,st.setWindow (st.window.setWorkspaceStatus (focused st) ⟨.ofList key,.ofList value,
      emptyAsNone icon,emptyAsNone color,priority.toInt⟩))
  | clearStatus key =>
    (.done,st.setWindow (st.window.clearWorkspaceStatus (focused st) (.ofList key)))
  | setProgress value label =>
    (.done,st.setWindow (st.window.setWorkspaceProgress (focused st) value (emptyAsNone label)))
  | clearProgress => (.done,st.setWindow (st.window.clearWorkspaceProgress (focused st)))
  | log message level =>
    (.done,st.setWindow (st.window.addWorkspaceLog (focused st)
      ⟨.ofList message,.fromStr (.ofList level),none⟩))
  | clearLog => (.done,st.setWindow (st.window.clearWorkspaceLog (focused st)))
  | notifyEnable => (.done,{ st with notifications := true })
  | notifyDisable => (.done,{ st with notifications := false })
  | notifyStatus => (.flag st.notifications,st)
  | remoteConnect destination port identityFile sshOptions =>
    (.number st.window.ids.workspace,st.newRemoteWorkspace env
      (remoteConfiguration destination port identityFile sshOptions))
  | remoteDisconnect id clear => (.done,st.disconnectRemote (zeroAsNone id) clear)
  | remoteReconnect id => (.done,st.reconnectRemote (zeroAsNone id))
  | remoteStatus id => (.text ((env.remoteStatus st (zeroAsNone id)).getD "\x7b\x7d"),st)

def verb : Method F → Verb
  | ping => .ping
  | version => .version
  | workspaceCount => .workspaceCount
  | newWorkspace => .newWorkspace
  | listWorkspaces => .listWorkspaces
  | currentWorkspace => .currentWorkspace
  | selectWorkspace _ => .selectWorkspace
  | closeWorkspace _ => .closeWorkspace
  | renameWorkspace _ _ => .renameWorkspace
  | workspaceSetColor _ _ => .workspaceSetColor
  | workspacePin _ => .workspacePin
  | toggleSidebar => .toggleSidebar
  | listPanes _ => .listPanes
  | focusPane _ => .focusPane
  | splitRight => .splitRight
  | splitDown => .splitDown
  | listSurfaces => .listSurfaces
  | send _ _ => .send
  | readScreen _ => .readScreen
  | openBrowser _ => .openBrowser
  | navigate _ _ => .navigate
  | browserBack _ => .browserBack
  | browserForward _ => .browserForward
  | browserReload _ => .browserReload
  | getUrl _ => .getUrl
  | jsEval _ _ => .jsEval
  | setStatus _ _ _ _ _ => .setStatus
  | clearStatus _ => .clearStatus
  | setProgress _ _ => .setProgress
  | clearProgress => .clearProgress
  | log _ _ => .log
  | clearLog => .clearLog
  | notifyEnable => .notifyEnable
  | notifyDisable => .notifyDisable
  | notifyStatus => .notifyStatus
  | remoteConnect _ _ _ _ => .remoteConnect
  | remoteDisconnect _ _ => .remoteDisconnect
  | remoteReconnect _ => .remoteReconnect
  | remoteStatus _ => .remoteStatus

end Method

end Dbus

end Limux
