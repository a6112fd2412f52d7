import Limux.Window
import Limux.Lib.Number

/-! Commands of the control socket (`handle_command` in `app/src/socket.rs`): from
the text of a command to the arguments its handler works with, and what the
handler then does. -/
namespace Limux

/-- Texts of floating-point numbers: `Display` and `from_str` of `f64`. The text of
a value is one word, not an option, and is read back; NaN is one value. -/
class F64Text (F : Type) where
  display : F → Text
  parse : Text → Option F
  parse_display : ∀ x, parse (display x) = some x
  plain_display : ∀ x, (display x).Plain

/-- What a command does outside the window model. -/
inductive Effect
  | sendText (s : SurfaceId) (text : Text)
  | navigate (b : BrowserPanelId) (url : Text)
  | goBack (b : BrowserPanelId)
  | goForward (b : BrowserPanelId)
  | reload (b : BrowserPanelId)
  | evaluateJs (b : BrowserPanelId) (script : Text)
  | requestClose (panel : PanelKind)
  | connect (ws : WorkspaceId) (c : RemoteConfiguration)
  | disconnect (ws : WorkspaceId)
  | reconnect (ws : WorkspaceId) (c : RemoteConfiguration)
  deriving DecidableEq, Repr

/-- The application as the commands see it. -/
structure App (F : Type) where
  window : AppWindow F
  /-- Surfaces with a live terminal handle. -/
  handles : List SurfaceId
  notifications : Bool
  /-- Effects so far, oldest first. -/
  effects : List Effect

/-- What the commands read from other components, and the generated relay
credentials. -/
structure CommandEnv (F : Type) where
  listSurfaces : App F → List String
  listWorkspaces : App F → List String
  readScreen : SurfaceId → Option String
  getUrl : BrowserPanelId → Option String
  remoteStatus : App F → Option WorkspaceId → Option String
  relayPort : Option UInt16
  relayId : String
  relayToken : String

/-- The arguments a handler extracted from its command. -/
inductive Request (F : Type)
  | ping
  | version
  | listSurfaces
  | newWorkspace
  | newPaneTab
  | workspaceCount
  | listWorkspaces
  | workspaceSetColor (id : ℕ) (color : Text)
  | workspacePin (id : ℕ)
  | toggleSidebar
  | splitRight
  | splitDown
  | setStatus (ws : WorkspaceId) (key value : Text) (icon color : Option Text) (priority : ℤ)
  | clearStatus (ws : WorkspaceId) (key : Text)
  | setProgress (ws : WorkspaceId) (value : F) (label : Option Text)
  | clearProgress (ws : WorkspaceId)
  | log (ws : WorkspaceId) (message level : Text)
  | clearLog (ws : WorkspaceId)
  | selectWorkspace (id : ℕ)
  | closeWorkspace (id : ℕ)
  | currentWorkspace
  | listPanes (id : ℕ)
  | focusPane (id : ℕ)
  | renameWorkspace (id : ℕ) (name : Text)
  | send (id : ℕ) (text : Text)
  | readScreen (id : ℕ)
  | openBrowser (url : Text)
  | navigate (id : ℕ) (url : Text)
  | browserBack (id : ℕ)
  | browserForward (id : ℕ)
  | browserReload (id : ℕ)
  | getUrl (id : ℕ)
  | jsEval (id : ℕ) (script : Text)
  | notifyEnable
  | notifyDisable
  | notifyStatus
  | remoteConnect (destination : Text) (port : Option ℕ) (identity command : Option Text)
      (sshOptions : List Text)
  | remoteDisconnect (id : Option ℕ) (clear : Bool)
  | remoteReconnect (id : Option ℕ)
  | remoteStatus (id : Option ℕ)

/-- The command words. -/
inductive Verb
  | ping | version | listSurfaces | newWorkspace | newPaneTab | workspaceCount | listWorkspaces
  | workspaceSetColor | workspacePin | toggleSidebar | splitRight | splitDown | setStatus
  | clearStatus | setProgress | clearProgress | log | clearLog | selectWorkspace | closeWorkspace
  | currentWorkspace | listPanes | focusPane | renameWorkspace | send | readScreen | openBrowser
  | navigate | browserBack | browserForward | browserReload | getUrl | jsEval | notifyEnable
  | notifyDisable | notifyStatus | remoteConnect | remoteDisconnect | remoteReconnect
  | remoteStatus
  deriving DecidableEq, Repr

namespace Verb

/-- The words of the `match` in `handle_command`, with their verbs. -/
def table : List (String × Verb) :=
  [("ping",ping),("version",version),("list_surfaces",listSurfaces),
    ("new_workspace",newWorkspace),("new_tab",newWorkspace),("new_pane_tab",newPaneTab),
    ("workspace_count",workspaceCount),("tab_count",workspaceCount),
    ("list_workspaces",listWorkspaces),("workspace_set_color",workspaceSetColor),
    ("workspace_pin",workspacePin),("toggle_sidebar",toggleSidebar),("split_right",splitRight),
    ("split_down",splitDown),("set_status",setStatus),("clear_status",clearStatus),
    ("set_progress",setProgress),("clear_progress",clearProgress),("log",log),
    ("clear_log",clearLog),("select_workspace",selectWorkspace),
    ("close_workspace",closeWorkspace),("current_workspace",currentWorkspace),
    ("list_panes",listPanes),("focus_pane",focusPane),("rename_workspace",renameWorkspace),
    ("send",send),("read_screen",readScreen),("open_browser",openBrowser),("navigate",navigate),
    ("browser_back",browserBack),("browser_forward",browserForward),
    ("browser_reload",browserReload),("get_url",getUrl),("js_eval",jsEval),
    ("notify_enable",notifyEnable),("notify_disable",notifyDisable),
    ("notify_status",notifyStatus),("remote_connect",remoteConnect),
    ("remote_disconnect",remoteDisconnect),("remote_reconnect",remoteReconnect),
    ("remote_status",remoteStatus)]

def ofText (w : Text) : Option Verb := (table.find? (fun e => e.1.toList = w)).map Prod.snd

end Verb

/-- Positional arguments and `--key=value` options. -/
structure ParsedOpts where
  positional : List Text
  opts : HashMap Text Text

namespace ParsedOpts

/-- One word of the arguments. An option without a value is dropped. -/
def add (p : ParsedOpts) (w : Text) : ParsedOpts :=
  match Text.stripDashes w with
  | some kv =>
    match Text.splitOnce '=' kv with
    | some (k,v) => { p with opts := p.opts.insert k v }
    | none => p
  | none => { p with positional := p.positional ++ [w] }

end ParsedOpts

def parseOpts (args : Text) : ParsedOpts := (Text.words args).foldl ParsedOpts.add ⟨[],∅⟩

section Decode

variable {F : Type}

def parseArg (s : Text) (name : String) : Except String ℕ :=
  match Text.parseUnsigned (2^32) (Text.trim s) with
  | some n => .ok n
  | none => .error ("ERROR: invalid " ++ name)

/-- `splitn(2, ' ')` where two parts are required. -/
def twoParts (args : Text) (usage : String) : Except String (Text × Text) :=
  match Text.splitOnce ' ' args with
  | some p => .ok p
  | none => .error ("ERROR: usage: " ++ usage)

def focusedOr (st : App F) : Except String WorkspaceId :=
  match st.window.focusedWorkspaceId with
  | some id => .ok id
  | none => .error "ERROR: no focused workspace"

/-- The handlers up to the point where they have their arguments. -/
def Verb.decode [F64Text F] (st : App F) (args : Text) : Verb → Except String (Request F)
  | .ping => .ok .ping
  | .version => .ok .version
  | .listSurfaces => .ok .listSurfaces
  | .newWorkspace => .ok .newWorkspace
  | .newPaneTab => .ok .newPaneTab
  | .workspaceCount => .ok .workspaceCount
  | .listWorkspaces => .ok .listWorkspaces
  | .workspaceSetColor => do
    let parts ← twoParts args "workspace_set_color <id> <color|none>"
    let id ← parseArg parts.1 "workspace id"
    return .workspaceSetColor id parts.2
  | .workspacePin => do return .workspacePin (← parseArg args "workspace id")
  | .toggleSidebar => .ok .toggleSidebar
  | .splitRight => .ok .splitRight
  | .splitDown => .ok .splitDown
  | .setStatus => do
    let ws ← focusedOr st
    let parsed := parseOpts args
    match parsed.positional with
    | key :: v :: vs =>
      return .setStatus ws key (Text.spaced (v :: vs)) (parsed.opts.lookup "icon".toList)
        (parsed.opts.lookup "color".toList)
        (((parsed.opts.lookup "priority".toList).bind (Text.parseSigned (2^31))).getD 0)
    | _ =>
      .error "ERROR: usage: set_status <key> <value> [--icon=X] [--color=X] [--priority=N]"
  | .clearStatus => do
    let ws ← focusedOr st
    let key := Text.trim args
    if key = [] then .error "ERROR: usage: clear_status <key>" else return .clearStatus ws key
  | .setProgress => do
    let ws ← focusedOr st
    let parsed := parseOpts args
    match parsed.positional with
    | [] => .error "ERROR: usage: set_progress <0.0-1.0> [--label=X]"
    | v :: _ =>
      match F64Text.parse (Text.trim v) with
      | some value => return .setProgress ws value (parsed.opts.lookup "label".toList)
      | none => .error "ERROR: invalid progress value"
  | .clearProgress => do return .clearProgress (← focusedOr st)
  | .log => do
    let ws ← focusedOr st
    let parsed := parseOpts args
    if parsed.positional = [] then
      .error "ERROR: usage: log <message> [--level=info|warning|error|success]"
    else
      let level := (parsed.opts.lookup "level".toList).getD "info".toList
      return .log ws (Text.spaced parsed.positional) level
  | .clearLog => do return .clearLog (← focusedOr st)
  | .selectWorkspace => do return .selectWorkspace (← parseArg args "workspace id")
  | .closeWorkspace =>
    if Text.trim args = [] then do return .closeWorkspace (← focusedOr st)
    else do return .closeWorkspace (← parseArg args "workspace id")
  | .currentWorkspace => .ok .currentWorkspace
  | .listPanes =>
    match (if Text.trim args = [] then st.window.focusedWorkspaceId
      else Text.parseUnsigned (2^32) (Text.trim args)) with
    | some id => .ok (.listPanes id)
    | none => .error "ERROR: no workspace"
  | .focusPane => do return .focusPane (← parseArg args "pane id")
  | .renameWorkspace => do
    let parts ← twoParts args "rename_workspace <id> <name>"
    let id ← parseArg parts.1 "workspace id"
    return .renameWorkspace id (Text.trim parts.2)
  | .send => do
    let parts ← twoParts args "send <surface_id> <text>"
    let id ← parseArg parts.1 "surface id"
    return .send id parts.2
  | .readScreen => do return .readScreen (← parseArg args "surface id")
  | .openBrowser => .ok (.openBrowser (Text.trim args))
  | .navigate => do
    let parts ← twoParts args "navigate <browser_id> <url>"
    let id ← parseArg parts.1 "browser_id"
    return .navigate id (Text.trim parts.2)
  | .browserBack => do return .browserBack (← parseArg args "browser_id")
  | .browserForward => do return .browserForward (← parseArg args "browser_id")
  | .browserReload => do return .browserReload (← parseArg args "browser_id")
  | .getUrl => do return .getUrl (← parseArg args "browser_id")
  | .jsEval => do
    let parts ← twoParts args "js_eval <browser_id> <script>"
    let id ← parseArg parts.1 "browser_id"
    return .jsEval id parts.2
  | .notifyEnable => .ok .notifyEnable
  | .notifyDisable => .ok .notifyDisable
  | .notifyStatus => .ok .notifyStatus
  | .remoteConnect =>
    let parsed := parseOpts args
    match parsed.positional with
    | [] => .error "ERROR: remote_connect requires a destination"
    | destination :: _ =>
      .ok (.remoteConnect destination
        ((parsed.opts.lookup "port".toList).bind (Text.parseUnsigned (2^16)))
        (parsed.opts.lookup "identity".toList) (parsed.opts.lookup "command".toList)
        (parsed.opts.lookup "ssh-option".toList).toList)
  | .remoteDisconnect =>
    let parsed := parseOpts args
    .ok (.remoteDisconnect (parsed.positional.head?.bind (Text.parseUnsigned (2^32)))
      (parsed.opts.lookup "clear".toList).isSome)
  | .remoteReconnect =>
    .ok (.remoteReconnect ((Text.words args).head?.bind (Text.parseUnsigned (2^32))))
  | .remoteStatus =>
    .ok (.remoteStatus ((Text.words args).head?.bind (Text.parseUnsigned (2^32))))

/-- Command word and arguments, `splitn(2, ' ')`. -/
def commandParts (cmd : Text) : Text × Text := (Text.splitOnce ' ' cmd).getD (cmd,[])

def decodeCommand [F64Text F] (st : App F) (cmd : Text) : Except String (Request F) :=
  match Verb.ofText (commandParts cmd).1 with
  | some v => v.decode st (commandParts cmd).2
  | none => .error ("ERROR: unknown command: " ++ .ofList (commandParts cmd).1)

end Decode

/-! What the handlers do. -/

section Perform

variable {F : Type} [F64Ops F]

/-- "OK+<len>" and the text. -/
def lengthPrefixed (text : String) : String :=
  "OK+" ++ toString text.utf8ByteSize ++ "\n" ++ text

def listing (lines : List String) : String :=
  if lines = [] then "OK" else lengthPrefixed ("\n".intercalate lines)

def Workspace.displayTitle (ws : Workspace F) : String :=
  match ws.customTitle with
  | some t => if t.isEmpty then (if ws.title.isEmpty then "Terminal" else ws.title) else t
  | none => if ws.title.isEmpty then "Terminal" else ws.title

def normalizeUrl (input : Text) : Text :=
  let t := Text.trim input
  if t = [] then []
  else if "http://".toList.isPrefixOf t || "https://".toList.isPrefixOf t ||
      "file://".toList.isPrefixOf t then t
  else if t.contains '.' && !t.contains ' ' then "https://".toList ++ t
  else "https://www.google.com/search?q=".toList ++ Text.replace ' ' '+' t

namespace App

def setWindow (st : App F) (aw : AppWindow F) : App F := { st with window := aw }

def addEffect (st : App F) (e : Effect) : App F := { st with effects := st.effects ++ [e] }

def toggleSidebar (aw : AppWindow F) : AppWindow F :=
  if aw.sidebarVisible then
    { aw with
      sidebarLastWidth := if 0 < aw.panedPosition then aw.panedPosition else aw.sidebarLastWidth
      panedPosition := 0
      sidebarVisible := false }
  else { aw with panedPosition := aw.sidebarLastWidth, sidebarVisible := true }

def selectWorkspaceById (st : App F) (id : WorkspaceId) : Option (App F) :=
  (st.window.findWorkspaceById id).map (fun e =>
    st.setWindow { st.window with currentPage := some e.1 })

/-- Every panel is asked to close; a pinned workspace is not closed. -/
def closeWorkspaceById (st : App F) (id : WorkspaceId) : Option (App F) :=
  match st.window.findWorkspaceById id with
  | none => none
  | some (_,ws,_) =>
    if ws.pinned then none
    else some { st with effects := st.effects ++ ws.allPanels.map Effect.requestClose }

def sendText (st : App F) (s : SurfaceId) (text : Text) : Option (App F) :=
  if s ∈ st.handles then some (st.addEffect (.sendText s text)) else none

def newRemoteWorkspace (env : CommandEnv F) (st : App F) (c : RemoteConfiguration) : App F :=
  let aw := st.window.newRemoteWorkspace c env.relayPort env.relayId env.relayToken
  (st.setWindow aw).addEffect (.connect st.window.ids.workspace
    (AppWindow.fillRelay c env.relayPort env.relayId env.relayToken))

def disconnectRemote (st : App F) (id : Option WorkspaceId) (clear : Bool) : App F :=
  match id.or st.window.defaultRemote with
  | none => st
  | some ws => (st.setWindow (st.window.disconnectRemote (some ws) clear)).addEffect
      (.disconnect ws)

def reconnectRemote (st : App F) (id : Option WorkspaceId) : App F :=
  match id.or st.window.defaultRemote with
  | none => st
  | some ws =>
    match (st.window.findWorkspaceById ws).bind (fun e => e.2.1.remoteConfig) with
    | none => st
    | some c => st.addEffect (.reconnect ws c)

def perform (env : CommandEnv F) (st : App F) : Request F → String × App F
  | .ping => ("OK pong",st)
  | .version => ("OK limux 0.2.9",st)
  | .listSurfaces => (listing (env.listSurfaces st),st)
  | .newWorkspace => ("OK",st.setWindow st.window.newWorkspace)
  | .newPaneTab => ("OK",st.setWindow st.window.newPaneTab)
  | .workspaceCount => ("OK " ++ toString st.window.workspaces.length,st)
  | .listWorkspaces => (listing (env.listWorkspaces st),st)
  | .workspaceSetColor id color =>
    if color = "none".toList then ("OK",st.setWindow (st.window.setWorkspaceColor id none))
    else match WorkspaceColor.fromName (.ofList color) with
      | some c => ("OK",st.setWindow (st.window.setWorkspaceColor id (some c)))
      | none => ("ERROR: unknown color",st)
  | .workspacePin id => ("OK",st.setWindow (st.window.toggleWorkspacePinned id))
  | .toggleSidebar => ("OK",st.setWindow (toggleSidebar st.window))
  | .splitRight => ("OK",st.setWindow (st.window.splitFocused .horizontal))
  | .splitDown => ("OK",st.setWindow (st.window.splitFocused .vertical))
  | .setStatus ws key value icon color priority =>
    ("OK",st.setWindow (st.window.setWorkspaceStatus ws ⟨.ofList key,.ofList value,
      icon.map String.ofList,color.map String.ofList,priority⟩))
  | .clearStatus ws key => ("OK",st.setWindow (st.window.clearWorkspaceStatus ws (.ofList key)))
  | .setProgress ws value label =>
    ("OK",st.setWindow (st.window.setWorkspaceProgress ws value (label.map String.ofList)))
  | .clearProgress ws => ("OK",st.setWindow (st.window.clearWorkspaceProgress ws))
  | .log ws message level =>
    ("OK",st.setWindow (st.window.addWorkspaceLog ws
      ⟨.ofList message,.fromStr (.ofList level),none⟩))
  | .clearLog ws => ("OK",st.setWindow (st.window.clearWorkspaceLog ws))
  | .selectWorkspace id =>
    match st.selectWorkspaceById id with
    | some st => ("OK",st)
    | none => ("ERROR: workspace not found",st)
  | .closeWorkspace id =>
    match st.closeWorkspaceById id with
    | some st => ("OK",st)
    | none => ("ERROR: workspace not found or pinned",st)
  | .currentWorkspace =>
    match st.window.current with
    | some (_,ws) => ("OK " ++ toString ws.id ++ " " ++ ws.displayTitle,st)
    | none => ("ERROR: no focused workspace",st)
  | .listPanes id =>
    match st.window.findWorkspaceById id with
    | some (_,ws,_) => ("OK " ++ ",".intercalate (ws.panes.keys.map toString),st)
    | none => ("ERROR: workspace not found",st)
  | .focusPane id =>
    match st.window.focusPaneById id with
    | (true,aw) => ("OK",st.setWindow aw)
    | (false,_) => ("ERROR: pane not found",st)
  | .renameWorkspace id name => ("OK",st.setWindow (st.window.renameWorkspace id (.ofList name)))
  | .send id text =>
    match st.sendText id text with
    | some st => ("OK",st)
    | none => ("ERROR: surface not found",st)
  | .readScreen id =>
    match env.readScreen id with
    | some text => (lengthPrefixed text,st)
    | none => ("ERROR: surface not found",st)
  | .openBrowser url =>
    -- the index is that of the current workspace, so the split cannot panic
    ("OK",st.setWindow ((st.window.splitFocusedBrowser .horizontal
      (.ofList (normalizeUrl url))).getD st.window))
  | .navigate id url => ("OK",st.addEffect (.navigate id (normalizeUrl url)))
  | .browserBack id => ("OK",st.addEffect (.goBack id))
  | .browserForward id => ("OK",st.addEffect (.goForward id))
  | .browserReload id => ("OK",st.addEffect (.reload id))
  | .getUrl id =>
    match env.getUrl id with
    | some url => ("OK " ++ url,st)
    | none => ("ERROR: browser not found",st)
  | .jsEval id script => ("OK",st.addEffect (.evaluateJs id script))
  | .notifyEnable => ("OK",{ st with notifications := true })
  | .notifyDisable => ("OK",{ st with notifications := false })
  | .notifyStatus => ("OK " ++ (if st.notifications then "enabled" else "disabled"),st)
  | .remoteConnect destination port identity command sshOptions =>
    ("OK " ++ toString st.window.ids.workspace,st.newRemoteWorkspace env
      { destination := .ofList destination
        port := port.map UInt16.ofNat
        identityFile := identity.map String.ofList
        sshOptions := sshOptions.map String.ofList
        terminalStartupCommand := command.map String.ofList
        relayPort := none, relayId := none, relayToken := none, localSocketPath := none })
  | .remoteDisconnect id clear => ("OK",st.disconnectRemote id clear)
  | .remoteReconnect id => ("OK",st.reconnectRemote id)
  | .remoteStatus id =>
    match env.remoteStatus st id with
    | some json => (lengthPrefixed json,st)
    | none => ("ERROR: workspace not found or not remote",st)

end App

def handleCommand [F64Text F] (env : CommandEnv F) (st : App F) (cmd : String) : String × App F :=
  match decodeCommand st cmd.toList with
  | .ok r => st.perform env r
  | .error msg => (msg,st)

end Perform

end Limux
