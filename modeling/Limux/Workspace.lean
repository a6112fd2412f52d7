import Limux.Split

/-! Workspaces, panes and tabs (`app/src/workspace.rs`). Fields that only feed
the sidebar (bells, git branch, listening ports, daemon status) are left out. -/
namespace Limux

abbrev WorkspaceId := ℕ

inductive WorkspaceColor
  | red | orange | yellow | green | blue | purple | pink | gray
  deriving DecidableEq, Repr

namespace WorkspaceColor

/-- `fmt::Display`. -/
def toName : WorkspaceColor → String
  | .red => "red"
  | .orange => "orange"
  | .yellow => "yellow"
  | .green => "green"
  | .blue => "blue"
  | .purple => "purple"
  | .pink => "pink"
  | .gray => "gray"

/-- The names `from_name` knows, all in lower case. -/
def names : List (String × WorkspaceColor) :=
  [("red",.red),("orange",.orange),("yellow",.yellow),("green",.green),("blue",.blue),
    ("purple",.purple),("pink",.pink),("gray",.gray),("grey",.gray)]

/-- Lower-casing as far as an ASCII result can tell: the Kelvin sign is the only
other character whose lower case is an ASCII letter. -/
def toLowercase (s : String) : String :=
  .ofList (s.toList.map (fun c => if c.toNat = 0x212a then 'k' else c.toLower))

def fromName (name : String) : Option WorkspaceColor :=
  (names.find? (fun e => e.1 = toLowercase name)).map Prod.snd

end WorkspaceColor

/-- What a tab holds. -/
inductive PanelKind
  | terminal (surfaceId : SurfaceId)
  | browser (browserId : BrowserPanelId) (url : String)
  deriving DecidableEq, Repr

/-- A panel without its url: the stable identity of a dragged tab. -/
inductive TabDragIdentity
  | surface (id : SurfaceId)
  | browser (id : BrowserPanelId)
  deriving DecidableEq, Repr

def TabDragIdentity.matchesPanel : TabDragIdentity → PanelKind → Bool
  | .surface s, .terminal t => s = t
  | .browser b, .browser c _ => b = c
  | _, _ => false

def panelDragIdentity : PanelKind → TabDragIdentity
  | .terminal s => .surface s
  | .browser b _ => .browser b

structure Tab where
  panel : PanelKind
  title : String
  workingDirectory : Option String
  workingDirectoryFromOsc7 : Bool
  deriving DecidableEq, Repr

namespace Tab

def surfaceId (t : Tab) : Option SurfaceId :=
  match t.panel with
  | .terminal s => some s
  | .browser _ _ => none

def browserId (t : Tab) : Option BrowserPanelId :=
  match t.panel with
  | .terminal _ => none
  | .browser b _ => some b

/-- A tab as every constructor of the source creates it. -/
def fresh (panel : PanelKind) : Tab := ⟨panel,"",none,false⟩

end Tab

structure Pane where
  id : PaneId
  tabs : List Tab
  selectedTab : ℕ
  deriving DecidableEq, Repr

namespace Pane

def single (id : PaneId) (panel : PanelKind) : Pane := ⟨id,[.fresh panel],0⟩

def newWithId (id : PaneId) (s : SurfaceId) : Pane := single id (.terminal s)

def newBrowserWithId (id : PaneId) (b : BrowserPanelId) (url : String) : Pane :=
  single id (.browser b url)

def activePanel (p : Pane) : Option PanelKind := p.tabs[p.selectedTab]?.map Tab.panel

def push (p : Pane) (panel : PanelKind) : Pane :=
  { p with tabs := p.tabs ++ [.fresh panel], selectedTab := p.tabs.length }

def addTab (p : Pane) (s : SurfaceId) : Pane := p.push (.terminal s)

def addBrowserTab (p : Pane) (b : BrowserPanelId) (url : String) : Pane := p.push (.browser b url)

/-- Remove the first tab that satisfies `f`; the selected index only moves when
it would leave the list. -/
def removeWhere (p : Pane) (f : Tab → Bool) : Pane :=
  match p.tabs.findIdx? f with
  | some idx =>
    let tabs := p.tabs.eraseIdx idx
    { p with
      tabs := tabs
      selectedTab := if tabs.length ≤ p.selectedTab ∧ tabs ≠ [] then tabs.length-1
        else p.selectedTab }
  | none => p

def removeTab (p : Pane) (s : SurfaceId) : Pane := p.removeWhere (fun t => t.surfaceId = some s)

def removeBrowserTab (p : Pane) (b : BrowserPanelId) : Pane :=
  p.removeWhere (fun t => t.browserId = some b)

def selectTab (p : Pane) (idx : ℕ) : Pane :=
  if idx < p.tabs.length then { p with selectedTab := idx } else p

def cycleTab (p : Pane) (forward : Bool) : Pane :=
  if p.tabs.length ≤ 1 then p
  else if forward then { p with selectedTab := (p.selectedTab+1) % p.tabs.length }
  else { p with selectedTab := (p.selectedTab+p.tabs.length-1) % p.tabs.length }

/-- Update the first tab that satisfies `f`. -/
def updateWhere (p : Pane) (f : Tab → Bool) (g : Tab → Tab) : Pane :=
  match p.tabs.findIdx? f with
  | some idx => { p with tabs := p.tabs.modify idx g }
  | none => p

def setTabTitle (p : Pane) (s : SurfaceId) (title : String) : Pane :=
  p.updateWhere (fun t => t.surfaceId = some s) (fun t => { t with title := title })

def setBrowserTabTitle (p : Pane) (b : BrowserPanelId) (title : String) : Pane :=
  p.updateWhere (fun t => t.browserId = some b) (fun t => { t with title := title })

def setTabDirectory (p : Pane) (s : SurfaceId) (dir : String) : Pane :=
  p.updateWhere (fun t => t.surfaceId = some s) (fun t => { t with workingDirectory := some dir })

def hasSurface (p : Pane) (s : SurfaceId) : Bool := p.tabs.any (fun t => t.surfaceId = some s)

def hasBrowser (p : Pane) (b : BrowserPanelId) : Bool := p.tabs.any (fun t => t.browserId = some b)

end Pane

inductive LogLevel
  | info | progress | success | warning | error
  deriving DecidableEq, Repr

namespace LogLevel

def fromStr (s : String) : LogLevel :=
  if s = "progress" then .progress
  else if s = "success" then .success
  else if s = "warning" ∨ s = "warn" then .warning
  else if s = "error" then .error
  else .info

def asStr : LogLevel → String
  | .info => "info"
  | .progress => "progress"
  | .success => "success"
  | .warning => "warning"
  | .error => "error"

theorem fromStr_asStr (l : LogLevel) : fromStr l.asStr = l := by
  cases l <;> decide

end LogLevel

structure SidebarStatusEntry where
  key : String
  value : String
  icon : Option String
  color : Option String
  priority : Int
  deriving DecidableEq, Repr

structure SidebarLogEntry where
  message : String
  level : LogLevel
  source : Option String
  deriving DecidableEq, Repr

structure SidebarProgressState (F : Type) where
  value : F
  label : Option String

/-- Per-workspace ssh settings (`app/src/remote/config.rs`). -/
structure RemoteConfiguration where
  destination : String
  port : Option UInt16
  identityFile : Option String
  sshOptions : List String
  terminalStartupCommand : Option String
  relayPort : Option UInt16
  relayId : Option String
  relayToken : Option String
  localSocketPath : Option String
  deriving DecidableEq, Repr

def RemoteConfiguration.displayTarget (c : RemoteConfiguration) : String :=
  match c.port with
  | some p => c.destination ++ ":" ++ toString p.toNat
  | none => c.destination

inductive RemoteConnectionState
  | disconnected | connecting | connected | error
  deriving DecidableEq, Repr

/-- Host and port of a proxy tunnel. -/
structure ProxyEndpoint where
  host : String
  port : UInt16
  deriving DecidableEq, Repr

structure Workspace (F : Type) where
  id : WorkspaceId
  title : String
  customTitle : Option String
  workingDirectory : Option String
  color : Option WorkspaceColor
  pinned : Bool
  panes : HashMap PaneId Pane
  splitTree : SplitTree F
  statusEntries : HashMap String SidebarStatusEntry
  logEntries : List SidebarLogEntry
  progress : Option (SidebarProgressState F)
  remoteConfig : Option RemoteConfiguration
  remoteState : RemoteConnectionState
  proxyEndpoint : Option ProxyEndpoint

namespace Workspace

variable {F : Type}

/-- `Workspace::new` with the allocated id. -/
def new (id : WorkspaceId) : Workspace F :=
  { id := id, title := "", customTitle := none, workingDirectory := none, color := none,
    pinned := false, panes := ∅, splitTree := .new, statusEntries := ∅, logEntries := [],
    progress := none, remoteConfig := none, remoteState := .disconnected,
    proxyEndpoint := none }

def focusedPane (ws : Workspace F) : Option PaneId := ws.splitTree.focused

def setFocusedPane (ws : Workspace F) (p : PaneId) : Workspace F :=
  { ws with splitTree := ws.splitTree.setFocused p }

def addPane (ws : Workspace F) (p : Pane) : Workspace F :=
  { ws with panes := ws.panes.insert p.id p }

def removePane (ws : Workspace F) (p : PaneId) : Workspace F :=
  { ws with panes := ws.panes.erase p }

/-- `panes.get_mut(&p)` followed by an update. -/
def modifyPane (ws : Workspace F) (p : PaneId) (f : Pane → Pane) : Workspace F :=
  { ws with panes := ws.panes.modify p f }

def allPanels (ws : Workspace F) : List PanelKind :=
  ws.panes.values.flatMap (fun p => p.tabs.map Tab.panel)

def paneForSurface (ws : Workspace F) (s : SurfaceId) : Option PaneId :=
  (ws.panes.entries.find? (fun e => e.2.hasSurface s)).map Sigma.fst

def paneForBrowser (ws : Workspace F) (b : BrowserPanelId) : Option PaneId :=
  (ws.panes.entries.find? (fun e => e.2.hasBrowser b)).map Sigma.fst

/-- Take title and directory over from the active tab of the focused pane. -/
def updateTitleFromFocused (ws : Workspace F) : Workspace F :=
  match ws.focusedPane.bind (fun p => ws.panes.lookup p) with
  | none => ws
  | some pane =>
    match pane.tabs[pane.selectedTab]? with
    | none => ws
    | some tab =>
      let ws := if tab.title.isEmpty then ws else { ws with title := tab.title }
      if tab.workingDirectory.isSome then { ws with workingDirectory := tab.workingDirectory }
      else ws

end Workspace

end Limux
