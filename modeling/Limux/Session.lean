import Limux.Workspace

/-! Session snapshots (`app/src/session.rs`): the persisted form of the window. -/
namespace Limux

structure PaneTabSnapshot where
  workingDirectory : Option String
  title : Option String
  scrollback : Option String
  panelKind : Option String
  url : Option String
  deriving DecidableEq, Repr

def PaneTabSnapshot.isBrowser (t : PaneTabSnapshot) : Bool := t.panelKind = some "browser"

/-- Recursive split layout. -/
inductive LayoutSnapshot (F : Type)
  | single (tabs : List PaneTabSnapshot)
  | split (orientation : String) (ratio : F) (first second : LayoutSnapshot F)

structure StatusEntrySnapshot where
  key : String
  value : String
  icon : Option String
  color : Option String
  priority : Int
  deriving DecidableEq, Repr

structure LogEntrySnapshot where
  message : String
  level : String
  source : Option String
  deriving DecidableEq, Repr

structure ProgressSnapshot (F : Type) where
  value : F
  label : Option String

structure WorkspaceSnapshot (F : Type) where
  title : String
  customTitle : Option String
  workingDirectory : Option String
  color : Option String
  pinned : Option Bool
  layout : LayoutSnapshot F
  statusEntries : Option (List StatusEntrySnapshot)
  logEntries : Option (List LogEntrySnapshot)
  progress : Option (ProgressSnapshot F)
  remoteConfig : Option RemoteConfiguration

structure SessionSnapshot (F : Type) where
  version : ℕ
  workspaces : List (WorkspaceSnapshot F)
  selectedWorkspace : Option ℕ
  sidebarWidth : Option Int
  sidebarVisible : Option Bool

/-- What the live panels report at snapshot time. -/
structure PanelReaders where
  scrollback : SurfaceId → Option String
  url : BrowserPanelId → Option String

def Tab.toSnapshot (t : Tab) (rd : PanelReaders) : PaneTabSnapshot :=
  { workingDirectory := t.workingDirectory
    title := if t.title.isEmpty then none else some t.title
    scrollback := match t.panel with
      | .terminal s => rd.scrollback s
      | .browser _ _ => none
    panelKind := match t.panel with
      | .terminal _ => some "terminal"
      | .browser _ _ => some "browser"
    url := match t.panel with
      | .terminal _ => none
      | .browser b url => some ((rd.url b).getD url) }

end Limux
