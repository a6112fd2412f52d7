import Limux.Window

/-! Taking a session snapshot of the window and restoring a workspace from one
(`session_snapshot`, `restore_workspace_from_layout`, `build_layout_widget`). -/
namespace Limux

namespace AppWindow

variable {F : Type}

def snapshotLayoutNode (rd : PanelReaders) (nodes : Arena F) (panes : HashMap PaneId Pane) :
    ℕ → NodeId → LayoutSnapshot F
  | 0, _ => .single []
  | fuel+1, id =>
    match nodes.lookup id with
    | some (.leaf p) => .single (((panes.lookup p).map Pane.tabs).getD [] |>.map
        (fun t => t.toSnapshot rd))
    | some (.split o ratio a b) =>
      .split (match o with | .horizontal => "horizontal" | .vertical => "vertical") ratio
        (snapshotLayoutNode rd nodes panes fuel a) (snapshotLayoutNode rd nodes panes fuel b)
    | none => .single []

def nonEmpty {α : Type} (l : List α) : Option (List α) := if l.isEmpty then none else some l

def statusSnapshot (e : SidebarStatusEntry) : StatusEntrySnapshot :=
  ⟨e.key,e.value,e.icon,e.color,e.priority⟩

def logSnapshot (e : SidebarLogEntry) : LogEntrySnapshot := ⟨e.message,e.level.asStr,e.source⟩

/-- Snapshot of one workspace. The order of the status entries is that of the
hash map. -/
def workspaceSnapshot (rd : PanelReaders) (ws : Workspace F) : WorkspaceSnapshot F :=
  { title := ws.title
    customTitle := ws.customTitle
    workingDirectory := ws.workingDirectory
    color := ws.color.map WorkspaceColor.toName
    pinned := some ws.pinned
    layout := match ws.splitTree.root with
      | some root => snapshotLayoutNode rd ws.splitTree.nodes ws.panes ws.splitTree.fuel root
      | none => .single []
    statusEntries := nonEmpty (ws.statusEntries.values.map statusSnapshot)
    logEntries := nonEmpty (ws.logEntries.map logSnapshot)
    progress := ws.progress.map (fun p => ⟨p.value,p.label⟩)
    remoteConfig := ws.remoteConfig }

def sessionSnapshot (rd : PanelReaders) (aw : AppWindow F) : SessionSnapshot F :=
  { version := 1
    workspaces := aw.workspaces.map (workspaceSnapshot rd)
    selectedWorkspace := aw.currentPage
    sidebarWidth := some (if aw.sidebarVisible then aw.panedPosition else aw.sidebarLastWidth)
    sidebarVisible := some aw.sidebarVisible }

/-- Add a saved tab behind the others of its pane. Only tabs after the first
come through here. -/
def restoreTab (pane : Pane) (ids : IdCounters) (t : PaneTabSnapshot) : Pane × IdCounters :=
  if t.isBrowser then
    let pane := pane.addBrowserTab ids.browser (t.url.getD "")
    let pane := match t.title with
      | some title => pane.setBrowserTabTitle ids.browser title
      | none => pane
    (pane,{ ids with browser := ids.browser+1 })
  else
    let pane := pane.addTab ids.surface
    let pane := match t.title with
      | some title => pane.setTabTitle ids.surface title
      | none => pane
    let pane := match t.workingDirectory with
      | some dir => pane.setTabDirectory ids.surface dir
      | none => pane
    (pane,{ ids with surface := ids.surface+1 })

/-- The pane of a saved leaf; an empty leaf gets a default terminal. -/
def restorePane (ids : IdCounters) (tabs : List PaneTabSnapshot) : Pane × IdCounters :=
  match tabs with
  | [] => (.newWithId ids.pane ids.surface,
      { ids with pane := ids.pane+1, surface := ids.surface+1 })
  | t :: rest =>
    let (pane,ids) :=
      if t.isBrowser then
        (Pane.newBrowserWithId ids.pane ids.browser (t.url.getD ""),
          { ids with pane := ids.pane+1, browser := ids.browser+1 })
      else
        (Pane.newWithId ids.pane ids.surface,
          { ids with pane := ids.pane+1, surface := ids.surface+1 })
    let (pane,ids) := rest.foldl (fun s t => restoreTab s.1 s.2 t) (pane,ids)
    (pane.selectTab 0,ids)

/-- Model part of `build_layout_widget`: the panes go into the workspace, the
trees of the two halves are merged. -/
def buildLayout (ord : IterOrder NodeId) :
    LayoutSnapshot F → Workspace F × IdCounters → SplitTree F × Workspace F × IdCounters
  | .single tabs, (ws,ids) =>
    let (pane,ids) := restorePane ids tabs
    (.newWithPane pane.id,ws.addPane pane,ids)
  | .split o ratio first second, s =>
    let (t₁,s) := buildLayout ord first s
    let (t₂,s) := buildLayout ord second s
    (.merge ord t₁ t₂ (if o = "vertical" then .vertical else .horizontal) ratio,s)

def freshRelay (c : RemoteConfiguration) (port : Option UInt16) (id token : String) :
    RemoteConfiguration :=
  { c with relayPort := port, relayId := some id, relayToken := some token,
           localSocketPath := none }

def restoreStatus (entries : List StatusEntrySnapshot) : HashMap String SidebarStatusEntry :=
  entries.foldl (fun m e => m.insert e.key ⟨e.key,e.value,e.icon,e.color,e.priority⟩) ∅

/-- The restored workspace and the advanced allocators; `port`, `id` and `token`
are the generated relay credentials. -/
def restoredWorkspace (ord : IterOrder NodeId) (aw : AppWindow F) (snap : WorkspaceSnapshot F)
    (port : Option UInt16) (id token : String) : Workspace F × IdCounters :=
  let ws : Workspace F :=
    { (Workspace.new aw.ids.workspace : Workspace F) with
      customTitle := snap.customTitle
      title := snap.customTitle.getD aw.defaultTitle
      workingDirectory := snap.workingDirectory
      color := snap.color.bind WorkspaceColor.fromName
      pinned := snap.pinned.getD false }
  let (tree,ws,ids) := buildLayout ord snap.layout
    (ws,{ aw.ids with workspace := aw.ids.workspace+1 })
  let ws : Workspace F :=
    { ws with
      splitTree := tree
      statusEntries := restoreStatus (snap.statusEntries.getD [])
      logEntries := (snap.logEntries.getD []).map
        (fun e => ⟨e.message,.fromStr e.level,e.source⟩)
      progress := snap.progress.map (fun p => ⟨p.value,p.label⟩)
      remoteConfig := snap.remoteConfig.map (fun c => freshRelay c port id token)
      remoteState := if snap.remoteConfig.isSome then .connecting else .disconnected }
  -- the focused pane, or any pane of the map
  let ws := match ws.focusedPane.or ws.panes.keys.head? with
    | some p => ws.setFocusedPane p
    | none => ws
  (ws,ids)

def restoreWorkspaceFromLayout (ord : IterOrder NodeId) (aw : AppWindow F)
    (snap : WorkspaceSnapshot F) (port : Option UInt16) (id token : String) : AppWindow F :=
  let (ws,ids) := restoredWorkspace ord aw snap port id token
  { aw with ids := ids, workspaces := aw.workspaces ++ [ws] }

end AppWindow

end Limux
