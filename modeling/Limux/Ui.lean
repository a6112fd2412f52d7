import Limux.Widgets
import Limux.WindowRun

/-! The window together with its widgets: every operation on the workspaces, with what it
looks up in the widgets and what it does to them. The workspaces change as in `AppWindow`;
`none` is a panic, here also one of an `expect` on a widget. -/
namespace Limux

variable {F : Type}

structure Ui (F : Type) where
  window : AppWindow F
  widgets : HashMap WorkspaceId WorkspaceWidgets

namespace Ui

/-- `if let Some(widgets) = workspace_widgets.get_mut(&id)`. -/
def modifyWidgets (ui : Ui F) (id : WorkspaceId) (f : WorkspaceWidgets → WorkspaceWidgets) : Ui F :=
  { ui with widgets := ui.widgets.modify id f }

def freshWidgets (s : SurfaceId) (p : PaneId) : WorkspaceWidgets :=
  let (pw,ww) := WorkspaceWidgets.new.buildPaneWidget (.terminal s) (.glArea s)
  { ww with
    gtk := ww.gtk.setChild ww.rootPaned true (some pw.container)
    paneWidgets := ww.paneWidgets.insert p pw }

def newWorkspace (ui : Ui F) : Ui F :=
  let ids := ui.window.ids
  ⟨ui.window.newWorkspace,ui.widgets.insert ids.workspace (freshWidgets ids.surface ids.pane)⟩

def newRemoteWorkspace (ui : Ui F) (c : RemoteConfiguration) (port : Option UInt16)
    (id token : String) : Ui F :=
  let ids := ui.window.ids
  ⟨ui.window.newRemoteWorkspace c port id token,
    ui.widgets.insert ids.workspace (freshWidgets ids.surface ids.pane)⟩

def restoreWorkspaceFromLayout (ord : IterOrder NodeId) (ui : Ui F) (snap : WorkspaceSnapshot F)
    (port : Option UInt16) (id token : String) : Ui F :=
  let ids := ui.window.ids
  let (root,ww) := WorkspaceWidgets.buildLayoutWidget ord snap.layout
    (.new ids.workspace,{ ids with workspace := ids.workspace+1 }) .new
  ⟨AppWindow.restoreWorkspaceFromLayout ord ui.window snap port id token,
    ui.widgets.insert ids.workspace
      { ww with gtk := ww.gtk.setChild ww.rootPaned true (some root) }⟩

def removeWorkspaceAt (ui : Ui F) (i : ℕ) : Option (Ui F) :=
  (ui.window.workspaces[i]?).bind (fun ws =>
    (ui.window.removeWorkspaceAt i).map (fun aw => ⟨aw,ui.widgets.erase ws.id⟩))

/-- Widget part of `close_surface` and `close_browser`. Where the pane keeps other tabs,
only the visible child is set. -/
def closePanel (ui : Ui F) (i : ℕ) (ws : Workspace F) (p : PaneId) (rm : Pane → Pane) :
    Option (Ui F) :=
  let tabCount := ((ws.panes.lookup p).map (fun pane => pane.tabs.length)).getD 0
  let paneCount := ws.panes.keys.length
  (ui.window.closePanel i ws p rm).map (fun aw =>
    if tabCount ≤ 1 ∧ paneCount ≤ 1 then ⟨aw,ui.widgets.erase ws.id⟩
    else if tabCount ≤ 1 then ⟨aw,ui.widgets.modify ws.id (fun ww => ww.removePane p)⟩
    else match ws.panes.lookup p with
      | some pane => ⟨aw,ui.widgets.modify ws.id (fun ww => ww.showActive p (rm pane))⟩
      | none => ⟨aw,ui.widgets⟩)

def closeSurface (ui : Ui F) (s : SurfaceId) : Option (Ui F) :=
  match ui.window.findWorkspaceWithSurface s with
  | none => some ui
  | some (i,ws,p) => ui.closePanel i ws p (fun pane => pane.removeTab s)

def closeBrowser (ui : Ui F) (b : BrowserPanelId) : Option (Ui F) :=
  match ui.window.findWorkspaceWithBrowser b with
  | none => some ui
  | some (i,ws,p) => ui.closePanel i ws p (fun pane => pane.removeBrowserTab b)

def newPaneTab (ui : Ui F) : Ui F :=
  match ui.window.current with
  | none => ui
  | some (_,ws) =>
    match ws.focusedPane with
    | none => ui
    | some p =>
      let panel := PanelKind.terminal ui.window.ids.surface
      ⟨ui.window.newPaneTab,ui.widgets.modify ws.id (fun ww => ww.modifyStack p (fun s =>
        (s.addNamed ⟨panel.stackChildName,panel.widget⟩).setVisibleChildName
          panel.stackChildName))⟩

/-- Select a tab from the strip of its pane; the button carries the panel of the tab. -/
def selectPaneTabGeneric (ui : Ui F) (p : PaneId) (idx : ℕ) : Ui F :=
  ⟨ui.window.selectPaneTabGeneric p idx,
    match ui.window.findWorkspaceWithPane p with
    | some (_,ws,pane) =>
      match pane.tabs[idx]? with
      | some tab => ui.widgets.modify ws.id (fun ww =>
          ww.modifyStack p (fun s => s.setVisibleChildName tab.panel.stackChildName))
      | none => ui.widgets
    | none => ui.widgets⟩

def cyclePaneTab (ui : Ui F) (forward : Bool) : Ui F :=
  match ui.window.current with
  | none => ui
  | some (_,ws) =>
    match ws.focusedPane with
    | none => ui
    | some p =>
      ⟨ui.window.cyclePaneTab forward,
        match ws.panes.lookup p with
        | some pane => ui.widgets.modify ws.id (fun ww => ww.showActive p (pane.cycleTab forward))
        | none => ui.widgets⟩

section Splits

variable [F64Ops F]

/-- A new panel in a new pane beside `target`; `node` is the split node. -/
def splitWidgets (ui : Ui F) (ws : Workspace F) (target : PaneId) (panel : PanelKind)
    (o : Orientation) : HashMap WorkspaceId WorkspaceWidgets :=
  let new := ui.window.ids.pane
  let node := (ws.splitTree.split target new o).1
  ui.widgets.modify ws.id (fun ww =>
    let (pw,ww) := ww.buildPaneWidget panel panel.widget
    ww.addSplit (decide (ws.panes.keys.length = 1)) target new pw o node)

def splitFocused (ui : Ui F) (o : Orientation) : Ui F :=
  match ui.window.current with
  | none => ui
  | some (_,ws) =>
    match ws.focusedPane with
    | none => ui
    | some focused =>
      ⟨ui.window.splitFocused o,
        ui.splitWidgets ws focused (.terminal ui.window.ids.surface) o⟩

def splitBrowserInWorkspace (ui : Ui F) (i : ℕ) (fromPane : PaneId) (o : Orientation)
    (url : String) : Option (Ui F) :=
  (ui.window.workspaces[i]?).bind (fun ws =>
    (ui.window.splitBrowserInWorkspace i fromPane o url).map (fun aw =>
      ⟨aw,ui.splitWidgets ws fromPane (.browser ui.window.ids.browser url) o⟩))

def splitFocusedBrowser (ui : Ui F) (o : Orientation) (url : String) : Option (Ui F) :=
  match ui.window.current with
  | none => some ui
  | some (i,ws) =>
    match ws.focusedPane with
    | none => some ui
    | some focused => ui.splitBrowserInWorkspace i focused o url

def openBrowserPopup (ui : Ui F) (registered : Bool) (opener : BrowserPanelId) (url : String) :
    Option (Ui F) :=
  if !registered then some ui
  else match ui.window.findWorkspaceWithBrowser opener with
    | some (i,_,p) => ui.splitBrowserInWorkspace i p .horizontal url
    | none =>
      let page := ui.window.currentPage.getD 0
      match ui.window.workspaces[page]?.bind Workspace.focusedPane with
      | none => some ui
      | some p => ui.splitBrowserInWorkspace page p .horizontal url

/-- `rebuild_workspace_split_widgets`. -/
def rebuild (ui : Ui F) (i : ℕ) : Ui F :=
  match ui.window.workspaces[i]? with
  | some ws => ui.modifyWidgets ws.id (fun ww => ww.rebuild (cloneSplitTreeStructure ws.splitTree))
  | none => ui

def movePane (ui : Ui F) (source target : PaneId) (before : Bool) (o : Orientation) : Ui F :=
  match ui.window.current with
  | none => ui
  | some (i,ws) =>
    if (ws.panes.lookup source).isNone ∨ (ws.panes.lookup target).isNone then ui
    else
      let moved : Ui F := ⟨ui.window.movePane source target before o,ui.widgets⟩
      if (ws.splitTree.movePaneAdjacent source target before o).1 then moved.rebuild i else moved

end Splits

end Ui

end Limux
