import Limux.Ui

/-! Tab moves with their widgets. Each first makes all its lookups and gives up without a
change where one fails; from then on a failing lookup is a panic. -/
namespace Limux.Ui

variable {F : Type}

/-- What `split_tab_to_pane` has looked up: the workspace with its index, the pane of the tab,
the tab with its index, the widgets, and the paned around the container with its side. -/
structure SplitLookups (F : Type) where
  index : ℕ
  ws : Workspace F
  tabIdx : ℕ
  tab : Tab
  ww : WorkspaceWidgets
  pw : PaneWidget
  panel : PanelWidget
  nestedParent : Option (WidgetId × Bool)

def splitTabLookups (ui : Ui F) (source : PaneId) (identity : TabDragIdentity) :
    Option (SplitLookups F) := do
  let (i,ws) ← ui.window.current
  let pane ← ws.panes.lookup source
  guard (2 ≤ pane.tabs.length ∧ (ws.splitTree.nodeIdForPane source).isSome)
  let idx ← tabIndexForIdentity pane identity
  let ww ← ui.widgets.lookup ws.id
  let pw ← ww.paneWidgets.lookup source
  let tab ← pane.tabs[idx]?
  let moving ← pw.stack.childByName tab.panel.stackChildName
  let panel ← tabPanelWidget tab.panel moving.widget
  let nested ←
    if 1 < ws.panes.keys.length then
      (ww.gtk.parent pw.container).map (fun parent =>
        some (parent,decide (ww.gtk.child parent true = some pw.container)))
    else some none
  pure ⟨i,ws,idx,tab,ww,pw,panel,nested⟩

/-- The new pane goes into the layout: into the root paned if there was one pane, else into
a new paned in the slot of the source. -/
def placeTab (ww : WorkspaceWidgets) (container : WidgetId) (pw : PaneWidget) (new : PaneId)
    (nested : Option (WidgetId × Bool)) (only before : Bool) (o : Orientation) (node : NodeId) :
    Option WorkspaceWidgets :=
  if only then
    let root := ww.rootPaned
    let g := ww.gtk.setOrientation root o
    let g :=
      if before then
        (((g.setChild root true none).setChild root false none).setChild root true
          (some pw.container)).setChild root false (some container)
      else g.setChild root false (some pw.container)
    let ww := { ww with gtk := g }.track node root
    some { ww with paneWidgets := ww.paneWidgets.insert new pw }
  else
    -- `expect("validated source parent")`
    nested.map (fun (parent,isStart) =>
      let (paned,g) := WorkspaceWidgets.wrap ww.gtk parent isStart o
        (if before then pw.container else container) (if before then container else pw.container)
      let ww := { ww with gtk := g }.track node paned
      { ww with paneWidgets := ww.paneWidgets.insert new pw })

section Splits

variable [F64Ops F]

def splitTabToPane (ui : Ui F) (source : PaneId) (identity : TabDragIdentity) (o : Orientation)
    (before : Bool) : Option (Ui F) :=
  match ui.splitTabLookups source identity with
  | none => some ui
  | some l =>
    let new := ui.window.ids.pane
    (ui.window.splitTabToPane source identity o before true).bind (fun aw =>
    (aw.workspaces[l.index]?).bind (fun ws =>
    -- `expect("source pane still has tabs")`
    (ws.panes.lookup source).bind (fun sourcePane =>
    -- `expect("new pane was inserted")`
    (ws.panes.lookup new).bind (fun _ =>
    -- `expect("validated source pane must be splittable")`
    (l.ws.splitTree.splitAt before source new o).1.bind (fun node =>
    -- `expect("validated workspace widgets")`
    (ui.widgets.lookup l.ws.id).bind (fun ww =>
      let ww := ww.modifyStack source (fun s => s.remove l.tab.panel.stackChildName)
      let (pw,ww) := ww.buildPaneWidget l.tab.panel l.panel
      let ww := ww.showActive source sourcePane
      (placeTab ww l.pw.container pw new l.nestedParent (decide (l.ws.panes.keys.length = 1))
        before o node).map (fun ww => ⟨aw,ui.widgets.insert l.ws.id ww⟩)))))))

/-- What the moves between two panes have looked up. -/
structure MoveLookups (F : Type) where
  index : ℕ
  ws : Workspace F
  tabIdx : ℕ
  tab : Tab
  ww : WorkspaceWidgets
  source : PaneWidget
  moving : StackChild

/-- The common lookups of `split_tab_to_pane_target` and `move_tab_to_pane`. The stack of the
target may not have the child yet. -/
def moveTabLookups (ui : Ui F) (source : PaneId) (identity : TabDragIdentity) (target : PaneId) :
    Option (MoveLookups F) := do
  let (i,ws) ← ui.window.current
  guard (source ≠ target ∧ (ws.splitTree.nodeIdForPane source).isSome ∧
    (ws.splitTree.nodeIdForPane target).isSome)
  let pane ← ws.panes.lookup source
  let idx ← tabIndexForIdentity pane identity
  let tab ← pane.tabs[idx]?
  let ww ← ui.widgets.lookup ws.id
  let spw ← ww.paneWidgets.lookup source
  let tpw ← ww.paneWidgets.lookup target
  let moving ← spw.stack.childByName tab.panel.stackChildName
  guard ((tpw.stack.childByName tab.panel.stackChildName).isNone)
  pure ⟨i,ws,idx,tab,ww,spw,moving⟩

def splitTabToPaneTarget (ui : Ui F) (source : PaneId) (identity : TabDragIdentity)
    (target : PaneId) (o : Orientation) (before : Bool) : Option (Ui F) :=
  match (do
    let l ← ui.moveTabLookups source identity target
    let panel ← tabPanelWidget l.tab.panel l.moving.widget
    guard ((l.ww.gtk.parent l.source.container).isSome)
    pure (l,panel)) with
  | none => some ui
  | some (l,panel) =>
    let new := ui.window.ids.pane
    (AppWindow.takeTab l.ws source l.tabIdx).bind (fun (tab,taken) =>
    -- `expect("source pane remains until cleanup")`
    ((taken.addPane (paneFromTab new tab)).panes.lookup source).bind (fun sourcePane =>
    -- `expect("source workspace widgets remain")`, `expect("source pane widget remains")`
    (ui.widgets.lookup l.ws.id).bind (fun ww =>
    (ww.paneWidgets.lookup source).bind (fun _ =>
      let ww := ww.modifyStack source (fun s => s.remove l.tab.panel.stackChildName)
      let (pw,ww) := ww.buildPaneWidget l.tab.panel panel
      let ww := ww.showActive source sourcePane
      let ww := if sourcePane.tabs = [] then ww.removePane source else ww
      -- `expect("validated target pane must be splittable")`
      (ui.window.splitTabToPaneTarget source identity target o before true).bind (fun aw =>
      (aw.workspaces[l.index]?).bind (fun ws =>
      -- `expect("new pane was inserted")`
      (ws.panes.lookup new).bind (fun _ =>
      -- `expect("new split must have a root")`
      (cloneSplitTreeStructure ws.splitTree).map (fun snapshot =>
        let ww := { ww with paneWidgets := ww.paneWidgets.insert new pw }
        ⟨aw,ui.widgets.insert l.ws.id (ww.rebuild (some snapshot))⟩))))))))

end Splits

def moveChild (ww : WorkspaceWidgets) (target : PaneId) (c : StackChild) (name : String) :
    WorkspaceWidgets :=
  ww.modifyStack target (fun s => (s.addNamed ⟨name,c.widget⟩).setVisibleChildName name)

def moveTabToPane (ui : Ui F) (source : PaneId) (identity : TabDragIdentity) (target : PaneId)
    (insertion : TabInsertion) : Option (Ui F) :=
  match (do
    let l ← ui.moveTabLookups source identity target
    let targetPane ← l.ws.panes.lookup target
    let targetIdx ← insertionIndexForTarget targetPane insertion
    pure (l,targetIdx)) with
  | none => some ui
  | some (l,targetIdx) =>
    let name := l.tab.panel.stackChildName
    (AppWindow.takeTab l.ws source l.tabIdx).bind (fun (tab,taken) =>
    -- `expect("validated target pane")`, `Vec::insert`
    (AppWindow.putTab taken target targetIdx tab).bind (fun put =>
    -- `expect("source pane remains until cleanup")`
    (put.panes.lookup source).bind (fun sourcePane =>
    (ui.window.moveTabToPane source identity target insertion true).bind (fun aw =>
    (aw.workspaces[l.index]?).bind (fun ws =>
    (ui.widgets.lookup l.ws.id).bind (fun ww =>
      let ww := ww.modifyStack source (fun s => s.remove name)
      let ww := moveChild ww target l.moving name
      if sourcePane.tabs = [] then
        let ww := ww.removePane source
        some ⟨aw,ui.widgets.insert l.ws.id (ww.rebuild (cloneSplitTreeStructure ws.splitTree))⟩
      else
        -- `expect("source pane widget remains")`
        (ww.paneWidgets.lookup source).map (fun _ =>
          ⟨aw,ui.widgets.insert l.ws.id (ww.showActive source sourcePane)⟩)))))))

def reorderTabInPane (ui : Ui F) (p : PaneId) (identity : TabDragIdentity)
    (insertion : TabInsertion) : Option (Ui F) :=
  match (do
    let (_,ws) ← ui.window.current
    let pane ← ws.panes.lookup p
    guard ((ws.splitTree.nodeIdForPane p).isSome)
    let fromIndex ← tabIndexForIdentity pane identity
    let _ ← insertionIndexForTarget pane insertion
    let ww ← ui.widgets.lookup ws.id
    let pw ← ww.paneWidgets.lookup p
    let tab ← pane.tabs[fromIndex]?
    pw.stack.childByName tab.panel.stackChildName) with
  | none => some ui
  | some _ =>
    (ui.window.reorderTabInPane p identity insertion true).map (fun aw => ⟨aw,ui.widgets⟩)

/-- What `move_tab_to_workspace` has looked up. -/
structure WorkspaceMove (F : Type) where
  sourceIdx : ℕ
  sourceWs : Workspace F
  targetIdx : ℕ
  targetWs : Workspace F
  target : PaneId
  tabIdx : ℕ
  tab : Tab
  moving : StackChild

def workspaceMoveLookups (ui : Ui F) (source : PaneId) (identity : TabDragIdentity)
    (targetId : WorkspaceId) : Option (WorkspaceMove F) := do
  let (si,sws,_) ← ui.window.findWorkspaceWithPane source
  let (ti,tws,_) ← ui.window.findWorkspaceById targetId
  guard (si ≠ ti)
  let target ← AppWindow.dropTarget tws
  guard ((tws.splitTree.nodeIdForPane target).isSome ∧
    (sws.splitTree.nodeIdForPane source).isSome)
  let pane ← sws.panes.lookup source
  let idx ← tabIndexForIdentity pane identity
  let tab ← pane.tabs[idx]?
  let sww ← ui.widgets.lookup sws.id
  let spw ← sww.paneWidgets.lookup source
  let tww ← ui.widgets.lookup targetId
  let tpw ← tww.paneWidgets.lookup target
  let moving ← spw.stack.childByName tab.panel.stackChildName
  guard ((tpw.stack.childByName tab.panel.stackChildName).isNone)
  guard ((sww.gtk.parent spw.container).isSome)
  pure ⟨si,sws,ti,tws,target,idx,tab,moving⟩

def moveTabToWorkspace (ui : Ui F) (source : PaneId) (identity : TabDragIdentity)
    (targetId : WorkspaceId) : Option (Ui F) :=
  match ui.workspaceMoveLookups source identity targetId with
  | none => some ui
  | some l =>
    let name := l.tab.panel.stackChildName
    -- `expect("validated source pane")`
    (AppWindow.takeTab l.sourceWs source l.tabIdx).bind (fun (_,taken) =>
    -- `expect("source pane remains until cleanup")`
    (taken.panes.lookup source).bind (fun sourcePane =>
    (ui.window.moveTabToWorkspace source identity targetId true).bind (fun aw =>
      let widgets := ui.widgets.modify l.sourceWs.id (fun ww =>
        ww.modifyStack source (fun s => s.remove name))
      let widgets := widgets.modify targetId (fun ww => moveChild ww l.target l.moving name)
      let widgets : Option (HashMap WorkspaceId WorkspaceWidgets) :=
        if sourcePane.tabs = [] then
          let rest := (taken.splitTree.remove source).2
          let widgets := widgets.modify l.sourceWs.id (fun ww =>
            (ww.removePane source).rebuild (cloneSplitTreeStructure rest))
          if (taken.panes.erase source).keys = [] then some (widgets.erase l.sourceWs.id)
          else some widgets
        else
          -- `expect("source pane has an active tab")`, `expect("source workspace widgets remain")`,
          -- `expect("source pane widget remains")`
          sourcePane.activePanel.bind (fun _ =>
          (widgets.lookup l.sourceWs.id).bind (fun ww =>
          (ww.paneWidgets.lookup source).map (fun _ =>
            widgets.insert l.sourceWs.id (ww.showActive source sourcePane))))
      widgets.bind (fun widgets =>
      -- `expect("destination workspace widgets survive tab move")`, `expect("destination pane
      -- widget survives tab move")`
      (widgets.lookup targetId).bind (fun tww =>
      (tww.paneWidgets.lookup l.target).map (fun _ => ⟨aw,widgets⟩))))))

/-- One operation. The argument `widgets` of a tab move is not used: here the widgets are
looked up. -/
def step [F64Ops F] (ui : Ui F) : WindowOp F → Option (Ui F)
  | .newWorkspace => some ui.newWorkspace
  | .newRemoteWorkspace c port id token => some (ui.newRemoteWorkspace c port id token)
  | .restoreWorkspaceFromLayout ord snap port id token =>
    some (restoreWorkspaceFromLayout ord ui snap port id token)
  | .removeWorkspaceAt i => ui.removeWorkspaceAt i
  | .closeSurface s => ui.closeSurface s
  | .closeBrowser b => ui.closeBrowser b
  | .newPaneTab => some ui.newPaneTab
  | .splitFocused o => some (ui.splitFocused o)
  | .splitFocusedBrowser o url => ui.splitFocusedBrowser o url
  | .splitBrowserInWorkspace i p o url => ui.splitBrowserInWorkspace i p o url
  | .openBrowserPopup registered opener url => ui.openBrowserPopup registered opener url
  | .movePane source target before o => some (ui.movePane source target before o)
  | .splitTabToPane source x o before _ => ui.splitTabToPane source x o before
  | .splitTabToPaneTarget source x target o before _ =>
    ui.splitTabToPaneTarget source x target o before
  | .moveTabToPane source x target insertion _ => ui.moveTabToPane source x target insertion
  | .reorderTabInPane p x insertion _ => ui.reorderTabInPane p x insertion
  | .moveTabToWorkspace source x targetWs _ => ui.moveTabToWorkspace source x targetWs
  | .selectPaneTabGeneric p idx => some (ui.selectPaneTabGeneric p idx)
  | .cyclePaneTab forward => some (ui.cyclePaneTab forward)
  | op => (ui.window.step op).map (fun aw => ⟨aw,ui.widgets⟩)

end Limux.Ui
