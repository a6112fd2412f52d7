import Limux.Gtk
import Limux.WindowSession

/-! The widgets of one workspace (`window.rs`) and what the operations do to them: splits
and closed panes are cut into the tree of paneds in place, other moves rebuild the tree
from a snapshot of the split tree. -/
namespace Limux

variable {F : Type}

def PanelKind.stackChildName : PanelKind → String
  | .terminal s => "surface-" ++ toString s
  | .browser b _ => "browser-" ++ toString b

def PanelKind.widget : PanelKind → PanelWidget
  | .terminal s => .glArea s
  | .browser b _ => .browserBox b

def tabPanelWidget : PanelKind → PanelWidget → Option PanelWidget
  | .terminal _, .glArea s => some (.glArea s)
  | .browser _ _, .browserBox b => some (.browserBox b)
  | _, _ => none

structure PaneWidget where
  container : WidgetId
  stack : Stack

/-- The widgets of a workspace. `synced` are the handlers that `connect_paned_ratio_sync` has
put on a paned, with the node each one writes to. -/
structure WorkspaceWidgets where
  gtk : Gtk
  rootPaned : WidgetId
  paneWidgets : HashMap PaneId PaneWidget
  splitPaneds : HashMap NodeId WidgetId
  synced : List (WidgetId × NodeId)

/-- The part of a split tree a rebuild needs. -/
inductive TreeSnapshot
  | leaf (p : PaneId)
  | split (o : Orientation) (node : NodeId) (first second : TreeSnapshot)

def snapshotTreeNode (nodes : Arena F) : ℕ → NodeId → TreeSnapshot
  | 0, _ => .leaf 0
  | fuel+1, id =>
    match nodes.lookup id with
    | some (.leaf p) => .leaf p
    | some (.split o _ a b) =>
      .split o id (snapshotTreeNode nodes fuel a) (snapshotTreeNode nodes fuel b)
    | none => .leaf 0

def cloneSplitTreeStructure (t : SplitTree F) : Option TreeSnapshot :=
  t.root.map (snapshotTreeNode t.nodes t.fuel)

namespace WorkspaceWidgets

def new : WorkspaceWidgets :=
  let (root,g) := Gtk.empty.newPaned .horizontal
  ⟨g,root,∅,∅,[]⟩

def buildPaneWidget (ww : WorkspaceWidgets) (panel : PanelKind) (widget : PanelWidget) :
    PaneWidget × WorkspaceWidgets :=
  let (container,g) := ww.gtk.newBox
  let stack := (Stack.mk [] none).addNamed ⟨panel.stackChildName,widget⟩
  (⟨container,stack.setVisibleChildName panel.stackChildName⟩,{ ww with gtk := g })

def track (ww : WorkspaceWidgets) (node : NodeId) (paned : WidgetId) : WorkspaceWidgets :=
  { ww with
    splitPaneds := ww.splitPaneds.insert node paned
    synced := (paned,node) :: ww.synced }

def wrap (g : Gtk) (parent : WidgetId) (isStart : Bool) (o : Orientation)
    (first second : WidgetId) : WidgetId × Gtk :=
  let (paned,g) := g.newPaned o
  let g := g.setChild parent isStart none
  let g := (g.setChild paned true (some first)).setChild paned false (some second)
  (paned,g.setChild parent isStart (some paned))

/-- Widget part of a split beside `target`; `only`: there was one pane before. -/
def addSplit (ww : WorkspaceWidgets) (only : Bool) (target new : PaneId) (pw : PaneWidget)
    (o : Orientation) (node : Option NodeId) : WorkspaceWidgets :=
  let ww :=
    if only then
      let g := (ww.gtk.setOrientation ww.rootPaned o).setChild ww.rootPaned false
        (some pw.container)
      match node with
      | some n => { ww with gtk := g }.track n ww.rootPaned
      | none => { ww with gtk := g }
    else match ww.paneWidgets.lookup target with
      | none => ww
      | some tpw =>
        match ww.gtk.parent tpw.container with
        | none => ww
        | some parent =>
          let isStart := decide (ww.gtk.child parent true = some tpw.container)
          let (paned,g) := wrap ww.gtk parent isStart o tpw.container pw.container
          match node with
          | some n => { ww with gtk := g }.track n paned
          | none => { ww with gtk := g }
  { ww with paneWidgets := ww.paneWidgets.insert new pw }

/-- Widget part of `remove_pane_from_split`. -/
def removePane (ww : WorkspaceWidgets) (p : PaneId) : WorkspaceWidgets :=
  match ww.paneWidgets.lookup p with
  | none => ww
  | some pw =>
    let ww := { ww with paneWidgets := ww.paneWidgets.erase p }
    match ww.gtk.parent pw.container with
    | none => ww
    | some parent =>
      let isStart := decide (ww.gtk.child parent true = some pw.container)
      let sibling := ww.gtk.child parent (!isStart)
      let g := ww.gtk.setChild parent isStart none
      if parent = ww.rootPaned then
        -- the sibling moves to the start, or is there already
        match isStart, sibling with
        | true, some sib =>
          { ww with gtk := (g.setChild parent false none).setChild parent true (some sib) }
        | _, _ => { ww with gtk := g }
      else match sibling with
        | none => { ww with gtk := g }
        | some sib =>
          -- the sibling takes the place of the collapsed paned
          let g := match g.parent parent with
            | none => g
            | some gp =>
              let parentIsStart := decide (g.child gp true = some parent)
              let g := g.setChild parent (decide (g.child parent true = some sib)) none
              (g.setChild gp parentIsStart none).setChild gp parentIsStart (some sib)
          { ww with gtk := g, splitPaneds := ww.splitPaneds.retain (fun x => x ≠ parent) }

def detachContainers (ww : WorkspaceWidgets) : Gtk :=
  ww.paneWidgets.values.foldl (fun g pw =>
    match g.parent pw.container with
    | none => g
    | some parent =>
      g.setChild parent (decide (g.child parent true = some pw.container)) none) ww.gtk

/-- `build_widget_from_snapshot`. A pane without a widget gets a label. -/
def buildWidget : TreeSnapshot → WorkspaceWidgets → WidgetId × WorkspaceWidgets
  | .leaf p, ww =>
    match ww.paneWidgets.lookup p with
    | some pw => (pw.container,ww)
    | none =>
      let (label,g) := ww.gtk.newBox
      (label,{ ww with gtk := g })
  | .split o node a b, ww =>
    let (paned,g) := ww.gtk.newPaned o
    let (first,ww) := buildWidget a { ww with gtk := g }
    let (second,ww) := buildWidget b ww
    let g := (ww.gtk.setChild paned true (some first)).setChild paned false (some second)
    (paned,{ ww with gtk := g }.track node paned)

/-- `rebuild_split_widgets_from_snapshot`. -/
def rebuild (ww : WorkspaceWidgets) (snapshot : Option TreeSnapshot) : WorkspaceWidgets :=
  let g := ww.detachContainers
  let g := (g.setChild ww.rootPaned true none).setChild ww.rootPaned false none
  let ww := { ww with gtk := g, splitPaneds := ∅ }
  match snapshot with
  | none => ww
  | some s =>
    let (root,ww) := buildWidget s ww
    { ww with gtk := ww.gtk.setChild ww.rootPaned true (some root) }

def savedPanel (ids : IdCounters) (t : PaneTabSnapshot) : PanelKind × IdCounters :=
  if t.isBrowser then
    (.browser ids.browser (t.url.getD ""),{ ids with browser := ids.browser+1 })
  else (.terminal ids.surface,{ ids with surface := ids.surface+1 })

/-- The widget of a saved leaf: all its tabs, the first one shown. -/
def restorePaneWidget (ww : WorkspaceWidgets) (ids : IdCounters) :
    List PaneTabSnapshot → PaneWidget × WorkspaceWidgets
  | [] => ww.buildPaneWidget (.terminal ids.surface) (.glArea ids.surface)
  | t :: rest =>
    let (first,ids) := savedPanel ids t
    let (pw,ww) := ww.buildPaneWidget first first.widget
    let stack := (rest.foldl (fun (s : Stack × IdCounters) t =>
      let (panel,ids) := savedPanel s.2 t
      (s.1.addNamed ⟨panel.stackChildName,panel.widget⟩,ids)) (pw.stack,ids)).1
    ({ pw with stack := stack.setVisibleChildName first.stackChildName },ww)

/-- Widget part of `build_layout_widget`, beside `AppWindow.buildLayout` on the same state. A
paned is tracked under the root of the tree that is merged for it. -/
def buildLayoutWidget (ord : IterOrder NodeId) : LayoutSnapshot F → Workspace F × IdCounters →
    WorkspaceWidgets → WidgetId × WorkspaceWidgets
  | .single tabs, s, ww =>
    let (pw,ww) := ww.restorePaneWidget s.2 tabs
    let pane := (AppWindow.restorePane s.2 tabs).1
    (pw.container,{ ww with paneWidgets := ww.paneWidgets.insert pane.id pw })
  | .split o ratio first second, s, ww =>
    let (firstWidget,ww) := buildLayoutWidget ord first s ww
    let (secondWidget,ww) := buildLayoutWidget ord second (AppWindow.buildLayout ord first s).2 ww
    let (paned,g) := ww.gtk.newPaned (if o = "vertical" then .vertical else .horizontal)
    let g := (g.setChild paned true (some firstWidget)).setChild paned false (some secondWidget)
    match (AppWindow.buildLayout ord (.split o ratio first second) s).1.root with
    | some root => (paned,{ ww with gtk := g }.track root paned)
    | none => (paned,{ ww with gtk := g })

def modifyStack (ww : WorkspaceWidgets) (p : PaneId) (f : Stack → Stack) : WorkspaceWidgets :=
  { ww with paneWidgets := ww.paneWidgets.modify p (fun pw => { pw with stack := f pw.stack }) }

def showActive (ww : WorkspaceWidgets) (p : PaneId) (pane : Pane) : WorkspaceWidgets :=
  match pane.activePanel with
  | some panel => ww.modifyStack p (fun s => s.setVisibleChildName panel.stackChildName)
  | none => ww

end WorkspaceWidgets

end Limux
