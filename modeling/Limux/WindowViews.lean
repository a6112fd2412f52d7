import Limux.WindowRun
import Limux.SessionFile
import Limux.Gtk
import Limux.Lib.Reorder

/-! The pages of the notebook and the rows of the sidebar: every workspace has one of
each, and the operations that add, remove or reorder workspaces keep them in step. -/
namespace Limux

/-- The page and the sidebar row of a workspace. -/
structure WorkspaceView where
  overlay : WidgetId
  sidebarRow : WidgetId

structure Views where
  notebook : List WidgetId
  sidebarList : List WidgetId
  workspaceWidgets : HashMap WorkspaceId WorkspaceView
  /-- The next new widget. -/
  next : WidgetId

namespace Views

variable {F : Type}

def empty : Views := ⟨[],[],∅,0⟩

def pageNum (v : Views) (overlay : WidgetId) : Option ℕ := v.notebook.idxOf? overlay

/-- `reorder_child` takes the page out and puts it back at the position. -/
def reorderChild (v : Views) (overlay : WidgetId) (i : ℕ) : Views :=
  { v with notebook := Reorder.moveTo v.notebook overlay i }

/-- The row and the page of a new workspace go to the end. -/
def addWorkspace (v : Views) (id : WorkspaceId) : Views :=
  ⟨v.notebook ++ [v.next],v.sidebarList ++ [v.next+1],
    v.workspaceWidgets.insert id ⟨v.next,v.next+1⟩,v.next+2⟩

def removeWorkspace (v : Views) (id : WorkspaceId) : Views :=
  match v.workspaceWidgets.lookup id with
  | none => v
  | some w =>
    { v with
      notebook := v.notebook.eraseIdx ((v.pageNum w.overlay).getD 0)
      sidebarList := v.sidebarList.erase w.sidebarRow
      workspaceWidgets := v.workspaceWidgets.erase id }

def detachRow (v : Views) (id : WorkspaceId) : Views :=
  match v.workspaceWidgets.lookup id with
  | some w => { v with sidebarList := v.sidebarList.erase w.sidebarRow }
  | none => v

/-- Append the row of the workspace at `i`, and move its page there. -/
def attachView (v : Views) (id : WorkspaceId) (i : ℕ) : Views :=
  match v.workspaceWidgets.lookup id with
  | none => v
  | some w =>
    let v := { v with sidebarList := v.sidebarList ++ [w.sidebarRow] }
    match v.pageNum w.overlay with
    | some page => if page ≠ i then v.reorderChild w.overlay i else v
    | none => v

def reorderWorkspaceViews (v : Views) (workspaces : List WorkspaceId) : Views :=
  workspaces.zipIdx.foldl (fun v e => v.attachView e.1 e.2) (workspaces.foldl detachRow v)

end Views

namespace AppWindow

variable {F : Type}

def lastPanel (ws : Workspace F) (p : PaneId) : Bool :=
  ((ws.panes.lookup p).map (fun pane => pane.tabs.length)).getD 0 ≤ 1 ∧ ws.panes.keys.length ≤ 1

/-- The workspace for which an operation calls `remove_workspace_at`. -/
def closedAt (aw : AppWindow F) : WindowOp F → Option ℕ
  | .removeWorkspaceAt i => some i
  | .closeSurface s =>
    match aw.findWorkspaceWithSurface s with
    | none => none
    | some (i,ws,p) => if lastPanel ws p then some i else none
  | .closeBrowser b =>
    match aw.findWorkspaceWithBrowser b with
    | none => none
    | some (i,ws,p) => if lastPanel ws p then some i else none
  | .moveTabToWorkspace source identity targetWs widgets =>
    match aw.findWorkspaceWithPane source, aw.findWorkspaceById targetWs with
    | some (si,sws,spane), some (ti,tws,_) =>
      if si = ti then none
      else match dropTarget tws with
        | none => none
        | some target =>
          if (tws.splitTree.nodeIdForPane target).isNone ∨
              (sws.splitTree.nodeIdForPane source).isNone then none
          else match tabIndexForIdentity spane identity with
            | none => none
            | some idx =>
              if !widgets then none
              else match takeTab sws source idx with
                | none => none
                | some (_,sws) =>
                  if (sws.panes.lookup source).any (fun pane => pane.tabs = []) ∧
                      (sws.panes.erase source).keys = [] then some si
                  else none
    | _, _ => none
  | _ => none

/-- The views after an operation that turns `aw` into `aw'`. -/
def viewsAfter (aw : AppWindow F) (op : WindowOp F) (aw' : AppWindow F) (v : Views) : Views :=
  let order := aw'.workspaces.map Workspace.id
  match op with
  | .newWorkspace | .newRemoteWorkspace _ _ _ _ | .restoreWorkspaceFromLayout _ _ _ _ _ =>
    v.addWorkspace aw.ids.workspace
  | .toggleWorkspacePinned id =>
    if (aw.findWorkspaceById id).isSome then v.reorderWorkspaceViews order else v
  | .moveWorkspace source target _ =>
    match aw.findWorkspaceById source, aw.findWorkspaceById target with
    | some (_,sws,_), some (_,tws,_) =>
      if sws.pinned ≠ tws.pinned then v else v.reorderWorkspaceViews order
    | _, _ => v
  | op =>
    match (aw.closedAt op).bind (fun i => aw.workspaces[i]?) with
    | some ws => v.removeWorkspace ws.id
    | none => v

end AppWindow

structure ViewedWindow (F : Type) where
  window : AppWindow F
  views : Views

/-- What is made up for a restored workspace: the iteration order of its hash maps, and
the relay credentials if it is remote. -/
structure RestoreInput where
  ord : IterOrder NodeId
  port : Option UInt16
  id : String
  token : String

/-- A workspace dropped in the sidebar is dropped on another one, and saved workspaces
are restored with their session only. -/
def WindowOp.Dropped {F : Type} : WindowOp F → Prop
  | .moveWorkspace source target _ => source ≠ target
  | .restoreWorkspaceFromLayout _ _ _ _ _ => False
  | _ => True

namespace ViewedWindow

variable {F : Type} [F64Ops F]

def step (w : ViewedWindow F) (op : WindowOp F) : Option (ViewedWindow F) :=
  (w.window.step op).map (fun aw => ⟨aw,w.window.viewsAfter op aw w.views⟩)

/-- The workspaces of `restore_session`, the first one being the `i`-th. -/
def restoreSession (input : ℕ → RestoreInput) :
    ℕ → List (WorkspaceSnapshot F) → ViewedWindow F → Option (ViewedWindow F)
  | _, [], w => some w
  | i, snap :: rest, w =>
    (w.step (.restoreWorkspaceFromLayout (input i).ord snap (input i).port (input i).id
      (input i).token)).bind (restoreSession input (i+1) rest)

end ViewedWindow

/-- Windows reached by operations from an empty one, or from the session that such a
window saved. -/
inductive Opened {F : Type} [F64Finite F] : ViewedWindow F → Prop
  | empty {aw : AppWindow F} : aw.workspaces = [] → Opened ⟨aw,.empty⟩
  | step {w w' : ViewedWindow F} (op : WindowOp F) :
      Opened w → op.Targeted w.window → op.Dropped → w.step op = some w' → Opened w'
  | restored {w w' : ViewedWindow F} {aw : AppWindow F} {file : Json F} {s : SessionSnapshot F}
      (rd : PanelReaders) (input : ℕ → RestoreInput) : Opened w → aw.workspaces = [] →
      Session.save none none (AppWindow.sessionSnapshot rd w.window) = .ok file →
      Session.load (some file) = some s →
      ViewedWindow.restoreSession input 0 s.workspaces ⟨aw,.empty⟩ = some w' → Opened w'

end Limux
