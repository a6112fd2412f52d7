import Limux.WindowOrder
import Limux.Command
import Limux.Lib.Machine

/-! What the desktop shows of the window (`app/src/window.rs`, `tray.rs`, `dbus.rs`): bell
dots in the sidebar, highlighted panes, the menu of the tray, signals on the bus. Bells ring
at any time; callbacks of the notebook and timers run when the main loop gets to them. -/
namespace Limux

/-- A workspace in the menu of the tray. -/
structure TrayWorkspaceEntry where
  id : WorkspaceId
  title : String
  hasBell : Bool
  deriving DecidableEq, Repr

inductive DbusSignal
  | workspaceCreated (id : WorkspaceId) (title : String)
  | workspaceClosed (id : WorkspaceId)
  | workspaceSwitched (id : WorkspaceId)
  | workspaceRenamed (id : WorkspaceId) (title : String)
  | bellFired (workspaceId : WorkspaceId) (surfaceId : SurfaceId)
  | titleChanged (surfaceId : SurfaceId) (title : String)
  | remoteStateChanged (workspaceId : WorkspaceId) (state : RemoteConnectionState)
      (detail : String)
  deriving DecidableEq

structure Desktop (F : Type) where
  window : AppWindow F
  /-- `has_bell` of the workspaces and of the panes. -/
  wsBell : WorkspaceId → Bool
  paneBell : PaneId → Bool
  /-- The rows with a dot and the containers with the class `pane-bell`. -/
  rowBell : WorkspaceId → Bool
  paneClass : PaneId → Bool
  tray : List TrayWorkspaceEntry
  /-- Page numbers of the idle callbacks that wait, the oldest first. -/
  idle : List ℕ
  /-- The panes whose highlight a timer is to clear. -/
  timers : List (WorkspaceId × PaneId)
  signals : List DbusSignal

namespace Desktop

variable {F : Type}

def start (aw : AppWindow F) : Desktop F :=
  ⟨aw,fun _ => false,fun _ => false,fun _ => false,fun _ => false,[],[],[],[]⟩

def trayEntries (d : Desktop F) : List TrayWorkspaceEntry :=
  d.window.workspaces.map (fun ws => ⟨ws.id,ws.displayTitle,d.wsBell ws.id⟩)

def updateTrayState (d : Desktop F) : Desktop F := { d with tray := d.trayEntries }

/-- `Tray::status`. -/
def needsAttention (d : Desktop F) : Bool := d.tray.any TrayWorkspaceEntry.hasBell

def emit (d : Desktop F) (s : DbusSignal) : Desktop F := { d with signals := d.signals ++ [s] }

def setWsBell (d : Desktop F) (id : WorkspaceId) (b : Bool) : Desktop F :=
  { d with
    wsBell := Function.update d.wsBell id b
    rowBell := Function.update d.rowBell id b }

/-- The flag of a pane, with the class of its container. -/
def setPaneBell (d : Desktop F) (p : PaneId) (b : Bool) : Desktop F :=
  { d with
    paneBell := Function.update d.paneBell p b
    paneClass := Function.update d.paneClass p b }

def markWorkspace (d : Desktop F) (i : ℕ) (id : WorkspaceId) : Desktop F :=
  if i ≠ d.window.currentPage.getD 0 ∧ d.wsBell id = false then d.setWsBell id true else d

/-- The highlight of a pane that is not the focused one of the page. -/
def markPane (d : Desktop F) (i : ℕ) (focused : Option PaneId) (p : PaneId) : Desktop F :=
  if focused = some p ∧ i = d.window.currentPage.getD 0 then d else d.setPaneBell p true

/-- A bell in a terminal. The notification is not part of this model. -/
def handleBell (d : Desktop F) (s : SurfaceId) : Desktop F :=
  match d.window.findWorkspaceWithSurface s with
  | none => d
  | some (i,ws,p) =>
    ((d.markWorkspace i ws.id).markPane i ws.focusedPane p).updateTrayState.emit (.bellFired ws.id
      (((ws.panes.lookup p).bind (fun pane => pane.tabs[pane.selectedTab]?.bind Tab.surfaceId)).getD
        0))

def clearDot (d : Desktop F) (id : WorkspaceId) : Desktop F :=
  if d.wsBell id then (d.setWsBell id false).updateTrayState else d

/-- The highlight of the focused pane stays for half a second. -/
def clearWorkspaceBell (d : Desktop F) (page : ℕ) : Desktop F :=
  match d.window.workspaces[page]? with
  | none => d
  | some ws =>
    let d := d.clearDot ws.id
    match ws.focusedPane with
    | some p =>
      if (ws.panes.lookup p).isSome ∧ d.paneBell p then
        { d with timers := d.timers ++ [(ws.id,p)] }
      else d
    | none => d

def clearPaneBell (d : Desktop F) (id : WorkspaceId) (p : PaneId) : Desktop F :=
  if d.window.workspaces.any (fun ws => ws.id = id ∧ (ws.panes.lookup p).isSome) then
    d.setPaneBell p false
  else d

def focusPane (d : Desktop F) (found : Option PaneId) : Desktop F :=
  match found with
  | some p => if d.paneBell p then d.setPaneBell p false else d
  | none => d

/-- The window changes, the notebook turns to some pages and shows `page`. Its handler leaves
the work to callbacks. -/
def turn (d : Desktop F) (aw : AppWindow F) (page : Option ℕ) (turned : List ℕ) : Desktop F :=
  { d with
    window := { aw with currentPage := page }
    idle := d.idle ++ turned }

/-- What an operation that was done in `before` tells the tray and the bus. The flag of a
workspace goes with it; a restored one is not announced. -/
def report (before : AppWindow F) (op : WindowOp F) (d : Desktop F) : Desktop F :=
  match op with
  | .newWorkspace =>
    d.updateTrayState.emit (.workspaceCreated before.ids.workspace before.defaultTitle)
  | .newRemoteWorkspace c port id token =>
    d.updateTrayState.emit (.workspaceCreated before.ids.workspace
      (AppWindow.fillRelay c port id token).displayTarget)
  | .renameWorkspace id name => d.updateTrayState.emit (.workspaceRenamed id name)
  | .setSurfaceTitle _ s title =>
    if (before.findWorkspaceWithSurface s).isSome then d.emit (.titleChanged s title) else d
  | .setFocusedSurface s =>
    d.focusPane ((before.findWorkspaceWithSurface s).map (fun found => found.2.2))
  | .setFocusedBrowser b =>
    d.focusPane ((before.findWorkspaceWithBrowser b).map (fun found => found.2.2))
  | op =>
    match (before.closedAt op).bind (fun i => before.workspaces[i]?) with
    | some ws => (d.setWsBell ws.id false).updateTrayState.emit (.workspaceClosed ws.id)
    | none => d

end Desktop

inductive DesktopEvent (F : Type)
  /-- An operation, during which the notebook turned to the pages `turned`; it shows `page`. -/
  | op (op : WindowOp F) (page : Option ℕ) (turned : List ℕ)
  | selectWorkspaceById (id : WorkspaceId) (turned : List ℕ)
  | pushState (id : WorkspaceId) (st : RemoteConnectionState) (detail : String)
  | bell (s : SurfaceId)
  | idle
  | timer (k : ℕ)

namespace Desktop

variable {F : Type} [F64Ops F]

/-- One event of the main loop; `none` where it cannot happen, or panics. -/
def step (d : Desktop F) : DesktopEvent F → Option (Desktop F)
  | .op op page turned =>
    (d.window.step op).map (fun aw => report d.window op (d.turn aw page turned))
  | .selectWorkspaceById id turned =>
    match d.window.findWorkspaceById id with
    | some (i,_,_) => some ((d.turn d.window (some i) turned).emit (.workspaceSwitched id))
    | none => some d
  | .pushState id st detail =>
    some ((d.turn (d.window.updateRemoteState id st) d.window.currentPage []).emit
      (.remoteStateChanged id st detail))
  | .bell s => some (d.handleBell s)
  | .idle =>
    match d.idle with
    | [] => none
    | page :: rest => some ({ d with idle := rest }.clearWorkspaceBell page)
  | .timer k =>
    (d.timers[k]?).map (fun t => { d with timers := d.timers.eraseIdx k }.clearPaneBell t.1 t.2)

/-- The workspace whose page the notebook shows. -/
def shown (d : Desktop F) : Option WorkspaceId :=
  d.window.currentPage.bind (fun i => d.window.order[i]?)

/-- The arguments of an operation are those of its callers. -/
def Targeted (d : Desktop F) : DesktopEvent F → Prop
  | .op op _ _ => op.Targeted d.window
  | _ => True

/-- When the notebook shows another page, a callback with its number waits. -/
def Notified (d : Desktop F) (e : DesktopEvent F) : Prop :=
  ∀ d', d.step e = some d' →
    d'.shown = d.shown ∨ ∀ i, d'.window.currentPage = some i → i ∈ d'.idle

/-- While callbacks wait, no workspace is closed or gets another place. -/
def Calm (d : Desktop F) (e : DesktopEvent F) : Prop :=
  d.idle = [] ∨ ∀ d', d.step e = some d' → d.window.order <+: d'.window.order

variable {d d' : Desktop F} {aw aw' : AppWindow F}

/-! What one operation does to the order of the workspaces. -/

def closed (aw : AppWindow F) (op : WindowOp F) : Option (Workspace F) :=
  (aw.closedAt op).bind (fun i => aw.workspaces[i]?)

/-- The operations that make a workspace. -/
def Opens : WindowOp F → Prop
  | .newWorkspace | .newRemoteWorkspace _ _ _ _ | .restoreWorkspaceFromLayout _ _ _ _ _ => True
  | _ => False

/-- A workspace at the end, at most another order, or one less. -/
theorem order_step (h : WindowInv aw) {op : WindowOp F} (hs : aw.step op = some aw') :
    (Opens op ∧ closed aw op = none ∧ aw'.order = aw.order ++ [aw.ids.workspace]) ∨
      (¬ Opens op ∧ closed aw op = none ∧ aw'.order.Perm aw.order) ∨
      ∃ ws, closed aw op = some ws ∧ aw'.order.Perm (aw.order.erase ws.id) := by
  by_cases hop : op.Arranges
  · cases op with
    | newWorkspace =>
      cases hs
      exact .inl ⟨trivial,rfl,List.map_append ..⟩
    | newRemoteWorkspace c port id token =>
      cases hs
      exact .inl ⟨trivial,rfl,List.map_append ..⟩
    | restoreWorkspaceFromLayout ord snap port id token =>
      cases hs
      refine .inl ⟨trivial,rfl,?_⟩
      rw [← (restoredWorkspace_head ord aw snap port id token).1]
      exact List.map_append ..
    | toggleWorkspacePinned id => cases hs; exact .inr (.inl ⟨not_false,rfl,order_toggle id⟩)
    | moveWorkspace source target before =>
      exact .inr (.inl ⟨not_false,rfl,order_moveWorkspace hs⟩)
    | _ => cases hop
  · have hno : ¬ Opens op := by
      intro ho
      cases op <;> first | exact hop trivial | exact ho
    have horder : aw'.order = (aw.leftOpen op).map Workspace.id :=
      map_of_forall₂ (step_each hs hop) (fun _ _ he => he.id_eq)
    rw [horder,AppWindow.leftOpen,closed]
    right
    cases aw.closedAt op with
    | none => exact .inl ⟨hno,rfl,.refl _⟩
    | some i =>
      simp only [Option.bind_some,Option.elim_some]
      cases hi : aw.workspaces[i]? with
      | none =>
        rw [List.eraseIdx_of_length_le (List.getElem?_eq_none_iff.mp hi)]
        exact .inl ⟨hno,rfl,.refl _⟩
      | some ws =>
        refine .inr ⟨ws,rfl,.of_eq ?_⟩
        obtain ⟨hlt,hget⟩ := List.getElem?_eq_some_iff.mp hi
        rw [← List.eraseIdx_map,AppWindow.order,← h.ids_nodup.erase_getElem i (by simpa using hlt),
          List.getElem_map,hget]

end Desktop

end Limux
