import Limux.WindowRestore

/-! Runs of the window: every sequence of operations from an empty window. -/
namespace Limux

/-- An operation of the window with its arguments, or an event of the widgets
(another page shown, the sidebar moved). -/
inductive WindowOp (F : Type)
  | newWorkspace
  | newRemoteWorkspace (c : RemoteConfiguration) (port : Option UInt16) (id token : String)
  | restoreWorkspaceFromLayout (ord : IterOrder NodeId) (snap : WorkspaceSnapshot F)
      (port : Option UInt16) (id token : String)
  | removeWorkspaceAt (i : ℕ)
  | closeSurface (s : SurfaceId)
  | closeBrowser (b : BrowserPanelId)
  | newPaneTab
  | splitFocused (o : Orientation)
  | splitFocusedBrowser (o : Orientation) (url : String)
  | splitBrowserInWorkspace (i : ℕ) (fromPane : PaneId) (o : Orientation) (url : String)
  | openBrowserPopup (registered : Bool) (opener : BrowserPanelId) (url : String)
  | movePane (source target : PaneId) (before : Bool) (o : Orientation)
  | splitTabToPane (source : PaneId) (identity : TabDragIdentity) (o : Orientation)
      (before widgets : Bool)
  | splitTabToPaneTarget (source : PaneId) (identity : TabDragIdentity) (target : PaneId)
      (o : Orientation) (before widgets : Bool)
  | moveTabToPane (source : PaneId) (identity : TabDragIdentity) (target : PaneId)
      (insertion : TabInsertion) (widgets : Bool)
  | reorderTabInPane (p : PaneId) (identity : TabDragIdentity) (insertion : TabInsertion)
      (widgets : Bool)
  | moveTabToWorkspace (source : PaneId) (identity : TabDragIdentity) (targetWs : WorkspaceId)
      (widgets : Bool)
  | setFocusedSurface (s : SurfaceId)
  | setFocusedBrowser (b : BrowserPanelId)
  | focusPaneById (p : PaneId)
  | selectPaneTabGeneric (p : PaneId) (idx : ℕ)
  | cyclePaneTab (forward : Bool)
  | navigateSplit (forward : Bool)
  | navigateDirection (d : Direction)
  | equalizeSplits
  | syncRatio (id : WorkspaceId) (node : NodeId) (pos total : Int32)
  | onBrowserTitleChanged (b : BrowserPanelId) (title : String)
  | setSurfaceTitle (home : Option String) (s : SurfaceId) (title : String)
  | setSurfaceWorkingDirectory (home : Option String) (s : SurfaceId) (dir : String)
  | renameTab (p : PaneId) (idx : ℕ) (name : String)
  | setWorkspaceStatus (id : WorkspaceId) (e : SidebarStatusEntry)
  | clearWorkspaceStatus (id : WorkspaceId) (key : String)
  | addWorkspaceLog (id : WorkspaceId) (e : SidebarLogEntry)
  | clearWorkspaceLog (id : WorkspaceId)
  | setWorkspaceProgress (id : WorkspaceId) (value : F) (label : Option String)
  | clearWorkspaceProgress (id : WorkspaceId)
  | renameWorkspace (id : WorkspaceId) (name : String)
  | setWorkspaceColor (id : WorkspaceId) (c : Option WorkspaceColor)
  | toggleWorkspacePinned (id : WorkspaceId)
  | moveWorkspace (source target : WorkspaceId) (before : Bool)
  | disconnectRemote (id : Option WorkspaceId) (clear : Bool)
  | updateRemoteState (id : WorkspaceId) (st : RemoteConnectionState)
  | updateProxyEndpoint (id : WorkspaceId) (e : Option ProxyEndpoint)
  | showPage (page : Option ℕ)
  | moveSidebar (visible : Bool) (lastWidth position : Int)

variable {F : Type}

/-- The operations that may make a panel disappear. -/
def WindowOp.Closes : WindowOp F → Prop
  | .removeWorkspaceAt _ | .closeSurface _ | .closeBrowser _ => True
  | _ => False

/-- `split_browser_in_workspace` is only called for a pane of the workspace. -/
def WindowOp.Targeted (aw : AppWindow F) : WindowOp F → Prop
  | .splitBrowserInWorkspace i p _ _ => ∃ ws, aw.workspaces[i]? = some ws ∧ p ∈ ws.panes
  | _ => True

namespace AppWindow

variable [F64Ops F]

/-- One operation; `none` is a panic. -/
def step (aw : AppWindow F) : WindowOp F → Option (AppWindow F)
  | .newWorkspace => some aw.newWorkspace
  | .newRemoteWorkspace c port id token => some (aw.newRemoteWorkspace c port id token)
  | .restoreWorkspaceFromLayout ord snap port id token =>
    some (restoreWorkspaceFromLayout ord aw snap port id token)
  | .removeWorkspaceAt i => aw.removeWorkspaceAt i
  | .closeSurface s => aw.closeSurface s
  | .closeBrowser b => aw.closeBrowser b
  | .newPaneTab => some aw.newPaneTab
  | .splitFocused o => some (aw.splitFocused o)
  | .splitFocusedBrowser o url => aw.splitFocusedBrowser o url
  | .splitBrowserInWorkspace i p o url => aw.splitBrowserInWorkspace i p o url
  | .openBrowserPopup registered opener url => aw.openBrowserPopup registered opener url
  | .movePane source target before o => some (aw.movePane source target before o)
  | .splitTabToPane source x o before widgets => aw.splitTabToPane source x o before widgets
  | .splitTabToPaneTarget source x target o before widgets =>
    aw.splitTabToPaneTarget source x target o before widgets
  | .moveTabToPane source x target insertion widgets =>
    aw.moveTabToPane source x target insertion widgets
  | .reorderTabInPane p x insertion widgets => aw.reorderTabInPane p x insertion widgets
  | .moveTabToWorkspace source x targetWs widgets =>
    aw.moveTabToWorkspace source x targetWs widgets
  | .setFocusedSurface s => some (aw.setFocusedSurface s)
  | .setFocusedBrowser b => some (aw.setFocusedBrowser b)
  | .focusPaneById p => some (aw.focusPaneById p).2
  | .selectPaneTabGeneric p idx => some (aw.selectPaneTabGeneric p idx)
  | .cyclePaneTab forward => some (aw.cyclePaneTab forward)
  | .navigateSplit forward => some (aw.navigateSplit forward)
  | .navigateDirection d => some (aw.navigateDirection d)
  | .equalizeSplits => some aw.equalizeSplits
  | .syncRatio id node pos total => some (aw.syncRatio id node pos total)
  | .onBrowserTitleChanged b title => some (aw.onBrowserTitleChanged b title)
  | .setSurfaceTitle home s title => some (aw.setSurfaceTitle home s title)
  | .setSurfaceWorkingDirectory home s dir => some (aw.setSurfaceWorkingDirectory home s dir)
  | .renameTab p idx name => some (aw.renameTab p idx name)
  | .setWorkspaceStatus id e => some (aw.setWorkspaceStatus id e)
  | .clearWorkspaceStatus id key => some (aw.clearWorkspaceStatus id key)
  | .addWorkspaceLog id e => some (aw.addWorkspaceLog id e)
  | .clearWorkspaceLog id => some (aw.clearWorkspaceLog id)
  | .setWorkspaceProgress id value label => some (aw.setWorkspaceProgress id value label)
  | .clearWorkspaceProgress id => some (aw.clearWorkspaceProgress id)
  | .renameWorkspace id name => some (aw.renameWorkspace id name)
  | .setWorkspaceColor id c => some (aw.setWorkspaceColor id c)
  | .toggleWorkspacePinned id => some (aw.toggleWorkspacePinned id)
  | .moveWorkspace source target before => aw.moveWorkspace source target before
  | .disconnectRemote id clear => some (aw.disconnectRemote id clear)
  | .updateRemoteState id st => some (aw.updateRemoteState id st)
  | .updateProxyEndpoint id e => some (aw.updateProxyEndpoint id e)
  | .showPage page => some { aw with currentPage := page }
  | .moveSidebar visible lastWidth position => some { aw with
      sidebarVisible := visible, sidebarLastWidth := lastWidth, panedPosition := position }

end AppWindow

/-- Windows reached from an empty one by operations that satisfy `ok`. -/
inductive Reachable [F64Ops F] (ok : AppWindow F → WindowOp F → Prop) : AppWindow F → Prop
  | empty {aw : AppWindow F} : aw.workspaces = [] → Reachable ok aw
  | step {aw aw' : AppWindow F} (op : WindowOp F) :
      Reachable ok aw → ok aw op → aw.step op = some aw' → Reachable ok aw'

variable [F64Ops F] {aw aw' : AppWindow F}

theorem kept_step (h : WindowInv aw) {op : WindowOp F} (hok : op.Targeted aw)
    (hcl : ¬ op.Closes) (hs : aw.step op = some aw') : Kept aw aw' := by
  cases op with
  | removeWorkspaceAt i => exact absurd trivial hcl
  | closeSurface s => exact absurd trivial hcl
  | closeBrowser b => exact absurd trivial hcl
  | splitFocusedBrowser o url => exact kept_splitFocusedBrowser h o url hs
  | splitBrowserInWorkspace i p o url =>
    obtain ⟨ws,hi,hp⟩ := hok
    exact kept_splitBrowser h hi hp o url hs
  | openBrowserPopup registered opener url => exact kept_openBrowserPopup h registered opener url hs
  | splitTabToPane source x o before widgets =>
    exact kept_splitTabToPane h source x o before widgets hs
  | splitTabToPaneTarget source x target o before widgets =>
    exact kept_splitTabToPaneTarget h source x target o before widgets hs
  | moveTabToPane source x target insertion widgets =>
    exact kept_moveTabToPane h source x target insertion widgets hs
  | reorderTabInPane p x insertion widgets => exact kept_reorderTabInPane h p x insertion widgets hs
  | moveTabToWorkspace source x targetWs widgets =>
    exact kept_moveTabToWorkspace h source x targetWs widgets hs
  | moveWorkspace source target before => exact kept_moveWorkspace h source target before hs
  | newWorkspace => cases hs; exact kept_newWorkspace h
  | newRemoteWorkspace c port id token => cases hs; exact kept_newRemoteWorkspace h c port id token
  | restoreWorkspaceFromLayout ord snap port id token =>
    cases hs; exact kept_restoreWorkspaceFromLayout h ord snap port id token
  | newPaneTab => cases hs; exact kept_newPaneTab h
  | splitFocused o => cases hs; exact kept_splitFocused h o
  | movePane source target before o => cases hs; exact kept_movePane h source target before o
  | setFocusedSurface s => cases hs; exact kept_setFocusedSurface h s
  | setFocusedBrowser b => cases hs; exact kept_setFocusedBrowser h b
  | focusPaneById p => cases hs; exact kept_focusPaneById h p
  | selectPaneTabGeneric p idx => cases hs; exact kept_selectPaneTabGeneric h p idx
  | cyclePaneTab forward => cases hs; exact kept_cyclePaneTab h forward
  | navigateSplit forward => cases hs; exact kept_navigateSplit h forward
  | navigateDirection d => cases hs; exact kept_navigateDirection h d
  | equalizeSplits => cases hs; exact kept_equalizeSplits h
  | syncRatio id node pos total => cases hs; exact kept_syncRatio h id node pos total
  | onBrowserTitleChanged b title => cases hs; exact kept_onBrowserTitleChanged h b title
  | setSurfaceTitle home s title => cases hs; exact kept_setSurfaceTitle h home s title
  | setSurfaceWorkingDirectory home s dir =>
    cases hs; exact kept_setSurfaceWorkingDirectory h home s dir
  | renameTab p idx name => cases hs; exact kept_renameTab h p idx name
  | toggleWorkspacePinned id => cases hs; exact kept_toggleWorkspacePinned h id
  | disconnectRemote id clear => cases hs; exact kept_disconnectRemote h id clear
  | showPage page => cases hs; exact kept_view h rfl rfl
  | moveSidebar visible lastWidth position => cases hs; exact kept_view h rfl rfl
  | setWorkspaceStatus id e | clearWorkspaceStatus id key | addWorkspaceLog id e
  | clearWorkspaceLog id | setWorkspaceProgress id value label | clearWorkspaceProgress id
  | renameWorkspace id name | setWorkspaceColor id c | updateRemoteState id st
  | updateProxyEndpoint id e =>
    cases hs; exact kept_meta h id (fun _ => rfl) (fun _ => rfl) (fun _ => rfl)

theorem windowInv_step (h : WindowInv aw) {op : WindowOp F} (hok : op.Targeted aw)
    (hs : aw.step op = some aw') : WindowInv aw' := by
  by_cases hcl : op.Closes
  · cases op with
    | removeWorkspaceAt i => exact inv_removeWorkspaceAt h hs
    | closeSurface s => exact inv_closeSurface h s hs
    | closeBrowser b => exact inv_closeBrowser h b hs
    | _ => cases hcl
  · exact (kept_step h hok hcl hs).inv

theorem Reachable.windowInv (h : Reachable WindowOp.Targeted aw) : WindowInv aw := by
  induction h with
  | empty he =>
    refine ⟨by simp [he],by simp [he],by simp [he],by simp [he],?_,?_⟩ <;>
      simp [AppWindow.identities,he]
  | step op _ hok hs ih => exact windowInv_step ih hok hs

/-- In every reachable window the pane map and the tree of each workspace agree,
every pane has a selected tab, the focus is a pane, no panel is in two tabs, and
only closing operations lose one. -/
theorem reachable_window (h : Reachable WindowOp.Targeted aw) :
    (∀ ws ∈ aw.workspaces,
      (∀ p, p ∈ ws.panes ↔ p ∈ ws.splitTree.panes) ∧
      (∀ p pane, ws.panes.lookup p = some pane →
        pane.tabs ≠ [] ∧ pane.selectedTab < pane.tabs.length) ∧
      (∃ p ∈ ws.panes, ws.focusedPane = some p)) ∧
    aw.identities.Nodup ∧
    ∀ op aw', op.Targeted aw → ¬ op.Closes → aw.step op = some aw' →
      aw.identities ⊆ aw'.identities := by
  have hinv := h.windowInv
  refine ⟨fun ws hws => ?_,hinv.identities_nodup,fun op aw' hok hcl hs =>
    (kept_step hinv hok hcl hs).keep⟩
  have hw := hinv.ws ws hws
  exact ⟨hw.keys,fun p pane hl => ⟨hw.tabs p pane hl,(hw.ok hl).sel⟩,hw.focused⟩

/-- The window before anything is opened. -/
def AppWindow.start : AppWindow ℚ := ⟨[],none,true,240,240,⟨1,1,1,1⟩⟩

/-- A second pane beside the first, with a browser split from it. -/
def AppWindow.threePanes : AppWindow ℚ :=
  ((start.newWorkspace.splitFocused .horizontal).splitBrowserInWorkspace 0 1 .vertical
    "about:blank").getD start

theorem reachable_window_threePanes :
    Reachable WindowOp.Targeted AppWindow.threePanes ∧
      ∀ ws ∈ AppWindow.threePanes.workspaces, ∃ p ∈ ws.panes, ws.focusedPane = some p := by
  have h : Reachable WindowOp.Targeted AppWindow.threePanes := by
    refine .step (.splitBrowserInWorkspace 0 1 .vertical "about:blank")
      (.step (.splitFocused .horizontal) (.step .newWorkspace (.empty (rfl : AppWindow.start.workspaces = []))
        trivial rfl) trivial rfl) ⟨_,rfl,by decide⟩ rfl
  exact ⟨h,fun ws hws => ((reachable_window h).1 ws hws).2.2⟩

/-- Without a check of the pane the helper adds a pane that the tree does not have. -/
theorem stale_split_leaves_ghost_pane :
    ∃ aw : AppWindow ℚ, Reachable (fun _ _ => True) aw ∧
      ∃ ws ∈ aw.workspaces, ¬ ∀ p, p ∈ ws.panes ↔ p ∈ ws.splitTree.panes := by
  refine ⟨((AppWindow.start.newWorkspace).splitBrowserInWorkspace 0 7 .vertical
    "about:blank").getD .start,.step (.splitBrowserInWorkspace 0 7 .vertical "about:blank")
      (.step .newWorkspace (.empty (rfl : AppWindow.start.workspaces = [])) trivial rfl) trivial rfl,?_⟩
  refine ⟨_,List.mem_singleton.mpr rfl,fun hall => ?_⟩
  exact absurd ((hall 2).mp (by decide)) (by decide)

end Limux
