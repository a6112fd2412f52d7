import Limux.Session
import Limux.Lib.Text

/-! The window model (`app/src/window.rs`): workspaces, their panes, tabs and
split trees, and every operation that changes them. Widget calls are left out;
where an operation gives up because a widget lookup fails, the outcome of the
lookups is its argument `widgets`. The result `none` is a panic (`expect`, index). -/
namespace Limux

inductive TabInsertion
  | before (anchor : TabDragIdentity)
  | append
  deriving DecidableEq, Repr

/-- Next values of the id allocators. -/
structure IdCounters where
  workspace : ℕ
  pane : ℕ
  surface : ℕ
  browser : ℕ

structure AppWindow (F : Type) where
  workspaces : List (Workspace F)
  /-- `notebook.current_page()`. -/
  currentPage : Option ℕ
  sidebarVisible : Bool
  sidebarLastWidth : Int
  /-- `main_paned.position()`. -/
  panedPosition : Int
  ids : IdCounters

/-! Helpers on one pane. -/

def tabIndexForIdentity (p : Pane) (i : TabDragIdentity) : Option ℕ :=
  p.tabs.findIdx? (fun t => i.matchesPanel t.panel)

def insertionIndexForTarget (p : Pane) : TabInsertion → Option ℕ
  | .before anchor => tabIndexForIdentity p anchor
  | .append => some p.tabs.length

def removeTabPreservingSelection (p : Pane) (idx : ℕ) : Option (Tab × Pane) :=
  match p.tabs[idx]? with
  | none => none
  | some tab =>
    let tabs := p.tabs.eraseIdx idx
    some (tab,{ p with
      tabs := tabs
      selectedTab :=
        if tabs = [] then 0
        else if idx < p.selectedTab then p.selectedTab-1
        else if p.selectedTab = idx then min idx (tabs.length-1)
        else min p.selectedTab (tabs.length-1) })

def Pane.insertSelected (p : Pane) (idx : ℕ) (t : Tab) : Option Pane :=
  if idx ≤ p.tabs.length then some { p with tabs := p.tabs.insertIdx idx t, selectedTab := idx }
  else none

def Pane.reorder (p : Pane) (fromIndex insertionIndex : ℕ) : Option Pane :=
  let insertionIndex := min insertionIndex p.tabs.length
  let destination := if fromIndex < insertionIndex then insertionIndex-1 else insertionIndex
  if destination = fromIndex then some p
  else match p.tabs[fromIndex]? with
    | none => none
    | some tab =>
      let tabs := p.tabs.eraseIdx fromIndex
      if tabs.length < destination then none
      else
        let selected := p.selectedTab
        some { p with
          tabs := tabs.insertIdx destination tab
          selectedTab :=
            if selected = fromIndex then destination
            else
              let selected := if fromIndex < selected then selected-1 else selected
              if destination ≤ selected then selected+1 else selected }

def paneFromTab (id : PaneId) (t : Tab) : Pane :=
  { Pane.single id t.panel with tabs := [{ Tab.fresh t.panel with
      title := t.title
      workingDirectory := t.workingDirectory
      workingDirectoryFromOsc7 := t.workingDirectoryFromOsc7 }] }

/-- A directory from a terminal title such as "user@host:~/projects"; `home` is
the HOME variable. -/
def extractDirectory (home : Option String) (title : String) : Option String :=
  let path := Text.trim (Text.afterLast ':' title.toList)
  match path with
  | '/' :: _ => some (.ofList path)
  | '~' :: rest =>
    match home with
    | some home => some (home ++ .ofList rest)
    | none => some (.ofList path)
  | _ => none

def Tab.reportTitle (home : Option String) (title : String) (t : Tab) : Tab :=
  match extractDirectory home title with
  | none => { t with title := title }
  | some d =>
    if t.workingDirectoryFromOsc7 then { t with title := title }
    else { t with title := title, workingDirectory := some d }

/-- What an OSC 7 report does to its tab; an empty one gives authority back. -/
def Tab.reportDirectory (home : Option String) (dir : String) (t : Tab) : Tab :=
  if dir.isEmpty then
    { t with workingDirectory := extractDirectory home t.title, workingDirectoryFromOsc7 := false }
  else { t with workingDirectory := some dir, workingDirectoryFromOsc7 := true }

namespace AppWindow

variable {F : Type}

def modifyWs (aw : AppWindow F) (i : ℕ) (f : Workspace F → Workspace F) : AppWindow F :=
  { aw with workspaces := aw.workspaces.modify i f }

def current (aw : AppWindow F) : Option (ℕ × Workspace F) :=
  aw.currentPage.bind (fun i => aw.workspaces[i]?.map (fun ws => (i,ws)))

/-- First workspace for which `f` finds something, with its index. -/
def findWs {α : Type} (aw : AppWindow F) (f : Workspace F → Option α) :
    Option (ℕ × Workspace F × α) :=
  aw.workspaces.zipIdx.findSome? (fun e => (f e.1).map (fun a => (e.2,e.1,a)))

def findWorkspaceWithSurface (aw : AppWindow F) (s : SurfaceId) :
    Option (ℕ × Workspace F × PaneId) := aw.findWs (fun ws => ws.paneForSurface s)

def findWorkspaceWithBrowser (aw : AppWindow F) (b : BrowserPanelId) :
    Option (ℕ × Workspace F × PaneId) := aw.findWs (fun ws => ws.paneForBrowser b)

/-- `position(|ws| ws.panes.contains_key(&p))`. -/
def findWorkspaceWithPane (aw : AppWindow F) (p : PaneId) : Option (ℕ × Workspace F × Pane) :=
  aw.findWs (fun ws => ws.panes.lookup p)

/-- `position(|ws| ws.id == id)`. -/
def findWorkspaceById (aw : AppWindow F) (id : WorkspaceId) : Option (ℕ × Workspace F × Unit) :=
  aw.findWs (fun ws => if ws.id = id then some () else none)

/-- `iter_mut().find(|ws| ws.id == id)` followed by an update. -/
def modifyById (aw : AppWindow F) (id : WorkspaceId) (f : Workspace F → Workspace F) :
    AppWindow F :=
  match aw.findWorkspaceById id with
  | some (i,_,_) => aw.modifyWs i f
  | none => aw

def setPaneActive (aw : AppWindow F) (i : ℕ) (p : PaneId) : AppWindow F :=
  aw.modifyWs i (fun ws => ws.setFocusedPane p)

def pushWorkspace (aw : AppWindow F) (ws : Workspace F) : AppWindow F :=
  { aw with workspaces := aw.workspaces ++ [ws], currentPage := some aw.workspaces.length }

/-- A workspace of one pane with one terminal, its ids taken from the allocators. -/
def freshWorkspace (aw : AppWindow F) : Workspace F :=
  let pane := Pane.newWithId aw.ids.pane aw.ids.surface
  { (Workspace.new aw.ids.workspace).addPane pane with
    splitTree := .newWithPane pane.id }

def takeWorkspaceIds (aw : AppWindow F) : AppWindow F :=
  { aw with ids := { aw.ids with
      workspace := aw.ids.workspace+1
      pane := aw.ids.pane+1
      surface := aw.ids.surface+1 } }

def defaultTitle (aw : AppWindow F) : String :=
  "Workspace " ++ toString (aw.workspaces.length+1)

def newWorkspace (aw : AppWindow F) : AppWindow F :=
  aw.takeWorkspaceIds.pushWorkspace { aw.freshWorkspace with title := aw.defaultTitle }

/-- Relay settings that are not given are generated. -/
def fillRelay (c : RemoteConfiguration) (port : Option UInt16) (id token : String) :
    RemoteConfiguration :=
  { c with
    relayPort := c.relayPort.or port
    relayId := c.relayId.or (some id)
    relayToken := c.relayToken.or (some token) }

def newRemoteWorkspace (aw : AppWindow F) (c : RemoteConfiguration) (port : Option UInt16)
    (id token : String) : AppWindow F :=
  let c := fillRelay c port id token
  aw.takeWorkspaceIds.pushWorkspace { aw.freshWorkspace with
    remoteConfig := some c
    remoteState := .connecting
    title := c.displayTarget
    customTitle := some c.displayTarget }

def removeWorkspaceAt (aw : AppWindow F) (i : ℕ) : Option (AppWindow F) :=
  if i < aw.workspaces.length then some { aw with workspaces := aw.workspaces.eraseIdx i }
  else none

def removePaneFromSplit (aw : AppWindow F) (i : ℕ) (p : PaneId) : AppWindow F :=
  aw.modifyWs i (fun ws => { ws with splitTree := (ws.splitTree.remove p).2 }.removePane p)

/-- `if let Some(next) = workspaces[i].focused_pane() { set_pane_active(next) }`. -/
def refocus (aw : AppWindow F) (i : ℕ) : AppWindow F :=
  match aw.workspaces[i]?.bind Workspace.focusedPane with
  | some next => aw.setPaneActive i next
  | none => aw

/-- Common body of `close_surface` and `close_browser` once the panel is found:
the last tab of the last pane closes the workspace, the last tab of a pane
removes the pane, otherwise only the tab goes. -/
def closePanel (aw : AppWindow F) (i : ℕ) (ws : Workspace F) (p : PaneId) (rm : Pane → Pane) :
    Option (AppWindow F) :=
  let tabCount := ((ws.panes.lookup p).map (fun pane => pane.tabs.length)).getD 0
  let paneCount := ws.panes.keys.length
  if tabCount ≤ 1 ∧ paneCount ≤ 1 then aw.removeWorkspaceAt i
  else if tabCount ≤ 1 then some ((aw.removePaneFromSplit i p).refocus i)
  else some (aw.modifyWs i (fun ws => ws.modifyPane p rm))

def closeSurface (aw : AppWindow F) (s : SurfaceId) : Option (AppWindow F) :=
  match aw.findWorkspaceWithSurface s with
  | none => some aw
  | some (i,ws,p) => aw.closePanel i ws p (fun pane => pane.removeTab s)

def closeBrowser (aw : AppWindow F) (b : BrowserPanelId) : Option (AppWindow F) :=
  match aw.findWorkspaceWithBrowser b with
  | none => some aw
  | some (i,ws,p) => aw.closePanel i ws p (fun pane => pane.removeBrowserTab b)

def newPaneTab (aw : AppWindow F) : AppWindow F :=
  match aw.current with
  | none => aw
  | some (i,ws) =>
    match ws.focusedPane with
    | none => aw
    | some p =>
      { aw with ids := { aw.ids with surface := aw.ids.surface+1 } }.modifyWs i
        (fun ws => ws.modifyPane p (fun pane => pane.addTab aw.ids.surface))

def dropIfEmpty (ws : Workspace F) (p : PaneId) : Workspace F :=
  if (ws.panes.lookup p).any (fun pane => pane.tabs = []) then
    { ws with splitTree := (ws.splitTree.remove p).2 }.removePane p
  else ws

section Splits

variable [F64Ops F]

/-- Add a pane and split `target` for it. A failed split is not noticed. -/
def addSplit (ws : Workspace F) (target : PaneId) (pane : Pane) (o : Orientation) :
    Workspace F :=
  { ws.addPane pane with splitTree := (ws.splitTree.split target pane.id o).2 }

def splitFocused (aw : AppWindow F) (o : Orientation) : AppWindow F :=
  match aw.current with
  | none => aw
  | some (i,ws) =>
    match ws.focusedPane with
    | none => aw
    | some focused =>
      { aw with ids := { aw.ids with
          surface := aw.ids.surface+1
          pane := aw.ids.pane+1 } }.modifyWs i
        (fun ws => addSplit ws focused (.newWithId aw.ids.pane aw.ids.surface) o)

def splitBrowserInWorkspace (aw : AppWindow F) (i : ℕ) (fromPane : PaneId) (o : Orientation)
    (url : String) : Option (AppWindow F) :=
  if i < aw.workspaces.length then
    some ({ aw with ids := { aw.ids with
        browser := aw.ids.browser+1
        pane := aw.ids.pane+1 } }.modifyWs i (fun ws =>
      (addSplit ws fromPane (.newBrowserWithId aw.ids.pane aw.ids.browser url) o).setFocusedPane
        aw.ids.pane))
  else none

/-- `url` is the normalized address. -/
def splitFocusedBrowser (aw : AppWindow F) (o : Orientation) (url : String) :
    Option (AppWindow F) :=
  match aw.current with
  | none => some aw
  | some (i,ws) =>
    match ws.focusedPane with
    | none => some aw
    | some focused => aw.splitBrowserInWorkspace i focused o url

/-- A popup opens beside its opener, or beside the focus of the current page when
the opener is in no workspace. `registered`: the opener has a web view. -/
def openBrowserPopup (aw : AppWindow F) (registered : Bool) (opener : BrowserPanelId)
    (url : String) : Option (AppWindow F) :=
  if !registered then some aw
  else match aw.findWorkspaceWithBrowser opener with
    | some (i,_,p) => aw.splitBrowserInWorkspace i p .horizontal url
    | none =>
      let page := aw.currentPage.getD 0
      match aw.workspaces[page]?.bind Workspace.focusedPane with
      | none => some aw
      | some p => aw.splitBrowserInWorkspace page p .horizontal url

def movePane (aw : AppWindow F) (source target : PaneId) (before : Bool) (o : Orientation) :
    AppWindow F :=
  match aw.current with
  | none => aw
  | some (i,ws) =>
    if (ws.panes.lookup source).isNone ∨ (ws.panes.lookup target).isNone then aw
    else
      let (moved,tree) := ws.splitTree.movePaneAdjacent source target before o
      let aw := aw.modifyWs i (fun ws => { ws with splitTree := tree })
      if moved then aw.setPaneActive i source else aw

/-- `split_before` or `split`, where failure is a panic. -/
def expectSplit (ws : Workspace F) (before : Bool) (target new : PaneId) (o : Orientation) :
    Option (Workspace F) :=
  match ws.splitTree.splitAt before target new o with
  | (none,_) => none
  | (some _,tree) => some { ws with splitTree := tree }

/-- Replace the workspace at `i`, unless computing it panicked. -/
def putWs (aw : AppWindow F) (i : ℕ) (ws : Option (Workspace F)) : Option (AppWindow F) :=
  ws.map (fun ws => aw.modifyWs i (fun _ => ws))

def takeTab (ws : Workspace F) (p : PaneId) (idx : ℕ) : Option (Tab × Workspace F) :=
  (ws.panes.lookup p).bind (fun pane =>
    (removeTabPreservingSelection pane idx).map (fun r =>
      (r.1,{ ws with panes := ws.panes.insert p r.2 })))

def splitTabToPane (aw : AppWindow F) (source : PaneId) (identity : TabDragIdentity)
    (o : Orientation) (before widgets : Bool) : Option (AppWindow F) :=
  match aw.current with
  | none => some aw
  | some (i,ws) =>
    match ws.panes.lookup source with
    | none => some aw
    | some pane =>
      if pane.tabs.length < 2 ∨ (ws.splitTree.nodeIdForPane source).isNone then some aw
      else match tabIndexForIdentity pane identity with
        | none => some aw
        | some idx =>
          if !widgets then some aw
          else
            let new := aw.ids.pane
            let aw := { aw with ids := { aw.ids with pane := aw.ids.pane+1 } }
            aw.putWs i ((takeTab ws source idx).bind (fun (tab,ws) =>
              (expectSplit (ws.addPane (paneFromTab new tab)) before source new o).map
                (fun ws => ws.setFocusedPane new)))

def splitTabToPaneTarget (aw : AppWindow F) (source : PaneId) (identity : TabDragIdentity)
    (target : PaneId) (o : Orientation) (before widgets : Bool) : Option (AppWindow F) :=
  match aw.current with
  | none => some aw
  | some (i,ws) =>
    if source = target ∨ (ws.splitTree.nodeIdForPane source).isNone ∨
        (ws.splitTree.nodeIdForPane target).isNone then some aw
    else match (ws.panes.lookup source).bind (fun p => tabIndexForIdentity p identity) with
      | none => some aw
      | some idx =>
        if !widgets then some aw
        else
          let new := aw.ids.pane
          let aw := { aw with ids := { aw.ids with pane := aw.ids.pane+1 } }
          aw.putWs i ((takeTab ws source idx).bind (fun (tab,ws) =>
            let ws := dropIfEmpty (ws.addPane (paneFromTab new tab)) source
            (expectSplit ws before target new o).map (fun ws => ws.setFocusedPane new)))

end Splits

def putTab (ws : Workspace F) (p : PaneId) (idx : ℕ) (t : Tab) : Option (Workspace F) :=
  (ws.panes.lookup p).bind (fun pane =>
    (pane.insertSelected idx t).map (fun pane => { ws with panes := ws.panes.insert p pane }))

def moveTabToPane (aw : AppWindow F) (source : PaneId) (identity : TabDragIdentity)
    (target : PaneId) (insertion : TabInsertion) (widgets : Bool) : Option (AppWindow F) :=
  match aw.current with
  | none => some aw
  | some (i,ws) =>
    if source = target ∨ (ws.splitTree.nodeIdForPane source).isNone ∨
        (ws.splitTree.nodeIdForPane target).isNone then some aw
    else match (ws.panes.lookup source).bind (fun p => tabIndexForIdentity p identity) with
      | none => some aw
      | some idx =>
        match (ws.panes.lookup target).bind (fun p => insertionIndexForTarget p insertion) with
        | none => some aw
        | some targetIdx =>
          if !widgets then some aw
          else
            aw.putWs i ((takeTab ws source idx).bind (fun (tab,ws) =>
              (putTab ws target targetIdx tab).map (fun ws =>
                (dropIfEmpty ws source).setFocusedPane target)))

def reorderTabInPane (aw : AppWindow F) (p : PaneId) (identity : TabDragIdentity)
    (insertion : TabInsertion) (widgets : Bool) : Option (AppWindow F) :=
  match aw.current with
  | none => some aw
  | some (i,ws) =>
    match ws.panes.lookup p with
    | none => some aw
    | some pane =>
      if (ws.splitTree.nodeIdForPane p).isNone then some aw
      else match tabIndexForIdentity pane identity, insertionIndexForTarget pane insertion with
        | some fromIndex, some insertionIndex =>
          if !widgets then some aw
          else aw.putWs i ((pane.reorder fromIndex insertionIndex).map (fun pane =>
            { ws with panes := ws.panes.insert p pane }))
        | _, _ => some aw

/-- Where a tab dropped on a workspace goes: its focused pane, or the first pane
of the tree that exists. -/
def dropTarget (ws : Workspace F) : Option PaneId :=
  (ws.focusedPane.filter (fun p => (ws.panes.lookup p).isSome)).or
    (ws.splitTree.panes.find? (fun p => (ws.panes.lookup p).isSome))

def moveTabToWorkspace (aw : AppWindow F) (source : PaneId) (identity : TabDragIdentity)
    (targetWs : WorkspaceId) (widgets : Bool) : Option (AppWindow F) :=
  match aw.findWorkspaceWithPane source, aw.findWorkspaceById targetWs with
  | some (si,sws,spane), some (ti,tws,_) =>
    if si = ti then some aw
    else match dropTarget tws with
      | none => some aw
      | some target =>
        if (tws.splitTree.nodeIdForPane target).isNone ∨
            (sws.splitTree.nodeIdForPane source).isNone then some aw
        else match tabIndexForIdentity spane identity with
          | none => some aw
          | some idx =>
            if !widgets then some aw
            else
              (takeTab sws source idx).bind (fun (tab,sws) =>
              (tws.panes.lookup target).bind (fun tpane =>
              (putTab tws target tpane.tabs.length tab).bind (fun tws =>
                let aw := (aw.modifyWs si (fun _ => sws)).modifyWs ti (fun _ => tws)
                let empty := (sws.panes.lookup source).any (fun pane => pane.tabs = [])
                let aw : Option (AppWindow F) :=
                  if empty then
                    let aw := aw.removePaneFromSplit si source
                    if (aw.workspaces[si]?.map (fun ws => ws.panes.keys)) = some [] then
                      aw.removeWorkspaceAt si
                    else some (aw.refocus si)
                  else
                    -- `expect("source pane has an active tab")`
                    if ((sws.panes.lookup source).bind Pane.activePanel).isSome then some aw
                    else none
                aw.bind (fun aw =>
                  match aw.findWorkspaceById targetWs with
                  | none => none
                  | some (ti,tws,_) =>
                    if (tws.panes.lookup target).isNone then none
                    else some ({ aw with currentPage := some ti }.setPaneActive ti target)))))
  | _, _ => some aw

/-! Focus. -/

def setFocusedSurface (aw : AppWindow F) (s : SurfaceId) : AppWindow F :=
  match aw.findWorkspaceWithSurface s with
  | some (i,_,p) => aw.setPaneActive i p
  | none => aw

def setFocusedBrowser (aw : AppWindow F) (b : BrowserPanelId) : AppWindow F :=
  match aw.findWorkspaceWithBrowser b with
  | some (i,_,p) => aw.setPaneActive i p
  | none => aw

def focusPaneById (aw : AppWindow F) (p : PaneId) : Bool × AppWindow F :=
  match aw.findWorkspaceWithPane p with
  | none => (false,aw)
  | some (i,_,_) =>
    let aw := if aw.currentPage.getD 0 = i then aw else { aw with currentPage := some i }
    (true,aw.setPaneActive i p)

def selectPaneTabGeneric (aw : AppWindow F) (p : PaneId) (idx : ℕ) : AppWindow F :=
  match aw.findWorkspaceWithPane p with
  | none => aw
  | some (i,_,_) =>
    (aw.modifyWs i (fun ws => ws.modifyPane p (fun pane => pane.selectTab idx))).setPaneActive i p

def cyclePaneTab (aw : AppWindow F) (forward : Bool) : AppWindow F :=
  match aw.current with
  | none => aw
  | some (i,ws) =>
    match ws.focusedPane with
    | none => aw
    | some p => aw.modifyWs i (fun ws => ws.modifyPane p (fun pane => pane.cycleTab forward))

def navigateSplit (aw : AppWindow F) (forward : Bool) : AppWindow F :=
  match aw.current with
  | none => aw
  | some (i,_) =>
    aw.modifyWs i (fun ws => { ws with splitTree := (ws.splitTree.navigate forward).2 })

def navigateDirection [F64Ops F] (aw : AppWindow F) (d : Direction) : AppWindow F :=
  match aw.current with
  | none => aw
  | some (i,_) =>
    aw.modifyWs i (fun ws => { ws with splitTree := (ws.splitTree.navigateDirectional d).2 })

def equalizeSplits [F64Ops F] (aw : AppWindow F) : AppWindow F :=
  match aw.current with
  | none => aw
  | some (i,_) => aw.modifyWs i (fun ws => { ws with splitTree := ws.splitTree.equalize })

/-- Divider callback of `connect_paned_ratio_sync`. -/
def syncRatio [F64Ops F] (aw : AppWindow F) (id : WorkspaceId) (node : NodeId)
    (pos total : Int32) : AppWindow F :=
  if total ≤ 0 then aw
  else
    let ratio := F64Ops.clamp (F64Ops.div (F64Ops.ofInt pos.toInt) (F64Ops.ofInt total.toInt))
      (F64Ops.lit (5/100)) (F64Ops.lit (95/100))
    aw.modifyById id (fun ws => { ws with splitTree := ws.splitTree.setRatio node ratio })

/-! Titles and directories. A surface handle stands for its surface id. -/

def onBrowserTitleChanged (aw : AppWindow F) (b : BrowserPanelId) (title : String) :
    AppWindow F :=
  match aw.findWorkspaceWithBrowser b with
  | none => aw
  | some (i,_,p) => aw.modifyWs i (fun ws =>
      (ws.modifyPane p (fun pane => pane.setBrowserTabTitle b title)).updateTitleFromFocused)

def setSurfaceTitle (aw : AppWindow F) (home : Option String) (s : SurfaceId) (title : String) :
    AppWindow F :=
  match aw.findWorkspaceWithSurface s with
  | none => aw
  | some (i,_,p) => aw.modifyWs i (fun ws => (ws.modifyPane p (fun pane =>
      pane.updateWhere (fun t => t.surfaceId = some s)
        (Tab.reportTitle home title))).updateTitleFromFocused)

def setSurfaceWorkingDirectory (aw : AppWindow F) (home : Option String) (s : SurfaceId)
    (dir : String) : AppWindow F :=
  match aw.findWorkspaceWithSurface s with
  | none => aw
  | some (i,_,p) => aw.modifyWs i (fun ws => ws.modifyPane p (fun pane =>
      pane.updateWhere (fun t => t.surfaceId = some s) (Tab.reportDirectory home dir)))

def renameTab (aw : AppWindow F) (p : PaneId) (idx : ℕ) (name : String) : AppWindow F :=
  match aw.findWorkspaceWithPane p with
  | none => aw
  | some (i,_,_) => aw.modifyWs i (fun ws => ws.modifyPane p (fun pane =>
      { pane with tabs := pane.tabs.modify idx (fun t => { t with title := name }) }))

/-! Metadata of one workspace. -/

def focusedWorkspaceId (aw : AppWindow F) : Option WorkspaceId :=
  aw.current.map (fun c => c.2.id)

def setWorkspaceStatus (aw : AppWindow F) (id : WorkspaceId) (e : SidebarStatusEntry) :
    AppWindow F :=
  aw.modifyById id (fun ws => { ws with statusEntries := ws.statusEntries.insert e.key e })

def clearWorkspaceStatus (aw : AppWindow F) (id : WorkspaceId) (key : String) : AppWindow F :=
  aw.modifyById id (fun ws => { ws with statusEntries := ws.statusEntries.erase key })

def addWorkspaceLog (aw : AppWindow F) (id : WorkspaceId) (e : SidebarLogEntry) : AppWindow F :=
  aw.modifyById id (fun ws =>
    let log := ws.logEntries ++ [e]
    { ws with logEntries := if 50 < log.length then log.tail else log })

def clearWorkspaceLog (aw : AppWindow F) (id : WorkspaceId) : AppWindow F :=
  aw.modifyById id (fun ws => { ws with logEntries := [] })

def setWorkspaceProgress (aw : AppWindow F) (id : WorkspaceId) (value : F)
    (label : Option String) : AppWindow F :=
  aw.modifyById id (fun ws => { ws with progress := some ⟨value,label⟩ })

def clearWorkspaceProgress (aw : AppWindow F) (id : WorkspaceId) : AppWindow F :=
  aw.modifyById id (fun ws => { ws with progress := none })

def renameWorkspace (aw : AppWindow F) (id : WorkspaceId) (name : String) : AppWindow F :=
  aw.modifyById id (fun ws => { ws with customTitle := some name, title := name })

def setWorkspaceColor (aw : AppWindow F) (id : WorkspaceId) (c : Option WorkspaceColor) :
    AppWindow F :=
  aw.modifyById id (fun ws => { ws with color := c })

def reorderWorkspacesForPin (aw : AppWindow F) : AppWindow F :=
  { aw with workspaces := aw.workspaces.filter (fun ws => ws.pinned) ++
      aw.workspaces.filter (fun ws => !ws.pinned) }

def toggleWorkspacePinned (aw : AppWindow F) (id : WorkspaceId) : AppWindow F :=
  match aw.findWorkspaceById id with
  | none => aw
  | some (i,_,_) =>
    (aw.modifyWs i (fun ws => { ws with pinned := !ws.pinned })).reorderWorkspacesForPin

def moveWorkspace (aw : AppWindow F) (source target : WorkspaceId) (before : Bool) :
    Option (AppWindow F) :=
  match aw.findWorkspaceById source, aw.findWorkspaceById target with
  | some (si,sws,_), some (_,tws,_) =>
    if sws.pinned ≠ tws.pinned then some aw
    else
      let rest := { aw with workspaces := aw.workspaces.eraseIdx si }
      let ti := match rest.findWorkspaceById target with
        | some (ti,_,_) => ti
        | none => 0
      let idx := if before then ti else ti+1
      if idx ≤ rest.workspaces.length then
        some { aw with workspaces := rest.workspaces.insertIdx idx sws }
      else none
  | _, _ => some aw

/-! Remote state. -/

/-- The workspace a remote command without an id means: the focused one if it is
remote, else the first remote one. -/
def defaultRemote (aw : AppWindow F) : Option WorkspaceId :=
  ((aw.current.filter (fun c => c.2.remoteConfig.isSome)).map (fun c => c.2.id)).or
    ((aw.workspaces.find? (fun ws => ws.remoteConfig.isSome)).map Workspace.id)

def disconnectRemote (aw : AppWindow F) (id : Option WorkspaceId) (clear : Bool) : AppWindow F :=
  match id.or aw.defaultRemote with
  | none => aw
  | some id => aw.modifyById id (fun ws =>
      let ws := { ws with remoteState := .disconnected }
      if clear then { ws with remoteConfig := none } else ws)

def updateRemoteState (aw : AppWindow F) (id : WorkspaceId) (st : RemoteConnectionState) :
    AppWindow F :=
  aw.modifyById id (fun ws => { ws with remoteState := st })

def updateProxyEndpoint (aw : AppWindow F) (id : WorkspaceId) (e : Option ProxyEndpoint) :
    AppWindow F :=
  aw.modifyById id (fun ws => { ws with proxyEndpoint := e })

end AppWindow

end Limux
