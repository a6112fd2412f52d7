import Limux.TabTrack
import Limux.UiAlike
import Limux.UiAtomic
import Limux.SplitLater

/-! What an operation does to one workspace and its widgets: the panes as in the window, the
tree up to ratios and focus, and the matching edits of the stacks and the paneds. -/
namespace Limux

variable {F : Type}

namespace Ui

/-- One of several tabs of a pane is closed. -/
def ClosesOne (aw : AppWindow F) : WindowOp F → Prop
  | .closeSurface s => ∃ i ws p pane, aw.findWorkspaceWithSurface s = some (i,ws,p) ∧
      ws.panes.lookup p = some pane ∧ 2 ≤ pane.tabs.length
  | .closeBrowser b => ∃ i ws p pane, aw.findWorkspaceWithBrowser b = some (i,ws,p) ∧
      ws.panes.lookup p = some pane ∧ 2 ≤ pane.tabs.length
  | _ => False

/-- Every workspace has widgets, related to it by `P`. -/
def Each (P : Workspace F → WorkspaceWidgets → Prop) (ui : Ui F) : Prop :=
  ∀ ws ∈ ui.window.workspaces, ∃ ww, ui.widgets.lookup ws.id = some ww ∧ P ws ww

/-- A tab is taken out of its pane, and its child is in the stack of the pane. -/
structure Taken (ws : Workspace F) (ww : WorkspaceWidgets) (source : PaneId) (tab : Tab)
    (rest : Pane) (moving : StackChild) : Prop where
  tabs : ∃ pane k, ws.panes.lookup source = some pane ∧ pane.tabs[k]? = some tab ∧
    rest.tabs = pane.tabs.eraseIdx k
  child : ∃ pw, ww.paneWidgets.lookup source = some pw ∧
    pw.stack.childByName tab.panel.stackChildName = some moving

def takeChild (ww : WorkspaceWidgets) (source : PaneId) (tab : Tab) : WorkspaceWidgets :=
  ww.modifyStack source (fun s => s.remove tab.panel.stackChildName)

variable {ui ui' : Ui F}

theorem index_eq (h : WindowInv ui.window) {i j : ℕ} {ws ws' : Workspace F}
    (hi : ui.window.workspaces[i]? = some ws) (hj : ui.window.workspaces[j]? = some ws')
    (hid : ws'.id = ws.id) : j = i := by
  obtain ⟨h1,rfl⟩ := List.getElem?_eq_some_iff.mp hi
  obtain ⟨h2,rfl⟩ := List.getElem?_eq_some_iff.mp hj
  refine (List.getElem?_inj (by simpa using h2) h.ids_nodup).mp ?_
  simpa [h1,h2] using hid

theorem lookup_modifyPane {ws : Workspace F} {p : PaneId} {pane : Pane}
    (hl : ws.panes.lookup p = some pane) (f : Pane → Pane) (q : PaneId) :
    (ws.modifyPane p f).panes.lookup q = if q = p then some (f pane) else ws.panes.lookup q := by
  show (ws.panes.modify p f).lookup q = _
  rw [HashMap.lookup_modify,hl,Option.map_some]

theorem lookup_modifyWidgets {id : WorkspaceId} {ww : WorkspaceWidgets}
    (hw : ui.widgets.lookup id = some ww) (f : WorkspaceWidgets → WorkspaceWidgets)
    (j : WorkspaceId) : (ui.widgets.modify id f).lookup j =
      if j = id then some (f ww) else ui.widgets.lookup j := by
  rw [HashMap.lookup_modify,hw,Option.map_some]

theorem buildLayout_congr (ord : IterOrder NodeId) (l : LayoutSnapshot F)
    {s s' : Workspace F × IdCounters} (h : s.2 = s'.2) :
    (AppWindow.buildLayout ord l s).1 = (AppWindow.buildLayout ord l s').1 ∧
      (AppWindow.buildLayout ord l s).2.2 = (AppWindow.buildLayout ord l s').2.2 := by
  induction l generalizing s s' with
  | single tabs =>
    simp only [AppWindow.buildLayout,h]
    exact ⟨trivial,trivial⟩
  | split o ratio a b iha ihb =>
    obtain ⟨ha,ha'⟩ := iha h
    obtain ⟨hb,hb'⟩ := ihb ha'
    simp only [AppWindow.buildLayout,ha,hb]
    exact ⟨trivial,hb'⟩

theorem buildLayoutWidget_congr (ord : IterOrder NodeId) (l : LayoutSnapshot F)
    {s s' : Workspace F × IdCounters} (h : s.2 = s'.2) (ww : WorkspaceWidgets) :
    WorkspaceWidgets.buildLayoutWidget ord l s ww =
      WorkspaceWidgets.buildLayoutWidget ord l s' ww := by
  induction l generalizing s s' ww with
  | single tabs => simp only [WorkspaceWidgets.buildLayoutWidget,h]
  | split o ratio a b iha ihb =>
    simp only [WorkspaceWidgets.buildLayoutWidget,iha h,ihb (buildLayout_congr ord a h).2,
      (buildLayout_congr ord (.split o ratio a b) h).1]

variable [F64Ops F]

inductive Edit (ui : Ui F) (op : WindowOp F) (ws : Workspace F) (ww : WorkspaceWidgets) :
    Workspace F → WorkspaceWidgets → Prop
  | keep {ws' : Workspace F} (h : ws.SamePanes ws') : Edit ui op ws ww ws' ww
  | push {ws' : Workspace F} {p : PaneId} {pane : Pane} {panel : PanelKind}
      (hl : ws.panes.lookup p = some pane)
      (hp : ∀ q, ws'.panes.lookup q = if q = p then some (pane.push panel) else ws.panes.lookup q)
      (ht : ws.splitTree.Resized ws'.splitTree) : Edit ui op ws ww ws' (ww.modifyStack p (fun s =>
        (s.addNamed ⟨panel.stackChildName,panel.widget⟩).setVisibleChildName
          panel.stackChildName))
  | select {ws' : Workspace F} {p : PaneId} {pane pane' : Pane}
      (hl : ws.panes.lookup p = some pane) (htabs : pane'.tabs = pane.tabs)
      (hp : ∀ q, ws'.panes.lookup q = if q = p then some pane' else ws.panes.lookup q)
      (ht : ws.splitTree.Resized ws'.splitTree) : Edit ui op ws ww ws' (ww.showActive p pane')
  | close {ws' : Workspace F} {p : PaneId} {pane pane' : Pane}
      (hl : ws.panes.lookup p = some pane) (hop : ClosesOne ui.window op)
      (hp : ∀ q, ws'.panes.lookup q = if q = p then some pane' else ws.panes.lookup q)
      (ht : ws.splitTree.Resized ws'.splitTree) : Edit ui op ws ww ws' (ww.showActive p pane')
  | split {ws' : Workspace F} {target new : PaneId} {panel : PanelKind} {o : Orientation}
      {pw : PaneWidget} {ww₁ : WorkspaceWidgets} (hnew : new = ui.window.ids.pane)
      (hm : target ∈ ws.panes) (hb : ww.buildPaneWidget panel panel.widget = (pw,ww₁))
      (hp : ∀ q, ws'.panes.lookup q =
        if q = new then some (.single new panel) else ws.panes.lookup q)
      (ht : (ws.splitTree.split target new o).2.Resized ws'.splitTree) :
      Edit ui op ws ww ws' (ww₁.addSplit (decide (ws.panes.keys.length = 1)) target new pw o
        (ws.splitTree.split target new o).1)
  | drop {ws' : Workspace F} {p : PaneId} (hm : p ∈ ws.panes) (h1 : 1 < ws.panes.keys.length)
      (hp : ∀ q, ws'.panes.lookup q = if q = p then none else ws.panes.lookup q)
      (ht : (ws.splitTree.remove p).2.Resized ws'.splitTree) :
      Edit ui op ws ww ws' (ww.removePane p)
  | move {ws' : Workspace F} (hp : ∀ q, ws'.panes.lookup q = ws.panes.lookup q)
      (htree : ws.splitTree.Later ws'.splitTree) :
      Edit ui op ws ww ws' (ww.rebuild (cloneSplitTreeStructure ws'.splitTree))
  | splitTab {ws' : Workspace F} {ww₁ ww' : WorkspaceWidgets} {source new : PaneId} {tab : Tab}
      {rest : Pane} {moving : StackChild} {panel : PanelWidget} {spw pw : PaneWidget}
      {o : Orientation} {before : Bool} {node : NodeId} {nested : Option (WidgetId × Bool)}
      (hnew : new = ui.window.ids.pane) (ht : Taken ws ww source tab rest moving)
      (hne : rest.tabs ≠ []) (hm : tabPanelWidget tab.panel moving.widget = some panel)
      (hs : ww.paneWidgets.lookup source = some spw)
      (hb : (takeChild ww source tab).buildPaneWidget tab.panel panel = (pw,ww₁))
      (hp : ∀ q, ws'.panes.lookup q = if q = new then some (paneFromTab new tab)
        else if q = source then some rest else ws.panes.lookup q)
      (hn : (ws.splitTree.splitAt before source new o).1 = some node)
      (htree : (ws.splitTree.splitAt before source new o).2.Resized ws'.splitTree)
      (hnested : if 1 < ws.panes.keys.length then
          ∃ parent, ww.gtk.parent spw.container = some parent ∧ nested =
            some (parent,decide (ww.gtk.child parent true = some spw.container))
        else nested = none)
      (hplace : placeTab (ww₁.showActive source rest) spw.container pw new nested
        (decide (ws.panes.keys.length = 1)) before o node = some ww') : Edit ui op ws ww ws' ww'
  | splitTarget {ws' : Workspace F} {ww₁ ww₂ : WorkspaceWidgets} {source new : PaneId} {tab : Tab}
      {rest : Pane} {moving : StackChild} {panel : PanelWidget} {pw : PaneWidget}
      (hnew : new = ui.window.ids.pane) (ht : Taken ws ww source tab rest moving)
      (hother : ∃ q ∈ ws.panes, q ≠ source)
      (hm : tabPanelWidget tab.panel moving.widget = some panel)
      (hb : (takeChild ww source tab).buildPaneWidget tab.panel panel = (pw,ww₁))
      (h2 : ww₂ = if rest.tabs = [] then (ww₁.showActive source rest).removePane source
        else ww₁.showActive source rest)
      (hp : ∀ q, ws'.panes.lookup q = if q = new then some (paneFromTab new tab)
        else if q = source then (if rest.tabs = [] then none else some rest)
        else ws.panes.lookup q) (htree : ws.splitTree.Later ws'.splitTree) : Edit ui op ws ww ws'
          ({ ww₂ with paneWidgets := ww₂.paneWidgets.insert new pw }.rebuild
            (cloneSplitTreeStructure ws'.splitTree))
  | moveTab {ws' : Workspace F} {source target : PaneId} {tab : Tab} {rest tpane : Pane} {d : ℕ}
      {moving : StackChild} (ht : Taken ws ww source tab rest moving) (hne : rest.tabs ≠ [])
      (hst : source ≠ target) (htp : ws.panes.lookup target = some tpane)
      (hd : d ≤ tpane.tabs.length)
      (hp : ∀ q, ws'.panes.lookup q = if q = target then some (tpane.withTab d tab)
        else if q = source then some rest else ws.panes.lookup q)
      (htree : ws.splitTree.Resized ws'.splitTree) : Edit ui op ws ww ws'
        ((moveChild (takeChild ww source tab) target moving tab.panel.stackChildName).showActive
          source rest)
  | moveLast {ws' : Workspace F} {source target : PaneId} {tab : Tab} {rest tpane : Pane} {d : ℕ}
      {moving : StackChild} (ht : Taken ws ww source tab rest moving)
      (hst : source ≠ target) (htp : ws.panes.lookup target = some tpane)
      (hd : d ≤ tpane.tabs.length)
      (hp : ∀ q, ws'.panes.lookup q = if q = source then none
        else if q = target then some (tpane.withTab d tab) else ws.panes.lookup q)
      (htree : ws.splitTree.Later ws'.splitTree) : Edit ui op ws ww ws'
        (((moveChild (takeChild ww source tab) target moving tab.panel.stackChildName).removePane
          source).rebuild (cloneSplitTreeStructure ws'.splitTree))
  | give {ws' : Workspace F} {source : PaneId} {tab : Tab} {rest : Pane} {moving : StackChild}
      (ht : Taken ws ww source tab rest moving) (hne : rest.tabs ≠ [])
      (hp : ∀ q, ws'.panes.lookup q = if q = source then some rest else ws.panes.lookup q)
      (htree : ws.splitTree.Resized ws'.splitTree) :
      Edit ui op ws ww ws' ((takeChild ww source tab).showActive source rest)
  | giveLast {ws' : Workspace F} {source : PaneId} {tab : Tab} {rest : Pane} {moving : StackChild}
      (ht : Taken ws ww source tab rest moving)
      (hp : ∀ q, ws'.panes.lookup q = if q = source then none else ws.panes.lookup q)
      (htree : ws.splitTree.Later ws'.splitTree) :
      Edit ui op ws ww ws' (((takeChild ww source tab).removePane source).rebuild
        (cloneSplitTreeStructure ws'.splitTree))
  | receive {sws ws' : Workspace F} {sww : WorkspaceWidgets} {source target : PaneId} {tab : Tab}
      {rest tpane : Pane} {d : ℕ} {moving : StackChild} (hsws : sws ∈ ui.window.workspaces)
      (hsww : ui.widgets.lookup sws.id = some sww) (ht : Taken sws sww source tab rest moving)
      (htp : ws.panes.lookup target = some tpane) (hd : d ≤ tpane.tabs.length)
      (hp : ∀ q, ws'.panes.lookup q = if q = target then some (tpane.withTab d tab)
        else ws.panes.lookup q)
      (htree : ws.splitTree.Resized ws'.splitTree) :
      Edit ui op ws ww ws' (moveChild ww target moving tab.panel.stackChildName)

inductive Made (ui : Ui F) : WindowOp F → Workspace F → WorkspaceWidgets → Prop
  | fresh {op : WindowOp F} {ws' : Workspace F} (hp : ws'.panes = ui.window.freshWorkspace.panes)
      (ht : ws'.splitTree = ui.window.freshWorkspace.splitTree) :
      Made ui op ws' (freshWidgets ui.window.ids.surface ui.window.ids.pane)
  | restored {ord : IterOrder NodeId} {snap : WorkspaceSnapshot F} {port : Option UInt16}
      {id token : String} {s s' : Workspace F × IdCounters} {t : SplitTree F} {root : WidgetId}
      {ww : WorkspaceWidgets} {ws' : Workspace F} (he : s.1.panes = ∅)
      (hl : AppWindow.buildLayout ord snap.layout s = (t,s'))
      (hb : WorkspaceWidgets.buildLayoutWidget ord snap.layout s .new = (root,ww))
      (hp : ws'.panes = s'.1.panes) (ht : ws'.splitTree = t) :
      Made ui (.restoreWorkspaceFromLayout ord snap port id token) ws'
        { ww with gtk := ww.gtk.setChild ww.rootPaned true (some root) }

/-- Every workspace is new or an edited one. -/
def Edited (ui : Ui F) (op : WindowOp F) (ui' : Ui F) : Prop :=
  ui'.Each (fun ws' ww' => Made ui op ws' ww' ∨ ∃ ws ∈ ui.window.workspaces, ∃ ww,
    ui.widgets.lookup ws.id = some ww ∧ ws'.id = ws.id ∧ Edit ui op ws ww ws' ww')

end Ui


namespace Ui

section Steps

variable [F64Ops F] {ui ui' : Ui F} {op : WindowOp F}

theorem Each.of_alike (hown : ui.Each (fun _ _ => True)) {aw' : AppWindow F}
    (h : AlikeAll ui.window aw') : Edited ui op ⟨aw',ui.widgets⟩ := by
  intro ws' hws'
  obtain ⟨ws,hws,ha⟩ := h ws' hws'
  obtain ⟨ww,hww,-⟩ := hown ws hws
  exact ⟨ww,by rw [ha.id]; exact hww,.inr ⟨ws,hws,ww,hww,ha.id,.keep ha⟩⟩

theorem edited_refl (hown : ui.Each (fun _ _ => True)) : Edited ui op ui :=
  Each.of_alike hown (.refl ui.window)

theorem edited_at (h : WindowInv ui.window) (hown : ui.Each (fun _ _ => True)) {i : ℕ}
    {ws : Workspace F} {ww ww' : WorkspaceWidgets} {f : Workspace F → Workspace F}
    (hi : ui.window.workspaces[i]? = some ws) (hw : ui.widgets.lookup ws.id = some ww)
    (hws : ui'.window.workspaces = ui.window.workspaces.modify i f) (hid : (f ws).id = ws.id)
    (hwid : ∀ id, ui'.widgets.lookup id = if id = ws.id then some ww' else ui.widgets.lookup id)
    (he : Edit ui op ws ww (f ws) ww') : Edited ui op ui' := by
  intro x hx
  rw [hws] at hx
  obtain ⟨j,hj⟩ := List.mem_iff_getElem?.mp hx
  rw [List.getElem?_modify] at hj
  by_cases hij : i = j
  · subst hij
    obtain rfl : f ws = x := by simpa [hi] using hj
    exact ⟨ww',by simp only [if_true,hwid,hid],.inr ⟨ws,List.mem_of_getElem? hi,ww,hw,hid,he⟩⟩
  · simp only [hij,if_false,Option.map_eq_map,Option.map_id'] at hj
    have hne : x.id ≠ ws.id := fun hxid => hij (index_eq h hi hj hxid).symm
    have hm := List.mem_of_getElem? hj
    obtain ⟨v,hv,-⟩ := hown x hm
    exact ⟨v,by rw [hwid,if_neg hne,hv],.inr ⟨x,hm,v,hv,rfl,.keep (.refl x)⟩⟩

theorem edited_append (h : WindowInv ui.window) (hown : ui.Each (fun _ _ => True))
    {ws' : Workspace F} {ww' : WorkspaceWidgets}
    (hws : ui'.window.workspaces = ui.window.workspaces ++ [ws'])
    (hid : ws'.id = ui.window.ids.workspace)
    (hw : ui'.widgets = ui.widgets.insert ui.window.ids.workspace ww')
    (hm : Made ui op ws' ww') : Edited ui op ui' := by
  intro x hx
  rw [hws,List.mem_append,List.mem_singleton] at hx
  rcases hx with hx | rfl
  · have hne : x.id ≠ ui.window.ids.workspace := ne_of_lt (h.ids_lt x hx)
    obtain ⟨v,hv,-⟩ := hown x hx
    exact ⟨v,by rw [hw,HashMap.lookup_insert_ite,if_neg hne,hv],
      .inr ⟨x,hx,v,hv,rfl,.keep (.refl x)⟩⟩
  · exact ⟨ww',by rw [hw,hid,HashMap.lookup_insert_ite,if_pos rfl],.inl hm⟩

theorem edited_removeWorkspaceAt (h : WindowInv ui.window) (hown : ui.Each (fun _ _ => True))
    {i : ℕ} {ws : Workspace F} (hi : ui.window.workspaces[i]? = some ws) {aw' : AppWindow F}
    (hs : ui.window.removeWorkspaceAt i = some aw') :
    Edited ui op ⟨aw',ui.widgets.erase ws.id⟩ := by
  intro x hx
  rw [removeWorkspaceAt_workspaces hs] at hx
  obtain ⟨j,hij,hj⟩ := List.mem_eraseIdx_iff_getElem?.mp hx
  have hne : x.id ≠ ws.id := fun hxid => hij (index_eq h hi hj hxid)
  have hm := List.mem_of_getElem? hj
  obtain ⟨v,hv,-⟩ := hown x hm
  exact ⟨v,by rw [HashMap.lookup_erase_ite,if_neg hne,hv],.inr ⟨x,hm,v,hv,rfl,.keep (.refl x)⟩⟩

theorem edited_newPaneTab (h : WindowInv ui.window) (hown : ui.Each (fun _ _ => True)) :
    Edited ui op ui.newPaneTab := by
  unfold newPaneTab
  split
  · exact edited_refl hown
  rename_i i ws hc
  have hi := current_spec hc
  split
  · exact edited_refl hown
  rename_i p hp
  obtain ⟨ww,hww,-⟩ := hown ws (List.mem_of_getElem? hi)
  obtain ⟨pane,hl⟩ := HashMap.mem_iff_lookup.mp
    ((h.ws ws (List.mem_of_getElem? hi)).mem_of_focused hp)
  have hws : ui.window.newPaneTab.workspaces = ui.window.workspaces.modify i
      (fun ws => ws.modifyPane p (fun pane => pane.addTab ui.window.ids.surface)) := by
    simp only [AppWindow.newPaneTab,hc,hp,AppWindow.modifyWs]
  exact edited_at h hown hi hww hws rfl (lookup_modifyWidgets hww _)
    (.push hl (lookup_modifyPane hl _) (.refl _))

theorem edited_selectPaneTabGeneric (h : WindowInv ui.window) (hown : ui.Each (fun _ _ => True))
    (p : PaneId) (idx : ℕ) : Edited ui op (ui.selectPaneTabGeneric p idx) := by
  unfold selectPaneTabGeneric
  cases hf : ui.window.findWorkspaceWithPane p with
  | none =>
    simp only [AppWindow.selectPaneTabGeneric,hf]
    exact edited_refl hown
  | some e =>
    obtain ⟨i,ws,pane⟩ := e
    obtain ⟨hi,hl⟩ := findWs_spec hf
    obtain ⟨ww,hww,-⟩ := hown ws (List.mem_of_getElem? hi)
    have hws : (ui.window.selectPaneTabGeneric p idx).workspaces = ui.window.workspaces.modify i
        (fun ws => (ws.modifyPane p (fun pane => pane.selectTab idx)).setFocusedPane p) := by
      simp only [AppWindow.selectPaneTabGeneric,hf,AppWindow.setPaneActive,modifyWs_modifyWs]
      rfl
    dsimp only
    cases ht : pane.tabs[idx]? with
    | none =>
      refine Each.of_alike hown ?_
      have hsel : pane.selectTab idx = pane := by
        rw [Pane.selectTab,if_neg (not_lt.mpr (List.getElem?_eq_none_iff.mp ht))]
      simp only [AppWindow.selectPaneTabGeneric,hf]
      refine AlikeAll.trans (.modifyWs rfl (fun ws' hi' => ?_)) (.setPaneActive _ i p)
      obtain rfl := Option.some.inj (hi.symm.trans hi')
      refine .modifyPane ws p (fun pane' hl' => ?_)
      obtain rfl := Option.some.inj (hl.symm.trans hl')
      rw [hsel]
      exact .refl pane
    | some tab =>
      have hlt := (List.getElem?_eq_some_iff.mp ht).1
      have hact : (pane.selectTab idx).activePanel = some tab.panel := by
        rw [Pane.selectTab,if_pos hlt,Pane.activePanel]
        exact congrArg (Option.map Tab.panel) ht
      refine edited_at h hown hi hww hws rfl (lookup_modifyWidgets hww _) ?_
      have hshow : ww.showActive p (pane.selectTab idx) =
          ww.modifyStack p (fun s => s.setVisibleChildName tab.panel.stackChildName) := by
        simp only [WorkspaceWidgets.showActive,hact]
      rw [← hshow]
      exact .select hl (Pane.selectTab_tabs pane idx) (lookup_modifyPane hl _) (.setFocused _ p)

theorem edited_cyclePaneTab (h : WindowInv ui.window) (hown : ui.Each (fun _ _ => True))
    (forward : Bool) : Edited ui op (ui.cyclePaneTab forward) := by
  unfold cyclePaneTab
  split
  · exact edited_refl hown
  rename_i i ws hc
  have hi := current_spec hc
  split
  · exact edited_refl hown
  rename_i p hp
  obtain ⟨ww,hww,-⟩ := hown ws (List.mem_of_getElem? hi)
  obtain ⟨pane,hl⟩ := HashMap.mem_iff_lookup.mp
    ((h.ws ws (List.mem_of_getElem? hi)).mem_of_focused hp)
  have hws : (ui.window.cyclePaneTab forward).workspaces = ui.window.workspaces.modify i
      (fun ws => ws.modifyPane p (fun pane => pane.cycleTab forward)) := by
    simp only [AppWindow.cyclePaneTab,hc,hp,AppWindow.modifyWs]
  simp only [hl]
  exact edited_at h hown hi hww hws rfl (lookup_modifyWidgets hww _)
    (.select hl (Pane.cycleTab_tabs pane forward) (lookup_modifyPane hl _) (.refl _))

theorem edited_closePanel (h : WindowInv ui.window) (hown : ui.Each (fun _ _ => True)) {i : ℕ}
    {ws : Workspace F} {p : PaneId} {rm : Pane → Pane} (hi : ui.window.workspaces[i]? = some ws)
    (hp : p ∈ ws.panes) (hone : ∀ pane, ws.panes.lookup p = some pane → 2 ≤ pane.tabs.length →
      ClosesOne ui.window op) (hs : ui.closePanel i ws p rm = some ui') : Edited ui op ui' := by
  obtain ⟨pane,hl⟩ := HashMap.mem_iff_lookup.mp hp
  obtain ⟨ww,hww,-⟩ := hown ws (List.mem_of_getElem? hi)
  obtain ⟨aw',haw,hs⟩ := Option.map_eq_some_iff.mp hs
  simp only [AppWindow.closePanel,hl,Option.map_some,Option.getD_some] at haw hs
  split_ifs at haw hs with hlast htab
  · subst hs
    exact edited_removeWorkspaceAt h hown hi haw
  · subst hs
    cases haw
    rw [refocus_eq]
    have h1 : 1 < ws.panes.keys.length := by omega
    refine edited_at h hown hi hww rfl rfl (lookup_modifyWidgets hww _)
      (.drop hp h1 (fun q => ?_) (.refl _))
    exact HashMap.lookup_erase_ite ws.panes p q
  · subst hs
    cases haw
    exact edited_at h hown hi hww rfl rfl (lookup_modifyWidgets hww _)
      (.close hl (hone pane hl (by omega)) (lookup_modifyPane hl rm) (.refl _))

theorem edited_closeSurface (h : WindowInv ui.window) (hown : ui.Each (fun _ _ => True))
    {s : SurfaceId} (hs : ui.closeSurface s = some ui') :
    Edited ui (.closeSurface s) ui' := by
  unfold closeSurface at hs
  split at hs
  · cases hs
    exact edited_refl hown
  · rename_i i ws p hf
    obtain ⟨hi,hp⟩ := findSurface_spec hf
    exact edited_closePanel h hown hi hp (fun pane hl h2 => ⟨i,ws,p,pane,hf,hl,h2⟩) hs

theorem edited_closeBrowser (h : WindowInv ui.window) (hown : ui.Each (fun _ _ => True))
    {b : BrowserPanelId} (hs : ui.closeBrowser b = some ui') :
    Edited ui (.closeBrowser b) ui' := by
  unfold closeBrowser at hs
  split at hs
  · cases hs
    exact edited_refl hown
  · rename_i i ws p hf
    obtain ⟨hi,hp⟩ := findBrowser_spec hf
    exact edited_closePanel h hown hi hp (fun pane hl h2 => ⟨i,ws,p,pane,hf,hl,h2⟩) hs

theorem edited_split (h : WindowInv ui.window) (hown : ui.Each (fun _ _ => True)) {i : ℕ}
    {ws : Workspace F} {target : PaneId} (panel : PanelKind) (o : Orientation) {aw' : AppWindow F}
    {f : Workspace F → Workspace F} (hi : ui.window.workspaces[i]? = some ws)
    (hm : target ∈ ws.panes) (hws : aw'.workspaces = ui.window.workspaces.modify i f)
    (hid : (f ws).id = ws.id)
    (hp : (f ws).panes = ws.panes.insert ui.window.ids.pane (.single ui.window.ids.pane panel))
    (ht : (ws.splitTree.split target ui.window.ids.pane o).2.Resized (f ws).splitTree) :
    Edited ui op ⟨aw',ui.splitWidgets ws target panel o⟩ := by
  obtain ⟨ww,hww,-⟩ := hown ws (List.mem_of_getElem? hi)
  refine edited_at h hown hi hww hws hid (lookup_modifyWidgets hww _)
    (.split rfl hm rfl (fun q => ?_) ht)
  rw [hp,HashMap.lookup_insert_ite]

theorem edited_splitFocused (h : WindowInv ui.window) (hown : ui.Each (fun _ _ => True))
    (o : Orientation) : Edited ui op (ui.splitFocused o) := by
  unfold splitFocused
  split
  · exact edited_refl hown
  rename_i i ws hc
  have hi := current_spec hc
  split
  · exact edited_refl hown
  rename_i p hp
  have hm := (h.ws ws (List.mem_of_getElem? hi)).mem_of_focused hp
  have hws : (ui.window.splitFocused o).workspaces = ui.window.workspaces.modify i
      (fun ws => AppWindow.addSplit ws p
        (.newWithId ui.window.ids.pane ui.window.ids.surface) o) := by
    simp only [AppWindow.splitFocused,hc,hp,AppWindow.modifyWs]
  exact edited_split h hown _ o hi hm hws rfl rfl (.refl _)

theorem edited_splitBrowserInWorkspace (h : WindowInv ui.window)
    (hown : ui.Each (fun _ _ => True)) {i : ℕ} {ws : Workspace F} {p : PaneId} {o : Orientation}
    {url : String} (hi : ui.window.workspaces[i]? = some ws) (hm : p ∈ ws.panes)
    (hs : ui.splitBrowserInWorkspace i p o url = some ui') : Edited ui op ui' := by
  obtain ⟨ws₁,hi₁,hs⟩ := Option.bind_eq_some_iff.mp hs
  obtain rfl := Option.some.inj (hi.symm.trans hi₁)
  obtain ⟨aw',haw,rfl⟩ := Option.map_eq_some_iff.mp hs
  have hws : aw'.workspaces = ui.window.workspaces.modify i (fun ws =>
      (AppWindow.addSplit ws p (.newBrowserWithId ui.window.ids.pane ui.window.ids.browser url)
        o).setFocusedPane ui.window.ids.pane) := by
    unfold AppWindow.splitBrowserInWorkspace at haw
    split_ifs at haw
    cases haw
    rfl
  exact edited_split h hown _ o hi hm hws rfl rfl (.setFocused _ _)

theorem edited_splitFocusedBrowser (h : WindowInv ui.window) (hown : ui.Each (fun _ _ => True))
    {o : Orientation} {url : String} (hs : ui.splitFocusedBrowser o url = some ui') :
    Edited ui op ui' := by
  unfold splitFocusedBrowser at hs
  split at hs
  · cases hs
    exact edited_refl hown
  rename_i i ws hc
  have hi := current_spec hc
  split at hs
  · cases hs
    exact edited_refl hown
  rename_i p hp
  exact edited_splitBrowserInWorkspace h hown hi
    ((h.ws ws (List.mem_of_getElem? hi)).mem_of_focused hp) hs

theorem edited_openBrowserPopup (h : WindowInv ui.window) (hown : ui.Each (fun _ _ => True))
    {registered : Bool} {opener : BrowserPanelId} {url : String}
    (hs : ui.openBrowserPopup registered opener url = some ui') : Edited ui op ui' := by
  unfold openBrowserPopup at hs
  split_ifs at hs
  · cases hs
    exact edited_refl hown
  split at hs
  · rename_i i ws p hf
    obtain ⟨hi,hm⟩ := findBrowser_spec hf
    exact edited_splitBrowserInWorkspace h hown hi hm hs
  · dsimp only at hs
    split at hs
    · cases hs
      exact edited_refl hown
    · rename_i p hp
      obtain ⟨ws,hi,hp⟩ := Option.bind_eq_some_iff.mp hp
      exact edited_splitBrowserInWorkspace h hown hi
        ((h.ws ws (List.mem_of_getElem? hi)).mem_of_focused hp) hs

theorem edited_movePane (h : WindowInv ui.window) (hown : ui.Each (fun _ _ => True))
    (source target : PaneId) (before : Bool) (o : Orientation) :
    Edited ui op (ui.movePane source target before o) := by
  unfold movePane
  split
  · exact edited_refl hown
  rename_i i ws hc
  have hi := current_spec hc
  obtain ⟨ww,hww,-⟩ := hown ws (List.mem_of_getElem? hi)
  split_ifs with hn hm
  · exact edited_refl hown
  · have hws : (ui.window.movePane source target before o).workspaces =
        ui.window.workspaces.modify i (fun ws' => ({ ws' with
          splitTree := (ws.splitTree.movePaneAdjacent source target before o).2 } :
            Workspace F).setFocusedPane source) := by
      simp only [AppWindow.movePane,hc,if_neg hn,hm,if_true,AppWindow.setPaneActive,
        modifyWs_modifyWs]
      rfl
    have hi' : (ui.window.movePane source target before o).workspaces[i]? =
        some (({ ws with splitTree := (ws.splitTree.movePaneAdjacent source target before o).2 } :
          Workspace F).setFocusedPane source) := by
      rw [hws,List.getElem?_modify_eq,hi]
      rfl
    simp only [rebuild,hi']
    have htree := (h.ws ws (List.mem_of_getElem? hi)).tree.later_movePaneAdjacent source target
      before o
    exact edited_at h hown hi hww hws rfl (lookup_modifyWidgets hww _)
      (.move (fun _ => rfl) (htree.trans (.of_sameShape (.refl _) rfl)))
  · have hfail : ws.splitTree.Resized (ws.splitTree.movePaneAdjacent source target before o).2 := by
      rw [(h.ws ws (List.mem_of_getElem? hi)).tree.move_fail (Bool.not_eq_true _ ▸ hm)]
      exact .refl _
    refine Each.of_alike hown ?_
    simp only [AppWindow.movePane,hc,if_neg hn,hm]
    refine .modifyWs rfl (fun ws' hi' => ?_)
    obtain rfl := Option.some.inj (hi.symm.trans hi')
    exact .of_panes rfl rfl hfail

end Steps
end Ui

end Limux
