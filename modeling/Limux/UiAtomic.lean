import Limux.TabMoves
import Limux.UiWindow
import Mathlib.Data.Option.Basic

/-! Tab moves with their widgets: whatever the widgets are, a move gives up without a change
or is carried out, and none of its `expect` calls fails. -/
namespace Limux.Ui

variable {F : Type} {ui : Ui F} {source target : PaneId} {x : TabDragIdentity}

/-! What the lookups have established. -/

structure SplitFound (ui : Ui F) (source : PaneId) (x : TabDragIdentity)
    (l : SplitLookups F) : Prop where
  current : ui.window.current = some (l.index,l.ws)
  dragged : ∃ pane, Dragged l.ws source x pane l.tabIdx l.tab ∧
    tabIndexForIdentity pane x = some l.tabIdx ∧ 2 ≤ pane.tabs.length
  node : (l.ws.splitTree.nodeIdForPane source).isSome
  widgets : ui.widgets.lookup l.ws.id = some l.ww
  paneWidget : l.ww.paneWidgets.lookup source = some l.pw
  child : ∃ moving, l.pw.stack.childByName l.tab.panel.stackChildName = some moving ∧
    tabPanelWidget l.tab.panel moving.widget = some l.panel
  nested : if 1 < l.ws.panes.keys.length then
      ∃ parent, l.ww.gtk.parent l.pw.container = some parent ∧ l.nestedParent =
        some (parent,decide (l.ww.gtk.child parent true = some l.pw.container))
    else l.nestedParent = none

theorem splitTabLookups_found {l : SplitLookups F} (h : ui.splitTabLookups source x = some l) :
    SplitFound ui source x l := by
  obtain ⟨⟨i,ws⟩,hc,h⟩ := Option.bind_eq_some_iff.mp h
  obtain ⟨pane,hl,h⟩ := Option.bind_eq_some_iff.mp h
  obtain ⟨_,hg,h⟩ := Option.bind_eq_some_iff.mp h
  obtain ⟨idx,hk,h⟩ := Option.bind_eq_some_iff.mp h
  obtain ⟨ww,hww,h⟩ := Option.bind_eq_some_iff.mp h
  obtain ⟨pw,hpw,h⟩ := Option.bind_eq_some_iff.mp h
  obtain ⟨tab,ht,h⟩ := Option.bind_eq_some_iff.mp h
  obtain ⟨moving,hm,h⟩ := Option.bind_eq_some_iff.mp h
  obtain ⟨panel,hp,h⟩ := Option.bind_eq_some_iff.mp h
  obtain ⟨h2,hnode⟩ := (Option.guard_eq_some' _).mp hg
  obtain ⟨tab',ht',hx⟩ := tabIndexForIdentity_spec hk
  obtain rfl := Option.some.inj (ht.symm.trans ht')
  dsimp only at h
  split_ifs at h with hlen
  · obtain ⟨nested,hn,h⟩ := Option.bind_eq_some_iff.mp h
    obtain ⟨parent,hpar,rfl⟩ := Option.map_eq_some_iff.mp hn
    cases h
    exact ⟨hc,⟨pane,⟨hl,ht,hx⟩,hk,h2⟩,hnode,hww,hpw,⟨moving,hm,hp⟩,
      (if_pos hlen).mpr ⟨parent,hpar,rfl⟩⟩
  · cases h
    exact ⟨hc,⟨pane,⟨hl,ht,hx⟩,hk,h2⟩,hnode,hww,hpw,⟨moving,hm,hp⟩,(if_neg hlen).mpr rfl⟩

structure MoveFound (ui : Ui F) (source : PaneId) (x : TabDragIdentity) (target : PaneId)
    (l : MoveLookups F) : Prop where
  current : ui.window.current = some (l.index,l.ws)
  ne : source ≠ target
  sourceNode : (l.ws.splitTree.nodeIdForPane source).isSome
  targetNode : (l.ws.splitTree.nodeIdForPane target).isSome
  dragged : ∃ pane, Dragged l.ws source x pane l.tabIdx l.tab ∧
    tabIndexForIdentity pane x = some l.tabIdx
  widgets : ui.widgets.lookup l.ws.id = some l.ww
  paneWidget : l.ww.paneWidgets.lookup source = some l.source
  child : l.source.stack.childByName l.tab.panel.stackChildName = some l.moving
  targetWidget : ∃ tpw, l.ww.paneWidgets.lookup target = some tpw ∧
    tpw.stack.childByName l.tab.panel.stackChildName = none

theorem moveTabLookups_found {l : MoveLookups F} (h : ui.moveTabLookups source x target = some l) :
    MoveFound ui source x target l := by
  obtain ⟨⟨i,ws⟩,hc,h⟩ := Option.bind_eq_some_iff.mp h
  obtain ⟨_,hg,h⟩ := Option.bind_eq_some_iff.mp h
  obtain ⟨pane,hl,h⟩ := Option.bind_eq_some_iff.mp h
  obtain ⟨idx,hk,h⟩ := Option.bind_eq_some_iff.mp h
  obtain ⟨tab,ht,h⟩ := Option.bind_eq_some_iff.mp h
  obtain ⟨ww,hww,h⟩ := Option.bind_eq_some_iff.mp h
  obtain ⟨spw,hspw,h⟩ := Option.bind_eq_some_iff.mp h
  obtain ⟨tpw,htpw,h⟩ := Option.bind_eq_some_iff.mp h
  obtain ⟨moving,hm,h⟩ := Option.bind_eq_some_iff.mp h
  obtain ⟨_,hfree,h⟩ := Option.bind_eq_some_iff.mp h
  cases h
  obtain ⟨hne,hs,ht'⟩ := (Option.guard_eq_some' _).mp hg
  obtain ⟨tab',htab,hx⟩ := tabIndexForIdentity_spec hk
  obtain rfl := Option.some.inj (ht.symm.trans htab)
  exact ⟨hc,hne,hs,ht',⟨pane,⟨hl,ht,hx⟩,hk⟩,hww,hspw,hm,tpw,htpw,
    Option.isNone_iff_eq_none.mp ((Option.guard_eq_some' _).mp hfree)⟩

structure WorkspaceFound (ui : Ui F) (source : PaneId) (x : TabDragIdentity)
    (targetId : WorkspaceId) (l : WorkspaceMove F) : Prop where
  dragged : ∃ pane, ui.window.findWorkspaceWithPane source = some (l.sourceIdx,l.sourceWs,pane) ∧
    Dragged l.sourceWs source x pane l.tabIdx l.tab ∧ tabIndexForIdentity pane x = some l.tabIdx
  found : ∃ u, ui.window.findWorkspaceById targetId = some (l.targetIdx,l.targetWs,u)
  ne : l.sourceIdx ≠ l.targetIdx
  drop : AppWindow.dropTarget l.targetWs = some l.target
  sourceNode : (l.sourceWs.splitTree.nodeIdForPane source).isSome
  targetNode : (l.targetWs.splitTree.nodeIdForPane l.target).isSome
  sourceWidgets : ∃ sww spw, ui.widgets.lookup l.sourceWs.id = some sww ∧
    sww.paneWidgets.lookup source = some spw ∧
    spw.stack.childByName l.tab.panel.stackChildName = some l.moving
  targetWidgets : ∃ tww tpw, ui.widgets.lookup targetId = some tww ∧
    tww.paneWidgets.lookup l.target = some tpw ∧
    tpw.stack.childByName l.tab.panel.stackChildName = none

theorem workspaceMoveLookups_found {targetId : WorkspaceId} {l : WorkspaceMove F}
    (h : ui.workspaceMoveLookups source x targetId = some l) :
    WorkspaceFound ui source x targetId l := by
  obtain ⟨⟨si,sws,spane⟩,hfs,h⟩ := Option.bind_eq_some_iff.mp h
  obtain ⟨⟨ti,tws,u⟩,hft,h⟩ := Option.bind_eq_some_iff.mp h
  obtain ⟨_,hne,h⟩ := Option.bind_eq_some_iff.mp h
  obtain ⟨target,hdt,h⟩ := Option.bind_eq_some_iff.mp h
  obtain ⟨_,hg,h⟩ := Option.bind_eq_some_iff.mp h
  obtain ⟨pane,hl,h⟩ := Option.bind_eq_some_iff.mp h
  obtain ⟨idx,hk,h⟩ := Option.bind_eq_some_iff.mp h
  obtain ⟨tab,ht,h⟩ := Option.bind_eq_some_iff.mp h
  obtain ⟨sww,hsww,h⟩ := Option.bind_eq_some_iff.mp h
  obtain ⟨spw,hspw,h⟩ := Option.bind_eq_some_iff.mp h
  obtain ⟨tww,htww,h⟩ := Option.bind_eq_some_iff.mp h
  obtain ⟨tpw,htpw,h⟩ := Option.bind_eq_some_iff.mp h
  obtain ⟨moving,hm,h⟩ := Option.bind_eq_some_iff.mp h
  obtain ⟨_,hfree,h⟩ := Option.bind_eq_some_iff.mp h
  obtain ⟨_,_,h⟩ := Option.bind_eq_some_iff.mp h
  cases h
  obtain ⟨hnt,hns⟩ := (Option.guard_eq_some' _).mp hg
  obtain ⟨tab',htab,hx⟩ := tabIndexForIdentity_spec hk
  obtain rfl := Option.some.inj (ht.symm.trans htab)
  obtain rfl : spane = pane := Option.some.inj ((findWs_spec hfs).2.symm.trans hl)
  exact ⟨⟨spane,hfs,⟨hl,ht,hx⟩,hk⟩,⟨u,hft⟩,(Option.guard_eq_some' _).mp hne,hdt,hns,hnt,
    ⟨sww,spw,hsww,hspw,hm⟩,tww,tpw,htww,htpw,
    Option.isNone_iff_eq_none.mp ((Option.guard_eq_some' _).mp hfree)⟩

/-! The operations. -/

theorem exists_map {α β : Type} {o : Option α} {f : α → β} {Q : β → Prop}
    (h : ∃ a, o = some a) (hq : ∀ a, Q (f a)) : ∃ b, o.map f = some b ∧ Q b := by
  obtain ⟨a,rfl⟩ := h
  exact ⟨f a,rfl,hq a⟩

theorem root_of_panes {t : SplitTree F} (h : t.panes ≠ []) : ∃ r, t.root = some r := by
  cases hr : t.root with
  | some r => exact ⟨r,rfl⟩
  | none =>
    rw [SplitTree.panes,hr] at h
    exact absurd rfl h

theorem getElem?_modifyWs_const {aw : AppWindow F} {i : ℕ} {ws ws' : Workspace F}
    (hi : aw.workspaces[i]? = some ws) : (aw.modifyWs i (fun _ => ws')).workspaces[i]? = some ws' :=
  getElem?_modifyWs hi _

theorem placeTab_isSome {ww : WorkspaceWidgets} {container : WidgetId} {pw : PaneWidget}
    {new : PaneId} {nested : Option (WidgetId × Bool)} {n : ℕ} {before : Bool} {o : Orientation}
    {node : NodeId} (h : n = 1 ∨ nested.isSome) :
    ∃ ww', placeTab ww container pw new nested (decide (n = 1)) before o node = some ww' := by
  unfold placeTab
  by_cases h1 : n = 1
  · rw [decide_eq_true h1,if_pos rfl]
    exact ⟨_,rfl⟩
  · obtain ⟨parent,hp⟩ := Option.isSome_iff_exists.mp (h.resolve_left h1)
    rw [decide_eq_false h1,if_neg Bool.false_ne_true,hp]
    exact ⟨_,rfl⟩

section Splits

variable [F64Ops F]

theorem splitTabToPane_atomic (ui : Ui F) (h : WindowInv ui.window) (o : Orientation)
    (before widgets : Bool) :
    ∃ ui', ui.splitTabToPane source x o before = some ui' ∧ (ui' = ui ∨
      Completed ui.window (.splitTabToPane source x o before widgets) ui'.window) := by
  unfold splitTabToPane
  split
  · exact ⟨ui,rfl,.inl rfl⟩
  rename_i l hl
  have hf := splitTabLookups_found hl
  obtain ⟨pane,hd,hk,h2⟩ := hf.dragged
  have hi := current_spec hf.current
  have hws := h.ws l.ws (List.mem_of_getElem? hi)
  obtain ⟨mid,ws',hleft,hoff,haw⟩ :=
    splitTabToPane_completes h hf.current hd hk h2 hf.node o before
  -- the source keeps a tab
  obtain ⟨rest,hrest⟩ : ∃ rest, ws'.panes.lookup source = some rest := by
    have hm := WsShape.mem_of_lookup hd.found
    have hne : source ≠ ui.window.ids.pane := fun he => h.pane_fresh hi (le_of_eq he.symm) hm
    rw [hoff.others source hne]
    cases hs : mid.panes.lookup source with
    | some rest => exact ⟨rest,rfl⟩
    | none =>
      have he := hleft.lost
      rw [hs] at he
      have hlen := congrArg List.length (he : pane.tabs.eraseIdx l.tabIdx = [])
      rw [List.length_eraseIdx,List.length_nil] at hlen
      split_ifs at hlen <;> omega
  obtain ⟨⟨node,hnode⟩,-⟩ := hws.tree.splitAt_ok before ui.window.ids.pane o
    ((hws.keys source).mp (WsShape.mem_of_lookup hd.found))
  -- with several panes the parent was looked up
  have hnested : l.ws.panes.keys.length = 1 ∨ l.nestedParent.isSome := by
    have hpos : 0 < l.ws.panes.keys.length := List.length_pos_of_mem
      (AList.mem_keys.mp (WsShape.mem_of_lookup hd.found))
    rcases Nat.lt_or_ge 1 l.ws.panes.keys.length with h1 | h1
    · have hn := hf.nested
      rw [if_pos h1] at hn
      obtain ⟨parent,-,hp⟩ := hn
      exact .inr (by rw [hp]; rfl)
    · exact .inl (by omega)
  obtain ⟨aw',haw',hget,hdone⟩ : ∃ aw',
      ui.window.splitTabToPane source x o before true = some aw' ∧
      aw'.workspaces[l.index]? = some ws' ∧
      Completed ui.window (.splitTabToPane source x o before widgets) aw' :=
    ⟨_,haw,getElem?_modifyWs_const hi,.split hf.current hd hleft hoff⟩
  simp only [haw',Option.bind_some,hget,hrest,hoff.single,hnode,hf.widgets]
  exact exists_map (placeTab_isSome hnested) (fun _ => Or.inr hdone)

theorem splitTabToPaneTarget_atomic (ui : Ui F) (h : WindowInv ui.window) (o : Orientation)
    (before widgets : Bool) :
    ∃ ui', ui.splitTabToPaneTarget source x target o before = some ui' ∧ (ui' = ui ∨
      Completed ui.window (.splitTabToPaneTarget source x target o before widgets) ui'.window) := by
  unfold splitTabToPaneTarget
  split
  · exact ⟨ui,rfl,.inl rfl⟩
  rename_i l panel hl
  obtain ⟨l',hl',hl⟩ := Option.bind_eq_some_iff.mp hl
  obtain ⟨panel',-,hl⟩ := Option.bind_eq_some_iff.mp hl
  obtain ⟨_,_,hl⟩ := Option.bind_eq_some_iff.mp hl
  cases hl
  have hf := moveTabLookups_found hl'
  obtain ⟨pane,hd,hk⟩ := hf.dragged
  have hi := current_spec hf.current
  obtain ⟨rest,htake,-,-⟩ := takeTab_completes hd (sel_lt h hi hd.found)
  obtain ⟨mid,ws',hleft,hoff,haw⟩ :=
    splitTabToPaneTarget_completes h hf.current hd hk hf.ne hf.sourceNode hf.targetNode o before
  have hsource : (Workspace.addPane { l.ws with panes := l.ws.panes.insert source rest }
      (paneFromTab ui.window.ids.pane l.tab)).panes.lookup source = some rest := by
    have hne : source ≠ ui.window.ids.pane := fun he =>
      h.pane_fresh hi (le_of_eq he.symm) (WsShape.mem_of_lookup hd.found)
    show ((l.ws.panes.insert source rest).insert ui.window.ids.pane _).lookup source = _
    rw [HashMap.lookup_insert_ite,if_neg hne,HashMap.lookup_insert_ite,if_pos rfl]
  obtain ⟨root,hroot⟩ : ∃ r, ws'.splitTree.root = some r := by
    obtain ⟨a,b,-,hp⟩ := hoff.order
    refine root_of_panes ?_
    rw [hp]
    cases before <;> simp
  obtain ⟨aw',haw',hget,hdone⟩ : ∃ aw',
      ui.window.splitTabToPaneTarget source x target o before true = some aw' ∧
      aw'.workspaces[l.index]? = some ws' ∧
      Completed ui.window (.splitTabToPaneTarget source x target o before widgets) aw' :=
    ⟨_,haw,getElem?_modifyWs_const hi,.splitTarget hf.current hd hf.ne hleft hoff⟩
  simp only [htake,Option.bind_some,hsource,hf.widgets,hf.paneWidget,haw',hget,hoff.single]
  refine exists_map ?_ (fun _ => Or.inr hdone)
  rw [cloneSplitTreeStructure,hroot]
  exact ⟨_,rfl⟩

end Splits

theorem moveTabToPane_atomic (ui : Ui F) (h : WindowInv ui.window) (insertion : TabInsertion)
    (widgets : Bool) :
    ∃ ui', ui.moveTabToPane source x target insertion = some ui' ∧ (ui' = ui ∨
      Completed ui.window (.moveTabToPane source x target insertion widgets) ui'.window) := by
  unfold moveTabToPane
  split
  · exact ⟨ui,rfl,.inl rfl⟩
  rename_i l d hl
  obtain ⟨l',hl',hl⟩ := Option.bind_eq_some_iff.mp hl
  obtain ⟨tpane,htp,hl⟩ := Option.bind_eq_some_iff.mp hl
  obtain ⟨d',hins,hl⟩ := Option.bind_eq_some_iff.mp hl
  cases hl
  have hf := moveTabLookups_found hl'
  obtain ⟨pane,hd,hk⟩ := hf.dragged
  have hi := current_spec hf.current
  obtain ⟨hdrop,hdle⟩ := dropsAt_of_insertionIndex hins
  obtain ⟨rest,htake,-,-⟩ := takeTab_completes hd (sel_lt h hi hd.found)
  have htp' : ({ l.ws with panes := l.ws.panes.insert source rest } : Workspace F).panes.lookup
      target = some tpane := by
    simp only [HashMap.lookup_insert_ite,if_neg (Ne.symm hf.ne),htp]
  obtain ⟨mid,ws',hleft,harr,haw⟩ :=
    moveTabToPane_completes h hf.current hd hk hf.ne hf.sourceNode hf.targetNode htp hins
  have hsource : ((l.ws.panes.insert source rest).insert target (tpane.withTab d l.tab)).lookup
      source = some rest := by
    rw [HashMap.lookup_insert_ite,if_neg hf.ne,HashMap.lookup_insert_ite,if_pos rfl]
  obtain ⟨aw',haw',hget,hdone⟩ : ∃ aw',
      ui.window.moveTabToPane source x target insertion true = some aw' ∧
      aw'.workspaces[l.index]? = some ws' ∧
      Completed ui.window (.moveTabToPane source x target insertion widgets) aw' :=
    ⟨_,haw,getElem?_modifyWs_const hi,.move hf.current hd hf.ne htp hdrop hleft harr⟩
  simp only [htake,Option.bind_some,putTab_completes htp' hdle,hsource,haw',hget,hf.widgets]
  split_ifs
  · exact ⟨_,rfl,.inr hdone⟩
  · refine exists_map ?_ (fun _ => Or.inr hdone)
    exact HashMap.mem_iff_lookup.mp (HashMap.mem_modify.mpr (HashMap.mem_modify.mpr
      (HashMap.mem_iff_lookup.mpr ⟨_,hf.paneWidget⟩)))

theorem reorderTabInPane_atomic (ui : Ui F) (insertion : TabInsertion) (widgets : Bool) :
    ∃ ui', ui.reorderTabInPane source x insertion = some ui' ∧ (ui' = ui ∨
      Completed ui.window (.reorderTabInPane source x insertion widgets) ui'.window) := by
  unfold reorderTabInPane
  split
  · exact ⟨ui,rfl,.inl rfl⟩
  rename_i c hl
  obtain ⟨⟨i,ws⟩,hc,hl⟩ := Option.bind_eq_some_iff.mp hl
  obtain ⟨pane,hp,hl⟩ := Option.bind_eq_some_iff.mp hl
  obtain ⟨_,hg,hl⟩ := Option.bind_eq_some_iff.mp hl
  obtain ⟨k,hk,hl⟩ := Option.bind_eq_some_iff.mp hl
  obtain ⟨j,hj,hl⟩ := Option.bind_eq_some_iff.mp hl
  obtain ⟨tab,hd⟩ := dragged_of_index hp hk
  obtain ⟨d,ws',hdrop,hre,haw⟩ :=
    reorderTabInPane_completes hc hd hk ((Option.guard_eq_some' _).mp hg) hj
  rw [haw]
  exact ⟨_,rfl,.inr (.reorder hc hd hdrop hre)⟩

/-- A widget of a pane stays looked up while the stacks change. -/
theorem mem_modifyStack {widgets : HashMap WorkspaceId WorkspaceWidgets} {id : WorkspaceId}
    {p : PaneId} {ww : WorkspaceWidgets} {pw : PaneWidget} (hw : widgets.lookup id = some ww)
    (hp : ww.paneWidgets.lookup p = some pw) (id' : WorkspaceId) (q : PaneId) (f : Stack → Stack) :
    ∃ ww' pw', (widgets.modify id' (fun ww => ww.modifyStack q f)).lookup id = some ww' ∧
      ww'.paneWidgets.lookup p = some pw' := by
  rw [HashMap.lookup_modify]
  split_ifs with he
  · rw [he] at hw
    rw [hw]
    obtain ⟨pw',hpw'⟩ := HashMap.mem_iff_lookup.mp (HashMap.mem_modify.mpr
      (HashMap.mem_iff_lookup.mpr ⟨pw,hp⟩) : p ∈ (ww.modifyStack q f).paneWidgets)
    exact ⟨_,pw',rfl,hpw'⟩
  · exact ⟨ww,pw,hw,hp⟩

theorem moveTabToWorkspace_atomic (ui : Ui F) (h : WindowInv ui.window) (targetId : WorkspaceId)
    (widgets : Bool) :
    ∃ ui', ui.moveTabToWorkspace source x targetId = some ui' ∧ (ui' = ui ∨
      Completed ui.window (.moveTabToWorkspace source x targetId widgets) ui'.window) := by
  unfold moveTabToWorkspace
  split
  · exact ⟨ui,rfl,.inl rfl⟩
  rename_i l hl
  have hf := workspaceMoveLookups_found hl
  obtain ⟨pane,hfs,hd,hk⟩ := hf.dragged
  obtain ⟨u,hft⟩ := hf.found
  have hsi := (findWs_spec hfs).1
  have hti := (findWs_spec hft).1
  obtain ⟨rest,htake,hr,hlost⟩ := takeTab_completes hd (sel_lt h hsi hd.found)
  obtain ⟨sws',tws',tpane,page,hleft,htp,harr,hpage,haw⟩ :=
    moveTabToWorkspace_completes h hfs hft hf.ne hf.drop hf.sourceNode hf.targetNode hd hk
  have htid : l.targetWs.id = targetId := by
    have := (findWs_spec hft).2
    by_contra hne
    rw [if_neg hne] at this
    cases this
  have hids : targetId ≠ l.sourceWs.id := by
    intro he
    have hfind := findById_of_get ui.window h.ids_nodup rfl hsi
    rw [← he,hft] at hfind
    exact hf.ne (congrArg (fun e => e.1) (Option.some.inj hfind)).symm
  obtain ⟨aw',haw',hdone⟩ : ∃ aw',
      ui.window.moveTabToWorkspace source x targetId true = some aw' ∧
      Completed ui.window (.moveTabToWorkspace source x targetId widgets) aw' :=
    ⟨_,haw,.workspace hsi hti hf.ne htid hf.drop htp hd hleft harr rfl hpage⟩
  have hl : ({ l.sourceWs with panes := l.sourceWs.panes.insert source rest } :
      Workspace F).panes.lookup source = some rest := by simp
  simp only [htake,Option.bind_some,hl,haw']
  -- both panes still have their widgets once the stacks have changed
  obtain ⟨sww,spw,hsww,hspw,-⟩ := hf.sourceWidgets
  obtain ⟨tww,tpw,htww,htpw,-⟩ := hf.targetWidgets
  obtain ⟨sww₁,spw₁,hsww₁,hspw₁⟩ := mem_modifyStack hsww hspw l.sourceWs.id source
    (fun s => s.remove l.tab.panel.stackChildName)
  obtain ⟨sww₂,spw₂,hsww₂,hspw₂⟩ := mem_modifyStack hsww₁ hspw₁ targetId l.target
    (fun s => (s.addNamed ⟨l.tab.panel.stackChildName,l.moving.widget⟩).setVisibleChildName
      l.tab.panel.stackChildName)
  obtain ⟨tww₁,tpw₁,htww₁,htpw₁⟩ := mem_modifyStack htww htpw l.sourceWs.id source
    (fun s => s.remove l.tab.panel.stackChildName)
  obtain ⟨tww₂,tpw₂,htww₂,htpw₂⟩ := mem_modifyStack htww₁ htpw₁ targetId l.target
    (fun s => (s.addNamed ⟨l.tab.panel.stackChildName,l.moving.widget⟩).setVisibleChildName
      l.tab.panel.stackChildName)
  simp only [moveChild]
  generalize (ui.widgets.modify l.sourceWs.id (fun ww => ww.modifyStack source
    (fun s => s.remove l.tab.panel.stackChildName))).modify targetId (fun ww => ww.modifyStack
    l.target (fun s => (s.addNamed ⟨l.tab.panel.stackChildName,l.moving.widget⟩).setVisibleChildName
      l.tab.panel.stackChildName)) = m at hsww₂ htww₂ ⊢
  by_cases he : rest.tabs = []
  · rw [if_pos he]
    split_ifs
    · simp only [Option.bind_some,HashMap.lookup_erase_ite,HashMap.lookup_modify,if_neg hids,
        htww₂,htpw₂,Option.map_some]
      exact ⟨_,rfl,.inr hdone⟩
    · simp only [Option.bind_some,HashMap.lookup_modify,if_neg hids,htww₂,htpw₂,Option.map_some]
      exact ⟨_,rfl,.inr hdone⟩
  · have hact : ∃ panel, rest.activePanel = some panel := by
      rw [Pane.activePanel,List.getElem?_eq_getElem (hlost he).2.2.1]
      exact ⟨_,rfl⟩
    obtain ⟨panel,hpanel⟩ := hact
    simp only [if_neg he,hpanel,Option.bind_some,hsww₂,hspw₂,Option.map_some,
      HashMap.lookup_insert_ite,if_neg hids,htww₂,htpw₂]
    exact ⟨_,rfl,.inr hdone⟩

def MovesTab : WindowOp F → Prop
  | .splitTabToPane _ _ _ _ _ | .splitTabToPaneTarget _ _ _ _ _ _ | .moveTabToPane _ _ _ _ _
  | .reorderTabInPane _ _ _ _ | .moveTabToWorkspace _ _ _ _ => True
  | _ => False

variable [F64Ops F]

/-- A tab move in a reachable window, with any widgets and any arguments, does not panic: it
changes nothing or completes. -/
theorem tabMove_atomic {aw : AppWindow F} (h : Reachable WindowOp.Targeted aw)
    (widgets : HashMap WorkspaceId WorkspaceWidgets) {op : WindowOp F} (hop : MovesTab op) :
    ∃ ui', (⟨aw,widgets⟩ : Ui F).step op = some ui' ∧
      (ui' = ⟨aw,widgets⟩ ∨ Completed aw op ui'.window) := by
  have hinv := h.windowInv
  cases op with
  | splitTabToPane source x o before b =>
    exact splitTabToPane_atomic ⟨aw,widgets⟩ hinv o before b
  | splitTabToPaneTarget source x target o before b =>
    exact splitTabToPaneTarget_atomic ⟨aw,widgets⟩ hinv o before b
  | moveTabToPane source x target insertion b =>
    exact moveTabToPane_atomic ⟨aw,widgets⟩ hinv insertion b
  | reorderTabInPane p x insertion b =>
    exact reorderTabInPane_atomic ⟨aw,widgets⟩ insertion b
  | moveTabToWorkspace source x targetWs b =>
    exact moveTabToWorkspace_atomic ⟨aw,widgets⟩ hinv targetWs b
  | _ => cases hop

def twoTabs : Ui ℚ := ((⟨AppWindow.start,∅⟩ : Ui ℚ).newWorkspace).newPaneTab

theorem tabMove_atomic_twoTabs :
    ∃ ui', twoTabs.step (.splitTabToPane 1 (.surface 2) .horizontal false true) = some ui' ∧
      Completed twoTabs.window (.splitTabToPane 1 (.surface 2) .horizontal false true)
        ui'.window := by
  have h : Reachable WindowOp.Targeted twoTabs.window :=
    .step .newPaneTab (.step .newWorkspace (.empty (rfl : AppWindow.start.workspaces = []))
      trivial rfl) trivial rfl
  obtain ⟨ui',hs,rfl | hdone⟩ := tabMove_atomic h twoTabs.widgets
    (show MovesTab (.splitTabToPane 1 (.surface 2) .horizontal false true) from trivial)
  · have hkeys : (twoTabs.step (.splitTabToPane 1 (.surface 2) .horizontal false true)).map
        (fun ui => ui.window.workspaces.map (fun ws => ws.panes.keys)) = some [[2,1]] := by
      decide +kernel
    rw [show twoTabs.step _ = _ from hs] at hkeys
    exact absurd hkeys (by decide)
  · exact ⟨ui',hs,hdone⟩

end Limux.Ui
