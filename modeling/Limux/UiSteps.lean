import Limux.TabTrack
import Limux.UiEdits

/-! Tab moves as edits of workspaces with their widgets, and from all operations together the
run rule: a property of a workspace with its widgets that new ones have and edits keep. -/
namespace Limux

variable {F : Type}



theorem DropsAt.le {tabs : List Tab} {d : ℕ} {insertion : TabInsertion}
    (h : DropsAt tabs d insertion) : d ≤ tabs.length := by
  cases insertion with
  | before anchor =>
    obtain ⟨tab,ht,-⟩ := h
    exact (List.getElem?_eq_some_iff.mp ht).1.le
  | append => exact Nat.le_of_eq h

theorem mem_movedList_index {l : List (Workspace F)} {si ti : ℕ} {sws' tws' x : Workspace F}
    (hsi : si < l.length) (hx : x ∈ movedList l si ti sws' tws') :
    x = sws' ∧ sws'.panes.keys ≠ [] ∨ x = tws' ∨ ∃ j, j ≠ si ∧ j ≠ ti ∧ l[j]? = some x := by
  unfold movedList at hx
  split_ifs at hx with hk
  · obtain ⟨j,hj,hx⟩ := List.mem_eraseIdx_iff_getElem?.mp hx
    rw [List.getElem?_modify] at hx
    by_cases hjt : ti = j
    · subst hjt
      obtain ⟨y,-,rfl⟩ := Option.map_eq_some_iff.mp hx
      exact .inr (.inl (by simp))
    · exact .inr (.inr ⟨j,hj,Ne.symm hjt,by simpa [hjt] using hx⟩)
  · obtain ⟨j,hx⟩ := List.mem_iff_getElem?.mp hx
    rw [replaceTwo,List.getElem?_modify,List.getElem?_modify] at hx
    by_cases hjt : ti = j
    · subst hjt
      obtain ⟨y,-,rfl⟩ := Option.map_eq_some_iff.mp hx
      exact .inr (.inl (by simp))
    · by_cases hjs : si = j
      · subst hjs
        refine .inl ⟨?_,hk⟩
        simpa [hjt,List.getElem?_eq_getElem hsi,eq_comm] using hx
      · exact .inr (.inr ⟨j,Ne.symm hjs,Ne.symm hjt,by simpa [hjt,hjs] using hx⟩)

namespace Ui

section Moves

variable {ui ui' : Ui F} {op : WindowOp F} {source target : PaneId} {x : TabDragIdentity}

theorem lookup_insertWidgets {id : WorkspaceId} (ww : WorkspaceWidgets) (j : WorkspaceId) :
    (ui.widgets.insert id ww).lookup j = if j = id then some ww else ui.widgets.lookup j :=
  HashMap.lookup_insert_ite _ _ _ _

theorem lookup_dropIfEmpty {ws : Workspace F} {rest : Pane}
    (hl : ws.panes.lookup source = some rest) (q : PaneId) :
    (AppWindow.dropIfEmpty ws source).panes.lookup q =
      if q = source then (if rest.tabs = [] then none else some rest)
      else ws.panes.lookup q := by
  rw [dropIfEmpty_of_lookup hl]
  by_cases he : rest.tabs = []
  · rw [if_pos he,if_pos he]
    exact HashMap.lookup_erase_ite _ _ _
  · rw [if_neg he,if_neg he]
    split_ifs with hq
    · rw [hq,hl]
    · rfl

theorem later_dropIfEmpty {ws : Workspace F} (h : WellFormed ws.splitTree) (p : PaneId) :
    ws.splitTree.Later (AppWindow.dropIfEmpty ws p).splitTree ∧
      WellFormed (AppWindow.dropIfEmpty ws p).splitTree := by
  unfold AppWindow.dropIfEmpty
  split_ifs
  · exact ⟨h.later_remove p,h.remove p⟩
  · exact ⟨.refl _,h⟩

variable [F64Ops F]

theorem expectSplit_of_node (ws : Workspace F) {before : Bool} {target new : PaneId}
    {o : Orientation} {node : NodeId}
    (hn : (ws.splitTree.splitAt before target new o).1 = some node) :
    AppWindow.expectSplit ws before target new o = some { ws with
      splitTree := (ws.splitTree.splitAt before target new o).2 } := by
  have hpair : ws.splitTree.splitAt before target new o =
      (some node,(ws.splitTree.splitAt before target new o).2) := Prod.ext hn rfl
  rw [AppWindow.expectSplit,hpair]

theorem edited_splitTabToPane (h : WindowInv ui.window) (hown : ui.Each (fun _ _ => True))
    {o : Orientation} {before : Bool} (hs : ui.splitTabToPane source x o before = some ui') :
    Edited ui op ui' := by
  unfold splitTabToPane at hs
  split at hs
  · cases hs
    exact edited_refl hown
  rename_i l hl
  have hf := splitTabLookups_found hl
  obtain ⟨pane,hd,hk,h2⟩ := hf.dragged
  have hi := current_spec hf.current
  obtain ⟨rest,htake,hr,-⟩ := takeTab_completes hd (sel_lt h hi hd.found)
  have hne : rest.tabs ≠ [] := by
    intro he
    have hlt := (List.getElem?_eq_some_iff.mp hd.nth).1
    have hlen : (pane.tabs.eraseIdx l.tabIdx).length = pane.tabs.length-1 := by
      simp [List.length_eraseIdx,hlt]
    rw [← hr,he,List.length_nil] at hlen
    omega
  obtain ⟨aw',haw,hs⟩ := Option.bind_eq_some_iff.mp hs
  obtain ⟨ws',hws',hs⟩ := Option.bind_eq_some_iff.mp hs
  obtain ⟨sourcePane,hsp,hs⟩ := Option.bind_eq_some_iff.mp hs
  obtain ⟨_,-,hs⟩ := Option.bind_eq_some_iff.mp hs
  obtain ⟨node,hnode,hs⟩ := Option.bind_eq_some_iff.mp hs
  obtain ⟨ww,hww,hs⟩ := Option.bind_eq_some_iff.mp hs
  obtain rfl := Option.some.inj (hf.widgets.symm.trans hww)
  obtain ⟨ww',hplace,rfl⟩ := Option.map_eq_some_iff.mp hs
  have hcond : ¬ (pane.tabs.length < 2 ∨ (l.ws.splitTree.nodeIdForPane source).isNone) := by
    rw [Option.isNone_iff_eq_none]
    rintro (hlt | hnone)
    · omega
    · have hn := hf.node
      rw [hnone] at hn
      cases hn
  -- the workspace of the result
  obtain ⟨w,hw⟩ : ∃ w, w = Workspace.setFocusedPane { ({ l.ws with
      panes := l.ws.panes.insert source rest } : Workspace F).addPane
        (paneFromTab ui.window.ids.pane l.tab) with
      splitTree := (l.ws.splitTree.splitAt before source ui.window.ids.pane o).2 }
        ui.window.ids.pane := ⟨_,rfl⟩
  have hexp := expectSplit_of_node (({ l.ws with
    panes := l.ws.panes.insert source rest } : Workspace F).addPane
      (paneFromTab ui.window.ids.pane l.tab)) hnode
  simp only [AppWindow.splitTabToPane,hf.current,hd.found,if_neg hcond,hk,Bool.not_true,
    Bool.false_eq_true,if_false,htake,Option.bind_some,hexp,AppWindow.putWs,Option.map_some,
    Option.some.injEq] at haw
  have hws : aw'.workspaces = ui.window.workspaces.modify l.index (fun _ => w) := by
    rw [← haw,hw]
    rfl
  have hlook : ∀ q, w.panes.lookup q = if q = ui.window.ids.pane then
      some (paneFromTab ui.window.ids.pane l.tab) else if q = source then some rest
      else l.ws.panes.lookup q := by
    intro q
    rw [hw]
    show ((l.ws.panes.insert source rest).insert ui.window.ids.pane _).lookup q = _
    rw [HashMap.lookup_insert_ite,HashMap.lookup_insert_ite]
  have hw' : ws' = w := by
    rw [hws,List.getElem?_modify_eq,hi] at hws'
    exact (Option.some.inj hws').symm
  have hfresh : source ≠ ui.window.ids.pane := fun he =>
    h.pane_fresh hi (le_of_eq he.symm) (WsShape.mem_of_lookup hd.found)
  obtain rfl : rest = sourcePane := by
    rw [hw',hlook,if_neg hfresh,if_pos rfl] at hsp
    exact Option.some.inj hsp
  obtain ⟨moving,hmoving,hpanel⟩ := hf.child
  have hid : w.id = l.ws.id := by rw [hw]; rfl
  have htree : (l.ws.splitTree.splitAt before source ui.window.ids.pane o).2.Resized
      w.splitTree := by
    rw [hw]
    exact .setFocused _ _
  exact edited_at h hown hi hf.widgets hws hid (fun j => lookup_insertWidgets ww' j)
    (.splitTab rfl ⟨⟨pane,l.tabIdx,hd.found,hd.nth,hr⟩,l.pw,hf.paneWidget,hmoving⟩ hne hpanel
      hf.paneWidget rfl hlook hnode htree hf.nested hplace)

theorem edited_splitTabToPaneTarget (h : WindowInv ui.window) (hown : ui.Each (fun _ _ => True))
    {o : Orientation} {before : Bool}
    (hs : ui.splitTabToPaneTarget source x target o before = some ui') : Edited ui op ui' := by
  unfold splitTabToPaneTarget at hs
  split at hs
  · cases hs
    exact edited_refl hown
  rename_i l panel hl
  obtain ⟨l',hl',hl⟩ := Option.bind_eq_some_iff.mp hl
  obtain ⟨panel',hpanel,hl⟩ := Option.bind_eq_some_iff.mp hl
  obtain ⟨_,_,hl⟩ := Option.bind_eq_some_iff.mp hl
  cases hl
  have hf := moveTabLookups_found hl'
  obtain ⟨pane,hd,hk⟩ := hf.dragged
  have hi := current_spec hf.current
  obtain ⟨rest,htake,hr,-⟩ := takeTab_completes hd (sel_lt h hi hd.found)
  have hfresh : source ≠ ui.window.ids.pane := fun he =>
    h.pane_fresh hi (le_of_eq he.symm) (WsShape.mem_of_lookup hd.found)
  -- the workspace before the split
  obtain ⟨mid,hmid⟩ : ∃ mid, mid = ({ l.ws with panes := l.ws.panes.insert source rest } :
      Workspace F).addPane (paneFromTab ui.window.ids.pane l.tab) := ⟨_,rfl⟩
  have hmidl : ∀ q, mid.panes.lookup q = if q = ui.window.ids.pane then
      some (paneFromTab ui.window.ids.pane l.tab) else if q = source then some rest
      else l.ws.panes.lookup q := by
    intro q
    rw [hmid]
    show ((l.ws.panes.insert source rest).insert ui.window.ids.pane _).lookup q = _
    rw [HashMap.lookup_insert_ite,HashMap.lookup_insert_ite]
  have hms : mid.panes.lookup source = some rest := by rw [hmidl,if_neg hfresh,if_pos rfl]
  simp only [htake,Option.bind_some,← hmid] at hs
  obtain ⟨sourcePane,hsp,hs⟩ := Option.bind_eq_some_iff.mp hs
  obtain rfl := Option.some.inj (hms.symm.trans hsp)
  obtain ⟨ww,hww,hs⟩ := Option.bind_eq_some_iff.mp hs
  obtain rfl := Option.some.inj (hf.widgets.symm.trans hww)
  obtain ⟨_,-,hs⟩ := Option.bind_eq_some_iff.mp hs
  obtain ⟨aw',haw,hs⟩ := Option.bind_eq_some_iff.mp hs
  obtain ⟨ws',hws',hs⟩ := Option.bind_eq_some_iff.mp hs
  obtain ⟨_,-,hs⟩ := Option.bind_eq_some_iff.mp hs
  obtain ⟨snapshot,hsnap,rfl⟩ := Option.map_eq_some_iff.mp hs
  simp only [AppWindow.splitTabToPaneTarget,hf.current,
    if_neg (not_refused hf.ne hf.sourceNode hf.targetNode),hd.found,hk,Bool.not_true,
    Bool.false_eq_true,if_false,htake,Option.bind_some,AppWindow.putWs,← hmid] at haw
  obtain ⟨w,hw,rfl⟩ := Option.map_eq_some_iff.mp haw
  obtain ⟨v,hv,rfl⟩ := Option.map_eq_some_iff.mp hw
  have hw' : ws' = v.setFocusedPane ui.window.ids.pane := by
    rw [AppWindow.modifyWs,List.getElem?_modify_eq] at hws'
    simp only [hi,Option.map_eq_map,Option.map_some,Option.some.injEq] at hws'
    exact hws'.symm
  have hvp : v.panes = (AppWindow.dropIfEmpty mid source).panes ∧ v.id = l.ws.id := by
    unfold AppWindow.expectSplit at hv
    split at hv
    · cases hv
    · cases hv
      refine ⟨rfl,?_⟩
      show (AppWindow.dropIfEmpty mid source).id = _
      rw [dropIfEmpty_of_lookup hms,hmid]
      split <;> rfl
  have hlook : ∀ q, (v.setFocusedPane ui.window.ids.pane).panes.lookup q =
      if q = ui.window.ids.pane then some (paneFromTab ui.window.ids.pane l.tab)
      else if q = source then (if rest.tabs = [] then none else some rest)
      else l.ws.panes.lookup q := by
    intro q
    show v.panes.lookup q = _
    rw [hvp.1,lookup_dropIfEmpty hms]
    by_cases hq : q = source
    · have hqn : q ≠ ui.window.ids.pane := by rw [hq]; exact hfresh
      rw [if_pos hq,if_neg hqn,if_pos hq]
    · rw [if_neg hq,hmidl,if_neg hq,if_neg hq]
  have hws := h.ws l.ws (List.mem_of_getElem? hi)
  have htree : l.ws.splitTree.Later (v.setFocusedPane ui.window.ids.pane).splitTree := by
    have hmt : mid.splitTree = l.ws.splitTree := by rw [hmid]; rfl
    obtain ⟨hlater,hwf⟩ := later_dropIfEmpty (hmt ▸ hws.tree : WellFormed mid.splitTree) source
    have hsplit := hwf.later_splitAt before target ui.window.ids.pane o
    have hvt : v.splitTree = ((AppWindow.dropIfEmpty mid source).splitTree.splitAt before target
        ui.window.ids.pane o).2 := by
      unfold AppWindow.expectSplit at hv
      split at hv
      · cases hv
      · rename_i he
        cases hv
        rw [he]
    rw [← hmt]
    refine hlater.trans (hsplit.trans ?_)
    rw [← hvt]
    exact .of_sameShape (.refl _) rfl
  have hother : ∃ q ∈ l.ws.panes, q ≠ source := ⟨target,
    (hws.keys target).mpr ((hws.tree.nodeIdForPane_isSome target).mp hf.targetNode),hf.ne.symm⟩
  rw [hw'] at hsnap
  refine edited_at h hown hi hf.widgets rfl hvp.2 (fun j => lookup_insertWidgets _ j) ?_
  rw [← hsnap]
  exact .splitTarget rfl ⟨⟨pane,l.tabIdx,hd.found,hd.nth,hr⟩,l.source,hf.paneWidget,hf.child⟩
    hother hpanel rfl rfl hlook htree

theorem edited_moveTabToPane (h : WindowInv ui.window) (hown : ui.Each (fun _ _ => True))
    {insertion : TabInsertion} (hs : ui.moveTabToPane source x target insertion = some ui') :
    Edited ui op ui' := by
  unfold moveTabToPane at hs
  split at hs
  · cases hs
    exact edited_refl hown
  rename_i l d hl
  obtain ⟨l',hl',hl⟩ := Option.bind_eq_some_iff.mp hl
  obtain ⟨tpane,htp,hl⟩ := Option.bind_eq_some_iff.mp hl
  obtain ⟨d',hins,hl⟩ := Option.bind_eq_some_iff.mp hl
  cases hl
  have hf := moveTabLookups_found hl'
  obtain ⟨pane,hd,hk⟩ := hf.dragged
  have hi := current_spec hf.current
  have hdle := (dropsAt_of_insertionIndex hins).2
  obtain ⟨rest,htake,hr,-⟩ := takeTab_completes hd (sel_lt h hi hd.found)
  have htp' : ({ l.ws with panes := l.ws.panes.insert source rest } : Workspace F).panes.lookup
      target = some tpane := by
    simp only [HashMap.lookup_insert_ite,if_neg (Ne.symm hf.ne),htp]
  -- the workspace with the tab in both places
  obtain ⟨put,hput⟩ : ∃ put : Workspace F, put = { l.ws with
      panes := (l.ws.panes.insert source rest).insert target (tpane.withTab d l.tab) } := ⟨_,rfl⟩
  have hputl : ∀ q, put.panes.lookup q = if q = target then some (tpane.withTab d l.tab)
      else if q = source then some rest else l.ws.panes.lookup q := by
    intro q
    rw [hput,HashMap.lookup_insert_ite,HashMap.lookup_insert_ite]
  have hps : put.panes.lookup source = some rest := by rw [hputl,if_neg hf.ne,if_pos rfl]
  simp only [htake,Option.bind_some,putTab_completes htp' hdle,← hput,hps] at hs
  obtain ⟨aw',haw,hs⟩ := Option.bind_eq_some_iff.mp hs
  obtain ⟨ws',hws',hs⟩ := Option.bind_eq_some_iff.mp hs
  simp only [AppWindow.moveTabToPane,hf.current,
    if_neg (not_refused hf.ne hf.sourceNode hf.targetNode),hd.found,htp,hk,hins,Bool.not_true,
    Bool.false_eq_true,if_false,htake,Option.bind_some,AppWindow.putWs,
    putTab_completes htp' hdle,Option.map_some,Option.some.injEq,← hput] at haw
  subst haw
  have hw' : ws' = (AppWindow.dropIfEmpty put source).setFocusedPane target := by
    rw [AppWindow.modifyWs,List.getElem?_modify_eq] at hws'
    simp only [hi,Option.map_eq_map,Option.map_some,Option.some.injEq] at hws'
    exact hws'.symm
  have hid : ((AppWindow.dropIfEmpty put source).setFocusedPane target).id = l.ws.id := by
    show (AppWindow.dropIfEmpty put source).id = _
    rw [dropIfEmpty_of_lookup hps,hput]
    split <;> rfl
  have hlook : ∀ q, ((AppWindow.dropIfEmpty put source).setFocusedPane target).panes.lookup q =
      if q = source then (if rest.tabs = [] then none else some rest)
      else put.panes.lookup q := lookup_dropIfEmpty hps
  have htaken : Taken l.ws l.ww source l.tab rest l.moving :=
    ⟨⟨pane,l.tabIdx,hd.found,hd.nth,hr⟩,l.source,hf.paneWidget,hf.child⟩
  simp only [hf.widgets,Option.bind_some] at hs
  split_ifs at hs with he
  · cases hs
    refine edited_at h hown hi hf.widgets rfl hid (fun j => lookup_insertWidgets _ j) ?_
    rw [← hw']
    refine .moveLast htaken hf.ne htp hdle (fun q => ?_) ?_
    · rw [hw',hlook,if_pos he]
      by_cases hq : q = source
      · rw [if_pos hq,if_pos hq]
      · rw [if_neg hq,if_neg hq,hputl,if_neg hq]
    · have hpt : put.splitTree = l.ws.splitTree := by rw [hput]
      have hwf := (h.ws l.ws (List.mem_of_getElem? hi)).tree
      rw [hw',← hpt]
      exact (later_dropIfEmpty (hpt ▸ hwf) source).1.trans (.of_sameShape (.refl _) rfl)
  · obtain ⟨_,-,rfl⟩ := Option.map_eq_some_iff.mp hs
    have htree : l.ws.splitTree.Resized
        ((AppWindow.dropIfEmpty put source).setFocusedPane target).splitTree := by
      show SplitTree.Resized _ ((AppWindow.dropIfEmpty put source).splitTree.setFocused target)
      rw [dropIfEmpty_of_lookup hps,if_neg he,hput]
      exact .setFocused _ _
    refine edited_at h hown hi hf.widgets rfl hid (fun j => lookup_insertWidgets _ j)
      (.moveTab htaken he hf.ne htp hdle (fun q => ?_) htree)
    rw [hlook,if_neg he,hputl]
    by_cases hq : q = source
    · have hqt : q ≠ target := by rw [hq]; exact hf.ne
      rw [if_pos hq,if_neg hqt,if_pos hq]
    · rw [if_neg hq]

theorem edited_reorderTabInPane (h : WindowInv ui.window) (hown : ui.Each (fun _ _ => True))
    {insertion : TabInsertion} (hs : ui.reorderTabInPane source x insertion = some ui') :
    Edited ui op ui' := by
  have hwid : ui'.widgets = ui.widgets := by
    unfold reorderTabInPane at hs
    split at hs
    · cases hs
      rfl
    · obtain ⟨aw',-,rfl⟩ := Option.map_eq_some_iff.mp hs
      rfl
  obtain ⟨ui'',hs',hdone⟩ := reorderTabInPane_atomic ui insertion true
  obtain rfl := Option.some.inj (hs.symm.trans hs')
  rcases hdone with rfl | hdone
  · exact edited_refl hown
  obtain ⟨aw',widgets⟩ := ui'
  obtain rfl : widgets = ui.widgets := hwid
  refine Each.of_alike hown ?_
  cases hdone with
  | reorder hc hd hdrop hre =>
    have hi := current_spec hc
    have hlt := (List.getElem?_eq_some_iff.mp hd.nth).1
    have hlen := List.length_eraseIdx_of_lt hlt
    refine .modifyWs rfl (fun ws' hi' => ?_)
    obtain rfl := Option.some.inj (hi.symm.trans hi')
    refine hre.alike hd.found hd.nth ?_
    rcases hdrop with ⟨rfl,-⟩ | hdrop
    · omega
    · exact hdrop.le

theorem edited_two (h : WindowInv ui.window) (hown : ui.Each (fun _ _ => True)) {si ti : ℕ}
    {sws tws sws' tws' : Workspace F} {sww tww sww' tww' : WorkspaceWidgets}
    (hsi : ui.window.workspaces[si]? = some sws) (hti : ui.window.workspaces[ti]? = some tws)
    (hsww : ui.widgets.lookup sws.id = some sww)
    (htww : ui.widgets.lookup tws.id = some tww)
    (hws : ui'.window.workspaces = movedList ui.window.workspaces si ti sws' tws')
    (hsid : sws'.id = sws.id) (htid : tws'.id = tws.id)
    (hwt : ui'.widgets.lookup tws.id = some tww')
    (hws' : sws'.panes.keys ≠ [] → ui'.widgets.lookup sws.id = some sww')
    (hwo : ∀ id, id ≠ sws.id → id ≠ tws.id → ui'.widgets.lookup id = ui.widgets.lookup id)
    (hs : Edit ui op sws sww sws' sww') (ht : Edit ui op tws tww tws' tww') :
    Edited ui op ui' := by
  intro y hy
  rw [hws] at hy
  have hlt := (List.getElem?_eq_some_iff.mp hsi).1
  rcases mem_movedList_index hlt hy with ⟨rfl,hk⟩ | rfl | ⟨j,hjs,hjt,hj⟩
  · exact ⟨sww',by rw [hsid,hws' hk],.inr ⟨sws,List.mem_of_getElem? hsi,sww,hsww,hsid,hs⟩⟩
  · exact ⟨tww',by rw [htid,hwt],.inr ⟨tws,List.mem_of_getElem? hti,tww,htww,htid,ht⟩⟩
  · have hm := List.mem_of_getElem? hj
    obtain ⟨v,hv,-⟩ := hown y hm
    refine ⟨v,?_,.inr ⟨y,hm,v,hv,rfl,.keep (.refl y)⟩⟩
    rw [hwo y.id (fun he => hjs (index_eq h hsi hj he)) (fun he => hjt (index_eq h hti hj he)),hv]

theorem edited_moveTabToWorkspace (h : WindowInv ui.window) (hown : ui.Each (fun _ _ => True))
    {targetId : WorkspaceId} (hs : ui.moveTabToWorkspace source x targetId = some ui') :
    Edited ui op ui' := by
  unfold moveTabToWorkspace at hs
  split at hs
  · cases hs
    exact edited_refl hown
  rename_i l hl
  have hf := workspaceMoveLookups_found hl
  obtain ⟨pane,hfs,hd,hk⟩ := hf.dragged
  obtain ⟨u,hft⟩ := hf.found
  have hsi := (findWs_spec hfs).1
  obtain ⟨hti,htid⟩ := findById_spec hft
  subst htid
  obtain ⟨tpane,htp⟩ := dropTarget_lookup hf.drop
  obtain ⟨rest,hrem,hr,-⟩ := removeTab_lost hd.nth (sel_lt h hsi hd.found)
  obtain ⟨page,-,haw⟩ := moveTabToWorkspace_result h hfs hft hf.ne hf.drop hf.sourceNode
    hf.targetNode hk hrem htp
  have htake : AppWindow.takeTab l.sourceWs source l.tabIdx =
      some (l.tab,{ l.sourceWs with panes := l.sourceWs.panes.insert source rest }) := by
    rw [AppWindow.takeTab,hd.found,Option.bind_some,hrem,Option.map_some]
  obtain ⟨sww,spw,hsww,hspw,hmoving⟩ := hf.sourceWidgets
  obtain ⟨tww,tpw,htww,-,-⟩ := hf.targetWidgets
  have hids : l.targetWs.id ≠ l.sourceWs.id := fun he => hf.ne (index_eq h hti hsi he.symm)
  -- the source without the tab
  obtain ⟨taken,htakes⟩ : ∃ taken : Workspace F,
      taken = { l.sourceWs with panes := l.sourceWs.panes.insert source rest } := ⟨_,rfl⟩
  have hls : taken.panes.lookup source = some rest := by
    rw [htakes,HashMap.lookup_insert_ite,if_pos rfl]
  have hlook : ∀ q, (AppWindow.dropIfEmpty taken source).panes.lookup q =
      if q = source then (if rest.tabs = [] then none else some rest)
      else l.sourceWs.panes.lookup q := by
    intro q
    rw [lookup_dropIfEmpty hls]
    split_ifs with hq
    · rfl
    · rfl
    · rw [htakes,HashMap.lookup_insert_ite,if_neg hq]
  have hsid : (AppWindow.dropIfEmpty taken source).id = l.sourceWs.id := by
    rw [dropIfEmpty_of_lookup hls,htakes]
    split <;> rfl
  have htaken : Taken l.sourceWs sww source l.tab rest l.moving :=
    ⟨⟨pane,l.tabIdx,hd.found,hd.nth,hr⟩,spw,hspw,hmoving⟩
  simp only [htake,Option.bind_some,← htakes,hls,haw] at hs
  obtain ⟨widgets,hw,hs⟩ := Option.bind_eq_some_iff.mp hs
  obtain ⟨_,-,hs⟩ := Option.bind_eq_some_iff.mp hs
  obtain ⟨_,-,rfl⟩ := Option.map_eq_some_iff.mp hs
  -- the target and its widgets
  have hrec : ∀ {w : Workspace F}, w = Workspace.setFocusedPane { l.targetWs with
      panes := l.targetWs.panes.insert l.target (tpane.withTab tpane.tabs.length l.tab) } l.target →
      Edit ui op l.targetWs tww w (moveChild tww l.target l.moving l.tab.panel.stackChildName) := by
    rintro w rfl
    exact .receive (List.mem_of_getElem? hsi) hsww htaken htp le_rfl
      (fun q => HashMap.lookup_insert_ite _ _ _ _) (.setFocused _ _)
  by_cases he : rest.tabs = []
  · rw [if_pos he] at hw
    have hdrop := dropIfEmpty_of_lookup hls
    rw [if_pos he] at hdrop
    have hgive : Edit ui op l.sourceWs sww (AppWindow.dropIfEmpty taken source)
        (((takeChild sww source l.tab).removePane source).rebuild
          (cloneSplitTreeStructure (taken.splitTree.remove source).2)) := by
      have htree : (AppWindow.dropIfEmpty taken source).splitTree =
          (taken.splitTree.remove source).2 := by rw [hdrop]
      rw [← htree]
      refine .giveLast htaken (fun q => ?_) ?_
      · rw [hlook,if_pos he]
      · have htt : taken.splitTree = l.sourceWs.splitTree := by rw [htakes]
        rw [htree,htt]
        exact (h.ws l.sourceWs (List.mem_of_getElem? hsi)).tree.later_remove source
    have hkeys : (AppWindow.dropIfEmpty taken source).panes.keys =
        (taken.panes.erase source).keys := by rw [hdrop]
    refine edited_two h hown hsi hti hsww htww rfl hsid rfl ?_ ?_ ?_ hgive (hrec rfl)
    all_goals split_ifs at hw with hk <;> cases hw
    · simp only [HashMap.lookup_erase_ite,HashMap.lookup_modify,if_neg hids,if_true,htww,
        Option.map_some]
    · simp only [HashMap.lookup_modify,if_neg hids,if_true,htww,Option.map_some]
    · intro hne
      exact absurd (hkeys.trans hk) hne
    · intro _
      simp only [HashMap.lookup_modify,if_neg (Ne.symm hids),if_true,hsww,Option.map_some]
      rfl
    · intro id h1 h2
      simp only [HashMap.lookup_erase_ite,HashMap.lookup_modify,if_neg h1,if_neg h2]
    · intro id h1 h2
      simp only [HashMap.lookup_modify,if_neg h1,if_neg h2]
  · rw [if_neg he] at hw
    obtain ⟨_,-,hw⟩ := Option.bind_eq_some_iff.mp hw
    obtain ⟨sww₁,hsww₁,hw⟩ := Option.bind_eq_some_iff.mp hw
    obtain ⟨_,-,rfl⟩ := Option.map_eq_some_iff.mp hw
    have hsww' : sww₁ = takeChild sww source l.tab := by
      simp only [HashMap.lookup_modify,if_neg (Ne.symm hids),if_true,hsww,Option.map_some,
        Option.some.injEq] at hsww₁
      exact hsww₁.symm
    have htree : l.sourceWs.splitTree.Resized (AppWindow.dropIfEmpty taken source).splitTree := by
      rw [dropIfEmpty_of_lookup hls,if_neg he,htakes]
      exact .refl _
    have hgive : Edit ui op l.sourceWs sww (AppWindow.dropIfEmpty taken source)
        (sww₁.showActive source rest) := by
      rw [hsww']
      refine .give htaken he (fun q => ?_) htree
      rw [hlook,if_neg he]
    refine edited_two h hown hsi hti hsww htww rfl hsid rfl ?_ (fun _ => ?_)
      (fun id h1 h2 => ?_) hgive (hrec rfl)
    · simp only [HashMap.lookup_insert_ite,HashMap.lookup_modify,if_neg hids,if_true,htww,
        Option.map_some]
    · simp only [HashMap.lookup_insert_ite,if_true]
    · simp only [HashMap.lookup_insert_ite,HashMap.lookup_modify,if_neg h1,if_neg h2]

end Moves
end Ui


namespace Ui

section Runs

variable [F64Ops F] {ui ui' : Ui F} {op : WindowOp F}

theorem edited_alike (hown : ui.Each (fun _ _ => True)) {f : AppWindow F}
    (hs : some (⟨f,ui.widgets⟩ : Ui F) = some ui') (h : AlikeAll ui.window f) :
    Edited ui op ui' := by
  cases hs
  exact Each.of_alike hown h

/-- What a step does to each workspace and its widgets. -/
theorem step_edited (h : WindowInv ui.window) (hown : ui.Each (fun _ _ => True))
    (hop : op.Targeted ui.window) (hs : ui.step op = some ui') : Edited ui op ui' := by
  cases op with
  | newWorkspace =>
    cases hs
    exact edited_append h hown rfl rfl rfl (.fresh rfl rfl)
  | newRemoteWorkspace c port id token =>
    cases hs
    exact edited_append h hown rfl rfl rfl (.fresh rfl rfl)
  | restoreWorkspaceFromLayout ord snap port id token =>
    cases hs
    obtain ⟨t,ws,-,hl,hws⟩ := restoredWorkspace_spec ord ui.window snap port id token
    have hp : (AppWindow.restoredWorkspace ord ui.window snap port id token).1.panes =
        ws.panes := by rw [hws]
    have ht : (AppWindow.restoredWorkspace ord ui.window snap port id token).1.splitTree = t := by
      rw [hws]
    refine edited_append h hown rfl (restoredWorkspace_head ord ui.window snap port id token).1 rfl
      (.restored rfl hl ?_ hp ht)
    exact buildLayoutWidget_congr ord snap.layout (by rfl) .new
  | removeWorkspaceAt i =>
    obtain ⟨ws,hi,hs⟩ := Option.bind_eq_some_iff.mp hs
    obtain ⟨aw',haw,rfl⟩ := Option.map_eq_some_iff.mp hs
    exact edited_removeWorkspaceAt h hown hi haw
  | closeSurface s => exact edited_closeSurface h hown hs
  | closeBrowser b => exact edited_closeBrowser h hown hs
  | newPaneTab => cases hs; exact edited_newPaneTab h hown
  | splitFocused o => cases hs; exact edited_splitFocused h hown o
  | splitFocusedBrowser o url => exact edited_splitFocusedBrowser h hown hs
  | splitBrowserInWorkspace i p o url =>
    obtain ⟨ws,hi,hp⟩ := hop
    exact edited_splitBrowserInWorkspace h hown hi hp hs
  | openBrowserPopup registered opener url => exact edited_openBrowserPopup h hown hs
  | movePane source target before o =>
    cases hs; exact edited_movePane h hown source target before o
  | splitTabToPane source x o before widgets => exact edited_splitTabToPane h hown hs
  | splitTabToPaneTarget source x target o before widgets =>
    exact edited_splitTabToPaneTarget h hown hs
  | moveTabToPane source x target insertion widgets => exact edited_moveTabToPane h hown hs
  | reorderTabInPane p x insertion widgets => exact edited_reorderTabInPane h hown hs
  | moveTabToWorkspace source x targetWs widgets => exact edited_moveTabToWorkspace h hown hs
  | selectPaneTabGeneric p idx => cases hs; exact edited_selectPaneTabGeneric h hown p idx
  | cyclePaneTab forward => cases hs; exact edited_cyclePaneTab h hown forward
  | moveWorkspace source target before =>
    obtain ⟨aw',haw,rfl⟩ := Option.map_eq_some_iff.mp hs
    exact Each.of_alike hown (.moveWorkspace haw)
  | setFocusedSurface s =>
    refine edited_alike hown hs ?_
    unfold AppWindow.setFocusedSurface
    split
    · exact .setPaneActive _ _ _
    · exact .refl _
  | setFocusedBrowser b =>
    refine edited_alike hown hs ?_
    unfold AppWindow.setFocusedBrowser
    split
    · exact .setPaneActive _ _ _
    · exact .refl _
  | focusPaneById p => exact edited_alike hown hs (.focusPaneById _ p)
  | navigateSplit forward =>
    exact edited_alike hown hs (.currentTree (fun t => .navigate t forward))
  | navigateDirection d =>
    exact edited_alike hown hs (.currentTree (fun t => .navigateDirectional t d))
  | equalizeSplits =>
    exact edited_alike hown hs (.currentTree (fun t => ⟨SplitTree.sameShape_equalize t,rfl,rfl⟩))
  | syncRatio id node pos total =>
    refine edited_alike hown hs ?_
    unfold AppWindow.syncRatio
    split
    · exact .refl _
    · exact .modifyById id (fun ws => .of_panes rfl rfl (.setRatio _ node _))
  | onBrowserTitleChanged b title =>
    refine edited_alike hown hs ?_
    unfold AppWindow.onBrowserTitleChanged
    split
    · exact .refl _
    · exact .report_title _ _ _ (fun _ => rfl)
  | setSurfaceTitle home s title =>
    refine edited_alike hown hs ?_
    unfold AppWindow.setSurfaceTitle
    split
    · exact .refl _
    · exact .report_title _ _ _ (panel_reportTitle home title)
  | setSurfaceWorkingDirectory home s dir =>
    refine edited_alike hown hs ?_
    unfold AppWindow.setSurfaceWorkingDirectory
    split
    · exact .refl _
    · exact .report _ _ _ (panel_reportDirectory home dir)
  | renameTab p idx name => exact edited_alike hown hs (.renameTab _ p idx name)
  | toggleWorkspacePinned id => exact edited_alike hown hs (.toggleWorkspacePinned _ id)
  | disconnectRemote id clear => exact edited_alike hown hs (.disconnectRemote _ id clear)
  | showPage page => exact edited_alike hown hs (.of_subset (List.Subset.refl _))
  | moveSidebar visible lastWidth position =>
    exact edited_alike hown hs (.of_subset (List.Subset.refl _))
  | setWorkspaceStatus id e | clearWorkspaceStatus id key | addWorkspaceLog id e
  | clearWorkspaceLog id | setWorkspaceProgress id value label | clearWorkspaceProgress id
  | renameWorkspace id name | setWorkspaceColor id c | updateRemoteState id st
  | updateProxyEndpoint id e =>
    exact edited_alike hown hs (.modifyById id (fun ws => .of_panes rfl rfl (.refl _)))

end Runs

/-- A property of the workspaces with their widgets that new ones have and edits keep. -/
theorem Reach.each [F64Ops F] {ui : Ui F} {ok : Ui F → WindowOp F → Prop} (h : Reach ok ui)
    (hok : ∀ ui op, ok ui op → op.Targeted ui.window) {P : Workspace F → WorkspaceWidgets → Prop}
    (hmade : ∀ ui op ws' ww', ok ui op → WindowInv ui.window → WsInv ws' → Made ui op ws' ww' →
      P ws' ww')
    (hedit : ∀ ui op ws ww ws' ww', ok ui op → WindowInv ui.window → ui.Each P →
      ws ∈ ui.window.workspaces → WsInv ws' → P ws ww → Edit ui op ws ww ws' ww' → P ws' ww') :
    ui.Each P := by
  induction h with
  | empty he => exact fun ws hws => by rw [he] at hws; cases hws
  | @step ui ui' op hr ho hs ih =>
    have hinv := (hr.window hok).windowInv
    have hinv' := (Reach.step op hr ho hs).window hok
    intro ws' hws'
    obtain ⟨ww',hw',hcase⟩ := step_edited hinv (fun ws hws =>
      (ih ws hws).imp (fun _ hw => ⟨hw.1,trivial⟩)) (hok ui op ho) hs ws' hws'
    have hwsi := hinv'.windowInv.ws ws' hws'
    refine ⟨ww',hw',?_⟩
    rcases hcase with hm | ⟨ws,hws,ww,hw,-,he⟩
    · exact hmade ui op ws' ww' ho hinv hwsi hm
    · obtain ⟨v,hv,hp⟩ := ih ws hws
      obtain rfl := Option.some.inj (hw.symm.trans hv)
      exact hedit ui op ws ww ws' ww' ho hinv ih hws hwsi hp he

end Ui

end Limux