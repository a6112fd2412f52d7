import Limux.WindowRun

/-! What a tab move does once it is under way: the source pane has lost the tab, or is gone
with its last one, and the tab is in its new place with all its data. -/
namespace Limux

variable {F : Type}

/-- A pane that has lost its tab `k`: gone if that was the only one, else with the others in
order and one of them selected, the same as before unless that was the tab. -/
def Pane.Lost (pane : Pane) (k : ℕ) : Option Pane → Prop
  | none => pane.tabs.eraseIdx k = []
  | some rest => rest.id = pane.id ∧ rest.tabs = pane.tabs.eraseIdx k ∧
      rest.selectedTab < rest.tabs.length ∧
      (pane.selectedTab ≠ k → rest.tabs[rest.selectedTab]? = pane.tabs[pane.selectedTab]?)

/-- The tab `k` of the pane `source` is the dragged one. -/
structure Dragged (ws : Workspace F) (source : PaneId) (x : TabDragIdentity) (pane : Pane) (k : ℕ)
    (tab : Tab) : Prop where
  found : ws.panes.lookup source = some pane
  nth : pane.tabs[k]? = some tab
  identity : tab.identity = x

def treeLeft (ws : Workspace F) (source : PaneId) : Option Pane → SplitTree F
  | none => (ws.splitTree.remove source).2
  | some _ => ws.splitTree

/-- The workspace without the tab. -/
structure Left (ws : Workspace F) (source : PaneId) (pane : Pane) (k : ℕ)
    (ws' : Workspace F) : Prop where
  rest : ws' = { ws with panes := ws'.panes, splitTree := ws'.splitTree }
  lost : pane.Lost k (ws'.panes.lookup source)
  others : ∀ q, q ≠ source → ws'.panes.lookup q = ws.panes.lookup q
  tree : ws'.splitTree = treeLeft ws source (ws'.panes.lookup source)

/-- The pane with the tab put in at `d` and selected. -/
def Pane.withTab (pane : Pane) (d : ℕ) (tab : Tab) : Pane :=
  { pane with tabs := pane.tabs.insertIdx d tab, selectedTab := d }

/-- The tab is at `d` in the pane `target`, selected there, and the pane has the focus. -/
structure Arrived (ws : Workspace F) (target : PaneId) (d : ℕ) (tab : Tab)
    (ws' : Workspace F) : Prop where
  rest : ws' = { ws with panes := ws'.panes, splitTree := ws'.splitTree }
  put : ∃ pane, ws.panes.lookup target = some pane ∧ d ≤ pane.tabs.length ∧
    ws'.panes.lookup target = some (pane.withTab d tab)
  others : ∀ q, q ≠ target → ws'.panes.lookup q = ws.panes.lookup q
  tree : ws'.splitTree = ws.splitTree.setFocused target

/-- The tab is alone in a new pane on one side of `target`, and that pane has the focus. -/
structure SplitOff (ws : Workspace F) (target new : PaneId) (tab : Tab) (o : Orientation)
    (before : Bool) (ws' : Workspace F) : Prop where
  rest : ws' = { ws with panes := ws'.panes, splitTree := ws'.splitTree }
  fresh : ws.panes.lookup new = none
  single : ws'.panes.lookup new = some ⟨new,[tab],0⟩
  others : ∀ q, q ≠ new → ws'.panes.lookup q = ws.panes.lookup q
  focused : ws'.focusedPane = some new
  order : ∃ a b, ws.splitTree.panes = a ++ target :: b ∧
    ws'.splitTree.panes = a ++ (if before then [new,target] else [target,new]) ++ b
  beside : ∃ n r f s, ws'.splitTree.nodes.lookup n = some (.split o r f s) ∧
    ws'.splitTree.nodes.lookup f = some (.leaf (if before then new else target)) ∧
    ws'.splitTree.nodes.lookup s = some (.leaf (if before then target else new))

/-- Index `d` is where a tab is inserted: before the anchor, or at the end. -/
def DropsAt (tabs : List Tab) (d : ℕ) : TabInsertion → Prop
  | .before anchor => ∃ tab, tabs[d]? = some tab ∧ tab.identity = anchor
  | .append => d = tabs.length

/-- The tab is at its new place among the other tabs, and the selected tab is still the same. -/
structure Reordered (ws : Workspace F) (p : PaneId) (pane : Pane) (k d : ℕ) (tab : Tab)
    (ws' : Workspace F) : Prop where
  rest : ws' = { ws with panes := ws'.panes }
  moved : ∃ pane', ws'.panes.lookup p = some pane' ∧ pane'.id = pane.id ∧
    pane'.tabs = (pane.tabs.eraseIdx k).insertIdx d tab ∧
    pane'.tabs[pane'.selectedTab]? = pane.tabs[pane.selectedTab]?
  others : ∀ q, q ≠ p → ws'.panes.lookup q = ws.panes.lookup q

/-- The list of workspaces after a move between two: the source goes with its last pane. -/
def movedList (l : List (Workspace F)) (si ti : ℕ) (sws' tws' : Workspace F) :
    List (Workspace F) :=
  if sws'.panes.keys = [] then (l.modify ti (fun _ => tws')).eraseIdx si
  else replaceTwo l si ti sws' tws'

/-- A tab move has been carried out. The argument `widgets` does not matter. -/
inductive Completed (aw : AppWindow F) : WindowOp F → AppWindow F → Prop
  | split {i k : ℕ} {ws mid ws' : Workspace F} {source : PaneId} {x : TabDragIdentity}
      {pane : Pane} {tab : Tab} {o : Orientation} {before widgets : Bool} :
      aw.current = some (i,ws) → Dragged ws source x pane k tab → Left ws source pane k mid →
      SplitOff mid source aw.ids.pane tab o before ws' →
      Completed aw (.splitTabToPane source x o before widgets)
        ({ aw with ids := { aw.ids with pane := aw.ids.pane+1 } }.modifyWs i (fun _ => ws'))
  | splitTarget {i k : ℕ} {ws mid ws' : Workspace F} {source target : PaneId}
      {x : TabDragIdentity} {pane : Pane} {tab : Tab} {o : Orientation} {before widgets : Bool} :
      aw.current = some (i,ws) → Dragged ws source x pane k tab → source ≠ target →
      Left ws source pane k mid → SplitOff mid target aw.ids.pane tab o before ws' →
      Completed aw (.splitTabToPaneTarget source x target o before widgets)
        ({ aw with ids := { aw.ids with pane := aw.ids.pane+1 } }.modifyWs i (fun _ => ws'))
  | move {i k d : ℕ} {ws mid ws' : Workspace F} {source target : PaneId} {x : TabDragIdentity}
      {pane tpane : Pane} {tab : Tab} {insertion : TabInsertion} {widgets : Bool} :
      aw.current = some (i,ws) → Dragged ws source x pane k tab → source ≠ target →
      ws.panes.lookup target = some tpane → DropsAt tpane.tabs d insertion →
      Left ws source pane k mid → Arrived mid target d tab ws' →
      Completed aw (.moveTabToPane source x target insertion widgets) (aw.modifyWs i (fun _ => ws'))
  | reorder {i k d : ℕ} {ws ws' : Workspace F} {p : PaneId} {x : TabDragIdentity} {pane : Pane}
      {tab : Tab} {insertion : TabInsertion} {widgets : Bool} :
      aw.current = some (i,ws) → Dragged ws p x pane k tab →
      d = k ∧ insertion = .before x ∨ DropsAt (pane.tabs.eraseIdx k) d insertion →
      Reordered ws p pane k d tab ws' →
      Completed aw (.reorderTabInPane p x insertion widgets) (aw.modifyWs i (fun _ => ws'))
  | workspace {si ti k page : ℕ} {sws tws sws' tws' : Workspace F} {source target : PaneId}
      {x : TabDragIdentity} {pane tpane : Pane} {tab : Tab} {targetWs : WorkspaceId}
      {widgets : Bool} {wss : List (Workspace F)} :
      aw.workspaces[si]? = some sws → aw.workspaces[ti]? = some tws → si ≠ ti →
      tws.id = targetWs → AppWindow.dropTarget tws = some target →
      tws.panes.lookup target = some tpane → Dragged sws source x pane k tab →
      Left sws source pane k sws' → Arrived tws target tpane.tabs.length tab tws' →
      wss = movedList aw.workspaces si ti sws' tws' → wss[page]? = some tws' →
      Completed aw (.moveTabToWorkspace source x targetWs widgets)
        { aw with workspaces := wss, currentPage := some page }

/-! The steps of a move succeed. -/

theorem dropsAt_of_insertionIndex {pane : Pane} {insertion : TabInsertion} {d : ℕ}
    (h : insertionIndexForTarget pane insertion = some d) :
    DropsAt pane.tabs d insertion ∧ d ≤ pane.tabs.length := by
  cases insertion with
  | before anchor =>
    obtain ⟨tab,ht,hx⟩ := tabIndexForIdentity_spec h
    exact ⟨⟨tab,ht,hx⟩,(List.getElem?_eq_some_iff.mp ht).1.le⟩
  | append =>
    cases h
    exact ⟨rfl,le_rfl⟩

theorem dragged_of_index {ws : Workspace F} {source : PaneId} {x : TabDragIdentity} {pane : Pane}
    {k : ℕ} (hl : ws.panes.lookup source = some pane) (hk : tabIndexForIdentity pane x = some k) :
    ∃ tab, Dragged ws source x pane k tab := by
  obtain ⟨tab,ht,hx⟩ := tabIndexForIdentity_spec hk
  exact ⟨tab,hl,ht,hx⟩

theorem removeTab_lost {pane : Pane} {k : ℕ} {tab : Tab} (hk : pane.tabs[k]? = some tab)
    (hsel : pane.selectedTab < pane.tabs.length) :
    ∃ rest, removeTabPreservingSelection pane k = some (tab,rest) ∧
      rest.tabs = pane.tabs.eraseIdx k ∧ (rest.tabs ≠ [] → pane.Lost k (some rest)) := by
  have hlt := (List.getElem?_eq_some_iff.mp hk).1
  have hlen : (pane.tabs.eraseIdx k).length = pane.tabs.length-1 := by
    simp [List.length_eraseIdx,hlt]
  refine ⟨_,by simp only [removeTabPreservingSelection,hk]; rfl,rfl,fun hne => ?_⟩
  have hpos := List.length_pos_of_ne_nil hne
  simp only at hne hpos
  refine ⟨rfl,rfl,?_,fun hs => ?_⟩
  · simp only
    split_ifs <;> omega
  · simp only [if_neg hne]
    rw [List.getElem?_eraseIdx]
    by_cases hlt' : k < pane.selectedTab
    · rw [if_pos hlt',if_neg (by omega),Nat.sub_add_cancel (by omega)]
    · rw [if_neg hlt',if_neg hs,if_pos (by omega),Nat.min_eq_left (by omega)]

theorem insertIdx_eraseIdx_self {l : List Tab} {k : ℕ} {tab : Tab} (h : l[k]? = some tab) :
    (l.eraseIdx k).insertIdx k tab = l := by
  obtain ⟨hk,rfl⟩ := List.getElem?_eq_some_iff.mp h
  exact List.insertIdx_eraseIdx_getElem hk

/-- Where the selected tab is once the tab `k` has been put at `d`. -/
theorem getElem?_reordered {l : List Tab} {k d sel : ℕ} {tab : Tab} (hk : l[k]? = some tab)
    (hd : d ≤ (l.eraseIdx k).length) :
    ((l.eraseIdx k).insertIdx d tab)[if sel = k then d
      else
        let s := if k < sel then sel-1 else sel
        if d ≤ s then s+1 else s]? = l[sel]? := by
  by_cases hs : sel = k
  · subst hs
    rw [if_pos rfl,List.getElem?_insertIdx_self,if_pos hd,hk]
  · have he : (l.eraseIdx k)[if k < sel then sel-1 else sel]? = l[sel]? := by
      rw [List.getElem?_eraseIdx]
      by_cases hlt : k < sel
      · rw [if_pos hlt,if_neg (by omega),Nat.sub_add_cancel (by omega)]
      · rw [if_neg hlt,if_pos (by omega)]
    rw [if_neg hs,← he]
    generalize (if k < sel then sel-1 else sel) = s
    simp only
    by_cases hds : d ≤ s
    · rw [if_pos hds,List.getElem?_insertIdx_of_gt (by omega),Nat.add_sub_cancel]
    · rw [if_neg hds,List.getElem?_insertIdx_of_lt (by omega)]

theorem dropsAt_erased {pane : Pane} {x : TabDragIdentity} {k j : ℕ} {tab : Tab}
    {insertion : TabInsertion} (hk : pane.tabs[k]? = some tab) (hx : tab.identity = x)
    (hj : insertionIndexForTarget pane insertion = some j) :
    (if k < j then j-1 else j) = k ∧ insertion = .before x ∨
      DropsAt (pane.tabs.eraseIdx k) (if k < j then j-1 else j) insertion := by
  have hlt := (List.getElem?_eq_some_iff.mp hk).1
  cases insertion with
  | before anchor =>
    obtain ⟨t,ht,ha⟩ := tabIndexForIdentity_spec hj
    by_cases hjk : j = k
    · subst hjk
      obtain rfl := Option.some.inj (hk.symm.trans ht)
      exact .inl ⟨by rw [if_neg (lt_irrefl _)],by rw [← ha,hx]⟩
    · refine .inr ⟨t,?_,ha⟩
      rw [List.getElem?_eraseIdx]
      by_cases hkj : k < j
      · rw [if_pos hkj,if_neg (by omega),Nat.sub_add_cancel (by omega),ht]
      · rw [if_neg hkj,if_pos (by omega),ht]
  | append =>
    cases hj
    refine .inr ?_
    simp only [DropsAt,if_pos hlt,List.length_eraseIdx]

theorem reorder_completes {pane : Pane} {x : TabDragIdentity} {k j : ℕ} {tab : Tab}
    {insertion : TabInsertion} (hk : pane.tabs[k]? = some tab) (hx : tab.identity = x)
    (hj : insertionIndexForTarget pane insertion = some j) :
    ∃ pane' d, pane.reorder k j = some pane' ∧
      (d = k ∧ insertion = .before x ∨ DropsAt (pane.tabs.eraseIdx k) d insertion) ∧
      pane'.id = pane.id ∧ pane'.tabs = (pane.tabs.eraseIdx k).insertIdx d tab ∧
      pane'.tabs[pane'.selectedTab]? = pane.tabs[pane.selectedTab]? := by
  have hlt := (List.getElem?_eq_some_iff.mp hk).1
  have hlen : (pane.tabs.eraseIdx k).length = pane.tabs.length-1 := by
    simp [List.length_eraseIdx,hlt]
  have hjle := (dropsAt_of_insertionIndex hj).2
  have hdrop := dropsAt_erased hk hx hj
  have hdle : (if k < j then j-1 else j) ≤ (pane.tabs.eraseIdx k).length ∨
      (if k < j then j-1 else j) = k := by
    split_ifs <;> omega
  unfold Pane.reorder
  simp only [Nat.min_eq_left hjle]
  generalize (if k < j then j-1 else j) = d at hdrop hdle ⊢
  by_cases hdk : d = k
  · subst hdk
    rw [if_pos rfl]
    exact ⟨pane,d,rfl,hdrop,rfl,(insertIdx_eraseIdx_self hk).symm,rfl⟩
  · have hd := hdle.resolve_right hdk
    rw [if_neg hdk,hk]
    simp only [if_neg (not_lt.mpr hd)]
    exact ⟨_,d,rfl,hdrop,rfl,rfl,getElem?_reordered hk hd⟩

section Steps

variable {ws : Workspace F} {source : PaneId} {x : TabDragIdentity} {pane : Pane} {k : ℕ}
  {tab : Tab}

theorem takeTab_completes (hd : Dragged ws source x pane k tab)
    (hsel : pane.selectedTab < pane.tabs.length) :
    ∃ rest, AppWindow.takeTab ws source k =
        some (tab,{ ws with panes := ws.panes.insert source rest }) ∧
      rest.tabs = pane.tabs.eraseIdx k ∧ (rest.tabs ≠ [] → pane.Lost k (some rest)) := by
  obtain ⟨rest,hrem,ht,hlost⟩ := removeTab_lost hd.nth hsel
  refine ⟨rest,?_,ht,hlost⟩
  rw [AppWindow.takeTab,hd.found,Option.bind_some,hrem,Option.map_some]

theorem dropIfEmpty_of_lookup {rest : Pane} (h : ws.panes.lookup source = some rest) :
    AppWindow.dropIfEmpty ws source = if rest.tabs = [] then
      { ws with panes := ws.panes.erase source, splitTree := (ws.splitTree.remove source).2 }
      else ws := by
  simp only [AppWindow.dropIfEmpty,h,Option.any_some,decide_eq_true_eq]
  rfl

/-- The source pane once the tab is taken and the pane dropped in case it is empty. -/
theorem left_of_take (ws : Workspace F) (source : PaneId) {rest : Pane}
    (ht : rest.tabs = pane.tabs.eraseIdx k)
    (hlost : rest.tabs ≠ [] → pane.Lost k (some rest)) :
    Left ws source pane k
      (AppWindow.dropIfEmpty { ws with panes := ws.panes.insert source rest } source) := by
  have hl : ({ ws with panes := ws.panes.insert source rest } : Workspace F).panes.lookup source =
      some rest := by simp
  rw [dropIfEmpty_of_lookup hl]
  by_cases he : rest.tabs = []
  · have hs : ((ws.panes.insert source rest).erase source).lookup source = none := by simp
    rw [if_pos he]
    refine ⟨rfl,?_,fun q hq => ?_,?_⟩
    · simp only [hs]
      exact ht.symm.trans he
    · simp only [HashMap.lookup_erase_ite,HashMap.lookup_insert_ite,if_neg hq]
    · simp only [hs,treeLeft]
  · have hs : (ws.panes.insert source rest).lookup source = some rest := by simp
    rw [if_neg he]
    refine ⟨rfl,?_,fun q hq => ?_,?_⟩
    · simp only [hs]
      exact hlost he
    · simp only [HashMap.lookup_insert_ite,if_neg hq]
    · simp only [hs,treeLeft]

theorem dropIfEmpty_insert (ws : Workspace F) {p q : PaneId} (h : p ≠ q) (pane : Pane) :
    AppWindow.dropIfEmpty { ws with panes := ws.panes.insert q pane } p =
      { AppWindow.dropIfEmpty ws p with
        panes := (AppWindow.dropIfEmpty ws p).panes.insert q pane } := by
  unfold AppWindow.dropIfEmpty
  have hl : ({ ws with panes := ws.panes.insert q pane } : Workspace F).panes.lookup p =
      ws.panes.lookup p := by
    simp only [HashMap.lookup_insert_ite,if_neg h]
  rw [hl]
  split
  · simp only [Workspace.removePane,HashMap.erase_insert_of_ne _ h]
  · rfl

theorem putTab_completes {target : PaneId} {tpane : Pane} {d : ℕ}
    (ht : ws.panes.lookup target = some tpane) (hd : d ≤ tpane.tabs.length) (tab : Tab) :
    AppWindow.putTab ws target d tab =
      some { ws with panes := ws.panes.insert target (tpane.withTab d tab) } := by
  rw [AppWindow.putTab,ht,Option.bind_some,Pane.insertSelected,if_pos hd,Option.map_some]
  rfl

theorem arrived_of_put {target : PaneId} {tpane : Pane} {d : ℕ}
    (ht : ws.panes.lookup target = some tpane) (hd : d ≤ tpane.tabs.length) (tab : Tab) :
    Arrived ws target d tab (Workspace.setFocusedPane
      { ws with panes := ws.panes.insert target (tpane.withTab d tab) } target) := by
  refine ⟨rfl,⟨tpane,ht,hd,?_⟩,fun q hq => ?_,rfl⟩
  · simp only [Workspace.setFocusedPane,HashMap.lookup_insert_ite,if_true]
  · simp only [Workspace.setFocusedPane,HashMap.lookup_insert_ite,if_neg hq]

end Steps

section Splits

variable [F64Ops F]

theorem expectSplit_completes {ws : Workspace F} (hws : WellFormed ws.splitTree)
    {target new : PaneId} (ht : target ∈ ws.splitTree.panes) (hnew : ws.panes.lookup new = none)
    (tab : Tab) (before : Bool) (o : Orientation) :
    ∃ ws', (AppWindow.expectSplit (ws.addPane (paneFromTab new tab)) before target new o).map
        (fun ws => ws.setFocusedPane new) = some ws' ∧ SplitOff ws target new tab o before ws' := by
  obtain ⟨id,hid,horder,hbeside⟩ := hws.splitAt_beside before new o ht
  have hsplit : (ws.addPane (paneFromTab new tab)).splitTree.splitAt before target new o =
      (some id,(ws.splitTree.splitAt before target new o).2) := Prod.ext hid rfl
  refine ⟨Workspace.setFocusedPane { ws.addPane (paneFromTab new tab) with
    splitTree := (ws.splitTree.splitAt before target new o).2 } new,?_,rfl,hnew,?_,fun q hq => ?_,
    rfl,horder,hbeside⟩
  · simp only [AppWindow.expectSplit,hsplit,Option.map_some]
  · show (ws.panes.insert new (paneFromTab new tab)).lookup new = _
    rw [HashMap.lookup_insert_ite,if_pos rfl]
    rfl
  · show (ws.panes.insert new (paneFromTab new tab)).lookup q = _
    rw [HashMap.lookup_insert_ite,if_neg hq]

end Splits

theorem Left.wellFormed {ws mid : Workspace F} (hws : WsInv ws) {source : PaneId} {pane : Pane}
    {k : ℕ} (h : Left ws source pane k mid) : WellFormed mid.splitTree := by
  rw [h.tree]
  cases mid.panes.lookup source with
  | none => exact hws.tree.remove source
  | some rest => exact hws.tree

theorem Left.mem_tree {ws mid : Workspace F} (hws : WsInv ws) {source q : PaneId} {pane : Pane}
    {k : ℕ} (h : Left ws source pane k mid) (hq : q ∈ ws.panes)
    (hs : q ≠ source ∨ (mid.panes.lookup source).isSome) : q ∈ mid.splitTree.panes := by
  rw [h.tree]
  have hm := (hws.keys q).mp hq
  cases hl : mid.panes.lookup source with
  | none =>
    have hne : q ≠ source := hs.resolve_right (by simp [hl])
    exact (hws.tree.panes_remove source) ▸ (List.mem_erase_of_ne hne).mpr hm
  | some rest => exact hm

section Operations

variable {aw : AppWindow F} {i : ℕ} {ws : Workspace F} {source target : PaneId}
  {x : TabDragIdentity} {pane : Pane} {k : ℕ} {tab : Tab}

theorem fresh_left (h : WindowInv aw) (hi : aw.workspaces[i]? = some ws)
    (hd : Dragged ws source x pane k tab) {mid : Workspace F} (hl : Left ws source pane k mid) :
    mid.panes.lookup aw.ids.pane = none := by
  have hfresh : aw.ids.pane ∉ ws.panes := fun hm => h.pane_fresh hi le_rfl hm
  have hne : aw.ids.pane ≠ source := fun he => hfresh (he ▸ WsShape.mem_of_lookup hd.found)
  rw [hl.others _ hne]
  exact AList.lookup_eq_none.mpr hfresh

theorem sel_lt (h : WindowInv aw) (hi : aw.workspaces[i]? = some ws)
    (hl : ws.panes.lookup source = some pane) : pane.selectedTab < pane.tabs.length :=
  ((h.ws ws (List.mem_of_getElem? hi)).ok hl).sel

theorem not_refused {t : SplitTree F} (hne : source ≠ target)
    (hs : (t.nodeIdForPane source).isSome) (ht : (t.nodeIdForPane target).isSome) :
    ¬ (source = target ∨ (t.nodeIdForPane source).isNone ∨ (t.nodeIdForPane target).isNone) := by
  simp only [Option.isNone_iff_eq_none]
  rintro (he | he | he)
  · exact hne he
  · rw [he] at hs; cases hs
  · rw [he] at ht; cases ht

variable [F64Ops F]

theorem splitTabToPane_completes (h : WindowInv aw) (hc : aw.current = some (i,ws))
    (hd : Dragged ws source x pane k tab) (hk : tabIndexForIdentity pane x = some k)
    (h2 : 2 ≤ pane.tabs.length) (hn : (ws.splitTree.nodeIdForPane source).isSome)
    (o : Orientation) (before : Bool) :
    ∃ mid ws', Left ws source pane k mid ∧ SplitOff mid source aw.ids.pane tab o before ws' ∧
      aw.splitTabToPane source x o before true =
        some ({ aw with ids := { aw.ids with pane := aw.ids.pane+1 } }.modifyWs i
          (fun _ => ws')) := by
  have hi := current_spec hc
  have hws := h.ws ws (List.mem_of_getElem? hi)
  have hlt := (List.getElem?_eq_some_iff.mp hd.nth).1
  obtain ⟨rest,htake,ht,hlost⟩ := takeTab_completes hd (sel_lt h hi hd.found)
  have hleft := left_of_take ws source ht hlost
  -- a second tab stays
  have hne : rest.tabs ≠ [] := by
    intro he
    have hlen : (pane.tabs.eraseIdx k).length = pane.tabs.length-1 := by
      simp [List.length_eraseIdx,hlt]
    rw [← ht,he,List.length_nil] at hlen
    omega
  have hl : ({ ws with panes := ws.panes.insert source rest } : Workspace F).panes.lookup source =
      some rest := by simp
  rw [dropIfEmpty_of_lookup hl,if_neg hne] at hleft
  obtain ⟨ws',hsplit,hoff⟩ := expectSplit_completes (hleft.wellFormed hws)
    (hleft.mem_tree hws (WsShape.mem_of_lookup hd.found) (.inr (by simp [hl])))
    (fresh_left h hi hd hleft) tab before o
  refine ⟨_,ws',hleft,hoff,?_⟩
  have hcond : ¬ (pane.tabs.length < 2 ∨ (ws.splitTree.nodeIdForPane source).isNone) := by
    rw [Option.isNone_iff_eq_none]
    rintro (hlt2 | hnone)
    · omega
    · rw [hnone] at hn; cases hn
  simp only [AppWindow.splitTabToPane,hc,hd.found,if_neg hcond,hk,Bool.not_true,
    Bool.false_eq_true,if_false,htake,Option.bind_some,hsplit,AppWindow.putWs,Option.map_some]

theorem splitTabToPaneTarget_completes (h : WindowInv aw) (hc : aw.current = some (i,ws))
    (hd : Dragged ws source x pane k tab) (hk : tabIndexForIdentity pane x = some k)
    (hne : source ≠ target) (hs : (ws.splitTree.nodeIdForPane source).isSome)
    (ht : (ws.splitTree.nodeIdForPane target).isSome) (o : Orientation) (before : Bool) :
    ∃ mid ws', Left ws source pane k mid ∧ SplitOff mid target aw.ids.pane tab o before ws' ∧
      aw.splitTabToPaneTarget source x target o before true =
        some ({ aw with ids := { aw.ids with pane := aw.ids.pane+1 } }.modifyWs i
          (fun _ => ws')) := by
  have hi := current_spec hc
  have hws := h.ws ws (List.mem_of_getElem? hi)
  have htm : target ∈ ws.panes := hws.toWsShape.mem_of_node
    (fun he => by rw [Option.isNone_iff_eq_none.mp he] at ht; cases ht)
  obtain ⟨rest,htake,hr,hlost⟩ := takeTab_completes hd (sel_lt h hi hd.found)
  have hleft := left_of_take ws source hr hlost
  have hsn : source ≠ (paneFromTab aw.ids.pane tab).id := fun he =>
    h.pane_fresh hi (le_of_eq he.symm) (WsShape.mem_of_lookup hd.found)
  obtain ⟨ws',hsplit,hoff⟩ := expectSplit_completes (hleft.wellFormed hws)
    (hleft.mem_tree hws htm (.inl (Ne.symm hne))) (fresh_left h hi hd hleft) tab before o
  refine ⟨_,ws',hleft,hoff,?_⟩
  simp only [AppWindow.splitTabToPaneTarget,hc,if_neg (not_refused hne hs ht),hd.found,
    Option.bind_some,hk,Bool.not_true,Bool.false_eq_true,if_false,htake,
    dropIfEmpty_addPane _ hsn,hsplit,AppWindow.putWs,Option.map_some]

omit [F64Ops F]

theorem moveTabToPane_completes (h : WindowInv aw) (hc : aw.current = some (i,ws))
    (hd : Dragged ws source x pane k tab) (hk : tabIndexForIdentity pane x = some k)
    (hne : source ≠ target) (hs : (ws.splitTree.nodeIdForPane source).isSome)
    (ht : (ws.splitTree.nodeIdForPane target).isSome) {tpane : Pane} {d : ℕ}
    {insertion : TabInsertion} (htp : ws.panes.lookup target = some tpane)
    (hins : insertionIndexForTarget tpane insertion = some d) :
    ∃ mid ws', Left ws source pane k mid ∧ Arrived mid target d tab ws' ∧
      aw.moveTabToPane source x target insertion true = some (aw.modifyWs i (fun _ => ws')) := by
  have hi := current_spec hc
  have hdle := (dropsAt_of_insertionIndex hins).2
  obtain ⟨rest,htake,hr,hlost⟩ := takeTab_completes hd (sel_lt h hi hd.found)
  have hleft := left_of_take ws source hr hlost
  have htp' : ({ ws with panes := ws.panes.insert source rest } : Workspace F).panes.lookup
      target = some tpane := by
    simp only [HashMap.lookup_insert_ite,if_neg (Ne.symm hne),htp]
  have hdrop := dropIfEmpty_insert { ws with panes := ws.panes.insert source rest } hne
    (tpane.withTab d tab)
  refine ⟨_,_,hleft,arrived_of_put ((hleft.others target (Ne.symm hne)).trans htp) hdle tab,?_⟩
  simp only [AppWindow.moveTabToPane,hc,if_neg (not_refused hne hs ht),hd.found,htp,
    Option.bind_some,hk,hins,Bool.not_true,Bool.false_eq_true,if_false,htake,
    putTab_completes htp' hdle,Option.map_some,AppWindow.putWs,hdrop]

theorem reorderTabInPane_completes (hc : aw.current = some (i,ws))
    (hd : Dragged ws source x pane k tab) (hk : tabIndexForIdentity pane x = some k)
    (hs : (ws.splitTree.nodeIdForPane source).isSome) {j : ℕ} {insertion : TabInsertion}
    (hins : insertionIndexForTarget pane insertion = some j) :
    ∃ d ws', (d = k ∧ insertion = .before x ∨ DropsAt (pane.tabs.eraseIdx k) d insertion) ∧
      Reordered ws source pane k d tab ws' ∧
      aw.reorderTabInPane source x insertion true = some (aw.modifyWs i (fun _ => ws')) := by
  obtain ⟨pane',d,hre,hdrop,hid,htabs,hsel⟩ := reorder_completes hd.nth hd.identity hins
  refine ⟨d,{ ws with panes := ws.panes.insert source pane' },hdrop,
    ⟨rfl,⟨pane',?_,hid,htabs,hsel⟩,fun q hq => ?_⟩,?_⟩
  · simp only [HashMap.lookup_insert_ite,if_true]
  · simp only [HashMap.lookup_insert_ite,if_neg hq]
  · have hcond : ¬ ((ws.splitTree.nodeIdForPane source).isNone = true) := fun he => by
      rw [Option.isNone_iff_eq_none.mp he] at hs; cases hs
    simp only [AppWindow.reorderTabInPane,hc,hd.found,if_neg hcond,hk,hins,Bool.not_true,
      Bool.false_eq_true,if_false,hre,Option.map_some,AppWindow.putWs]

/-! Between workspaces. -/

theorem findById_of_get (aw : AppWindow F) {l : List (Workspace F)}
    (hn : (l.map Workspace.id).Nodup) (hl : aw.workspaces = l) {j : ℕ} {w : Workspace F}
    (hw : l[j]? = some w) :
    aw.findWorkspaceById w.id = some (j,w,()) := by
  subst hl
  cases hf : aw.findWorkspaceById w.id with
  | none =>
    have hm : (w,j) ∈ aw.workspaces.zipIdx := List.mem_zipIdx_iff_getElem?.mpr hw
    have := List.findSome?_eq_none_iff.mp hf (w,j) hm
    simp at this
  | some e =>
    obtain ⟨j',w',u⟩ := e
    obtain ⟨hj',hid⟩ := findWs_spec hf
    have hid' : w'.id = w.id := by
      by_contra hne
      rw [if_neg hne] at hid
      cases hid
    obtain ⟨h1,rfl⟩ := List.getElem?_eq_some_iff.mp hw
    obtain ⟨h2,rfl⟩ := List.getElem?_eq_some_iff.mp hj'
    have hjj : j' = j := by
      refine (List.getElem?_inj (by simpa using h2) hn).mp ?_
      simpa [h1,h2] using hid'
    subst hjj
    rfl

theorem dropTarget_lookup {target : PaneId} (h : AppWindow.dropTarget ws = some target) :
    ∃ pane, ws.panes.lookup target = some pane := by
  unfold AppWindow.dropTarget at h
  rcases Option.or_eq_some_iff.mp h with h | ⟨-,h⟩
  · exact Option.isSome_iff_exists.mp (Option.filter_eq_some_iff.mp h).2
  · have hs := List.find?_some h
    exact Option.isSome_iff_exists.mp hs

theorem refocus_eq (aw : AppWindow F) (i : ℕ) : aw.refocus i = aw := by
  unfold AppWindow.refocus
  split
  · rename_i p hp
    obtain ⟨ws,hi,hf⟩ := Option.bind_eq_some_iff.mp hp
    obtain ⟨a,b,hl,-,hm,-⟩ := workspaces_split hi
    have hws : ws.setFocusedPane p = ws := by
      obtain ⟨_,_,_,_,_,_,_,⟨_,_,_,_⟩,_,_,_,_,_,_⟩ := ws
      cases hf
      rfl
    have hlist : aw.workspaces.modify i (fun ws => ws.setFocusedPane p) = aw.workspaces := by
      rw [hm,hws,← hl]
    rw [AppWindow.setPaneActive,AppWindow.modifyWs,hlist]
  · rfl

section MovedList

variable {l : List (Workspace F)} {si ti : ℕ} {sws tws sws' tws' : Workspace F}

theorem movedList_ids (hne : si ≠ ti) (hsi : l[si]? = some sws) (hti : l[ti]? = some tws)
    (hsid : sws'.id = sws.id) (htid : tws'.id = tws.id) (hn : (l.map Workspace.id).Nodup) :
    ((movedList l si ti sws' tws').map Workspace.id).Nodup := by
  unfold movedList
  split
  · refine ((List.eraseIdx_sublist _ _).map _).nodup ?_
    rw [map_id_modify hti htid]
    exact hn
  · rw [replaceTwo_ids hne hsi hti hsid htid]
    exact hn

theorem movedList_target (hne : si ≠ ti) (hti : l[ti]? = some tws) (sws' tws' : Workspace F) :
    ∃ j, (movedList l si ti sws' tws')[j]? = some tws' ∧ ∀ f : Workspace F → Workspace F,
      (movedList l si ti sws' tws').modify j f = movedList l si ti sws' (f tws') := by
  have hget : (l.modify ti (fun _ => tws'))[ti]? = some tws' := by
    simp [hti]
  have hmod : ∀ f : Workspace F → Workspace F,
      (l.modify ti (fun _ => tws')).modify ti f = l.modify ti (fun _ => f tws') := fun f => by
    rw [List.modify_modify_eq]
    rfl
  unfold movedList
  split
  · rcases lt_or_gt_of_ne hne with hlt | hlt
    · refine ⟨ti-1,?_,fun f => ?_⟩
      · rw [List.getElem?_eraseIdx,if_neg (by omega),Nat.sub_add_cancel (by omega),hget]
      · rw [← hmod f,← List.eraseIdx_modify_of_lt _ _ _ _ hlt]
    · refine ⟨ti,?_,fun f => ?_⟩
      · rw [List.getElem?_eraseIdx,if_pos hlt,hget]
      · rw [← hmod f,← List.eraseIdx_modify_of_gt _ _ _ _ hlt]
  · refine ⟨ti,?_,fun f => ?_⟩
    · simp [replaceTwo,hti,hne]
    · unfold replaceTwo
      rw [List.modify_modify_eq]
      rfl

end MovedList

theorem source_left (aw : AppWindow F) {si ti : ℕ} {sws sws₁ : Workspace F} (tws₁ : Workspace F)
    {rest : Pane} (hne : si ≠ ti) (hsi : aw.workspaces[si]? = some sws)
    (hl : sws₁.panes.lookup source = some rest)
    (hsel : rest.tabs ≠ [] → rest.selectedTab < rest.tabs.length) :
    (let aw := (aw.modifyWs si (fun _ => sws₁)).modifyWs ti (fun _ => tws₁)
      if (sws₁.panes.lookup source).any (fun pane => pane.tabs = []) then
        let aw := aw.removePaneFromSplit si source
        if (aw.workspaces[si]?.map (fun ws => ws.panes.keys)) = some [] then
          aw.removeWorkspaceAt si
        else some (aw.refocus si)
      else if ((sws₁.panes.lookup source).bind Pane.activePanel).isSome then some aw
      else none) = some { aw with
        workspaces := movedList aw.workspaces si ti (AppWindow.dropIfEmpty sws₁ source) tws₁ } := by
  by_cases he : rest.tabs = []
  · obtain ⟨sws',hsws'⟩ : ∃ sws', sws' = Workspace.removePane
      { sws₁ with splitTree := (sws₁.splitTree.remove source).2 } source := ⟨_,rfl⟩
    have hdrop : ((aw.modifyWs si (fun _ => sws₁)).modifyWs ti
        (fun _ => tws₁)).removePaneFromSplit si source =
        { aw with workspaces := replaceTwo aw.workspaces si ti sws' tws₁ } := by
      rw [hsws']
      exact congrArg (fun l => { aw with workspaces := l }) (modify_replaceTwo hne _)
    have hd : AppWindow.dropIfEmpty sws₁ source = sws' := by
      rw [dropIfEmpty_of_lookup hl,if_pos he,hsws']
      rfl
    rw [hd]
    simp only [hl,Option.any_some,decide_eq_true_eq,if_pos he,hdrop,
      getElem?_replaceTwo_left hne hsi,Option.map_some,Option.some.injEq,refocus_eq]
    unfold movedList
    by_cases hk : sws'.panes.keys = []
    · have hlt : si < (replaceTwo aw.workspaces si ti sws' tws₁).length := by
        have := (List.getElem?_eq_some_iff.mp hsi).1
        simpa [replaceTwo] using this
      rw [if_pos hk,if_pos hk,AppWindow.removeWorkspaceAt,if_pos hlt,eraseIdx_replaceTwo hne]
    · rw [if_neg hk,if_neg hk]
  · have hk : sws₁.panes.keys ≠ [] := List.ne_nil_of_mem
      (AList.mem_keys.mp (WsShape.mem_of_lookup hl))
    have hact : rest.activePanel.isSome := by
      rw [Pane.activePanel,List.getElem?_eq_getElem (hsel he)]
      rfl
    rw [dropIfEmpty_of_lookup hl,if_neg he]
    simp only [hl,Option.any_some,decide_eq_true_eq,if_neg he,Option.bind_some,if_pos hact,
      movedList,if_neg hk]
    rfl

theorem moveTabToWorkspace_result (h : WindowInv aw) {si ti : ℕ} {sws tws : Workspace F}
    {targetId : WorkspaceId} {u : Unit} {tpane rest : Pane}
    (hfs : aw.findWorkspaceWithPane source = some (si,sws,pane))
    (hft : aw.findWorkspaceById targetId = some (ti,tws,u)) (hne : si ≠ ti)
    (hdt : AppWindow.dropTarget tws = some target)
    (hs : (sws.splitTree.nodeIdForPane source).isSome)
    (ht : (tws.splitTree.nodeIdForPane target).isSome)
    (hk : tabIndexForIdentity pane x = some k)
    (hr : removeTabPreservingSelection pane k = some (tab,rest))
    (htp : tws.panes.lookup target = some tpane) :
    ∃ page, (movedList aw.workspaces si ti
        (AppWindow.dropIfEmpty { sws with panes := sws.panes.insert source rest } source)
        (Workspace.setFocusedPane { tws with
          panes := tws.panes.insert target (tpane.withTab tpane.tabs.length tab) } target))[page]? =
        some (Workspace.setFocusedPane { tws with
          panes := tws.panes.insert target (tpane.withTab tpane.tabs.length tab) } target) ∧
      aw.moveTabToWorkspace source x targetId true = some { aw with
        workspaces := movedList aw.workspaces si ti
          (AppWindow.dropIfEmpty { sws with panes := sws.panes.insert source rest } source)
          (Workspace.setFocusedPane { tws with
            panes := tws.panes.insert target (tpane.withTab tpane.tabs.length tab) } target)
        currentPage := some page } := by
  obtain ⟨hsi,hfound⟩ := findWs_spec hfs
  have hti := (findWs_spec hft).1
  have hid : tws.id = targetId := by
    have := (findWs_spec hft).2
    by_contra hne
    rw [if_neg hne] at this
    cases this
  have htake : AppWindow.takeTab sws source k =
      some (tab,{ sws with panes := sws.panes.insert source rest }) := by
    rw [AppWindow.takeTab,hfound,Option.bind_some,hr,Option.map_some]
  obtain ⟨tws₁,hput,htws₁⟩ : ∃ tws₁, AppWindow.putTab tws target tpane.tabs.length tab =
      some tws₁ ∧ tws₁ =
        { tws with panes := tws.panes.insert target (tpane.withTab tpane.tabs.length tab) } :=
    ⟨_,putTab_completes htp le_rfl tab,rfl⟩
  have hid₁ : tws₁.id = tws.id := by rw [htws₁]
  have htm : ¬ (tws₁.panes.lookup target).isNone = true := by simp [htws₁]
  rw [← htws₁]
  have hl : ({ sws with panes := sws.panes.insert source rest } : Workspace F).panes.lookup
      source = some rest := by simp
  have hsel := removeTabPreservingSelection_spec hr (sel_lt h hsi hfound)
  have hsrc := source_left aw tws₁ hne hsi hl hsel.2.1
  have hsid : (AppWindow.dropIfEmpty { sws with panes := sws.panes.insert source rest }
      source).id = sws.id := by
    unfold AppWindow.dropIfEmpty
    split <;> rfl
  generalize AppWindow.dropIfEmpty { sws with panes := sws.panes.insert source rest }
    source = sws' at hsrc hsid
  obtain ⟨j,hj,hmod⟩ := movedList_target hne hti sws' tws₁
  have hn := movedList_ids hne hsi hti hsid hid₁ h.ids_nodup
  have hfind := findById_of_get { aw with workspaces := movedList aw.workspaces si ti sws' tws₁ }
    hn rfl hj
  rw [hid₁,hid] at hfind
  refine ⟨j,?_,?_⟩
  · rw [← hmod (fun ws => ws.setFocusedPane target),List.getElem?_modify_eq,hj]
    rfl
  · have hcond : ¬ ((tws.splitTree.nodeIdForPane target).isNone = true ∨
        (sws.splitTree.nodeIdForPane source).isNone = true) := by
      simp only [Option.isNone_iff_eq_none]
      rintro (he | he)
      · rw [he] at ht; cases ht
      · rw [he] at hs; cases hs
    simp only [AppWindow.moveTabToWorkspace,hfs,hft,if_neg hne,hdt,if_neg hcond,hk,
      Bool.not_true,Bool.false_eq_true,if_false,htake,Option.bind_some,htp,hput]
    rw [hsrc]
    simp only [Option.bind_some,hfind,if_neg htm,AppWindow.setPaneActive,AppWindow.modifyWs,hmod]

theorem moveTabToWorkspace_completes (h : WindowInv aw) {si ti : ℕ} {sws tws : Workspace F}
    {targetId : WorkspaceId} {u : Unit}
    (hfs : aw.findWorkspaceWithPane source = some (si,sws,pane))
    (hft : aw.findWorkspaceById targetId = some (ti,tws,u)) (hne : si ≠ ti)
    (hdt : AppWindow.dropTarget tws = some target)
    (hs : (sws.splitTree.nodeIdForPane source).isSome)
    (ht : (tws.splitTree.nodeIdForPane target).isSome)
    (hd : Dragged sws source x pane k tab) (hk : tabIndexForIdentity pane x = some k) :
    ∃ sws' tws' tpane page, Left sws source pane k sws' ∧
      tws.panes.lookup target = some tpane ∧ Arrived tws target tpane.tabs.length tab tws' ∧
      (movedList aw.workspaces si ti sws' tws')[page]? = some tws' ∧
      aw.moveTabToWorkspace source x targetId true = some { aw with
        workspaces := movedList aw.workspaces si ti sws' tws', currentPage := some page } := by
  obtain ⟨tpane,htp⟩ := dropTarget_lookup hdt
  obtain ⟨rest,hr,htabs,hlost⟩ := removeTab_lost hd.nth (sel_lt h (findWs_spec hfs).1 hd.found)
  obtain ⟨page,hpage,haw⟩ := moveTabToWorkspace_result h hfs hft hne hdt hs ht hk hr htp
  exact ⟨_,_,tpane,page,left_of_take sws source htabs hlost,htp,arrived_of_put htp le_rfl tab,
    hpage,haw⟩

end Operations

end Limux
