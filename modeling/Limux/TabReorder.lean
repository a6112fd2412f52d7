import Limux.TabClose
import Limux.TabMoves
import Limux.Lib.Reorder

/-! Tabs dragged within their strip: where the dragged tab ends up, what the others and the
selection do, and that a second drop at the same place does nothing. -/
namespace Limux

variable {F : Type}

/-- The target is the end of the strip or before one of the tabs of the pane. -/
def TabInsertion.Within (pane : Pane) : TabInsertion → Prop
  | .before anchor => anchor ∈ pane.identities
  | .append => True

/-- The tab `x` stands right before the anchor, or last; before itself it stays. -/
def Placed (x : TabDragIdentity) (tabs tabs' : List Tab) : TabInsertion → Prop
  | .before anchor =>
    if anchor = x then tabs' = tabs
    else ∃ l tab at' r, tabs' = l ++ tab :: at' :: r ∧ tab.identity = x ∧ at'.identity = anchor
  | .append => ∃ l tab, tabs' = l ++ [tab] ∧ tab.identity = x

/-- The tabs of the pane in their new order, with the same one selected. -/
structure Rearranged (x : TabDragIdentity) (insertion : TabInsertion) (pane pane' : Pane) :
    Prop where
  id : pane'.id = pane.id
  perm : pane'.tabs.Perm pane.tabs
  place : Placed x pane.tabs pane'.tabs insertion
  others : pane'.tabs.filter (fun t => t.identity ≠ x) = pane.tabs.filter (fun t => t.identity ≠ x)
  selected : ∃ tab, pane.tabs[pane.selectedTab]? = some tab ∧
    pane'.tabs[pane'.selectedTab]? = some tab

theorem tabIndex_of_split {pane : Pane} {l r : List Tab} {tab : Tab} {x : TabDragIdentity}
    (hn : pane.identities.Nodup) (ht : pane.tabs = l ++ tab :: r) (hx : tab.identity = x) :
    tabIndexForIdentity pane x = some l.length := by
  have hl : ∀ t ∈ l, t.identity ≠ x := by
    rw [Pane.identities,ht,List.map_append,List.map_cons] at hn
    intro t htl he
    exact List.disjoint_of_nodup_append hn (List.mem_map_of_mem htl)
      (by rw [he,← hx]; exact List.mem_cons_self)
  unfold tabIndexForIdentity
  rw [ht,List.findIdx?_append,List.findIdx?_eq_none_iff.mpr,List.findIdx?_cons,
    (matchesPanel_iff _ _).mpr hx.symm]
  · simp
  · intro t htl
    have hne := hl t htl
    rw [← Bool.not_eq_true,matchesPanel_iff]
    exact fun he => hne he.symm

theorem mem_split {pane : Pane} {x : TabDragIdentity} (hx : x ∈ pane.identities) :
    ∃ l tab r, pane.tabs = l ++ tab :: r ∧ tab.identity = x := by
  obtain ⟨tab,hm,rfl⟩ := List.mem_map.mp hx
  obtain ⟨l,r,h⟩ := List.append_of_mem hm
  exact ⟨l,tab,r,h,rfl⟩

theorem insertionIndex_of_within {pane : Pane} {insertion : TabInsertion}
    (hn : pane.identities.Nodup) (h : insertion.Within pane) :
    ∃ j, insertionIndexForTarget pane insertion = some j := by
  cases insertion with
  | append => exact ⟨_,rfl⟩
  | before anchor =>
    obtain ⟨l,tab,r,ht,ha⟩ := mem_split h
    exact ⟨_,tabIndex_of_split hn ht ha⟩

theorem placed_of_dropsAt {tabs : List Tab} {x : TabDragIdentity} {k d : ℕ} {tab : Tab}
    {insertion : TabInsertion} (hk : tabs[k]? = some tab) (hx : tab.identity = x)
    (hn : (tabs.map Tab.identity).Nodup)
    (hd : d = k ∧ insertion = .before x ∨ DropsAt (tabs.eraseIdx k) d insertion) :
    Placed x tabs ((tabs.eraseIdx k).insertIdx d tab) insertion := by
  obtain ⟨rfl,rfl⟩ | hdrop := hd
  · exact (if_pos rfl).mpr (insertIdx_eraseIdx_self hk)
  · cases insertion with
    | append =>
      obtain rfl := show d = (tabs.eraseIdx k).length from hdrop
      refine ⟨tabs.eraseIdx k,tab,?_,hx⟩
      rw [Reorder.insertIdx_take le_rfl,List.take_length,List.drop_length]
    | before anchor =>
      obtain ⟨t,ht,ha⟩ := hdrop
      have hlt := (List.getElem?_eq_some_iff.mp ht).1
      have hne : anchor ≠ x := by
        rintro rfl
        -- a second tab with the identity
        have hm : tab.identity ∈ (tabs.eraseIdx k).map Tab.identity := by
          rw [hx,← ha]
          exact List.mem_map_of_mem (List.mem_of_getElem? ht)
        have hp := ((List.getElem_cons_eraseIdx_perm (List.getElem?_eq_some_iff.mp hk).1).map
          Tab.identity).nodup_iff.mpr hn
        rw [(List.getElem?_eq_some_iff.mp hk).2,List.map_cons] at hp
        exact (List.nodup_cons.mp hp).1 hm
      refine (if_neg hne).mpr ⟨(tabs.eraseIdx k).take d,tab,t,(tabs.eraseIdx k).drop (d+1),?_,hx,
        ha⟩
      rw [Reorder.insertIdx_take hlt.le,List.drop_eq_getElem_cons hlt]
      rw [List.getElem?_eq_some_iff.mp ht |>.2]

theorem le_of_dropsAt {tabs : List Tab} {x : TabDragIdentity} {k d : ℕ} {insertion : TabInsertion}
    (hk : k < tabs.length)
    (hd : d = k ∧ insertion = .before x ∨ DropsAt (tabs.eraseIdx k) d insertion) :
    d ≤ (tabs.eraseIdx k).length := by
  obtain ⟨rfl,-⟩ | hdrop := hd
  · rw [List.length_eraseIdx_of_lt hk]
    omega
  · cases insertion with
    | append => exact le_of_eq hdrop
    | before anchor =>
      obtain ⟨t,ht,-⟩ := hdrop
      exact (List.getElem?_eq_some_iff.mp ht).1.le

theorem reorder_again {pane : Pane} {x : TabDragIdentity} {tabs : List Tab}
    {insertion : TabInsertion} {k j : ℕ} (hn : pane.identities.Nodup)
    (hp : Placed x tabs pane.tabs insertion) (hk : tabIndexForIdentity pane x = some k)
    (hj : insertionIndexForTarget pane insertion = some j) : pane.reorder k j = some pane := by
  have hstay : (if k < min j pane.tabs.length then min j pane.tabs.length-1
      else min j pane.tabs.length) = k := by
    cases insertion with
    | append =>
      obtain ⟨l,tab,ht,hx⟩ := hp
      rw [tabIndex_of_split hn ht hx] at hk
      cases hk
      cases hj
      have hlen : pane.tabs.length = l.length+1 := by simp [ht]
      rw [min_self,hlen,if_pos (Nat.lt_succ_self _),Nat.add_sub_cancel]
    | before anchor =>
      have hle := (dropsAt_of_insertionIndex hj).2
      rw [min_eq_left hle]
      by_cases ha : anchor = x
      · subst ha
        obtain rfl := Option.some.inj (hk.symm.trans hj)
        rw [if_neg (lt_irrefl _)]
      · obtain ⟨l,tab,t,r,ht,hx,hta⟩ := (if_neg ha).mp hp
        have ht' : pane.tabs = (l ++ [tab]) ++ t :: r := by simp [ht]
        have hj' : tabIndexForIdentity pane anchor = some j := hj
        rw [tabIndex_of_split hn ht hx] at hk
        rw [tabIndex_of_split hn ht' hta] at hj'
        cases hk
        cases hj'
        simp
  unfold Pane.reorder
  simp only [hstay,if_true]

theorem current_modifyWs {aw : AppWindow F} {i : ℕ} {ws ws' : Workspace F}
    (hc : aw.current = some (i,ws)) : (aw.modifyWs i (fun _ => ws')).current = some (i,ws') := by
  have hi := current_spec hc
  simp only [AppWindow.current,Option.bind_eq_some_iff,Option.map_eq_some_iff,
    Prod.mk.injEq] at hc
  obtain ⟨j,hpage,w,hw,rfl,rfl⟩ := hc
  simp only [AppWindow.current,AppWindow.modifyWs,hpage,Option.bind_some,
    List.getElem?_modify_eq,hw,Option.map_some,Option.map_eq_map]

theorem reorderTabInPane_of_index {aw : AppWindow F} {i k j : ℕ} {ws : Workspace F} {p : PaneId}
    {pane pane' : Pane} {x : TabDragIdentity} {insertion : TabInsertion}
    (hc : aw.current = some (i,ws)) (hl : ws.panes.lookup p = some pane)
    (hs : (ws.splitTree.nodeIdForPane p).isSome) (hk : tabIndexForIdentity pane x = some k)
    (hj : insertionIndexForTarget pane insertion = some j) (hre : pane.reorder k j = some pane') :
    aw.reorderTabInPane p x insertion true =
      some (aw.modifyWs i (fun _ => { ws with panes := ws.panes.insert p pane' })) := by
  have hcond : ¬ ((ws.splitTree.nodeIdForPane p).isNone = true) := by
    rw [Option.isNone_iff_eq_none]
    intro he
    rw [he] at hs
    cases hs
  simp only [AppWindow.reorderTabInPane,hc,hl,if_neg hcond,hk,hj,Bool.not_true,
    Bool.false_eq_true,if_false,hre,Option.map_some,AppWindow.putWs]

theorem modifyWs_congr {aw : AppWindow F} {i : ℕ} {ws : Workspace F}
    (hi : aw.workspaces[i]? = some ws) {f g : Workspace F → Workspace F} (h : f ws = g ws) :
    aw.modifyWs i f = aw.modifyWs i g := by
  have hl : aw.workspaces.modify i f = aw.workspaces.modify i g := by
    apply List.ext_getElem?
    intro j
    rw [List.getElem?_modify,List.getElem?_modify]
    by_cases hj : i = j
    · subst hj
      simp [hi,h]
    · simp [hj]
  rw [AppWindow.modifyWs,hl,AppWindow.modifyWs]

/-- `reorder_tab_in_pane` on a pane whose tabs all differ, with one of them selected. -/
theorem reorderTabInPane_rearranges {aw : AppWindow F} {i : ℕ} {ws : Workspace F} {p : PaneId}
    {pane : Pane} {x : TabDragIdentity} {insertion : TabInsertion}
    (hc : aw.current = some (i,ws)) (hl : ws.panes.lookup p = some pane)
    (hs : (ws.splitTree.nodeIdForPane p).isSome) (hok : pane.Ok) (hn : pane.identities.Nodup)
    (hx : x ∈ pane.identities) (hi : insertion.Within pane) :
    ∃ pane' aw', aw.reorderTabInPane p x insertion true = some aw' ∧
      aw' = aw.modifyWs i (fun ws => { ws with panes := ws.panes.insert p pane' }) ∧
      Rearranged x insertion pane pane' ∧
      aw'.reorderTabInPane p x insertion true = some aw' := by
  obtain ⟨l,t,r,ht,htx⟩ := mem_split hx
  have hk := tabIndex_of_split hn ht htx
  obtain ⟨j,hj⟩ := insertionIndex_of_within hn hi
  obtain ⟨tab,hd⟩ := dragged_of_index hl hk
  obtain ⟨pane',d,hre,hdrop,hid,htabs,hsel⟩ := reorder_completes hd.nth hd.identity hj
  have hlt := (List.getElem?_eq_some_iff.mp hd.nth).1
  have hspec := reorder_spec hok hlt hre
  have hdle := le_of_dropsAt hlt hdrop
  have hplace := placed_of_dropsAt hd.nth hd.identity hn hdrop
  rw [← htabs] at hplace
  have hrun := reorderTabInPane_of_index hc hl hs hk hj hre
  refine ⟨pane',_,hrun,modifyWs_congr (current_spec hc) rfl,⟨hid,?_,hplace,?_,?_⟩,?_⟩
  · rw [htabs]
    refine (List.perm_insertIdx tab _ hdle).trans ?_
    have hp := List.getElem_cons_eraseIdx_perm hlt
    rwa [(List.getElem?_eq_some_iff.mp hd.nth).2] at hp
  · rw [htabs]
    exact Reorder.filter_moved hd.nth hdle (by simpa using hd.identity)
  · have hget := List.getElem?_eq_getElem hok.sel
    exact ⟨_,hget,hsel.trans hget⟩
  · have hn' : pane'.identities.Nodup := hspec.2.2.nodup_iff.mpr hn
    have hx' : x ∈ pane'.identities := hspec.2.2.mem_iff.mpr hx
    have hi' : insertion.Within pane' := by
      cases insertion with
      | append => trivial
      | before anchor => exact hspec.2.2.mem_iff.mpr hi
    obtain ⟨l',t',r',ht',htx'⟩ := mem_split hx'
    have hk' := tabIndex_of_split hn' ht' htx'
    obtain ⟨j',hj'⟩ := insertionIndex_of_within hn' hi'
    have hagain := reorder_again hn' hplace hk' hj'
    have hl' : ({ ws with panes := ws.panes.insert p pane' } : Workspace F).panes.lookup p =
        some pane' := AList.lookup_insert _
    rw [reorderTabInPane_of_index (current_modifyWs hc) hl' hs hk' hj' hagain,modifyWs_modifyWs]
    refine congrArg some (congrArg (aw.modifyWs i) (funext fun w => ?_))
    simp only [Function.comp_apply,AList.insert_insert]

/-- The third of three tabs dropped before the first. -/
theorem reorderTabInPane_rearranges_threeTabs :
    ∃ pane' aw', AppWindow.threeTabs.reorderTabInPane 1 (.surface 3) (.before (.surface 1)) true =
        some aw' ∧
      aw' = AppWindow.threeTabs.modifyWs 0
        (fun ws => { ws with panes := ws.panes.insert 1 pane' }) ∧
      Rearranged (.surface 3) (.before (.surface 1))
        ⟨1,[.fresh (.terminal 1),.fresh (.terminal 2),.fresh (.terminal 3)],1⟩ pane' ∧
      aw'.reorderTabInPane 1 (.surface 3) (.before (.surface 1)) true = some aw' :=
  reorderTabInPane_rearranges rfl rfl rfl (Pane.ok_of_sel (by decide)) (by decide) (by decide)
    (show TabDragIdentity.surface 1 ∈ Pane.identities _ by decide)

end Limux
