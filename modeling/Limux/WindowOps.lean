import Limux.WindowInv
import Mathlib.Data.List.Flatten

/-! Every operation of the window keeps the invariant, and all but the closing
ones keep every panel identity. -/
namespace Limux

variable {F : Type} {aw aw' : AppWindow F}

/-- The invariant holds afterwards and no panel is lost. -/
structure Kept (aw aw' : AppWindow F) : Prop where
  inv : WindowInv aw'
  keep : aw.identities ⊆ aw'.identities

theorem Kept.refl (h : WindowInv aw) : Kept aw aw := ⟨h,List.Subset.refl _⟩

theorem WindowInv.view (h : WindowInv aw) (hw : aw'.workspaces = aw.workspaces)
    (hi : aw'.ids = aw.ids) : WindowInv aw' := by
  obtain ⟨h1,h2,h3,h4,h5,h6⟩ := h
  have hid : aw'.identities = aw.identities := by simp only [AppWindow.identities,hw]
  refine ⟨hw ▸ h1,hw ▸ h2,?_,?_,hid ▸ h5,?_⟩
  · rw [hw,hi]; exact h3
  · rw [hw,hi]; exact h4
  · rw [hid,hi]; exact h6

theorem Kept.trans {aw'' : AppWindow F} (h : Kept aw aw') (h' : Kept aw' aw'') : Kept aw aw'' :=
  ⟨h'.inv,fun _ hx => h'.keep (h.keep hx)⟩

theorem kept_modify (h : WindowInv aw) {i : ℕ} {ws : Workspace F}
    (hi : aw.workspaces[i]? = some ws) {ids : IdCounters} {new : List TabDragIdentity}
    (hf : Fresh aw.ids ids new) {g : Workspace F → Workspace F} (hws : WsInv (g ws))
    (hid : (g ws).id = ws.id)
    (hpane : ∀ p : ℕ, p ∈ (g ws).panes → p ∈ ws.panes ∨ aw.ids.pane ≤ p ∧ p < ids.pane)
    (hperm : (g ws).identities.Perm (new ++ ws.identities)) :
    Kept aw ({ aw with ids := ids }.modifyWs i g) :=
  ⟨h.replace hi hf hws hid hpane hperm.subperm,
    identities_modifyWs hi (fun _ hx => hperm.mem_iff.mpr (List.mem_append_right _ hx))⟩

theorem kept_samePanes (h : WindowInv aw) {i : ℕ} {ws : Workspace F}
    (hi : aw.workspaces[i]? = some ws) {g : Workspace F → Workspace F} (hws : WsInv (g ws))
    (hid : (g ws).id = ws.id) (hp : (g ws).panes = ws.panes) : Kept aw (aw.modifyWs i g) :=
  kept_modify h hi (.nil _) hws hid (fun p hp' => .inl (hp ▸ hp')) (by
    rw [Workspace.identities,hp]; exact .refl _)

theorem kept_modifyById (h : WindowInv aw) (id : WorkspaceId) {g : Workspace F → Workspace F}
    (hid : ∀ ws, (g ws).id = ws.id) (hp : ∀ ws, (g ws).panes = ws.panes)
    (hg : ∀ ws, WsInv ws → WsInv (g ws)) : Kept aw (aw.modifyById id g) := by
  unfold AppWindow.modifyById
  split
  · rename_i i ws _ hf
    have hi := (findWs_spec hf).1
    exact kept_samePanes h hi (hg ws (h.ws ws (List.mem_of_getElem? hi))) (hid ws) (hp ws)
  · exact .refl h

theorem kept_meta (h : WindowInv aw) (id : WorkspaceId) {g : Workspace F → Workspace F}
    (hid : ∀ ws, (g ws).id = ws.id) (hp : ∀ ws, (g ws).panes = ws.panes)
    (ht : ∀ ws, (g ws).splitTree = ws.splitTree) : Kept aw (aw.modifyById id g) :=
  kept_modifyById h id hid hp (fun ws hws => hws.congr (hp ws) (ht ws))

theorem kept_modifyPane (h : WindowInv aw) {i : ℕ} {ws : Workspace F}
    (hi : aw.workspaces[i]? = some ws) {ids : IdCounters} {new : List TabDragIdentity}
    (hf : Fresh aw.ids ids new) (p : PaneId) (hp : p ∈ ws.panes) {f : Pane → Pane}
    (hok : ∀ pane, ws.panes.lookup p = some pane → pane.Ok →
      (f pane).id = pane.id ∧ (f pane).Ok ∧ (f pane).identities.Perm (new ++ pane.identities)) :
    Kept aw ({ aw with ids := ids }.modifyWs i (fun ws => ws.modifyPane p f)) := by
  have hws := h.ws ws (List.mem_of_getElem? hi)
  obtain ⟨pane,hl⟩ := HashMap.mem_iff_lookup.mp hp
  have hk := hok pane hl (hws.ok hl)
  refine kept_modify h hi hf (hws.modifyPane p (fun x hx hxo =>
    ⟨(hok x hx hxo).1,(hok x hx hxo).2.1⟩)) rfl (fun q hq => .inl ?_) ?_
  · exact HashMap.mem_modify.mp hq
  · simp only [Workspace.identities,Workspace.modifyPane,modify_of_lookup hl]
    simpa using paneIdentities_update hl [] new (by simpa using hk.2.2)

theorem kept_setPaneActive (h : WindowInv aw) {i : ℕ} {ws : Workspace F}
    (hi : aw.workspaces[i]? = some ws) {p : PaneId} (hp : p ∈ ws.panes) :
    Kept aw (aw.setPaneActive i p) :=
  kept_samePanes h hi ((h.ws ws (List.mem_of_getElem? hi)).setFocusedPane hp) rfl rfl

theorem paneForSurface_spec {ws : Workspace F} {s : SurfaceId} {p : PaneId}
    (h : ws.paneForSurface s = some p) :
    ∃ pane, ws.panes.lookup p = some pane ∧ pane.hasSurface s = true := by
  simp only [Workspace.paneForSurface,Option.map_eq_some_iff] at h
  obtain ⟨e,he,rfl⟩ := h
  exact ⟨e.2,AList.mem_lookup_iff.mpr (List.mem_of_find?_eq_some he),
    by simpa using List.find?_some he⟩

theorem paneForBrowser_spec {ws : Workspace F} {b : BrowserPanelId} {p : PaneId}
    (h : ws.paneForBrowser b = some p) :
    ∃ pane, ws.panes.lookup p = some pane ∧ pane.hasBrowser b = true := by
  simp only [Workspace.paneForBrowser,Option.map_eq_some_iff] at h
  obtain ⟨e,he,rfl⟩ := h
  exact ⟨e.2,AList.mem_lookup_iff.mpr (List.mem_of_find?_eq_some he),
    by simpa using List.find?_some he⟩

theorem findSurface_spec {s : SurfaceId} {i : ℕ} {ws : Workspace F} {p : PaneId}
    (h : aw.findWorkspaceWithSurface s = some (i,ws,p)) :
    aw.workspaces[i]? = some ws ∧ p ∈ ws.panes := by
  obtain ⟨hi,hp⟩ := findWs_spec h
  obtain ⟨pane,hl,-⟩ := paneForSurface_spec hp
  exact ⟨hi,WsShape.mem_of_lookup hl⟩

theorem findBrowser_spec {b : BrowserPanelId} {i : ℕ} {ws : Workspace F} {p : PaneId}
    (h : aw.findWorkspaceWithBrowser b = some (i,ws,p)) :
    aw.workspaces[i]? = some ws ∧ p ∈ ws.panes := by
  obtain ⟨hi,hp⟩ := findWs_spec h
  obtain ⟨pane,hl,-⟩ := paneForBrowser_spec hp
  exact ⟨hi,WsShape.mem_of_lookup hl⟩

/-! New workspaces. -/

theorem WindowInv.push (h : WindowInv aw) {ws : Workspace F} {ids : IdCounters}
    (hf : Fresh aw.ids ids ws.identities) (hws : WsInv ws) (hid : aw.ids.workspace ≤ ws.id)
    (hlt : ws.id < ids.workspace) (hpane : ∀ p : ℕ, p ∈ ws.panes → p < ids.pane)
    (page : Option ℕ) :
    Kept aw { aw with workspaces := aw.workspaces ++ [ws], currentPage := page, ids := ids } := by
  refine ⟨h.relist hf page ?_ ?_ ?_ ?_ ?_,fun x hx => ?_⟩
  · intro x hx
    simp only [List.mem_append,List.mem_singleton] at hx
    rcases hx with hx | rfl
    · exact h.ws x hx
    · exact hws
  · rw [List.map_append,List.nodup_append]
    refine ⟨h.ids_nodup,by simp,?_⟩
    rintro a ha b hb rfl
    simp only [List.map_cons,List.map_nil,List.mem_singleton] at hb
    obtain ⟨x,hx,rfl⟩ := List.mem_map.mp ha
    have := h.ids_lt x hx
    rw [hb] at this
    exact absurd this (Nat.not_lt.mpr hid)
  · intro x hx
    simp only [List.mem_append,List.mem_singleton] at hx
    rcases hx with hx | rfl
    · exact lt_of_lt_of_le (h.ids_lt x hx) hf.le.workspace
    · exact hlt
  · intro x hx p hp
    simp only [List.mem_append,List.mem_singleton] at hx
    rcases hx with hx | rfl
    · exact lt_of_lt_of_le (h.panes_lt x hx p hp) hf.le.pane
    · exact hpane p hp
  · simp only [List.flatMap_append,List.flatMap_singleton]
    exact List.perm_append_comm.subperm
  · simp only [AppWindow.identities,List.flatMap_append,List.mem_append]
    exact .inl hx

theorem wsInv_single (ws : Workspace F) (id : PaneId) (k : PanelKind)
    (hp : ws.panes = (∅ : HashMap PaneId Pane).insert id (.single id k))
    (ht : ws.splitTree = .newWithPane id) : WsInv ws := by
  have hl : ∀ p pane, ws.panes.lookup p = some pane → p = id ∧ pane = .single id k := by
    intro p pane h
    rw [hp,HashMap.lookup_insert_ite] at h
    split at h
    · rename_i he
      exact ⟨he,(Option.some.inj h).symm⟩
    · cases h
  refine ⟨⟨ht ▸ .newWithPane id,fun p => ?_,fun p pane h => ?_,fun p pane h _ => ?_⟩,
    fun p pane h => ?_,id,?_⟩
  · rw [hp,ht,WellFormed.panes_newWithPane,AList.mem_insert,List.mem_singleton]
    simp
  · obtain ⟨rfl,rfl⟩ := hl p pane h; rfl
  · obtain ⟨rfl,rfl⟩ := hl p pane h; exact (Pane.ok_single _ _).sel
  · obtain ⟨rfl,rfl⟩ := hl p pane h; exact (Pane.ok_single _ _).ne
  · rw [hp,AList.mem_insert]; exact .inl rfl

theorem fresh_surface (ids ids' : IdCounters) (hle : ids.Le ids')
    (hs : ids.surface < ids'.surface) : Fresh ids ids' [.surface ids.surface] :=
  ⟨hle,by simp,by simp [TabDragIdentity.Below],by simpa [TabDragIdentity.Below] using hs⟩

theorem fresh_browser (ids ids' : IdCounters) (hle : ids.Le ids')
    (hs : ids.browser < ids'.browser) : Fresh ids ids' [.browser ids.browser] :=
  ⟨hle,by simp,by simp [TabDragIdentity.Below],by simpa [TabDragIdentity.Below] using hs⟩

theorem kept_pushFresh (h : WindowInv aw) {ws : Workspace F}
    (hp : ws.panes = aw.freshWorkspace.panes) (ht : ws.splitTree = aw.freshWorkspace.splitTree)
    (hid : ws.id = aw.ids.workspace) : Kept aw (aw.takeWorkspaceIds.pushWorkspace ws) := by
  have hpanes : ws.panes = (∅ : HashMap PaneId Pane).insert aw.ids.pane
      (.single aw.ids.pane (.terminal aw.ids.surface)) := hp
  have hids : ws.identities = [.surface aw.ids.surface] := by
    rw [Workspace.identities,hpanes]; rfl
  refine h.push ?_ (wsInv_single ws _ _ hpanes ht) (le_of_eq hid.symm) ?_ ?_ _
  · rw [hids]
    exact fresh_surface _ _ ⟨Nat.le_succ _,Nat.le_succ _,Nat.le_succ _,le_rfl⟩ (Nat.lt_succ_self _)
  · rw [hid]; exact Nat.lt_succ_self _
  · intro p hpm
    rw [hpanes,AList.mem_insert] at hpm
    rcases hpm with rfl | hpm
    · exact Nat.lt_succ_self _
    · exact absurd hpm (AList.notMem_empty _)

theorem kept_newWorkspace (h : WindowInv aw) : Kept aw aw.newWorkspace :=
  kept_pushFresh h rfl rfl rfl

theorem kept_newRemoteWorkspace (h : WindowInv aw) (c : RemoteConfiguration)
    (port : Option UInt16) (id token : String) : Kept aw (aw.newRemoteWorkspace c port id token) :=
  kept_pushFresh h rfl rfl rfl

/-! Tabs and splits. -/

theorem kept_newPaneTab (h : WindowInv aw) : Kept aw aw.newPaneTab := by
  unfold AppWindow.newPaneTab
  split
  · exact .refl h
  rename_i i ws hc
  have hi := current_spec hc
  split
  · exact .refl h
  rename_i p hp
  have hm := (h.ws ws (List.mem_of_getElem? hi)).mem_of_focused hp
  refine kept_modifyPane h hi (fresh_surface aw.ids { aw.ids with surface := aw.ids.surface+1 }
    ⟨le_rfl,le_rfl,Nat.le_succ _,le_rfl⟩ (Nat.lt_succ_self _)) p hm (fun pane _ _ => ?_)
  refine ⟨rfl,Pane.ok_push _ _,?_⟩
  rw [Pane.addTab,Pane.identities_push]
  exact List.perm_append_comm

theorem WindowInv.pane_fresh (h : WindowInv aw) {i : ℕ} {ws : Workspace F}
    (hi : aw.workspaces[i]? = some ws) {p : ℕ} (hp : aw.ids.pane ≤ p) : p ∉ ws.panes := fun hm =>
  absurd (h.panes_lt ws (List.mem_of_getElem? hi) p hm) (Nat.not_lt.mpr hp)

theorem mem_addPane {ws : Workspace F} {pane : Pane} {p : PaneId} :
    p ∈ (ws.addPane pane).panes ↔ p = pane.id ∨ p ∈ ws.panes := AList.mem_insert _

theorem getElem?_modifyWs {i : ℕ} {ws : Workspace F} (hi : aw.workspaces[i]? = some ws)
    (g : Workspace F → Workspace F) : (aw.modifyWs i g).workspaces[i]? = some (g ws) := by
  simp [AppWindow.modifyWs,hi]

theorem modifyWs_modifyWs (aw : AppWindow F) (i : ℕ) (f g : Workspace F → Workspace F) :
    (aw.modifyWs i f).modifyWs i g = aw.modifyWs i (g ∘ f) := by
  simp only [AppWindow.modifyWs,List.modify_modify_eq]

section Splits

variable [F64Ops F]

theorem kept_addSplit (h : WindowInv aw) {i : ℕ} {ws : Workspace F}
    (hi : aw.workspaces[i]? = some ws) {ids : IdCounters} {k : PanelKind}
    (hf : Fresh aw.ids ids [panelDragIdentity k]) (hid : ids.pane = aw.ids.pane+1)
    {target : PaneId} (ht : target ∈ ws.panes) (o : Orientation) :
    Kept aw ({ aw with ids := ids }.modifyWs i
      (fun ws => AppWindow.addSplit ws target (.single aw.ids.pane k) o)) := by
  have hws := h.ws ws (List.mem_of_getElem? hi)
  have hfr : aw.ids.pane ∉ ws.panes := h.pane_fresh hi le_rfl
  refine kept_modify h hi hf (hws.add_split ht hfr (Pane.ok_single _ _) false o) rfl
    (fun p hp => ?_) ?_
  · rcases mem_addPane.mp hp with rfl | hp
    · exact .inr ⟨le_rfl,by rw [hid]; exact Nat.lt_succ_self _⟩
    · exact .inl hp
  · simp only [Workspace.identities,AppWindow.addSplit,Workspace.addPane]
    have hfr' : ws.panes.lookup (Pane.single aw.ids.pane k).id = none :=
      AList.lookup_eq_none.mpr hfr
    rw [paneIdentities_insert_fresh _ hfr',Pane.identities_single]

theorem kept_splitFocused (h : WindowInv aw) (o : Orientation) : Kept aw (aw.splitFocused o) := by
  unfold AppWindow.splitFocused
  split
  · exact .refl h
  rename_i i ws hc
  have hi := current_spec hc
  split
  · exact .refl h
  rename_i p hp
  exact kept_addSplit h hi (fresh_surface aw.ids
    { aw.ids with surface := aw.ids.surface+1, pane := aw.ids.pane+1 }
    ⟨le_rfl,Nat.le_succ _,Nat.le_succ _,le_rfl⟩ (Nat.lt_succ_self _)) rfl
    ((h.ws ws (List.mem_of_getElem? hi)).mem_of_focused hp) o

theorem kept_splitBrowser (h : WindowInv aw) {i : ℕ} {ws : Workspace F}
    (hi : aw.workspaces[i]? = some ws) {p : PaneId} (hp : p ∈ ws.panes) (o : Orientation)
    (url : String) (hs : aw.splitBrowserInWorkspace i p o url = some aw') : Kept aw aw' := by
  unfold AppWindow.splitBrowserInWorkspace at hs
  split at hs
  · cases hs
    have hk := kept_addSplit h hi (fresh_browser aw.ids { aw.ids with
      browser := aw.ids.browser+1, pane := aw.ids.pane+1 }
      ⟨le_rfl,Nat.le_succ _,le_rfl,Nat.le_succ _⟩ (Nat.lt_succ_self _))
      rfl (k := .browser aw.ids.browser url) hp o
    have hm := kept_setPaneActive hk.inv (getElem?_modifyWs hi _)
      (mem_addPane.mpr (.inl rfl) : aw.ids.pane ∈ (AppWindow.addSplit ws p
        (.single aw.ids.pane (.browser aw.ids.browser url)) o).panes)
    rw [AppWindow.setPaneActive,modifyWs_modifyWs] at hm
    exact hk.trans hm
  · cases hs

theorem kept_splitFocusedBrowser (h : WindowInv aw) (o : Orientation) (url : String)
    (hs : aw.splitFocusedBrowser o url = some aw') : Kept aw aw' := by
  unfold AppWindow.splitFocusedBrowser at hs
  split at hs
  · cases hs; exact .refl h
  rename_i i ws hc
  have hi := current_spec hc
  split at hs
  · cases hs; exact .refl h
  rename_i p hp
  exact kept_splitBrowser h hi ((h.ws ws (List.mem_of_getElem? hi)).mem_of_focused hp) o url hs

theorem kept_openBrowserPopup (h : WindowInv aw) (registered : Bool) (opener : BrowserPanelId)
    (url : String) (hs : aw.openBrowserPopup registered opener url = some aw') : Kept aw aw' := by
  unfold AppWindow.openBrowserPopup at hs
  split at hs
  · cases hs; exact .refl h
  split at hs
  · rename_i i ws p hf
    obtain ⟨hi,hp⟩ := findBrowser_spec hf
    exact kept_splitBrowser h hi hp .horizontal url hs
  · simp only at hs
    split at hs
    · cases hs; exact .refl h
    rename_i p hp
    obtain ⟨ws,hi,hfoc⟩ := Option.bind_eq_some_iff.mp hp
    exact kept_splitBrowser h hi ((h.ws ws (List.mem_of_getElem? hi)).mem_of_focused hfoc)
      .horizontal url hs

theorem kept_movePane (h : WindowInv aw) (source target : PaneId) (before : Bool)
    (o : Orientation) : Kept aw (aw.movePane source target before o) := by
  unfold AppWindow.movePane
  split
  · exact .refl h
  rename_i i ws hc
  have hi := current_spec hc
  have hws := h.ws ws (List.mem_of_getElem? hi)
  split
  · exact .refl h
  rename_i hcond
  rw [not_or] at hcond
  have hsrc : source ∈ ws.panes := HashMap.mem_of_not_isNone hcond.1
  have hk : Kept aw (aw.modifyWs i (fun ws' => { ws' with
      splitTree := (ws.splitTree.movePaneAdjacent source target before o).2 })) :=
    kept_samePanes h hi (hws.with_tree (hws.tree.movePaneAdjacent source target before o)
      (fun p => (hws.tree.panes_movePaneAdjacent source target before o).mem_iff)) rfl rfl
  simp only
  split
  · exact hk.trans (kept_setPaneActive hk.inv (getElem?_modifyWs hi _) hsrc)
  · exact hk

end Splits

/-! Moving tabs. -/

/-- What is left of the invariant while one pane may have lost its last tab. -/
structure WsHole (ws : Workspace F) (p : PaneId) : Prop where
  shape : WsShape ws
  tabs : ∀ q pane, ws.panes.lookup q = some pane → q ≠ p → pane.tabs ≠ []

theorem WsHole.wsInv {ws : Workspace F} {p : PaneId} (h : WsHole ws p)
    (hp : ∀ pane, ws.panes.lookup p = some pane → pane.tabs ≠ []) (hne : ∃ q, q ∈ ws.panes) :
    WsInv ws :=
  ⟨h.shape,fun q pane hl => by
    by_cases hq : q = p
    · subst hq; exact hp pane hl
    · exact h.tabs q pane hl hq,hne⟩

theorem takeTab_spec {ws ws' : Workspace F} (h : WsInv ws) {p : PaneId} {idx : ℕ} {tab : Tab}
    (ht : AppWindow.takeTab ws p idx = some (tab,ws')) :
    ws'.id = ws.id ∧ ws'.splitTree = ws.splitTree ∧ WsHole ws' p ∧
      (∀ q, q ∈ ws'.panes ↔ q ∈ ws.panes) ∧
      ws.identities.Perm (tab.identity :: ws'.identities) ∧
      ∃ pane pane', ws.panes.lookup p = some pane ∧ ws'.panes.lookup p = some pane' ∧
        removeTabPreservingSelection pane idx = some (tab,pane') := by
  obtain ⟨pane,hl,hr⟩ := Option.bind_eq_some_iff.mp ht
  obtain ⟨⟨t,pane'⟩,hrem,he⟩ := Option.map_eq_some_iff.mp hr
  obtain ⟨rfl,rfl⟩ := Prod.mk.inj he
  have hm := WsShape.mem_of_lookup hl
  obtain ⟨hid,hsel,hperm⟩ := removeTabPreservingSelection_spec hrem (h.ok hl).sel
  refine ⟨rfl,rfl,⟨h.toWsShape.insert_pane hm (hid.trans (h.paneId p pane hl)) hsel,
    fun q x hx hq => ?_⟩,fun q => ?_,?_,pane,pane',hl,by simp,hrem⟩
  · simp only [HashMap.lookup_insert_ite,if_neg hq] at hx
    exact h.tabs q x hx
  · simp only [AList.mem_insert]
    exact ⟨fun hq => hq.elim (fun he => he ▸ hm) id,.inr⟩
  · exact (paneIdentities_update hl [t.identity] [] (by simpa using hperm.symm)).symm

theorem putTab_spec {ws ws' : Workspace F} {p q : PaneId} (h : WsHole ws p) {idx : ℕ} {tab : Tab}
    (ht : AppWindow.putTab ws q idx tab = some ws') :
    ws'.id = ws.id ∧ ws'.splitTree = ws.splitTree ∧ WsHole ws' p ∧
      (∀ r, r ∈ ws'.panes ↔ r ∈ ws.panes) ∧
      ws'.identities.Perm (tab.identity :: ws.identities) ∧ q ∈ ws.panes ∧
      (∀ r, r ≠ q → ws'.panes.lookup r = ws.panes.lookup r) ∧
      ∀ pane, ws'.panes.lookup q = some pane → pane.tabs ≠ [] := by
  obtain ⟨pane,hl,hr⟩ := Option.bind_eq_some_iff.mp ht
  obtain ⟨pane',hins,rfl⟩ := Option.map_eq_some_iff.mp hr
  have hm := WsShape.mem_of_lookup hl
  obtain ⟨hid,hok,hperm⟩ := insertSelected_spec hins
  refine ⟨rfl,rfl,⟨h.shape.insert_pane hm (hid.trans (h.shape.paneId q pane hl))
    (fun _ => hok.sel),fun r x hx hr => ?_⟩,fun r => ?_,?_,hm,fun r hr => ?_,fun x hx => ?_⟩
  · simp only [HashMap.lookup_insert_ite] at hx
    split at hx
    · cases hx; exact hok.ne
    · exact h.tabs r x hx hr
  · simp only [AList.mem_insert]
    exact ⟨fun hq => hq.elim (fun he => he ▸ hm) id,.inr⟩
  · exact paneIdentities_update hl [] [tab.identity] (by simpa using hperm)
  · simp only [HashMap.lookup_insert_ite,if_neg hr]
  · simp only [HashMap.lookup_insert_ite,if_true,Option.some.injEq] at hx
    subst hx
    exact hok.ne

theorem dropIfEmpty_spec {ws : Workspace F} {p : PaneId} (h : WsHole ws p)
    (hother : ∃ q ∈ ws.panes, q ≠ p) :
    WsInv (AppWindow.dropIfEmpty ws p) ∧ (AppWindow.dropIfEmpty ws p).id = ws.id ∧
      (AppWindow.dropIfEmpty ws p).identities.Perm ws.identities ∧
      (∀ q, q ∈ (AppWindow.dropIfEmpty ws p).panes → q ∈ ws.panes) ∧
      ∀ q, q ≠ p → q ∈ ws.panes → q ∈ (AppWindow.dropIfEmpty ws p).panes := by
  obtain ⟨q,hq,hqp⟩ := hother
  unfold AppWindow.dropIfEmpty
  split
  · rename_i hany
    obtain ⟨pane,hl⟩ : ∃ pane, ws.panes.lookup p = some pane := by
      rcases hl : ws.panes.lookup p with _ | pane
      · simp [hl] at hany
      · exact ⟨pane,rfl⟩
    have hids : pane.identities = [] := by
      rw [hl] at hany
      simp only [Option.any_some,decide_eq_true_eq] at hany
      simp [Pane.identities,hany]
    refine ⟨⟨h.shape.remove_pane p,fun r x hx => ?_,q,AList.mem_erase.mpr ⟨hqp,hq⟩⟩,rfl,?_,
      fun r hr => (AList.mem_erase.mp hr).2,fun r hr hm => AList.mem_erase.mpr ⟨hr,hm⟩⟩
    · simp only [Workspace.removePane,HashMap.lookup_erase_ite] at hx
      split at hx
      · cases hx
      · rename_i hr; exact h.tabs r x hx hr
    · have := (paneIdentities_erase hl).symm
      rw [hids] at this
      exact this
  · rename_i hany
    refine ⟨h.wsInv (fun pane hl hemp => hany ?_) ⟨q,hq⟩,rfl,.refl _,fun _ hr => hr,
      fun _ _ hr => hr⟩
    rw [hl]
    simpa using hemp

theorem dropIfEmpty_addPane (ws : Workspace F) {pane : Pane} {p : PaneId} (h : p ≠ pane.id) :
    AppWindow.dropIfEmpty (ws.addPane pane) p = (AppWindow.dropIfEmpty ws p).addPane pane := by
  unfold AppWindow.dropIfEmpty
  have hl : (ws.addPane pane).panes.lookup p = ws.panes.lookup p := by
    simp only [Workspace.addPane,HashMap.lookup_insert_ite,if_neg h]
  rw [hl]
  split
  · simp only [Workspace.addPane,Workspace.removePane,HashMap.erase_insert_of_ne _ h]
  · rfl

theorem paneFromTab_spec (id : PaneId) (t : Tab) :
    (paneFromTab id t).id = id ∧ (paneFromTab id t).Ok ∧
      (paneFromTab id t).identities = [t.identity] :=
  ⟨rfl,Pane.ok_of_sel (by simp [paneFromTab,Pane.single]),rfl⟩

theorem putWs_spec {i : ℕ} {o : Option (Workspace F)} (h : aw.putWs i o = some aw') :
    ∃ ws, o = some ws ∧ aw' = aw.modifyWs i (fun _ => ws) := by
  obtain ⟨ws,hw,rfl⟩ := Option.map_eq_some_iff.mp h
  exact ⟨ws,hw,rfl⟩

theorem WsShape.mem_of_node {ws : Workspace F} (h : WsShape ws) {p : PaneId}
    (hn : ¬ (ws.splitTree.nodeIdForPane p).isNone = true) : p ∈ ws.panes := by
  rw [h.keys,← h.tree.nodeIdForPane_isSome]
  simpa [Option.isSome_iff_ne_none] using hn

section Splits

variable [F64Ops F]

theorem kept_retab (h : WindowInv aw) {i : ℕ} {ws ws₁ ws' : Workspace F}
    (hi : aw.workspaces[i]? = some ws) (hws : WsInv ws₁) (hid : ws₁.id = ws.id) {tab : Tab}
    (hperm : ws.identities.Perm (tab.identity :: ws₁.identities))
    (hpanes : ∀ p, p ∈ ws₁.panes → p ∈ ws.panes) {target : PaneId} (ht : target ∈ ws₁.panes)
    {before : Bool} {o : Orientation}
    (he : AppWindow.expectSplit (ws₁.addPane (paneFromTab aw.ids.pane tab)) before target
      aw.ids.pane o = some ws') :
    Kept aw ({ aw with ids := { aw.ids with pane := aw.ids.pane+1 } }.modifyWs i
      (fun _ => ws'.setFocusedPane aw.ids.pane)) := by
  obtain ⟨hpid,hpok,hpids⟩ := paneFromTab_spec aw.ids.pane tab
  have hfr : aw.ids.pane ∉ ws₁.panes := fun hm => h.pane_fresh hi le_rfl (hpanes _ hm)
  have hw' : ws' = { ws₁.addPane (paneFromTab aw.ids.pane tab) with
      splitTree := (ws₁.splitTree.splitAt before target aw.ids.pane o).2 } := by
    unfold AppWindow.expectSplit at he
    split at he
    · cases he
    · rename_i t hsplit
      cases he
      rw [show t = _ from (congrArg Prod.snd hsplit).symm]
      rfl
  have hinv : WsInv ws' := hw' ▸ hws.add_split ht hfr hpok before o
  have hmem : aw.ids.pane ∈ ws'.panes := by
    rw [hw']; exact mem_addPane.mpr (.inl rfl)
  have hfresh : Fresh aw.ids { aw.ids with pane := aw.ids.pane+1 } [] :=
    ⟨⟨le_rfl,Nat.le_succ _,le_rfl,le_rfl⟩,.nil,by simp,by simp⟩
  refine kept_modify h hi hfresh (hinv.setFocusedPane hmem) ?_ (fun p hp => ?_) ?_
  · rw [hw']; exact hid
  · have hp' : p ∈ ws'.panes := hp
    rw [hw'] at hp'
    rcases mem_addPane.mp hp' with hp' | hp'
    · exact .inr ⟨le_of_eq hp'.symm,hp' ▸ Nat.lt_succ_self _⟩
    · exact .inl (hpanes p hp')
  · show (paneIdentities ws'.panes).Perm _
    rw [hw']
    have hn : ws₁.panes.lookup (paneFromTab aw.ids.pane tab).id = none :=
      AList.lookup_eq_none.mpr hfr
    simp only [Workspace.addPane]
    rw [paneIdentities_insert_fresh _ hn,hpids]
    exact hperm.symm

theorem kept_splitTabToPane (h : WindowInv aw) (source : PaneId) (identity : TabDragIdentity)
    (o : Orientation) (before widgets : Bool)
    (hs : aw.splitTabToPane source identity o before widgets = some aw') : Kept aw aw' := by
  unfold AppWindow.splitTabToPane at hs
  split at hs
  · cases hs; exact .refl h
  rename_i i ws hc
  have hi := current_spec hc
  have hws := h.ws ws (List.mem_of_getElem? hi)
  split at hs
  · cases hs; exact .refl h
  rename_i pane hl
  split at hs
  · cases hs; exact .refl h
  rename_i hcond
  split at hs
  · cases hs; exact .refl h
  rename_i idx hidx
  split at hs
  · cases hs; exact .refl h
  obtain ⟨w,hw,rfl⟩ := putWs_spec hs
  obtain ⟨⟨tab,ws₁⟩,htake,hw⟩ := Option.bind_eq_some_iff.mp hw
  obtain ⟨ws₂,hsplit,rfl⟩ := Option.map_eq_some_iff.mp hw
  obtain ⟨hid,-,hhole,hmem,hperm,pane₁,pane',hl₁,hl',hrem⟩ := takeTab_spec hws htake
  obtain rfl := Option.some.inj (hl.symm.trans hl₁)
  -- the source keeps a tab: it had two
  have hne : pane'.tabs ≠ [] := by
    have hlen := (removeTabPreservingSelection_spec hrem (hws.ok hl).sel).2.2.length_eq
    simp only [Pane.identities,List.length_map,List.length_cons] at hlen
    rw [not_or] at hcond
    intro he
    rw [he] at hlen
    simp at hlen
    omega
  have hsrc : source ∈ ws₁.panes := (hmem source).mpr (WsShape.mem_of_lookup hl)
  exact kept_retab h hi (hhole.wsInv (fun x hx => Option.some.inj (hl'.symm.trans hx) ▸ hne)
    ⟨source,hsrc⟩) hid hperm (fun p hp => (hmem p).mp hp) hsrc hsplit

theorem kept_splitTabToPaneTarget (h : WindowInv aw) (source : PaneId)
    (identity : TabDragIdentity) (target : PaneId) (o : Orientation) (before widgets : Bool)
    (hs : aw.splitTabToPaneTarget source identity target o before widgets = some aw') :
    Kept aw aw' := by
  unfold AppWindow.splitTabToPaneTarget at hs
  split at hs
  · cases hs; exact .refl h
  rename_i i ws hc
  have hi := current_spec hc
  have hws := h.ws ws (List.mem_of_getElem? hi)
  split at hs
  · cases hs; exact .refl h
  rename_i hcond
  simp only [not_or] at hcond
  split at hs
  · cases hs; exact .refl h
  rename_i idx hidx
  split at hs
  · cases hs; exact .refl h
  obtain ⟨w,hw,rfl⟩ := putWs_spec hs
  obtain ⟨⟨tab,ws₁⟩,htake,hw⟩ := Option.bind_eq_some_iff.mp hw
  obtain ⟨ws₂,hsplit,rfl⟩ := Option.map_eq_some_iff.mp hw
  obtain ⟨hid,-,hhole,hmem,hperm,-⟩ := takeTab_spec hws htake
  have hsrc : source ∈ ws.panes := hws.toWsShape.mem_of_node hcond.2.1
  have htgt : target ∈ ws.panes := hws.toWsShape.mem_of_node hcond.2.2
  have hfr : source ≠ aw.ids.pane := fun he => h.pane_fresh hi (le_of_eq he.symm) hsrc
  rw [dropIfEmpty_addPane ws₁ hfr] at hsplit
  obtain ⟨hinv,hid',hperm',hsub,hkeep⟩ := dropIfEmpty_spec hhole
    ⟨target,(hmem target).mpr htgt,Ne.symm hcond.1⟩
  exact kept_retab h hi hinv (hid'.trans hid) (hperm.trans (hperm'.symm.cons _))
    (fun p hp => (hmem p).mp (hsub p hp))
    (hkeep target (Ne.symm hcond.1) ((hmem target).mpr htgt)) hsplit

end Splits

theorem kept_moveTabToPane (h : WindowInv aw) (source : PaneId) (identity : TabDragIdentity)
    (target : PaneId) (insertion : TabInsertion) (widgets : Bool)
    (hs : aw.moveTabToPane source identity target insertion widgets = some aw') :
    Kept aw aw' := by
  unfold AppWindow.moveTabToPane at hs
  split at hs
  · cases hs; exact .refl h
  rename_i i ws hc
  have hi := current_spec hc
  have hws := h.ws ws (List.mem_of_getElem? hi)
  split at hs
  · cases hs; exact .refl h
  rename_i hcond
  simp only [not_or] at hcond
  split at hs
  · cases hs; exact .refl h
  split at hs
  · cases hs; exact .refl h
  split at hs
  · cases hs; exact .refl h
  obtain ⟨w,hw,rfl⟩ := putWs_spec hs
  obtain ⟨⟨tab,ws₁⟩,htake,hw⟩ := Option.bind_eq_some_iff.mp hw
  obtain ⟨ws₂,hput,rfl⟩ := Option.map_eq_some_iff.mp hw
  obtain ⟨hid₁,-,hhole₁,hmem₁,hperm₁,-⟩ := takeTab_spec hws htake
  obtain ⟨hid₂,-,hhole₂,hmem₂,hperm₂,-,-,-⟩ := putTab_spec hhole₁ hput
  have htgt : target ∈ ws.panes := hws.toWsShape.mem_of_node hcond.2.2
  have htgt₂ : target ∈ ws₂.panes := (hmem₂ target).mpr ((hmem₁ target).mpr htgt)
  obtain ⟨hinv,hid₃,hperm₃,hsub,hkeep⟩ := dropIfEmpty_spec hhole₂
    ⟨target,htgt₂,Ne.symm hcond.1⟩
  refine kept_modify h hi (.nil _) (hinv.setFocusedPane
    (hkeep target (Ne.symm hcond.1) htgt₂)) (hid₃.trans (hid₂.trans hid₁)) (fun p hp => .inl ?_) ?_
  · exact (hmem₁ p).mp ((hmem₂ p).mp (hsub p hp))
  · exact hperm₃.trans (hperm₂.trans hperm₁.symm)

theorem kept_reorderTabInPane (h : WindowInv aw) (p : PaneId) (identity : TabDragIdentity)
    (insertion : TabInsertion) (widgets : Bool)
    (hs : aw.reorderTabInPane p identity insertion widgets = some aw') : Kept aw aw' := by
  unfold AppWindow.reorderTabInPane at hs
  split at hs
  · cases hs; exact .refl h
  rename_i i ws hc
  have hi := current_spec hc
  have hws := h.ws ws (List.mem_of_getElem? hi)
  split at hs
  · cases hs; exact .refl h
  rename_i pane hl
  split at hs
  · cases hs; exact .refl h
  split at hs
  · rename_i fromIndex insertionIndex hfrom _
    split at hs
    · cases hs; exact .refl h
    obtain ⟨w,hw,rfl⟩ := putWs_spec hs
    obtain ⟨pane',hre,rfl⟩ := Option.map_eq_some_iff.mp hw
    obtain ⟨tab,htab,-⟩ := tabIndexForIdentity_spec hfrom
    have hlt := (List.getElem?_eq_some_iff.mp htab).1
    obtain ⟨hid,hok,hperm⟩ := reorder_spec (hws.ok hl) hlt hre
    have hm := WsShape.mem_of_lookup hl
    refine kept_modify h hi (.nil _) (hws.insert_pane hm (hid.trans (hws.paneId p pane hl)) hok)
      rfl (fun q hq => .inl ?_) ?_
    · simp only [AList.mem_insert] at hq
      rcases hq with rfl | hq
      · exact hm
      · exact hq
    · exact paneIdentities_update hl [] [] hperm
  · cases hs; exact .refl h

end Limux
