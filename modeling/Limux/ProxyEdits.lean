import Limux.ProxyTrack

/-! Browsers under the operations of the window: with one proxy setting all along, an
operation leaves every browser on the route of its workspace. -/
namespace Limux

variable {F : Type}

/-- All browsers are on the route of their workspace when the session has proxy `e`. -/
def AppWindow.OnRoute (e : Option ProxyEndpoint) (aw : AppWindow F) : Prop :=
  ∀ ws ∈ aw.workspaces, ws.OnRoute e

namespace AppWindow.OnRoute

variable {e : Option ProxyEndpoint} {aw aw' : AppWindow F}

theorem view (h : aw.OnRoute e) (hs : aw'.workspaces ⊆ aw.workspaces) : aw'.OnRoute e :=
  fun ws hws => h ws (hs hws)

theorem showPage (h : aw.OnRoute e) (page : Option ℕ) :
    AppWindow.OnRoute e { aw with currentPage := page } := h

theorem modifyWs (h : aw.OnRoute e) (hw : aw'.workspaces = aw.workspaces) {i : ℕ}
    {f : Workspace F → Workspace F}
    (hf : ∀ ws, aw.workspaces[i]? = some ws → ws.OnRoute e → (f ws).OnRoute e) :
    (aw'.modifyWs i f).OnRoute e := by
  intro ws' hws'
  rw [AppWindow.modifyWs,hw] at hws'
  rcases mem_modify hws' with hm | ⟨ws,hi,rfl⟩
  · exact h ws' hm
  · exact hf ws hi (h ws (List.mem_of_getElem? hi))

theorem putWs (h : aw.OnRoute e) (hw : aw'.workspaces = aw.workspaces) {i : ℕ}
    {o : Option (Workspace F)} (ho : ∀ ws ∈ o, ws.OnRoute e) {aw'' : AppWindow F}
    (hs : aw'.putWs i o = some aw'') : aw''.OnRoute e := by
  obtain ⟨ws,hws,rfl⟩ := Option.map_eq_some_iff.mp hs
  exact h.modifyWs hw (fun _ _ _ => ho ws hws)

theorem setPaneActive (h : aw.OnRoute e) (i : ℕ) (p : PaneId) : (aw.setPaneActive i p).OnRoute e :=
  h.modifyWs rfl (fun _ _ hws => hws.setFocusedPane p)

theorem refocus (h : aw.OnRoute e) (i : ℕ) : (aw.refocus i).OnRoute e := by
  unfold AppWindow.refocus
  split
  · exact h.setPaneActive i _
  · exact h

theorem removePaneFromSplit (h : aw.OnRoute e) (i : ℕ) (p : PaneId) :
    (aw.removePaneFromSplit i p).OnRoute e := h.modifyWs rfl (fun _ _ hws => hws.dropPane p)

theorem removeWorkspaceAt (h : aw.OnRoute e) {i : ℕ} (hs : aw.removeWorkspaceAt i = some aw') :
    aw'.OnRoute e := by
  unfold AppWindow.removeWorkspaceAt at hs
  split_ifs at hs
  cases hs
  exact h.view List.eraseIdx_subset

theorem closePanel (h : aw.OnRoute e) {i : ℕ} {ws : Workspace F} {p : PaneId} {rm : Pane → Pane}
    (hr : ∀ pane, (rm pane).identities ⊆ pane.identities)
    (hs : aw.closePanel i ws p rm = some aw') : aw'.OnRoute e := by
  unfold AppWindow.closePanel at hs
  simp only at hs
  split_ifs at hs
  · exact h.removeWorkspaceAt hs
  · cases hs
    exact (h.removePaneFromSplit i p).refocus i
  · cases hs
    exact h.modifyWs rfl (fun _ _ hws => hws.modifyPane_of_subset p hr)

theorem newPaneTab (h : aw.OnRoute e) : aw.newPaneTab.OnRoute e := by
  unfold AppWindow.newPaneTab
  split
  · exact h
  · split
    · exact h
    · refine h.modifyWs rfl (fun ws _ hws => hws.modifyPane _ (fun pane b hb => ?_))
      rw [Pane.addTab,Pane.identities_push] at hb
      exact .inl (by simpa [panelDragIdentity] using hb)

section Splits

variable [F64Ops F]

theorem splitFocused (h : aw.OnRoute e) (o : Orientation) : (aw.splitFocused o).OnRoute e := by
  unfold AppWindow.splitFocused
  split
  · exact h
  · split
    · exact h
    · refine h.modifyWs rfl (fun ws _ hws => hws.addSplit _ o (fun b hb => ?_))
      simp [Pane.newWithId,Pane.identities_single,panelDragIdentity] at hb

/-- A browser opens in a workspace that has the endpoint of the session. -/
theorem splitBrowserInWorkspace (h : aw.OnRoute e) {i : ℕ} {p : PaneId} {o : Orientation}
    {url : String} (he : ∀ ws, aw.workspaces[i]? = some ws → e = ws.proxyEndpoint)
    (hs : aw.splitBrowserInWorkspace i p o url = some aw') : aw'.OnRoute e := by
  unfold AppWindow.splitBrowserInWorkspace at hs
  split_ifs at hs
  cases hs
  exact h.modifyWs rfl (fun ws hi hws =>
    (hws.addSplit p o (fun _ _ => he ws hi)).setFocusedPane _)

theorem splitFocusedBrowser (h : aw.OnRoute e) {o : Orientation} {url : String}
    (he : ∀ i ws, aw.current = some (i,ws) → ws.focusedPane.isSome → e = ws.proxyEndpoint)
    (hs : aw.splitFocusedBrowser o url = some aw') : aw'.OnRoute e := by
  unfold AppWindow.splitFocusedBrowser at hs
  split at hs
  · cases hs; exact h
  rename_i i ws hc
  split at hs
  · cases hs; exact h
  rename_i p hp
  refine h.splitBrowserInWorkspace (fun v hv => ?_) hs
  rw [current_spec hc] at hv
  cases hv
  exact he i ws hc (by rw [hp]; rfl)

/-- A popup beside its opener shares the route of the opener. -/
theorem openBrowserPopup (h : aw.OnRoute e) {registered : Bool} {opener : BrowserPanelId}
    {url : String}
    (he : registered = true → aw.findWorkspaceWithBrowser opener = none →
      ∀ ws, aw.workspaces[aw.currentPage.getD 0]? = some ws →
        ws.focusedPane.isSome → ws.proxyEndpoint = e)
    (hs : aw.openBrowserPopup registered opener url = some aw') : aw'.OnRoute e := by
  unfold AppWindow.openBrowserPopup at hs
  split at hs
  · cases hs; exact h
  rename_i hreg
  split at hs
  · rename_i i ws p hf
    refine h.splitBrowserInWorkspace (fun v hv => ?_) hs
    obtain ⟨hi,hp⟩ := findWs_spec hf
    obtain ⟨pane,hl,hb⟩ := paneForBrowser_spec hp
    rw [hi] at hv
    cases hv
    exact h ws (List.mem_of_getElem? hi) opener (subset_paneIdentities hl
      (Pane.hasBrowser_iff.mp hb))
  · rename_i hnone
    simp only at hs
    split at hs
    · cases hs; exact h
    · rename_i p hp
      refine h.splitBrowserInWorkspace (fun v hv => ?_) hs
      rw [hv,Option.bind_some] at hp
      exact (he (by simpa using hreg) hnone v hv (by rw [hp]; rfl)).symm

theorem movePane (h : aw.OnRoute e) (source target : PaneId) (before : Bool) (o : Orientation) :
    (aw.movePane source target before o).OnRoute e := by
  unfold AppWindow.movePane
  split
  · exact h
  · rename_i i ws hc
    split
    · exact h
    · have hstep : (aw.modifyWs i (fun ws' => { ws' with
          splitTree := (ws.splitTree.movePaneAdjacent source target before o).2 })).OnRoute e :=
        h.modifyWs rfl (fun _ _ hws => hws.congr rfl rfl)
      simp only
      split
      · exact hstep.setPaneActive _ _
      · exact hstep

theorem splitTabToPane (h : aw.OnRoute e) {source : PaneId} {x : TabDragIdentity}
    {o : Orientation} {before widgets : Bool}
    (hs : aw.splitTabToPane source x o before widgets = some aw') : aw'.OnRoute e := by
  unfold AppWindow.splitTabToPane at hs
  split at hs
  · cases hs; exact h
  rename_i i ws hc
  split at hs
  · cases hs; exact h
  split at hs
  · cases hs; exact h
  split at hs
  · cases hs; exact h
  split at hs
  · cases hs; exact h
  simp only at hs
  refine h.putWs (by rfl) (fun ws' hws' => ?_) hs
  obtain ⟨⟨tab,ws₁⟩,h₁,h₂⟩ := Option.bind_eq_some_iff.mp hws'
  obtain ⟨ws₂,h₃,rfl⟩ := Option.map_eq_some_iff.mp h₂
  obtain ⟨hws,hp,hb,-⟩ := (h ws (List.mem_of_getElem? (current_spec hc))).takeTab h₁
  have hadd : (ws₁.addPane (paneFromTab aw.ids.pane tab)).OnRoute e := hws.insert _
    (fun b hm => (hb b (List.mem_singleton.mp hm).symm).trans hp.symm)
  exact (Workspace.OnRoute.expectSplit hadd h₃).setFocusedPane _

theorem splitTabToPaneTarget (h : aw.OnRoute e) {source target : PaneId} {x : TabDragIdentity}
    {o : Orientation} {before widgets : Bool}
    (hs : aw.splitTabToPaneTarget source x target o before widgets = some aw') :
    aw'.OnRoute e := by
  unfold AppWindow.splitTabToPaneTarget at hs
  split at hs
  · cases hs; exact h
  rename_i i ws hc
  split at hs
  · cases hs; exact h
  split at hs
  · cases hs; exact h
  split at hs
  · cases hs; exact h
  simp only at hs
  refine h.putWs (by rfl) (fun ws' hws' => ?_) hs
  obtain ⟨⟨tab,ws₁⟩,h₁,h₂⟩ := Option.bind_eq_some_iff.mp hws'
  obtain ⟨ws₂,h₃,rfl⟩ := Option.map_eq_some_iff.mp h₂
  obtain ⟨hws,hp,hb,-⟩ := (h ws (List.mem_of_getElem? (current_spec hc))).takeTab h₁
  have hadd : (ws₁.addPane (paneFromTab aw.ids.pane tab)).OnRoute e := hws.insert _
    (fun b hm => (hb b (List.mem_singleton.mp hm).symm).trans hp.symm)
  exact (Workspace.OnRoute.expectSplit (hadd.dropIfEmpty source) h₃).setFocusedPane _

end Splits

theorem moveTabToPane (h : aw.OnRoute e) {source target : PaneId} {x : TabDragIdentity}
    {insertion : TabInsertion} {widgets : Bool}
    (hs : aw.moveTabToPane source x target insertion widgets = some aw') : aw'.OnRoute e := by
  unfold AppWindow.moveTabToPane at hs
  split at hs
  · cases hs; exact h
  rename_i i ws hc
  split at hs
  · cases hs; exact h
  split at hs
  · cases hs; exact h
  split at hs
  · cases hs; exact h
  split at hs
  · cases hs; exact h
  refine h.putWs rfl (fun ws' hws' => ?_) hs
  obtain ⟨⟨tab,ws₁⟩,h₁,h₂⟩ := Option.bind_eq_some_iff.mp hws'
  obtain ⟨ws₂,h₃,rfl⟩ := Option.map_eq_some_iff.mp h₂
  obtain ⟨hws,hp,hb,-⟩ := (h ws (List.mem_of_getElem? (current_spec hc))).takeTab h₁
  have hput := hws.putTab (fun b hi => (hb b hi).trans hp.symm) h₃
  exact (hput.dropIfEmpty source).setFocusedPane target

theorem reorderTabInPane (h : aw.OnRoute e) {p : PaneId} {x : TabDragIdentity}
    {insertion : TabInsertion} {widgets : Bool}
    (hs : aw.reorderTabInPane p x insertion widgets = some aw') : aw'.OnRoute e := by
  unfold AppWindow.reorderTabInPane at hs
  split at hs
  · cases hs; exact h
  rename_i i ws hc
  split at hs
  · cases hs; exact h
  rename_i pane hl
  split at hs
  · cases hs; exact h
  split at hs
  · split at hs
    · cases hs; exact h
    · refine h.putWs rfl (fun ws' hws' => ?_) hs
      obtain ⟨pane',hr,rfl⟩ := Option.map_eq_some_iff.mp hws'
      have hws := h ws (List.mem_of_getElem? (current_spec hc))
      exact hws.insert p (fun b hm => hws b (subset_paneIdentities hl (reorder_subset hr hm)))
  · cases hs; exact h

theorem moveTabToWorkspace (h : aw.OnRoute e) {source : PaneId} {x : TabDragIdentity}
    {targetWs : WorkspaceId} {widgets : Bool}
    (he : ∀ b, x = .browser b → widgets = true → ∀ i ws j v pane,
      aw.findWorkspaceWithPane source = some (i,ws,pane) → (tabIndexForIdentity pane x).isSome →
      aw.findWorkspaceById targetWs = some (j,v,()) → i ≠ j → v.proxyEndpoint = e)
    (hs : aw.moveTabToWorkspace source x targetWs widgets = some aw') : aw'.OnRoute e := by
  unfold AppWindow.moveTabToWorkspace at hs
  split at hs
  · rename_i si sws spane ti tws u hf ht
    split at hs
    · cases hs; exact h
    rename_i hne
    split at hs
    · cases hs; exact h
    split at hs
    · cases hs; exact h
    split at hs
    · cases hs; exact h
    rename_i idx hidx
    split at hs
    · cases hs; exact h
    rename_i hwid
    obtain ⟨⟨tab,sws'⟩,h₁,hs⟩ := Option.bind_eq_some_iff.mp hs
    obtain ⟨tpane,-,hs⟩ := Option.bind_eq_some_iff.mp hs
    obtain ⟨tws',h₂,hs⟩ := Option.bind_eq_some_iff.mp hs
    obtain ⟨hsi,hl⟩ := findWs_spec hf
    obtain ⟨hsws,-,-,pane,hl',hat⟩ := (h sws (List.mem_of_getElem? hsi)).takeTab h₁
    -- the tab that is moved is the one asked for
    have htab : tab.identity = x := by
      obtain ⟨t,hti,htx⟩ := tabIndexForIdentity_spec hidx
      rw [hl] at hl'
      cases hl'
      rw [hti] at hat
      cases hat
      exact htx
    have htws := (h tws (List.mem_of_getElem? (findWs_spec ht).1)).putTab (fun b hb =>
      (he b (htab.symm.trans hb) (by simpa using hwid) si sws ti tws spane hf
        (by rw [hidx]; rfl) ht hne).symm) h₂
    have hboth : ((aw.modifyWs si (fun _ => sws')).modifyWs ti (fun _ => tws')).OnRoute e :=
      (h.modifyWs rfl (fun _ _ _ => hsws)).modifyWs rfl (fun _ _ _ => htws)
    simp only at hs
    obtain ⟨aw₁,h₃,hs⟩ := Option.bind_eq_some_iff.mp hs
    have hmid : aw₁.OnRoute e := by
      split at h₃
      · split at h₃
        · exact (hboth.removePaneFromSplit _ _).removeWorkspaceAt h₃
        · cases h₃
          exact (hboth.removePaneFromSplit _ _).refocus _
      · split at h₃
        · cases h₃; exact hboth
        · cases h₃
    split at hs
    · cases hs
    · split at hs
      · cases hs
      · cases hs
        exact (showPage hmid _).setPaneActive _ _
  · cases hs; exact h

theorem currentTree (h : aw.OnRoute e) (f : SplitTree F → SplitTree F) :
    AppWindow.OnRoute e (match aw.current with
      | none => aw
      | some (i,_) => aw.modifyWs i (fun ws => { ws with splitTree := f ws.splitTree })) := by
  split
  · exact h
  · exact h.modifyWs rfl (fun _ _ hws => hws.congr rfl rfl)

theorem modifyById (h : aw.OnRoute e) (id : WorkspaceId) {f : Workspace F → Workspace F}
    (hp : ∀ ws, (f ws).proxyEndpoint = ws.proxyEndpoint) (hm : ∀ ws, (f ws).panes = ws.panes) :
    (aw.modifyById id f).OnRoute e := by
  unfold AppWindow.modifyById
  split
  · exact h.modifyWs rfl (fun ws _ hws => hws.congr (hp ws) (hm ws))
  · exact h

theorem toggleWorkspacePinned (h : aw.OnRoute e) (id : WorkspaceId) :
    (aw.toggleWorkspacePinned id).OnRoute e := by
  unfold AppWindow.toggleWorkspacePinned
  split
  · exact h
  · rename_i i _ _ _
    have hmod : (aw.modifyWs i (fun ws => { ws with pinned := !ws.pinned })).OnRoute e :=
      h.modifyWs rfl (fun _ _ hws => hws.congr rfl rfl)
    refine hmod.view (fun ws hws => ?_)
    rcases List.mem_append.mp hws with hm | hm
    · exact (List.mem_filter.mp hm).1
    · exact (List.mem_filter.mp hm).1

theorem moveWorkspace (h : aw.OnRoute e) {source target : WorkspaceId} {before : Bool}
    (hs : aw.moveWorkspace source target before = some aw') : aw'.OnRoute e := by
  unfold AppWindow.moveWorkspace at hs
  split at hs
  · rename_i hsrc _
    split at hs
    · cases hs; exact h
    · obtain ⟨-,hs⟩ := Option.ite_none_right_eq_some.mp hs
      cases hs
      refine h.view (fun ws hws => ?_)
      rcases List.eq_or_mem_of_mem_insertIdx hws with rfl | hm
      · exact List.mem_of_getElem? (findWs_spec hsrc).1
      · exact List.eraseIdx_subset hm
  · cases hs; exact h

theorem disconnectRemote (h : aw.OnRoute e) (id : Option WorkspaceId) (clear : Bool) :
    (aw.disconnectRemote id clear).OnRoute e := by
  unfold AppWindow.disconnectRemote
  split
  · exact h
  · cases clear
    · exact h.modifyById _ (fun _ => rfl) (fun _ => rfl)
    · exact h.modifyById _ (fun _ => rfl) (fun _ => rfl)

theorem syncRatio [F64Ops F] (h : aw.OnRoute e) (id : WorkspaceId) (node : NodeId)
    (pos total : Int32) : (aw.syncRatio id node pos total).OnRoute e := by
  unfold AppWindow.syncRatio
  split
  · exact h
  · exact h.modifyById id (fun _ => rfl) (fun _ => rfl)

theorem setFocusedSurface (h : aw.OnRoute e) (s : SurfaceId) :
    (aw.setFocusedSurface s).OnRoute e := by
  unfold AppWindow.setFocusedSurface
  split
  · exact h.setPaneActive _ _
  · exact h

theorem setFocusedBrowser (h : aw.OnRoute e) (b : BrowserPanelId) :
    (aw.setFocusedBrowser b).OnRoute e := by
  unfold AppWindow.setFocusedBrowser
  split
  · exact h.setPaneActive _ _
  · exact h

theorem focusPaneById (h : aw.OnRoute e) (p : PaneId) : (aw.focusPaneById p).2.OnRoute e := by
  unfold AppWindow.focusPaneById
  split
  · exact h
  · rename_i i ws pane hf
    dsimp only
    split
    · exact h.setPaneActive _ _
    · exact (showPage h _).setPaneActive _ _

theorem selectPaneTabGeneric (h : aw.OnRoute e) (p : PaneId) (idx : ℕ) :
    (aw.selectPaneTabGeneric p idx).OnRoute e := by
  unfold AppWindow.selectPaneTabGeneric
  split
  · exact h
  · refine setPaneActive (h.modifyWs rfl (fun ws _ hws => ?_)) _ _
    exact hws.modifyPane_of_subset p (fun pane => by simp)

theorem cyclePaneTab (h : aw.OnRoute e) (forward : Bool) : (aw.cyclePaneTab forward).OnRoute e := by
  unfold AppWindow.cyclePaneTab
  split
  · exact h
  · split
    · exact h
    · refine h.modifyWs rfl (fun ws _ hws => hws.modifyPane_of_subset _ (fun pane => ?_))
      rw [Pane.cycleTab_identities]
      exact List.Subset.refl _

theorem report (h : aw.OnRoute e) {i : ℕ} {p : PaneId} {f : Tab → Bool} {g : Tab → Tab}
    (hg : ∀ t, (g t).panel = t.panel) :
    (aw.modifyWs i (fun ws => ws.modifyPane p (fun pane => pane.updateWhere f g))).OnRoute e := by
  refine h.modifyWs rfl (fun ws _ hws => hws.modifyPane_of_subset p (fun pane => ?_))
  rw [Pane.updateWhere_identities pane f hg]
  exact List.Subset.refl _

theorem retitle (h : aw.OnRoute e) {i : ℕ} {p : PaneId} {f : Tab → Bool} {g : Tab → Tab}
    (hg : ∀ t, (g t).panel = t.panel) :
    (aw.modifyWs i (fun ws => (ws.modifyPane p (fun pane =>
      pane.updateWhere f g)).updateTitleFromFocused)).OnRoute e := by
  refine h.modifyWs rfl (fun ws _ hws => Workspace.OnRoute.updateTitleFromFocused ?_)
  refine hws.modifyPane_of_subset p (fun pane => ?_)
  rw [Pane.updateWhere_identities pane f hg]
  exact List.Subset.refl _

theorem onBrowserTitleChanged (h : aw.OnRoute e) (b : BrowserPanelId) (title : String) :
    (aw.onBrowserTitleChanged b title).OnRoute e := by
  unfold AppWindow.onBrowserTitleChanged
  split
  · exact h
  · exact h.retitle (fun _ => rfl)

theorem setSurfaceTitle (h : aw.OnRoute e) (home : Option String) (s : SurfaceId)
    (title : String) : (aw.setSurfaceTitle home s title).OnRoute e := by
  unfold AppWindow.setSurfaceTitle
  split
  · exact h
  · exact h.retitle (panel_reportTitle home title)

theorem setSurfaceWorkingDirectory (h : aw.OnRoute e) (home : Option String) (s : SurfaceId)
    (dir : String) : (aw.setSurfaceWorkingDirectory home s dir).OnRoute e := by
  unfold AppWindow.setSurfaceWorkingDirectory
  split
  · exact h
  · exact h.report (panel_reportDirectory home dir)

theorem renameTab (h : aw.OnRoute e) (p : PaneId) (idx : ℕ) (name : String) :
    (aw.renameTab p idx name).OnRoute e := by
  unfold AppWindow.renameTab
  split
  · exact h
  · refine h.modifyWs rfl (fun ws _ hws => hws.modifyPane_of_subset p (fun pane => ?_))
    have hid := Pane.identities_modify pane idx (g := fun t => { t with title := name })
      (fun _ => rfl)
    exact fun x hx => by rwa [Pane.identities,hid] at hx

end AppWindow.OnRoute

end Limux
