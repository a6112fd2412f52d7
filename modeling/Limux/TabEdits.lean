import Limux.TabTrack

/-! A property of every single tab under the operations of the window. -/
namespace Limux

variable {F : Type}

/-- Every tab of every workspace satisfies `Q` with the endpoint of its workspace. -/
def AppWindow.AllTabs (Q : Option ProxyEndpoint → Tab → Prop) (aw : AppWindow F) : Prop :=
  aw.Each (Workspace.AllTabs Q)

namespace AppWindow.AllTabs

variable {Q : Option ProxyEndpoint → Tab → Prop} {aw aw' : AppWindow F}

theorem showPage (h : aw.AllTabs Q) (page : Option ℕ) :
    AppWindow.AllTabs Q { aw with currentPage := page } := h

theorem setPaneActive (h : aw.AllTabs Q) (i : ℕ) (p : PaneId) :
    (aw.setPaneActive i p).AllTabs Q :=
  h.modifyWs rfl (fun _ _ hws => hws.setFocusedPane p)

theorem refocus (h : aw.AllTabs Q) (i : ℕ) : (aw.refocus i).AllTabs Q := by
  unfold AppWindow.refocus
  split
  · exact h.setPaneActive i _
  · exact h

theorem removePaneFromSplit (h : aw.AllTabs Q) (i : ℕ) (p : PaneId) :
    (aw.removePaneFromSplit i p).AllTabs Q := h.modifyWs rfl (fun _ _ hws => hws.dropPane p)

theorem closePanel (h : aw.AllTabs Q) {i : ℕ} {ws : Workspace F} {p : PaneId} {rm : Pane → Pane}
    (hr : ∀ pane, (rm pane).tabs ⊆ pane.tabs) (hs : aw.closePanel i ws p rm = some aw') :
    aw'.AllTabs Q := by
  unfold AppWindow.closePanel at hs
  simp only at hs
  split_ifs at hs
  · exact h.removeWorkspaceAt hs
  · cases hs
    exact (h.removePaneFromSplit i p).refocus i
  · cases hs
    exact h.modifyWs rfl (fun _ _ hws => hws.modifyPane_of_subset p hr)

theorem closeSurface (h : aw.AllTabs Q) {s : SurfaceId} (hs : aw.closeSurface s = some aw') :
    aw'.AllTabs Q := by
  unfold AppWindow.closeSurface at hs
  split at hs
  · cases hs; exact h
  · exact h.closePanel (fun pane => pane.removeWhere_tabs _) hs

theorem closeBrowser (h : aw.AllTabs Q) {b : BrowserPanelId} (hs : aw.closeBrowser b = some aw') :
    aw'.AllTabs Q := by
  unfold AppWindow.closeBrowser at hs
  split at hs
  · cases hs; exact h
  · exact h.closePanel (fun pane => pane.removeWhere_tabs _) hs

theorem newPaneTab (h : aw.AllTabs Q) (hq : ∀ e, Q e (.fresh (.terminal aw.ids.surface))) :
    aw.newPaneTab.AllTabs Q := by
  unfold AppWindow.newPaneTab
  split
  · exact h
  · split
    · exact h
    · apply h.modifyWs rfl
      intro ws _ hws
      apply hws.modifyPane
      intro pane hpane t ht
      rcases List.mem_append.mp ht with ht | ht
      · exact hpane t ht
      · rw [List.mem_singleton.mp ht]
        exact hq _

theorem pushFresh (h : aw.AllTabs Q) (hq : ∀ e, Q e (.fresh (.terminal aw.ids.surface)))
    {ws : Workspace F} (hw : aw'.workspaces = aw.workspaces ++ [ws])
    (hm : ws.panes = aw.freshWorkspace.panes) : aw'.AllTabs Q := by
  apply h.append hw
  intro p pane hl t ht
  have hl' : ((∅ : HashMap PaneId Pane).insert aw.ids.pane
      (Pane.newWithId aw.ids.pane aw.ids.surface)).lookup p = some pane := by
    rw [hm] at hl
    exact hl
  rw [HashMap.lookup_insert_ite] at hl'
  split at hl'
  · cases hl'
    rw [List.mem_singleton.mp ht]
    exact hq _
  · cases hl'

theorem restoreWorkspaceFromLayout (h : aw.AllTabs Q) (ord : IterOrder NodeId)
    (snap : WorkspaceSnapshot F) (port : Option UInt16) (id token : String)
    (hq : ∀ ids, aw.ids.Le ids → ∀ tabs ∈ snap.layout.leaves,
      ∀ t ∈ restoredTabs ids (normTabs tabs), Q none t) :
    (restoreWorkspaceFromLayout ord aw snap port id token).AllTabs Q := by
  obtain ⟨t,ws,-,hb,he⟩ := restoredWorkspace_spec ord aw snap port id token
  have hempty : (emptyRestored aw snap).AllTabs Q := by
    intro p pane hl
    cases hl
  have hle : aw.ids.Le { aw.ids with workspace := aw.ids.workspace+1 } :=
    ⟨Nat.le_succ _,le_rfl,le_rfl,le_rfl⟩
  have hbuilt := allTabs_buildLayout ord snap.layout (emptyRestored aw snap,
    { aw.ids with workspace := aw.ids.workspace+1 }) hempty
    (fun ids hi => hq ids (hle.trans hi))
  rw [hb] at hbuilt
  have hws : (AppWindow.restoredWorkspace ord aw snap port id token).1.AllTabs Q := by
    rw [he]
    exact hbuilt.congr rfl rfl
  exact h.append rfl hws

section Splits

variable [F64Ops F]

theorem splitFocused (h : aw.AllTabs Q) (o : Orientation)
    (hq : ∀ e, Q e (.fresh (.terminal aw.ids.surface))) : (aw.splitFocused o).AllTabs Q := by
  unfold AppWindow.splitFocused
  split
  · exact h
  · split
    · exact h
    · apply h.modifyWs rfl
      intro ws _ hws
      apply hws.addSplit _ o
      intro t ht
      rw [List.mem_singleton.mp ht]
      exact hq _

theorem splitBrowserInWorkspace (h : aw.AllTabs Q) {i : ℕ} {p : PaneId} {o : Orientation}
    {url : String}
    (hq : ∀ ws, aw.workspaces[i]? = some ws →
      Q ws.proxyEndpoint (.fresh (.browser aw.ids.browser url)))
    (hs : aw.splitBrowserInWorkspace i p o url = some aw') : aw'.AllTabs Q := by
  unfold AppWindow.splitBrowserInWorkspace at hs
  split_ifs at hs
  cases hs
  apply h.modifyWs rfl
  intro ws hi hws
  refine (hws.addSplit p o (fun t ht => ?_)).setFocusedPane _
  rw [List.mem_singleton.mp ht]
  exact hq ws hi

theorem splitFocusedBrowser (h : aw.AllTabs Q) {o : Orientation} {url : String}
    (hq : ∀ i ws, aw.current = some (i,ws) → ws.focusedPane.isSome →
      Q ws.proxyEndpoint (.fresh (.browser aw.ids.browser url)))
    (hs : aw.splitFocusedBrowser o url = some aw') : aw'.AllTabs Q := by
  unfold AppWindow.splitFocusedBrowser at hs
  split at hs
  · cases hs; exact h
  rename_i i ws hc
  split at hs
  · cases hs; exact h
  rename_i p hp
  refine h.splitBrowserInWorkspace (fun v hv => ?_) hs
  rw [current_spec hc] at hv
  cases hv
  exact hq i ws hc (by rw [hp]; rfl)

/-- A popup opens where its opener is, or on the page that is shown. -/
theorem openBrowserPopup (h : aw.AllTabs Q) {registered : Bool} {opener : BrowserPanelId}
    {url : String}
    (hq : registered = true → ∀ i ws p, aw.findWorkspaceWithBrowser opener = some (i,ws,p) →
      Q ws.proxyEndpoint (.fresh (.browser aw.ids.browser url)))
    (hpage : registered = true → aw.findWorkspaceWithBrowser opener = none →
      ∀ ws, aw.workspaces[aw.currentPage.getD 0]? = some ws → ws.focusedPane.isSome →
        Q ws.proxyEndpoint (.fresh (.browser aw.ids.browser url)))
    (hs : aw.openBrowserPopup registered opener url = some aw') : aw'.AllTabs Q := by
  unfold AppWindow.openBrowserPopup at hs
  split at hs
  · cases hs; exact h
  rename_i hreg
  have hreg' : registered = true := by simpa using hreg
  split at hs
  · rename_i i ws p hf
    refine h.splitBrowserInWorkspace (fun v hv => ?_) hs
    rw [(findWs_spec hf).1] at hv
    cases hv
    exact hq hreg' i ws p hf
  · rename_i hnone
    simp only at hs
    split at hs
    · cases hs; exact h
    · rename_i p hp
      refine h.splitBrowserInWorkspace (fun v hv => ?_) hs
      rw [hv,Option.bind_some] at hp
      exact hpage hreg' hnone v hv (by rw [hp]; rfl)

theorem movePane (h : aw.AllTabs Q) (source target : PaneId) (before : Bool) (o : Orientation) :
    (aw.movePane source target before o).AllTabs Q := by
  unfold AppWindow.movePane
  split
  · exact h
  · rename_i i ws hc
    split
    · exact h
    · have hstep : (aw.modifyWs i (fun ws' => { ws' with
          splitTree := (ws.splitTree.movePaneAdjacent source target before o).2 })).AllTabs Q :=
        h.modifyWs rfl (fun _ _ hws => hws.congr rfl rfl)
      simp only
      split
      · exact hstep.setPaneActive _ _
      · exact hstep

omit [F64Ops F] in
/-- A tab that gets a pane of its own in its workspace. -/
theorem addPane_takeTab {ws ws₁ : Workspace F} (h : ws.AllTabs Q) {p : PaneId} {idx : ℕ}
    {tab : Tab} (ht : AppWindow.takeTab ws p idx = some (tab,ws₁)) (new : PaneId) :
    (ws₁.addPane (paneFromTab new tab)).AllTabs Q := by
  obtain ⟨hws,hp,hq,-⟩ := h.takeTab ht
  apply hws.insert
  intro t hm
  rw [List.mem_singleton.mp hm,hp]
  exact hq

theorem splitTabToPane (h : aw.AllTabs Q) {source : PaneId} {x : TabDragIdentity}
    {o : Orientation} {before widgets : Bool}
    (hs : aw.splitTabToPane source x o before widgets = some aw') : aw'.AllTabs Q := by
  unfold AppWindow.splitTabToPane at hs
  split at hs
  · cases hs; exact h
  rename_i i ws hc
  split at hs
  · cases hs; exact h
  split at hs
  · cases hs; exact h
  split at hs
  · cases hs; exact h
  split at hs
  · cases hs; exact h
  simp only at hs
  refine h.putWs (by rfl) (fun ws' hws' => ?_) hs
  obtain ⟨⟨tab,ws₁⟩,h₁,h₂⟩ := Option.bind_eq_some_iff.mp hws'
  obtain ⟨ws₂,h₃,rfl⟩ := Option.map_eq_some_iff.mp h₂
  have hadd := addPane_takeTab (h.at_index (current_spec hc)) h₁ aw.ids.pane
  exact (hadd.expectSplit h₃).setFocusedPane _

theorem splitTabToPaneTarget (h : aw.AllTabs Q) {source target : PaneId} {x : TabDragIdentity}
    {o : Orientation} {before widgets : Bool}
    (hs : aw.splitTabToPaneTarget source x target o before widgets = some aw') :
    aw'.AllTabs Q := by
  unfold AppWindow.splitTabToPaneTarget at hs
  split at hs
  · cases hs; exact h
  rename_i i ws hc
  split at hs
  · cases hs; exact h
  split at hs
  · cases hs; exact h
  split at hs
  · cases hs; exact h
  simp only at hs
  refine h.putWs (by rfl) (fun ws' hws' => ?_) hs
  obtain ⟨⟨tab,ws₁⟩,h₁,h₂⟩ := Option.bind_eq_some_iff.mp hws'
  obtain ⟨ws₂,h₃,rfl⟩ := Option.map_eq_some_iff.mp h₂
  have hadd := addPane_takeTab (h.at_index (current_spec hc)) h₁ aw.ids.pane
  exact ((hadd.dropIfEmpty source).expectSplit h₃).setFocusedPane _

end Splits

theorem moveTabToPane (h : aw.AllTabs Q) {source target : PaneId} {x : TabDragIdentity}
    {insertion : TabInsertion} {widgets : Bool}
    (hs : aw.moveTabToPane source x target insertion widgets = some aw') : aw'.AllTabs Q := by
  unfold AppWindow.moveTabToPane at hs
  split at hs
  · cases hs; exact h
  rename_i i ws hc
  split at hs
  · cases hs; exact h
  split at hs
  · cases hs; exact h
  split at hs
  · cases hs; exact h
  split at hs
  · cases hs; exact h
  refine h.putWs rfl (fun ws' hws' => ?_) hs
  obtain ⟨⟨tab,ws₁⟩,h₁,h₂⟩ := Option.bind_eq_some_iff.mp hws'
  obtain ⟨ws₂,h₃,rfl⟩ := Option.map_eq_some_iff.mp h₂
  obtain ⟨hws,hp,hq,-⟩ := (h.at_index (current_spec hc)).takeTab h₁
  have hput := hws.putTab (hp ▸ hq) h₃
  exact (hput.dropIfEmpty source).setFocusedPane target

theorem reorderTabInPane (h : aw.AllTabs Q) {p : PaneId} {x : TabDragIdentity}
    {insertion : TabInsertion} {widgets : Bool}
    (hs : aw.reorderTabInPane p x insertion widgets = some aw') : aw'.AllTabs Q := by
  unfold AppWindow.reorderTabInPane at hs
  split at hs
  · cases hs; exact h
  rename_i i ws hc
  split at hs
  · cases hs; exact h
  rename_i pane hl
  split at hs
  · cases hs; exact h
  split at hs
  · split at hs
    · cases hs; exact h
    · refine h.putWs rfl (fun ws' hws' => ?_) hs
      obtain ⟨pane',hr,rfl⟩ := Option.map_eq_some_iff.mp hws'
      have hws : ws.AllTabs Q := h.at_index (current_spec hc)
      exact hws.insert p (fun t ht => hws p pane hl t (Pane.reorder_tabs hr ht))
  · cases hs; exact h

/-- The tab that moves fits the workspace it moves to. -/
theorem moveTabToWorkspace (h : aw.AllTabs Q) {source : PaneId} {x : TabDragIdentity}
    {targetWs : WorkspaceId} {widgets : Bool}
    (hq : widgets = true → ∀ i ws pane idx tab j v,
      aw.findWorkspaceWithPane source = some (i,ws,pane) → tabIndexForIdentity pane x = some idx →
      pane.tabs[idx]? = some tab → aw.findWorkspaceById targetWs = some (j,v,()) → i ≠ j →
      Q ws.proxyEndpoint tab → Q v.proxyEndpoint tab)
    (hs : aw.moveTabToWorkspace source x targetWs widgets = some aw') : aw'.AllTabs Q := by
  unfold AppWindow.moveTabToWorkspace at hs
  split at hs
  · rename_i si sws spane ti tws u hf ht
    split at hs
    · cases hs; exact h
    rename_i hne
    split at hs
    · cases hs; exact h
    split at hs
    · cases hs; exact h
    split at hs
    · cases hs; exact h
    rename_i idx hidx
    split at hs
    · cases hs; exact h
    rename_i hwid
    obtain ⟨⟨tab,sws'⟩,h₁,hs⟩ := Option.bind_eq_some_iff.mp hs
    obtain ⟨tpane,-,hs⟩ := Option.bind_eq_some_iff.mp hs
    obtain ⟨tws',h₂,hs⟩ := Option.bind_eq_some_iff.mp hs
    obtain ⟨hsi,hl⟩ := findWs_spec hf
    obtain ⟨hsws,-,htab,pane,hl',hat⟩ := (h.at_index hsi).takeTab h₁
    obtain rfl := Option.some.inj (hl.symm.trans hl')
    have htws := (h.at_index (findWs_spec ht).1).putTab
      (hq (by simpa using hwid) si sws spane idx tab ti tws hf hidx hat ht hne htab) h₂
    have hboth : ((aw.modifyWs si (fun _ => sws')).modifyWs ti (fun _ => tws')).AllTabs Q :=
      AppWindow.Each.modifyWs (h.modifyWs rfl (fun _ _ _ => hsws)) rfl (fun _ _ _ => htws)
    simp only at hs
    obtain ⟨aw₁,h₃,hs⟩ := Option.bind_eq_some_iff.mp hs
    have hmid : aw₁.AllTabs Q := by
      split at h₃
      · split at h₃
        · exact (hboth.removePaneFromSplit _ _).removeWorkspaceAt h₃
        · cases h₃
          exact (hboth.removePaneFromSplit _ _).refocus _
      · split at h₃
        · cases h₃; exact hboth
        · cases h₃
    split at hs
    · cases hs
    · split at hs
      · cases hs
      · cases hs
        exact (showPage hmid _).setPaneActive _ _
  · cases hs; exact h

theorem currentTree (h : aw.AllTabs Q) (f : SplitTree F → SplitTree F) :
    AppWindow.AllTabs Q (match aw.current with
      | none => aw
      | some (i,_) => aw.modifyWs i (fun ws => { ws with splitTree := f ws.splitTree })) := by
  split
  · exact h
  · exact h.modifyWs rfl (fun _ _ hws => hws.congr rfl rfl)

theorem setFocusedSurface (h : aw.AllTabs Q) (s : SurfaceId) :
    (aw.setFocusedSurface s).AllTabs Q := by
  unfold AppWindow.setFocusedSurface
  split
  · exact h.setPaneActive _ _
  · exact h

theorem setFocusedBrowser (h : aw.AllTabs Q) (b : BrowserPanelId) :
    (aw.setFocusedBrowser b).AllTabs Q := by
  unfold AppWindow.setFocusedBrowser
  split
  · exact h.setPaneActive _ _
  · exact h

theorem focusPaneById (h : aw.AllTabs Q) (p : PaneId) : (aw.focusPaneById p).2.AllTabs Q := by
  unfold AppWindow.focusPaneById
  split
  · exact h
  · dsimp only
    split
    · exact h.setPaneActive _ _
    · exact (showPage h _).setPaneActive _ _

theorem selectPaneTabGeneric (h : aw.AllTabs Q) (p : PaneId) (idx : ℕ) :
    (aw.selectPaneTabGeneric p idx).AllTabs Q := by
  unfold AppWindow.selectPaneTabGeneric
  split
  · exact h
  · refine setPaneActive (h.modifyWs rfl (fun ws _ hws => ?_)) _ _
    apply hws.modifyPane_of_subset p
    intro pane
    rw [Pane.selectTab_tabs]
    exact List.Subset.refl _

theorem cyclePaneTab (h : aw.AllTabs Q) (forward : Bool) : (aw.cyclePaneTab forward).AllTabs Q := by
  unfold AppWindow.cyclePaneTab
  split
  · exact h
  · split
    · exact h
    · refine h.modifyWs rfl (fun ws _ hws => hws.modifyPane_of_subset _ (fun pane => ?_))
      rw [Pane.cycleTab_tabs]
      exact List.Subset.refl _

theorem report (h : aw.AllTabs Q) {i : ℕ} {p : PaneId} {f : Tab → Bool} {g : Tab → Tab}
    (hg : ∀ e t, f t = true → Q e t → Q e (g t)) :
    (aw.modifyWs i (fun ws => ws.modifyPane p (fun pane => pane.updateWhere f g))).AllTabs Q ∧
    (aw.modifyWs i (fun ws => (ws.modifyPane p (fun pane =>
      pane.updateWhere f g)).updateTitleFromFocused)).AllTabs Q := by
  have hws : ∀ ws : Workspace F, ws.AllTabs Q →
      (ws.modifyPane p (fun pane => pane.updateWhere f g)).AllTabs Q := by
    intro ws hws
    apply hws.modifyPane
    intro pane hpane t ht
    rcases Pane.mem_updateWhere ht with ht | ⟨t₀,ht₀,hf,rfl⟩
    · exact hpane t ht
    · exact hg _ t₀ hf (hpane t₀ ht₀)
  exact ⟨h.modifyWs rfl (fun ws _ hw => hws ws hw),
    h.modifyWs rfl (fun ws _ hw => (hws ws hw).updateTitleFromFocused)⟩

theorem onBrowserTitleChanged (h : aw.AllTabs Q) (b : BrowserPanelId) (title : String)
    (hq : ∀ e t, Q e t → Q e { t with title := title }) :
    (aw.onBrowserTitleChanged b title).AllTabs Q := by
  unfold AppWindow.onBrowserTitleChanged
  split
  · exact h
  · exact (h.report (fun e t _ => hq e t)).2

theorem setSurfaceTitle (h : aw.AllTabs Q) (home : Option String) (s : SurfaceId)
    (title : String)
    (hq : ∀ e t, t.surfaceId = some s → Q e t → Q e (t.reportTitle home title)) :
    (aw.setSurfaceTitle home s title).AllTabs Q := by
  unfold AppWindow.setSurfaceTitle
  split
  · exact h
  · exact (h.report (fun e t ht => hq e t (of_decide_eq_true ht))).2

theorem setSurfaceWorkingDirectory (h : aw.AllTabs Q) (home : Option String) (s : SurfaceId)
    (dir : String)
    (hq : ∀ e t, t.surfaceId = some s → Q e t → Q e (t.reportDirectory home dir)) :
    (aw.setSurfaceWorkingDirectory home s dir).AllTabs Q := by
  unfold AppWindow.setSurfaceWorkingDirectory
  split
  · exact h
  · exact (h.report (fun e t ht => hq e t (of_decide_eq_true ht))).1

theorem renameTab (h : aw.AllTabs Q) (p : PaneId) (idx : ℕ) (name : String)
    (hq : ∀ e t, Q e t → Q e { t with title := name }) : (aw.renameTab p idx name).AllTabs Q := by
  unfold AppWindow.renameTab
  split
  · exact h
  · refine h.modifyWs rfl (fun ws _ hws => hws.modifyPane p (fun pane hpane t ht => ?_))
    rcases Pane.mem_tabs_modify ht with ht | ⟨t₀,ht₀,rfl⟩
    · exact hpane t ht
    · exact hq _ t₀ (hpane t₀ ht₀)

theorem updateProxyEndpoint (h : aw.AllTabs Q) (id : WorkspaceId) (e : Option ProxyEndpoint)
    (hq : ∀ e' t, Q e' t → Q e t) : (aw.updateProxyEndpoint id e).AllTabs Q :=
  h.modifyById id (fun _ hws p pane hl t ht => hq _ t (hws p pane hl t ht))

end AppWindow.AllTabs

theorem restoredTabs_authority (ids : IdCounters) (tabs : List PaneTabSnapshot) :
    ∀ t ∈ restoredTabs ids tabs, t.workingDirectoryFromOsc7 = false := by
  induction tabs generalizing ids with
  | nil => simp [restoredTabs]
  | cons x xs ih =>
    rw [restoredTabs,List.forall_mem_cons]
    refine ⟨?_,ih _⟩
    unfold restoredTab
    split <;> rfl

/-- The property does not look at the title, new tabs have it, and the operation keeps it
of the tab it is a report for. -/
structure WindowOp.Leaves (op : WindowOp F) (ids : IdCounters) (R : Tab → Prop) : Prop where
  retitle : ∀ t title, R t → R { t with title := title }
  new : ∀ t, ¬ t.identity.Below ids → t.workingDirectoryFromOsc7 = false → R t
  title : ∀ home s text, op = .setSurfaceTitle home s text →
    ∀ t, t.surfaceId = some s → R t → R (t.reportTitle home text)
  directory : ∀ home s dir, op = .setSurfaceWorkingDirectory home s dir →
    ∀ t, t.surfaceId = some s → R t → R (t.reportDirectory home dir)

theorem AppWindow.AllTabs.step [F64Ops F] {aw aw' : AppWindow F} {R : Tab → Prop}
    (h : aw.AllTabs (fun _ => R)) {op : WindowOp F} (hop : op.Leaves aw.ids R)
    (hs : aw.step op = some aw') : aw'.AllTabs (fun _ => R) := by
  have hsurface : R (.fresh (.terminal aw.ids.surface)) :=
    hop.new _ (lt_irrefl aw.ids.surface) rfl
  have hbrowser : ∀ url, R (.fresh (.browser aw.ids.browser url)) :=
    fun url => hop.new _ (lt_irrefl aw.ids.browser) rfl
  by_cases hidle : op.Idle
  · exact AppWindow.Each.step_idle h (Workspace.AllTabs.viewed _) hidle hs
  cases op with
  | newWorkspace => cases hs; exact h.pushFresh (fun _ => hsurface) rfl rfl
  | newRemoteWorkspace c port id token =>
    cases hs; exact h.pushFresh (fun _ => hsurface) rfl rfl
  | restoreWorkspaceFromLayout ord snap port id token =>
    cases hs
    apply h.restoreWorkspaceFromLayout
    intro ids hle tabs _ t ht
    have hf := fresh_restoredTabs ids (normTabs tabs)
    refine hop.new t (fun hb => ?_) (restoredTabs_authority _ _ t ht)
    exact hf.notBelow _ (List.mem_map_of_mem ht) (hb.mono hle)
  | closeSurface s => exact h.closeSurface hs
  | closeBrowser b => exact h.closeBrowser hs
  | newPaneTab => cases hs; exact h.newPaneTab (fun _ => hsurface)
  | splitFocused o => cases hs; exact h.splitFocused o (fun _ => hsurface)
  | splitFocusedBrowser o url => exact h.splitFocusedBrowser (fun _ _ _ _ => hbrowser url) hs
  | splitBrowserInWorkspace i p o url =>
    exact h.splitBrowserInWorkspace (fun _ _ => hbrowser url) hs
  | openBrowserPopup registered opener url =>
    exact h.openBrowserPopup (fun _ _ _ _ _ => hbrowser url) (fun _ _ _ _ _ => hbrowser url) hs
  | movePane source target before o => cases hs; exact h.movePane source target before o
  | splitTabToPane source x o before widgets => exact h.splitTabToPane hs
  | splitTabToPaneTarget source x target o before widgets => exact h.splitTabToPaneTarget hs
  | moveTabToPane source x target insertion widgets => exact h.moveTabToPane hs
  | reorderTabInPane p x insertion widgets => exact h.reorderTabInPane hs
  | moveTabToWorkspace source x targetWs widgets =>
    exact h.moveTabToWorkspace (fun _ _ _ _ _ _ _ _ _ _ _ _ _ ht => ht) hs
  | setFocusedSurface s => cases hs; exact h.setFocusedSurface s
  | setFocusedBrowser b => cases hs; exact h.setFocusedBrowser b
  | focusPaneById p => cases hs; exact h.focusPaneById p
  | selectPaneTabGeneric p idx => cases hs; exact h.selectPaneTabGeneric p idx
  | cyclePaneTab forward => cases hs; exact h.cyclePaneTab forward
  | navigateSplit forward => cases hs; exact h.currentTree (fun t => (t.navigate forward).2)
  | navigateDirection d => cases hs; exact h.currentTree (fun t => (t.navigateDirectional d).2)
  | onBrowserTitleChanged b title =>
    cases hs; exact h.onBrowserTitleChanged b title (fun _ t => hop.retitle t title)
  | setSurfaceTitle home s title =>
    cases hs; exact h.setSurfaceTitle home s title (fun _ => hop.title home s title rfl)
  | setSurfaceWorkingDirectory home s dir =>
    cases hs
    exact h.setSurfaceWorkingDirectory home s dir (fun _ => hop.directory home s dir rfl)
  | renameTab p idx name =>
    cases hs; exact h.renameTab p idx name (fun _ t => hop.retitle t name)
  | updateProxyEndpoint id e => cases hs; exact h.updateProxyEndpoint id e (fun _ _ ht => ht)
  | _ => exact absurd trivial hidle

end Limux
