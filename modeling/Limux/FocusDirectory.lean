import Limux.TabDirectory
import Limux.TabMoves

/-! The directory of a workspace against the directory of the tab that is active in its
focused pane. `update_title_from_focused` takes it over, but only title reports call it. -/
namespace Limux

variable {F : Type}

def Pane.activeTab (p : Pane) : Option Tab := p.tabs[p.selectedTab]?

namespace Workspace

/-- The active tab of the focused pane. -/
def activeTab (ws : Workspace F) : Option Tab :=
  (ws.focusedPane.bind (fun p => ws.panes.lookup p)).bind Pane.activeTab

/-- The directory of the tab, where it is known, is the one of the workspace. -/
def Fits (ws : Workspace F) (t : Tab) : Prop :=
  ∀ d, t.workingDirectory = some d → ws.workingDirectory = some d

/-- The workspace has the directory of the active tab of its focused pane. -/
def Follows (ws : Workspace F) : Prop := ∀ t, ws.activeTab = some t → ws.Fits t

/-- The active tab of the pane fits. -/
def PaneFits (ws : Workspace F) (p : PaneId) : Prop :=
  ∀ pane t, ws.panes.lookup p = some pane → pane.activeTab = some t → ws.Fits t

/-- With `rest` left of pane `p`, what becomes active fits: the tab selected in the rest, or
the active tab of the pane that takes the focus over from an empty one. -/
def FitsWithout (ws : Workspace F) (p : PaneId) (rest : Pane) : Prop :=
  if rest.tabs = [] then ∀ q, (ws.splitTree.remove p).2.focused = some q → ws.PaneFits q
  else ws.focusedPane = some p → ∀ t, rest.activeTab = some t → ws.Fits t

end Workspace

/-- The tab `x` of pane `source`, where it is moved to workspace `v`, fits there. -/
def DragFits (ws : Workspace F) (source : PaneId) (x : TabDragIdentity) (v : Workspace F) :
    Prop :=
  ∀ pane idx tab, ws.panes.lookup source = some pane → tabIndexForIdentity pane x = some idx →
    pane.tabs[idx]? = some tab → v.Fits tab

/-- The tab that the operation makes active in the focused pane of a workspace, and the
directory it gives to the one that is, fit the directory the workspace has. -/
def WindowOp.KeepsDirectory [F64Ops F] (aw : AppWindow F) : WindowOp F → Prop
  | .setSurfaceWorkingDirectory home s dir => ∀ ws ∈ aw.workspaces, ∀ t,
    ws.activeTab = some t → t.surfaceId = some s → ws.Fits (t.reportDirectory home dir)
  | .setFocusedSurface s =>
    ∀ i ws p, aw.findWorkspaceWithSurface s = some (i,ws,p) → ws.PaneFits p
  | .setFocusedBrowser b =>
    ∀ i ws p, aw.findWorkspaceWithBrowser b = some (i,ws,p) → ws.PaneFits p
  | .focusPaneById p =>
    ∀ i ws pane, aw.findWorkspaceWithPane p = some (i,ws,pane) → ws.PaneFits p
  | .selectPaneTabGeneric p idx =>
    ∀ i ws pane t, aw.findWorkspaceWithPane p = some (i,ws,pane) →
      (pane.selectTab idx).activeTab = some t → ws.Fits t
  | .cyclePaneTab forward =>
    ∀ i ws p pane t, aw.current = some (i,ws) → ws.focusedPane = some p →
      ws.panes.lookup p = some pane → (pane.cycleTab forward).activeTab = some t → ws.Fits t
  | .navigateSplit forward =>
    ∀ i ws p, aw.current = some (i,ws) → (ws.splitTree.navigate forward).1 = some p →
      ws.PaneFits p
  | .navigateDirection d =>
    ∀ i ws p, aw.current = some (i,ws) → (ws.splitTree.navigateDirectional d).1 = some p →
      ws.PaneFits p
  | .movePane source target _ _ =>
    ∀ i ws, aw.current = some (i,ws) → source ≠ target → (ws.panes.lookup target).isSome →
      ws.PaneFits source
  | .splitTabToPane source x _ _ widgets =>
    widgets = true → ∀ i ws pane, aw.current = some (i,ws) →
      ws.panes.lookup source = some pane → 2 ≤ pane.tabs.length → DragFits ws source x ws
  | .splitTabToPaneTarget source x target _ _ widgets =>
    widgets = true → ∀ i ws, aw.current = some (i,ws) → source ≠ target →
      (ws.splitTree.nodeIdForPane target).isSome → DragFits ws source x ws
  | .moveTabToPane source x target insertion widgets =>
    widgets = true → ∀ i ws tpane, aw.current = some (i,ws) → source ≠ target →
      ws.panes.lookup target = some tpane → (insertionIndexForTarget tpane insertion).isSome →
      DragFits ws source x ws
  | .moveTabToWorkspace source x targetWs widgets =>
    widgets = true → ∀ i ws pane idx tab rest j v,
      aw.findWorkspaceWithPane source = some (i,ws,pane) →
      aw.findWorkspaceById targetWs = some (j,v,()) → i ≠ j →
      tabIndexForIdentity pane x = some idx →
      removeTabPreservingSelection pane idx = some (tab,rest) →
      v.Fits tab ∧ ws.FitsWithout source rest
  | .closeSurface s =>
    ∀ i ws p pane, aw.findWorkspaceWithSurface s = some (i,ws,p) →
      ws.panes.lookup p = some pane → ws.FitsWithout p (pane.removeTab s)
  | .closeBrowser b =>
    ∀ i ws p pane, aw.findWorkspaceWithBrowser b = some (i,ws,p) →
      ws.panes.lookup p = some pane → ws.FitsWithout p (pane.removeBrowserTab b)
  | _ => True

/-! Edits of one workspace. -/

namespace Workspace

variable {ws ws' : Workspace F} {p : PaneId}

theorem follows_iff : ws.Follows ↔ ∀ p, ws.focusedPane = some p → ws.PaneFits p := by
  constructor
  · intro h p hp pane t hl ht
    apply h
    rw [activeTab,hp,Option.bind_some,hl,Option.bind_some,ht]
  · intro h t ht
    rw [activeTab,Option.bind_eq_some_iff] at ht
    obtain ⟨pane,hpane,ht⟩ := ht
    obtain ⟨p,hp,hl⟩ := Option.bind_eq_some_iff.mp hpane
    exact h p hp pane t hl ht

theorem Fits.congr {t : Tab} (h : ws.Fits t) (hd : ws'.workingDirectory = ws.workingDirectory) :
    ws'.Fits t := by
  intro d ht
  rw [hd]
  exact h d ht

theorem fits_of_none {t : Tab} (h : t.workingDirectory = none) : ws.Fits t := by
  intro d hd
  rw [h] at hd
  cases hd

theorem PaneFits.of_lookup (h : ws.PaneFits p) (hd : ws'.workingDirectory = ws.workingDirectory)
    (hl : ∀ pane, ws'.panes.lookup p = some pane → ws.panes.lookup p = some pane) :
    ws'.PaneFits p := fun pane t hp ht => (h pane t (hl pane hp) ht).congr hd

theorem viewed_follows : Workspace.Viewed (F := F) Workspace.Follows := by
  intro ws ws' h hm hf hd _
  rw [follows_iff] at h ⊢
  intro p hp
  exact (h p (hf ▸ hp)).of_lookup hd (fun pane hl => hm ▸ hl)

/-- The focus goes to a pane that fits. -/
theorem PaneFits.setFocusedPane (h : ws.PaneFits p) : (ws.setFocusedPane p).Follows := by
  rw [follows_iff]
  intro q hq
  cases hq
  exact h.of_lookup rfl (fun _ hl => hl)

theorem Follows.insert (h : ws.Follows) {pane : Pane}
    (hp : ws.focusedPane = some p → ∀ t, pane.activeTab = some t → ws.Fits t) :
    Workspace.Follows { ws with panes := ws.panes.insert p pane } := by
  rw [follows_iff] at h ⊢
  intro q hq x t hl ht
  have hq' : ws.focusedPane = some q := hq
  rw [HashMap.lookup_insert_ite] at hl
  split at hl
  · rename_i he
    cases hl
    exact (hp (he ▸ hq') t ht).congr rfl
  · exact (h q hq' x t hl ht).congr rfl

theorem Follows.modifyPane (h : ws.Follows) {f : Pane → Pane}
    (hf : ws.focusedPane = some p → ∀ pane t, ws.panes.lookup p = some pane →
      (f pane).activeTab = some t → ws.Fits t) : (ws.modifyPane p f).Follows := by
  unfold Workspace.modifyPane
  rcases hl : ws.panes.lookup p with _ | pane
  · rw [modify_of_none hl]
    exact h
  · rw [modify_of_lookup hl]
    exact h.insert (fun hp t ht => hf hp pane t hl ht)

theorem Follows.with_tree (h : ws.Follows) {t : SplitTree F}
    (ht : t.focused = ws.focusedPane ∨ ∀ p, t.focused = some p → ws.PaneFits p) :
    Workspace.Follows { ws with splitTree := t } := by
  rw [follows_iff] at h ⊢
  intro p hp
  have hfit : ws.PaneFits p := by
    rcases ht with ht | ht
    · exact h p (ht ▸ hp)
    · exact ht p hp
  exact hfit.of_lookup rfl (fun _ hl => hl)

theorem follows_remove (hk : ∀ q, (ws.splitTree.remove p).2.focused = some q → ws.PaneFits q)
    {m : HashMap PaneId Pane}
    (hm : ∀ q pane, m.lookup q = some pane → ws.panes.lookup q = some pane) :
    Workspace.Follows { ws with panes := m, splitTree := (ws.splitTree.remove p).2 } := by
  rw [follows_iff]
  intro q hq
  exact (hk q hq).of_lookup rfl (hm q)

/-- The tab that is active in the focused pane gives its directory to the workspace. -/
theorem follows_updateTitle (ws : Workspace F) : ws.updateTitleFromFocused.Follows := by
  obtain ⟨hp,ht,-⟩ := updateTitleFromFocused_panes ws
  intro t hact d hd
  have hact' : ws.activeTab = some t := by
    rw [activeTab,Workspace.focusedPane,ht,hp] at hact
    exact hact
  rw [activeTab,Option.bind_eq_some_iff] at hact'
  obtain ⟨pane,hl,hsel⟩ := hact'
  have hsel' : pane.tabs[pane.selectedTab]? = some t := hsel
  have hsome : t.workingDirectory.isSome = true := by rw [hd]; rfl
  simp only [updateTitleFromFocused,hl,hsel',if_pos hsome]
  exact hd

theorem lookup_dropIfEmpty {q : PaneId} {x : Pane}
    (h : (AppWindow.dropIfEmpty ws p).panes.lookup q = some x) : ws.panes.lookup q = some x := by
  unfold AppWindow.dropIfEmpty at h
  split at h
  · simp only [Workspace.removePane,HashMap.lookup_erase_ite] at h
    split at h
    · cases h
    · exact h
  · exact h

theorem directory_dropIfEmpty (ws : Workspace F) (p : PaneId) :
    (AppWindow.dropIfEmpty ws p).workingDirectory = ws.workingDirectory := by
  unfold AppWindow.dropIfEmpty
  split <;> rfl

theorem Follows.dropIfEmpty (h : ws.Follows) {rest : Pane} (hk : ws.FitsWithout p rest) :
    (AppWindow.dropIfEmpty { ws with panes := ws.panes.insert p rest } p).Follows := by
  have hl : ({ ws with panes := ws.panes.insert p rest } : Workspace F).panes.lookup p =
      some rest := by simp
  rw [dropIfEmpty_of_lookup hl]
  unfold FitsWithout at hk
  split
  · rename_i he
    rw [if_pos he] at hk
    apply follows_remove hk
    intro q x hx
    rw [HashMap.lookup_erase_ite] at hx
    split at hx
    · cases hx
    · rename_i hne
      rwa [HashMap.lookup_insert_ite,if_neg hne] at hx
  · rename_i he
    rw [if_neg he] at hk
    exact h.insert hk

section Splits

variable [F64Ops F]

theorem expectSplit_spec {before : Bool} {target new : PaneId} {o : Orientation}
    (h : AppWindow.expectSplit ws before target new o = some ws') :
    ws' = { ws with splitTree := ws'.splitTree } := by
  unfold AppWindow.expectSplit at h
  split at h
  · cases h
  · cases h
    rfl

theorem splitAt_focused (t : SplitTree F) (before : Bool) (target new : PaneId)
    (o : Orientation) : (t.splitAt before target new o).2.focused = t.focused ∨
      (t.splitAt before target new o).2.focused = some new := by
  unfold SplitTree.splitAt
  dsimp only
  split
  · exact .inl rfl
  · split
    · split
      · split
        · exact .inl rfl
        · exact .inr rfl
      · exact .inl rfl
    · split
      · exact .inr rfl
      · exact .inl rfl

theorem Follows.addSplit (h : ws.Follows) (target : PaneId) {pane : Pane} (o : Orientation)
    (hp : ∀ t, pane.activeTab = some t → ws.Fits t) :
    (AppWindow.addSplit ws target pane o).Follows := by
  have hins := h.insert (p := pane.id) (fun _ => hp)
  apply hins.with_tree
  rcases splitAt_focused ws.splitTree false target pane.id o with hf | hf
  · exact .inl hf
  · right
    intro q hq x t hl ht
    obtain rfl : q = pane.id := Option.some.inj (hq.symm.trans hf)
    rw [HashMap.lookup_insert_ite,if_pos rfl] at hl
    cases hl
    exact (hp t ht).congr rfl

omit [F64Ops F] in
theorem follows_paneFromTab {new : PaneId} {tab : Tab} (ht : ws.Fits tab)
    (hd : ws'.workingDirectory = ws.workingDirectory)
    (hm : ∀ pane, ws'.panes.lookup new = some pane → pane = paneFromTab new tab) :
    (ws'.setFocusedPane new).Follows := by
  apply PaneFits.setFocusedPane
  intro pane t hl hact
  rw [hm pane hl] at hact
  cases hact
  exact ht.congr hd

end Splits

end Workspace

/-! The operations. -/

/-- Every workspace follows its focused tab. -/
def AppWindow.Follows (aw : AppWindow F) : Prop := aw.Each Workspace.Follows

section Operations

variable {aw aw' : AppWindow F}

theorem follows_setPaneActive (h : aw.Follows) {i : ℕ} {p : PaneId}
    (hp : ∀ ws, aw.workspaces[i]? = some ws → ws.PaneFits p) : (aw.setPaneActive i p).Follows :=
  h.modifyWs rfl (fun ws hi _ => (hp ws hi).setFocusedPane)

/-- The index is that of the one workspace. -/
theorem paneFits_at {i : ℕ} {ws : Workspace F} {p : PaneId} (hi : aw.workspaces[i]? = some ws)
    (hp : ws.PaneFits p) : ∀ v, aw.workspaces[i]? = some v → v.PaneFits p := by
  intro v hv
  obtain rfl := Option.some.inj (hi.symm.trans hv)
  exact hp

theorem activeTab_single (id : PaneId) (k : PanelKind) {ws : Workspace F} {t : Tab}
    (ht : (Pane.single id k).activeTab = some t) : ws.Fits t := by
  cases ht
  exact Workspace.fits_of_none rfl

theorem follows_newPaneTab (h : aw.Follows) : aw.newPaneTab.Follows := by
  unfold AppWindow.newPaneTab
  split
  · exact h
  · split
    · exact h
    · apply h.modifyWs rfl
      intro ws _ hws
      apply hws.modifyPane
      intro _ pane t _ ht
      have hsel : (pane.addTab aw.ids.surface).activeTab =
          some (.fresh (.terminal aw.ids.surface)) := by
        simp [Pane.activeTab,Pane.addTab,Pane.push]
      rw [hsel] at ht
      cases ht
      exact Workspace.fits_of_none rfl

theorem follows_pushFresh (h : aw.Follows) {ws : Workspace F}
    (hw : aw'.workspaces = aw.workspaces ++ [ws]) (hm : ws.panes = aw.freshWorkspace.panes) :
    aw'.Follows := by
  apply h.append hw
  rw [Workspace.follows_iff]
  intro p _ pane t hl ht
  have hl' : ((∅ : HashMap PaneId Pane).insert aw.ids.pane
      (Pane.newWithId aw.ids.pane aw.ids.surface)).lookup p = some pane := by
    rw [hm] at hl
    exact hl
  rw [HashMap.lookup_insert_ite] at hl'
  split at hl'
  · cases hl'
    exact activeTab_single _ _ ht
  · cases hl'

theorem activeTab_restorePane (ids : IdCounters) (tabs : List PaneTabSnapshot) {t : Tab}
    (ht : (AppWindow.restorePane ids tabs).1.activeTab = some t) : t.workingDirectory = none := by
  obtain ⟨pane,he,-,-,hsel,htabs⟩ := restorePane_spec ids tabs
  rw [he] at ht
  have ht' : (restoredTabs { ids with pane := ids.pane+1 } (normTabs tabs))[0]? = some t := by
    rw [← htabs,← hsel]
    exact ht
  cases tabs with
  | nil =>
    cases ht'
    rfl
  | cons x xs =>
    simp only [normTabs,restoredTabs,List.getElem?_cons_zero,Option.some.injEq] at ht'
    rw [← ht']
    unfold restoredTab firstTab
    split <;> rfl

theorem buildLayout_active (ord : IterOrder NodeId) (l : LayoutSnapshot F)
    (s : Workspace F × IdCounters)
    (h : ∀ p pane t, s.1.panes.lookup p = some pane → pane.activeTab = some t →
      t.workingDirectory = none) :
    ∀ p pane t, (AppWindow.buildLayout ord l s).2.1.panes.lookup p = some pane →
      pane.activeTab = some t → t.workingDirectory = none := by
  induction l generalizing s with
  | single tabs =>
    intro p pane t hl ht
    have hl' : (s.1.panes.insert (AppWindow.restorePane s.2 tabs).1.id
        (AppWindow.restorePane s.2 tabs).1).lookup p = some pane := hl
    rw [HashMap.lookup_insert_ite] at hl'
    split at hl'
    · cases hl'
      exact activeTab_restorePane _ _ ht
    · exact h p pane t hl' ht
  | split o ratio first second ih₁ ih₂ => exact ih₂ _ (ih₁ s h)

theorem follows_restore (h : aw.Follows) (ord : IterOrder NodeId) (snap : WorkspaceSnapshot F)
    (port : Option UInt16) (id token : String) :
    (AppWindow.restoreWorkspaceFromLayout ord aw snap port id token).Follows := by
  obtain ⟨tree,ws,-,hb,he⟩ := restoredWorkspace_spec ord aw snap port id token
  have hact := buildLayout_active ord snap.layout (emptyRestored aw snap,
    { aw.ids with workspace := aw.ids.workspace+1 }) (fun p pane t hl => by cases hl)
  rw [hb] at hact
  have hws : (AppWindow.restoredWorkspace ord aw snap port id token).1.Follows := by
    rw [Workspace.follows_iff,he]
    intro p _ pane t hl ht
    exact Workspace.fits_of_none (hact p pane t hl ht)
  exact h.append rfl hws

/-- The pane of a closed panel loses a tab, or goes with its last one. -/
theorem follows_closePanel (h : aw.Follows) {i : ℕ} {ws : Workspace F} {p : PaneId}
    {rm : Pane → Pane} {pane : Pane} (hi : aw.workspaces[i]? = some ws)
    (hl : ws.panes.lookup p = some pane) (hrm : pane.tabs.length ≤ 1 → (rm pane).tabs = [])
    (hk : ws.FitsWithout p (rm pane)) (hs : aw.closePanel i ws p rm = some aw') :
    aw'.Follows := by
  unfold AppWindow.closePanel at hs
  simp only [hl,Option.map_some,Option.getD_some] at hs
  split_ifs at hs with h₁ h₂
  · exact h.removeWorkspaceAt hs
  · cases hs
    rw [refocus_eq]
    apply h.modifyWs rfl
    intro v hv _
    obtain rfl := Option.some.inj (hi.symm.trans hv)
    rw [Workspace.FitsWithout,if_pos (hrm h₂)] at hk
    apply Workspace.follows_remove hk
    intro q x hx
    rw [HashMap.lookup_erase_ite] at hx
    split at hx
    · cases hx
    · exact hx
  · cases hs
    apply h.modifyWs rfl
    intro v hv hws
    obtain rfl := Option.some.inj (hi.symm.trans hv)
    apply hws.modifyPane
    intro hf x t hx ht
    obtain rfl := Option.some.inj (hl.symm.trans hx)
    have hne : (rm pane).tabs ≠ [] := by
      intro he
      rw [Pane.activeTab,he] at ht
      cases ht
    rw [Workspace.FitsWithout,if_neg hne] at hk
    exact hk hf t ht

theorem removeWhere_single {pane : Pane} {f : Tab → Bool} (hf : pane.tabs.any f = true)
    (h1 : pane.tabs.length ≤ 1) : (pane.removeWhere f).tabs = [] := by
  obtain ⟨t,ht,hft⟩ := List.any_eq_true.mp hf
  have hone : pane.tabs = [t] := by
    cases hp : pane.tabs with
    | nil => rw [hp] at ht; cases ht
    | cons x xs =>
      rw [hp] at ht h1
      have hx : xs = [] := List.length_eq_zero_iff.mp (by simpa using h1)
      subst hx
      rw [List.mem_singleton.mp ht]
  simp [Pane.removeWhere,hone,hft]

theorem follows_closeSurface (h : aw.Follows) {s : SurfaceId}
    (hk : ∀ i ws p pane, aw.findWorkspaceWithSurface s = some (i,ws,p) →
      ws.panes.lookup p = some pane → ws.FitsWithout p (pane.removeTab s))
    (hs : aw.closeSurface s = some aw') : aw'.Follows := by
  unfold AppWindow.closeSurface at hs
  split at hs
  · cases hs; exact h
  · rename_i i ws p hf
    obtain ⟨hi,hp⟩ := findWs_spec hf
    obtain ⟨pane,hl,hany⟩ := paneForSurface_spec hp
    exact follows_closePanel h hi hl (removeWhere_single hany) (hk i ws p pane hf hl) hs

theorem follows_closeBrowser (h : aw.Follows) {b : BrowserPanelId}
    (hk : ∀ i ws p pane, aw.findWorkspaceWithBrowser b = some (i,ws,p) →
      ws.panes.lookup p = some pane → ws.FitsWithout p (pane.removeBrowserTab b))
    (hs : aw.closeBrowser b = some aw') : aw'.Follows := by
  unfold AppWindow.closeBrowser at hs
  split at hs
  · cases hs; exact h
  · rename_i i ws p hf
    obtain ⟨hi,hp⟩ := findWs_spec hf
    obtain ⟨pane,hl,hany⟩ := paneForBrowser_spec hp
    exact follows_closePanel h hi hl (removeWhere_single hany) (hk i ws p pane hf hl) hs

theorem fits_takeTab {ws ws' v : Workspace F} {source : PaneId} {x : TabDragIdentity} {pane : Pane}
    {idx : ℕ} {tab : Tab} (hk : DragFits ws source x v) (hl : ws.panes.lookup source = some pane)
    (hidx : tabIndexForIdentity pane x = some idx)
    (ht : AppWindow.takeTab ws source idx = some (tab,ws')) :
    v.Fits tab ∧ ws'.workingDirectory = ws.workingDirectory := by
  obtain ⟨pane',hl',ht⟩ := Option.bind_eq_some_iff.mp ht
  obtain ⟨⟨t,rest⟩,hr,he⟩ := Option.map_eq_some_iff.mp ht
  cases he
  obtain rfl := Option.some.inj (hl.symm.trans hl')
  exact ⟨hk pane idx _ hl hidx (removeTab_tabs hr).1,rfl⟩

theorem paneFits_putTab {ws ws' : Workspace F} {p : PaneId} {idx : ℕ} {tab : Tab}
    (ht : ws.Fits tab) (hp : AppWindow.putTab ws p idx tab = some ws') :
    ws'.PaneFits p ∧ ws'.workingDirectory = ws.workingDirectory := by
  obtain ⟨pane,hl,hp⟩ := Option.bind_eq_some_iff.mp hp
  obtain ⟨pane',hr,he⟩ := Option.map_eq_some_iff.mp hp
  cases he
  refine ⟨fun x t hx hact => ?_,rfl⟩
  rw [HashMap.lookup_insert_ite,if_pos rfl] at hx
  cases hx
  unfold Pane.insertSelected at hr
  split_ifs at hr with hle
  cases hr
  rw [Pane.activeTab,List.getElem?_insertIdx_self,if_pos hle] at hact
  cases hact
  exact ht.congr rfl

theorem follows_moveTabToPane (h : aw.Follows) {source target : PaneId} {x : TabDragIdentity}
    {insertion : TabInsertion} {widgets : Bool}
    (hk : widgets = true → ∀ i ws tpane, aw.current = some (i,ws) → source ≠ target →
      ws.panes.lookup target = some tpane → (insertionIndexForTarget tpane insertion).isSome →
      DragFits ws source x ws)
    (hs : aw.moveTabToPane source x target insertion widgets = some aw') : aw'.Follows := by
  unfold AppWindow.moveTabToPane at hs
  split at hs
  · cases hs; exact h
  rename_i i ws hc
  split at hs
  · cases hs; exact h
  rename_i hg
  split at hs
  · cases hs; exact h
  rename_i idx hidx
  split at hs
  · cases hs; exact h
  rename_i d hd
  split at hs
  · cases hs; exact h
  rename_i hw
  obtain ⟨pane,hl,hidx⟩ := Option.bind_eq_some_iff.mp hidx
  obtain ⟨tpane,htp,hd⟩ := Option.bind_eq_some_iff.mp hd
  have hdrag := hk (by simpa using hw) i ws tpane hc (fun he => hg (.inl he)) htp (by rw [hd]; rfl)
  refine h.putWs rfl (fun ws' hws' => ?_) hs
  obtain ⟨⟨tab,ws₁⟩,h₁,h₂⟩ := Option.bind_eq_some_iff.mp hws'
  obtain ⟨ws₂,h₃,rfl⟩ := Option.map_eq_some_iff.mp h₂
  obtain ⟨hfit,hd₁⟩ := fits_takeTab hdrag hl hidx h₁
  obtain ⟨hput,-⟩ := paneFits_putTab (hfit.congr hd₁) h₃
  apply Workspace.PaneFits.setFocusedPane
  exact hput.of_lookup (Workspace.directory_dropIfEmpty ws₂ source)
    (fun _ hx => Workspace.lookup_dropIfEmpty hx)

theorem follows_reorderTabInPane (h : aw.Follows) {p : PaneId} {x : TabDragIdentity}
    {insertion : TabInsertion} {widgets : Bool}
    (hs : aw.reorderTabInPane p x insertion widgets = some aw') : aw'.Follows := by
  unfold AppWindow.reorderTabInPane at hs
  split at hs
  · cases hs; exact h
  rename_i i ws hc
  split at hs
  · cases hs; exact h
  rename_i pane hl
  split at hs
  · cases hs; exact h
  split at hs
  · rename_i k j hk hj
    split at hs
    · cases hs; exact h
    · refine h.putWs rfl (fun ws' hws' => ?_) hs
      obtain ⟨tab,ht,hx⟩ := tabIndexForIdentity_spec hk
      obtain ⟨pane',d,hr,-,-,-,hact⟩ := reorder_completes ht hx hj
      rw [hr] at hws'
      cases hws'
      have hws : ws.Follows := h.at_index (current_spec hc)
      apply hws.insert
      intro hf t hsel
      refine Workspace.follows_iff.mp hws p hf pane t hl ?_
      rw [Pane.activeTab,← hact]
      exact hsel
  · cases hs; exact h

theorem mem_movedList {l : List (Workspace F)} {si ti : ℕ} {sws' tws' w : Workspace F}
    (hw : w ∈ movedList l si ti sws' tws') : w ∈ l ∨ w = sws' ∨ w = tws' := by
  unfold movedList at hw
  split at hw
  · rcases mem_modify (List.eraseIdx_subset hw) with hm | ⟨_,_,rfl⟩
    · exact .inl hm
    · exact .inr (.inr rfl)
  · rcases mem_modify hw with hm | ⟨_,_,rfl⟩
    · rcases mem_modify hm with hm | ⟨_,_,rfl⟩
      · exact .inl hm
      · exact .inr (.inl rfl)
    · exact .inr (.inr rfl)

theorem follows_moveTabToWorkspace (hinv : WindowInv aw) (h : aw.Follows) {source : PaneId}
    {x : TabDragIdentity} {targetWs : WorkspaceId} {widgets : Bool}
    (hk : widgets = true → ∀ i ws pane idx tab rest j v,
      aw.findWorkspaceWithPane source = some (i,ws,pane) →
      aw.findWorkspaceById targetWs = some (j,v,()) → i ≠ j →
      tabIndexForIdentity pane x = some idx →
      removeTabPreservingSelection pane idx = some (tab,rest) →
      v.Fits tab ∧ ws.FitsWithout source rest)
    (hs : aw.moveTabToWorkspace source x targetWs widgets = some aw') : aw'.Follows := by
  have hstep := hs
  unfold AppWindow.moveTabToWorkspace at hs
  split at hs
  · rename_i si sws spane ti tws u hfs hft
    split at hs
    · cases hs; exact h
    rename_i hne
    split at hs
    · cases hs; exact h
    rename_i target hdt
    split at hs
    · cases hs; exact h
    rename_i hg
    split at hs
    · cases hs; exact h
    rename_i idx hidx
    split at hs
    · cases hs; exact h
    rename_i hw
    rw [not_or,Option.isNone_iff_eq_none,Option.isNone_iff_eq_none,← ne_eq,← ne_eq,
      Option.ne_none_iff_isSome,Option.ne_none_iff_isSome] at hg
    obtain rfl : widgets = true := by simpa using hw
    obtain ⟨hsi,hfound⟩ := findWs_spec hfs
    obtain ⟨tpane,htp⟩ := dropTarget_lookup hdt
    obtain ⟨tab,hnth,-⟩ := tabIndexForIdentity_spec hidx
    obtain ⟨rest,hr,-⟩ := removeTab_lost hnth (sel_lt hinv hsi hfound)
    obtain ⟨page,-,haw⟩ := moveTabToWorkspace_result hinv hfs hft hne hdt hg.2 hg.1 hidx hr htp
    obtain ⟨hfit,hleft⟩ := hk rfl si sws spane idx tab rest ti tws hfs hft hne hidx hr
    obtain rfl := Option.some.inj (haw.symm.trans hstep)
    intro w hw
    rcases mem_movedList hw with hm | rfl | rfl
    · exact h w hm
    · exact Workspace.Follows.dropIfEmpty (h.at_index hsi) hleft
    · apply Workspace.PaneFits.setFocusedPane
      intro pane t hl ht
      rw [HashMap.lookup_insert_ite,if_pos rfl] at hl
      cases hl
      rw [Pane.activeTab,Pane.withTab,List.getElem?_insertIdx_self,if_pos le_rfl] at ht
      cases ht
      exact hfit.congr rfl
  · cases hs; exact h

/-! Focus, selection and reports. -/

theorem follows_setFocusedSurface (h : aw.Follows) {s : SurfaceId}
    (hk : ∀ i ws p, aw.findWorkspaceWithSurface s = some (i,ws,p) → ws.PaneFits p) :
    (aw.setFocusedSurface s).Follows := by
  unfold AppWindow.setFocusedSurface
  split
  · rename_i i ws p hf
    exact follows_setPaneActive h (paneFits_at (findWs_spec hf).1 (hk i ws p hf))
  · exact h

theorem follows_setFocusedBrowser (h : aw.Follows) {b : BrowserPanelId}
    (hk : ∀ i ws p, aw.findWorkspaceWithBrowser b = some (i,ws,p) → ws.PaneFits p) :
    (aw.setFocusedBrowser b).Follows := by
  unfold AppWindow.setFocusedBrowser
  split
  · rename_i i ws p hf
    exact follows_setPaneActive h (paneFits_at (findWs_spec hf).1 (hk i ws p hf))
  · exact h

theorem follows_focusPaneById (h : aw.Follows) {p : PaneId}
    (hk : ∀ i ws pane, aw.findWorkspaceWithPane p = some (i,ws,pane) → ws.PaneFits p) :
    (aw.focusPaneById p).2.Follows := by
  unfold AppWindow.focusPaneById
  split
  · exact h
  · rename_i i ws pane hf
    have hp := paneFits_at (findWs_spec hf).1 (hk i ws pane hf)
    have hpage : AppWindow.Follows { aw with currentPage := some i } := h
    dsimp only
    split
    · exact follows_setPaneActive h hp
    · exact follows_setPaneActive hpage hp

theorem follows_selectPaneTabGeneric (h : aw.Follows) {p : PaneId} {idx : ℕ}
    (hk : ∀ i ws pane t, aw.findWorkspaceWithPane p = some (i,ws,pane) →
      (pane.selectTab idx).activeTab = some t → ws.Fits t) :
    (aw.selectPaneTabGeneric p idx).Follows := by
  unfold AppWindow.selectPaneTabGeneric
  split
  · exact h
  · rename_i i ws pane hf
    obtain ⟨hi,hl⟩ := findWs_spec hf
    rw [AppWindow.setPaneActive,modifyWs_modifyWs]
    apply h.modifyWs rfl
    intro v hv _
    obtain rfl := Option.some.inj (hi.symm.trans hv)
    apply Workspace.PaneFits.setFocusedPane
    intro pane' t hl' ht
    have hsel : (ws.panes.modify p (fun pane => pane.selectTab idx)).lookup p = some pane' := hl'
    rw [modify_of_lookup hl,HashMap.lookup_insert_ite,if_pos rfl] at hsel
    cases hsel
    exact (hk i ws pane t hf ht).congr rfl

theorem follows_cyclePaneTab (h : aw.Follows) {forward : Bool}
    (hk : ∀ i ws p pane t, aw.current = some (i,ws) → ws.focusedPane = some p →
      ws.panes.lookup p = some pane → (pane.cycleTab forward).activeTab = some t → ws.Fits t) :
    (aw.cyclePaneTab forward).Follows := by
  unfold AppWindow.cyclePaneTab
  split
  · exact h
  · rename_i i ws hc
    split
    · exact h
    · rename_i p hp
      apply h.modifyWs rfl
      intro v hv hws
      obtain rfl := Option.some.inj ((current_spec hc).symm.trans hv)
      apply hws.modifyPane
      intro hf pane t hl ht
      exact hk i ws p pane t hc hp hl ht

theorem follows_currentTree (h : aw.Follows) (f : SplitTree F → SplitTree F)
    (hf : ∀ i ws, aw.current = some (i,ws) → (f ws.splitTree).focused = ws.focusedPane ∨
      ∀ p, (f ws.splitTree).focused = some p → ws.PaneFits p) :
    AppWindow.Follows (match aw.current with
      | none => aw
      | some (i,_) => aw.modifyWs i (fun ws => { ws with splitTree := f ws.splitTree })) := by
  split
  · exact h
  · rename_i i ws hc
    apply h.modifyWs rfl
    intro v hv hws
    obtain rfl := Option.some.inj ((current_spec hc).symm.trans hv)
    exact hws.with_tree (hf i ws hc)

theorem follows_onBrowserTitleChanged (h : aw.Follows) (b : BrowserPanelId) (title : String) :
    (aw.onBrowserTitleChanged b title).Follows := by
  unfold AppWindow.onBrowserTitleChanged
  split
  · exact h
  · exact h.modifyWs rfl (fun _ _ _ => Workspace.follows_updateTitle _)

theorem follows_setSurfaceTitle (h : aw.Follows) (home : Option String) (s : SurfaceId)
    (title : String) : (aw.setSurfaceTitle home s title).Follows := by
  unfold AppWindow.setSurfaceTitle
  split
  · exact h
  · exact h.modifyWs rfl (fun _ _ _ => Workspace.follows_updateTitle _)

/-- The directory is reported of the tab, but no workspace takes it over. -/
theorem follows_setSurfaceWorkingDirectory (h : aw.Follows) {home : Option String}
    {s : SurfaceId} {dir : String}
    (hk : ∀ ws ∈ aw.workspaces, ∀ t, ws.activeTab = some t → t.surfaceId = some s →
      ws.Fits (t.reportDirectory home dir)) :
    (aw.setSurfaceWorkingDirectory home s dir).Follows := by
  unfold AppWindow.setSurfaceWorkingDirectory
  split
  · exact h
  · apply h.modifyWs rfl
    intro ws hi hws
    apply hws.modifyPane
    intro hf pane t hl ht
    rw [Pane.activeTab,getElem?_updateWhere] at ht
    have hsel : (pane.updateWhere (fun t => t.surfaceId = some s)
        (Tab.reportDirectory home dir)).selectedTab = pane.selectedTab := by
      unfold Pane.updateWhere
      split <;> rfl
    rw [hsel] at ht
    have hact : ∀ t₀, pane.tabs[pane.selectedTab]? = some t₀ → ws.activeTab = some t₀ := by
      intro t₀ ht₀
      rw [Workspace.activeTab,hf,Option.bind_some,hl,Option.bind_some]
      exact ht₀
    split at ht
    · rename_i hidx
      obtain ⟨t₀,ht₀,rfl⟩ := Option.map_eq_some_iff.mp ht
      obtain ⟨hlt,hft,-⟩ := List.findIdx?_eq_some_iff_getElem.mp hidx
      have hs : t₀.surfaceId = some s := by
        rw [List.getElem?_eq_getElem hlt,Option.some.injEq] at ht₀
        exact ht₀ ▸ of_decide_eq_true hft
      exact hk ws (List.mem_of_getElem? hi) t₀ (hact t₀ ht₀) hs
    · exact hws t (hact t ht)

theorem follows_renameTab (h : aw.Follows) (p : PaneId) (idx : ℕ) (name : String) :
    (aw.renameTab p idx name).Follows := by
  unfold AppWindow.renameTab
  split
  · exact h
  · apply h.modifyWs rfl
    intro ws _ hws
    apply hws.modifyPane
    intro hf pane t hl ht
    rw [Pane.activeTab,List.getElem?_modify] at ht
    obtain ⟨t₀,ht₀,he⟩ := Option.map_eq_some_iff.mp ht
    have hfit := Workspace.follows_iff.mp hws p hf pane t₀ hl ht₀
    split at he
    · rw [← he]
      exact hfit
    · rw [← he]
      exact hfit

section Splits

variable [F64Ops F]

theorem follows_splitFocused (h : aw.Follows) (o : Orientation) : (aw.splitFocused o).Follows := by
  unfold AppWindow.splitFocused
  split
  · exact h
  · split
    · exact h
    · exact h.modifyWs rfl (fun ws _ hws => hws.addSplit _ o (fun _ => activeTab_single _ _))

theorem follows_splitBrowserInWorkspace (h : aw.Follows) {i : ℕ} {p : PaneId} {o : Orientation}
    {url : String} (hs : aw.splitBrowserInWorkspace i p o url = some aw') : aw'.Follows := by
  unfold AppWindow.splitBrowserInWorkspace at hs
  split_ifs at hs
  cases hs
  apply h.modifyWs rfl
  intro ws _ hws
  apply Workspace.PaneFits.setFocusedPane
  intro pane t hl ht
  have hl' : (ws.panes.insert aw.ids.pane
      (Pane.newBrowserWithId aw.ids.pane aw.ids.browser url)).lookup aw.ids.pane = some pane := hl
  rw [HashMap.lookup_insert_ite,if_pos rfl] at hl'
  cases hl'
  exact activeTab_single _ _ ht

theorem follows_splitFocusedBrowser (h : aw.Follows) {o : Orientation} {url : String}
    (hs : aw.splitFocusedBrowser o url = some aw') : aw'.Follows := by
  unfold AppWindow.splitFocusedBrowser at hs
  split at hs
  · cases hs; exact h
  · split at hs
    · cases hs; exact h
    · exact follows_splitBrowserInWorkspace h hs

theorem follows_openBrowserPopup (h : aw.Follows) {registered : Bool} {opener : BrowserPanelId}
    {url : String} (hs : aw.openBrowserPopup registered opener url = some aw') : aw'.Follows := by
  unfold AppWindow.openBrowserPopup at hs
  split at hs
  · cases hs; exact h
  · split at hs
    · exact follows_splitBrowserInWorkspace h hs
    · simp only at hs
      split at hs
      · cases hs; exact h
      · exact follows_splitBrowserInWorkspace h hs

/-- A move succeeds only for two different panes, and else leaves the tree alone. -/
theorem movePaneAdjacent_false {t : SplitTree F} (h : WellFormed t) (source target : PaneId)
    (before : Bool) (o : Orientation) :
    t.movePaneAdjacent source target before o = (false,t) ∨
      (t.movePaneAdjacent source target before o).1 = true ∧ source ≠ target := by
  by_cases hne : source = target
  · left
    rw [SplitTree.movePaneAdjacent,if_pos hne]
  · rcases h with h | ⟨nt,h⟩
    · exact .inl (h.movePaneAdjacent source target before o)
    · exact (SplitTree.movePaneAdjacent_spec h.shape h.panes_nodup source target before o).imp_right
        (fun hm => ⟨hm.1,hne⟩)

theorem follows_movePane (hinv : WindowInv aw) (h : aw.Follows) {source target : PaneId}
    (before : Bool) (o : Orientation)
    (hk : ∀ i ws, aw.current = some (i,ws) → source ≠ target →
      (ws.panes.lookup target).isSome → ws.PaneFits source) :
    (aw.movePane source target before o).Follows := by
  unfold AppWindow.movePane
  split
  · exact h
  rename_i i ws hc
  split
  · exact h
  rename_i hg
  have hi := current_spec hc
  have hws := hinv.ws ws (List.mem_of_getElem? hi)
  rcases movePaneAdjacent_false hws.tree source target before o with hm | ⟨hm,hne⟩
  · simp only [hm,Bool.false_eq_true,if_false]
    apply h.modifyWs rfl
    intro v hv hf
    obtain rfl := Option.some.inj (hi.symm.trans hv)
    exact hf.with_tree (.inl rfl)
  · simp only [hm,if_true]
    rw [AppWindow.setPaneActive,modifyWs_modifyWs]
    apply h.modifyWs rfl
    intro v hv _
    obtain rfl := Option.some.inj (hi.symm.trans hv)
    have ht : (ws.panes.lookup target).isSome := by
      rw [not_or,Option.isNone_iff_eq_none,Option.isNone_iff_eq_none,← ne_eq,← ne_eq,
        Option.ne_none_iff_isSome,Option.ne_none_iff_isSome] at hg
      exact hg.2
    apply Workspace.PaneFits.setFocusedPane
    exact (hk i ws hc hne ht).of_lookup rfl (fun _ hl => hl)

theorem follows_splitTabToPane (h : aw.Follows) {source : PaneId} {x : TabDragIdentity}
    {o : Orientation} {before widgets : Bool}
    (hk : widgets = true → ∀ i ws pane, aw.current = some (i,ws) →
      ws.panes.lookup source = some pane → 2 ≤ pane.tabs.length → DragFits ws source x ws)
    (hs : aw.splitTabToPane source x o before widgets = some aw') : aw'.Follows := by
  unfold AppWindow.splitTabToPane at hs
  split at hs
  · cases hs; exact h
  rename_i i ws hc
  split at hs
  · cases hs; exact h
  rename_i pane hl
  split at hs
  · cases hs; exact h
  rename_i hg
  split at hs
  · cases hs; exact h
  rename_i idx hidx
  split at hs
  · cases hs; exact h
  rename_i hw
  have hdrag := hk (by simpa using hw) i ws pane hc hl (by omega)
  simp only at hs
  refine h.putWs (by rfl) (fun ws' hws' => ?_) hs
  obtain ⟨⟨tab,ws₁⟩,h₁,h₂⟩ := Option.bind_eq_some_iff.mp hws'
  obtain ⟨ws₂,h₃,rfl⟩ := Option.map_eq_some_iff.mp h₂
  obtain ⟨hfit,hd₁⟩ := fits_takeTab hdrag hl hidx h₁
  have he := Workspace.expectSplit_spec h₃
  apply Workspace.follows_paneFromTab (hfit.congr hd₁)
  · rw [he]
    rfl
  · intro x hx
    have hx' : (ws₁.panes.insert aw.ids.pane (paneFromTab aw.ids.pane tab)).lookup aw.ids.pane =
        some x := by
      rw [he] at hx
      exact hx
    rw [HashMap.lookup_insert_ite,if_pos rfl] at hx'
    exact (Option.some.inj hx').symm

theorem follows_splitTabToPaneTarget (h : aw.Follows) {source target : PaneId}
    {x : TabDragIdentity} {o : Orientation} {before widgets : Bool}
    (hk : widgets = true → ∀ i ws, aw.current = some (i,ws) → source ≠ target →
      (ws.splitTree.nodeIdForPane target).isSome → DragFits ws source x ws)
    (hs : aw.splitTabToPaneTarget source x target o before widgets = some aw') :
    aw'.Follows := by
  unfold AppWindow.splitTabToPaneTarget at hs
  split at hs
  · cases hs; exact h
  rename_i i ws hc
  split at hs
  · cases hs; exact h
  rename_i hg
  split at hs
  · cases hs; exact h
  rename_i idx hidx
  split at hs
  · cases hs; exact h
  rename_i hw
  rw [not_or,not_or,Option.isNone_iff_eq_none,Option.isNone_iff_eq_none,← ne_eq,← ne_eq,← ne_eq,
    Option.ne_none_iff_isSome,Option.ne_none_iff_isSome] at hg
  have hdrag := hk (by simpa using hw) i ws hc hg.1 hg.2.2
  obtain ⟨pane,hl,hidx⟩ := Option.bind_eq_some_iff.mp hidx
  simp only at hs
  refine h.putWs (by rfl) (fun ws' hws' => ?_) hs
  obtain ⟨⟨tab,ws₁⟩,h₁,h₂⟩ := Option.bind_eq_some_iff.mp hws'
  obtain ⟨ws₂,h₃,rfl⟩ := Option.map_eq_some_iff.mp h₂
  obtain ⟨hfit,hd₁⟩ := fits_takeTab hdrag hl hidx h₁
  have he := Workspace.expectSplit_spec h₃
  apply Workspace.follows_paneFromTab (hfit.congr hd₁)
  · rw [he]
    exact Workspace.directory_dropIfEmpty _ source
  · intro x hx
    rw [he] at hx
    have hx' : (ws₁.panes.insert aw.ids.pane (paneFromTab aw.ids.pane tab)).lookup aw.ids.pane =
        some x := Workspace.lookup_dropIfEmpty hx
    rw [HashMap.lookup_insert_ite,if_pos rfl] at hx'
    exact (Option.some.inj hx').symm

theorem navigateDirectional_focus (t : SplitTree F) (d : Direction) :
    t.navigateDirectional d = (none,t) ∨
      ∃ p, t.navigateDirectional d = (some p,{ t with focused := some p }) := by
  simp only [SplitTree.navigateDirectional]
  split
  · exact .inl rfl
  · split
    · exact .inl rfl
    · split
      · exact .inr ⟨_,rfl⟩
      · exact .inl rfl

theorem follows_step (hinv : WindowInv aw) (h : aw.Follows) {op : WindowOp F}
    (hk : op.KeepsDirectory aw) (hs : aw.step op = some aw') : aw'.Follows := by
  by_cases hidle : op.Idle
  · exact AppWindow.Each.step_idle h Workspace.viewed_follows hidle hs
  cases op with
  | newWorkspace => cases hs; exact follows_pushFresh h rfl rfl
  | newRemoteWorkspace c port id token => cases hs; exact follows_pushFresh h rfl rfl
  | restoreWorkspaceFromLayout ord snap port id token =>
    cases hs; exact follows_restore h ord snap port id token
  | closeSurface s => exact follows_closeSurface h hk hs
  | closeBrowser b => exact follows_closeBrowser h hk hs
  | newPaneTab => cases hs; exact follows_newPaneTab h
  | splitFocused o => cases hs; exact follows_splitFocused h o
  | splitFocusedBrowser o url => exact follows_splitFocusedBrowser h hs
  | splitBrowserInWorkspace i p o url => exact follows_splitBrowserInWorkspace h hs
  | openBrowserPopup registered opener url => exact follows_openBrowserPopup h hs
  | movePane source target before o => cases hs; exact follows_movePane hinv h before o hk
  | splitTabToPane source x o before widgets => exact follows_splitTabToPane h hk hs
  | splitTabToPaneTarget source x target o before widgets =>
    exact follows_splitTabToPaneTarget h hk hs
  | moveTabToPane source x target insertion widgets => exact follows_moveTabToPane h hk hs
  | reorderTabInPane p x insertion widgets => exact follows_reorderTabInPane h hs
  | moveTabToWorkspace source x targetWs widgets =>
    exact follows_moveTabToWorkspace hinv h hk hs
  | setFocusedSurface s => cases hs; exact follows_setFocusedSurface h hk
  | setFocusedBrowser b => cases hs; exact follows_setFocusedBrowser h hk
  | focusPaneById p => cases hs; exact follows_focusPaneById h hk
  | selectPaneTabGeneric p idx => cases hs; exact follows_selectPaneTabGeneric h hk
  | cyclePaneTab forward => cases hs; exact follows_cyclePaneTab h hk
  | navigateSplit forward =>
    cases hs
    refine follows_currentTree h (fun t => (t.navigate forward).2) (fun i ws hc => ?_)
    rcases SplitTree.navigate_spec ws.splitTree forward with he | ⟨q,-,he⟩
    · exact .inl (by rw [he]; rfl)
    · right
      intro p hp
      apply hk i ws p hc
      rw [he] at hp ⊢
      exact hp
  | navigateDirection d =>
    cases hs
    refine follows_currentTree h (fun t => (t.navigateDirectional d).2) (fun i ws hc => ?_)
    rcases navigateDirectional_focus ws.splitTree d with he | ⟨q,he⟩
    · exact .inl (by rw [he]; rfl)
    · right
      intro p hp
      apply hk i ws p hc
      rw [he] at hp ⊢
      exact hp
  | onBrowserTitleChanged b title => cases hs; exact follows_onBrowserTitleChanged h b title
  | setSurfaceTitle home s title => cases hs; exact follows_setSurfaceTitle h home s title
  | setSurfaceWorkingDirectory home s dir =>
    cases hs; exact follows_setSurfaceWorkingDirectory h hk
  | renameTab p idx name => cases hs; exact follows_renameTab h p idx name
  | updateProxyEndpoint id e =>
    cases hs
    exact h.modifyById id (fun ws hws => by
      rw [Workspace.follows_iff] at hws ⊢
      exact fun p hp => (hws p hp).of_lookup rfl (fun _ hl => hl))
  | _ => exact absurd trivial hidle

/-- In a run whose steps all fit, every workspace has the directory of the tab that is
active in its focused pane, in every state. -/
theorem follows_of_run
    (h : Reachable (fun aw op => op.Targeted aw ∧ op.KeepsDirectory aw) aw) :
    ∀ ws ∈ aw.workspaces, ∀ t, ws.activeTab = some t → ∀ d, t.workingDirectory = some d →
      ws.workingDirectory = some d := by
  have hboth : WindowInv aw ∧ aw.Follows := by
    induction h with
    | empty he =>
      refine ⟨(Reachable.empty he).windowInv,fun ws hws => ?_⟩
      rw [he] at hws
      cases hws
    | step op _ hok hs ih =>
      exact ⟨windowInv_step ih.1 hok.1 hs,follows_step ih.1 ih.2 hok.2 hs⟩
  exact hboth.2

end Splits

end Operations

/-- A title names the directory before the shell reports it. -/
theorem follows_of_run_titled :
    Reachable (fun aw op => op.Targeted aw ∧ op.KeepsDirectory aw)
      ((AppWindow.start.newWorkspace.setSurfaceTitle none 1
        "me@host:/srv").setSurfaceWorkingDirectory none 1 "/srv") ∧
    ∀ ws ∈ ((AppWindow.start.newWorkspace.setSurfaceTitle none 1
        "me@host:/srv").setSurfaceWorkingDirectory none 1 "/srv").workspaces,
      ∀ t, ws.activeTab = some t → ∀ d, t.workingDirectory = some d →
        ws.workingDirectory = some d := by
  have h₁ : Reachable (fun aw op => op.Targeted aw ∧ op.KeepsDirectory aw)
      AppWindow.start.newWorkspace :=
    .step .newWorkspace (.empty rfl) ⟨trivial,trivial⟩ rfl
  have h₂ := Reachable.step (.setSurfaceTitle none 1 "me@host:/srv") h₁ ⟨trivial,trivial⟩ rfl
  have h₃ : Reachable (fun aw op => op.Targeted aw ∧ op.KeepsDirectory aw)
      ((AppWindow.start.newWorkspace.setSurfaceTitle none 1
        "me@host:/srv").setSurfaceWorkingDirectory none 1 "/srv") := by
    refine .step (.setSurfaceWorkingDirectory none 1 "/srv") h₂ ⟨trivial,?_⟩ rfl
    intro ws hws t ht _ d hd
    obtain rfl := List.mem_singleton.mp hws
    cases ht
    exact hd
  exact ⟨h₃,follows_of_run h₃⟩

/-- An authoritative report of the focused terminal does not reach its workspace. -/
theorem report_not_followed :
    Reachable WindowOp.Targeted
      (AppWindow.start.newWorkspace.setSurfaceWorkingDirectory none 1 "/srv") ∧
    ∃ ws ∈ (AppWindow.start.newWorkspace.setSurfaceWorkingDirectory none 1 "/srv").workspaces,
      ∃ t, ws.activeTab = some t ∧ t.surfaceId = some 1 ∧ t.workingDirectory = some "/srv" ∧
        ws.workingDirectory = none :=
  ⟨.step (.setSurfaceWorkingDirectory none 1 "/srv")
      (.step .newWorkspace (.empty rfl) trivial rfl) trivial rfl,
    _,List.mem_singleton.mpr rfl,_,rfl,rfl,rfl,rfl⟩

end Limux
