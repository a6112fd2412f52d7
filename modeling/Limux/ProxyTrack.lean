import Limux.Proxy

/-! Browsers under the edits of panes, workspaces and windows: an edit shows no
browser that was not shown before, so a workspace whose browsers go over its own
endpoint stays one. -/
namespace Limux

variable {F : Type}

theorem mem_paneIdentities {m : HashMap PaneId Pane} {x : TabDragIdentity} :
    x ∈ paneIdentities m ↔ ∃ p pane, m.lookup p = some pane ∧ x ∈ pane.identities := by
  unfold paneIdentities
  rw [List.mem_flatMap]
  constructor
  · rintro ⟨pane,hp,hx⟩
    obtain ⟨p,hl⟩ := HashMap.mem_values.mp hp
    exact ⟨p,pane,hl,hx⟩
  · rintro ⟨p,pane,hl,hx⟩
    exact ⟨pane,HashMap.mem_values.mpr ⟨p,hl⟩,hx⟩

theorem mem_paneIdentities_erase {m : HashMap PaneId Pane} {p : PaneId} {x : TabDragIdentity}
    (h : x ∈ paneIdentities (m.erase p)) : x ∈ paneIdentities m := by
  obtain ⟨q,pane,hl,hx⟩ := mem_paneIdentities.mp h
  rw [HashMap.lookup_erase_ite] at hl
  split at hl
  · cases hl
  · exact mem_paneIdentities.mpr ⟨q,pane,hl,hx⟩

theorem mem_paneIdentities_insert {m : HashMap PaneId Pane} {p : PaneId} {pane : Pane}
    {x : TabDragIdentity} (h : x ∈ paneIdentities (m.insert p pane)) :
    x ∈ pane.identities ∨ x ∈ paneIdentities m := by
  rw [paneIdentities_insert,List.mem_append] at h
  exact h.imp_right mem_paneIdentities_erase

theorem subset_paneIdentities {m : HashMap PaneId Pane} {p : PaneId} {pane : Pane}
    (h : m.lookup p = some pane) : pane.identities ⊆ paneIdentities m :=
  fun _ hx => mem_paneIdentities.mpr ⟨p,pane,h,hx⟩

namespace Pane

theorem hasBrowser_iff {p : Pane} {b : BrowserPanelId} :
    p.hasBrowser b = true ↔ .browser b ∈ p.identities := by
  simp [hasBrowser,identities,browserId_eq_some]

theorem removeWhere_subset (p : Pane) (f : Tab → Bool) :
    (p.removeWhere f).identities ⊆ p.identities := by
  unfold removeWhere
  split
  · exact List.map_subset _ (List.eraseIdx_subset)
  · exact List.Subset.refl _

theorem cycleTab_identities (p : Pane) (forward : Bool) :
    (p.cycleTab forward).identities = p.identities := by
  unfold cycleTab
  split
  · rfl
  · cases forward <;> rfl

theorem updateWhere_identities (p : Pane) (f : Tab → Bool) {g : Tab → Tab}
    (hg : ∀ t, (g t).panel = t.panel) : (p.updateWhere f g).identities = p.identities := by
  unfold updateWhere
  split
  · exact identities_modify p _ hg
  · rfl

end Pane

theorem removeTab_subset {p p' : Pane} {idx : ℕ} {tab : Tab}
    (h : removeTabPreservingSelection p idx = some (tab,p')) :
    p.tabs[idx]? = some tab ∧ p'.identities ⊆ p.identities := by
  unfold removeTabPreservingSelection at h
  split at h
  · cases h
  · rename_i t ht
    cases h
    exact ⟨ht,List.map_subset _ (List.eraseIdx_subset)⟩

theorem reorder_subset {p p' : Pane} {i j : ℕ} (h : p.reorder i j = some p') :
    p'.identities ⊆ p.identities := by
  unfold Pane.reorder at h
  simp only at h
  generalize (if i < min j p.tabs.length then min j p.tabs.length-1 else min j p.tabs.length) = d
    at h
  split at h
  · cases h; exact List.Subset.refl _
  · split at h
    · cases h
    · rename_i t ht
      split at h
      · cases h
      · cases h
        refine List.map_subset _ (fun x hx => ?_)
        rcases List.eq_or_mem_of_mem_insertIdx hx with rfl | hm
        · exact List.mem_of_getElem? ht
        · exact List.eraseIdx_subset hm

theorem Workspace.mem_browserIds {ws : Workspace F} {b : BrowserPanelId} :
    b ∈ ws.browserIds ↔ ws.Shows b := by
  unfold Workspace.browserIds Workspace.Shows Workspace.identities paneIdentities
  simp [Pane.identities,browserId_eq_some]

/-! A saved layout without browser tabs brings none in. -/

theorem restoredTabs_noBrowser (ids : IdCounters) {tabs : List PaneTabSnapshot}
    (h : tabs.any PaneTabSnapshot.isBrowser = false) (b : BrowserPanelId) :
    .browser b ∉ (restoredTabs ids tabs).map Tab.identity := by
  induction tabs generalizing ids with
  | nil => simp [restoredTabs]
  | cons t ts ih =>
    rw [List.any_cons,Bool.or_eq_false_iff] at h
    rw [restoredTabs,List.map_cons,List.mem_cons,not_or]
    refine ⟨?_,ih _ h.2⟩
    simp [restoredTab,h.1,Tab.identity,panelDragIdentity]

theorem normTabs_noBrowser {tabs : List PaneTabSnapshot}
    (h : tabs.any PaneTabSnapshot.isBrowser = false) :
    (normTabs tabs).any PaneTabSnapshot.isBrowser = false := by
  cases tabs with
  | nil => rfl
  | cons t ts => exact h

theorem buildLayout_noBrowser (ord : IterOrder NodeId) (b : BrowserPanelId)
    {l : LayoutSnapshot F} (h : Routed.hasBrowser l = false) (s : Workspace F × IdCounters)
    (hb : (AppWindow.buildLayout ord l s).2.1.Shows b) : s.1.Shows b := by
  induction l generalizing s with
  | single tabs =>
    obtain ⟨pane,he,-,-,-,htabs⟩ := restorePane_spec s.2 tabs
    have hb' : .browser b ∈ paneIdentities (s.1.panes.insert
        (AppWindow.restorePane s.2 tabs).1.id (AppWindow.restorePane s.2 tabs).1) := hb
    rw [he] at hb'
    refine (mem_paneIdentities_insert hb').resolve_left (fun hp => ?_)
    rw [Pane.identities,htabs] at hp
    exact restoredTabs_noBrowser _ (normTabs_noBrowser h) b hp
  | split o ratio first second ih₁ ih₂ =>
    rw [Routed.hasBrowser,Bool.or_eq_false_iff] at h
    exact ih₁ h.1 s (ih₂ h.2 _ hb)

/-- The browsers of the workspace go over its endpoint when the session has proxy `e`. -/
def Workspace.OnRoute (e : Option ProxyEndpoint) (ws : Workspace F) : Prop :=
  ∀ b, ws.Shows b → e = ws.proxyEndpoint

namespace Workspace.OnRoute

variable {e : Option ProxyEndpoint} {ws ws' : Workspace F}

theorem of_subset (h : ws.OnRoute e) (hp : ws'.proxyEndpoint = ws.proxyEndpoint)
    (hs : ws'.identities ⊆ ws.identities) : ws'.OnRoute e :=
  fun b hb => (h b (hs hb)).trans hp.symm

theorem congr (h : ws.OnRoute e) (hp : ws'.proxyEndpoint = ws.proxyEndpoint)
    (hm : ws'.panes = ws.panes) : ws'.OnRoute e :=
  h.of_subset hp (by rw [Workspace.identities,hm]; exact List.Subset.refl _)

theorem insert (h : ws.OnRoute e) (p : PaneId) {pane : Pane}
    (hp : ∀ b, .browser b ∈ pane.identities → e = ws.proxyEndpoint) :
    Workspace.OnRoute e { ws with panes := ws.panes.insert p pane } :=
  fun b hb => (mem_paneIdentities_insert hb).elim (hp b) (h b)

theorem removePane (h : ws.OnRoute e) (p : PaneId) : (ws.removePane p).OnRoute e :=
  h.of_subset rfl (fun _ => mem_paneIdentities_erase)

theorem setFocusedPane (h : ws.OnRoute e) (p : PaneId) : (ws.setFocusedPane p).OnRoute e :=
  h.congr rfl rfl

theorem modifyPane (h : ws.OnRoute e) (p : PaneId) {f : Pane → Pane}
    (hf : ∀ pane b, .browser b ∈ (f pane).identities →
      .browser b ∈ pane.identities ∨ e = ws.proxyEndpoint) : (ws.modifyPane p f).OnRoute e := by
  unfold Workspace.modifyPane
  rcases hl : ws.panes.lookup p with _ | pane
  · rw [modify_of_none hl]
    exact h
  · rw [modify_of_lookup hl]
    refine h.insert p (fun b hb => ?_)
    exact (hf pane b hb).elim (fun hb => h b (subset_paneIdentities hl hb))
      (fun he => he)

theorem modifyPane_of_subset (h : ws.OnRoute e) (p : PaneId) {f : Pane → Pane}
    (hf : ∀ pane, (f pane).identities ⊆ pane.identities) : (ws.modifyPane p f).OnRoute e :=
  h.modifyPane p (fun pane _ hb => .inl (hf pane hb))

theorem updateTitleFromFocused (h : ws.OnRoute e) : ws.updateTitleFromFocused.OnRoute e := by
  unfold Workspace.updateTitleFromFocused
  split
  · exact h
  · split
    · exact h
    · dsimp only
      split <;> split <;> exact h.congr rfl rfl

theorem dropPane (h : ws.OnRoute e) (p : PaneId) :
    ({ ws with splitTree := (ws.splitTree.remove p).2 }.removePane p).OnRoute e :=
  h.of_subset rfl (fun _ => mem_paneIdentities_erase)

theorem dropIfEmpty (h : ws.OnRoute e) (p : PaneId) : (AppWindow.dropIfEmpty ws p).OnRoute e := by
  unfold AppWindow.dropIfEmpty
  split
  · exact h.dropPane p
  · exact h

theorem expectSplit [F64Ops F] (h : ws.OnRoute e) {before : Bool} {target new : PaneId}
    {o : Orientation} (hs : AppWindow.expectSplit ws before target new o = some ws') :
    ws'.OnRoute e := by
  unfold AppWindow.expectSplit at hs
  split at hs
  · cases hs
  · cases hs
    exact h.congr rfl rfl

theorem addSplit [F64Ops F] (h : ws.OnRoute e) (target : PaneId) {pane : Pane} (o : Orientation)
    (hp : ∀ b, .browser b ∈ pane.identities → e = ws.proxyEndpoint) :
    (AppWindow.addSplit ws target pane o).OnRoute e :=
  (h.insert pane.id hp).congr rfl rfl

theorem takeTab (h : ws.OnRoute e) {p : PaneId} {idx : ℕ} {tab : Tab}
    (ht : AppWindow.takeTab ws p idx = some (tab,ws')) :
    ws'.OnRoute e ∧ ws'.proxyEndpoint = ws.proxyEndpoint ∧
      (∀ b, tab.identity = .browser b → e = ws.proxyEndpoint) ∧
      ∃ pane, ws.panes.lookup p = some pane ∧ pane.tabs[idx]? = some tab := by
  obtain ⟨pane,hl,ht⟩ := Option.bind_eq_some_iff.mp ht
  obtain ⟨⟨t,pane'⟩,hr,he⟩ := Option.map_eq_some_iff.mp ht
  cases he
  obtain ⟨hidx,hsub⟩ := removeTab_subset hr
  refine ⟨h.insert p (fun b hb => h b (subset_paneIdentities hl (hsub hb))),rfl,fun b hb => ?_,
    pane,hl,hidx⟩
  refine h b (subset_paneIdentities hl ?_)
  rw [← hb]
  exact List.mem_map_of_mem (List.mem_of_getElem? hidx)

theorem putTab (h : ws.OnRoute e) {p : PaneId} {idx : ℕ} {tab : Tab}
    (hb : ∀ b, tab.identity = .browser b → e = ws.proxyEndpoint)
    (ht : AppWindow.putTab ws p idx tab = some ws') : ws'.OnRoute e := by
  obtain ⟨pane,hl,ht⟩ := Option.bind_eq_some_iff.mp ht
  obtain ⟨pane',hr,he⟩ := Option.map_eq_some_iff.mp ht
  cases he
  refine h.insert p (fun b hm => ?_)
  rcases List.mem_cons.mp ((insertSelected_spec hr).2.2.mem_iff.mp hm) with hm | hm
  · exact hb b hm.symm
  · exact h b (subset_paneIdentities hl hm)

end Workspace.OnRoute

end Limux
