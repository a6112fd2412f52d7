import Limux.WindowEach

/-! A property of every single tab under the edits of panes and workspaces: an edit shows
no tab that was not shown before, but for the ones it is given. The property may look at
the endpoint of the workspace of the tab. -/
namespace Limux

variable {F : Type}

/-! The tabs of an edited pane. -/

namespace Pane

variable {p p' : Pane}

theorem removeWhere_tabs (p : Pane) (f : Tab → Bool) : (p.removeWhere f).tabs ⊆ p.tabs := by
  unfold removeWhere
  split
  · exact List.eraseIdx_subset
  · exact List.Subset.refl _

theorem cycleTab_tabs (p : Pane) (forward : Bool) : (p.cycleTab forward).tabs = p.tabs := by
  unfold cycleTab
  split
  · rfl
  · cases forward <;> rfl

theorem selectTab_tabs (p : Pane) (idx : ℕ) : (p.selectTab idx).tabs = p.tabs := by
  unfold selectTab
  split <;> rfl

theorem mem_tabs_modify {l : List Tab} {idx : ℕ} {g : Tab → Tab} {t : Tab}
    (h : t ∈ l.modify idx g) : t ∈ l ∨ ∃ t₀ ∈ l, t = g t₀ := by
  rcases mem_modify h with hm | ⟨t₀,hi,rfl⟩
  · exact .inl hm
  · exact .inr ⟨t₀,List.mem_of_getElem? hi,rfl⟩

theorem mem_updateWhere {f : Tab → Bool} {g : Tab → Tab} {t : Tab}
    (h : t ∈ (p.updateWhere f g).tabs) : t ∈ p.tabs ∨ ∃ t₀ ∈ p.tabs, f t₀ = true ∧ t = g t₀ := by
  unfold updateWhere at h
  split at h
  · rename_i idx hidx
    rcases mem_modify h with hm | ⟨t₀,hi,rfl⟩
    · exact .inl hm
    · obtain ⟨hlt,hf,-⟩ := List.findIdx?_eq_some_iff_getElem.mp hidx
      rw [List.getElem?_eq_getElem hlt,Option.some.injEq] at hi
      exact .inr ⟨t₀,hi ▸ List.getElem_mem hlt,hi ▸ hf,rfl⟩
  · exact .inl h

theorem mem_insertSelected {idx : ℕ} {tab t : Tab} (h : p.insertSelected idx tab = some p')
    (ht : t ∈ p'.tabs) : t = tab ∨ t ∈ p.tabs := by
  unfold insertSelected at h
  split_ifs at h
  cases h
  exact List.eq_or_mem_of_mem_insertIdx ht

theorem reorder_tabs {i j : ℕ} (h : p.reorder i j = some p') : p'.tabs ⊆ p.tabs := by
  unfold reorder at h
  simp only at h
  generalize (if i < min j p.tabs.length then min j p.tabs.length-1 else min j p.tabs.length) = d
    at h
  split at h
  · cases h; exact List.Subset.refl _
  · split at h
    · cases h
    · rename_i t ht
      split at h
      · cases h
      · cases h
        intro x hx
        rcases List.eq_or_mem_of_mem_insertIdx hx with rfl | hm
        · exact List.mem_of_getElem? ht
        · exact List.eraseIdx_subset hm

end Pane

theorem removeTab_tabs {p p' : Pane} {idx : ℕ} {tab : Tab}
    (h : removeTabPreservingSelection p idx = some (tab,p')) :
    p.tabs[idx]? = some tab ∧ p'.tabs = p.tabs.eraseIdx idx := by
  unfold removeTabPreservingSelection at h
  split at h
  · cases h
  · rename_i t ht
    cases h
    exact ⟨ht,rfl⟩

/-- Every tab satisfies `Q` with the endpoint of the workspace. -/
def Workspace.AllTabs (Q : Option ProxyEndpoint → Tab → Prop) (ws : Workspace F) : Prop :=
  ∀ p pane, ws.panes.lookup p = some pane → ∀ t ∈ pane.tabs, Q ws.proxyEndpoint t

namespace Workspace.AllTabs

variable {Q : Option ProxyEndpoint → Tab → Prop} {ws ws' : Workspace F}

theorem congr (h : ws.AllTabs Q) (hp : ws'.proxyEndpoint = ws.proxyEndpoint)
    (hm : ws'.panes = ws.panes) : ws'.AllTabs Q := by
  intro p pane hl t ht
  rw [hp]
  exact h p pane (hm ▸ hl) t ht

theorem viewed (Q : Option ProxyEndpoint → Tab → Prop) :
    Workspace.Viewed (F := F) (Workspace.AllTabs Q) :=
  fun _ _ h hm _ _ hp => h.congr hp hm

theorem insert (h : ws.AllTabs Q) (p : PaneId) {pane : Pane}
    (hp : ∀ t ∈ pane.tabs, Q ws.proxyEndpoint t) :
    Workspace.AllTabs Q { ws with panes := ws.panes.insert p pane } := by
  intro q x hl t ht
  rw [HashMap.lookup_insert_ite] at hl
  split at hl
  · cases hl
    exact hp t ht
  · exact h q x hl t ht

theorem removePane (h : ws.AllTabs Q) (p : PaneId) : (ws.removePane p).AllTabs Q := by
  intro q x hl t ht
  rw [Workspace.removePane,HashMap.lookup_erase_ite] at hl
  split at hl
  · cases hl
  · exact h q x hl t ht

theorem setFocusedPane (h : ws.AllTabs Q) (p : PaneId) : (ws.setFocusedPane p).AllTabs Q :=
  h.congr rfl rfl

theorem modifyPane (h : ws.AllTabs Q) (p : PaneId) {f : Pane → Pane}
    (hf : ∀ pane, (∀ t ∈ pane.tabs, Q ws.proxyEndpoint t) →
      ∀ t ∈ (f pane).tabs, Q ws.proxyEndpoint t) : (ws.modifyPane p f).AllTabs Q := by
  unfold Workspace.modifyPane
  rcases hl : ws.panes.lookup p with _ | pane
  · rw [modify_of_none hl]
    exact h
  · rw [modify_of_lookup hl]
    exact h.insert p (hf pane (h p pane hl))

theorem modifyPane_of_subset (h : ws.AllTabs Q) (p : PaneId) {f : Pane → Pane}
    (hf : ∀ pane, (f pane).tabs ⊆ pane.tabs) : (ws.modifyPane p f).AllTabs Q :=
  h.modifyPane p (fun pane hq t ht => hq t (hf pane ht))

theorem updateTitleFromFocused (h : ws.AllTabs Q) : ws.updateTitleFromFocused.AllTabs Q := by
  unfold Workspace.updateTitleFromFocused
  split
  · exact h
  · split
    · exact h
    · dsimp only
      split <;> split <;> exact h.congr rfl rfl

theorem dropPane (h : ws.AllTabs Q) (p : PaneId) :
    ({ ws with splitTree := (ws.splitTree.remove p).2 }.removePane p).AllTabs Q :=
  (h.removePane p).congr rfl rfl

theorem dropIfEmpty (h : ws.AllTabs Q) (p : PaneId) :
    (AppWindow.dropIfEmpty ws p).AllTabs Q := by
  unfold AppWindow.dropIfEmpty
  split
  · exact h.dropPane p
  · exact h

theorem expectSplit [F64Ops F] (h : ws.AllTabs Q) {before : Bool} {target new : PaneId}
    {o : Orientation} (hs : AppWindow.expectSplit ws before target new o = some ws') :
    ws'.AllTabs Q := by
  unfold AppWindow.expectSplit at hs
  split at hs
  · cases hs
  · cases hs
    exact h.congr rfl rfl

theorem addSplit [F64Ops F] (h : ws.AllTabs Q) (target : PaneId) {pane : Pane} (o : Orientation)
    (hp : ∀ t ∈ pane.tabs, Q ws.proxyEndpoint t) :
    (AppWindow.addSplit ws target pane o).AllTabs Q :=
  (h.insert pane.id hp).congr rfl rfl

theorem takeTab (h : ws.AllTabs Q) {p : PaneId} {idx : ℕ} {tab : Tab}
    (ht : AppWindow.takeTab ws p idx = some (tab,ws')) :
    ws'.AllTabs Q ∧ ws'.proxyEndpoint = ws.proxyEndpoint ∧ Q ws.proxyEndpoint tab ∧
      ∃ pane, ws.panes.lookup p = some pane ∧ pane.tabs[idx]? = some tab := by
  obtain ⟨pane,hl,ht⟩ := Option.bind_eq_some_iff.mp ht
  obtain ⟨⟨t,pane'⟩,hr,he⟩ := Option.map_eq_some_iff.mp ht
  cases he
  obtain ⟨hidx,htabs⟩ := removeTab_tabs hr
  refine ⟨h.insert p (fun x hx => ?_),rfl,h p pane hl _ (List.mem_of_getElem? hidx),
    pane,hl,hidx⟩
  apply h p pane hl
  rw [htabs] at hx
  exact List.eraseIdx_subset hx

theorem putTab (h : ws.AllTabs Q) {p : PaneId} {idx : ℕ} {tab : Tab}
    (hq : Q ws.proxyEndpoint tab) (ht : AppWindow.putTab ws p idx tab = some ws') :
    ws'.AllTabs Q := by
  obtain ⟨pane,hl,ht⟩ := Option.bind_eq_some_iff.mp ht
  obtain ⟨pane',hr,he⟩ := Option.map_eq_some_iff.mp ht
  cases he
  apply h.insert p
  intro t hm
  rcases Pane.mem_insertSelected hr hm with rfl | hm
  · exact hq
  · exact h p pane hl t hm

end Workspace.AllTabs

/-! A saved layout. -/

def LayoutSnapshot.leaves : LayoutSnapshot F → List (List PaneTabSnapshot)
  | .single tabs => [tabs]
  | .split _ _ first second => first.leaves ++ second.leaves

theorem restorePane_ids_le (ids : IdCounters) (tabs : List PaneTabSnapshot) :
    ids.Le (AppWindow.restorePane ids tabs).2 := by
  obtain ⟨pane,he,-⟩ := restorePane_spec ids tabs
  rw [he]
  have hle : ids.Le { ids with pane := ids.pane+1 } := ⟨le_rfl,Nat.le_succ _,le_rfl,le_rfl⟩
  exact hle.trans (fresh_restoredTabs _ _).le

theorem buildLayout_ids_le (ord : IterOrder NodeId) (l : LayoutSnapshot F)
    (s : Workspace F × IdCounters) : s.2.Le (AppWindow.buildLayout ord l s).2.2 := by
  induction l generalizing s with
  | single tabs => exact restorePane_ids_le s.2 tabs
  | split o ratio first second ih₁ ih₂ => exact (ih₁ s).trans (ih₂ _)

/-- The tabs of a restored layout are those of its leaves, with ids from the allocators. -/
theorem allTabs_buildLayout {Q : Option ProxyEndpoint → Tab → Prop} (ord : IterOrder NodeId)
    (l : LayoutSnapshot F) (s : Workspace F × IdCounters) (h : s.1.AllTabs Q)
    (hq : ∀ ids, s.2.Le ids → ∀ tabs ∈ l.leaves, ∀ t ∈ restoredTabs ids (normTabs tabs),
      Q s.1.proxyEndpoint t) : (AppWindow.buildLayout ord l s).2.1.AllTabs Q := by
  induction l generalizing s with
  | single tabs =>
    obtain ⟨pane,he,-,-,-,htabs⟩ := restorePane_spec s.2 tabs
    have hpane : ∀ t ∈ pane.tabs, Q s.1.proxyEndpoint t := by
      rw [htabs]
      exact hq { s.2 with pane := s.2.pane+1 } ⟨le_rfl,Nat.le_succ _,le_rfl,le_rfl⟩ tabs
        (List.mem_singleton_self tabs)
    have hins := h.insert pane.id hpane
    simp only [AppWindow.buildLayout,he]
    exact hins
  | split o ratio first second ih₁ ih₂ =>
    have h₁ := ih₁ s h (fun ids hle tabs hm => hq ids hle tabs (List.mem_append_left _ hm))
    have hend : (AppWindow.buildLayout ord first s).2.1.proxyEndpoint = s.1.proxyEndpoint := by
      rw [buildLayout_rest ord first s]
    apply ih₂ _ h₁
    intro ids hle tabs hm t ht
    rw [hend]
    exact hq ids ((buildLayout_ids_le ord first s).trans hle) tabs
      (List.mem_append_right _ hm) t ht

end Limux
