import Limux.WindowRun

/-! Closing one of several tabs of a pane: `close_surface` and `close_browser` find
the pane of the panel, and which tab is selected afterwards. -/
namespace Limux

variable {F : Type}

/-- `close_surface` or `close_browser`, after the kind of the panel. -/
def AppWindow.closeTab (aw : AppWindow F) : PanelKind → Option (AppWindow F)
  | .terminal s => aw.closeSurface s
  | .browser b _ => aw.closeBrowser b

/-- `Pane::remove_tab` or `Pane::remove_browser_tab`. -/
def Pane.removePanel (pane : Pane) : PanelKind → Pane
  | .terminal s => pane.removeTab s
  | .browser b _ => pane.removeBrowserTab b

/-- What closing tab `k` is to leave selected: the same panel, or a neighbour when
the selected tab itself was closed, as for a tab that is moved away. -/
structure KeepsView (pane : Pane) (k : ℕ) (pane' : Pane) : Prop where
  kept : k ≠ pane.selectedTab → pane'.activePanel = pane.activePanel
  neighbour : k = pane.selectedTab → ∃ j tab, (j = k+1 ∨ j+1 = k) ∧ pane.tabs[j]? = some tab ∧
    pane'.activePanel = some tab.panel
  agrees : (removeTabPreservingSelection pane k).map Prod.snd = some pane'

section Owner

/-- In a list without repetitions of the parts, an element has one owner. -/
theorem owner_unique {A B : Type} {l : List A} {f : A → List B} (h : (l.flatMap f).Nodup)
    {i j : ℕ} {a b : A} (hi : l[i]? = some a) (hj : l[j]? = some b) {x : B} (ha : x ∈ f a)
    (hb : x ∈ f b) : i = j := by
  have hp := List.pairwise_iff_getElem.mp (List.nodup_flatMap.mp h).2
  obtain ⟨hil,rfl⟩ := List.getElem?_eq_some_iff.mp hi
  obtain ⟨hjl,rfl⟩ := List.getElem?_eq_some_iff.mp hj
  rcases lt_trichotomy i j with hlt | heq | hgt
  · exact absurd hb (hp i j hil hjl hlt ha)
  · exact heq
  · exact absurd ha (hp j i hjl hil hgt hb)

theorem pane_owner_unique {m : HashMap PaneId Pane} (h : (paneIdentities m).Nodup) {p q : PaneId}
    {pane pane' : Pane} (hp : m.lookup p = some pane) (hq : m.lookup q = some pane')
    {x : TabDragIdentity} (hx : x ∈ pane.identities) (hx' : x ∈ pane'.identities) : p = q := by
  by_contra hne
  have hn := (paneIdentities_erase hp).nodup_iff.mp h
  refine (List.nodup_append.mp hn).2.2 x hx x ?_ rfl
  refine List.mem_flatMap.mpr ⟨pane',HashMap.mem_values.mpr ⟨q,?_⟩,hx'⟩
  rw [HashMap.lookup_erase_ite,if_neg (Ne.symm hne),hq]

variable {aw : AppWindow F} {ws : Workspace F} {i : ℕ} {p : PaneId} {pane : Pane}

theorem mem_workspace_identities (hp : ws.panes.lookup p = some pane) {x : TabDragIdentity}
    (hx : x ∈ pane.identities) : x ∈ ws.identities :=
  List.mem_flatMap.mpr ⟨pane,HashMap.mem_values.mpr ⟨p,hp⟩,hx⟩

theorem WindowInv.pane_identities_nodup (h : WindowInv aw) (hi : aw.workspaces[i]? = some ws) :
    (paneIdentities ws.panes).Nodup :=
  (List.nodup_flatMap.mp h.identities_nodup).1 ws (List.mem_of_getElem? hi)

/-- The search for the pane of a panel finds its only owner. -/
theorem WindowInv.findWs_owner (h : WindowInv aw) (hi : aw.workspaces[i]? = some ws)
    (hp : ws.panes.lookup p = some pane) {x : TabDragIdentity} (hx : x ∈ pane.identities)
    {f : Tab → Bool} (hf : ∀ t, f t = true ↔ t.identity = x) :
    aw.findWs (fun ws => (ws.panes.entries.find? (fun e => e.2.tabs.any f)).map Sigma.fst) =
      some (i,ws,p) := by
  have hhas : ∀ q : Pane, q.tabs.any f = true ↔ x ∈ q.identities := by
    intro q
    simp only [List.any_eq_true,hf,Pane.identities,List.mem_map]
  have hsearch : ∀ {w : Workspace F} {q : PaneId},
      (w.panes.entries.find? (fun e => e.2.tabs.any f)).map Sigma.fst = some q →
      ∃ pane', w.panes.lookup q = some pane' ∧ x ∈ pane'.identities := by
    intro w q hq
    obtain ⟨e,he,rfl⟩ := Option.map_eq_some_iff.mp hq
    have hany := List.find?_some he
    exact ⟨e.2,AList.mem_lookup_iff.mpr (List.mem_of_find?_eq_some he),(hhas e.2).mp hany⟩
  cases hw : aw.findWs
      (fun ws => (ws.panes.entries.find? (fun e => e.2.tabs.any f)).map Sigma.fst) with
  | some r =>
    obtain ⟨j,w,q⟩ := r
    obtain ⟨hj,hq⟩ := findWs_spec hw
    obtain ⟨pane',hl,hx'⟩ := hsearch hq
    obtain rfl := owner_unique h.identities_nodup hi hj (mem_workspace_identities hp hx)
      (mem_workspace_identities hl hx')
    obtain rfl := Option.some.inj (hi.symm.trans hj)
    rw [pane_owner_unique (h.pane_identities_nodup hi) hp hl hx hx']
  | none =>
    have hnone := List.findSome?_eq_none_iff.mp hw (ws,i) (List.mem_zipIdx_iff_getElem?.mpr hi)
    rw [Option.map_eq_none_iff,Option.map_eq_none_iff,List.find?_eq_none] at hnone
    exact absurd ((hhas pane).mpr hx) (hnone ⟨p,pane⟩ (AList.mem_lookup_iff.mp hp))

/-- Closing one of several tabs edits its pane. -/
theorem WindowInv.closeTab_spec (h : WindowInv aw) (hi : aw.workspaces[i]? = some ws)
    (hp : ws.panes.lookup p = some pane) (h2 : 2 ≤ pane.tabs.length) {tab : Tab}
    (ht : tab ∈ pane.tabs) : ∃ aw' ws', aw.closeTab tab.panel = some aw' ∧
      aw'.workspaces[i]? = some ws' ∧
      ws'.panes.lookup p = some (pane.removePanel tab.panel) := by
  have hx : tab.identity ∈ pane.identities := List.mem_map_of_mem ht
  have hclose : ∀ rm : Pane → Pane, ∃ aw' ws', aw.closePanel i ws p rm = some aw' ∧
      aw'.workspaces[i]? = some ws' ∧ ws'.panes.lookup p = some (rm pane) := by
    intro rm
    refine ⟨aw.modifyWs i (fun ws => ws.modifyPane p rm),ws.modifyPane p rm,?_,?_,?_⟩
    · simp only [AppWindow.closePanel,hp,Option.map_some,Option.getD_some]
      rw [if_neg (by omega),if_neg (by omega)]
    · simp [AppWindow.modifyWs,hi]
    · show AList.lookup p (ws.panes.modify p rm) = _
      rw [HashMap.lookup_modify,if_pos rfl,hp]
      rfl
  obtain ⟨k,title,dir,osc⟩ := tab
  cases k with
  | terminal s =>
    have hfind : aw.findWorkspaceWithSurface s = some (i,ws,p) :=
      h.findWs_owner hi hp hx (fun t => by
        rw [decide_eq_true_eq,surfaceId_eq_some]
        rfl)
    simp only [AppWindow.closeTab,AppWindow.closeSurface,hfind]
    exact hclose _
  | browser b url =>
    have hfind : aw.findWorkspaceWithBrowser b = some (i,ws,p) :=
      h.findWs_owner hi hp hx (fun t => by
        rw [decide_eq_true_eq,browserId_eq_some]
        rfl)
    simp only [AppWindow.closeTab,AppWindow.closeBrowser,hfind]
    exact hclose _

end Owner

section Selection

variable {pane : Pane} {k : ℕ} {tab : Tab}

theorem getElem?_eraseIdx_tab (k j : ℕ) :
    (pane.tabs.eraseIdx k)[j]? = if j < k then pane.tabs[j]? else pane.tabs[j+1]? :=
  List.getElem?_eraseIdx ..

theorem findIdx?_tab (hn : pane.identities.Nodup) (hk : pane.tabs[k]? = some tab) {f : Tab → Bool}
    (hf : ∀ t, f t = true ↔ t.identity = tab.identity) : pane.tabs.findIdx? f = some k := by
  obtain ⟨hlt,rfl⟩ := List.getElem?_eq_some_iff.mp hk
  refine List.findIdx?_eq_some_iff_getElem.mpr ⟨hlt,(hf _).mpr rfl,fun j hj hfj => ?_⟩
  have hjk : (pane.tabs.map Tab.identity)[j]? = (pane.tabs.map Tab.identity)[k]? := by
    rw [List.getElem?_map,List.getElem?_map,List.getElem?_eq_getElem (hj.trans hlt),
      List.getElem?_eq_getElem hlt]
    exact congrArg some ((hf _).mp hfj)
  have := (List.getElem?_inj (by simpa [Pane.identities] using hj.trans hlt) hn).mp hjk
  omega

theorem removePanel_eq (hn : pane.identities.Nodup) (hk : pane.tabs[k]? = some tab)
    (h2 : 2 ≤ pane.tabs.length) : pane.removePanel tab.panel = { pane with
      tabs := pane.tabs.eraseIdx k
      selectedTab := if pane.tabs.length ≤ pane.selectedTab+1 then pane.tabs.length-2
        else pane.selectedTab } := by
  have hlt := (List.getElem?_eq_some_iff.mp hk).1
  have hlen : (pane.tabs.eraseIdx k).length = pane.tabs.length-1 := by
    simp [List.length_eraseIdx,hlt]
  have hwhere : ∀ f : Tab → Bool, (∀ t, f t = true ↔ t.identity = tab.identity) →
      pane.removeWhere f = { pane with
        tabs := pane.tabs.eraseIdx k
        selectedTab := if pane.tabs.length ≤ pane.selectedTab+1 then pane.tabs.length-2
          else pane.selectedTab } := by
    intro f hf
    have hne : pane.tabs.eraseIdx k ≠ [] := by
      intro he
      rw [he] at hlen
      simp at hlen
      omega
    simp only [Pane.removeWhere,findIdx?_tab hn hk hf,hlen]
    congr 1
    by_cases hc : pane.tabs.length ≤ pane.selectedTab+1
    · rw [if_pos ⟨by omega,hne⟩,if_pos hc]
      omega
    · rw [if_neg (by rintro ⟨h,-⟩; omega),if_neg hc]
  obtain ⟨q,title,dir,osc⟩ := tab
  cases q with
  | terminal s =>
    exact hwhere _ (fun t => by rw [decide_eq_true_eq,surfaceId_eq_some]; rfl)
  | browser b url =>
    exact hwhere _ (fun t => by rw [decide_eq_true_eq,browserId_eq_some]; rfl)

theorem removeTabPreservingSelection_eq (hk : pane.tabs[k]? = some tab)
    (h2 : 2 ≤ pane.tabs.length) (hsel : pane.selectedTab < pane.tabs.length) :
    removeTabPreservingSelection pane k = some (tab,{ pane with
      tabs := pane.tabs.eraseIdx k
      selectedTab := if k < pane.selectedTab then pane.selectedTab-1
        else min pane.selectedTab (pane.tabs.length-2) }) := by
  have hlt := (List.getElem?_eq_some_iff.mp hk).1
  have hlen : (pane.tabs.eraseIdx k).length = pane.tabs.length-1 := by
    simp [List.length_eraseIdx,hlt]
  have hne : pane.tabs.eraseIdx k ≠ [] := by
    intro he
    rw [he] at hlen
    simp at hlen
    omega
  simp only [removeTabPreservingSelection,hk,hlen,if_neg hne]
  congr 3
  split_ifs <;> omega

/-- The view stays exactly if the closed tab does not stand before the selected
one, or the selected one is the last. -/
theorem keepsView_iff (hn : pane.identities.Nodup) (hk : pane.tabs[k]? = some tab)
    (h2 : 2 ≤ pane.tabs.length) (hsel : pane.selectedTab < pane.tabs.length) :
    KeepsView pane k (pane.removePanel tab.panel) ↔
      pane.selectedTab ≤ k ∨ pane.selectedTab+1 = pane.tabs.length := by
  have hlt := (List.getElem?_eq_some_iff.mp hk).1
  rw [removePanel_eq hn hk h2]
  constructor
  · intro hv
    by_contra hcond
    rw [not_or,not_le] at hcond
    -- the selected index now names the tab after the selected one
    have hkept := hv.kept (by omega)
    have hnext : pane.selectedTab+1 < pane.tabs.length := by omega
    simp only [Pane.activePanel,if_neg (show ¬ pane.tabs.length ≤ pane.selectedTab+1 by omega),
      getElem?_eraseIdx_tab,if_neg (show ¬ pane.selectedTab < k by omega),
      List.getElem?_eq_getElem hnext,List.getElem?_eq_getElem hsel,Option.map_some] at hkept
    have hid : (pane.tabs.map Tab.identity)[pane.selectedTab+1]? =
        (pane.tabs.map Tab.identity)[pane.selectedTab]? := by
      rw [List.getElem?_map,List.getElem?_map,List.getElem?_eq_getElem hnext,
        List.getElem?_eq_getElem hsel]
      exact congrArg (fun q => some (panelDragIdentity q)) (Option.some.inj hkept)
    have := (List.getElem?_inj (by simpa [Pane.identities] using hnext) hn).mp hid
    omega
  · intro hcond
    refine ⟨fun hne => ?_,fun heq => ?_,?_⟩
    · simp only [Pane.activePanel,getElem?_eraseIdx_tab]
      split_ifs with h1 h3 h4
      · rw [show pane.selectedTab = pane.tabs.length-1 by omega]
        omega
      · rw [show pane.tabs.length-2+1 = pane.selectedTab by omega]
      · rfl
      · omega
    · subst heq
      by_cases hlast : pane.tabs.length ≤ pane.selectedTab+1
      · refine ⟨pane.tabs.length-2,_,.inr (by omega),List.getElem?_eq_getElem (by omega),?_⟩
        simp only [Pane.activePanel,getElem?_eraseIdx_tab,if_pos hlast]
        rw [if_pos (by omega),List.getElem?_eq_getElem (by omega)]
        rfl
      · refine ⟨pane.selectedTab+1,_,.inl rfl,List.getElem?_eq_getElem (by omega),?_⟩
        simp only [Pane.activePanel,getElem?_eraseIdx_tab,if_neg hlast]
        rw [if_neg (by omega),List.getElem?_eq_getElem (by omega)]
        rfl
    · have hsame : (if k < pane.selectedTab then pane.selectedTab-1
          else min pane.selectedTab (pane.tabs.length-2)) =
          if pane.tabs.length ≤ pane.selectedTab+1 then pane.tabs.length-2
          else pane.selectedTab := by
        split_ifs <;> omega
      rw [removeTabPreservingSelection_eq hk h2 hsel,Option.map_some,hsame]

end Selection

variable [F64Ops F] {aw : AppWindow F}

/-- Closing one of several tabs of a pane keeps the view exactly if the tab does not
stand before the selected one, or the selected one is the last. -/
theorem closeTab_keepsView_iff (h : Reachable WindowOp.Targeted aw) {i : ℕ} {ws : Workspace F}
    (hi : aw.workspaces[i]? = some ws) {p : PaneId} {pane : Pane}
    (hp : ws.panes.lookup p = some pane) (h2 : 2 ≤ pane.tabs.length) {k : ℕ} {tab : Tab}
    (hk : pane.tabs[k]? = some tab) :
    ∃ aw' ws' pane', aw.closeTab tab.panel = some aw' ∧ aw'.workspaces[i]? = some ws' ∧
      ws'.panes.lookup p = some pane' ∧ pane' = pane.removePanel tab.panel ∧
      (KeepsView pane k pane' ↔
        pane.selectedTab ≤ k ∨ pane.selectedTab+1 = pane.tabs.length) := by
  have hinv := h.windowInv
  obtain ⟨aw',ws',hclose,hi',hp'⟩ := hinv.closeTab_spec hi hp h2 (List.mem_of_getElem? hk)
  have hws := hinv.ws ws (List.mem_of_getElem? hi)
  have hn : pane.identities.Nodup := by
    have hperm := paneIdentities_erase hp
    exact (List.nodup_append.mp (hperm.nodup_iff.mp (hinv.pane_identities_nodup hi))).1
  exact ⟨aw',ws',_,hclose,hi',hp',rfl,keepsView_iff hn hk h2 (hws.ok hp).sel⟩

def AppWindow.threeTabs : AppWindow ℚ := (start.newWorkspace.newPaneTab.newPaneTab).cyclePaneTab false

theorem reachable_threeTabs : Reachable WindowOp.Targeted AppWindow.threeTabs :=
  .step (.cyclePaneTab false) (.step .newPaneTab (.step .newPaneTab (.step .newWorkspace
    (.empty (rfl : AppWindow.start.workspaces = [])) trivial rfl) trivial rfl) trivial rfl)
    trivial rfl

theorem closeTab_keepsView_threeTabs :
    ∃ aw' ws' pane', AppWindow.threeTabs.closeTab (.terminal 3) = some aw' ∧
      aw'.workspaces[0]? = some ws' ∧ ws'.panes.lookup 1 = some pane' ∧
      pane' = (⟨1,[.fresh (.terminal 1),.fresh (.terminal 2),.fresh (.terminal 3)],1⟩ :
        Pane).removePanel (.terminal 3) ∧
      (KeepsView ⟨1,[.fresh (.terminal 1),.fresh (.terminal 2),.fresh (.terminal 3)],1⟩ 2 pane' ↔
        1 ≤ 2 ∨ 1+1 = 3) :=
  closeTab_keepsView_iff reachable_threeTabs (i := 0) rfl (p := 1) rfl
    (by decide) (k := 2) (show _ = some (Tab.fresh (.terminal 3)) from rfl)

/-- Closing the first tab in the background brings up the third one. -/
theorem closeTab_switches_view :
    Reachable WindowOp.Targeted AppWindow.threeTabs ∧
    ∃ ws pane aw' ws' pane', AppWindow.threeTabs.workspaces[0]? = some ws ∧
      ws.panes.lookup 1 = some pane ∧ pane.tabs[0]? = some (.fresh (.terminal 1)) ∧
      pane.activePanel = some (.terminal 2) ∧
      AppWindow.threeTabs.closeSurface 1 = some aw' ∧ aw'.workspaces[0]? = some ws' ∧
      ws'.panes.lookup 1 = some pane' ∧ pane'.activePanel = some (.terminal 3) :=
  ⟨reachable_threeTabs,_,_,_,_,_,rfl,rfl,rfl,rfl,rfl,rfl,rfl,rfl⟩

end Limux
