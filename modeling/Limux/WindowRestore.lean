import Limux.WindowClose

/-! What restoring a saved layout builds: the tabs of each pane, fresh ids
throughout, and a workspace that satisfies the invariant. -/
namespace Limux

variable {F : Type} {aw : AppWindow F}

def restoredTab (ids : IdCounters) (t : PaneTabSnapshot) : Tab :=
  if t.isBrowser then ⟨.browser ids.browser (t.url.getD ""),t.title.getD "",none,false⟩
  else ⟨.terminal ids.surface,t.title.getD "",t.workingDirectory,false⟩

def takeTabId (ids : IdCounters) (t : PaneTabSnapshot) : IdCounters :=
  if t.isBrowser then { ids with browser := ids.browser+1 }
  else { ids with surface := ids.surface+1 }

theorem updateWhere_append {p : Pane} {tabs : List Tab} {x : Tab} (hp : p.tabs = tabs ++ [x])
    {f : Tab → Bool} (hold : ∀ t ∈ tabs, f t = false) (hx : f x = true) (g : Tab → Tab) :
    p.updateWhere f g = { p with tabs := tabs ++ [g x] } := by
  have hidx : p.tabs.findIdx? f = some tabs.length := by
    rw [hp,List.findIdx?_append,List.findIdx?_eq_none_iff.mpr hold]
    simp [hx]
  unfold Pane.updateWhere
  rw [hidx]
  simp only [hp]
  rw [List.modify_eq_take_cons_drop (by simp)]
  simp

theorem restoreTab_eq {p : Pane} {ids : IdCounters} (h : ∀ x ∈ p.identities, x.Below ids)
    (t : PaneTabSnapshot) :
    AppWindow.restoreTab p ids t =
      ({ p with tabs := p.tabs ++ [restoredTab ids t], selectedTab := p.tabs.length },
        takeTabId ids t) := by
  unfold AppWindow.restoreTab restoredTab takeTabId
  split
  · have hold : ∀ x ∈ p.tabs, decide (x.browserId = some ids.browser) = false := by
      intro x hx
      rw [decide_eq_false_iff_not,browserId_eq_some]
      intro he
      have := h _ (List.mem_map_of_mem hx)
      rw [he] at this
      exact absurd this (lt_irrefl _)
    cases t.title with
    | none => rfl
    | some title =>
      simp only [Pane.addBrowserTab,Pane.setBrowserTabTitle]
      rw [updateWhere_append rfl hold (by simp [Tab.fresh,Tab.browserId])]
      rfl
  · have hold : ∀ x ∈ p.tabs, decide (x.surfaceId = some ids.surface) = false := by
      intro x hx
      rw [decide_eq_false_iff_not,surfaceId_eq_some]
      intro he
      have := h _ (List.mem_map_of_mem hx)
      rw [he] at this
      exact absurd this (lt_irrefl _)
    rcases t.title with _ | title <;> rcases t.workingDirectory with _ | dir
    · rfl
    · simp only [Pane.addTab,Pane.setTabDirectory]
      rw [updateWhere_append rfl hold (by simp [Tab.fresh,Tab.surfaceId])]
      rfl
    · simp only [Pane.addTab,Pane.setTabTitle]
      rw [updateWhere_append rfl hold (by simp [Tab.fresh,Tab.surfaceId])]
      rfl
    · simp only [Pane.addTab,Pane.setTabTitle,Pane.setTabDirectory]
      rw [updateWhere_append (p := p.push (.terminal ids.surface)) rfl hold
        (by simp [Tab.fresh,Tab.surfaceId]),
        updateWhere_append rfl hold (by simp [Tab.fresh,Tab.surfaceId])]
      rfl

theorem Fresh.append {a b c : IdCounters} {l l' : List TabDragIdentity} (h : Fresh a b l)
    (h' : Fresh b c l') : Fresh a c (l ++ l') := by
  refine ⟨h.le.trans h'.le,?_,fun x hx => ?_,fun x hx => ?_⟩
  · rw [List.nodup_append]
    refine ⟨h.nodup,h'.nodup,?_⟩
    rintro x hx y hy rfl
    exact h'.notBelow x hy (h.below x hx)
  · rcases List.mem_append.mp hx with hx | hx
    · exact h.notBelow x hx
    · exact fun hb => h'.notBelow x hx (hb.mono h.le)
  · rcases List.mem_append.mp hx with hx | hx
    · exact (h.below x hx).mono h'.le
    · exact h'.below x hx

theorem fresh_restoredTab (ids : IdCounters) (t : PaneTabSnapshot) :
    Fresh ids (takeTabId ids t) [(restoredTab ids t).identity] := by
  unfold takeTabId restoredTab
  split
  · exact fresh_browser _ _ ⟨le_rfl,le_rfl,le_rfl,Nat.le_succ _⟩ (Nat.lt_succ_self _)
  · exact fresh_surface _ _ ⟨le_rfl,le_rfl,Nat.le_succ _,le_rfl⟩ (Nat.lt_succ_self _)

/-- The tabs `restoreTab` appends one after the other. -/
def restoredTabs : IdCounters → List PaneTabSnapshot → List Tab
  | _, [] => []
  | ids, t :: ts => restoredTab ids t :: restoredTabs (takeTabId ids t) ts

def takeTabIds (ids : IdCounters) (ts : List PaneTabSnapshot) : IdCounters :=
  ts.foldl takeTabId ids

theorem takeTabIds_counters (ids : IdCounters) (ts : List PaneTabSnapshot) :
    (takeTabIds ids ts).pane = ids.pane ∧ (takeTabIds ids ts).workspace = ids.workspace := by
  induction ts generalizing ids with
  | nil => exact ⟨rfl,rfl⟩
  | cons t ts ih =>
    obtain ⟨h1,h2⟩ := ih (takeTabId ids t)
    refine ⟨h1.trans ?_,h2.trans ?_⟩ <;> unfold takeTabId <;> split <;> rfl

theorem fresh_restoredTabs (ids : IdCounters) (ts : List PaneTabSnapshot) :
    Fresh ids (takeTabIds ids ts) ((restoredTabs ids ts).map Tab.identity) := by
  induction ts generalizing ids with
  | nil => exact .nil ids
  | cons t ts ih => exact (fresh_restoredTab ids t).append (ih (takeTabId ids t))

theorem foldl_restoreTab {p : Pane} {ids : IdCounters} (hp : p.Ok)
    (h : ∀ x ∈ p.identities, x.Below ids) (ts : List PaneTabSnapshot) :
    ∃ p', ts.foldl (fun s t => AppWindow.restoreTab s.1 s.2 t) (p,ids) =
      (p',takeTabIds ids ts) ∧ p'.id = p.id ∧ p'.Ok ∧
        p'.tabs = p.tabs ++ restoredTabs ids ts := by
  induction ts generalizing p ids with
  | nil => exact ⟨p,rfl,rfl,hp,by simp [restoredTabs]⟩
  | cons t ts ih =>
    rw [List.foldl_cons,restoreTab_eq h]
    have hf := fresh_restoredTab ids t
    obtain ⟨p',he,hid,hok,htabs⟩ := @ih
      { p with tabs := p.tabs ++ [restoredTab ids t], selectedTab := p.tabs.length }
      (takeTabId ids t) (Pane.ok_of_sel (by simp)) (by
        intro x hx
        simp only [Pane.identities,List.map_append,List.mem_append] at hx
        rcases hx with hx | hx
        · exact (h x hx).mono hf.le
        · exact hf.below x hx)
    exact ⟨p',he,hid,hok,by simp [htabs,restoredTabs]⟩

def firstTab (t : PaneTabSnapshot) : PaneTabSnapshot :=
  { t with title := none, workingDirectory := none }

/-- What a saved leaf becomes; an empty one gets a default terminal. -/
def normTabs : List PaneTabSnapshot → List PaneTabSnapshot
  | [] => [⟨none,none,none,none,none⟩]
  | t :: ts => firstTab t :: ts

theorem restorePane_spec (ids : IdCounters) (tabs : List PaneTabSnapshot) :
    ∃ pane, AppWindow.restorePane ids tabs =
        (pane,takeTabIds { ids with pane := ids.pane+1 } (normTabs tabs)) ∧
      pane.id = ids.pane ∧ pane.Ok ∧ pane.selectedTab = 0 ∧
      pane.tabs = restoredTabs { ids with pane := ids.pane+1 } (normTabs tabs) := by
  cases tabs with
  | nil => exact ⟨_,rfl,rfl,Pane.ok_single _ _,rfl,rfl⟩
  | cons t ts =>
    have hfirst : (if t.isBrowser then
        (Pane.newBrowserWithId ids.pane ids.browser (t.url.getD ""),
          { ids with pane := ids.pane+1, browser := ids.browser+1 })
      else
        (Pane.newWithId ids.pane ids.surface,
          { ids with pane := ids.pane+1, surface := ids.surface+1 })) =
      (⟨ids.pane,[restoredTab { ids with pane := ids.pane+1 } (firstTab t)],0⟩,
        takeTabId { ids with pane := ids.pane+1 } (firstTab t)) := by
      unfold restoredTab takeTabId
      rw [show (firstTab t).isBrowser = t.isBrowser from rfl]
      split <;> rfl
    unfold AppWindow.restorePane
    simp only [hfirst]
    have hf := fresh_restoredTab { ids with pane := ids.pane+1 } (firstTab t)
    obtain ⟨p,he,hid,hok,htabs⟩ := @foldl_restoreTab
      ⟨ids.pane,[restoredTab { ids with pane := ids.pane+1 } (firstTab t)],0⟩
      (takeTabId { ids with pane := ids.pane+1 } (firstTab t)) (Pane.ok_of_sel (by simp)) (fun x hx => hf.below x hx) ts
    refine ⟨p.selectTab 0,?_,?_,Pane.ok_selectTab hok 0,?_,?_⟩
    · rw [he]; rfl
    · rw [Pane.id_selectTab,hid]
    · rw [Pane.selectTab,if_pos (List.length_pos_of_ne_nil hok.ne)]
    · rw [Pane.selectTab,if_pos (List.length_pos_of_ne_nil hok.ne)]
      exact htabs

/-- What building a layout adds to the workspace and to the allocators. -/
structure LayoutBuilt (ws : Workspace F) (ids : IdCounters) (t : SplitTree F) (ws' : Workspace F)
    (ids' : IdCounters) : Prop where
  le : ids.Le ids'
  workspace : ids'.workspace = ids.workspace
  id : ws'.id = ws.id
  tree : WellFormed t
  ne : t.panes ≠ []
  fresh : ∀ p : ℕ, p ∈ t.panes → ids.pane ≤ p ∧ p < ids'.pane
  keys : ∀ p, p ∈ ws'.panes ↔ p ∈ ws.panes ∨ p ∈ t.panes
  old : ∀ p, p ∉ t.panes → ws'.panes.lookup p = ws.panes.lookup p
  new : ∀ p ∈ t.panes, ∃ pane, ws'.panes.lookup p = some pane ∧ pane.id = p ∧ pane.Ok
  identities : ∃ l, Fresh ids ids' l ∧ ws'.identities.Perm (l ++ ws.identities)

theorem layoutBuilt_single (ws : Workspace F) (ids : IdCounters) (tabs : List PaneTabSnapshot)
    (hlt : ∀ p : ℕ, p ∈ ws.panes → p < ids.pane) :
    LayoutBuilt ws ids (.newWithPane (AppWindow.restorePane ids tabs).1.id)
      (ws.addPane (AppWindow.restorePane ids tabs).1) (AppWindow.restorePane ids tabs).2 := by
  obtain ⟨pane,he,hid,hok,-,htabs⟩ := restorePane_spec ids tabs
  have hf := fresh_restoredTabs { ids with pane := ids.pane+1 } (normTabs tabs)
  obtain ⟨hp,hw⟩ := takeTabIds_counters { ids with pane := ids.pane+1 } (normTabs tabs)
  have hle : ids.Le { ids with pane := ids.pane+1 } := ⟨le_rfl,Nat.le_succ _,le_rfl,le_rfl⟩
  have hn : ws.panes.lookup pane.id = none := by
    rw [AList.lookup_eq_none,hid]
    exact fun hm => absurd (hlt _ hm) (lt_irrefl _)
  rw [he]
  refine ⟨hle.trans hf.le,hw,rfl,.newWithPane _,by simp,fun p hm => ?_,fun p => ?_,fun p hm => ?_,
    fun p hm => ?_,pane.identities,?_,?_⟩
  · rw [WellFormed.panes_newWithPane,List.mem_singleton] at hm
    rw [hm,hid,hp]
    exact ⟨le_rfl,Nat.lt_succ_self _⟩
  · rw [WellFormed.panes_newWithPane,List.mem_singleton,mem_addPane,or_comm]
  · rw [WellFormed.panes_newWithPane,List.mem_singleton] at hm
    simp only [Workspace.addPane,HashMap.lookup_insert_ite,if_neg hm]
  · rw [WellFormed.panes_newWithPane,List.mem_singleton] at hm
    obtain rfl : p = pane.id := hm
    exact ⟨pane,AList.lookup_insert _,rfl,hok⟩
  · rw [Pane.identities,htabs]
    exact ⟨hle.trans hf.le,hf.nodup,fun x hx hb => hf.notBelow x hx (hb.mono hle),hf.below⟩
  · simp only [Workspace.identities,Workspace.addPane]
    rw [paneIdentities_insert_fresh _ hn]

theorem LayoutBuilt.merge {ord : IterOrder NodeId} {ws ws₁ ws₂ : Workspace F}
    {ids ids₁ ids₂ : IdCounters} {t₁ t₂ : SplitTree F} (h₁ : LayoutBuilt ws ids t₁ ws₁ ids₁)
    (h₂ : LayoutBuilt ws₁ ids₁ t₂ ws₂ ids₂) (o : Orientation) (ratio : F) :
    LayoutBuilt ws ids (.merge ord t₁ t₂ o ratio) ws₂ ids₂ := by
  have hd : ∀ p ∈ t₁.panes, p ∉ t₂.panes := fun p hp hp' =>
    absurd (h₁.fresh p hp).2 (Nat.not_lt.mpr (h₂.fresh p hp').1)
  have hp := WellFormed.panes_merge ord h₁.tree h₂.tree o ratio
  obtain ⟨l₁,hf₁,hl₁⟩ := h₁.identities
  obtain ⟨l₂,hf₂,hl₂⟩ := h₂.identities
  refine ⟨h₁.le.trans h₂.le,h₂.workspace.trans h₁.workspace,h₂.id.trans h₁.id,
    h₁.tree.merge ord h₂.tree hd o ratio,?_,fun p hm => ?_,fun p => ?_,fun p hm => ?_,
    fun p hm => ?_,l₁ ++ l₂,hf₁.append hf₂,?_⟩
  · rw [hp]
    simp [h₁.ne]
  · rw [hp,List.mem_append] at hm
    rcases hm with hm | hm
    · exact ⟨(h₁.fresh p hm).1,lt_of_lt_of_le (h₁.fresh p hm).2 h₂.le.pane⟩
    · exact ⟨le_trans h₁.le.pane (h₂.fresh p hm).1,(h₂.fresh p hm).2⟩
  · rw [hp,List.mem_append,h₂.keys,h₁.keys,or_assoc]
  · rw [hp,List.mem_append,not_or] at hm
    rw [h₂.old p hm.2,h₁.old p hm.1]
  · rw [hp,List.mem_append] at hm
    rcases hm with hm | hm
    · rw [h₂.old p (hd p hm)]
      exact h₁.new p hm
    · exact h₂.new p hm
  · refine hl₂.trans ((hl₁.append_left l₂).trans ?_)
    rw [← List.append_assoc]
    exact List.perm_append_comm.append_right _

theorem layoutBuilt_buildLayout (ord : IterOrder NodeId) (l : LayoutSnapshot F) (ws : Workspace F)
    (ids : IdCounters) (hlt : ∀ p : ℕ, p ∈ ws.panes → p < ids.pane) :
    LayoutBuilt ws ids (AppWindow.buildLayout ord l (ws,ids)).1
      (AppWindow.buildLayout ord l (ws,ids)).2.1 (AppWindow.buildLayout ord l (ws,ids)).2.2 := by
  induction l generalizing ws ids with
  | single tabs => exact layoutBuilt_single ws ids tabs hlt
  | split o ratio a b iha ihb =>
    have h₁ := iha ws ids hlt
    have h₂ := ihb _ _ (fun p hm => by
      rcases (h₁.keys p).mp hm with hm | hm
      · exact lt_of_lt_of_le (hlt p hm) h₁.le.pane
      · exact (h₁.fresh p hm).2)
    exact h₁.merge h₂ _ ratio

theorem buildLayout_rest (ord : IterOrder NodeId) (l : LayoutSnapshot F)
    (s : Workspace F × IdCounters) :
    (AppWindow.buildLayout ord l s).2.1 =
      { s.1 with panes := (AppWindow.buildLayout ord l s).2.1.panes } := by
  induction l generalizing s with
  | single tabs => rfl
  | split o ratio a b iha ihb =>
    simp only [AppWindow.buildLayout]
    rw [ihb,iha]

theorem LayoutBuilt.wsInv {ws ws' w : Workspace F} {ids ids' : IdCounters} {t : SplitTree F}
    (h : LayoutBuilt ws ids t ws' ids') (he : ws.panes = ∅) (hp : w.panes = ws'.panes)
    (ht : w.splitTree = t) : WsInv w := by
  have hk : ∀ p, p ∈ w.panes ↔ p ∈ w.splitTree.panes := by
    intro p
    rw [hp,ht,h.keys,he]
    exact ⟨fun hm => hm.resolve_left (AList.notMem_empty p),.inr⟩
  have hl : ∀ p pane, w.panes.lookup p = some pane → pane.id = p ∧ pane.Ok := by
    intro p pane hl
    obtain ⟨x,hx,hid,hok⟩ := h.new p (ht ▸ (hk p).mp (WsShape.mem_of_lookup hl))
    rw [hp] at hl
    obtain rfl := Option.some.inj (hl.symm.trans hx)
    exact ⟨hid,hok⟩
  obtain ⟨p,hpm⟩ := List.exists_mem_of_ne_nil _ h.ne
  exact ⟨⟨ht ▸ h.tree,hk,fun p pane hx => (hl p pane hx).1,fun p pane hx _ =>
    (hl p pane hx).2.sel⟩,fun p pane hx => (hl p pane hx).2.ne,p,(hk p).mpr (ht ▸ hpm)⟩

/-- The workspace `build_layout_widget` starts from. -/
def emptyRestored (aw : AppWindow F) (snap : WorkspaceSnapshot F) : Workspace F :=
  { (Workspace.new aw.ids.workspace : Workspace F) with
    customTitle := snap.customTitle
    title := snap.customTitle.getD aw.defaultTitle
    workingDirectory := snap.workingDirectory
    color := snap.color.bind WorkspaceColor.fromName
    pinned := snap.pinned.getD false }

/-- The restored workspace has the built panes and, but for the focus, the built
tree; the focus stays where the tree has it. -/
theorem restoredWorkspace_spec (ord : IterOrder NodeId) (aw : AppWindow F)
    (snap : WorkspaceSnapshot F) (port : Option UInt16) (id token : String) :
    ∃ t ws, LayoutBuilt (emptyRestored aw snap) { aw.ids with workspace := aw.ids.workspace+1 } t
        ws (AppWindow.restoredWorkspace ord aw snap port id token).2 ∧
      AppWindow.buildLayout ord snap.layout (emptyRestored aw snap,
        { aw.ids with workspace := aw.ids.workspace+1 }) =
        (t,ws,(AppWindow.restoredWorkspace ord aw snap port id token).2) ∧
      (AppWindow.restoredWorkspace ord aw snap port id token).1 =
        { ws with
          splitTree := t
          statusEntries := AppWindow.restoreStatus (snap.statusEntries.getD [])
          logEntries := (snap.logEntries.getD []).map
            (fun e => ⟨e.message,.fromStr e.level,e.source⟩)
          progress := snap.progress.map (fun p => ⟨p.value,p.label⟩)
          remoteConfig := snap.remoteConfig.map (fun c => AppWindow.freshRelay c port id token)
          remoteState := if snap.remoteConfig.isSome then .connecting else .disconnected } := by
  have hL := layoutBuilt_buildLayout ord snap.layout (emptyRestored aw snap)
    { aw.ids with workspace := aw.ids.workspace+1 } (fun p hp => absurd hp (AList.notMem_empty p))
  rcases hb : AppWindow.buildLayout ord snap.layout (emptyRestored aw snap,
    { aw.ids with workspace := aw.ids.workspace+1 }) with ⟨t,ws,ids⟩
  rw [hb] at hL
  have hr : (AppWindow.restoredWorkspace ord aw snap port id token).2 = ids := by
    unfold AppWindow.restoredWorkspace
    unfold emptyRestored at hb
    simp only [hb]
  rw [hr]
  refine ⟨t,ws,hL,rfl,?_⟩
  obtain ⟨p,-,hfoc⟩ := hL.tree.focused_mem hL.ne
  unfold AppWindow.restoredWorkspace
  unfold emptyRestored at hb
  simp only [hb,Workspace.focusedPane]
  have hor : t.focused.or (AList.keys ws.panes).head? = some p := by rw [hfoc,Option.some_or]
  have hset : t.setFocused p = t := by rw [SplitTree.setFocused,← hfoc]
  rw [hor]
  simp only [Workspace.setFocusedPane,hset]

theorem kept_restoreWorkspaceFromLayout (h : WindowInv aw) (ord : IterOrder NodeId)
    (snap : WorkspaceSnapshot F) (port : Option UInt16) (id token : String) :
    Kept aw (AppWindow.restoreWorkspaceFromLayout ord aw snap port id token) := by
  obtain ⟨t,ws,hL,-,hws⟩ := restoredWorkspace_spec ord aw snap port id token
  obtain ⟨l,hf,hl⟩ := hL.identities
  have hinv := hL.wsInv (w := (AppWindow.restoredWorkspace ord aw snap port id token).1) rfl
    (by rw [hws]) (by rw [hws])
  have hid : (AppWindow.restoredWorkspace ord aw snap port id token).1.id = aw.ids.workspace := by
    rw [hws]; exact hL.id
  have hle : aw.ids.Le { aw.ids with workspace := aw.ids.workspace+1 } :=
    ⟨Nat.le_succ _,le_rfl,le_rfl,le_rfl⟩
  have hperm : (AppWindow.restoredWorkspace ord aw snap port id token).1.identities.Perm l := by
    rw [hws]
    exact hl.trans (.of_eq (List.append_nil l))
  have hfresh : Fresh aw.ids (AppWindow.restoredWorkspace ord aw snap port id token).2
      (AppWindow.restoredWorkspace ord aw snap port id token).1.identities :=
    ⟨hle.trans hL.le,hperm.nodup_iff.mpr hf.nodup,fun x hx hb =>
      hf.notBelow x (hperm.mem_iff.mp hx) (hb.mono hle),fun x hx =>
      hf.below x (hperm.mem_iff.mp hx)⟩
  refine h.push hfresh hinv (le_of_eq hid.symm) ?_ (fun p hp => ?_) _
  · rw [hid,hL.workspace]
    exact Nat.lt_succ_self _
  · rw [hinv.keys,congrArg Workspace.splitTree hws] at hp
    exact (hL.fresh p hp).2

end Limux
