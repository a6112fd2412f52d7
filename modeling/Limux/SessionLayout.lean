import Limux.WindowRestore

/-! Saving a layout, restoring it and saving it again: both walks over the arena
are folds over the node tree it stands for. -/
namespace Limux

open KeyTree

variable {F : Type}

def PanelReaders.silent : PanelReaders := ⟨fun _ => none,fun _ => none⟩

def Orientation.saved : Orientation → String
  | .horizontal => "horizontal"
  | .vertical => "vertical"

def layoutOf (tabsOf : PaneId → List PaneTabSnapshot) : NodeTree F → LayoutSnapshot F
  | .leaf _ (.leaf p) => .single (tabsOf p)
  | .node _ (.split o ratio _ _) l r => .split o.saved ratio (layoutOf tabsOf l) (layoutOf tabsOf r)
  | .leaf _ (.split _ _ _ _) => .single []
  | .node _ (.leaf _) _ _ => .single []

def savedTabs (rd : PanelReaders) (panes : HashMap PaneId Pane) (p : PaneId) :
    List PaneTabSnapshot :=
  ((panes.lookup p).map Pane.tabs).getD [] |>.map (fun t => t.toSnapshot rd)

theorem snapshotLayoutNode_eq (rd : PanelReaders) {nodes : Arena F} (panes : HashMap PaneId Pane)
    {t : NodeTree F} (h : Rep nodes.get t) {fuel : ℕ} (hf : t.height ≤ fuel) :
    AppWindow.snapshotLayoutNode rd nodes panes fuel t.key = layoutOf (savedTabs rd panes) t := by
  induction t generalizing fuel with
  | leaf k v =>
    obtain ⟨p,rfl,hk⟩ := rep_leaf_cases h
    obtain ⟨n,rfl⟩ : ∃ n, fuel = n+1 := ⟨fuel-1,by simp only [height] at hf; omega⟩
    simp only [AppWindow.snapshotLayoutNode,key_leaf,show nodes.lookup k = _ from hk]
    rfl
  | node k v l r ihl ihr =>
    obtain ⟨o,ratio,rfl,hk⟩ := rep_node_cases h
    obtain ⟨n,rfl⟩ : ∃ n, fuel = n+1 := ⟨fuel-1,by simp only [height] at hf; omega⟩
    simp only [height] at hf
    simp only [AppWindow.snapshotLayoutNode,key_node,show nodes.lookup k = _ from hk,layoutOf]
    rw [ihl h.2.2.1 (by omega),ihr h.2.2.2 (by omega)]
    cases o <;> rfl

theorem Shape.workspaceSnapshot_layout {ws : Workspace F} {t : NodeTree F}
    (h : Shape ws.splitTree t) (rd : PanelReaders) :
    (AppWindow.workspaceSnapshot rd ws).layout = layoutOf (savedTabs rd ws.panes) t := by
  simp only [AppWindow.workspaceSnapshot,h.root]
  exact snapshotLayoutNode_eq rd ws.panes h.rep h.height_le_fuel

theorem WsInv.shape {ws : Workspace F} (h : WsInv ws) : ∃ t, Shape ws.splitTree t := by
  rcases h.tree.vacant_or_shape with hv | ht
  · obtain ⟨p,hp⟩ := h.nonempty
    rw [h.keys,hv.panes] at hp
    cases hp
  · exact ht

theorem layoutOf_rename (g : PaneId → List PaneTabSnapshot) (f : NodeId → NodeId)
    (t : NodeTree F) : layoutOf g (t.rename f) = layoutOf g t := by
  induction t with
  | leaf k v => cases v <;> rfl
  | node k v l r ihl ihr =>
    cases v with
    | leaf p => rfl
    | split o ratio a b => simp only [rename,mapKids_split_node,layoutOf,ihl,ihr]

/-- Two ways to save the tabs give the same layout when they agree on every pane. -/
theorem layoutOf_inj {get : NodeId → Option (Node F)} {t : NodeTree F} (h : Rep get t)
    {f g : PaneId → List PaneTabSnapshot} :
    layoutOf f t = layoutOf g t ↔ ∀ p ∈ treePanes t, f p = g p := by
  induction t with
  | leaf k v =>
    obtain ⟨p,rfl,-⟩ := rep_leaf_cases h
    simp [layoutOf]
  | node k v l r ihl ihr =>
    obtain ⟨o,ratio,rfl,-⟩ := rep_node_cases h
    simp only [layoutOf,LayoutSnapshot.split.injEq,true_and,ihl h.2.2.1,ihr h.2.2.2,
      treePanes_node,List.mem_append]
    exact ⟨fun ⟨ha,hb⟩ p hp => hp.elim (ha p) (hb p),fun hall =>
      ⟨fun p hp => hall p (.inl hp),fun p hp => hall p (.inr hp)⟩⟩

def PaneTabSnapshot.withoutScrollback (t : PaneTabSnapshot) : PaneTabSnapshot :=
  { t with scrollback := none }

def LayoutSnapshot.withoutScrollback : LayoutSnapshot F → LayoutSnapshot F
  | .single tabs => .single (tabs.map PaneTabSnapshot.withoutScrollback)
  | .split o ratio a b => .split o ratio a.withoutScrollback b.withoutScrollback

theorem withoutScrollback_layoutOf {get : NodeId → Option (Node F)} {t : NodeTree F}
    (h : Rep get t) (f : PaneId → List PaneTabSnapshot) :
    (layoutOf f t).withoutScrollback =
      layoutOf (fun p => (f p).map PaneTabSnapshot.withoutScrollback) t := by
  induction t with
  | leaf k v =>
    obtain ⟨p,rfl,-⟩ := rep_leaf_cases h
    rfl
  | node k v l r ihl ihr =>
    obtain ⟨o,ratio,rfl,-⟩ := rep_node_cases h
    simp only [layoutOf,LayoutSnapshot.withoutScrollback,ihl h.2.2.1,ihr h.2.2.2]

/-- What is saved of a tab that was restored from `t`, but for the scrollback. -/
def PaneTabSnapshot.again (t : PaneTabSnapshot) : PaneTabSnapshot :=
  let title := t.title.filter (fun s => !s.isEmpty)
  if t.isBrowser then ⟨none,title,none,some "browser",some (t.url.getD "")⟩
  else ⟨t.workingDirectory,title,none,some "terminal",none⟩

/-- What a restored layout is saved as. -/
def LayoutSnapshot.again : LayoutSnapshot F → LayoutSnapshot F
  | .single tabs => .single ((normTabs tabs).map PaneTabSnapshot.again)
  | .split o ratio a b =>
    .split (if o = "vertical" then "vertical" else "horizontal") ratio a.again b.again

theorem again_layoutOf {get : NodeId → Option (Node F)} {t : NodeTree F} (h : Rep get t)
    (f : PaneId → List PaneTabSnapshot) :
    (layoutOf f t).again = layoutOf (fun p => (normTabs (f p)).map PaneTabSnapshot.again) t := by
  induction t with
  | leaf k v =>
    obtain ⟨p,rfl,-⟩ := rep_leaf_cases h
    rfl
  | node k v l r ihl ihr =>
    obtain ⟨o,ratio,rfl,-⟩ := rep_node_cases h
    simp only [layoutOf,LayoutSnapshot.again,ihl h.2.2.1,ihr h.2.2.2]
    cases o <;> simp [Orientation.saved]

/-- The web views of these panes show the pages they were opened with. -/
def Reports (rd : PanelReaders) (panes : HashMap PaneId Pane) : Prop :=
  ∀ p pane, panes.lookup p = some pane → ∀ t ∈ pane.tabs, ∀ b url, t.panel = .browser b url →
    (rd.url b).getD url = url

theorem toSnapshot_restoredTab {rd : PanelReaders} {ids : IdCounters} {t : PaneTabSnapshot}
    (hrd : ∀ b url, (restoredTab ids t).panel = .browser b url → (rd.url b).getD url = url) :
    ((restoredTab ids t).toSnapshot rd).withoutScrollback = t.again := by
  have htitle : (if (t.title.getD "").isEmpty then none else some (t.title.getD "")) =
      t.title.filter (fun s => !s.isEmpty) := by
    cases t.title with
    | none => rfl
    | some s => by_cases hs : s.isEmpty <;> simp [Option.filter,hs]
  unfold restoredTab at *
  unfold PaneTabSnapshot.again
  by_cases hb : t.isBrowser
  · rw [if_pos hb] at *
    simp only [Tab.toSnapshot,PaneTabSnapshot.withoutScrollback,htitle,hrd _ _ rfl,hb,if_true]
  · rw [if_neg hb] at *
    simp only [Tab.toSnapshot,PaneTabSnapshot.withoutScrollback,htitle,hb]
    rfl

theorem map_toSnapshot_restoredTabs {rd : PanelReaders} {ids : IdCounters}
    {ts : List PaneTabSnapshot} (hrd : ∀ t ∈ restoredTabs ids ts, ∀ b url,
      t.panel = .browser b url → (rd.url b).getD url = url) :
    ((restoredTabs ids ts).map (fun t => t.toSnapshot rd)).map PaneTabSnapshot.withoutScrollback =
      ts.map PaneTabSnapshot.again := by
  induction ts generalizing ids with
  | nil => rfl
  | cons t ts ih =>
    simp only [restoredTabs,List.mem_cons,forall_eq_or_imp] at hrd
    simp only [restoredTabs,List.map_cons,toSnapshot_restoredTab hrd.1]
    rw [ih hrd.2]

theorem not_vacant_of_panes {t : SplitTree F} (h : t.panes ≠ []) : ¬ t.Vacant :=
  fun hv => h hv.panes

/-- A built layout is saved as `again` says, for every saved layout. -/
theorem buildLayout_again (ord : IterOrder NodeId) (rd : PanelReaders) (l : LayoutSnapshot F)
    (ws : Workspace F) (ids : IdCounters) (hlt : ∀ p : ℕ, p ∈ ws.panes → p < ids.pane)
    (panes : HashMap PaneId Pane) (hrd : Reports rd panes)
    (hp : ∀ p ∈ (AppWindow.buildLayout ord l (ws,ids)).1.panes,
      panes.lookup p = (AppWindow.buildLayout ord l (ws,ids)).2.1.panes.lookup p) :
    ∃ t, Shape (AppWindow.buildLayout ord l (ws,ids)).1 t ∧
      (layoutOf (savedTabs rd panes) t).withoutScrollback = l.again := by
  induction l generalizing ws ids with
  | single tabs =>
    obtain ⟨pane,he,hid,-,-,htabs⟩ := restorePane_spec ids tabs
    have hb : AppWindow.buildLayout ord (.single tabs) (ws,ids) =
        (.newWithPane pane.id,ws.addPane pane,
          takeTabIds { ids with pane := ids.pane+1 } (normTabs tabs)) := by
      simp only [AppWindow.buildLayout,he]
    rw [hb] at hp ⊢
    refine ⟨_,Shape.single (s := .new) ⟨fun _ => rfl,rfl,rfl⟩ pane.id rfl rfl rfl,?_⟩
    have hl : panes.lookup pane.id = some pane := by
      rw [hp _ (by simp)]
      exact AList.lookup_insert _
    simp only [layoutOf,LayoutSnapshot.withoutScrollback,LayoutSnapshot.again,savedTabs,hl,
      Option.map_some,Option.getD_some,LayoutSnapshot.single.injEq]
    rw [htabs]
    exact map_toSnapshot_restoredTabs (fun t ht => hrd _ _ hl t (htabs ▸ ht))
  | split o ratio a b iha ihb =>
    have h₁ := layoutBuilt_buildLayout ord a ws ids hlt
    have hlt' : ∀ p : ℕ, p ∈ (AppWindow.buildLayout ord a (ws,ids)).2.1.panes →
        p < (AppWindow.buildLayout ord a (ws,ids)).2.2.pane := by
      intro p hm
      rcases (h₁.keys p).mp hm with hm | hm
      · exact lt_of_lt_of_le (hlt p hm) h₁.le.pane
      · exact (h₁.fresh p hm).2
    have h₂ := layoutBuilt_buildLayout ord b _ _ hlt'
    simp only [AppWindow.buildLayout] at hp ⊢
    rw [WellFormed.panes_merge ord h₁.tree h₂.tree] at hp
    obtain ⟨t₂,hs₂,he₂⟩ := ihb _ _ hlt' (fun p hm => hp p (List.mem_append_right _ hm))
    obtain ⟨t₁,hs₁,he₁⟩ := iha ws ids hlt (fun p hm => by
      rw [hp p (List.mem_append_left _ hm)]
      exact h₂.old p (fun hm' => absurd (h₁.fresh p hm).2 (Nat.not_lt.mpr (h₂.fresh p hm').1)))
    rcases SplitTree.merge_spec ord h₁.tree.vacant_or_shape h₂.tree.vacant_or_shape
      (if o = "vertical" then .vertical else .horizontal) ratio with
      ⟨hv,-,-⟩ | ⟨t,hs,-,-,hj⟩
    · exact absurd hv (not_vacant_of_panes h₁.ne)
    · refine ⟨t,hs,?_⟩
      obtain ⟨k,u₁,u₂,f,g,hu₁,hu₂,rfl⟩ := (hj.resolve_left (not_vacant_of_panes h₁.ne)).resolve_left
        (not_vacant_of_panes h₂.ne)
      rw [hu₁.unique hs₁,hu₂.unique hs₂]
      simp only [layoutOf,layoutOf_rename,LayoutSnapshot.withoutScrollback,LayoutSnapshot.again,
        he₁,he₂]
      by_cases ho : o = "vertical" <;> simp [ho,Orientation.saved]

end Limux
