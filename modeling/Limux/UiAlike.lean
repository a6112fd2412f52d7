import Limux.TabReorder
import Limux.WindowOrder
import Limux.WindowEach
import Limux.SplitEdits
import Limux.TabMoves

/-! What an operation does to a workspace and its widgets: panes and tree as in the window,
and the matching edit of the stacks and the paneds. Invariants that relate the two follow
from this. -/
namespace Limux

variable {F : Type}

/-- The same panels in some order, and the same one shown. -/
structure Pane.Alike (p p' : Pane) : Prop where
  panels : (p'.tabs.map Tab.panel).Perm (p.tabs.map Tab.panel)
  active : p'.activePanel = p.activePanel

theorem Pane.Alike.refl (p : Pane) : p.Alike p := ⟨.refl _,rfl⟩

theorem Pane.Alike.trans {p p' p'' : Pane} (h : p.Alike p') (h' : p'.Alike p'') : p.Alike p'' :=
  ⟨h'.panels.trans h.panels,h'.active.trans h.active⟩

theorem Pane.Alike.of_panels {p p' : Pane} (ht : p'.tabs.map Tab.panel = p.tabs.map Tab.panel)
    (hs : p'.selectedTab = p.selectedTab) : p.Alike p' := by
  refine ⟨.of_eq ht,?_⟩
  have h := congrArg (fun l => l[p.selectedTab]?) ht
  simpa only [List.getElem?_map,Pane.activePanel,hs] using h

theorem map_panel_modify (l : List Tab) (idx : ℕ) {g : Tab → Tab}
    (hg : ∀ t, (g t).panel = t.panel) :
    (l.modify idx g).map Tab.panel = l.map Tab.panel := by
  apply List.ext_getElem?
  intro i
  rw [List.getElem?_map,List.getElem?_modify,List.getElem?_map]
  cases l[i]? with
  | none => rfl
  | some t =>
    by_cases hi : idx = i
    · simp [hi,hg]
    · simp [hi]

theorem Pane.alike_updateWhere (p : Pane) (f : Tab → Bool) {g : Tab → Tab}
    (hg : ∀ t, (g t).panel = t.panel) : p.Alike (p.updateWhere f g) := by
  unfold Pane.updateWhere
  split
  · exact .of_panels (map_panel_modify p.tabs _ hg) rfl
  · exact .refl p

/-- The same tree up to ratios and focus. -/
structure SplitTree.Resized (t t' : SplitTree F) : Prop where
  nodes : Arena.SameShape t.nodes t'.nodes
  root : t'.root = t.root
  nextId : t'.nextId = t.nextId

namespace SplitTree.Resized

variable {t t' t'' : SplitTree F}

theorem refl (t : SplitTree F) : t.Resized t := ⟨.refl _,rfl,rfl⟩

theorem trans (h : t.Resized t') (h' : t'.Resized t'') : t.Resized t'' :=
  ⟨h.nodes.trans h'.nodes,h'.root.trans h.root,h'.nextId.trans h.nextId⟩

theorem setFocused (t : SplitTree F) (p : PaneId) : t.Resized (t.setFocused p) :=
  ⟨.refl _,rfl,rfl⟩

theorem navigate (t : SplitTree F) (forward : Bool) : t.Resized (t.navigate forward).2 := by
  rcases SplitTree.navigate_spec t forward with he | ⟨p,-,he⟩ <;> rw [he]
  · exact .refl t
  · exact .setFocused t p

theorem navigateDirectional [F64Ops F] (t : SplitTree F) (d : Direction) :
    t.Resized (t.navigateDirectional d).2 := by
  unfold SplitTree.navigateDirectional
  split
  · exact .refl t
  · dsimp only
    split
    · exact .refl t
    · split
      · exact .setFocused t _
      · exact .refl t

theorem setRatio (t : SplitTree F) (node : NodeId) (ratio : F) :
    t.Resized (t.setRatio node ratio) :=
  ⟨Arena.sameShape_updateSplit _ _ _,rfl,rfl⟩

end SplitTree.Resized

/-- The same panes in the same tree. -/
structure Workspace.SamePanes (ws ws' : Workspace F) : Prop where
  id : ws'.id = ws.id
  panes : ∀ p, Option.Rel Pane.Alike (ws.panes.lookup p) (ws'.panes.lookup p)
  tree : ws.splitTree.Resized ws'.splitTree

namespace Workspace.SamePanes

variable {ws ws' ws'' : Workspace F}

theorem of_panes (hid : ws'.id = ws.id) (hp : ws'.panes = ws.panes)
    (ht : ws.splitTree.Resized ws'.splitTree) : ws.SamePanes ws' := by
  refine ⟨hid,fun p => ?_,ht⟩
  rw [hp]
  cases ws.panes.lookup p with
  | none => exact .none
  | some pane => exact .some (.refl pane)

theorem refl (ws : Workspace F) : ws.SamePanes ws := of_panes rfl rfl (.refl _)

theorem trans (h : ws.SamePanes ws') (h' : ws'.SamePanes ws'') : ws.SamePanes ws'' := by
  refine ⟨h'.id.trans h.id,fun p => ?_,h.tree.trans h'.tree⟩
  have hp := h.panes p
  have hp' := h'.panes p
  revert hp hp'
  generalize ws.panes.lookup p = a, ws'.panes.lookup p = b, ws''.panes.lookup p = c
  rintro (⟨hab⟩ | _) (⟨hbc⟩ | _)
  · exact .some (Pane.Alike.trans ‹_› ‹_›)
  · exact .none

theorem modifyPane (ws : Workspace F) (p : PaneId) {f : Pane → Pane}
    (hf : ∀ pane, ws.panes.lookup p = some pane → pane.Alike (f pane)) :
    ws.SamePanes (ws.modifyPane p f) := by
  refine ⟨rfl,fun q => ?_,.refl _⟩
  show Option.Rel _ _ ((ws.panes.modify p f).lookup q)
  rw [HashMap.lookup_modify]
  split_ifs with hq
  · rw [hq]
    cases hl : ws.panes.lookup p with
    | none => exact .none
    | some pane => exact .some (hf pane hl)
  · cases ws.panes.lookup q with
    | none => exact .none
    | some pane => exact .some (.refl pane)

theorem setFocusedPane (ws : Workspace F) (p : PaneId) : ws.SamePanes (ws.setFocusedPane p) :=
  of_panes rfl rfl (.setFocused _ p)

theorem updateTitleFromFocused (ws : Workspace F) : ws.SamePanes ws.updateTitleFromFocused := by
  obtain ⟨hp,ht,hid⟩ := updateTitleFromFocused_panes ws
  exact of_panes hid hp (ht ▸ .refl _)

end Workspace.SamePanes

/-- Every workspace of the second window is one of the first, alike. -/
def AlikeAll (aw aw' : AppWindow F) : Prop :=
  aw'.Each (fun ws' => ∃ ws ∈ aw.workspaces, ws.SamePanes ws')

namespace AlikeAll

variable {aw aw' aw'' : AppWindow F}

theorem of_subset (h : aw'.workspaces ⊆ aw.workspaces) : AlikeAll aw aw' :=
  fun ws hws => ⟨ws,h hws,.refl ws⟩

theorem refl (aw : AppWindow F) : AlikeAll aw aw := of_subset (List.Subset.refl _)

theorem trans (h : AlikeAll aw aw') (h' : AlikeAll aw' aw'') : AlikeAll aw aw'' := by
  intro ws'' hws''
  obtain ⟨ws',hws',ha'⟩ := h' ws'' hws''
  obtain ⟨ws,hws,ha⟩ := h ws' hws'
  exact ⟨ws,hws,ha.trans ha'⟩

theorem modifyWs (hw : aw'.workspaces = aw.workspaces) {i : ℕ} {f : Workspace F → Workspace F}
    (hf : ∀ ws, aw.workspaces[i]? = some ws → ws.SamePanes (f ws)) :
    AlikeAll aw (aw'.modifyWs i f) :=
  AppWindow.Each.modifyWs (refl aw) hw (fun ws hi _ => ⟨ws,List.mem_of_getElem? hi,hf ws hi⟩)

theorem modifyById (id : WorkspaceId) {f : Workspace F → Workspace F}
    (hf : ∀ ws : Workspace F, ws.SamePanes (f ws)) : AlikeAll aw (aw.modifyById id f) := by
  unfold AppWindow.modifyById
  split
  · exact modifyWs rfl (fun ws _ => hf ws)
  · exact refl aw

theorem setPaneActive (aw : AppWindow F) (i : ℕ) (p : PaneId) :
    AlikeAll aw (aw.setPaneActive i p) := modifyWs rfl (fun ws _ => .setFocusedPane ws p)

theorem report (i : ℕ) (p : PaneId) (f : Tab → Bool) {g : Tab → Tab}
    (hg : ∀ t, (g t).panel = t.panel) :
    AlikeAll aw (aw.modifyWs i (fun ws => ws.modifyPane p (fun pane => pane.updateWhere f g))) :=
  modifyWs rfl (fun ws _ => .modifyPane ws p (fun pane _ => pane.alike_updateWhere f hg))

theorem report_title (i : ℕ) (p : PaneId) (f : Tab → Bool) {g : Tab → Tab}
    (hg : ∀ t, (g t).panel = t.panel) : AlikeAll aw (aw.modifyWs i (fun ws =>
      (ws.modifyPane p (fun pane => pane.updateWhere f g)).updateTitleFromFocused)) :=
  modifyWs rfl (fun ws _ => (Workspace.SamePanes.modifyPane ws p
    (fun pane _ => pane.alike_updateWhere f hg)).trans (.updateTitleFromFocused _))

theorem currentTree {f : SplitTree F → SplitTree F} (hf : ∀ t : SplitTree F, t.Resized (f t)) :
    AlikeAll aw (match aw.current with
      | none => aw
      | some (i,_) => aw.modifyWs i (fun ws => { ws with splitTree := f ws.splitTree })) := by
  split
  · exact refl aw
  · exact modifyWs rfl (fun ws _ => .of_panes rfl rfl (hf ws.splitTree))

theorem toggleWorkspacePinned (aw : AppWindow F) (id : WorkspaceId) :
    AlikeAll aw (aw.toggleWorkspacePinned id) := by
  unfold AppWindow.toggleWorkspacePinned
  split
  · exact refl aw
  · rename_i i _ _ _
    have hm : AlikeAll aw (aw.modifyWs i (fun ws => { ws with pinned := !ws.pinned })) :=
      modifyWs rfl (fun ws _ => .of_panes rfl rfl (.refl _))
    refine hm.trans (of_subset (fun ws hws => ?_))
    rcases List.mem_append.mp hws with hm | hm
    · exact (List.mem_filter.mp hm).1
    · exact (List.mem_filter.mp hm).1

theorem disconnectRemote (aw : AppWindow F) (id : Option WorkspaceId) (clear : Bool) :
    AlikeAll aw (aw.disconnectRemote id clear) := by
  unfold AppWindow.disconnectRemote
  split
  · exact refl aw
  · refine modifyById _ (fun ws => ?_)
    cases clear <;> exact .of_panes rfl rfl (.refl _)

theorem renameTab (aw : AppWindow F) (p : PaneId) (idx : ℕ) (name : String) :
    AlikeAll aw (aw.renameTab p idx name) := by
  unfold AppWindow.renameTab
  split
  · exact refl aw
  · exact modifyWs rfl (fun ws _ => .modifyPane ws p (fun pane _ =>
      .of_panels (map_panel_modify pane.tabs idx (fun _ => rfl)) rfl))

theorem focusPaneById (aw : AppWindow F) (p : PaneId) : AlikeAll aw (aw.focusPaneById p).2 := by
  unfold AppWindow.focusPaneById
  split
  · exact refl aw
  · dsimp only
    split <;> exact modifyWs rfl (fun ws _ => .setFocusedPane ws p)

theorem moveWorkspace {source target : WorkspaceId} {before : Bool}
    (h : aw.moveWorkspace source target before = some aw') : AlikeAll aw aw' :=
  AppWindow.Each.moveWorkspace (refl aw) h

end AlikeAll

theorem Reordered.alike {ws ws' : Workspace F} {p : PaneId} {pane : Pane} {k d : ℕ} {tab : Tab}
    (h : Reordered ws p pane k d tab ws') (hl : ws.panes.lookup p = some pane)
    (hk : pane.tabs[k]? = some tab) (hd : d ≤ (pane.tabs.eraseIdx k).length) :
    ws.SamePanes ws' := by
  refine ⟨by rw [h.rest],fun q => ?_,by rw [h.rest]; exact .refl _⟩
  by_cases hq : q = p
  · obtain ⟨pane',hl',-,ht,hs⟩ := h.moved
    rw [hq,hl,hl']
    refine .some ⟨?_,?_⟩
    · rw [ht]
      exact ((List.perm_insertIdx _ _ hd).trans (removeTab_perm hk).symm).map Tab.panel
    · rw [Pane.activePanel,Pane.activePanel,hs]
  · rw [h.others q hq]
    cases ws.panes.lookup q with
    | none => exact .none
    | some pane => exact .some (.refl pane)

end Limux
