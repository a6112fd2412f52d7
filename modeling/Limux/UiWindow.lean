import Limux.UiTabs

/-! The workspaces of a window with widgets change as those of the window alone, so what
holds of reachable windows holds here. -/
namespace Limux

variable {F : Type}

/-- The operation with another outcome of the widget lookups. -/
def WindowOp.withWidgets (b : Bool) : WindowOp F → WindowOp F
  | .splitTabToPane source x o before _ => .splitTabToPane source x o before b
  | .splitTabToPaneTarget source x target o before _ =>
    .splitTabToPaneTarget source x target o before b
  | .moveTabToPane source x target insertion _ => .moveTabToPane source x target insertion b
  | .reorderTabInPane p x insertion _ => .reorderTabInPane p x insertion b
  | .moveTabToWorkspace source x targetWs _ => .moveTabToWorkspace source x targetWs b
  | op => op

theorem WindowOp.targeted_withWidgets (b : Bool) {op : WindowOp F} {aw : AppWindow F}
    (h : op.Targeted aw) : (op.withWidgets b).Targeted aw := by
  cases op <;> exact h

variable [F64Ops F]

/-! A failed lookup changes nothing. -/

section Refused

variable (aw : AppWindow F) (source target : PaneId) (x : TabDragIdentity)

theorem splitTabToPane_refused (o : Orientation) (before : Bool) :
    aw.splitTabToPane source x o before false = some aw := by
  unfold AppWindow.splitTabToPane
  split
  · rfl
  · split
    · rfl
    · split
      · rfl
      · split <;> rfl

theorem splitTabToPaneTarget_refused (o : Orientation) (before : Bool) :
    aw.splitTabToPaneTarget source x target o before false = some aw := by
  unfold AppWindow.splitTabToPaneTarget
  split
  · rfl
  · split
    · rfl
    · split <;> rfl

omit [F64Ops F] in
theorem moveTabToPane_refused (insertion : TabInsertion) :
    aw.moveTabToPane source x target insertion false = some aw := by
  unfold AppWindow.moveTabToPane
  split
  · rfl
  · split
    · rfl
    · split
      · rfl
      · split <;> rfl

omit [F64Ops F] in
theorem reorderTabInPane_refused (insertion : TabInsertion) :
    aw.reorderTabInPane source x insertion false = some aw := by
  unfold AppWindow.reorderTabInPane
  split
  · rfl
  · split
    · rfl
    · split
      · rfl
      · split <;> rfl

omit [F64Ops F] in
theorem moveTabToWorkspace_refused (targetWs : WorkspaceId) :
    aw.moveTabToWorkspace source x targetWs false = some aw := by
  unfold AppWindow.moveTabToWorkspace
  split
  · split
    · rfl
    · split
      · rfl
      · split
        · rfl
        · split <;> rfl
  · rfl

end Refused

namespace Ui

variable {ui ui' : Ui F}

omit [F64Ops F] in
theorem window_closePanel {i : ℕ} {ws : Workspace F} {p : PaneId} {rm : Pane → Pane}
    (h : ui.closePanel i ws p rm = some ui') : ui.window.closePanel i ws p rm = some ui'.window := by
  obtain ⟨aw,haw,he⟩ := Option.map_eq_some_iff.mp h
  rw [haw,← he]
  split_ifs
  · rfl
  · rfl
  · split <;> rfl

theorem window_splitBrowserInWorkspace {i : ℕ} {p : PaneId} {o : Orientation} {url : String}
    (h : ui.splitBrowserInWorkspace i p o url = some ui') :
    ui.window.splitBrowserInWorkspace i p o url = some ui'.window := by
  obtain ⟨_,-,h⟩ := Option.bind_eq_some_iff.mp h
  obtain ⟨aw,haw,rfl⟩ := Option.map_eq_some_iff.mp h
  exact haw

theorem window_splitTabToPane {source : PaneId} {x : TabDragIdentity} {o : Orientation}
    {before : Bool} (h : ui.splitTabToPane source x o before = some ui') :
    ∃ b, ui.window.splitTabToPane source x o before b = some ui'.window := by
  unfold splitTabToPane at h
  split at h
  · cases h
    exact ⟨false,splitTabToPane_refused _ _ _ _ _⟩
  · obtain ⟨aw,haw,h⟩ := Option.bind_eq_some_iff.mp h
    obtain ⟨_,-,h⟩ := Option.bind_eq_some_iff.mp h
    obtain ⟨_,-,h⟩ := Option.bind_eq_some_iff.mp h
    obtain ⟨_,-,h⟩ := Option.bind_eq_some_iff.mp h
    obtain ⟨_,-,h⟩ := Option.bind_eq_some_iff.mp h
    obtain ⟨_,-,h⟩ := Option.bind_eq_some_iff.mp h
    obtain ⟨_,-,rfl⟩ := Option.map_eq_some_iff.mp h
    exact ⟨true,haw⟩

theorem window_splitTabToPaneTarget {source target : PaneId} {x : TabDragIdentity}
    {o : Orientation} {before : Bool}
    (h : ui.splitTabToPaneTarget source x target o before = some ui') :
    ∃ b, ui.window.splitTabToPaneTarget source x target o before b = some ui'.window := by
  unfold splitTabToPaneTarget at h
  split at h
  · cases h
    exact ⟨false,splitTabToPaneTarget_refused _ _ _ _ _ _⟩
  · obtain ⟨_,-,h⟩ := Option.bind_eq_some_iff.mp h
    obtain ⟨_,-,h⟩ := Option.bind_eq_some_iff.mp h
    obtain ⟨_,-,h⟩ := Option.bind_eq_some_iff.mp h
    obtain ⟨_,-,h⟩ := Option.bind_eq_some_iff.mp h
    obtain ⟨aw,haw,h⟩ := Option.bind_eq_some_iff.mp h
    obtain ⟨_,-,h⟩ := Option.bind_eq_some_iff.mp h
    obtain ⟨_,-,h⟩ := Option.bind_eq_some_iff.mp h
    obtain ⟨_,-,rfl⟩ := Option.map_eq_some_iff.mp h
    exact ⟨true,haw⟩

omit [F64Ops F] in
theorem window_moveTabToPane {source target : PaneId} {x : TabDragIdentity}
    {insertion : TabInsertion} (h : ui.moveTabToPane source x target insertion = some ui') :
    ∃ b, ui.window.moveTabToPane source x target insertion b = some ui'.window := by
  unfold moveTabToPane at h
  split at h
  · cases h
    exact ⟨false,moveTabToPane_refused _ _ _ _ _⟩
  · obtain ⟨_,-,h⟩ := Option.bind_eq_some_iff.mp h
    obtain ⟨_,-,h⟩ := Option.bind_eq_some_iff.mp h
    obtain ⟨_,-,h⟩ := Option.bind_eq_some_iff.mp h
    obtain ⟨aw,haw,h⟩ := Option.bind_eq_some_iff.mp h
    obtain ⟨_,-,h⟩ := Option.bind_eq_some_iff.mp h
    obtain ⟨_,-,h⟩ := Option.bind_eq_some_iff.mp h
    simp only at h
    split_ifs at h
    · cases h
      exact ⟨true,haw⟩
    · obtain ⟨_,-,rfl⟩ := Option.map_eq_some_iff.mp h
      exact ⟨true,haw⟩

omit [F64Ops F] in
theorem window_reorderTabInPane {p : PaneId} {x : TabDragIdentity} {insertion : TabInsertion}
    (h : ui.reorderTabInPane p x insertion = some ui') :
    ∃ b, ui.window.reorderTabInPane p x insertion b = some ui'.window := by
  unfold reorderTabInPane at h
  split at h
  · cases h
    exact ⟨false,reorderTabInPane_refused _ _ _ _⟩
  · obtain ⟨aw,haw,rfl⟩ := Option.map_eq_some_iff.mp h
    exact ⟨true,haw⟩

omit [F64Ops F] in
theorem window_moveTabToWorkspace {source : PaneId} {x : TabDragIdentity} {targetWs : WorkspaceId}
    (h : ui.moveTabToWorkspace source x targetWs = some ui') :
    ∃ b, ui.window.moveTabToWorkspace source x targetWs b = some ui'.window := by
  unfold moveTabToWorkspace at h
  split at h
  · cases h
    exact ⟨false,moveTabToWorkspace_refused _ _ _ _⟩
  · obtain ⟨_,-,h⟩ := Option.bind_eq_some_iff.mp h
    obtain ⟨_,-,h⟩ := Option.bind_eq_some_iff.mp h
    obtain ⟨aw,haw,h⟩ := Option.bind_eq_some_iff.mp h
    obtain ⟨_,-,h⟩ := Option.bind_eq_some_iff.mp h
    obtain ⟨_,-,h⟩ := Option.bind_eq_some_iff.mp h
    obtain ⟨_,-,rfl⟩ := Option.map_eq_some_iff.mp h
    exact ⟨true,haw⟩

omit [F64Ops F] in
theorem window_rebuild (ui : Ui F) (i : ℕ) : (ui.rebuild i).window = ui.window := by
  unfold rebuild
  split <;> rfl

theorem window_only {op : WindowOp F}
    (he : ui.step op = (ui.window.step op).map (fun aw => ⟨aw,ui.widgets⟩))
    (h : ui.step op = some ui') :
    ui'.widgets = ui.widgets ∧ ui.window.step op = some ui'.window := by
  rw [he] at h
  obtain ⟨aw,haw,rfl⟩ := Option.map_eq_some_iff.mp h
  exact ⟨rfl,haw⟩

/-- The workspaces take the same step as without widgets. -/
theorem window_step {op : WindowOp F} (h : ui.step op = some ui') :
    ∃ b, ui.window.step (op.withWidgets b) = some ui'.window := by
  cases op with
  | newWorkspace => cases h; exact ⟨true,rfl⟩
  | newRemoteWorkspace c port id token => cases h; exact ⟨true,rfl⟩
  | restoreWorkspaceFromLayout ord snap port id token => cases h; exact ⟨true,rfl⟩
  | removeWorkspaceAt i =>
    obtain ⟨_,-,h⟩ := Option.bind_eq_some_iff.mp h
    obtain ⟨aw,haw,rfl⟩ := Option.map_eq_some_iff.mp h
    exact ⟨true,haw⟩
  | closeSurface s =>
    refine ⟨true,?_⟩
    simp only [step,closeSurface] at h
    simp only [WindowOp.withWidgets,AppWindow.step,AppWindow.closeSurface]
    rcases hf : ui.window.findWorkspaceWithSurface s with _ | ⟨i,ws,p⟩
    · simp only [hf] at h ⊢
      cases h; rfl
    · simp only [hf] at h ⊢
      exact window_closePanel h
  | closeBrowser b =>
    refine ⟨true,?_⟩
    simp only [step,closeBrowser] at h
    simp only [WindowOp.withWidgets,AppWindow.step,AppWindow.closeBrowser]
    rcases hf : ui.window.findWorkspaceWithBrowser b with _ | ⟨i,ws,p⟩
    · simp only [hf] at h ⊢
      cases h; rfl
    · simp only [hf] at h ⊢
      exact window_closePanel h
  | newPaneTab =>
    cases h
    refine ⟨true,?_⟩
    simp only [WindowOp.withWidgets,AppWindow.step,newPaneTab]
    split
    · rename_i hc
      simp only [AppWindow.newPaneTab,hc]
    · rename_i hc
      split
      · rename_i hp
        simp only [AppWindow.newPaneTab,hc,hp]
      · rfl
  | splitFocused o =>
    cases h
    refine ⟨true,?_⟩
    simp only [WindowOp.withWidgets,AppWindow.step,splitFocused]
    split
    · rename_i hc
      simp only [AppWindow.splitFocused,hc]
    · rename_i hc
      split
      · rename_i hp
        simp only [AppWindow.splitFocused,hc,hp]
      · rfl
  | splitFocusedBrowser o url =>
    refine ⟨true,?_⟩
    simp only [step,splitFocusedBrowser] at h
    simp only [WindowOp.withWidgets,AppWindow.step,AppWindow.splitFocusedBrowser]
    rcases hc : ui.window.current with _ | ⟨i,ws⟩
    · simp only [hc] at h ⊢
      cases h; rfl
    · simp only [hc] at h ⊢
      rcases hp : ws.focusedPane with _ | focused
      · simp only [hp] at h ⊢
        cases h; rfl
      · simp only [hp] at h ⊢
        exact window_splitBrowserInWorkspace h
  | splitBrowserInWorkspace i p o url => exact ⟨true,window_splitBrowserInWorkspace h⟩
  | openBrowserPopup registered opener url =>
    refine ⟨true,?_⟩
    simp only [step,openBrowserPopup] at h
    simp only [WindowOp.withWidgets,AppWindow.step,AppWindow.openBrowserPopup]
    cases registered with
    | false =>
      simp only [Bool.not_false,if_true] at h ⊢
      cases h; rfl
    | true =>
      simp only [Bool.not_true,Bool.false_eq_true,if_false] at h ⊢
      rcases hf : ui.window.findWorkspaceWithBrowser opener with _ | ⟨i,ws,p⟩
      · simp only [hf] at h ⊢
        rcases hp : ui.window.workspaces[ui.window.currentPage.getD 0]?.bind
            Workspace.focusedPane with _ | p
        · simp only [hp] at h ⊢
          cases h; rfl
        · simp only [hp] at h ⊢
          exact window_splitBrowserInWorkspace h
      · simp only [hf] at h ⊢
        exact window_splitBrowserInWorkspace h
  | movePane source target before o =>
    cases h
    refine ⟨true,?_⟩
    simp only [WindowOp.withWidgets,AppWindow.step,movePane]
    split
    · rename_i hc
      simp only [AppWindow.movePane,hc]
    · rename_i hc
      split_ifs with hn hm
      · simp only [AppWindow.movePane,hc,if_pos hn]
      · rw [window_rebuild]
      · rfl
  | splitTabToPane source x o before widgets => exact window_splitTabToPane h
  | splitTabToPaneTarget source x target o before widgets => exact window_splitTabToPaneTarget h
  | moveTabToPane source x target insertion widgets => exact window_moveTabToPane h
  | reorderTabInPane p x insertion widgets => exact window_reorderTabInPane h
  | moveTabToWorkspace source x targetWs widgets => exact window_moveTabToWorkspace h
  | selectPaneTabGeneric p idx => cases h; exact ⟨true,rfl⟩
  | cyclePaneTab forward =>
    cases h
    refine ⟨true,?_⟩
    simp only [WindowOp.withWidgets,AppWindow.step,cyclePaneTab]
    split
    · rename_i hc
      simp only [AppWindow.cyclePaneTab,hc]
    · rename_i hc
      split
      · rename_i hp
        simp only [AppWindow.cyclePaneTab,hc,hp]
      · rfl
  | _ => exact ⟨true,(window_only rfl h).2⟩

/-- States reached from an empty window by operations that satisfy `ok`. -/
inductive Reach (ok : Ui F → WindowOp F → Prop) : Ui F → Prop
  | empty {aw : AppWindow F} : aw.workspaces = [] → Reach ok ⟨aw,∅⟩
  | step {ui ui' : Ui F} (op : WindowOp F) :
      Reach ok ui → ok ui op → ui.step op = some ui' → Reach ok ui'

theorem Reach.window {ok : Ui F → WindowOp F → Prop} (h : Reach ok ui)
    (hok : ∀ ui op, ok ui op → op.Targeted ui.window) :
    Reachable WindowOp.Targeted ui.window := by
  induction h with
  | empty he => exact .empty he
  | step op _ ho hs ih =>
    obtain ⟨b,hb⟩ := window_step hs
    exact .step _ ih (WindowOp.targeted_withWidgets b (hok _ op ho)) hb

end Ui

end Limux
