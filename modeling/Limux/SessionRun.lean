import Limux.WindowEdits
import Limux.SessionLayout
import Limux.SessionLoad
import Limux.SplitRatios
import Limux.CliRun
import Mathlib.Tactic.NormNum

/-! Saving and loading over whole runs: which sessions a later start can read. -/
namespace Limux

open KeyTree F64Finite

section Finite

variable {F : Type} [F64Finite F]

/-- The numbers of a workspace can be written down. -/
def FiniteWs (ws : Workspace F) : Prop :=
  ws.splitTree.Ratios (fun r => isFinite r) ∧ ∀ p ∈ ws.progress, isFinite p.value

/-- Operations that bring no other number into the window; a restored snapshot was
read from a file, which holds none. -/
def WindowOp.Finite (aw : AppWindow F) (op : WindowOp F) : Prop :=
  op.Targeted aw ∧
    match op with
    | .setWorkspaceProgress _ value _ => isFinite value
    | .restoreWorkspaceFromLayout _ snap _ _ _ => snap.Finite
    | _ => True

theorem finite_half : isFinite (F64Ops.lit (1/2) : F) :=
  finite_lit _ (by norm_num) (by norm_num)

theorem finite_clamp {x lo hi : F} (hx : isFinite x) (hlo : isFinite lo) (hhi : isFinite hi) :
    isFinite (F64Ops.clamp x lo hi) := by
  unfold F64Ops.clamp
  dsimp only
  split_ifs <;> assumption

theorem TreeStep.finite {t t' : SplitTree F} (h : TreeStep t t')
    (ht : t.Ratios (fun r => isFinite r)) : t'.Ratios (fun r => isFinite r) := by
  cases h with
  | splitAt before p q o => exact ht.splitAt finite_half before p q o
  | remove p => exact ht.remove p
  | movePaneAdjacent p q before o => exact ht.movePaneAdjacent finite_half finite_share p q before o
  | setFocused p => exact ht.setFocused p
  | navigate forward => exact ht.navigate forward
  | navigateDirectional d => exact ht.navigateDirectional d
  | equalize => exact ht.equalize finite_half
  | setRatio node pos total hpos =>
    exact ht.setRatio node (finite_clamp (finite_div pos total hpos)
      (finite_lit _ (by norm_num) (by norm_num)) (finite_lit _ (by norm_num) (by norm_num)))

theorem Moved.finite {ws ws' : Workspace F} (h : Moved ws ws') (hf : FiniteWs ws) :
    FiniteWs ws' := by
  refine ⟨?_,?_⟩
  · have hall : ∀ t, Relation.ReflTransGen TreeStep ws.splitTree t →
        t.Ratios (fun r => isFinite r) := by
      intro t ht
      induction ht with
      | refl => exact hf.1
      | tail _ hs ih => exact hs.finite ih
    exact hall _ h.tree
  · rw [h.rest]
    exact hf.2

theorem buildLayout_finite (ord : IterOrder NodeId) {l : LayoutSnapshot F} (h : l.Finite)
    (s : Workspace F × IdCounters) :
    (AppWindow.buildLayout ord l s).1.Ratios (fun r => isFinite r) := by
  induction l generalizing s with
  | single tabs => exact SplitTree.Ratios.newWithPane _
  | split o ratio a b iha ihb => exact SplitTree.Ratios.merge ord (iha h.2.1 s) (ihb h.2.2 _) _ h.1

theorem restoredWorkspace_finite (ord : IterOrder NodeId) (aw : AppWindow F)
    {snap : WorkspaceSnapshot F} (h : snap.Finite) (port : Option UInt16) (id token : String) :
    FiniteWs (AppWindow.restoredWorkspace ord aw snap port id token).1 := by
  obtain ⟨t,w,-,hb,hws⟩ := restoredWorkspace_spec ord aw snap port id token
  have ht := buildLayout_finite ord h.1 (emptyRestored aw snap,
    { aw.ids with workspace := aw.ids.workspace+1 })
  rw [hb] at ht
  rw [hws]
  refine ⟨ht,fun p hp => ?_⟩
  obtain ⟨q,hq,rfl⟩ := Option.map_eq_some_iff.mp hp
  exact h.2 q hq

/-- Along a run that only gets finite numbers, every number stays finite. -/
theorem Reachable.finite {aw : AppWindow F} (h : Reachable WindowOp.Finite aw) :
    ∀ ws ∈ aw.workspaces, FiniteWs ws := by
  refine h.forall_workspaces (fun aw op ws ws' hok he hf => ?_) (fun aw op ws hok hc => ?_)
  · cases he with
    | moved hm => exact hm.finite hf
    | setProgress id value label =>
      refine ⟨hf.1,fun p hp => ?_⟩
      cases hp
      exact hok.2
    | clearProgress id => exact ⟨hf.1,fun p hp => by cases hp⟩
    | setStatus | clearStatus | addLog | clearLog | rename | setColor | togglePinned | remote
    | proxy => exact hf
  · cases hc with
    | fresh => exact ⟨SplitTree.Ratios.newWithPane _,fun p hp => by cases hp⟩
    | remote => exact ⟨SplitTree.Ratios.newWithPane _,fun p hp => by cases hp⟩
    | restored ord snap port id token => exact restoredWorkspace_finite ord aw hok.2 port id token

theorem Reachable.mono {ok ok' : AppWindow F → WindowOp F → Prop}
    (hk : ∀ aw op, ok aw op → ok' aw op) {aw : AppWindow F} (h : Reachable ok aw) :
    Reachable ok' aw := by
  induction h with
  | empty he => exact .empty he
  | step op _ hok hs ih => exact .step op ih (hk _ _ hok) hs

/-! The saved layout of a tree. -/

theorem layoutOf_finite {nodes : Arena F} {t : NodeTree F} (h : Rep nodes.get t)
    (hr : nodes.Ratios (fun r => isFinite r)) (f : PaneId → List PaneTabSnapshot) :
    (layoutOf f t).Finite := by
  induction t with
  | leaf k v =>
    obtain ⟨p,rfl,-⟩ := rep_leaf_cases h
    trivial
  | node k v l r ihl ihr =>
    obtain ⟨o,ratio,rfl,hk⟩ := rep_node_cases h
    exact ⟨hr.ratio hk,ihl h.2.2.1,ihr h.2.2.2⟩

omit [F64Finite F] in
theorem layoutOf_nesting {get : NodeId → Option (Node F)} {t : NodeTree F} (h : Rep get t)
    {f : PaneId → List PaneTabSnapshot} (hf : ∀ p ∈ treePanes t, f p ≠ []) :
    (layoutOf f t).nesting = 2*t.height+2 := by
  induction t with
  | leaf k v =>
    obtain ⟨p,rfl,-⟩ := rep_leaf_cases h
    obtain ⟨x,xs,hx⟩ := List.exists_cons_of_ne_nil (hf p (by simp))
    simp only [layoutOf,hx,LayoutSnapshot.nesting,height]
  | node k v l r ihl ihr =>
    obtain ⟨o,ratio,rfl,-⟩ := rep_node_cases h
    simp only [treePanes_node,List.mem_append] at hf
    simp only [layoutOf,LayoutSnapshot.nesting,height,ihl h.2.2.1 (fun p hp => hf p (.inl hp)),
      ihr h.2.2.2 (fun p hp => hf p (.inr hp))]
    omega

omit [F64Finite F] in
theorem WsInv.savedTabs_ne_nil {ws : Workspace F} (h : WsInv ws) (rd : PanelReaders) {p : PaneId}
    (hp : p ∈ ws.splitTree.panes) : savedTabs rd ws.panes p ≠ [] := by
  obtain ⟨pane,hl⟩ := HashMap.mem_iff_lookup.mp ((h.keys p).mpr hp)
  simpa [savedTabs,hl] using h.tabs p pane hl

theorem loadable_iff {ws : Workspace F} (hi : WsInv ws) (hf : FiniteWs ws) (rd : PanelReaders) :
    Session.Loadable (AppWindow.workspaceSnapshot rd ws) ↔
      ∀ t, Shape ws.splitTree t → t.height ≤ 61 := by
  obtain ⟨t,ht⟩ := hi.shape
  have hl := ht.workspaceSnapshot_layout rd
  have hn : (layoutOf (savedTabs rd ws.panes) t).nesting = 2*t.height+2 :=
    layoutOf_nesting ht.rep (fun p hp => hi.savedTabs_ne_nil rd (ht.panes_eq ▸ hp))
  have hfin : (AppWindow.workspaceSnapshot rd ws).Finite := by
    refine ⟨hl ▸ layoutOf_finite ht.rep hf.1 _,fun p hp => ?_⟩
    obtain ⟨q,hq,rfl⟩ := Option.map_eq_some_iff.mp hp
    exact hf.2 q hq
  rw [Session.Loadable,hl,hn]
  constructor
  · rintro ⟨-,hlt⟩ u hu
    rw [hu.unique ht]
    omega
  · intro hall
    have := hall t ht
    exact ⟨hfin,by omega⟩

/-- After a run that only got finite numbers the saved session can be loaded, and is
the same, if and only if no split tree is nested deeper than the parser allows. -/
theorem session_loads_iff {aw : AppWindow F} (h : Reachable WindowOp.Finite aw)
    (rd : PanelReaders) :
    Session.load (Session.save none none (AppWindow.sessionSnapshot rd aw)).toOption =
        some (AppWindow.sessionSnapshot rd aw) ↔
      ∀ ws ∈ aw.workspaces, ∀ t, Shape ws.splitTree t → t.height ≤ 61 := by
  have hinv := (h.mono (fun _ _ hok => hok.1)).windowInv
  have hsave : (Session.save none none (AppWindow.sessionSnapshot rd aw)).toOption =
      some (Session.writeSession (AppWindow.sessionSnapshot rd aw)) := rfl
  rw [hsave,Session.load_writeSession]
  simp only [AppWindow.sessionSnapshot,List.forall_mem_map]
  exact forall₂_congr (fun ws hws => loadable_iff (hinv.ws ws hws) (h.finite ws hws) rd)

end Finite

instance : F64Finite Extended where
  isFinite := Extended.isFinite
  finite_lit _ _ _ := rfl
  finite_share n hn := by
    have hne : (n : ℚ) ≠ 0 := Nat.cast_ne_zero.mpr hn.ne'
    simp only [F64Ops.div,F64Ops.lit,F64Ops.ofUsize,Extended.div,if_neg hne]
    rfl
  finite_div a b hb := by
    have hpos : (b.toInt : ℚ) ≠ 0 := by
      have hlt : (0 : ℤ) < b.toInt := Int32.lt_iff_toInt_lt.mp hb
      exact Int.cast_ne_zero.mpr hlt.ne'
    simp only [F64Ops.div,F64Ops.ofInt,Extended.div,if_neg hpos]
    rfl

def App.finished : App Extended :=
  (handleCommand .quiet (handleCommand .quiet .start "new_workspace").2 "set_progress 1").2

theorem session_loads_finished :
    Reachable WindowOp.Finite App.finished.window ∧
      Session.load (Session.save none none
        (AppWindow.sessionSnapshot .silent App.finished.window)).toOption =
        some (AppWindow.sessionSnapshot .silent App.finished.window) := by
  have h : Reachable WindowOp.Finite App.finished.window := by
    refine .step (.setWorkspaceProgress 1 (.finite 1) none) (.step .newWorkspace
      (.empty (rfl : App.start.window.workspaces = [])) ⟨trivial,trivial⟩ rfl) ⟨trivial,rfl⟩ ?_
    rfl
  refine ⟨h,(session_loads_iff h _).mpr (fun ws hws t ht => ?_)⟩
  have hlen : ∀ ws ∈ App.finished.window.workspaces, ws.splitTree.nodes.keys.length ≤ 61 := by
    decide
  exact ((height_le_length t).trans_eq ht.length_keys).trans (hlen ws hws)

/-- Progress at infinity is accepted, and the session is lost. -/
theorem infinite_progress_loses_session :
    ∃ st : App Extended, Reachable WindowOp.Targeted st.window ∧
      Reachable WindowOp.Targeted (handleCommand .quiet st "set_progress inf").2.window ∧
      (handleCommand .quiet st "set_progress inf").1 = "OK" ∧
      Session.load (Session.save none none (AppWindow.sessionSnapshot .silent
        (handleCommand .quiet st "set_progress inf").2.window)).toOption = none := by
  have h : Reachable WindowOp.Targeted (handleCommand .quiet .start "new_workspace").2.window :=
    .step .newWorkspace (.empty (rfl : App.start.window.workspaces = [])) trivial rfl
  refine ⟨(handleCommand .quiet .start "new_workspace").2,h,?_,?_,?_⟩
  · exact .step (.setWorkspaceProgress 1 (.infinity false) none) h trivial rfl
  · rfl
  · rfl

end Limux
