import Limux.ControllerSteps
import Limux.SessionLayout
import Limux.UiLayout

/-! Dragging a divider: the position handlers of its paned run, and the ratio of the split it
shows follows, if it has a handler of that split. -/
namespace Limux

open KeyTree

variable {F : Type}

def Node.withRatio (ratio : F) : Node F → Node F
  | .leaf p => .leaf p
  | .split o _ a b => .split o ratio a b

def withRatio (k : NodeId) (ratio : F) : NodeTree F → NodeTree F
  | .leaf j v => .leaf j v
  | .node j v l r => .node j (if j = k then v.withRatio ratio else v) (withRatio k ratio l)
      (withRatio k ratio r)

@[simp] theorem key_withRatio (k : NodeId) (ratio : F) (t : NodeTree F) :
    (withRatio k ratio t).key = t.key := by
  cases t <;> rfl

@[simp] theorem keys_withRatio (k : NodeId) (ratio : F) (t : NodeTree F) :
    (withRatio k ratio t).keys = t.keys := by
  induction t with
  | leaf j v => rfl
  | node j v l r ihl ihr => simp only [withRatio,keys,ihl,ihr]

theorem lookup_setRatio (s : SplitTree F) (k n : NodeId) (ratio : F) :
    (s.setRatio k ratio).nodes.lookup n =
      if n = k then (s.nodes.lookup k).map (Node.withRatio ratio) else s.nodes.lookup n := by
  rw [SplitTree.setRatio,Arena.lookup_updateSplit]
  split_ifs
  · cases s.nodes.lookup k with
    | none => rfl
    | some v => cases v <;> rfl
  · rfl

theorem Shape.setRatio {s : SplitTree F} {t : NodeTree F} (h : Shape s t) (k : NodeId) (ratio : F) :
    Shape (s.setRatio k ratio) (withRatio k ratio t) := by
  have hrep : ∀ u : NodeTree F, Rep s.nodes.get u →
      Rep (s.setRatio k ratio).nodes.get (withRatio k ratio u) := by
    intro u hu
    induction u with
    | leaf j v =>
      obtain ⟨p,rfl,hj⟩ := rep_leaf_cases hu
      refine ⟨(lookup_setRatio s k j ratio).trans ?_,rfl⟩
      split_ifs with he
      · rw [← he,show s.nodes.lookup j = _ from hj]
        rfl
      · exact hj
    | node j v l r ihl ihr =>
      obtain ⟨o,old,rfl,hj⟩ := rep_node_cases hu
      refine ⟨(lookup_setRatio s k j ratio).trans ?_,?_,ihl hu.2.2.1,ihr hu.2.2.2⟩
      · split_ifs with he
        · rw [← he,show s.nodes.lookup j = _ from hj]
          rfl
        · exact hj
      · rw [key_withRatio,key_withRatio]
        split_ifs <;> rfl
  refine ⟨hrep t h.rep,by rw [keys_withRatio]; exact h.nodup,fun n => ?_,?_,?_⟩
  · rw [keys_withRatio,← h.mem]
    exact (Arena.sameShape_updateSplit s.nodes k _).mem_iff n
  · rw [key_withRatio]
    exact h.root
  · rw [keys_withRatio]
    exact h.lt

namespace AppWindow

variable {aw : AppWindow F} {w : WorkspaceId} {n k : NodeId} {pos total : Int32}

theorem modifyById_eq (h : (aw.workspaces.map Workspace.id).Nodup) (w : WorkspaceId)
    (f : Workspace F → Workspace F) : aw.modifyById w f =
      { aw with workspaces := aw.workspaces.map (fun ws => if ws.id = w then f ws else ws) } := by
  rw [← workspaces_modifyById h]
  unfold modifyById
  split <;> rfl

theorem setRatio_setRatio (t : SplitTree F) (k : NodeId) (ratio : F) :
    (t.setRatio k ratio).setRatio k ratio = t.setRatio k ratio := by
  simp only [SplitTree.setRatio,Arena.updateSplit]
  cases hl : t.nodes.lookup k with
  | none => simp [hl]
  | some v =>
    cases v with
    | leaf p => simp [hl]
    | split o r a b => simp [AList.insert_insert]

variable [F64Ops F]

/-- The handler of a node that is gone does nothing. -/
theorem syncRatio_gone (h : (aw.workspaces.map Workspace.id).Nodup)
    (hn : ∀ ws ∈ aw.workspaces, ws.id = w → n ∉ ws.splitTree.nodes) :
    aw.syncRatio w n pos total = aw := by
  unfold syncRatio
  split_ifs
  · rfl
  dsimp only
  rw [modifyById_eq h]
  have hmap : ∀ ratio : F, aw.workspaces.map (fun ws => if ws.id = w then
      { ws with splitTree := ws.splitTree.setRatio n ratio } else ws) = aw.workspaces := by
    intro ratio
    refine (List.map_congr_left (fun ws hws => ?_)).trans (List.map_id _)
    split_ifs with hid
    · have hl : ws.splitTree.nodes.lookup n = none := AList.lookup_eq_none.mpr (hn ws hws hid)
      rw [SplitTree.setRatio,Arena.updateSplit,hl]
      rfl
    · rfl
  rw [hmap]

theorem mem_syncRatio (h : (aw.workspaces.map Workspace.id).Nodup) (w : WorkspaceId) (k : NodeId)
    (pos total : Int32) :
    ((aw.syncRatio w k pos total).workspaces.map Workspace.id).Nodup ∧
      ∀ ws' ∈ (aw.syncRatio w k pos total).workspaces, ∃ ws ∈ aw.workspaces, ws'.id = ws.id ∧
        ∀ n, n ∈ ws'.splitTree.nodes ↔ n ∈ ws.splitTree.nodes := by
  unfold syncRatio
  split_ifs
  · exact ⟨h,fun ws hws => ⟨ws,hws,rfl,fun _ => Iff.rfl⟩⟩
  dsimp only
  rw [modifyById_eq h]
  refine ⟨?_,fun ws' hws' => ?_⟩
  · rw [List.map_map]
    refine (congrArg List.Nodup (List.map_congr_left (fun ws _ => ?_))).mpr h
    show Workspace.id (if ws.id = w then _ else ws) = ws.id
    split_ifs <;> rfl
  · obtain ⟨ws,hws,rfl⟩ := List.mem_map.mp hws'
    refine ⟨ws,hws,?_,fun n => ?_⟩
    · split_ifs <;> rfl
    · split_ifs
      · exact (Arena.sameShape_updateSplit ws.splitTree.nodes k _).mem_iff n
      · rfl

theorem syncRatio_twice (h : (aw.workspaces.map Workspace.id).Nodup) :
    (aw.syncRatio w k pos total).syncRatio w k pos total = aw.syncRatio w k pos total := by
  have h' := (mem_syncRatio h w k pos total).1
  unfold syncRatio at h' ⊢
  split_ifs with ht
  · rfl
  rw [if_neg ht] at h'
  dsimp only at h' ⊢
  rw [modifyById_eq h']
  rw [modifyById_eq h]
  congr 1
  rw [List.map_map]
  refine List.map_congr_left (fun ws _ => ?_)
  show (if (if ws.id = w then _ else ws).id = w then _ else _) = _
  by_cases hid : ws.id = w
  · simp [hid,setRatio_setRatio]
  · simp [hid]

/-- Handlers of one node among handlers of nodes that are gone. -/
theorem foldl_syncRatio (h : (aw.workspaces.map Workspace.id).Nodup) (w : WorkspaceId)
    (k : NodeId) (pos total : Int32) (handlers : List (WidgetId × NodeId))
    (hh : ∀ e ∈ handlers, e.2 = k ∨ ∀ ws ∈ aw.workspaces, ws.id = w → e.2 ∉ ws.splitTree.nodes) :
    handlers.foldl (fun aw e => aw.syncRatio w e.2 pos total) aw =
      if k ∈ handlers.map Prod.snd then aw.syncRatio w k pos total else aw := by
  obtain ⟨hid,hmem⟩ := mem_syncRatio h w k pos total
  -- once the handler has run, nothing changes
  have hdone : ∀ l : List (WidgetId × NodeId), l ⊆ handlers →
      l.foldl (fun aw e => aw.syncRatio w e.2 pos total) (aw.syncRatio w k pos total) =
        aw.syncRatio w k pos total := by
    intro l hl
    induction l with
    | nil => rfl
    | cons e l ih =>
      have he : (aw.syncRatio w k pos total).syncRatio w e.2 pos total =
          aw.syncRatio w k pos total := by
        rcases hh e (hl List.mem_cons_self) with he | he
        · rw [he,syncRatio_twice h]
        · refine syncRatio_gone hid (fun ws' hws' hw => ?_)
          obtain ⟨ws,hws,hwi,hn⟩ := hmem ws' hws'
          rw [hn]
          exact he ws hws (hwi.symm.trans hw)
      rw [List.foldl_cons,he]
      exact ih (fun e' he' => hl (List.mem_cons_of_mem _ he'))
  suffices hl : ∀ l : List (WidgetId × NodeId), l ⊆ handlers →
      l.foldl (fun aw e => aw.syncRatio w e.2 pos total) aw =
        if k ∈ l.map Prod.snd then aw.syncRatio w k pos total else aw from
    hl handlers (List.Subset.refl _)
  intro l hl
  induction l with
  | nil => rfl
  | cons e l ih =>
    have hl' : l ⊆ handlers := fun e' he' => hl (List.mem_cons_of_mem _ he')
    rw [List.foldl_cons]
    by_cases hk : e.2 = k
    · rw [hk,hdone l hl',if_pos (by simp [hk])]
    · rw [syncRatio_gone h ((hh e (hl List.mem_cons_self)).resolve_left hk),ih hl']
      refine if_congr ?_ rfl rfl
      rw [List.map_cons,List.mem_cons,or_iff_right (Ne.symm hk)]

end AppWindow

namespace Ui

open WorkspaceWidgets

/-- Every split of the workspace is shown by the paned it has in `split_paneds`, with a handler
that writes its ratio. -/
def DividersReach (ws : Workspace F) (ww : WorkspaceWidgets) : Prop :=
  ∃ W, Laid ws.splitTree ww W ∧ Tracked ws.splitTree ww W

theorem not_reach_restored (ui : Ui F) (ord : IterOrder NodeId) (snap : WorkspaceSnapshot F)
    (port : Option UInt16) (id token : String) (hn : 1 < snap.layout.splits) :
    ¬ (ui.restoreWorkspaceFromLayout ord snap port id token).Each DividersReach := by
  intro h
  obtain ⟨t,ws,-,hl,hws⟩ := restoredWorkspace_spec ord ui.window snap port id token
  obtain ⟨ww,hww,W,-,htr⟩ := h (AppWindow.restoredWorkspace ord ui.window snap port id token).1
    (List.mem_append_right _ (List.mem_singleton_self _))
  rw [(restoredWorkspace_head ord ui.window snap port id token).1] at hww
  have hlook := (HashMap.lookup_insert_ite ui.widgets ui.window.ids.workspace _ _).symm.trans hww
  rw [if_pos rfl] at hlook
  have ht : (AppWindow.restoredWorkspace ord ui.window snap port id token).1.splitTree = t := by
    rw [hws]
  rw [ht,← Option.some.inj hlook] at htr
  have hb : buildLayoutWidget ord snap.layout (emptyRestored ui.window snap,
      { ui.window.ids with workspace := ui.window.ids.workspace+1 }) .new =
      buildLayoutWidget ord snap.layout (.new ui.window.ids.workspace,
        { ui.window.ids with workspace := ui.window.ids.workspace+1 }) .new :=
    buildLayoutWidget_congr ord snap.layout (by rfl) .new
  obtain ⟨-,-,-,hnot⟩ := arranged_restored ord snap.layout rfl hl hb rfl
  exact absurd (hnot W htr) (not_le.mpr hn)

variable [F64Ops F]

/-- The divider of a paned has moved: its `notify::position` handlers run in the order they were
connected. -/
def moveDivider (ui : Ui F) (id : WorkspaceId) (paned : WidgetId) (pos total : Int32) : Ui F :=
  match ui.widgets.lookup id with
  | none => ui
  | some ww =>
    { ui with
      window := (ww.synced.reverse.filter (fun e => e.1 = paned)).foldl
        (fun aw e => aw.syncRatio id e.2 pos total) ui.window }

variable {ui ui' : Ui F}

/-- On the paned of a split the handlers of other nodes do nothing. -/
theorem moveDivider_eq (hinv : WindowInv ui.window) {ws : Workspace F} {ww : WorkspaceWidgets}
    {W : NodeId → WidgetId} (hws : ws ∈ ui.window.workspaces)
    (hww : ui.widgets.lookup ws.id = some ww) (hW : Arranged ws.splitTree ww W) {k : NodeId}
    (hk : (ws.splitTree.splitOf k).isSome) (pos total : Int32) :
    ui.moveDivider ws.id (W k) pos total =
      if (W k,k) ∈ ww.synced then { ui with window := ui.window.syncRatio ws.id k pos total }
      else ui := by
  have hmem : k ∈ (ww.synced.reverse.filter (fun e => e.1 = W k)).map Prod.snd ↔
      (W k,k) ∈ ww.synced := by
    simp
  have hfold := AppWindow.foldl_syncRatio hinv.ids_nodup ws.id k pos total
    (ww.synced.reverse.filter (fun e => e.1 = W k)) ?_
  · simp only [moveDivider,hww]
    rw [hfold]
    simp only [hmem]
    split_ifs <;> rfl
  · rintro ⟨x,n⟩ he
    obtain ⟨hs,hx⟩ := List.mem_filter.mp he
    obtain rfl : x = W k := of_decide_eq_true hx
    by_cases hn : n ∈ ws.splitTree.nodes
    · exact .inl (hW.names k (SplitTree.mem_of_splitOf hk) n hn (List.mem_reverse.mp hs))
    · refine .inr (fun ws' hws' hid => ?_)
      rw [hinv.eq_of_id hws hws' hid]
      exact hn

/-- In every reachable state, a drag of the divider between the halves of a split writes the
ratio of that split, or nothing if the paned has no handler of it. -/
theorem divider_writes (h : Reach (fun ui op => op.Targeted ui.window) ui) :
    ui.Each (fun ws ww => ∃ W, Laid ws.splitTree ww W ∧
      ∀ k pos total, (ws.splitTree.splitOf k).isSome → ui.moveDivider ws.id (W k) pos total =
        if (W k,k) ∈ ww.synced then { ui with window := ui.window.syncRatio ws.id k pos total }
        else ui) := by
  have hinv := (h.window (fun _ _ ho => ho)).windowInv
  intro ws hws
  obtain ⟨ww,hww,W,hW⟩ := arranged h ws hws
  exact ⟨ww,hww,W,hW.toLaid,fun k pos total hk => moveDivider_eq hinv hws hww hW hk pos total⟩

theorem divider_writes_split : (twoTabs.splitFocused .vertical).Each
    (fun ws ww => ∃ W, Laid ws.splitTree ww W ∧ ∀ k pos total, (ws.splitTree.splitOf k).isSome →
      (twoTabs.splitFocused .vertical).moveDivider ws.id (W k) pos total =
        if (W k,k) ∈ ww.synced then { twoTabs.splitFocused .vertical with
          window := (twoTabs.splitFocused .vertical).window.syncRatio ws.id k pos total }
        else twoTabs.splitFocused .vertical) :=
  divider_writes (.step (.splitFocused .vertical) (.step .newPaneTab (.step .newWorkspace
    (.empty (rfl : AppWindow.start.workspaces = [])) trivial rfl) trivial rfl) trivial rfl)

theorem tracked_run (h : Reach (fun ui op => op.Targeted ui.window ∧ ¬ RestoresNested op) ui) :
    ui.Each (fun ws ww => ∃ W, Arranged ws.splitTree ww W ∧ Tracked ws.splitTree ww W) := by
  refine h.each (fun _ _ ho => ho.1) ?_ ?_
  · rintro ui op ws ww ⟨-,ho⟩ - - hmade
    exact (arranged_made hmade).imp (fun _ h => ⟨h.1,h.2 ho⟩)
  · rintro ui op ws ww ws' ww' - hinv - hws hinv' ⟨W,hW,htr⟩ he
    exact (arranged_edited hW (hinv.ws ws hws) hinv' (hinv.panes_lt ws hws) he).imp
      (fun _ h => ⟨h.1,h.2 htr⟩)

theorem not_reach_of_restoresNested {op : WindowOp F} (hn : RestoresNested op)
    (hs : ui.step op = some ui') : ¬ ui'.Each DividersReach := by
  cases op with
  | restoreWorkspaceFromLayout ord snap port id token =>
    cases hs
    exact not_reach_restored ui ord snap port id token hn
  | _ => cases hn

/-- In a run that restores no split inside a split, every divider writes the ratio of its
split; the next step keeps that exactly if it restores none either. -/
theorem dividers_reach
    (h : Reach (fun ui op => op.Targeted ui.window ∧ ¬ RestoresNested op) ui) :
    ui.Each DividersReach ∧ ∀ op ui', op.Targeted ui.window → ui.step op = some ui' →
      (ui'.Each DividersReach ↔ ¬ RestoresNested op) := by
  have hreach : ∀ {ui : Ui F}, Reach (fun ui op => op.Targeted ui.window ∧
      ¬ RestoresNested op) ui → ui.Each DividersReach := fun h ws hws =>
    (tracked_run h ws hws).imp (fun _ hw => ⟨hw.1,hw.2.imp (fun _ ha => ⟨ha.1.toLaid,ha.2⟩)⟩)
  exact ⟨hreach h,fun op ui' hop hs => ⟨fun hall hn => not_reach_of_restoresNested hn hs hall,
    fun hn => hreach (.step op h ⟨hop,hn⟩ hs)⟩⟩

theorem dividers_reach_split : (twoTabs.splitFocused .vertical).Each DividersReach ∧
    ∀ op ui', op.Targeted (twoTabs.splitFocused .vertical).window →
      (twoTabs.splitFocused .vertical).step op = some ui' →
      (ui'.Each DividersReach ↔ ¬ RestoresNested op) :=
  dividers_reach (.step (.splitFocused .vertical) (.step .newPaneTab (.step .newWorkspace
    (.empty (rfl : AppWindow.start.workspaces = [])) ⟨trivial,id⟩ rfl) ⟨trivial,id⟩ rfl)
      ⟨trivial,id⟩ rfl)

end Ui

/-- Of the workspace only the ratio of split `k` has changed, also in what is saved of it. -/
structure RatioSet (ws ws' : Workspace F) (k : NodeId) (ratio : F) : Prop where
  rest : ws' = { ws with splitTree := { ws.splitTree with nodes := ws'.splitTree.nodes } }
  nodes : ∀ n, ws'.splitTree.nodes.lookup n =
    if n = k then (ws.splitTree.nodes.lookup k).map (Node.withRatio ratio)
    else ws.splitTree.nodes.lookup n
  saved : ∀ rd t, Shape ws.splitTree t → (AppWindow.workspaceSnapshot rd ws').layout =
    layoutOf (savedTabs rd ws.panes) (withRatio k ratio t)

variable [F64Ops F]

def dividerRatio (pos total : Int32) : F :=
  F64Ops.clamp (F64Ops.div (F64Ops.ofInt pos.toInt) (F64Ops.ofInt total.toInt))
    (F64Ops.lit (5/100)) (F64Ops.lit (95/100))

namespace Ui

open WorkspaceWidgets

/-- Paned `x` is recorded for split `k` with a handler of it, and wherever its divider goes the
ratio of the split follows, that of no other split. -/
structure Drives (ui : Ui F) (ws : Workspace F) (ww : WorkspaceWidgets) (x : WidgetId)
    (k : NodeId) : Prop where
  recorded : ww.splitPaneds.lookup k = some x
  handled : (x,k) ∈ ww.synced
  moved : ∀ pos total, 0 < total → ∃ ws', RatioSet ws ws' k (dividerRatio pos total) ∧
    ui.moveDivider ws.id x pos total = { ui with window := { ui.window with
      workspaces := ui.window.workspaces.map (fun v => if v.id = ws.id then ws' else v) } }

/-- Every split is shown by a paned that the user can resize it with. -/
def Resizable (ui : Ui F) (ws : Workspace F) (ww : WorkspaceWidgets) : Prop :=
  ∃ W, Laid ws.splitTree ww W ∧
    ∀ k, (ws.splitTree.splitOf k).isSome → ui.Drives ws ww (W k) k

variable {ui ui' : Ui F}

theorem drives_of_tracked (hinv : WindowInv ui.window) {ws : Workspace F} {ww : WorkspaceWidgets}
    {W : NodeId → WidgetId} (hws : ws ∈ ui.window.workspaces)
    (hww : ui.widgets.lookup ws.id = some ww) (hW : Arranged ws.splitTree ww W)
    (htr : Tracked ws.splitTree ww W) {k : NodeId} (hk : (ws.splitTree.splitOf k).isSome) :
    ui.Drives ws ww (W k) k := by
  obtain ⟨hr,hs⟩ := htr k hk
  refine ⟨hr,hs,fun pos total ht => ⟨{ ws with
    splitTree := ws.splitTree.setRatio k (dividerRatio pos total) },⟨rfl,fun n =>
      lookup_setRatio _ k n _,fun rd t hsh => (hsh.setRatio k _).workspaceSnapshot_layout rd⟩,?_⟩⟩
  rw [moveDivider_eq hinv hws hww hW hk,if_pos hs,AppWindow.syncRatio,
    if_neg (Int32.not_le.mpr ht)]
  dsimp only
  rw [AppWindow.modifyById_eq hinv.ids_nodup]
  congr 2
  refine List.map_congr_left (fun v hv => ?_)
  split_ifs with hid
  · rw [hinv.eq_of_id hws hv hid]
    rfl
  · rfl

def restoredUi (layout : LayoutSnapshot ℚ) : Ui ℚ :=
  restoreWorkspaceFromLayout (.listed _) ⟨AppWindow.start,∅⟩
    ⟨"limux",none,none,none,none,layout,none,none,none,none⟩ none "" ""

theorem reach_restoredUi {ok : Ui ℚ → WindowOp ℚ → Prop} (layout : LayoutSnapshot ℚ)
    (h : ok ⟨AppWindow.start,∅⟩ (.restoreWorkspaceFromLayout (.listed _)
      ⟨"limux",none,none,none,none,layout,none,none,none,none⟩ none "" "")) :
    Reach ok (restoredUi layout) :=
  .step _ (.empty (rfl : AppWindow.start.workspaces = [])) h rfl

def flatLayout : LayoutSnapshot ℚ := .split "vertical" (1/3) (.single []) (.single [])

def nestedLayout : LayoutSnapshot ℚ := .split "horizontal" (1/2) flatLayout (.single [])

end Ui

end Limux
