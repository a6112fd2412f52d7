import Limux.SplitRep

/-! The pane list of a well-formed split tree under each operation. -/
namespace Limux

open KeyTree

namespace WellFormed

variable {F : Type} {s : SplitTree F}

theorem panes_congr {s' : SplitTree F} (hn : s'.nodes = s.nodes) (hr : s'.root = s.root) :
    s'.panes = s.panes := by
  simp only [SplitTree.panes,SplitTree.fuel,hn,hr]

@[simp] theorem panes_setFocused (s : SplitTree F) (p : PaneId) :
    (s.setFocused p).panes = s.panes := panes_congr rfl rfl

@[simp] theorem panes_newWithPane (p : PaneId) :
    (SplitTree.newWithPane p : SplitTree F).panes = [p] := rfl

theorem panes_navigate (s : SplitTree F) (forward : Bool) :
    (s.navigate forward).2.panes = s.panes := by
  rcases SplitTree.navigate_spec s forward with he | ⟨p,-,he⟩
  · rw [he]
  · rw [he]; exact panes_congr rfl rfl

theorem panes_of_sameShape (h : WellFormed s) {s' : SplitTree F}
    (hn : Arena.SameShape s.nodes s'.nodes) (hr : s'.root = s.root)
    (hi : s'.nextId = s.nextId) : s'.panes = s.panes := by
  rcases h with h | ⟨t,h⟩
  · rw [h.panes,SplitTree.panes,hr,h.root]
  · obtain ⟨t',h',-,-,hp⟩ := h.shape.of_sameShape hn hr hi
    rw [h'.panes_eq,hp,h.shape.panes_eq]

theorem panes_remove (h : WellFormed s) (p : PaneId) : (s.remove p).2.panes = s.panes.erase p := by
  rcases h with h | ⟨t,h⟩
  · simp [SplitTree.remove,h.root,h.panes]
  rcases SplitTree.remove_spec h.shape h.panes_nodup p with
    ⟨he,hp⟩ | ⟨-,hv,hp⟩ | ⟨-,-,t',h',hp',-⟩
  · rw [he,h.shape.panes_eq,List.erase_of_not_mem hp]
  · rw [hv.panes,h.shape.panes_eq,hp,List.erase_cons_head]
  · rw [h'.panes_eq,hp',h.shape.panes_eq]

theorem focused_mem (h : WellFormed s) (hne : s.panes ≠ []) :
    ∃ p ∈ s.panes, s.focused = some p := by
  rcases h with h | ⟨t,h⟩
  · exact absurd h.panes hne
  · rw [h.shape.panes_eq]
    exact h.focus

theorem nodeIdForPane_isSome (h : WellFormed s) (p : PaneId) :
    (s.nodeIdForPane p).isSome ↔ p ∈ s.panes := by
  rcases h with h | ⟨t,h⟩
  · simp [SplitTree.nodeIdForPane,h.root,h.panes]
  · rw [h.shape.panes_eq]
    rcases h.shape.nodeIdForPane_spec p with ⟨k,hk,hs⟩ | ⟨hk,hp⟩
    · simp [hk,panes_subset_of_sub hs (show p ∈ _ by simp)]
    · simp [hk,hp]

theorem panes_merge (ord : IterOrder NodeId) {s' : SplitTree F} (h : WellFormed s)
    (h' : WellFormed s') (o : Orientation) (ratio : F) :
    (SplitTree.merge ord s s' o ratio).panes = s.panes ++ s'.panes := by
  rcases SplitTree.merge_spec ord h.vacant_or_shape h'.vacant_or_shape o ratio with
    ⟨hv,hv',hm⟩ | ⟨t,hs,hp,-⟩
  · rw [hm.panes,hv.panes,hv'.panes]; rfl
  · rw [hs.panes_eq,hp]

theorem panes_setRatio (h : WellFormed s) (id : NodeId) (ratio : F) :
    (s.setRatio id ratio).panes = s.panes :=
  h.panes_of_sameShape (Arena.sameShape_updateSplit _ _ _) rfl rfl

variable [F64Ops F]

theorem panes_equalize (h : WellFormed s) : s.equalize.panes = s.panes :=
  h.panes_of_sameShape (SplitTree.sameShape_equalize s) rfl rfl

theorem splitAt_fail (h : WellFormed s) (before : Bool) {p : PaneId} (q : PaneId)
    (o : Orientation) (hp : p ∉ s.panes) : s.splitAt before p q o = (none,s) := by
  rcases h with h | ⟨t,h⟩
  · simp [SplitTree.splitAt,h.root]
  rw [h.shape.panes_eq] at hp
  rcases SplitTree.splitAt_spec h.shape before p q o with ⟨he,-⟩ | ⟨k,hk,-⟩
  · exact he
  · exact absurd (panes_subset_of_sub hk (by simp)) hp

theorem splitAt_ok (h : WellFormed s) (before : Bool) {p : PaneId} (q : PaneId)
    (o : Orientation) (hp : p ∈ s.panes) :
    (∃ id, (s.splitAt before p q o).1 = some id) ∧
      (s.splitAt before p q o).2.panes.Perm (q :: s.panes) := by
  rcases h with h | ⟨t,h⟩
  · rw [h.panes] at hp; cases hp
  rw [h.shape.panes_eq] at hp ⊢
  rcases SplitTree.splitAt_spec h.shape before p q o with ⟨-,hn⟩ | ⟨k,hk,hid,-,h'⟩
  · exact absurd hp hn
  · rw [h'.panes_eq]
    exact ⟨⟨_,hid⟩,panes_graft h.shape.nodup hk before o SplitTree.half _ _ q⟩

theorem splitAt_beside (h : WellFormed s) (before : Bool) {p : PaneId} (q : PaneId)
    (o : Orientation) (hp : p ∈ s.panes) :
    ∃ id, (s.splitAt before p q o).1 = some id ∧
      (∃ a b, s.panes = a ++ p :: b ∧ (s.splitAt before p q o).2.panes =
        a ++ (if before then [q,p] else [p,q]) ++ b) ∧
      ∃ n r f l, (s.splitAt before p q o).2.nodes.lookup n = some (.split o r f l) ∧
        (s.splitAt before p q o).2.nodes.lookup f = some (.leaf (if before then q else p)) ∧
        (s.splitAt before p q o).2.nodes.lookup l = some (.leaf (if before then p else q)) := by
  rcases h with h | ⟨t,h⟩
  · rw [h.panes] at hp; cases hp
  have hs := h.shape
  rw [hs.panes_eq] at hp ⊢
  rcases SplitTree.splitAt_spec hs before p q o with ⟨-,hn⟩ | ⟨k,hk,hid,-,h'⟩
  · exact absurd hp hn
  refine ⟨_,hid,?_,?_⟩
  · obtain ⟨a,b,h1,h2⟩ := Shape.treePanes_subst hs.nodup hk
      (Shape.pairTree before o SplitTree.half (s.nextId+1) s.nextId q (.leaf k (.leaf p)))
    refine ⟨a,b,by simpa using h1,?_⟩
    rw [KeyTree.key_leaf] at h2
    rw [h'.panes_eq,h2,Shape.treePanes_pairTree]
    cases before <;> simp
  · -- the pair is a subtree of the new tree
    have hsub := KeyTree.sub_subst hk hs.nodup
      (Shape.pairTree before o SplitTree.half (s.nextId+1) s.nextId q (.leaf k (.leaf p)))
    have hrep := h'.rep.sub hsub
    cases before with
    | true => exact ⟨_,_,_,_,hrep.1,hrep.2.2.1.1,hrep.2.2.2.1⟩
    | false => exact ⟨_,_,_,_,hrep.1,hrep.2.2.1.1,hrep.2.2.2.1⟩

theorem panes_navigateDirectional (h : WellFormed s) (d : Direction) :
    (s.navigateDirectional d).2.panes = s.panes := by
  rcases h with h | ⟨t,h⟩
  · simp [SplitTree.navigateDirectional,h.focused]
  rcases SplitTree.navigateDirectional_spec h.shape d with he | ⟨p,-,he⟩
  · rw [he]
  · rw [he]; exact panes_congr rfl rfl

theorem panes_movePaneAdjacent (h : WellFormed s) (p q : PaneId) (before : Bool)
    (o : Orientation) : (s.movePaneAdjacent p q before o).2.panes.Perm s.panes := by
  rcases h with h | ⟨t,h⟩
  · rw [h.movePaneAdjacent]
  rcases SplitTree.movePaneAdjacent_spec h.shape h.panes_nodup p q before o with
    he | ⟨-,-,-,-,t',h',hperm⟩
  · rw [he]
  · rw [h'.panes_eq,h.shape.panes_eq]
    exact hperm

end WellFormed

end Limux
