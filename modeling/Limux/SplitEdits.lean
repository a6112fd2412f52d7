import Limux.SplitPanes
import Limux.Lib.ArenaTree

/-! What the tree edits do to the pane order and to the splits they leave in
place, on every tree that satisfies the representation invariant. -/
namespace Limux

open KeyTree

variable {F : Type}

theorem RepInv.wellFormed {s : SplitTree F} (h : RepInv s) : WellFormed s := by
  cases hr : s.root with
  | none =>
    refine .inl ⟨fun k => ?_,hr,h.focus_none.mpr hr⟩
    rw [AList.lookup_eq_none,h.reach]
    rintro ⟨r,hr',-⟩
    rw [hr] at hr'
    cases hr'
  | some r =>
    have hmem : ∀ k, k ∈ s.nodes ↔ Relation.ReflTransGen (Child s.nodes.get) r k := by
      intro k
      rw [h.reach,hr]
      simp
    have hdown : ∀ {a b}, Child s.nodes.get a b → a ∈ s.nodes := by
      rintro a b ⟨side,hc⟩
      rw [HashMap.mem_iff_lookup]
      cases ha : s.nodes.lookup a with
      | none => simp [childAt,Arena.get,ha] at hc
      | some v => exact ⟨v,rfl⟩
    have hfin : {k | k ∈ s.nodes}.Finite := by
      refine (s.nodes.keys.finite_toSet).subset ?_
      exact fun k hk => AList.mem_keys.mp hk
    obtain ⟨t,ht,hrep⟩ := exists_rep hfin (fun k hk => HashMap.mem_iff_lookup.mp hk)
      (fun k hk j hj => (hmem j).mpr (((hmem k).mp hk).tail hj)) h.acyclic ((hmem r).mpr .refl)
    -- the root is nobody's child, so the parent slot is unique for every key
    have hslot : ∀ a b c, childAt s.nodes.get a = some c → childAt s.nodes.get b = some c →
        a = b := by
      intro a b c ha hb
      have hca : Child s.nodes.get a.1 c := ⟨a.2,ha⟩
      have hc : c ∈ s.nodes := (hmem c).mpr (((hmem a.1).mp (hdown hca)).tail hca)
      have hcr : s.root ≠ some c := by
        rw [hr]
        rintro ⟨rfl⟩
        exact h.acyclic _ (.tail' ((hmem a.1).mp (hdown hca)) hca)
      exact (h.parent c hc hcr).unique ha hb
    have hs : Shape s t := by
      refine ⟨hrep,hrep.nodup h.acyclic hslot,fun k => ?_,by rw [hr,ht],fun k hk => ?_⟩
      · rw [hmem,← hrep.reach_iff,ht]
      · rw [← hrep.reach_iff,ht,← hmem] at hk
        exact h.lt k hk
    refine .inr ⟨t,hs,hs.panes_eq ▸ h.panes_nodup,?_⟩
    cases hf : s.focused with
    | none => exact absurd (hr.symm.trans (h.focus_none.mp hf)) (by simp)
    | some p => exact ⟨p,hs.panes_eq ▸ h.focus_mem p hf,rfl⟩

def Node.split? : Node F → Option (Orientation × F)
  | .leaf _ => none
  | .split o r _ _ => some (o,r)

@[simp] theorem Node.split?_mapKids (f : NodeId → NodeId) (n : Node F) :
    (Cell.mapKids f n).split? = n.split? := by
  cases n <;> rfl

namespace SplitTree

/-- Orientation and ratio of the split with a given id, if there is one. -/
def splitOf (s : SplitTree F) (k : NodeId) : Option (Orientation × F) :=
  (s.nodes.lookup k).bind Node.split?

/-- The split `k` has the leaf of `p` as a child. -/
def ParentOf (s : SplitTree F) (p : PaneId) (k : NodeId) : Prop :=
  ∃ o r a b, s.nodes.lookup k = some (.split o r a b) ∧
    (s.nodes.lookup a = some (.leaf p) ∨ s.nodes.lookup b = some (.leaf p))

end SplitTree

namespace Shape

variable {s s' : SplitTree F} {t t' u g : NodeTree F}

theorem splitOf_eq_none (h : Shape s t) {k : NodeId} (hk : k ∉ t.keys) : s.splitOf k = none := by
  rw [SplitTree.splitOf,h.lookup_eq_none hk]
  rfl

theorem splitOf_sub (h : Shape s t) (h' : Shape s' t') (hu : Sub u t) (hu' : Sub u t')
    {k : NodeId} (hk : k ∈ u.keys) : s'.splitOf k = s.splitOf k := by
  have he : s'.nodes.lookup k = s.nodes.lookup k := (h.rep.sub hu).get_eq (h'.rep.sub hu') hk
  rw [SplitTree.splitOf,SplitTree.splitOf,he]

theorem splitOf_subst (h : Shape s t) (hu : Sub u t) (h' : Shape s' (t.subst u.key g))
    {k : NodeId} (hku : k ∉ u.keys) (hkg : k ∉ g.keys) : s'.splitOf k = s.splitOf k := by
  by_cases hk : k ∈ t.keys
  · have he : s'.nodes.lookup k = (s.nodes.lookup k).map _ := h.rep.get_subst h.nodup hu h'.rep hk hku
    rw [SplitTree.splitOf,SplitTree.splitOf,he]
    cases s.nodes.lookup k <;> simp
  · obtain ⟨a,b,h1,h2⟩ := (subst_splice g hu rfl h.nodup).1
    rw [h1] at hk
    rw [h.splitOf_eq_none (by rw [h1]; exact hk),h'.splitOf_eq_none]
    rw [h2]
    simp only [List.mem_append,not_or] at hk ⊢
    exact ⟨⟨hk.1.1,hkg⟩,hk.2⟩

end Shape

namespace WellFormed

variable {s : SplitTree F}

theorem remove_inorder (h : WellFormed s) {p : PaneId} (hp : p ∈ s.panes) :
    (s.remove p).1 = true ∧
      ∃ xs ys, s.panes = xs ++ p :: ys ∧ (s.remove p).2.panes = xs ++ ys := by
  obtain ⟨xs,ys,-,hl,he⟩ := List.exists_erase_eq hp
  refine ⟨?_,xs,ys,hl,by rw [h.panes_remove,he]⟩
  rcases h with h | ⟨t,h⟩
  · rw [h.panes] at hp; cases hp
  rcases SplitTree.remove_spec h.shape h.panes_nodup p with ⟨-,hn⟩ | ⟨hok,-⟩ | ⟨hok,-⟩
  · exact absurd (h.shape.panes_eq ▸ hp) hn
  · exact hok
  · exact hok

theorem remove_fail (h : WellFormed s) {p : PaneId} (hf : (s.remove p).1 = false) :
    (s.remove p).2 = s := by
  rcases h with h | ⟨t,h⟩
  · simp [SplitTree.remove,h.root]
  rcases SplitTree.remove_spec h.shape h.panes_nodup p with ⟨he,-⟩ | ⟨hok,-⟩ | ⟨hok,-⟩
  · rw [he]
  · rw [hok] at hf; cases hf
  · rw [hok] at hf; cases hf

/-- A removal drops the split above the removed leaf and keeps the others. -/
theorem remove_splitOf (h : WellFormed s) (p : PaneId) (k : NodeId) :
    (s.remove p).2.splitOf k = s.splitOf k ∨
      s.ParentOf p k ∧ (s.remove p).2.splitOf k = none := by
  rcases h with h | ⟨t,h⟩
  · simp [SplitTree.remove,h.root]
  have hs := h.shape
  rcases SplitTree.remove_cuts hs p with ⟨he,-⟩ | ⟨-,hv,ht⟩ | ⟨j,v,l,r,i,side,hp,hi,-,h₁,-⟩
  · exact .inl (by rw [he])
  · refine .inl ?_
    rw [SplitTree.splitOf,hv.lookup,SplitTree.splitOf]
    by_cases hk : k ∈ t.keys
    · obtain rfl : k = t.key := by rw [ht] at hk; simpa [keys] using hk
      rw [show s.nodes.lookup t.key = _ from hs.rep.get_key,ht]
      rfl
    · rw [hs.lookup_eq_none hk]
  · have hsib : Sub (if side then r else l) (node j v l r) := by
      cases side
      · exact .left (.refl l)
      · exact .right (.refl r)
    obtain ⟨o,ratio,rfl,hj⟩ := rep_node_cases (hs.rep.sub hp)
    by_cases hkp : k ∈ (node j (.split o ratio l.key r.key) l r).keys
    · by_cases hks : k ∈ (if side then r else l).keys
      · refine .inl (hs.splitOf_sub h₁ (hsib.trans hp) ?_ hks)
        exact sub_subst hp hs.nodup _
      · -- the split itself or its leaf
        have hleaf : s.nodes.lookup i = some (.leaf p) := by
          have hr : Rep s.nodes.get (if side then l else r) := by
            cases side
            · exact (hs.rep.sub hp).2.2.2
            · exact (hs.rep.sub hp).2.2.1
          rw [hi] at hr
          exact hr.1
        have hgone : (s.remove p).2.splitOf k = none := by
          refine h₁.splitOf_eq_none (fun hk => ?_)
          obtain ⟨a,b,h1,h2⟩ := (subst_splice (if side then r else l) hp rfl hs.nodup).1
          rw [key_node] at h2
          have hn := hs.nodup
          rw [h1] at hn
          rw [h2] at hk
          simp only [List.mem_append] at hk
          simp only [List.nodup_append,List.mem_append] at hn
          rcases hk with (hk | hk) | hk
          · exact hn.1.2.2 k hk k hkp rfl
          · exact hks hk
          · exact hn.2.2 k (.inr hkp) k hk rfl
        by_cases hkj : k = j
        · subst hkj
          refine .inr ⟨⟨o,ratio,l.key,r.key,hj,?_⟩,hgone⟩
          cases side
          · exact .inr (by rw [show r = _ from hi,key_leaf]; exact hleaf)
          · exact .inl (by rw [show l = _ from hi,key_leaf]; exact hleaf)
        · refine .inl (hgone.trans ?_)
          have hki : k = i := by
            cases side
            · simp only [Bool.false_eq_true,if_false] at hks hi
              simpa [keys,hkj,hks,hi] using hkp
            · simp only [if_true] at hks hi
              simpa [keys,hkj,hks,hi] using hkp
          rw [hki,SplitTree.splitOf,hleaf]
          rfl
    · refine .inl (hs.splitOf_subst hp h₁ hkp (fun hk => hkp (hsib.keys_subset hk)))

variable [F64Ops F]

/-- A split adds one split node and keeps the others. -/
theorem splitAt_splitOf (h : WellFormed s) (before : Bool) (p q : PaneId) (o : Orientation)
    (k : NodeId) : (s.splitAt before p q o).2.splitOf k = s.splitOf k ∨
      (s.splitAt before p q o).1 = some k ∧ s.splitOf k = none := by
  rcases h with h | ⟨t,h⟩
  · simp [SplitTree.splitAt,h.root]
  have hs := h.shape
  rcases SplitTree.splitAt_spec hs before p q o with ⟨he,-⟩ | ⟨i,hi,hid,-,h'⟩
  · exact .inl (by rw [he])
  by_cases hk : k = s.nextId+1
  · exact .inr ⟨by rw [hid,hk],hk ▸ hs.splitOf_eq_none (hs.fresh (Nat.le_succ _))⟩
  refine .inl ?_
  have hsub := sub_subst hi hs.nodup
    (Shape.pairTree before o SplitTree.half (s.nextId+1) s.nextId q (leaf i (.leaf p)))
  by_cases hki : k = i
  · refine hs.splitOf_sub h' hi (.trans ?_ hsub) (by simp [keys,hki])
    cases before
    · exact .left (.refl _)
    · exact .right (.refl _)
  by_cases hkn : k = s.nextId
  · subst hkn
    rw [hs.splitOf_eq_none (hs.fresh le_rfl),SplitTree.splitOf]
    have hrep := h'.rep.sub hsub
    have hleaf : (s.splitAt before p q o).2.nodes.lookup s.nextId = some (.leaf q) := by
      cases before
      · exact hrep.2.2.2.1
      · exact hrep.2.2.1.1
    rw [hleaf]
    rfl
  refine hs.splitOf_subst hi h' (by simpa [keys] using hki) (fun hm => ?_)
  have hm' := (Shape.keys_pairTree _ _ _ _ _ _ _).mem_iff.mp hm
  simp only [keys,List.mem_cons,List.not_mem_nil,or_false] at hm'
  rcases hm' with rfl | rfl | rfl
  · exact hk rfl
  · exact hkn rfl
  · exact hki rfl

theorem move_inorder (h : WellFormed s) {p q : PaneId} {before : Bool} {o : Orientation}
    (hok : (s.movePaneAdjacent p q before o).1 = true) :
    ∃ xs ys, s.panes.erase p = xs ++ q :: ys ∧ (s.movePaneAdjacent p q before o).2.panes =
      xs ++ (if before then [p,q] else [q,p]) ++ ys := by
  rcases h with h | ⟨t,h⟩
  · rw [h.movePaneAdjacent] at hok; cases hok
  rcases SplitTree.movePaneAdjacent_regrafts h.shape h.panes_nodup p q before o with
    he | ⟨-,-,s₁,s₂,t₁,j,hg⟩
  · rw [he] at hok; cases hok
  obtain ⟨t',h',hp'⟩ := SplitTree.shape_equalizeChain hg.grafted
  obtain ⟨a,b,h1,h2⟩ := Shape.treePanes_subst hg.shape.nodup hg.target
    (Shape.pairTree before o SplitTree.half (s₁.nextId+1) s₁.nextId p (leaf j (.leaf q)))
  refine ⟨a,b,?_,?_⟩
  · rw [h.shape.panes_eq,← hg.panes,h1]
    simp
  · rw [hg.moved,h'.panes_eq,hp']
    rw [key_leaf] at h2
    rw [h2,Shape.treePanes_pairTree]
    cases before <;> simp

theorem move_fail (h : WellFormed s) {p q : PaneId} {before : Bool} {o : Orientation}
    (hf : (s.movePaneAdjacent p q before o).1 = false) :
    (s.movePaneAdjacent p q before o).2 = s := by
  rcases h with h | ⟨t,h⟩
  · rw [h.movePaneAdjacent]
  rcases SplitTree.movePaneAdjacent_regrafts h.shape h.panes_nodup p q before o with
    he | ⟨-,-,s₁,s₂,t₁,j,hg⟩
  · rw [he]
  · rw [hg.moved] at hf; cases hf

end WellFormed

/-- The tree edits on the pane order, on the splits they neither create nor
remove, and on the whole tree when they fail. -/
theorem edits_inorder [F64Ops F] {s : SplitTree F} (h : RepInv s) :
    (∀ p q o, p ∈ s.panes → q ∉ s.panes → ∃ xs ys, s.panes = xs ++ p :: ys ∧
      (s.split p q o).2.panes = xs ++ p :: q :: ys) ∧
    (∀ p q o, p ∈ s.panes → q ∉ s.panes → ∃ xs ys, s.panes = xs ++ p :: ys ∧
      (s.splitBefore p q o).2.panes = xs ++ q :: p :: ys) ∧
    (∀ p ∈ s.panes, ∃ xs ys, s.panes = xs ++ p :: ys ∧ (s.remove p).2.panes = xs ++ ys) ∧
    (∀ p q before o, (s.movePaneAdjacent p q before o).1 = true →
      ∃ xs ys, s.panes.erase p = xs ++ q :: ys ∧ (s.movePaneAdjacent p q before o).2.panes =
        xs ++ (if before then [p,q] else [q,p]) ++ ys) ∧
    (∀ ord s' o ratio, RepInv s' →
      (SplitTree.merge ord s s' o ratio).panes = s.panes ++ s'.panes) ∧
    (∀ p q o k, ((s.split p q o).2.splitOf k = s.splitOf k ∨
        (s.split p q o).1 = some k ∧ s.splitOf k = none) ∧
      ((s.splitBefore p q o).2.splitOf k = s.splitOf k ∨
        (s.splitBefore p q o).1 = some k ∧ s.splitOf k = none)) ∧
    (∀ p k, (s.remove p).2.splitOf k = s.splitOf k ∨
      s.ParentOf p k ∧ (s.remove p).2.splitOf k = none) ∧
    (∀ p q o, ((s.split p q o).1 = none → (s.split p q o).2 = s) ∧
      ((s.splitBefore p q o).1 = none → (s.splitBefore p q o).2 = s)) ∧
    (∀ p, (s.remove p).1 = false → (s.remove p).2 = s) ∧
    (∀ p q before o, (s.movePaneAdjacent p q before o).1 = false →
      (s.movePaneAdjacent p q before o).2 = s) := by
  have hw := h.wellFormed
  have hfail : ∀ before p q o, (s.splitAt before p q o).1 = none →
      (s.splitAt before p q o).2 = s := by
    intro before p q o hf
    by_cases hp : p ∈ s.panes
    · obtain ⟨id,hid,-⟩ := hw.splitAt_beside before q o hp
      rw [hid] at hf; cases hf
    · rw [hw.splitAt_fail before q o hp]
  refine ⟨fun p q o hp _ => ?_,fun p q o hp _ => ?_,fun p hp => (hw.remove_inorder hp).2,
    fun _ _ _ _ => hw.move_inorder,fun ord _ o ratio h' => hw.panes_merge ord h'.wellFormed o ratio,
    fun p q o k => ⟨hw.splitAt_splitOf false p q o k,hw.splitAt_splitOf true p q o k⟩,
    hw.remove_splitOf,fun p q o => ⟨hfail false p q o,hfail true p q o⟩,
    fun _ => hw.remove_fail,fun _ _ _ _ => hw.move_fail⟩
  · obtain ⟨_,-,⟨xs,ys,hl,hq⟩,-⟩ := hw.splitAt_beside false q o hp
    exact ⟨xs,ys,hl,by simpa [SplitTree.split,SplitTree.splitBefore] using hq⟩
  · obtain ⟨_,-,⟨xs,ys,hl,hq⟩,-⟩ := hw.splitAt_beside true q o hp
    exact ⟨xs,ys,hl,by simpa [SplitTree.split,SplitTree.splitBefore] using hq⟩

/-- Taking the first pane out of a tree of two. -/
theorem edits_inorder_pair :
    RepInv ((SplitTree.newWithPane 1 : SplitTree ℚ).split 1 2 .horizontal).2 ∧
    ∃ xs ys, ((SplitTree.newWithPane 1 : SplitTree ℚ).split 1 2 .horizontal).2.panes =
      xs ++ 1 :: ys ∧ (((SplitTree.newWithPane 1 : SplitTree ℚ).split 1 2
        .horizontal).2.remove 1).2.panes = xs ++ ys := by
  have h : RepInv ((SplitTree.newWithPane 1 : SplitTree ℚ).split 1 2 .horizontal).2 :=
    repInv_of_built (.split 1 2 _ (.newWithPane 1) (by decide))
  exact ⟨h,(edits_inorder h).2.2.1 1 (by decide)⟩

end Limux
