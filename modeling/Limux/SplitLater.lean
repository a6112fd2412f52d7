import Limux.SplitEdits

/-! What the edits of a split tree do to its node ids: an id is never given to a second
node, and a node stays a split or a leaf as long as it is in the tree. -/
namespace Limux

open KeyTree

variable {F : Type}

namespace Shape

variable {s s' : SplitTree F} {t : NodeTree F} {p q : PaneId} {k : NodeId} {before : Bool}
  {o : Orientation} {ratio : F}

theorem mem_grafted (hs : Shape s t) (hk : Sub (leaf k (.leaf p)) t) (hs' : Shape s' (t.subst k
    (Shape.pairTree before o ratio (s.nextId+1) s.nextId q (leaf k (.leaf p))))) (j : NodeId) :
    j ∈ s'.nodes ↔ j = s.nextId+1 ∨ j = s.nextId ∨ j ∈ t.keys := by
  rw [hs'.mem]
  obtain ⟨a,b,h1,h2⟩ := (subst_splice (Shape.pairTree before o ratio (s.nextId+1) s.nextId q
    (leaf k (.leaf p))) hk rfl hs.nodup).1
  rw [key_leaf] at h2
  rw [h2,h1,List.mem_append,List.mem_append,(Shape.keys_pairTree _ _ _ _ _ _ _).mem_iff]
  simp only [keys,List.mem_cons,List.not_mem_nil,or_false,List.mem_append]
  tauto

theorem mem_cut (hs : Shape s t) {j : NodeId} {v : Node F} {l r : NodeTree F} {side : Bool}
    (hj : Sub (node j v l r) t) (hs' : Shape s' (t.subst j (if side then r else l))) {i : NodeId}
    (hi : i ∈ s'.nodes) : i ∈ t.keys ∧ i ≠ j ∧
      (i ∈ (if side then r else l).keys ∨ i ∉ (node j v l r).keys) := by
  obtain ⟨a,b,h1,h2⟩ := (subst_splice (if side then r else l) hj rfl hs.nodup).1
  obtain ⟨hjl,hjr,-,-,-⟩ := nodup_node (hj.nodup hs.nodup)
  have hsub : (if side then r else l).keys ⊆ (node j v l r).keys := by
    cases side <;> exact fun x hx => by simp_all [keys]
  have hne : ∀ x ∈ (if side then r else l).keys, x ≠ j := by
    rintro x hx rfl
    cases side
    · exact hjl hx
    · exact hjr hx
  rw [key_node] at h2
  rw [hs'.mem,h2] at hi
  have hn := hs.nodup
  rw [h1] at hn ⊢
  simp only [List.nodup_append,List.mem_append] at hn hi ⊢
  rcases hi with (hi | hi) | hi
  · have hu := hn.1.2.2 i hi
    exact ⟨.inl (.inl hi),hu j (by simp [keys]),.inr (fun hm => hu i hm rfl)⟩
  · exact ⟨.inl (.inr (hsub hi)),hne i hi,.inl hi⟩
  · have hu := fun x hx => hn.2.2 x (.inr hx) i hi
    exact ⟨.inr hi,(hu j (by simp [keys])).symm,.inr (fun hm => hu i hm rfl)⟩

theorem splitOf_cut (hs : Shape s t) {j : NodeId} {v : Node F} {l r : NodeTree F} {side : Bool}
    (hj : Sub (node j v l r) t) (hs' : Shape s' (t.subst j (if side then r else l))) {i : NodeId}
    (hi : i ∈ s'.nodes) : s'.splitOf i = s.splitOf i := by
  have hsib : Sub (if side then r else l) (node j v l r) := by
    cases side
    · exact .left (.refl l)
    · exact .right (.refl r)
  obtain ⟨-,-,hm | hm⟩ := hs.mem_cut hj hs' hi
  · exact hs.splitOf_sub hs' (hsib.trans hj) (sub_subst hj hs.nodup _) hm
  · exact hs.splitOf_subst hj hs' hm (fun hk => hm (hsib.keys_subset hk))

theorem splitOf_graft (hs : Shape s t) (hk : Sub (leaf k (.leaf p)) t) (hs' : Shape s' (t.subst k
    (Shape.pairTree before o ratio (s.nextId+1) s.nextId q (leaf k (.leaf p))))) {j : NodeId}
    (hj : j ∈ t.keys) : s'.splitOf j = s.splitOf j := by
  by_cases hjk : j = k
  · refine hs.splitOf_sub hs' hk (.trans ?_ (sub_subst hk hs.nodup _)) (by simp [keys,hjk])
    cases before
    · exact .left (.refl _)
    · exact .right (.refl _)
  · refine hs.splitOf_subst hk hs' (by simpa [keys] using hjk) (fun hm => ?_)
    have hlt := hs.lt j hj
    have hm' := (Shape.keys_pairTree _ _ _ _ _ _ _).mem_iff.mp hm
    simp only [keys,List.mem_cons,List.not_mem_nil,or_false] at hm'
    rcases hm' with rfl | rfl | rfl
    · exact absurd hlt (Nat.not_lt.mpr (Nat.le_succ _))
    · exact lt_irrefl _ hlt
    · exact hjk rfl

end Shape

namespace SplitTree

/-- An edited tree: an id that was handed out names the node it named, a split or a leaf
as before, or none. -/
structure Later (s s' : SplitTree F) : Prop where
  nextId : s.nextId ≤ s'.nextId
  kept : ∀ n : ℕ, n < s.nextId → n ∈ s'.nodes →
    n ∈ s.nodes ∧ (s'.splitOf n).isSome = (s.splitOf n).isSome

namespace Later

variable {s s' s'' : SplitTree F}

theorem refl (s : SplitTree F) : s.Later s := ⟨le_rfl,fun _ _ hn => ⟨hn,rfl⟩⟩

theorem trans (h : s.Later s') (h' : s'.Later s'') : s.Later s'' := by
  refine ⟨h.nextId.trans h'.nextId,fun n hlt hn => ?_⟩
  obtain ⟨hm',he'⟩ := h'.kept n (lt_of_lt_of_le hlt h.nextId) hn
  obtain ⟨hm,he⟩ := h.kept n hlt hm'
  exact ⟨hm,he'.trans he⟩

theorem of_sameShape (hn : Arena.SameShape s.nodes s'.nodes) (hi : s'.nextId = s.nextId) :
    s.Later s' := by
  refine ⟨le_of_eq hi.symm,fun n _ hm => ⟨(hn.mem_iff n).mp hm,?_⟩⟩
  rw [splitOf,splitOf]
  rcases hn n with he | ⟨o,r,r',a,b,h1,h2⟩
  · rw [he]
  · rw [h1,h2]
    rfl

theorem of_graft {t : NodeTree F} {k : NodeId} {p q : PaneId} {before : Bool} {o : Orientation}
    {ratio : F} (hs : Shape s t) (hk : Sub (leaf k (.leaf p)) t) (hs' : Shape s' (t.subst k
      (Shape.pairTree before o ratio (s.nextId+1) s.nextId q (leaf k (.leaf p))))) :
    s.Later s' := by
  have hnew := hs'.lt (s.nextId+1) ((hs'.mem _).mp ((hs.mem_grafted hk hs' _).mpr (.inl rfl)))
  refine ⟨((Nat.le_succ _).trans (le_of_lt hnew)),fun n hlt hn => ?_⟩
  rcases (hs.mem_grafted hk hs' n).mp hn with rfl | rfl | hn
  · exact absurd hlt (Nat.not_lt.mpr (Nat.le_succ _))
  · exact absurd hlt (lt_irrefl _)
  · exact ⟨(hs.mem n).mpr hn,by rw [hs.splitOf_graft hk hs' hn]⟩

end Later

variable {s : SplitTree F}

theorem nextId_remove (s : SplitTree F) (p : PaneId) : (s.remove p).2.nextId = s.nextId := by
  unfold remove
  split
  · rfl
  split
  · rfl
  split
  · rfl
  split
  · dsimp only
    split_ifs <;> first | rfl | (split <;> rfl)
  · rfl

end SplitTree

namespace WellFormed

open SplitTree

variable {s : SplitTree F}

theorem later_remove (h : WellFormed s) (p : PaneId) : s.Later (s.remove p).2 := by
  rcases h with h | ⟨t,h⟩
  · rw [show (s.remove p).2 = s by simp [SplitTree.remove,h.root]]
    exact .refl s
  refine ⟨le_of_eq (nextId_remove s p).symm,fun n _ hn => ?_⟩
  rcases SplitTree.remove_cuts h.shape p with ⟨he,-⟩ | ⟨-,hv,-⟩ | ⟨j,v,l,r,k,side,hj,-,-,hs',-⟩
  · rw [he] at hn ⊢
    exact ⟨hn,rfl⟩
  · obtain ⟨v,hv'⟩ := HashMap.mem_iff_lookup.mp hn
    rw [hv.lookup] at hv'
    cases hv'
  · obtain ⟨hm,-⟩ := h.shape.mem_cut hj hs' hn
    exact ⟨(h.shape.mem n).mpr hm,by rw [h.shape.splitOf_cut hj hs' hn]⟩

variable [F64Ops F]

theorem later_splitAt (h : WellFormed s) (before : Bool) (p q : PaneId) (o : Orientation) :
    s.Later (s.splitAt before p q o).2 := by
  rcases h with h | ⟨t,h⟩
  · rw [show (s.splitAt before p q o).2 = s by simp [SplitTree.splitAt,h.root]]
    exact .refl s
  rcases SplitTree.splitAt_spec h.shape before p q o with ⟨he,-⟩ | ⟨k,hk,-,-,hs'⟩
  · rw [he]
    exact .refl s
  · exact .of_graft h.shape hk hs'

theorem later_movePaneAdjacent (h : WellFormed s) (p q : PaneId) (before : Bool)
    (o : Orientation) : s.Later (s.movePaneAdjacent p q before o).2 := by
  rcases h with hv | ⟨t,h⟩
  · rw [hv.movePaneAdjacent]
    exact .refl s
  rcases SplitTree.movePaneAdjacent_regrafts h.shape h.panes_nodup p q before o with
    he | ⟨-,-,s₁,s₂,t₁,j,hg⟩
  · rw [he]
    exact .refl s
  · obtain ⟨hn,-,hi,-⟩ := sameShape_equalizeChain s₂
    have h₁ := later_remove (.inr ⟨t,h⟩ : WellFormed s) p
    rw [hg.removed] at h₁
    rw [hg.moved]
    exact h₁.trans ((Later.of_graft hg.shape hg.target hg.grafted).trans (.of_sameShape hn hi))

end WellFormed

end Limux
