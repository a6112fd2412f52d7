import Limux.SplitChain

/-! Moving a pane: after `move_pane_adjacent` all panes have the same area exactly
when the tree without the moved pane is a chain that ends in the target. -/
namespace Limux

open KeyTree

/-- Apart from the split above the moved pane, each split has one other pane in
its first side, and the target is the last of the other panes. -/
structure SplitTree.EvensOut {F : Type} (s : SplitTree F) (source target : PaneId) : Prop where
  chain : ∀ k o ratio a b, s.nodes.lookup k = some (.split o ratio a b) →
    ¬ s.ParentOf source k → ((s.nodes.collectPanes s.fuel a).erase source).length = 1
  last : (s.panes.erase source).getLast? = some target

section Tree

variable {F : Type} {s : SplitTree F} {t : NodeTree F}

theorem treePanes_length_one {get : NodeId → Option (Node F)} (h : Rep get t) :
    (treePanes t).length = 1 ↔ ∃ k v, t = leaf k v := by
  cases t with
  | leaf k v =>
    obtain ⟨p,rfl,-⟩ := rep_leaf_cases h
    exact iff_of_true rfl ⟨k,_,rfl⟩
  | node k v l r =>
    have hl := List.length_pos_iff.mpr (treePanes_ne_nil h.2.2.1)
    have hr := List.length_pos_iff.mpr (treePanes_ne_nil h.2.2.2)
    rw [treePanes_node,List.length_append]
    refine iff_of_false (by omega) ?_
    rintro ⟨i,w,he⟩
    cases he

/-- Every split but `j` has one pane besides `p` in its first side. -/
def FirstOne (p : PaneId) (j : NodeId) (t : NodeTree F) : Prop :=
  ∀ k v l r, Sub (node k v l r) t → k ≠ j → ((treePanes l).erase p).length = 1

theorem firstOne_node {p : PaneId} {j k : NodeId} {v : Node F} {l r : NodeTree F} :
    FirstOne p j (node k v l r) ↔
      (k ≠ j → ((treePanes l).erase p).length = 1) ∧ FirstOne p j l ∧ FirstOne p j r := by
  constructor
  · exact fun h => ⟨h k v l r (.refl _),fun i w a b hs => h i w a b (.left hs),
      fun i w a b hs => h i w a b (.right hs)⟩
  · rintro ⟨hk,hl,hr⟩ i w a b hs
    cases hs with
    | refl => exact hk
    | left hs => exact hl i w a b hs
    | right hs => exact hr i w a b hs

theorem firstOne_leaf (p : PaneId) (j k : NodeId) (v : Node F) : FirstOne p j (leaf k v) :=
  fun _ _ _ _ hs => nomatch hs

/-- Away from the removed leaf and the split above it, this says that the tree is a chain. -/
theorem firstOne_iff {get : NodeId → Option (Node F)} (h : Rep get t) {p : PaneId} {j : NodeId}
    (hp : p ∉ treePanes t) (hj : j ∉ t.keys) : FirstOne p j t ↔ RightLeaning t := by
  induction t with
  | leaf k v => exact iff_of_true (firstOne_leaf p j k v) trivial
  | node k v l r ihl ihr =>
    simp only [treePanes_node,List.mem_append,not_or] at hp
    simp only [keys,List.mem_cons,List.mem_append,not_or] at hj
    rw [firstOne_node,ihl h.2.2.1 hp.1 hj.2.1,ihr h.2.2.2 hp.2 hj.2.2,
      List.erase_of_not_mem hp.1,treePanes_length_one h.2.2.1]
    constructor
    · rintro ⟨hk,-,hr⟩
      exact ⟨hk (Ne.symm hj.1),hr⟩
    · rintro ⟨⟨i,w,rfl⟩,hr⟩
      exact ⟨fun _ => ⟨i,w,rfl⟩,trivial,hr⟩

theorem isLeaf_subst_of_notMem {j : NodeId} (g : NodeTree F) (hj : j ∉ t.keys) :
    (∃ k v, t.subst j g = leaf k v) ↔ ∃ k v, t = leaf k v := by
  cases t with
  | leaf i w =>
    have hi : i ≠ j := fun he => hj (by simp [keys,he])
    rw [subst,if_neg hi]
  | node i w l r =>
    have hi : i ≠ j := fun he => hj (by simp [keys,he])
    rw [subst,if_neg hi]
    refine iff_of_false ?_ ?_ <;> (rintro ⟨k,v,he⟩; cases he)

theorem rightLeaning_subst_of_notMem {j : NodeId} (g : NodeTree F) (hj : j ∉ t.keys) :
    RightLeaning (t.subst j g) ↔ RightLeaning t := by
  induction t with
  | leaf i w =>
    have hi : i ≠ j := fun he => hj (by simp [keys,he])
    rw [subst,if_neg hi]
  | node i w l r _ ihr =>
    simp only [keys,List.mem_cons,List.mem_append,not_or] at hj
    rw [subst,if_neg (Ne.symm hj.1)]
    exact and_congr (isLeaf_subst_of_notMem g hj.2.1) (ihr hj.2.2)

/-- The tree without the pane is a chain exactly if every split but the one above
the pane has one other pane in its first side. -/
theorem rightLeaning_cut_iff {get get' : NodeId → Option (Node F)} (h : Rep get t)
    (hn : t.keys.Nodup) (hpn : (treePanes t).Nodup) {p : PaneId} {j k : NodeId} {v : Node F}
    {l r : NodeTree F} {side : Bool} (hp : Sub (node j v l r) t)
    (hk : (if side then l else r) = leaf k (.leaf p))
    (h' : Rep get' (t.subst j (if side then r else l))) :
    RightLeaning (t.subst j (if side then r else l)) ↔ FirstOne p j t := by
  induction t with
  | leaf i w => cases hp
  | node i w l' r' ihl ihr =>
    obtain ⟨-,-,hnl,hnr,hd⟩ := nodup_node hn
    rw [treePanes_node,List.nodup_append] at hpn
    have hmem : ∀ {u : NodeTree F}, Sub (node j v l r) u → j ∈ u.keys := fun hs =>
      hs.keys_subset (key_mem_keys _)
    cases hp with
    | refl =>
      obtain ⟨hjl,hjr,-,-,-⟩ := nodup_node hn
      rw [subst_of_key _ (key_node j v l r),firstOne_node]
      cases side with
      | true =>
        obtain rfl : l = leaf k (.leaf p) := hk
        have hpr : p ∉ treePanes r := fun hr => hpn.2.2 p (by simp) p hr rfl
        rw [if_pos rfl,firstOne_iff h.2.2.2 hpr hjr]
        exact ⟨fun hr => ⟨fun hne => absurd rfl hne,firstOne_leaf _ _ _ _,hr⟩,fun hr => hr.2.2⟩
      | false =>
        obtain rfl : r = leaf k (.leaf p) := hk
        have hpl : p ∉ treePanes l := fun hl => hpn.2.2 p hl p (by simp) rfl
        rw [if_neg Bool.false_ne_true,firstOne_iff h.2.2.1 hpl hjl]
        exact ⟨fun hl => ⟨fun hne => absurd rfl hne,hl,firstOne_leaf _ _ _ _⟩,fun hl => hl.2.1⟩
    | left hp =>
      have hij : i ≠ j := fun he => (nodup_node hn).1 (he ▸ hmem hp)
      have hjr : j ∉ r'.keys := hd j (hmem hp)
      obtain ⟨hpl,hcut⟩ := SplitTree.treePanes_cut hnl hpn.1 hp hk
      have hpr : p ∉ treePanes r' := fun hr => hpn.2.2 p hpl p hr rfl
      rw [subst,if_neg hij] at h' ⊢
      have ih := ihl h.2.2.1 hnl hpn.1 hp h'.2.2.1
      rw [firstOne_node,firstOne_iff h.2.2.2 hpr hjr,← ih,← hcut,
        treePanes_length_one h'.2.2.1,RightLeaning,rightLeaning_subst_of_notMem _ hjr]
      constructor
      · rintro ⟨⟨a,b,he⟩,hr⟩
        exact ⟨fun _ => ⟨a,b,he⟩,by rw [he]; trivial,hr⟩
      · rintro ⟨hl,-,hr⟩
        exact ⟨hl hij,hr⟩
    | right hp =>
      have hij : i ≠ j := fun he => (nodup_node hn).2.1 (he ▸ hmem hp)
      have hjl : j ∉ l'.keys := fun hj => hd j hj (hmem hp)
      have hpr := (SplitTree.treePanes_cut hnr hpn.2.1 hp hk).1
      have hpl : p ∉ treePanes l' := fun hl => hpn.2.2 p hl p hpr rfl
      rw [subst,if_neg hij] at h' ⊢
      rw [firstOne_node,← ihr h.2.2.2 hnr hpn.2.1 hp h'.2.2.2,firstOne_iff h.2.2.1 hpl hjl,
        List.erase_of_not_mem hpl,treePanes_length_one h.2.2.1,RightLeaning,
        isLeaf_subst_of_notMem _ hjl]
      constructor
      · rintro ⟨⟨a,b,rfl⟩,hr⟩
        exact ⟨fun _ => ⟨a,b,rfl⟩,trivial,hr⟩
      · rintro ⟨hl,-,hr⟩
        exact ⟨hl hij,hr⟩

/-- A pair in the place of a leaf keeps a chain only at its end. -/
theorem rightLeaning_graft_iff {get : NodeId → Option (Node F)} (h : Rep get t)
    (hn : t.keys.Nodup) (hpn : (treePanes t).Nodup) {j : NodeId} {q : PaneId}
    (hq : Sub (leaf j (.leaf q)) t) (before : Bool) (o : Orientation) (ratio : F) (σ ℓ : NodeId)
    (p : PaneId) : RightLeaning (t.subst j
      (Shape.pairTree before o ratio σ ℓ p (leaf j (.leaf q)))) ↔
      RightLeaning t ∧ (treePanes t).getLast? = some q := by
  have hmem : ∀ {u : NodeTree F}, Sub (leaf j (.leaf q)) u → j ∈ u.keys := fun hs =>
    hs.keys_subset (key_mem_keys _)
  induction t with
  | leaf i w =>
    cases hq
    rw [subst_of_key _ (key_leaf j _)]
    refine iff_of_true ?_ ⟨trivial,rfl⟩
    cases before
    · exact ⟨⟨_,_,rfl⟩,trivial⟩
    · exact ⟨⟨_,_,rfl⟩,trivial⟩
  | node i w l r ihl ihr =>
    obtain ⟨hil,hir,hnl,hnr,hd⟩ := nodup_node hn
    rw [treePanes_node,List.nodup_append] at hpn
    have hlast : (treePanes l ++ treePanes r).getLast? = (treePanes r).getLast? :=
      List.getLast?_append_of_ne_nil _ (treePanes_ne_nil h.2.2.2)
    rw [treePanes_node,hlast]
    cases hq with
    | left hq =>
      have hij : i ≠ j := fun he => hil (he ▸ hmem hq)
      rw [subst,if_neg hij]
      refine iff_of_false ?_ ?_
      · rintro ⟨⟨a,b,he⟩,-⟩
        have hsub := sub_subst hq hnl (Shape.pairTree before o ratio σ ℓ p (leaf j (.leaf q)))
        rw [key_leaf,he] at hsub
        cases before <;> cases hsub
      · rintro ⟨-,hr⟩
        have hqr := List.mem_of_getLast? hr
        exact hpn.2.2 q (panes_subset_of_sub hq (by simp)) q hqr rfl
    | right hq =>
      have hij : i ≠ j := fun he => hir (he ▸ hmem hq)
      have hjl : j ∉ l.keys := fun hj => hd j hj (hmem hq)
      have ih := ihr h.2.2.2 hnr hpn.2.1 hq
      rw [subst,if_neg hij,RightLeaning,isLeaf_subst_of_notMem _ hjl]
      exact (and_congr_right' ih).trans and_assoc.symm

theorem Shape.chain_iff (h : Shape s t) (hpn : (treePanes t).Nodup) {p : PaneId} {j k : NodeId}
    {v : Node F} {l r : NodeTree F} {side : Bool} (hp : Sub (node j v l r) t)
    (hk : (if side then l else r) = leaf k (.leaf p)) :
    (∀ i o ratio a b, s.nodes.lookup i = some (.split o ratio a b) → ¬ s.ParentOf p i →
      ((s.nodes.collectPanes s.fuel a).erase p).length = 1) ↔ FirstOne p j t := by
  have hcollect : ∀ {u : NodeTree F}, Sub u t → s.nodes.collectPanes s.fuel u.key = treePanes u :=
    fun hu => Arena.collectPanes_eq (h.rep.sub hu) (hu.height_le.trans h.height_le_fuel)
  have hleaf : Sub (leaf k (.leaf p)) (node j v l r) := by
    cases side
    · exact hk ▸ .right (.refl r)
    · exact hk ▸ .left (.refl l)
  constructor
  · intro hchain i w a b hs hij
    obtain ⟨o,ratio,rfl,hi⟩ := rep_node_cases (h.rep.sub hs)
    rw [← hcollect ((Sub.left (.refl a)).trans hs)]
    refine hchain i o ratio a.key b.key hi ?_
    -- the leaf has one parent slot, and that is a slot of `j`
    rintro ⟨o',ratio',a',b',hi',hor⟩
    obtain ⟨-,-,rfl,rfl⟩ := Node.split.inj (Option.some.inj (hi.symm.trans hi'))
    have hslot : ∃ side', childAt s.nodes.get (i,side') = some k := by
      have hone : ∀ {u : NodeTree F}, Sub u t → s.nodes.lookup u.key = some (.leaf p) →
          u.key = k := by
        intro u hu hl
        have he := (Arena.holds_iff (h.rep.sub hu) p).mp (by rw [hl]; simp [Node.holds])
        exact leaf_unique hpn (he ▸ hu) (hleaf.trans hp)
      rcases hor with hl | hr
      · exact ⟨true,by rw [childAt_node (h.rep.sub hs),if_pos rfl,
          hone ((Sub.left (.refl a)).trans hs) hl]⟩
      · exact ⟨false,by rw [childAt_node (h.rep.sub hs),if_neg Bool.false_ne_true,
          hone ((Sub.right (.refl b)).trans hs) hr]⟩
    obtain ⟨side',hi₁⟩ := hslot
    have hside : (if side then l.key else r.key) = k := by
      rw [← apply_ite (fun x : NodeTree F => x.key),hk,key_leaf]
    have hj₁ := childAt_node (h.rep.sub hp) side
    rw [hside] at hj₁
    have huniq := h.rep.parent_unique h.nodup ((hleaf.trans hp).keys_subset (key_mem_keys _))
      (hside ▸ h.key_ne_of_sub hp side)
    have heq := huniq.unique ⟨hs.keys_subset (key_mem_keys _),hi₁⟩
      ⟨hp.keys_subset (key_mem_keys _),hj₁⟩
    exact hij (congrArg Prod.fst heq)
  · intro hone i o ratio a b hi hnot
    obtain ⟨u,hu,rfl⟩ :=
      exists_sub_of_mem_keys ((h.mem i).mp (HashMap.mem_iff_lookup.mpr ⟨_,hi⟩))
    have hrep := h.rep.sub hu
    have hcell : some u.cell = some (.split o ratio a b) := hrep.get_key.symm.trans hi
    cases u with
    | leaf i w =>
      obtain ⟨x,rfl,-⟩ := rep_leaf_cases hrep
      cases hcell
    | node i w l' r' =>
      have hw : w = .split o ratio a b := Option.some.inj hcell
      subst hw
      obtain ⟨rfl,rfl⟩ := Prod.mk.inj (Option.some.inj hrep.2.1)
      rw [hcollect ((Sub.left (.refl l')).trans hu)]
      refine hone i _ l' r' hu ?_
      rintro rfl
      have hnode := hu.eq_of_key hp rfl h.nodup
      cases hnode
      refine hnot ⟨o,ratio,_,_,hi,?_⟩
      have hl := (h.rep.sub (hleaf.trans hp)).1
      cases side
      · exact .inr (by rw [show r = _ from hk]; exact hl)
      · exact .inl (by rw [show l = _ from hk]; exact hl)

end Tree

/-- After a successful move the panes have equal areas exactly under `EvensOut`. -/
theorem move_evens_iff {s : SplitTree ℚ} (h : RepInv s) (source target : PaneId) (before : Bool)
    (o : Orientation) (hok : (s.movePaneAdjacent source target before o).1 = true) :
    EqualAreas (s.movePaneAdjacent source target before o).2 ↔ s.EvensOut source target := by
  rcases h.wellFormed with hv | ⟨t,ht⟩
  · rw [hv.movePaneAdjacent] at hok
    cases hok
  have hs := ht.shape
  rcases SplitTree.movePaneAdjacent_regrafts hs ht.panes_nodup source target before o with
    he | ⟨-,-,s₁,s₂,t₁,j,hg⟩
  · rw [he] at hok
    cases hok
  have hrem := hg.removed
  rcases SplitTree.remove_cuts hs source with ⟨he,-⟩ | ⟨-,hv,-⟩ | ⟨i,v,l,r,k,side,hp,hk,-,h₁,-⟩
  · rw [he] at hrem
    cases hrem
  · rw [hrem] at hv
    have hroot := hg.shape.root
    rw [hv.root] at hroot
    cases hroot
  rw [hrem] at h₁
  have ht₁ := hg.shape.unique h₁
  have hnodup₁ : (treePanes t₁).Nodup := hg.panes ▸ ht.panes_nodup.erase source
  rw [hg.moved,hg.grafted.equalAreas_iff,
    rightLeaning_graft_iff hg.shape.rep hg.shape.nodup hnodup₁ hg.target,hg.panes,ht₁,
    rightLeaning_cut_iff hs.rep hs.nodup ht.panes_nodup hp hk h₁.rep,
    ← hs.chain_iff ht.panes_nodup hp hk,← hs.panes_eq]
  exact ⟨fun ⟨hc,hl⟩ => ⟨hc,hl⟩,fun hev => ⟨hev.chain,hev.last⟩⟩

def besideColumn : SplitTree ℚ :=
  (((SplitTree.newWithPane 1 : SplitTree ℚ).split 1 2 .horizontal).2.split 1 3 .vertical).2

theorem repInv_besideColumn : RepInv besideColumn :=
  repInv_of_built (.split 1 3 _ (.split 1 2 _ (.newWithPane 1) (by decide)) (by decide))

/-- Moving pane 2 below pane 3 makes a chain. -/
theorem move_evens_chain :
    (besideColumn.movePaneAdjacent 2 3 false .vertical).1 = true ∧
    (EqualAreas (besideColumn.movePaneAdjacent 2 3 false .vertical).2 ↔
      besideColumn.EvensOut 2 3) :=
  ⟨by decide +kernel,move_evens_iff repInv_besideColumn 2 3 false .vertical (by decide +kernel)⟩

/-- Moving pane 1 above pane 3 leaves a column on the first side, and unequal areas. -/
theorem move_uneven :
    (besideColumn.movePaneAdjacent 1 3 true .vertical).1 = true ∧
    ¬ EqualAreas (besideColumn.movePaneAdjacent 1 3 true .vertical).2 := by
  refine ⟨by decide +kernel,fun he => ?_⟩
  have hne : ∃ b ∈ (besideColumn.movePaneAdjacent 1 3 true .vertical).2.paneBounds,
      b.2.w*b.2.h ≠ 1/((besideColumn.movePaneAdjacent 1 3 true .vertical).2.panes.length : ℚ) := by
    decide +kernel
  obtain ⟨b,hb,hne⟩ := hne
  exact hne (he b hb)

end Limux
