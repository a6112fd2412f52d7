import Limux.SplitEven

/-! Trees grown by `insert_pane_after_focused`: they stay right-leaning chains,
and each insertion leaves all panes with the same area. -/
namespace Limux

open KeyTree

section Spine

variable {K V : Type}

/-- `Spine u t`: the subtree `u` is reached from `t` by second children. -/
inductive Spine : KeyTree K V → KeyTree K V → Prop
  | refl (t) : Spine t t
  | second {u : KeyTree K V} {k v l r} : Spine u r → Spine u (.node k v l r)

theorem Spine.sub {u t : KeyTree K V} (h : Spine u t) : Sub u t := by
  induction h with
  | refl => exact .refl _
  | second _ ih => exact .right ih

theorem Spine.right {k : K} {v : V} {l r t : KeyTree K V} (h : Spine (.node k v l r) t) :
    Spine r t := by
  induction t with
  | leaf j w => cases h
  | node j w l' r' _ ih =>
    cases h with
    | refl => exact .second (.refl r)
    | second h => exact .second (ih h)

/-- In a chain every split is on the spine. -/
theorem RightLeaning.spine {t : KeyTree K V} (h : RightLeaning t) {k : K} {v : V}
    {l r : KeyTree K V} (hp : Sub (.node k v l r) t) : Spine (.node k v l r) t := by
  induction t with
  | leaf j w => cases hp
  | node j w l' r' _ ihr =>
    obtain ⟨⟨i,x,rfl⟩,hr⟩ := h
    cases hp with
    | refl => exact .refl _
    | left hp => cases hp
    | right hp => exact .second (ihr hr hp)

/-- Putting a chain on the spine of a chain. -/
theorem RightLeaning.subst [DecidableEq K] [Cell K V] {t u g : KeyTree K V} (h : RightLeaning t)
    (hn : t.keys.Nodup) (hu : Spine u t) (hg : RightLeaning g) :
    RightLeaning (t.subst u.key g) := by
  induction hu with
  | refl => rw [subst_of_key g rfl]; exact hg
  | @second k v l r hu ih =>
    obtain ⟨⟨i,x,rfl⟩,hr⟩ := h
    obtain ⟨-,hkr,-,hnr,hd⟩ := nodup_node hn
    have hmem : u.key ∈ r.keys := hu.sub.keys_subset (key_mem_keys u)
    have hk : k ≠ u.key := fun he => hkr (he ▸ hmem)
    have hi : i ≠ u.key := fun he => hd i (by simp [keys]) (he ▸ hmem)
    rw [KeyTree.subst,if_neg hk,KeyTree.subst,if_neg hi]
    exact ⟨⟨i,x,rfl⟩,ih hr hnr⟩

end Spine

section Tree

variable {F : Type} [F64Ops F] {s : SplitTree F} {t t' : NodeTree F}

theorem RightLeaning.evenTree (h : RightLeaning t) (n : ℕ) : RightLeaning (evenTree n t) := by
  induction t generalizing n with
  | leaf k v => rcases n with _ | _ | n <;> trivial
  | node k v l r _ ihr =>
    rcases n with _ | _ | n
    · exact h
    · exact h
    · cases v with
      | leaf p => exact h
      | split o ratio a b => exact ⟨h.1,ihr h.2 (n+1)⟩

theorem Inserted.rightLeaning {p q : PaneId} {o : Orientation}
    (h : SplitTree.Inserted s t p q o t') (hn : t.keys.Nodup) (ht : RightLeaning t) :
    RightLeaning t' := by
  cases h with
  | @root k he =>
    refine ht.subst hn (.refl t) ?_
    subst he
    exact ⟨⟨_,_,rfl⟩,trivial⟩
  | first hp =>
    exact ht.subst hn (ht.spine hp).right ⟨⟨_,_,rfl⟩,ht.sub ((Sub.right (.refl _)).trans hp)⟩
  | second hp => exact ht.subst hn (ht.spine hp).right ⟨⟨_,_,rfl⟩,trivial⟩

/-- The new pane comes right after the pane it was inserted at. -/
theorem Inserted.inorder {p q : PaneId} {o : Orientation}
    (h : SplitTree.Inserted s t p q o t') (hn : t.keys.Nodup) :
    ∃ xs ys, treePanes t = xs ++ p :: ys ∧ treePanes t' = xs ++ p :: q :: ys := by
  cases h with
  | @root k he =>
    refine ⟨[],[],by rw [he]; rfl,?_⟩
    rw [subst_of_key _ rfl,Shape.treePanes_pairTree,he]
    rfl
  | @first j k v r hp =>
    obtain ⟨a,b,h1,h2⟩ := (subst_within (Shape.pairTree true o SplitTree.half (s.nextId+1)
      s.nextId q r) hp (k := r.key) (by simp [keys]) hn).2
    obtain ⟨-,hjr,-,-,hd⟩ := nodup_node (hp.nodup hn)
    have hj : j ≠ r.key := fun he => hjr (he ▸ key_mem_keys r)
    have hk : k ≠ r.key := fun he => hd k (by simp [keys]) (he ▸ key_mem_keys r)
    rw [KeyTree.subst,if_neg hj,KeyTree.subst,if_neg hk,subst_of_key _ rfl] at h2
    refine ⟨a.filterMap Node.pane?,treePanes r ++ b.filterMap Node.pane?,?_,?_⟩
    · rw [treePanes,h1]
      simp [fringe,treePanes,Node.pane?]
    · rw [treePanes,h2]
      simp [fringe,treePanes,Node.pane?,Shape.pairTree]
  | @second j k v l hp =>
    obtain ⟨a,b,h1,h2⟩ := Shape.treePanes_subst hn ((Sub.right (.refl _)).trans hp)
      (Shape.pairTree false o SplitTree.half (s.nextId+1) s.nextId q (leaf k (.leaf p)))
    refine ⟨a,b,by simpa using h1,?_⟩
    rw [key_leaf,Shape.treePanes_pairTree] at h2
    simpa using h2

end Tree

theorem SplitTree.Vacant.shape_insert {F : Type} [F64Ops F] {s : SplitTree F} (h : s.Vacant)
    (q : PaneId) (o : Orientation) :
    Shape (s.insertPaneAfterFocused q o).2 (leaf s.nextId (.leaf q)) := by
  have he : (s.insertPaneAfterFocused q o).2 =
      ⟨s.nodes.insert s.nextId (.leaf q),some s.nextId,s.nextId+1,some q⟩ := by
    simp [SplitTree.insertPaneAfterFocused,h.root,SplitTree.allocId,SplitTree.insertNode]
  rw [he]
  exact .single h q rfl rfl rfl

theorem Shape.equalAreas_leaf {s : SplitTree ℚ} {k : NodeId} {v : Node ℚ}
    (h : Shape s (leaf k v)) : EqualAreas s := by
  obtain ⟨p,rfl,-⟩ := rep_leaf_cases h.rep
  have he : s.equalizeChain = s := by simp [SplitTree.equalizeChain,h.panes_eq]
  rw [← he]
  exact h.equalAreas_iff.mpr trivial

/-- Trees that chain operations build: the focus is moved over the panes of the
tree, and the panes put in are new. -/
inductive Chained : SplitTree ℚ → Prop
  | newWithPane (p : PaneId) : Chained (.newWithPane p)
  | insertPaneAfterFocused {s : SplitTree ℚ} (q : PaneId) (o : Orientation) :
      Chained s → q ∉ s.panes → Chained (s.insertPaneAfterFocused q o).2
  | remove {s : SplitTree ℚ} (p : PaneId) : Chained s → Chained (s.remove p).2
  | navigate {s : SplitTree ℚ} (forward : Bool) : Chained s → Chained (s.navigate forward).2
  | setFocused {s : SplitTree ℚ} (p : PaneId) :
      Chained s → p ∈ s.panes → Chained (s.setFocused p)

namespace Chained

variable {s : SplitTree ℚ}

theorem built (h : Chained s) : Built s := by
  induction h with
  | newWithPane p => exact .newWithPane p
  | insertPaneAfterFocused q o _ hq ih => exact .insertPaneAfterFocused q o ih hq
  | remove p _ ih => exact .remove p ih
  | navigate forward _ ih => exact .navigate forward ih
  | setFocused p _ hp ih => exact .setFocused p ih hp

theorem rightLeaning_congr {s' : SplitTree ℚ} (h : ∀ t, Shape s t → RightLeaning t)
    (hn : s'.nodes = s.nodes) (hr : s'.root = s.root) (hi : s'.nextId = s.nextId) :
    ∀ t, Shape s' t → RightLeaning t := by
  intro t ht
  exact h t ⟨hn ▸ ht.rep,ht.nodup,hn ▸ ht.mem,hr ▸ ht.root,hi ▸ ht.lt⟩

theorem rightLeaning (h : Chained s) : ∀ t, Shape s t → RightLeaning t := by
  induction h with
  | newWithPane p =>
    intro t ht
    obtain rfl := ht.unique (.single ⟨fun _ => rfl,rfl,rfl⟩ p rfl rfl rfl :
      Shape (SplitTree.newWithPane p : SplitTree ℚ) _)
    trivial
  | @insertPaneAfterFocused s q o hs hq ih =>
    intro t ht
    rcases hs.built.wellFormed with hv | ⟨t₀,h₀⟩
    · obtain rfl := ht.unique (hv.shape_insert q o)
      trivial
    · obtain ⟨p,s₁,t₁,he,-,h₁,hins,-⟩ :=
        SplitTree.insertPaneAfterFocused_inserts h₀.shape h₀.panes_nodup q o
      rw [he] at ht
      obtain rfl := ht.unique h₁.equalizeChain
      exact (Inserted.rightLeaning hins h₀.shape.nodup (ih _ h₀.shape)).evenTree _
  | @remove s p hs ih =>
    intro t ht
    rcases hs.built.wellFormed with hv | ⟨t₀,h₀⟩
    · have he : (s.remove p).2 = s := by simp [SplitTree.remove,hv.root]
      exact ih t (he ▸ ht)
    have hs₀ := h₀.shape
    rcases SplitTree.remove_cuts hs₀ p with ⟨he,-⟩ | ⟨-,hv,-⟩ | ⟨j,v,l,r,k,side,hp,-,-,h₁,-⟩
    · rw [he] at ht
      exact ih t ht
    · have hr := ht.root
      rw [hv.root] at hr
      cases hr
    · obtain rfl := ht.unique h₁
      have ht₀ := ih _ hs₀
      refine ht₀.subst hs₀.nodup (ht₀.spine hp) ?_
      cases side
      · exact ht₀.sub ((Sub.left (.refl l)).trans hp)
      · exact ht₀.sub ((Sub.right (.refl r)).trans hp)
  | @navigate s forward _ ih =>
    rcases SplitTree.navigate_spec s forward with he | ⟨p,-,he⟩
    · rw [he]; exact ih
    · rw [he]; exact rightLeaning_congr ih rfl rfl rfl
  | setFocused p _ _ ih => exact rightLeaning_congr ih rfl rfl rfl

end Chained

/-- A tree built by chain operations is a chain; the next insertion puts the new
pane right after the focused one, and gives every pane a rectangle of the same area. -/
theorem chain_insertion {s : SplitTree ℚ} (h : Chained s) :
    (∀ k o ratio a b, s.nodes.lookup k = some (.split o ratio a b) →
      ∃ p, s.nodes.lookup a = some (.leaf p)) ∧
    ∀ q o, q ∉ s.panes →
      ((s.panes = [] ∧ (s.insertPaneAfterFocused q o).2.panes = [q]) ∨
        ∃ f xs ys, s.focused = some f ∧ s.panes = xs ++ f :: ys ∧
          (s.insertPaneAfterFocused q o).2.panes = xs ++ f :: q :: ys) ∧
      (s.insertPaneAfterFocused q o).2.paneBounds.map Prod.fst =
        (s.insertPaneAfterFocused q o).2.panes ∧
      EqualAreas (s.insertPaneAfterFocused q o).2 := by
  rcases h.built.wellFormed with hv | ⟨t,ht⟩
  · refine ⟨fun k o ratio a b hk => ?_,fun q o _ => ?_⟩
    · rw [hv.lookup] at hk
      cases hk
    have hsingle := hv.shape_insert q o
    exact ⟨.inl ⟨hv.panes,hsingle.panes_eq⟩,
      hsingle.map_fst_paneBounds.trans hsingle.panes_eq.symm,hsingle.equalAreas_leaf⟩
  · have hs := ht.shape
    have hleaning := h.rightLeaning t hs
    refine ⟨fun k o ratio a b hk => ?_,fun q o hq => ?_⟩
    · have hmem : k ∈ t.keys := (hs.mem k).mp (HashMap.mem_iff_lookup.mpr ⟨_,hk⟩)
      obtain ⟨u,hu,rfl⟩ := exists_sub_of_mem_keys hmem
      have hrep := hs.rep.sub hu
      have hcell : some u.cell = some (.split o ratio a b) := hrep.get_key.symm.trans hk
      cases u with
      | leaf i v =>
        obtain ⟨p,rfl,-⟩ := rep_leaf_cases hrep
        cases hcell
      | node i v l r =>
        obtain ⟨⟨i',w,rfl⟩,-⟩ := hleaning.sub hu
        have hv : v = .split o ratio a b := Option.some.inj hcell
        subst hv
        obtain ⟨rfl,-⟩ := Prod.mk.inj (Option.some.inj hrep.2.1)
        obtain ⟨p,-,hp⟩ := rep_leaf_cases hrep.2.2.1
        exact ⟨p,hp⟩
    · obtain ⟨f,hf,hfoc⟩ := ht.focus
      obtain ⟨p,s₁,t₁,he,-,h₁,hins,hpf⟩ :=
        SplitTree.insertPaneAfterFocused_inserts hs ht.panes_nodup q o
      obtain ⟨xs,ys,hl,hl'⟩ := Inserted.inorder hins hs.nodup
      obtain rfl := hpf f hf hfoc
      rw [he]
      obtain ⟨t',h',hp'⟩ := SplitTree.shape_equalizeChain h₁
      refine ⟨.inr ⟨p,xs,ys,hfoc,by rw [hs.panes_eq,hl],by rw [h'.panes_eq,hp',hl']⟩,
        h'.map_fst_paneBounds.trans h'.panes_eq.symm,?_⟩
      exact h₁.equalAreas_iff.mpr (Inserted.rightLeaning hins hs.nodup hleaning)

def thirdBetween : SplitTree ℚ :=
  ((((SplitTree.newWithPane 1 : SplitTree ℚ).insertPaneAfterFocused 2 .horizontal).2.navigate
    true).2.insertPaneAfterFocused 3 .vertical).2

theorem chain_insertion_third : thirdBetween.panes = [1,3,2] ∧
    thirdBetween.paneBounds.map Prod.fst = thirdBetween.panes ∧ EqualAreas thirdBetween :=
  ⟨by decide +kernel,((chain_insertion (.navigate true (.insertPaneAfterFocused 2 .horizontal
    (.newWithPane 1) (by decide)))).2 3 .vertical (by decide +kernel)).2⟩

end Limux
