import Limux.SplitMerge

/-! The representation invariant of the split tree over every sequence of its
operations. `RepInv` speaks of the arena alone; `WellFormed` is the inductive
form, with the represented tree. -/
namespace Limux

open KeyTree

variable {F : Type}

/-- Arena invariant: the keys are the nodes reachable from the root, each non-root
node is the child of one split on one side, there is no cycle, ids are below the
counter, panes are distinct and the focus is one of them. -/
structure RepInv (s : SplitTree F) : Prop where
  reach : ∀ k, k ∈ s.nodes ↔
    ∃ r, s.root = some r ∧ Relation.ReflTransGen (Child s.nodes.get) r k
  parent : ∀ k ∈ s.nodes, s.root ≠ some k →
    ∃! p : NodeId × Bool, childAt s.nodes.get p = some k
  acyclic : ∀ k, ¬ Relation.TransGen (Child s.nodes.get) k k
  lt : ∀ k ∈ s.nodes, k < s.nextId
  panes_nodup : s.panes.Nodup
  /-- The pane walk has ended: more fuel changes nothing. -/
  walk : ∀ r, s.root = some r → ∀ n, s.fuel ≤ n → s.nodes.collectPanes n r = s.panes
  focus_none : s.focused = none ↔ s.root = none
  focus_mem : ∀ p, s.focused = some p → p ∈ s.panes

/-- A represented tree of distinct panes with its focus inside. -/
structure Live (s : SplitTree F) (t : NodeTree F) : Prop where
  shape : Shape s t
  panes_nodup : (treePanes t).Nodup
  focus : ∃ p ∈ treePanes t, s.focused = some p

theorem Shape.single {s s' : SplitTree F} (h : s.Vacant) (p : PaneId)
    (hn : s'.nodes = s.nodes.insert s.nextId (.leaf p)) (hr : s'.root = some s.nextId)
    (hi : s'.nextId = s.nextId+1) : Shape s' (leaf s.nextId (.leaf p)) := by
  refine ⟨⟨?_,rfl⟩,by simp [keys],fun k => ?_,by rw [hr]; rfl,fun k hk => ?_⟩
  · rw [hn]; simp [Arena.get]
  · rw [hn,AList.mem_insert,HashMap.mem_iff_lookup,h.lookup]
    simp [keys]
  · simp only [keys,List.mem_singleton] at hk
    rw [hi,hk]
    exact Nat.lt_succ_self _

def WellFormed (s : SplitTree F) : Prop := s.Vacant ∨ ∃ t, Live s t

namespace WellFormed

variable {s : SplitTree F}

theorem vacant_or_shape (h : WellFormed s) : s.Vacant ∨ ∃ t, Shape s t :=
  h.imp_right (fun ⟨t,ht⟩ => ⟨t,ht.shape⟩)

theorem panes_nodup (h : WellFormed s) : s.panes.Nodup := by
  rcases h with h | ⟨t,h⟩
  · rw [h.panes]; exact .nil
  · rw [h.shape.panes_eq]; exact h.panes_nodup

theorem repInv (h : WellFormed s) : RepInv s := by
  rcases h with h | ⟨t,h⟩
  · have hmem : ∀ k, k ∉ s.nodes := fun k hk => by
      obtain ⟨v,hv⟩ := HashMap.mem_iff_lookup.mp hk
      rw [h.lookup k] at hv
      cases hv
    refine ⟨fun k => ?_,fun k hk => absurd hk (hmem k),fun k hk => ?_,fun k hk =>
      absurd hk (hmem k),?_,?_,?_,?_⟩
    · simp [hmem k,h.root]
    · obtain ⟨j,⟨side,hc⟩,-⟩ := Relation.TransGen.head'_iff.mp hk
      simp [childAt,Arena.get,h.lookup] at hc
    · simp [h.panes]
    · simp [h.root]
    · simp [h.root,h.focused]
    · simp [h.focused]
  · obtain ⟨hs,hn,p,hp,hf⟩ := h
    have hmem : ∀ {i j : NodeId}, Child s.nodes.get i j → i ∈ t.keys := by
      rintro i j ⟨side,hc⟩
      by_contra hi
      simp [childAt,Arena.get,hs.lookup_eq_none hi] at hc
    refine ⟨fun k => ?_,fun k hk hr => ?_,fun k hk => ?_,fun k hk => ?_,?_,?_,?_,?_⟩
    · rw [hs.mem,hs.root,← hs.rep.reach_iff]
      simp
    · rw [hs.mem] at hk
      rw [hs.root] at hr
      obtain ⟨q,⟨-,hq⟩,huniq⟩ := hs.rep.parent_unique hs.nodup hk (fun he => hr (by rw [he]))
      exact ⟨q,hq,fun q' hq' => huniq q' ⟨hmem ⟨q'.2,hq'⟩,hq'⟩⟩
    · obtain ⟨j,hc,-⟩ := Relation.TransGen.head'_iff.mp hk
      exact hs.rep.acyclic (hmem hc) hk
    · exact hs.lt k ((hs.mem k).mp hk)
    · rw [hs.panes_eq]; exact hn
    · intro r hr n hle
      obtain rfl := Option.some.inj (hr.symm.trans hs.root)
      rw [hs.panes_eq]
      exact Arena.collectPanes_eq hs.rep (hs.height_le_fuel.trans hle)
    · simp [hf,hs.root]
    · rw [hs.panes_eq,hf]
      rintro q hq
      exact Option.some.inj hq ▸ hp

theorem new : WellFormed (SplitTree.new : SplitTree F) := .inl ⟨fun _ => rfl,rfl,rfl⟩

theorem single {s' : SplitTree F} (h : s.Vacant) (p : PaneId)
    (hn : s'.nodes = s.nodes.insert s.nextId (.leaf p)) (hr : s'.root = some s.nextId)
    (hi : s'.nextId = s.nextId+1) (hf : s'.focused = some p) : WellFormed s' :=
  .inr ⟨_,.single h p hn hr hi,by simp,p,by simp,hf⟩

theorem newWithPane (p : PaneId) : WellFormed (SplitTree.newWithPane p : SplitTree F) :=
  single ⟨fun _ => rfl,rfl,rfl⟩ p rfl rfl rfl rfl

theorem of_focus (h : WellFormed s) {p : PaneId} (hp : p ∈ s.panes) :
    WellFormed { s with focused := some p } := by
  rcases h with h | ⟨t,h⟩
  · rw [h.panes] at hp; cases hp
  · rw [h.shape.panes_eq] at hp
    exact .inr ⟨t,⟨h.shape.rep,h.shape.nodup,h.shape.mem,h.shape.root,h.shape.lt⟩,
      h.panes_nodup,p,hp,rfl⟩

theorem of_sameShape (h : WellFormed s) {s' : SplitTree F}
    (hn : Arena.SameShape s.nodes s'.nodes) (hr : s'.root = s.root) (hi : s'.nextId = s.nextId)
    (hf : s'.focused = s.focused) : WellFormed s' := by
  rcases h with h | ⟨t,h⟩
  · refine .inl ⟨fun k => ?_,hr.trans h.root,hf.trans h.focused⟩
    rcases hn k with h1 | ⟨o,r,r',a,b,h1,-⟩
    · rw [h1,h.lookup]
    · rw [h.lookup k] at h1; cases h1
  · obtain ⟨t',h',-,-,hp⟩ := h.shape.of_sameShape hn hr hi
    obtain ⟨p,hpt,hfp⟩ := h.focus
    exact .inr ⟨t',h',hp ▸ h.panes_nodup,p,hp ▸ hpt,hf.trans hfp⟩

theorem of_insert {t t' : NodeTree F} (h : Live s t) {s' : SplitTree F} {q : PaneId}
    (hq : q ∉ s.panes) (h' : Shape s' t') (hp : (treePanes t').Perm (q :: treePanes t))
    (hf : s'.focused = some q) : WellFormed s' := by
  rw [h.shape.panes_eq] at hq
  refine .inr ⟨t',h',hp.nodup_iff.mpr (List.nodup_cons.mpr ⟨hq,h.panes_nodup⟩),q,?_,hf⟩
  exact hp.mem_iff.mpr (by simp)

theorem remove (h : WellFormed s) (p : PaneId) : WellFormed (s.remove p).2 := by
  rcases h with h | ⟨t,h⟩
  · simpa [SplitTree.remove,h.root] using (show WellFormed s from .inl h)
  rcases SplitTree.remove_spec h.shape h.panes_nodup p with
    ⟨he,-⟩ | ⟨-,hv,-⟩ | ⟨-,hp,t',h',hp',hf⟩
  · rw [he]; exact .inr ⟨t,h⟩
  · exact .inl hv
  · refine .inr ⟨t',h',hp' ▸ h.panes_nodup.erase p,?_⟩
    obtain ⟨q,hq,hfq⟩ := h.focus
    rw [hf,hfq]
    by_cases hqp : q = p
    · subst hqp
      obtain ⟨x,xs,hx⟩ := List.exists_cons_of_ne_nil (treePanes_ne_nil h'.rep)
      exact ⟨x,by simp [hx],by simp [hx]⟩
    · rw [if_neg (by simpa using hqp)]
      exact ⟨q,by rw [hp']; exact (List.mem_erase_of_ne hqp).mpr hq,rfl⟩

theorem merge (ord : IterOrder NodeId) {s' : SplitTree F} (h : WellFormed s)
    (h' : WellFormed s') (hd : ∀ p ∈ s.panes, p ∉ s'.panes) (o : Orientation) (ratio : F) :
    WellFormed (SplitTree.merge ord s s' o ratio) := by
  rcases SplitTree.merge_spec ord h.vacant_or_shape h'.vacant_or_shape o ratio with
    ⟨-,-,hv⟩ | ⟨t,hs,hp,hf,-⟩
  · exact .inl hv
  · refine .inr ⟨t,hs,?_,?_⟩
    · rw [hp,List.nodup_append]
      exact ⟨h.panes_nodup,h'.panes_nodup,fun x hx y hy hxy => hd x hx (hxy ▸ hy)⟩
    · obtain ⟨x,xs,hx⟩ := List.exists_cons_of_ne_nil (treePanes_ne_nil hs.rep)
      exact ⟨x,by simp [hx],by rw [hf,hx]; rfl⟩

theorem navigate (h : WellFormed s) (forward : Bool) : WellFormed (s.navigate forward).2 := by
  rcases SplitTree.navigate_spec s forward with he | ⟨p,hp,he⟩
  · rw [he]; exact h
  · rw [he]; exact h.of_focus hp

theorem setRatio (h : WellFormed s) (id : NodeId) (ratio : F) : WellFormed (s.setRatio id ratio) :=
  h.of_sameShape (Arena.sameShape_updateSplit _ _ _) rfl rfl rfl

variable [F64Ops F]

theorem equalize (h : WellFormed s) : WellFormed s.equalize :=
  h.of_sameShape (SplitTree.sameShape_equalize s) rfl rfl rfl

theorem equalizeChain (h : WellFormed s) : WellFormed s.equalizeChain := by
  obtain ⟨hn,hr,hi,hf⟩ := SplitTree.sameShape_equalizeChain s
  exact h.of_sameShape hn hr hi hf

theorem splitAt (h : WellFormed s) (before : Bool) (p : PaneId) {q : PaneId} (hq : q ∉ s.panes)
    (o : Orientation) : WellFormed (s.splitAt before p q o).2 := by
  rcases h with h | ⟨t,h⟩
  · simpa [SplitTree.splitAt,h.root] using (show WellFormed s from .inl h)
  rcases SplitTree.splitAt_spec h.shape before p q o with ⟨he,-⟩ | ⟨k,hk,-,hf,h'⟩
  · rw [he]; exact .inr ⟨t,h⟩
  · exact of_insert h hq h' (panes_graft h.shape.nodup hk before o SplitTree.half _ _ q) hf

theorem insertPaneAfterFocused (h : WellFormed s) {q : PaneId} (hq : q ∉ s.panes)
    (o : Orientation) : WellFormed (s.insertPaneAfterFocused q o).2 := by
  rcases h with h | ⟨t,h⟩
  · refine single h q ?_ ?_ ?_ ?_ <;>
      simp [SplitTree.insertPaneAfterFocused,h.root,SplitTree.allocId,SplitTree.insertNode]
  obtain ⟨-,hf,t',h',hp⟩ := SplitTree.insertPaneAfterFocused_spec h.shape h.panes_nodup q o
  exact of_insert h hq h' hp hf

theorem navigateDirectional (h : WellFormed s) (d : Direction) :
    WellFormed (s.navigateDirectional d).2 := by
  rcases h with h | ⟨t,h⟩
  · simpa [SplitTree.navigateDirectional,h.focused] using (show WellFormed s from .inl h)
  rcases SplitTree.navigateDirectional_spec h.shape d with he | ⟨p,hp,he⟩
  · rw [he]; exact .inr ⟨t,h⟩
  · rw [he]
    exact of_focus (.inr ⟨t,h⟩) (h.shape.panes_eq ▸ hp)

theorem movePaneAdjacent (h : WellFormed s) (p q : PaneId) (before : Bool) (o : Orientation) :
    WellFormed (s.movePaneAdjacent p q before o).2 := by
  rcases h with h | ⟨t,h⟩
  · rw [h.movePaneAdjacent]; exact .inl h
  rcases SplitTree.movePaneAdjacent_spec h.shape h.panes_nodup p q before o with
    he | ⟨-,hp,-,hf,t',h',hperm⟩
  · rw [he]; exact .inr ⟨t,h⟩
  · exact .inr ⟨t',h',hperm.nodup_iff.mpr h.panes_nodup,p,hperm.mem_iff.mpr hp,hf⟩

end WellFormed

/-- Trees a finite sequence of operations can produce. Failing calls are
included; new panes are new, and the focus is only set to a pane of the tree. -/
inductive Built [F64Ops F] : SplitTree F → Prop
  | new : Built .new
  | newWithPane (p : PaneId) : Built (.newWithPane p)
  | merge (ord : IterOrder NodeId) {s s' : SplitTree F} (o : Orientation) (ratio : F) :
      Built s → Built s' → (∀ p ∈ s.panes, p ∉ s'.panes) → Built (.merge ord s s' o ratio)
  | insertPaneAfterFocused {s : SplitTree F} (q : PaneId) (o : Orientation) :
      Built s → q ∉ s.panes → Built (s.insertPaneAfterFocused q o).2
  | split {s : SplitTree F} (p q : PaneId) (o : Orientation) :
      Built s → q ∉ s.panes → Built (s.split p q o).2
  | splitBefore {s : SplitTree F} (p q : PaneId) (o : Orientation) :
      Built s → q ∉ s.panes → Built (s.splitBefore p q o).2
  | remove {s : SplitTree F} (p : PaneId) : Built s → Built (s.remove p).2
  | movePaneAdjacent {s : SplitTree F} (p q : PaneId) (before : Bool) (o : Orientation) :
      Built s → Built (s.movePaneAdjacent p q before o).2
  | navigate {s : SplitTree F} (forward : Bool) : Built s → Built (s.navigate forward).2
  | navigateDirectional {s : SplitTree F} (d : Direction) :
      Built s → Built (s.navigateDirectional d).2
  | setRatio {s : SplitTree F} (id : NodeId) (ratio : F) : Built s → Built (s.setRatio id ratio)
  | equalize {s : SplitTree F} : Built s → Built s.equalize
  | equalizeChain {s : SplitTree F} : Built s → Built s.equalizeChain
  | setFocused {s : SplitTree F} (p : PaneId) : Built s → p ∈ s.panes → Built (s.setFocused p)

theorem Built.wellFormed [F64Ops F] {s : SplitTree F} (h : Built s) : WellFormed s := by
  induction h with
  | new => exact .new
  | newWithPane p => exact .newWithPane p
  | merge ord o ratio _ _ hd ih ih' => exact ih.merge ord ih' hd o ratio
  | insertPaneAfterFocused q o _ hq ih => exact ih.insertPaneAfterFocused hq o
  | split p q o _ hq ih => exact ih.splitAt false p hq o
  | splitBefore p q o _ hq ih => exact ih.splitAt true p hq o
  | remove p _ ih => exact ih.remove p
  | movePaneAdjacent p q before o _ ih => exact ih.movePaneAdjacent p q before o
  | navigate forward _ ih => exact ih.navigate forward
  | navigateDirectional d _ ih => exact ih.navigateDirectional d
  | setRatio id ratio _ ih => exact ih.setRatio id ratio
  | equalize _ ih => exact ih.equalize
  | equalizeChain _ ih => exact ih.equalizeChain
  | setFocused p _ hp ih => exact ih.of_focus hp

/-- Every sequence of split tree operations keeps the representation invariant. -/
theorem repInv_of_built [F64Ops F] {s : SplitTree F} (h : Built s) : RepInv s := h.wellFormed.repInv

/-- A split, a merge and a removal in a row. -/
theorem repInv_merged_after_remove :
    RepInv (((SplitTree.merge (.listed ℕ) ((SplitTree.newWithPane 1 : SplitTree ℚ).split 1 2
      .horizontal).2 (.newWithPane 3) .vertical (1/2)).remove 1).2) :=
  repInv_of_built (.remove 1 (.merge _ _ _ (.split 1 2 _ (.newWithPane 1) (by decide))
    (.newWithPane 3) (by decide)))

end Limux
