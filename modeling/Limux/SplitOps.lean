import Limux.SplitInv

/-! One specification per operation of the split tree: how it changes the
represented node tree, hence the panes and the focus. -/
namespace Limux

open KeyTree

variable {F : Type}

namespace Shape

variable {s s' : SplitTree F} {t u : NodeTree F}

/-- Nobody points to the root, so redirecting it changes no node. -/
theorem map_redirect_root (h : Shape s t) (new k : NodeId) :
    (s.nodes.lookup k).map (Cell.mapKids (redirect t.key new)) = s.nodes.lookup k := by
  by_cases hk : k ∈ t.keys
  · exact h.rep.mapKids_redirect_of_notMem (.inr ⟨rfl,h.nodup⟩) new hk
  · rw [h.lookup_eq_none hk,Option.map_none]

theorem map_redirect_child (h : Shape s t) {j : NodeId} {o : Orientation} {ratio : F}
    {l r : NodeTree F} (hp : Sub (node j (.split o ratio l.key r.key) l r) t) (side : Bool)
    (new k : NodeId) :
    (s.nodes.lookup k).map (Cell.mapKids (redirect (if side then l.key else r.key) new)) =
      if k = j then some (if side then .split o ratio new r.key else .split o ratio l.key new)
      else s.nodes.lookup k := by
  have hne := hp.kids_ne h.nodup
  by_cases hkj : k = j
  · subst hkj
    have hk : s.nodes.lookup k = some (.split o ratio l.key r.key) := (h.rep.sub hp).1
    cases side
    · simp [hk,redirect_of_ne hne]
    · simp [hk,redirect_of_ne (Ne.symm hne)]
  · rw [if_neg hkj]
    by_cases hk : k ∈ t.keys
    · exact h.rep.mapKids_redirect h.nodup hp new hk hkj
    · rw [h.lookup_eq_none hk,Option.map_none]

theorem key_ne_of_sub (h : Shape s t) {j : NodeId} {v : Node F} {l r : NodeTree F}
    (hp : Sub (node j v l r) t) (side : Bool) : (if side then l.key else r.key) ≠ t.key := by
  intro he
  have hs : ∀ w : NodeTree F, Sub w t → w.height < (node j v l r).height → w.key ≠ t.key := by
    intro w hw hlt hk
    have := hw.eq_of_key (.refl t) hk h.nodup
    subst this
    exact absurd hp.height_le (by omega)
  cases side
  · exact hs r ((Sub.right (.refl r)).trans hp) (by simp only [height]; omega) he
  · exact hs l ((Sub.left (.refl l)).trans hp) (by simp only [height]; omega) he

theorem ne_next (h : Shape s t) {k : ℕ} (hk : k ∈ t.keys) : k ≠ s.nextId ∧ k ≠ s.nextId+1 := by
  have := h.lt k hk
  omega

end Shape

theorem leaf_unique {t : NodeTree F} (hn : (treePanes t).Nodup) {j k : NodeId} {p : PaneId}
    (hj : Sub (leaf j (.leaf p)) t) (hk : Sub (leaf k (.leaf p)) t) : j = k := by
  induction t with
  | leaf i v => cases hj; cases hk; rfl
  | node i v l r ihl ihr =>
    rw [treePanes_node,List.nodup_append] at hn
    have hmem : ∀ {i : NodeId} {u : NodeTree F}, Sub (leaf i (.leaf p)) u → p ∈ treePanes u :=
      fun hs => panes_subset_of_sub hs (by simp)
    cases hj with
    | left hj =>
      cases hk with
      | left hk => exact ihl hn.1 hj hk
      | right hk => exact absurd rfl (hn.2.2 p (hmem hj) p (hmem hk))
    | right hj =>
      cases hk with
      | left hk => exact absurd rfl (hn.2.2 p (hmem hk) p (hmem hj))
      | right hk => exact ihr hn.2.1 hj hk

theorem panes_graft {t u : NodeTree F} (h : t.keys.Nodup) (hu : Sub u t) (before : Bool)
    (o : Orientation) (ratio : F) (σ ℓ : NodeId) (q : PaneId) :
    (treePanes (t.subst u.key (Shape.pairTree before o ratio σ ℓ q u))).Perm
      (q :: treePanes t) := by
  obtain ⟨a,b,h1,h2⟩ := Shape.treePanes_subst h hu (Shape.pairTree before o ratio σ ℓ q u)
  rw [h1,h2,Shape.treePanes_pairTree]
  cases before
  · simp only [Bool.false_eq_true,if_false,List.append_assoc]
    have hmid : (treePanes u ++ q :: b).Perm (q :: (treePanes u ++ b)) := List.perm_middle
    exact (hmid.append_left a).trans List.perm_middle
  · simp only [if_true,List.append_assoc,List.cons_append]
    exact List.perm_middle

namespace SplitTree

variable {s : SplitTree F} {t : NodeTree F}

/-- The walks of a tree whose arena got a fresh node still see the old tree. -/
theorem fuel_insertNode (s : SplitTree F) (n : NodeId) (v : Node F) (m : ℕ) :
    s.fuel ≤ ({ s.insertNode n v with nextId := m } : SplitTree F).fuel := by
  simp only [fuel,insertNode,AList.keys_insert,List.length_cons]
  have := List.length_erase_add_one (l := s.nodes.keys) (a := n)
  have := List.le_length_erase (l := s.nodes.keys) (a := n)
  omega

theorem rep_insert_fresh (h : Shape s t) (v : Node F) :
    Rep (Arena.get (s.nodes.insert s.nextId v)) t :=
  h.rep.congr (fun k hk => by
    show AList.lookup k _ = _
    rw [HashMap.lookup_insert_ite,if_neg (h.ne_next hk).1])

theorem shape_newRoot (h : Shape s t) (before : Bool) (o : Orientation) (ratio : F) (q : PaneId)
    (s' : SplitTree F)
    (hn : s'.nodes = (s.nodes.insert s.nextId (.leaf q)).insert (s.nextId+1)
      (Shape.pairTree before o ratio (s.nextId+1) s.nextId q t).cell)
    (hr : s'.root = some (s.nextId+1)) (hi : s'.nextId = s.nextId+2) :
    Shape s' (t.subst t.key (Shape.pairTree before o ratio (s.nextId+1) s.nextId q t)) := by
  refine h.graft (.refl t) before o ratio q hi (by rw [hr,redirect_self]) (fun k => ?_)
  rw [hn,HashMap.lookup_insert_ite,HashMap.lookup_insert_ite,h.map_redirect_root]

theorem shape_child (h : Shape s t) {j : NodeId} {v : Node F} {l r : NodeTree F}
    (hp : Sub (node j v l r) t) (side : Bool) {u : NodeTree F}
    (hu : u = if side then l else r) (before : Bool) (o : Orientation) (ratio : F) (q : PaneId)
    (s' : SplitTree F)
    (hn : s'.nodes = Arena.updateSplit ((s.nodes.insert s.nextId (.leaf q)).insert (s.nextId+1)
      (Shape.pairTree before o ratio (s.nextId+1) s.nextId q u).cell) j
      (fun o r a b => if side then .split o r (s.nextId+1) b else .split o r a (s.nextId+1)))
    (hr : s'.root = s.root) (hi : s'.nextId = s.nextId+2) :
    Shape s' (t.subst u.key (Shape.pairTree before o ratio (s.nextId+1) s.nextId q u)) := by
  obtain ⟨o',ratio',rfl,hj⟩ := rep_node_cases (h.rep.sub hp)
  have hkey : u.key = if side then l.key else r.key := by subst hu; cases side <;> rfl
  have hsub : Sub u t := by
    subst hu
    cases side
    · exact (Sub.right (.refl r)).trans hp
    · exact (Sub.left (.refl l)).trans hp
  obtain ⟨hj1,hj2⟩ := h.ne_next (hp.keys_subset (key_mem_keys _))
  rw [key_node] at hj1 hj2
  refine h.graft hsub before o ratio q hi ?_ (fun k => ?_)
  · rw [hr,h.root,hkey,redirect_of_ne (Ne.symm (h.key_ne_of_sub hp side))]
  · rw [hn,Arena.lookup_updateSplit,hkey,h.map_redirect_child hp side,
      HashMap.lookup_insert_ite,HashMap.lookup_insert_ite,HashMap.lookup_insert_ite,
      HashMap.lookup_insert_ite,if_neg hj2,if_neg hj1,show s.nodes.lookup j = _ from hj]
    by_cases hkj : k = j
    · subst hkj
      simp only [if_true,if_neg hj1,if_neg hj2]
    · simp only [if_neg hkj]

variable [F64Ops F]

abbrev half : F := F64Ops.lit (1/2)

/-- A split replaces the leaf of the pane by a pair, or fails without effect. -/
theorem splitAt_spec (h : Shape s t) (before : Bool) (p q : PaneId) (o : Orientation) :
    (s.splitAt before p q o = (none,s) ∧ p ∉ treePanes t) ∨
    ∃ k, Sub (leaf k (.leaf p)) t ∧ (s.splitAt before p q o).1 = some (s.nextId+1) ∧
      (s.splitAt before p q o).2.focused = some q ∧
      Shape (s.splitAt before p q o).2 (t.subst k
        (Shape.pairTree before o half (s.nextId+1) s.nextId q (leaf k (.leaf p)))) := by
  rcases Arena.findParent_spec h.rep h.height_le_fuel p with
    ⟨j,v,l,r,k,side,hf,hp,hk⟩ | ⟨hf,hp⟩
  · obtain ⟨o',ratio',rfl,hj⟩ := rep_node_cases (h.rep.sub hp)
    have hj' : s.nodes.lookup j = _ := hj
    have hside : (if side = true then l.key else r.key) = k := by
      rw [← apply_ite (fun x : NodeTree F => x.key),hk,key_leaf]
    have hsub : Sub (leaf k (.leaf p)) t := by
      rw [← hk]
      cases side
      · exact (Sub.right (.refl r)).trans hp
      · exact (Sub.left (.refl l)).trans hp
    refine .inr ⟨k,hsub,?_,?_,?_⟩
    · simp [splitAt,h.root,hf,hj',allocId,insertNode]
    · simp [splitAt,h.root,hf,hj',allocId,insertNode]
    · refine shape_child h hp side hk.symm before o half q _ ?_ ?_ ?_
      · simp only [splitAt,h.root,hf,hj',allocId,insertNode,hside]
        cases before <;> rfl
      · simp [splitAt,h.root,hf,hj',allocId,insertNode]
      · simp [splitAt,h.root,hf,hj',allocId,insertNode]
  · rcases hp with hp | hp
    · refine .inl ⟨?_,hp⟩
      cases t with
      | leaf k v =>
        obtain ⟨p',rfl,hk⟩ := rep_leaf_cases h.rep
        have hne : p' ≠ p := fun he => hp (by simp [he])
        rw [key_leaf] at hf
        simp [splitAt,h.root,hf,show s.nodes.lookup k = _ from hk,hne]
      | node k v l r =>
        obtain ⟨o',ratio',rfl,hk⟩ := rep_node_cases h.rep
        rw [key_node] at hf
        simp [splitAt,h.root,hf,show s.nodes.lookup k = _ from hk]
    · have hroot : s.nodes.lookup t.key = some (.leaf p) := by
        rw [show s.nodes.lookup t.key = _ from h.rep.get_key,hp]; rfl
      refine .inr ⟨t.key,by rw [← hp]; exact .refl t,?_,?_,?_⟩
      · simp [splitAt,h.root,hf,hroot,allocId,insertNode]
      · simp [splitAt,h.root,hf,hroot,allocId,insertNode]
      · rw [← hp]
        refine shape_newRoot h before o half q _ ?_ ?_ ?_
        · simp only [splitAt,h.root,hf,hroot,allocId,insertNode]
          cases before <;> simp [Shape.pairTree,cell,half]
        · simp [splitAt,h.root,hf,hroot,allocId,insertNode]
        · simp [splitAt,h.root,hf,hroot,allocId,insertNode]

theorem sameShape_equalizeChain (s : SplitTree F) :
    Arena.SameShape s.nodes s.equalizeChain.nodes ∧ s.equalizeChain.root = s.root ∧
      s.equalizeChain.nextId = s.nextId ∧ s.equalizeChain.focused = s.focused := by
  simp only [equalizeChain]
  split
  · exact ⟨.refl _,rfl,rfl,rfl⟩
  · split
    · rename_i root hr
      exact ⟨Arena.sameShape_setChainRatios _ _ _,rfl,rfl,rfl⟩
    · exact ⟨.refl _,rfl,rfl,rfl⟩

theorem sameShape_equalize (s : SplitTree F) : Arena.SameShape s.nodes s.equalize.nodes := by
  suffices h : ∀ (ids : List NodeId) (nodes : Arena F), Arena.SameShape nodes
      (ids.foldl (fun nodes id => Arena.updateSplit nodes id
        (fun o _ a b => .split o half a b)) nodes) from h _ _
  intro ids
  induction ids with
  | nil => exact .refl
  | cons id ids ih => exact fun nodes => (Arena.sameShape_updateSplit nodes id half).trans (ih _)

/-- `t'` is `t` with a new leaf for `q` after the leaf of `p`: a pair with the rest
of the chain when that leaf is a first child, else a pair with the leaf itself. -/
inductive Inserted (s : SplitTree F) (t : NodeTree F) (p q : PaneId) (o : Orientation) :
    NodeTree F → Prop
  | root {k : NodeId} : t = leaf k (.leaf p) → Inserted s t p q o
      (t.subst t.key (Shape.pairTree false o half (s.nextId+1) s.nextId q t))
  | first {j k : NodeId} {v : Node F} {r : NodeTree F} : Sub (node j v (leaf k (.leaf p)) r) t →
      Inserted s t p q o (t.subst r.key (Shape.pairTree true o half (s.nextId+1) s.nextId q r))
  | second {j k : NodeId} {v : Node F} {l : NodeTree F} : Sub (node j v l (leaf k (.leaf p))) t →
      Inserted s t p q o (t.subst k
        (Shape.pairTree false o half (s.nextId+1) s.nextId q (leaf k (.leaf p))))

theorem Inserted.perm {t' : NodeTree F} {p q : PaneId} {o : Orientation}
    (h : Inserted s t p q o t') (hn : t.keys.Nodup) : (treePanes t').Perm (q :: treePanes t) := by
  cases h with
  | root => exact panes_graft hn (.refl t) false o half _ _ q
  | first hp => exact panes_graft hn ((Sub.right (.refl _)).trans hp) true o half _ _ q
  | second hp => exact panes_graft hn ((Sub.right (.refl _)).trans hp) false o half _ _ q

/-- A new leaf after a given leaf: one subtree is replaced by its pair with the leaf. -/
theorem insertAfterNode_inserts (h : Shape s t) (hn : (treePanes t).Nodup) {k : NodeId}
    {p : PaneId} (hk : Sub (leaf k (.leaf p)) t) (q : PaneId) (o : Orientation) :
    ∃ t', Shape (s.insertAfterNode k q o) t' ∧ Inserted s t p q o t' := by
  have hrep := rep_insert_fresh h (.leaf q)
  have hfuel := h.height_le_fuel.trans (fuel_insertNode s s.nextId (.leaf q) (s.nextId+1))
  simp only [insertNode,h.root] at hfuel
  have hkn : k ≠ s.nextId ∧ k ≠ s.nextId+1 := h.ne_next (hk.keys_subset (key_mem_keys _))
  have hlk : s.nodes.lookup k = some (.leaf p) := (h.rep.sub hk).1
  have hlk' : AList.lookup k (s.nodes.insert s.nextId (.leaf q)) = some (.leaf p) := by
    rw [HashMap.lookup_insert_ite,if_neg hkn.1,hlk]
  by_cases hroot : t.key = k
  · have ht : t = leaf k (.leaf p) := (Sub.refl t).eq_of_key hk hroot h.nodup
    have he : s.insertAfterNode k q o = ⟨(s.nodes.insert s.nextId (.leaf q)).insert
        (s.nextId+1) (.split o half k s.nextId),some (s.nextId+1),s.nextId+2,s.focused⟩ := by
      simp [insertAfterNode,allocId,insertNode,h.root,hroot,half]
    refine ⟨_,shape_newRoot h false o half q _ ?_ (by rw [he]) (by rw [he]),.root ht⟩
    rw [he]
    simp [Shape.pairTree,cell,hroot]
  · rcases Arena.findParent_spec hrep hfuel p with ⟨j,v,l,r,i,side,hf,hp,hi⟩ | ⟨hf,hp⟩
    · obtain ⟨o',ratio',rfl,hj⟩ := rep_node_cases (hrep.sub hp)
      have hj' : AList.lookup j (s.nodes.insert s.nextId (.leaf q)) = _ := hj
      have hi' : Sub (leaf i (.leaf p)) t := by
        rw [← hi]
        cases side
        · exact (Sub.right (.refl r)).trans hp
        · exact (Sub.left (.refl l)).trans hp
      obtain rfl := leaf_unique hn hi' hk
      cases side with
      | true =>
        obtain rfl : l = leaf i (.leaf p) := hi
        have he : s.insertAfterNode i q o = ⟨Arena.updateSplit
            ((s.nodes.insert s.nextId (.leaf q)).insert (s.nextId+1)
              (.split o half s.nextId r.key)) j (fun o r a _ => .split o r a (s.nextId+1)),
            s.root,s.nextId+2,s.focused⟩ := by
          simp [insertAfterNode,allocId,insertNode,h.root,hroot,hlk',hf,hj',half]
        refine ⟨_,shape_child h hp false rfl true o half q _ ?_ (by rw [he]) (by rw [he]),.first hp⟩
        rw [he]
        simp [Shape.pairTree,cell,half]
      | false =>
        obtain rfl : r = leaf i (.leaf p) := hi
        have he : s.insertAfterNode i q o = ⟨Arena.updateSplit
            ((s.nodes.insert s.nextId (.leaf q)).insert (s.nextId+1)
              (.split o half i s.nextId)) j (fun o r a _ => .split o r a (s.nextId+1)),
            s.root,s.nextId+2,s.focused⟩ := by
          simp [insertAfterNode,allocId,insertNode,h.root,hroot,hlk',hf,half]
        refine ⟨_,shape_child h hp false rfl false o half q _ ?_ (by rw [he]) (by rw [he]),
          .second hp⟩
        rw [he]
        simp [Shape.pairTree,cell]
    · rcases hp with hp | hp
      · exact absurd (panes_subset_of_sub hk (by simp)) hp
      · rw [hp] at hk
        cases hk
        exact absurd rfl hroot

theorem shape_equalizeChain (h : Shape s t) :
    ∃ t', Shape s.equalizeChain t' ∧ treePanes t' = treePanes t := by
  obtain ⟨hn,hr,hi,-⟩ := sameShape_equalizeChain s
  obtain ⟨t',h',-,-,hp⟩ := h.of_sameShape hn hr hi
  exact ⟨t',h',hp⟩

theorem insertPaneAfterFocused_inserts (h : Shape s t) (hn : (treePanes t).Nodup) (q : PaneId)
    (o : Orientation) : ∃ p s₁ t', s.insertPaneAfterFocused q o = (true,equalizeChain s₁) ∧
      s₁.focused = some q ∧ Shape s₁ t' ∧ Inserted s t p q o t' ∧
      ∀ f ∈ treePanes t, s.focused = some f → p = f := by
  cases t with
  | leaf k v =>
    obtain ⟨p,rfl,hk⟩ := rep_leaf_cases h.rep
    have hk' : s.nodes.lookup k = _ := hk
    refine ⟨p,⟨(s.nodes.insert s.nextId (.leaf q)).insert (s.nextId+1)
        (.split o half k s.nextId),some (s.nextId+1),s.nextId+2,some q⟩,_,?_,rfl,
      shape_newRoot h false o half q _ rfl rfl rfl,.root rfl,fun f hf _ => ?_⟩
    · simp [insertPaneAfterFocused,h.root,hk',allocId,insertNode,half]
    · exact (List.mem_singleton.mp hf).symm
  | node k v l r =>
    obtain ⟨o',ratio',rfl,hk⟩ := rep_node_cases h.rep
    have hk' : s.nodes.lookup k = _ := hk
    obtain ⟨target,p,hsub,he,hfoc⟩ : ∃ target p,
        Sub (leaf target (.leaf p)) (node k (.split o' ratio' l.key r.key) l r) ∧
        s.insertPaneAfterFocused q o =
          (true,equalizeChain { s.insertAfterNode target q o with focused := some q }) ∧
        ∀ f ∈ treePanes (node k (.split o' ratio' l.key r.key) l r), s.focused = some f →
          p = f := by
      simp only [insertPaneAfterFocused,h.root,key_node,hk']
      generalize hd : s.focused.getD _ = focused
      rcases h.nodeIdForPane_spec focused with ⟨i,hi,hs⟩ | ⟨hi,hnot⟩
      · refine ⟨i,focused,hs,by simp [hi],fun f _ hf => ?_⟩
        rw [hf] at hd
        exact hd.symm
      · obtain ⟨p,hp⟩ := Arena.findChainEnd_spec h.rep h.height_le_fuel
        refine ⟨_,p,hp,by simp [hi],fun f hf hfoc => ?_⟩
        rw [hfoc,Option.getD_some] at hd
        exact absurd hf (hd ▸ hnot)
    obtain ⟨t₁,h₁,hins⟩ := insertAfterNode_inserts h hn hsub q o
    exact ⟨p,_,t₁,he,rfl,⟨h₁.rep,h₁.nodup,h₁.mem,h₁.root,h₁.lt⟩,hins,hfoc⟩

theorem insertPaneAfterFocused_spec (h : Shape s t) (hn : (treePanes t).Nodup) (q : PaneId)
    (o : Orientation) :
    (s.insertPaneAfterFocused q o).1 = true ∧ (s.insertPaneAfterFocused q o).2.focused = some q ∧
      ∃ t', Shape (s.insertPaneAfterFocused q o).2 t' ∧ (treePanes t').Perm (q :: treePanes t) := by
  obtain ⟨p,s₁,t₁,he,hf,h₁,hins,-⟩ := insertPaneAfterFocused_inserts h hn q o
  obtain ⟨t',h',hp⟩ := shape_equalizeChain h₁
  rw [he]
  exact ⟨rfl,(sameShape_equalizeChain s₁).2.2.2.trans hf,t',h',hp ▸ hins.perm h.nodup⟩

/-- No node at all. -/
structure Vacant (s : SplitTree F) : Prop where
  lookup : ∀ k, s.nodes.lookup k = none
  root : s.root = none
  focused : s.focused = none

omit [F64Ops F] in
/-- The pointer surgery of `remove`, before the focus is adjusted. -/
theorem remove_surgery (h : Shape s t) {p : PaneId} {j k : NodeId} {v : Node F}
    {l r : NodeTree F} {side : Bool}
    (hroot : ¬ (s.nodes.lookup t.key).any (Node.holds p) = true)
    (hf : s.nodes.findParent p s.fuel t.key = some (j,side)) (hp : Sub (node j v l r) t)
    (hk : (if side then l else r) = leaf k (.leaf p)) :
    ∃ s₁ : SplitTree F, s.remove p = (true,if s₁.focused = some p then
        { s₁ with focused := s₁.panes.head? } else s₁) ∧ s₁.focused = s.focused ∧
      Shape s₁ (t.subst j (if side then r else l)) := by
  obtain ⟨o,ratio,rfl,hj⟩ := rep_node_cases (h.rep.sub hp)
  have hj' : s.nodes.lookup j = _ := hj
  have hside : (if side = true then l.key else r.key) = k := by
    rw [← apply_ite (fun x : NodeTree F => x.key),hk,key_leaf]
  have hsib : (if side = true then r.key else l.key) = (if side then r else l).key :=
    (apply_ite (fun x : NodeTree F => x.key) _ _ _).symm
  obtain ⟨hjl,hjr,-,-,-⟩ := nodup_node (hp.nodup h.nodup)
  have hjk : j ≠ k := by
    intro he
    cases side
    · exact hjr (he.trans hside.symm ▸ key_mem_keys r)
    · exact hjl (he.trans hside.symm ▸ key_mem_keys l)
  have hleaf : Sub (leaf k (.leaf p)) t := by
    rw [← hk]
    cases side
    · exact (Sub.right (.refl r)).trans hp
    · exact (Sub.left (.refl l)).trans hp
  by_cases hpar : t.key = j
  · subst hpar
    refine ⟨⟨(s.nodes.erase k).erase t.key,some (if side then r else l).key,s.nextId,s.focused⟩,
      ?_,rfl,h.cut hp hk rfl (by rw [redirect_self]) (fun i => ?_)⟩
    · simp only [remove,h.root]
      rw [if_neg hroot]
      simp [hf,hj',hside,hsib]
    · simp only [HashMap.lookup_erase_ite,h.map_redirect_root]
      by_cases h1 : i = t.key
      · simp [h1]
      · by_cases h2 : i = k <;> simp [h1,h2]
  · have hprune : Arena.Pruned s.nodes (s.nodes.erase k) t := by
      refine ⟨fun i w a b hi => ?_,fun i w _ => ?_⟩
      · rw [HashMap.lookup_erase_ite,if_neg]
        rintro rfl
        exact absurd (hi.eq_of_key hleaf rfl h.nodup) (by simp)
      · rw [HashMap.lookup_erase_ite]
        split
        · exact .inr rfl
        · exact .inl rfl
    have hfuel : t.height ≤ (⟨s.nodes.erase k,some t.key,s.nextId,s.focused⟩ :
        SplitTree F).fuel := by
      have h1 := height_le_length t
      have h2 := h.length_keys
      have h3 := List.le_length_erase (l := s.nodes.keys) (a := k)
      simp only [fuel,AList.keys_erase]
      omega
    obtain ⟨g,w,l',r',gside,hg,hgs,hgk⟩ := Arena.findParentOfNode_spec h.rep hprune hfuel
      (hp.keys_subset (key_mem_keys _)) (fun he => hpar he.symm)
    obtain ⟨o',ratio',rfl,hgj⟩ := rep_node_cases (h.rep.sub hgs)
    rw [key_node] at hgk hg
    refine ⟨⟨(Arena.updateSplit (s.nodes.erase k) g (fun o x a b => if gside then
      .split o x (if side then r else l).key b
      else .split o x a (if side then r else l).key)).erase j,
      s.root,s.nextId,s.focused⟩,?_,rfl,h.cut hp hk rfl ?_ (fun i => ?_)⟩
    · simp only [remove,h.root]
      rw [if_neg hroot]
      simp [hf,hj',hside,hsib,hpar,hg]
    · rw [h.root,redirect_of_ne hpar]
    · have hgk' : g ≠ k := by
        rintro rfl
        exact absurd (hgs.eq_of_key hleaf rfl h.nodup) (by simp)
      have hgj' : s.nodes.lookup g = _ := hgj
      have hmap := h.map_redirect_child hgs gside (if side then r else l).key i
      rw [hgk] at hmap
      rw [hmap]
      simp only [HashMap.lookup_erase_ite,Arena.lookup_updateSplit,if_neg hgk',hgj']
      by_cases h1 : i = j
      · simp [h1]
      by_cases h2 : i = k
      · subst h2
        simp [h1,Ne.symm hgk']
      by_cases h3 : i = g
      · subst h3
        cases gside <;> simp [h1,h2]
      · simp [h1,h2,h3]

omit [F64Ops F] in
/-- Removing a pane fails without effect, clears the tree, or lets the sibling of
the leaf take the place of its parent. -/
theorem remove_cuts (h : Shape s t) (p : PaneId) :
    (s.remove p = (false,s) ∧ p ∉ treePanes t) ∨
    ((s.remove p).1 = true ∧ (s.remove p).2.Vacant ∧ t = leaf t.key (.leaf p)) ∨
    ∃ (j : NodeId) (v : Node F) (l r : NodeTree F) (k : NodeId) (side : Bool),
      Sub (node j v l r) t ∧ (if side then l else r) = leaf k (.leaf p) ∧
      (s.remove p).1 = true ∧ Shape (s.remove p).2 (t.subst j (if side then r else l)) ∧
      (s.remove p).2.focused = if s.focused = some p then
        (treePanes (t.subst j (if side then r else l))).head? else s.focused := by
  by_cases hroot : (s.nodes.lookup t.key).any (Node.holds p) = true
  · have ht := (Arena.holds_iff h.rep p).mp hroot
    refine .inr (.inl ⟨?_,⟨fun k => ?_,?_,?_⟩,ht⟩)
    · simp [remove,h.root,hroot]
    · simp only [remove,h.root,hroot,if_true,HashMap.lookup_erase_ite]
      split
      · rfl
      · rename_i hk
        exact h.lookup_eq_none (by rw [ht]; simpa [keys] using hk)
    · simp [remove,h.root,hroot]
    · simp [remove,h.root,hroot]
  rcases Arena.findParent_spec h.rep h.height_le_fuel p with
    ⟨j,v,l,r,k,side,hf,hp,hk⟩ | ⟨hf,hp⟩
  · obtain ⟨s₁,he,hfoc,h₁⟩ := remove_surgery h hroot hf hp hk
    refine .inr (.inr ⟨j,v,l,r,k,side,hp,hk,by rw [he],?_,?_⟩)
    · rw [he]
      split
      · exact ⟨h₁.rep,h₁.nodup,h₁.mem,h₁.root,h₁.lt⟩
      · exact h₁
    · simp only [he,hfoc]
      split
      · rw [h₁.panes_eq]
      · exact hfoc
  · rcases hp with hp | hp
    · exact .inl ⟨by simp [remove,h.root,hroot,hf],hp⟩
    · exact absurd ((Arena.holds_iff h.rep p).mpr hp) hroot

omit [F64Ops F] in
theorem treePanes_cut (h : t.keys.Nodup) (hn : (treePanes t).Nodup) {p : PaneId} {j k : NodeId}
    {v : Node F} {l r : NodeTree F} {side : Bool} (hp : Sub (node j v l r) t)
    (hk : (if side then l else r) = leaf k (.leaf p)) :
    p ∈ treePanes t ∧ treePanes (t.subst j (if side then r else l)) = (treePanes t).erase p := by
  obtain ⟨a,b,h1,h2⟩ := Shape.treePanes_subst h hp (if side then r else l)
  rw [key_node] at h2
  cases side
  · rw [treePanes_node,show r = _ from hk,treePanes_leaf] at h1
    rw [h1] at hn ⊢
    refine ⟨by simp,?_⟩
    simp only [List.append_assoc,List.singleton_append] at hn ⊢
    rw [← List.append_assoc] at hn
    have hpa := (List.nodup_middle.mp hn).notMem
    simp only [List.mem_append,not_or] at hpa
    rw [List.erase_append_right _ hpa.1.1,List.erase_append_right _ hpa.1.2,
      List.erase_cons_head]
    simpa using h2
  · rw [treePanes_node,show l = _ from hk,treePanes_leaf] at h1
    rw [h1] at hn ⊢
    refine ⟨by simp,?_⟩
    simp only [List.append_assoc,List.cons_append] at hn ⊢
    have hpa := (List.nodup_middle.mp hn).notMem
    simp only [List.mem_append,not_or] at hpa
    rw [List.erase_append_right _ hpa.1,List.erase_cons_head]
    simpa using h2

omit [F64Ops F] in
theorem remove_spec (h : Shape s t) (hn : (treePanes t).Nodup) (p : PaneId) :
    (s.remove p = (false,s) ∧ p ∉ treePanes t) ∨
    ((s.remove p).1 = true ∧ (s.remove p).2.Vacant ∧ treePanes t = [p]) ∨
    ((s.remove p).1 = true ∧ p ∈ treePanes t ∧ ∃ t', Shape (s.remove p).2 t' ∧
      treePanes t' = (treePanes t).erase p ∧
      (s.remove p).2.focused =
        if s.focused = some p then (treePanes t').head? else s.focused) := by
  rcases remove_cuts h p with hfail | ⟨hok,hv,ht⟩ | ⟨j,v,l,r,k,side,hp,hk,hok,h₁,hfoc⟩
  · exact .inl hfail
  · exact .inr (.inl ⟨hok,hv,by rw [ht]; rfl⟩)
  · obtain ⟨hmem,hpanes⟩ := treePanes_cut h.nodup hn hp hk
    exact .inr (.inr ⟨hok,hmem,_,h₁,hpanes,hfoc⟩)

omit [F64Ops F] in
/-- Moving the focus over the pane list lands on a pane of the list. -/
theorem navigate_spec (s : SplitTree F) (forward : Bool) :
    s.navigate forward = (none,s) ∨
      ∃ p ∈ s.panes, s.navigate forward = (some p,{ s with focused := some p }) := by
  simp only [navigate]
  split
  · exact .inl rfl
  · split
    · exact .inl rfl
    · split
      · rename_i p hp
        exact .inr ⟨p,List.mem_of_getElem? hp,rfl⟩
      · exact .inl rfl

theorem computeBounds_panes {nodes : Arena F} (h : Rep nodes.get t) {fuel : ℕ}
    (hf : t.height ≤ fuel) (rect : Rect F) :
    (nodes.computeBounds fuel t.key rect).map Prod.fst = treePanes t := by
  induction t generalizing fuel rect with
  | leaf k v =>
    obtain ⟨p,rfl,hk⟩ := rep_leaf_cases h
    obtain ⟨n,rfl⟩ : ∃ n, fuel = n+1 := ⟨fuel-1,by simp only [height] at hf; omega⟩
    simp [Arena.computeBounds,show nodes.lookup k = _ from hk]
  | node k v l r ihl ihr =>
    obtain ⟨o,ratio,rfl,hk⟩ := rep_node_cases h
    obtain ⟨n,rfl⟩ : ∃ n, fuel = n+1 := ⟨fuel-1,by simp only [height] at hf; omega⟩
    simp only [height] at hf
    have hl := fun rect => ihl h.2.2.1 (show l.height ≤ n by omega) rect
    have hr := fun rect => ihr h.2.2.2 (show r.height ≤ n by omega) rect
    cases o <;>
      simp [Arena.computeBounds,show nodes.lookup k = _ from hk,List.map_append,hl,hr]

theorem mem_of_foldl_navStep (focused : PaneId) (f : Rect F) (d : Direction)
    (cs : List (PaneId × Rect F)) (best : Option (PaneId × F)) {p : PaneId} {x : F}
    (h : cs.foldl (navStep focused f d) best = some (p,x)) :
    p ∈ cs.map Prod.fst ∨ ∃ y, best = some (p,y) := by
  induction cs generalizing best with
  | nil => exact .inr ⟨x,h⟩
  | cons c cs ih =>
    have hstep : navStep focused f d best c = best ∨
        ∃ y, navStep focused f d best c = some (c.1,y) := by
      simp only [navStep]
      split
      · exact .inl rfl
      · split
        · exact .inl rfl
        · split
          · exact .inr ⟨_,rfl⟩
          · split
            · exact .inr ⟨_,rfl⟩
            · exact .inl rfl
    rcases ih _ h with hm | ⟨y,hy⟩
    · exact .inl (by simp [hm])
    · rcases hstep with hs | ⟨z,hs⟩
      · exact .inr ⟨y,hs ▸ hy⟩
      · obtain ⟨rfl,-⟩ := Prod.mk.inj (Option.some.inj (hs.symm.trans hy))
        exact .inl (by simp)

theorem navigateDirectional_spec (h : Shape s t) (d : Direction) :
    s.navigateDirectional d = (none,s) ∨
      ∃ p ∈ treePanes t, s.navigateDirectional d = (some p,{ s with focused := some p }) := by
  have hb : s.paneBounds.map Prod.fst = treePanes t := by
    rw [paneBounds,h.root]
    exact computeBounds_panes h.rep h.height_le_fuel _
  simp only [navigateDirectional]
  split
  · exact .inl rfl
  · split
    · exact .inl rfl
    · split
      · rename_i p x hfold
        rcases mem_of_foldl_navStep _ _ d _ none hfold with hm | ⟨y,hy⟩
        · exact .inr ⟨p,hb ▸ hm,rfl⟩
        · cases hy
      · exact .inl rfl

/-- The second half of a move: the removed pane comes back beside the target. -/
theorem shape_replaceChild (h : Shape s t) {k : NodeId} {q : PaneId} (hk : Sub (leaf k (.leaf q)) t)
    (hroot : t.key ≠ k) (before : Bool) (o : Orientation) (p : PaneId) (s' : SplitTree F) {fuel : ℕ}
    (hf : t.height ≤ fuel)
    (hn : s'.nodes = Arena.replaceChild k (s.nextId+1) fuel
      ((s.nodes.insert s.nextId (.leaf p)).insert (s.nextId+1)
        (Shape.pairTree before o half (s.nextId+1) s.nextId p (leaf k (.leaf q))).cell) t.key)
    (hr : s'.root = s.root) (hi : s'.nextId = s.nextId+2) :
    Shape s' (t.subst k
      (Shape.pairTree before o half (s.nextId+1) s.nextId p (leaf k (.leaf q)))) := by
  have hrep : Rep (Arena.get ((s.nodes.insert s.nextId (.leaf p)).insert (s.nextId+1)
      (Shape.pairTree before o half (s.nextId+1) s.nextId p (leaf k (.leaf q))).cell)) t :=
    h.rep.congr (fun i hi => by
      show AList.lookup i _ = _
      rw [HashMap.lookup_insert_ite,if_neg (h.ne_next hi).2,HashMap.lookup_insert_ite,
        if_neg (h.ne_next hi).1])
  refine h.graft hk before o half p hi ?_ (fun i => ?_)
  · rw [hr,h.root,key_leaf,redirect_of_ne hroot]
  · rw [hn,Arena.lookup_replaceChild hrep h.nodup hf,key_leaf,HashMap.lookup_insert_ite,
      HashMap.lookup_insert_ite]
    by_cases hik : i ∈ t.keys
    · simp only [if_pos hik,if_neg (h.ne_next hik).2,if_neg (h.ne_next hik).1]
    · rw [if_neg hik,h.lookup_eq_none hik,Option.map_none]

/-- The tree of a move before the ratios are set: the source is removed and the
leaf of the target replaced by its pair with the source. -/
structure Regrafted (s : SplitTree F) (t : NodeTree F) (p q : PaneId) (before : Bool)
    (o : Orientation) (s₁ s₂ : SplitTree F) (t₁ : NodeTree F) (j : NodeId) : Prop where
  removed : s.remove p = (true,s₁)
  shape : Shape s₁ t₁
  panes : treePanes t₁ = (treePanes t).erase p
  target : Sub (leaf j (.leaf q)) t₁
  moved : s.movePaneAdjacent p q before o = (true,equalizeChain s₂)
  focused : s₂.focused = some p
  grafted : Shape s₂ (t₁.subst j
    (Shape.pairTree before o half (s₁.nextId+1) s₁.nextId p (leaf j (.leaf q))))

theorem Vacant.movePaneAdjacent (h : s.Vacant) (p q : PaneId) (before : Bool)
    (o : Orientation) : s.movePaneAdjacent p q before o = (false,s) := by
  have hn : s.nodeIdForPane p = none := by simp [nodeIdForPane,h.root]
  by_cases hpq : p = q <;> simp [SplitTree.movePaneAdjacent,hpq,hn]

/-- A move fails without effect or is a removal and a graft beside the target. -/
theorem movePaneAdjacent_regrafts (h : Shape s t) (hn : (treePanes t).Nodup) (p q : PaneId)
    (before : Bool) (o : Orientation) :
    s.movePaneAdjacent p q before o = (false,s) ∨
    (p ∈ treePanes t ∧ q ∈ treePanes t ∧
      ∃ s₁ s₂ t₁ j, Regrafted s t p q before o s₁ s₂ t₁ j) := by
  by_cases hpq : p = q
  · exact .inl (by simp [movePaneAdjacent,hpq])
  rcases h.nodeIdForPane_spec p with ⟨i,hi,hsi⟩ | ⟨hi,-⟩
  swap
  · exact .inl (by simp [movePaneAdjacent,hpq,hi])
  rcases h.nodeIdForPane_spec q with ⟨k,hk,hsk⟩ | ⟨hk,-⟩
  swap
  · exact .inl (by simp [movePaneAdjacent,hpq,hi,hk])
  have hp : p ∈ treePanes t := panes_subset_of_sub hsi (by simp)
  have hq : q ∈ treePanes t := panes_subset_of_sub hsk (by simp)
  rcases remove_spec h hn p with ⟨-,h'⟩ | ⟨-,-,h'⟩ | ⟨hrem,-,t₁,h₁,hp₁,-⟩
  · exact absurd hp h'
  · rw [h'] at hq
    exact absurd (List.mem_singleton.mp hq).symm hpq
  generalize hs₁ : (s.remove p).2 = s₁ at h₁
  have hrem' : s.remove p = (true,s₁) := Prod.ext hrem hs₁
  have hq₁ : q ∈ treePanes t₁ := by
    rw [hp₁]
    exact (List.mem_erase_of_ne (Ne.symm hpq)).mpr hq
  rcases h₁.nodeIdForPane_spec q with ⟨j,hj,hsj⟩ | ⟨-,h'⟩
  swap
  · exact absurd hq₁ h'
  refine .inr ⟨hp,hq,s₁,?_⟩
  by_cases hroot : t₁.key = j
  · obtain rfl : t₁ = leaf j (.leaf q) := (Sub.refl t₁).eq_of_key hsj hroot h₁.nodup
    refine ⟨⟨(s₁.nodes.insert s₁.nextId (.leaf p)).insert (s₁.nextId+1)
      (Shape.pairTree before o half (s₁.nextId+1) s₁.nextId p (leaf j (.leaf q))).cell,
      some (s₁.nextId+1),s₁.nextId+2,some p⟩,_,j,hrem',h₁,hp₁,hsj,?_,rfl,
      shape_newRoot h₁ before o half p _ rfl rfl rfl⟩
    simp only [movePaneAdjacent,if_neg hpq,hi,hk,hrem',hj,allocId,insertNode,h₁.root,key_leaf]
    cases before <;> simp [Shape.pairTree,cell,half]
  · let nodes := (s₁.nodes.insert s₁.nextId (.leaf p)).insert (s₁.nextId+1)
      (Shape.pairTree before o half (s₁.nextId+1) s₁.nextId p (leaf j (.leaf q))).cell
    have hf₁ := (h₁.height_le_fuel.trans
      (fuel_insertNode s₁ s₁.nextId (.leaf p) (s₁.nextId+1))).trans
      (fuel_insertNode _ (s₁.nextId+1)
        (Shape.pairTree before o half (s₁.nextId+1) s₁.nextId p (leaf j (.leaf q))).cell
        (s₁.nextId+2))
    simp only [insertNode,h₁.root] at hf₁
    refine ⟨⟨Arena.replaceChild j (s₁.nextId+1)
        (⟨nodes,some t₁.key,s₁.nextId+2,s₁.focused⟩ : SplitTree F).fuel nodes t₁.key,
        some t₁.key,s₁.nextId+2,some p⟩,t₁,j,hrem',h₁,hp₁,hsj,?_,rfl,
      shape_replaceChild h₁ hsj hroot before o p _ hf₁ (by rfl) h₁.root.symm (by rfl)⟩
    simp only [movePaneAdjacent,if_neg hpq,hi,hk,hrem',hj,allocId,insertNode,h₁.root,
      Option.some.injEq,if_neg hroot]
    cases before <;> simp [nodes,Shape.pairTree,cell,half]

/-- A move fails without effect or keeps the set of panes and focuses the moved one. -/
theorem movePaneAdjacent_spec (h : Shape s t) (hn : (treePanes t).Nodup) (p q : PaneId)
    (before : Bool) (o : Orientation) :
    s.movePaneAdjacent p q before o = (false,s) ∨
    ((s.movePaneAdjacent p q before o).1 = true ∧ p ∈ treePanes t ∧ q ∈ treePanes t ∧
      (s.movePaneAdjacent p q before o).2.focused = some p ∧
      ∃ t', Shape (s.movePaneAdjacent p q before o).2 t' ∧ (treePanes t').Perm (treePanes t)) := by
  rcases movePaneAdjacent_regrafts h hn p q before o with he | ⟨hp,hq,s₁,s₂,t₁,j,hg⟩
  · exact .inl he
  rw [hg.moved]
  refine .inr ⟨rfl,hp,hq,(sameShape_equalizeChain s₂).2.2.2.trans hg.focused,?_⟩
  obtain ⟨t',h',hp'⟩ := shape_equalizeChain hg.grafted
  refine ⟨t',h',?_⟩
  have hperm := panes_graft hg.shape.nodup hg.target before o half (s₁.nextId+1) s₁.nextId p
  rw [key_leaf,hg.panes] at hperm
  rw [hp']
  exact hperm.trans (List.perm_cons_erase hp).symm

end SplitTree

end Limux
