import Limux.Split

/-! What the recursive walks over the node arena return on a represented tree,
whenever their fuel covers its height. -/
namespace Limux

open KeyTree

instance {F : Type} : Cell NodeId (Node F) where
  kids
    | .leaf _ => none
    | .split _ _ a b => some (a,b)
  mapKids f
    | .leaf p => .leaf p
    | .split o r a b => .split o r (f a) (f b)
  kids_mapKids f v := by cases v <;> rfl
  mapKids_congr f g v h := by
    cases v with
    | leaf p => rfl
    | split o r a b => simp [(h (a,b) rfl).1,(h (a,b) rfl).2]
  mapKids_id v := by cases v <;> rfl

abbrev NodeTree (F : Type) := KeyTree NodeId (Node F)

variable {F : Type}

/-- The arena as a partial function. -/
abbrev Arena.get (nodes : Arena F) (k : NodeId) : Option (Node F) := nodes.lookup k

def Node.pane? : Node F → Option PaneId
  | .leaf p => some p
  | .split _ _ _ _ => none

def treePanes (t : NodeTree F) : List PaneId := t.fringe.filterMap Node.pane?

@[simp] theorem kids_leaf (p : PaneId) : Cell.kids (Node.leaf p : Node F) = none := rfl
@[simp] theorem kids_split (o : Orientation) (r : F) (a b : NodeId) :
    Cell.kids (Node.split o r a b) = some (a,b) := rfl
@[simp] theorem mapKids_leaf_node (f : NodeId → NodeId) (p : PaneId) :
    Cell.mapKids f (Node.leaf p : Node F) = .leaf p := rfl
@[simp] theorem mapKids_split_node (f : NodeId → NodeId) (o : Orientation) (r : F) (a b : NodeId) :
    Cell.mapKids f (Node.split o r a b) = .split o r (f a) (f b) := rfl

@[simp] theorem treePanes_leaf (k : NodeId) (p : PaneId) :
    treePanes (leaf k (.leaf p) : NodeTree F) = [p] := rfl

@[simp] theorem treePanes_node (k : NodeId) (v : Node F) (l r : NodeTree F) :
    treePanes (node k v l r) = treePanes l ++ treePanes r := by
  simp [treePanes,fringe]

theorem panes_subset_of_sub {s t : NodeTree F} (h : Sub s t) : treePanes s ⊆ treePanes t := by
  intro p hp
  obtain ⟨v,hv,hpv⟩ := List.mem_filterMap.mp hp
  exact List.mem_filterMap.mpr ⟨v,h.fringe_subset hv,hpv⟩

theorem rep_leaf_cases {get : NodeId → Option (Node F)} {k : NodeId} {v : Node F}
    (h : Rep get (leaf k v)) : ∃ p, v = .leaf p ∧ get k = some (.leaf p) := by
  cases v with
  | leaf p => exact ⟨p,rfl,h.1⟩
  | split o r a b => exact absurd h.2 (by simp)

theorem rep_node_cases {get : NodeId → Option (Node F)} {k : NodeId} {v : Node F}
    {l r : NodeTree F} (h : Rep get (node k v l r)) :
    ∃ o ratio, v = .split o ratio l.key r.key ∧ get k = some (.split o ratio l.key r.key) := by
  cases v with
  | leaf p => exact absurd h.2.1 (by simp)
  | split o ratio a b =>
    obtain ⟨rfl,rfl⟩ := Prod.mk.inj (Option.some.inj h.2.1)
    exact ⟨o,ratio,rfl,h.1⟩

theorem treePanes_ne_nil {get : NodeId → Option (Node F)} {t : NodeTree F} (h : Rep get t) :
    treePanes t ≠ [] := by
  induction t with
  | leaf k v => obtain ⟨p,rfl,-⟩ := rep_leaf_cases h; simp
  | node k v l r ihl _ => simp [ihl h.2.2.1]

namespace Arena

variable {nodes : Arena F}

theorem collectPanes_eq {t : NodeTree F} (h : Rep nodes.get t) {fuel : ℕ}
    (hf : t.height ≤ fuel) : nodes.collectPanes fuel t.key = treePanes t := by
  induction t generalizing fuel with
  | leaf k v =>
    obtain ⟨p,rfl,hk⟩ := rep_leaf_cases h
    obtain ⟨n,rfl⟩ : ∃ n, fuel = n+1 := ⟨fuel-1,by simp only [height] at hf; omega⟩
    simp [collectPanes,show nodes.lookup k = _ from hk]
  | node k v l r ihl ihr =>
    obtain ⟨o,ratio,rfl,hk⟩ := rep_node_cases h
    obtain ⟨n,rfl⟩ : ∃ n, fuel = n+1 := ⟨fuel-1,by simp only [height] at hf; omega⟩
    simp only [height] at hf
    simp only [collectPanes,key_node,show nodes.lookup k = _ from hk,treePanes_node]
    rw [ihl h.2.2.1 (by omega),ihr h.2.2.2 (by omega)]

theorem findLeaf_spec {t : NodeTree F} (h : Rep nodes.get t) {fuel : ℕ}
    (hf : t.height ≤ fuel) (p : PaneId) :
    (∃ k, nodes.findLeaf p fuel t.key = some k ∧ Sub (leaf k (.leaf p)) t) ∨
      (nodes.findLeaf p fuel t.key = none ∧ p ∉ treePanes t) := by
  induction t generalizing fuel with
  | leaf k v =>
    obtain ⟨q,rfl,hk⟩ := rep_leaf_cases h
    obtain ⟨n,rfl⟩ : ∃ n, fuel = n+1 := ⟨fuel-1,by simp only [height] at hf; omega⟩
    simp only [findLeaf,key_leaf,show nodes.lookup k = _ from hk]
    by_cases hq : q = p
    · subst hq
      exact .inl ⟨k,by simp,.refl _⟩
    · exact .inr (by simp [hq,Ne.symm hq])
  | node k v l r ihl ihr =>
    obtain ⟨o,ratio,rfl,hk⟩ := rep_node_cases h
    obtain ⟨n,rfl⟩ : ∃ n, fuel = n+1 := ⟨fuel-1,by simp only [height] at hf; omega⟩
    simp only [height] at hf
    have he : nodes.findLeaf p (n+1) (node k (.split o ratio l.key r.key) l r).key =
        (nodes.findLeaf p n l.key).or (nodes.findLeaf p n r.key) := by
      simp [findLeaf,show nodes.lookup k = _ from hk]
    rw [he]
    rcases ihl h.2.2.1 (show l.height ≤ n by omega) with ⟨j,hj,hs⟩ | ⟨hj,hl⟩
    · exact .inl ⟨j,by simp [hj],.left hs⟩
    · rcases ihr h.2.2.2 (show r.height ≤ n by omega) with ⟨i,hi,hs⟩ | ⟨hi,hr⟩
      · exact .inl ⟨i,by simp [hj,hi],.right hs⟩
      · exact .inr ⟨by simp [hj,hi],by simp [hl,hr]⟩

/-- The arena lookup of a child decides whether it is the leaf of a pane. -/
theorem holds_iff {t : NodeTree F} (h : Rep nodes.get t) (p : PaneId) :
    (nodes.lookup t.key).any (Node.holds p) = true ↔ t = leaf t.key (.leaf p) := by
  rw [show nodes.lookup t.key = _ from h.get_key]
  cases t with
  | leaf k v =>
    obtain ⟨q,rfl,-⟩ := rep_leaf_cases h
    simp [cell,Node.holds]
  | node k v l r =>
    obtain ⟨o,ratio,rfl,-⟩ := rep_node_cases h
    simp [cell,Node.holds]

theorem findParent_spec {t : NodeTree F} (h : Rep nodes.get t) {fuel : ℕ}
    (hf : t.height ≤ fuel) (p : PaneId) :
    (∃ j v l r k side, nodes.findParent p fuel t.key = some (j,side) ∧
        Sub (node j v l r) t ∧ (if side then l else r) = leaf k (.leaf p)) ∨
      (nodes.findParent p fuel t.key = none ∧ (p ∉ treePanes t ∨ t = leaf t.key (.leaf p))) := by
  induction t generalizing fuel with
  | leaf k v =>
    obtain ⟨q,rfl,hk⟩ := rep_leaf_cases h
    obtain ⟨n,rfl⟩ : ∃ n, fuel = n+1 := ⟨fuel-1,by simp only [height] at hf; omega⟩
    refine .inr ⟨by simp [findParent,show nodes.lookup k = _ from hk],?_⟩
    by_cases hq : q = p
    · subst hq; exact .inr rfl
    · exact .inl (by simp [Ne.symm hq])
  | node k v l r ihl ihr =>
    obtain ⟨o,ratio,rfl,hk⟩ := rep_node_cases h
    obtain ⟨n,rfl⟩ : ∃ n, fuel = n+1 := ⟨fuel-1,by simp only [height] at hf; omega⟩
    simp only [height] at hf
    have he : nodes.findParent p (n+1) (node k (.split o ratio l.key r.key) l r).key =
        if (nodes.lookup l.key).any (Node.holds p) then some (k,true)
        else if (nodes.lookup r.key).any (Node.holds p) then some (k,false)
        else (nodes.findParent p n l.key).or (nodes.findParent p n r.key) := by
      simp [findParent,show nodes.lookup k = _ from hk]
    rw [he]
    by_cases h1 : (nodes.lookup l.key).any (Node.holds p) = true
    · exact .inl ⟨k,_,l,r,l.key,true,by simp [h1],.refl _,(holds_iff h.2.2.1 p).mp h1⟩
    by_cases h2 : (nodes.lookup r.key).any (Node.holds p) = true
    · exact .inl ⟨k,_,l,r,r.key,false,by simp [h1,h2],.refl _,(holds_iff h.2.2.2 p).mp h2⟩
    rw [if_neg h1,if_neg h2]
    rcases ihl h.2.2.1 (show l.height ≤ n by omega) with
      ⟨j,v,l',r',i,side,hj,hs,hi⟩ | ⟨hj,hl⟩
    · exact .inl ⟨j,v,l',r',i,side,by simp [hj],.left hs,hi⟩
    · rcases ihr h.2.2.2 (show r.height ≤ n by omega) with
        ⟨j',v,l',r',i,side,hj',hs,hi⟩ | ⟨hj',hr⟩
      · exact .inl ⟨j',v,l',r',i,side,by simp [hj,hj'],.right hs,hi⟩
      · refine .inr ⟨by simp [hj,hj'],.inl ?_⟩
        have hl' := hl.resolve_right (fun hl => h1 ((holds_iff h.2.2.1 p).mpr hl))
        have hr' := hr.resolve_right (fun hr => h2 ((holds_iff h.2.2.2 p).mpr hr))
        simp [hl',hr']

/-- `nodes'` agrees with `nodes` on the splits of `t` and may have lost leaves. -/
def Pruned (nodes nodes' : Arena F) (t : NodeTree F) : Prop :=
  (∀ j v l r, Sub (node j v l r) t → nodes'.lookup j = nodes.lookup j) ∧
    ∀ j v, Sub (leaf j v) t → nodes'.lookup j = nodes.lookup j ∨ nodes'.lookup j = none

theorem Pruned.sub {nodes' : Arena F} {s t : NodeTree F} (h : Pruned nodes nodes' t)
    (hs : Sub s t) : Pruned nodes nodes' s :=
  ⟨fun j v l r hj => h.1 j v l r (hj.trans hs),fun j v hj => h.2 j v (hj.trans hs)⟩

theorem findParentOfNode_split {nodes' : Arena F} {k : NodeId} {v : Node F} {l r : NodeTree F}
    (h : Rep nodes.get (node k v l r)) (hp : Pruned nodes nodes' (node k v l r))
    (target : NodeId) (n : ℕ) :
    nodes'.findParentOfNode target (n+1) k =
      if l.key = target then some (k,true)
      else if r.key = target then some (k,false)
      else (nodes'.findParentOfNode target n l.key).or (nodes'.findParentOfNode target n r.key) := by
  obtain ⟨o,ratio,rfl,hk⟩ := rep_node_cases h
  simp [findParentOfNode,hp.1 k _ _ _ (.refl _),show nodes.lookup k = _ from hk]

theorem findParentOfNode_eq_none {nodes' : Arena F} {t : NodeTree F} (h : Rep nodes.get t)
    (hp : Pruned nodes nodes' t) {fuel : ℕ} (hf : t.height ≤ fuel) {target : NodeId}
    (ht : target ∉ t.keys) : nodes'.findParentOfNode target fuel t.key = none := by
  induction t generalizing fuel with
  | leaf k v =>
    obtain ⟨p,rfl,hk⟩ := rep_leaf_cases h
    obtain ⟨m,rfl⟩ : ∃ m, fuel = m+1 := ⟨fuel-1,by simp only [height] at hf; omega⟩
    rcases hp.2 k _ (.refl _) with hkk | hkk
    · simp [findParentOfNode,hkk,show nodes.lookup k = _ from hk]
    · simp [findParentOfNode,hkk]
  | node k v l r ihl ihr =>
    obtain ⟨m,rfl⟩ : ∃ m, fuel = m+1 := ⟨fuel-1,by simp only [height] at hf; omega⟩
    simp only [height] at hf
    simp only [keys,List.mem_cons,List.mem_append,not_or] at ht
    have hlk : l.key ≠ target := fun he => ht.2.1 (he ▸ key_mem_keys l)
    have hrk : r.key ≠ target := fun he => ht.2.2 (he ▸ key_mem_keys r)
    have h1 := ihl h.2.2.1 (hp.sub (.left (.refl l))) (show l.height ≤ m by omega) ht.2.1
    have h2 := ihr h.2.2.2 (hp.sub (.right (.refl r))) (show r.height ≤ m by omega) ht.2.2
    rw [key_node,findParentOfNode_split h hp]
    simp [hlk,hrk,h1,h2]

theorem findParentOfNode_spec {nodes' : Arena F} {t : NodeTree F} (h : Rep nodes.get t)
    (hp : Pruned nodes nodes' t) {fuel : ℕ} (hf : t.height ≤ fuel) {target : NodeId}
    (ht : target ∈ t.keys) (hne : target ≠ t.key) :
    ∃ j v l r side, nodes'.findParentOfNode target fuel t.key = some (j,side) ∧
      Sub (node j v l r) t ∧ (if side then l.key else r.key) = target := by
  induction t generalizing fuel with
  | leaf k v => simp only [keys,List.mem_singleton] at ht; exact absurd ht hne
  | node k v l r ihl ihr =>
    obtain ⟨n,rfl⟩ : ∃ n, fuel = n+1 := ⟨fuel-1,by simp only [height] at hf; omega⟩
    simp only [height] at hf
    rw [key_node,findParentOfNode_split h hp]
    by_cases h1 : l.key = target
    · exact ⟨k,v,l,r,true,by simp [h1],.refl _,h1⟩
    by_cases h2 : r.key = target
    · exact ⟨k,v,l,r,false,by simp [h1,h2],.refl _,h2⟩
    rw [if_neg h1,if_neg h2]
    have hpl := hp.sub (.left (.refl l))
    have hpr := hp.sub (.right (.refl r))
    by_cases hml : target ∈ l.keys
    · obtain ⟨j,w,l',r',side,hj,hs,hi⟩ :=
        ihl h.2.2.1 hpl (show l.height ≤ n by omega) hml (Ne.symm h1)
      exact ⟨j,w,l',r',side,by simp [hj],.left hs,hi⟩
    · have hmr : target ∈ r.keys := by
        simp only [keys,List.mem_cons,List.mem_append] at ht
        exact (ht.resolve_left hne).resolve_left hml
      obtain ⟨j,w,l',r',side,hj,hs,hi⟩ :=
        ihr h.2.2.2 hpr (show r.height ≤ n by omega) hmr (Ne.symm h2)
      have hn := findParentOfNode_eq_none h.2.2.1 hpl (show l.height ≤ n by omega) hml
      exact ⟨j,w,l',r',side,by simp [hj,hn],.right hs,hi⟩

theorem findChainEnd_spec {t : NodeTree F} (h : Rep nodes.get t) {fuel : ℕ}
    (hf : t.height ≤ fuel) : ∃ p, Sub (leaf (nodes.findChainEnd fuel t.key) (.leaf p)) t := by
  induction t generalizing fuel with
  | leaf k v =>
    obtain ⟨p,rfl,hk⟩ := rep_leaf_cases h
    obtain ⟨n,rfl⟩ : ∃ n, fuel = n+1 := ⟨fuel-1,by simp only [height] at hf; omega⟩
    exact ⟨p,by simpa [findChainEnd,show nodes.lookup k = _ from hk] using Sub.refl _⟩
  | node k v l r ihl ihr =>
    obtain ⟨o,ratio,rfl,hk⟩ := rep_node_cases h
    obtain ⟨n,rfl⟩ : ∃ n, fuel = n+1 := ⟨fuel-1,by simp only [height] at hf; omega⟩
    simp only [height] at hf
    obtain ⟨p,hp⟩ := ihr h.2.2.2 (show r.height ≤ n by omega)
    exact ⟨p,by simpa [findChainEnd,show nodes.lookup k = _ from hk] using Sub.right hp⟩

theorem lookup_updateSplit (nodes : Arena F) (id j : NodeId)
    (f : Orientation → F → NodeId → NodeId → Node F) :
    AList.lookup j (nodes.updateSplit id f) =
      if j = id then
        match nodes.lookup id with
        | some (.split o r a b) => some (f o r a b)
        | x => x
      else nodes.lookup j := by
  unfold updateSplit
  cases hid : nodes.lookup id with
  | none =>
    by_cases hj : j = id
    · rw [if_pos hj,hj,hid]
    · rw [if_neg hj]
  | some v =>
    cases v with
    | leaf p =>
      by_cases hj : j = id
      · rw [if_pos hj,hj,hid]
      · rw [if_neg hj]
    | split o r a b => exact HashMap.lookup_insert_ite nodes id j (f o r a b)

/-- `replace_child` redirects the pointers to `old` below its start and touches
nothing else. -/
theorem lookup_replaceChild {t : NodeTree F} (h : Rep nodes.get t) (hn : t.keys.Nodup)
    {fuel : ℕ} (hf : t.height ≤ fuel) (old new : NodeId) (i : NodeId) :
    AList.lookup i (replaceChild old new fuel nodes t.key) =
      if i ∈ t.keys then (nodes.lookup i).map (Cell.mapKids (redirect old new))
      else nodes.lookup i := by
  induction t generalizing fuel nodes i with
  | leaf k v =>
    obtain ⟨p,rfl,hk⟩ := rep_leaf_cases h
    obtain ⟨n,rfl⟩ : ∃ n, fuel = n+1 := ⟨fuel-1,by simp only [height] at hf; omega⟩
    have hk' : nodes.lookup k = some (.leaf p) := hk
    by_cases hi : i = k
    · subst hi; simp [replaceChild,hk',keys]
    · simp [replaceChild,hk',keys,hi]
  | node k v l r ihl ihr =>
    obtain ⟨o,ratio,rfl,hk⟩ := rep_node_cases h
    obtain ⟨n,rfl⟩ : ∃ n, fuel = n+1 := ⟨fuel-1,by simp only [height] at hf; omega⟩
    have hk' : nodes.lookup k = some (.split o ratio l.key r.key) := hk
    obtain ⟨hkl,hkr,hnl,hnr,hd⟩ := nodup_node hn
    have hne : l.key ≠ r.key := (Sub.refl _).kids_ne hn
    simp only [height] at hf
    -- the pointer sits in this very node: its subtrees hold no other copy of it
    have hhere : ∀ side : Bool, (if side then l.key else r.key) = old → ∀ j, j ≠ k →
        nodes.lookup j = if j ∈ (node k (.split o ratio l.key r.key) l r).keys then
          (nodes.lookup j).map (Cell.mapKids (redirect old new)) else nodes.lookup j := by
      intro side hs j hj
      split
      · rename_i hm
        exact (hs ▸ @Rep.mapKids_redirect _ _ _ _ _ _ h hn _ _ _ _ side (.refl _) new _ hm hj).symm
      · rfl
    by_cases h1 : l.key = old
    · subst h1
      have he : replaceChild l.key new (n+1) nodes k =
          nodes.insert k (.split o ratio new r.key) := by simp [replaceChild,hk']
      rw [key_node,he,HashMap.lookup_insert_ite]
      by_cases hi : i = k
      · subst hi
        simp [keys,hk',redirect_of_ne (Ne.symm hne)]
      · rw [if_neg hi]
        exact hhere true rfl i hi
    by_cases h2 : r.key = old
    · subst h2
      have he : replaceChild r.key new (n+1) nodes k =
          nodes.insert k (.split o ratio l.key new) := by simp [replaceChild,hk',hne]
      rw [key_node,he,HashMap.lookup_insert_ite]
      by_cases hi : i = k
      · subst hi
        simp [keys,hk',redirect_of_ne hne]
      · rw [if_neg hi]
        exact hhere false rfl i hi
    · have he : replaceChild old new (n+1) nodes k =
          replaceChild old new n (replaceChild old new n nodes l.key) r.key := by
        simp [replaceChild,hk',h1,h2]
      have hl := fun i => ihl h.2.2.1 hnl (show l.height ≤ n by omega) i
      have hrep : Rep (replaceChild old new n nodes l.key).get r := h.2.2.2.congr (fun j hj => by
        show AList.lookup j _ = _
        rw [hl j,if_neg (fun hjl => hd j hjl hj)])
      have hr := ihr hrep hnr (show r.height ≤ n by omega) i
      rw [key_node,he,hr,hl i]
      by_cases hi : i = k
      · subst hi
        simp [keys,hkl,hkr,hk',redirect_of_ne h1,redirect_of_ne h2]
      · by_cases hil : i ∈ l.keys
        · simp [keys,hil,hd i hil,hi]
        · simp [keys,hil,hi]

/-- The arenas agree up to split ratios. -/
def SameShape (nodes nodes' : Arena F) : Prop :=
  ∀ k, nodes'.lookup k = nodes.lookup k ∨
    ∃ o r r' a b, nodes.lookup k = some (.split o r a b) ∧
      nodes'.lookup k = some (.split o r' a b)

theorem SameShape.refl (nodes : Arena F) : SameShape nodes nodes := fun _ => .inl rfl

theorem SameShape.trans {n₁ n₂ n₃ : Arena F} (h : SameShape n₁ n₂) (h' : SameShape n₂ n₃) :
    SameShape n₁ n₃ := by
  intro k
  rcases h k with h1 | ⟨o,r,r',a,b,h1,h2⟩
  · rcases h' k with h3 | ⟨o,r,r',a,b,h3,h4⟩
    · exact .inl (h3.trans h1)
    · exact .inr ⟨o,r,r',a,b,h1 ▸ h3,h4⟩
  · rcases h' k with h3 | ⟨o',s,s',a',b',h3,h4⟩
    · exact .inr ⟨o,r,r',a,b,h1,h3.trans h2⟩
    · obtain ⟨rfl,-,rfl,rfl⟩ := Node.split.inj (Option.some.inj (h2.symm.trans h3))
      exact .inr ⟨o,r,s',a,b,h1,h4⟩

theorem sameShape_insert {k : NodeId} {o : Orientation} {r : F} {a b : NodeId}
    (h : nodes.lookup k = some (.split o r a b)) (r' : F) :
    SameShape nodes (nodes.insert k (.split o r' a b)) := by
  intro j
  by_cases hj : j = k
  · subst hj
    exact .inr ⟨o,r,r',a,b,h,by simp⟩
  · exact .inl (by simp [hj])

theorem sameShape_updateSplit (nodes : Arena F) (k : NodeId) (r' : F) :
    SameShape nodes (nodes.updateSplit k (fun o _ a b => .split o r' a b)) := by
  unfold updateSplit
  split
  · rename_i h; exact sameShape_insert h r'
  · exact .refl _

theorem sameShape_setChainRatios [F64Ops F] (n : ℕ) (nodes : Arena F) (id : NodeId) :
    SameShape nodes (nodes.setChainRatios n id) := by
  induction n using Nat.strong_induction_on generalizing nodes id with
  | _ n ih =>
    match n, ih with
    | 0, _ => exact .refl _
    | 1, _ => exact .refl _
    | n+2, ih =>
      unfold setChainRatios
      split
      · rename_i h
        exact (sameShape_insert h _).trans (ih (n+1) (by omega) _ _)
      · exact .refl _

theorem SameShape.mem_iff {nodes' : Arena F} (h : SameShape nodes nodes') (k : NodeId) :
    k ∈ nodes' ↔ k ∈ nodes := by
  rw [HashMap.mem_iff_lookup,HashMap.mem_iff_lookup]
  rcases h k with h1 | ⟨o,r,r',a,b,h1,h2⟩
  · rw [h1]
  · simp [h1,h2]

/-- Changing ratios only changes the cells of the represented tree. -/
theorem SameShape.rep {nodes' : Arena F} (h : SameShape nodes nodes') {t : NodeTree F}
    (ht : Rep nodes.get t) :
    ∃ t' : NodeTree F, Rep nodes'.get t' ∧ t'.key = t.key ∧ t'.keys = t.keys ∧
      treePanes t' = treePanes t := by
  let f : NodeId → Node F → Node F := fun k v => (nodes'.lookup k).getD v
  have hf : ∀ k v, nodes.lookup k = some v →
      nodes'.lookup k = some (f k v) ∧ Cell.kids (f k v) = Cell.kids v ∧
        (Cell.kids v = none → f k v = v) := by
    intro k v hv
    rcases h k with h1 | ⟨o,r,r',a,b,h1,h2⟩
    · simp [f,h1,hv]
    · obtain rfl := Option.some.inj (hv.symm.trans h1)
      simp [f,h2]
  refine ⟨t.recell f,rep_recell ht (fun k _ v hv => ⟨(hf k v hv).1,(hf k v hv).2.1⟩),
    key_recell f t,keys_recell f t,?_⟩
  rw [treePanes,fringe_recell ht (fun k _ v hv => (hf k v hv).2.2),treePanes]

end Arena

end Limux
