import Limux.SplitWalk

/-! Representation invariant of the split tree: every operation maps a
represented node tree to a represented node tree. `Shape` is the working form,
`RepInv` the invariant in terms of the arena alone. -/
namespace Limux

open KeyTree

variable {F : Type}

/-- The arena of `s` stands for the node tree `t`, with fresh ids above it. -/
structure Shape (s : SplitTree F) (t : NodeTree F) : Prop where
  rep : Rep s.nodes.get t
  nodup : t.keys.Nodup
  mem : ∀ k, k ∈ s.nodes ↔ k ∈ t.keys
  root : s.root = some t.key
  lt : ∀ k : ℕ, k ∈ t.keys → k < s.nextId

namespace Shape

variable {s s' : SplitTree F} {t u : NodeTree F}

theorem unique (h : Shape s t) (h' : Shape s u) : t = u :=
  h.rep.unique h'.rep (Option.some.inj (h.root.symm.trans h'.root))

theorem length_keys (h : Shape s t) : t.keys.length = s.nodes.keys.length := by
  apply List.Perm.length_eq
  rw [List.perm_ext_iff_of_nodup h.nodup s.nodes.keys_nodup]
  intro k
  rw [← h.mem k,AList.mem_keys]

theorem height_le_fuel (h : Shape s t) : t.height ≤ s.fuel := by
  have h1 := height_le_length t
  have h2 := h.length_keys
  simp only [SplitTree.fuel]
  omega

theorem panes_eq (h : Shape s t) : s.panes = treePanes t := by
  rw [SplitTree.panes,h.root]
  exact Arena.collectPanes_eq h.rep h.height_le_fuel

theorem nodeIdForPane_spec (h : Shape s t) (p : PaneId) :
    (∃ k, s.nodeIdForPane p = some k ∧ Sub (leaf k (.leaf p)) t) ∨
      (s.nodeIdForPane p = none ∧ p ∉ treePanes t) := by
  rw [SplitTree.nodeIdForPane,h.root]
  exact Arena.findLeaf_spec h.rep h.height_le_fuel p

theorem lookup_eq_none (h : Shape s t) {k : NodeId} (hk : k ∉ t.keys) :
    s.nodes.lookup k = none := by
  rw [AList.lookup_eq_none,h.mem]
  exact hk

theorem fresh (h : Shape s t) {k : ℕ} (hk : s.nextId ≤ k) : k ∉ t.keys := fun hm =>
  absurd (h.lt k hm) (by omega)

theorem of_sameShape (h : Shape s t) (hn : Arena.SameShape s.nodes s'.nodes)
    (hr : s'.root = s.root) (hi : s'.nextId = s.nextId) :
    ∃ t', Shape s' t' ∧ t'.key = t.key ∧ t'.keys = t.keys ∧ treePanes t' = treePanes t := by
  obtain ⟨t',hrep,hkey,hkeys,hp⟩ := hn.rep h.rep
  refine ⟨t',⟨hrep,hkeys ▸ h.nodup,fun k => ?_,?_,?_⟩,hkey,hkeys,hp⟩
  · rw [hn.mem_iff,h.mem,hkeys]
  · rw [hr,h.root,hkey]
  · rw [hkeys,hi]; exact h.lt

/-- The pair that replaces `u` when a new leaf is put beside it. -/
def pairTree (before : Bool) (o : Orientation) (ratio : F) (σ ℓ : NodeId) (p : PaneId)
    (u : NodeTree F) : NodeTree F :=
  if before then node σ (.split o ratio ℓ u.key) (leaf ℓ (.leaf p)) u
  else node σ (.split o ratio u.key ℓ) u (leaf ℓ (.leaf p))

theorem keys_pairTree (before : Bool) (o : Orientation) (ratio : F) (σ ℓ : NodeId) (p : PaneId)
    (u : NodeTree F) : (pairTree before o ratio σ ℓ p u).keys.Perm (σ :: ℓ :: u.keys) := by
  cases before
  · exact .cons σ (List.perm_append_comm : (u.keys ++ [ℓ]).Perm ([ℓ] ++ u.keys))
  · exact .refl _

@[simp] theorem key_pairTree (before : Bool) (o : Orientation) (ratio : F) (σ ℓ : NodeId)
    (p : PaneId) (u : NodeTree F) : (pairTree before o ratio σ ℓ p u).key = σ := by
  cases before <;> rfl

theorem treePanes_pairTree (before : Bool) (o : Orientation) (ratio : F) (σ ℓ : NodeId)
    (p : PaneId) (u : NodeTree F) : treePanes (pairTree before o ratio σ ℓ p u) =
      if before then p :: treePanes u else treePanes u ++ [p] := by
  cases before <;> simp [pairTree]

theorem treePanes_subst (h : t.keys.Nodup) (hu : Sub u t) (g : NodeTree F) :
    ∃ a b, treePanes t = a ++ treePanes u ++ b ∧
      treePanes (t.subst u.key g) = a ++ treePanes g ++ b := by
  obtain ⟨a,b,h1,h2⟩ := (subst_splice g hu rfl h).2
  exact ⟨a.filterMap Node.pane?,b.filterMap Node.pane?,by simp [treePanes,h1],
    by simp [treePanes,h2]⟩

/-- Putting a fresh leaf and a fresh split around a subtree. All pointers to the
subtree now lead to the split. -/
theorem graft (h : Shape s t) (hu : Sub u t) (before : Bool) (o : Orientation) (ratio : F)
    (p : PaneId) (hnext : s'.nextId = s.nextId + 2)
    (hroot : s'.root = some (redirect u.key (s.nextId+1) t.key))
    (hlook : ∀ k : ℕ, s'.nodes.lookup k =
      if k = s.nextId+1 then some (pairTree before o ratio (s.nextId+1) s.nextId p u).cell
      else if k = s.nextId then some (.leaf p)
      else (s.nodes.lookup k).map (Cell.mapKids (redirect u.key (s.nextId+1)))) :
    Shape s' (t.subst u.key (pairTree before o ratio (s.nextId+1) s.nextId p u)) := by
  have hold : ∀ k : ℕ, k ∈ t.keys → s'.nodes.lookup k =
      (s.nodes.lookup k).map (Cell.mapKids (redirect u.key (s.nextId+1))) := by
    intro k hk
    have := h.lt k hk
    rw [hlook,if_neg (by omega),if_neg (by omega)]
  have hun : u.keys.Nodup := hu.nodup h.nodup
  have hru : Rep s'.nodes.get u := (h.rep.sub hu).congr (fun k hk => by
    show AList.lookup k _ = _
    rw [hold k (hu.keys_subset hk)]
    exact (h.rep.sub hu).mapKids_redirect_of_notMem (.inr ⟨rfl,hun⟩) _ hk)
  have hrl : Rep s'.nodes.get (leaf s.nextId (.leaf p)) :=
    ⟨by show AList.lookup _ _ = _; rw [hlook]; simp,rfl⟩
  have hrg : Rep s'.nodes.get (pairTree before o ratio (s.nextId+1) s.nextId p u) := by
    have hσ := hlook (s.nextId+1)
    rw [if_pos rfl] at hσ
    cases before
    · exact ⟨hσ,rfl,hru,hrl⟩
    · exact ⟨hσ,rfl,hrl,hru⟩
  obtain ⟨a,b,hk1,hk2⟩ := (subst_splice (pairTree before o ratio (s.nextId+1) s.nextId p u)
    hu rfl h.nodup).1
  have hperm : (t.subst u.key (pairTree before o ratio (s.nextId+1) s.nextId p u)).keys.Perm
      ((s.nextId+1) :: s.nextId :: t.keys) := by
    rw [hk2,hk1]
    have hg := keys_pairTree before o ratio (s.nextId+1) s.nextId p u
    refine (((hg.append_left a).append_right b)).trans ?_
    simp only [List.append_assoc,List.cons_append]
    refine List.perm_middle.trans (.cons _ ?_)
    exact List.perm_middle
  refine ⟨rep_subst h.rep h.nodup hrg ?_,?_,?_,?_,?_⟩
  · intro j hj _
    rw [key_pairTree]
    exact hold j hj
  · rw [hperm.nodup_iff]
    simp only [List.nodup_cons,List.mem_cons,not_or]
    exact ⟨⟨Nat.succ_ne_self _,h.fresh (by omega)⟩,h.fresh le_rfl,h.nodup⟩
  · intro k
    rw [hperm.mem_iff,HashMap.mem_iff_lookup]
    simp only [List.mem_cons]
    rw [hlook,← h.mem k,HashMap.mem_iff_lookup]
    split_ifs with h1 h2
    · simp [h1]
    · simp [h2]
    · simp [h1,h2,Option.map_eq_some_iff]
  · rw [hroot,key_subst,key_pairTree]
  · intro k hk
    rw [hperm.mem_iff] at hk
    simp only [List.mem_cons] at hk
    rw [hnext]
    rcases hk with rfl | rfl | hk
    · omega
    · omega
    · have := h.lt k hk; omega

/-- Dropping a leaf and letting its sibling take the place of their parent. -/
theorem cut (h : Shape s t) {j : NodeId} {v : Node F} {l r : NodeTree F} {side : Bool}
    {k : NodeId} {w : Node F} (hp : Sub (node j v l r) t)
    (hleaf : (if side then l else r) = leaf k w)
    (hnext : s'.nextId = s.nextId)
    (hroot : s'.root = some (redirect j (if side then r else l).key t.key))
    (hlook : ∀ i, s'.nodes.lookup i = if i = j ∨ i = k then none
      else (s.nodes.lookup i).map (Cell.mapKids (redirect j (if side then r else l).key))) :
    Shape s' (t.subst j (if side then r else l)) := by
  have hjk : ∀ x ∈ (if side then r else l).keys, x ≠ j ∧ x ≠ k ∧ x ∈ t.keys := by
    obtain ⟨hjl,hjr,hnl,hnr,hd⟩ := nodup_node (hp.nodup h.nodup)
    intro x hx
    refine ⟨?_,?_,hp.keys_subset (by cases side <;> simp_all [keys])⟩
    · rintro rfl; cases side <;> simp_all
    · rintro rfl
      cases side
      · exact hd x hx (by rw [show r = _ from hleaf]; simp [keys])
      · exact hd x (by rw [show l = _ from hleaf]; simp [keys]) hx
  have hsub : Sub (if side then r else l) t := by
    cases side
    · exact (Sub.left (.refl l)).trans hp
    · exact (Sub.right (.refl r)).trans hp
  have hrw : Rep s'.nodes.get (if side then r else l) := (h.rep.sub hsub).congr (fun x hx => by
    obtain ⟨h1,h2,-⟩ := hjk x hx
    show AList.lookup x _ = _
    rw [hlook,if_neg (by simp [h1,h2])]
    exact (h.rep.sub hsub).mapKids_redirect_of_notMem (.inl (fun hm => (hjk j hm).1 rfl)) _ hx)
  obtain ⟨a,b,hk1,hk2⟩ := (subst_splice (if side then r else l) hp rfl h.nodup).1
  have hperm : (j :: k :: (t.subst j (if side then r else l)).keys).Perm t.keys := by
    rw [key_node] at hk2
    rw [hk2,hk1]
    have hg : (j :: k :: (if side then r else l).keys).Perm (node j v l r).keys := by
      cases side
      · rw [show r = _ from hleaf]
        exact .cons j (List.perm_append_comm : ([k] ++ l.keys).Perm (l.keys ++ [k]))
      · rw [show l = _ from hleaf]; exact .refl _
    refine .trans ?_ ((hg.append_left a).append_right b)
    simp only [List.append_assoc,List.cons_append]
    refine .trans (.cons j List.perm_middle.symm) List.perm_middle.symm
  have hnd := hperm.nodup_iff.mpr h.nodup
  simp only [List.nodup_cons,List.mem_cons,not_or] at hnd
  have hmem : ∀ i, i ∈ (t.subst j (if side then r else l)).keys ↔
      i ∈ t.keys ∧ i ≠ j ∧ i ≠ k := by
    intro i
    rw [← hperm.mem_iff]
    simp only [List.mem_cons]
    constructor
    · intro hi
      exact ⟨.inr (.inr hi),fun he => hnd.1.2 (he ▸ hi),fun he => hnd.2.1 (he ▸ hi)⟩
    · rintro ⟨rfl | rfl | hi,h1,h2⟩
      · exact absurd rfl h1
      · exact absurd rfl h2
      · exact hi
  refine ⟨rep_subst h.rep h.nodup hrw ?_,hnd.2.2,?_,?_,?_⟩
  · intro i hi hout
    have hu := hout _ hp rfl
    have hik : i ≠ k := by
      rintro rfl
      apply hu
      cases side
      · rw [show r = _ from hleaf]; simp [keys]
      · rw [show l = _ from hleaf]; simp [keys]
    show AList.lookup i _ = _
    rw [hlook,if_neg (by rintro (rfl | rfl); exacts [hu (by simp [keys]),hik rfl])]
  · intro i
    rw [hmem,HashMap.mem_iff_lookup,hlook,← h.mem i,HashMap.mem_iff_lookup]
    by_cases hi : i = j ∨ i = k
    · rcases hi with rfl | rfl <;> simp
    · rw [if_neg hi]
      rw [not_or] at hi
      simp [hi.1,hi.2,Option.map_eq_some_iff]
  · rw [hroot,key_subst]
  · intro i hi
    rw [hnext]
    exact h.lt i ((hmem i).mp hi).1

end Shape

end Limux
