import Limux.UiRestore

/-! The dividers of a workspace: which split a position handler writes to. -/
namespace Limux

open KeyTree

variable {F : Type}

theorem SplitTree.mem_of_splitOf {s : SplitTree F} {k : NodeId} (h : (s.splitOf k).isSome) :
    k ∈ s.nodes := by
  rw [splitOf] at h
  cases hl : s.nodes.lookup k with
  | none =>
    rw [hl] at h
    cases h
  | some v => exact HashMap.mem_iff_lookup.mpr ⟨v,hl⟩

theorem SplitTree.Later.splitOf_old {s s' : SplitTree F} (h : s.Later s')
    (hsub : ∀ n ∈ s'.nodes, n ∈ s.nodes) {t : NodeTree F} (hs : Shape s t) {k : NodeId}
    (hk : (s'.splitOf k).isSome) : (s.splitOf k).isSome := by
  have hm := mem_of_splitOf hk
  rw [← (h.kept k (hs.lt k ((hs.mem k).mp (hsub k hm))) hm).2]
  exact hk

theorem Shape.mem_inner {s : SplitTree F} {t : NodeTree F} (hs : Shape s t) (k : NodeId) :
    k ∈ t.inner ↔ (s.splitOf k).isSome := by
  have hrep : ∀ u : NodeTree F, Rep s.nodes.get u → (k ∈ u.inner ↔ k ∈ u.keys ∧
      (s.splitOf k).isSome) := by
    intro u hu
    induction u with
    | leaf i v =>
      obtain ⟨p,rfl,hi⟩ := rep_leaf_cases hu
      simp only [KeyTree.inner,keys,List.not_mem_nil,List.mem_singleton,false_iff]
      rintro ⟨rfl,hk⟩
      rw [SplitTree.splitOf,show s.nodes.lookup k = _ from hi] at hk
      cases hk
    | node i v l r ihl ihr =>
      obtain ⟨o,ratio,rfl,hi⟩ := rep_node_cases hu
      simp only [KeyTree.inner,keys,List.mem_cons,List.mem_append,ihl hu.2.2.1,ihr hu.2.2.2]
      have hsplit : k = i → (s.splitOf k).isSome = true := by
        rintro rfl
        rw [SplitTree.splitOf,show s.nodes.lookup k = _ from hi]
        rfl
      tauto
  rw [hrep t hs.rep]
  exact ⟨And.right,fun h => ⟨(hs.mem k).mp (SplitTree.mem_of_splitOf h),h⟩⟩

namespace WorkspaceWidgets

/-- The position handlers: each is on a paned and names a split that was made, and on the
paned of a split it names that split if any. -/
structure Wired (s : SplitTree F) (ww : WorkspaceWidgets) (W : NodeId → WidgetId) : Prop where
  paned : ∀ x (n : ℕ), (x,n) ∈ ww.synced → ww.gtk.orient x ≠ none ∧ n < s.nextId
  split : ∀ x n, (x,n) ∈ ww.synced → n ∈ s.nodes → (s.splitOf n).isSome
  names : ∀ k ∈ s.nodes, ∀ n ∈ s.nodes, (W k,n) ∈ ww.synced → n = k

/-- Every split has its paned in the map, and a handler on it. -/
def Tracked (s : SplitTree F) (ww : WorkspaceWidgets) (W : NodeId → WidgetId) : Prop :=
  ∀ k, (s.splitOf k).isSome → ww.splitPaneds.lookup k = some (W k) ∧ (W k,k) ∈ ww.synced

variable {s s' : SplitTree F} {t : NodeTree F} {ww ww' : WorkspaceWidgets} {W : NodeId → WidgetId}

theorem Wired.sub (h : Wired s ww W) (hl : s.Later s') (hsub : ∀ n ∈ s'.nodes, n ∈ s.nodes)
    (hsy : ww'.synced = ww.synced) (hor : ww'.gtk.orient = ww.gtk.orient) : Wired s' ww' W := by
  refine ⟨fun x n hn => ?_,fun x n hn hm => ?_,fun k hk n hm hn => ?_⟩
  · rw [hsy] at hn
    rw [hor]
    exact ⟨(h.paned x n hn).1,lt_of_lt_of_le (h.paned x n hn).2 hl.nextId⟩
  · rw [hsy] at hn
    rw [(hl.kept n (h.paned x n hn).2 hm).2]
    exact h.split x n hn (hsub n hm)
  · exact h.names k (hsub k hk) n (hsub n hm) (hsy ▸ hn)

theorem Tracked.sub (h : Tracked s ww W) (hl : s.Later s') (hsub : ∀ n ∈ s'.nodes, n ∈ s.nodes)
    (hs : Shape s t) (hsy : ww'.synced = ww.synced) (hsp : ∀ k ∈ s'.nodes,
      ww.splitPaneds.lookup k = some (W k) → ww'.splitPaneds.lookup k = some (W k)) :
    Tracked s' ww' W := by
  intro k hk
  obtain ⟨h1,h2⟩ := h k (hl.splitOf_old hsub hs hk)
  exact ⟨hsp k (SplitTree.mem_of_splitOf hk) h1,hsy ▸ h2⟩

section Graft

variable {k : NodeId} {p q : PaneId} {pw : PaneWidget} {before : Bool} {o : Orientation} {ratio : F}
  {paned : WidgetId}

theorem Wired.graft (h : Wired s ww W) (hL : Laid s ww W) (hs : Shape s t)
    (hk : Sub (leaf k (.leaf p)) t) (hsp : ww.Spare pw.container)
    (hp : Placed ww ww' t k (s.nextId+1) (W k) paned q pw before o)
    (hs' : Shape s' (t.subst k
      (Shape.pairTree before o ratio (s.nextId+1) s.nextId q (leaf k (.leaf p)))))
    (hinj : ∀ a ∈ s'.nodes, ∀ b ∈ s'.nodes,
      graftW s W paned pw.container a = graftW s W paned pw.container b → a = b) :
    Wired s' ww' (graftW s W paned pw.container) := by
  have hlater := SplitTree.Later.of_graft hs hk hs'
  have hnew : s.nextId+1 ∈ s'.nodes := (hs.mem_grafted hk hs' _).mpr (.inl rfl)
  have hold : ∀ x (n : ℕ), (x,n) ∈ ww.synced → n ∈ s'.nodes → n ∈ s.nodes ∧ n ∈ t.keys := by
    intro x n hn hm
    have hn' := (hlater.kept n (h.paned x n hn).2 hm).1
    exact ⟨hn',(hs.mem n).mp hn'⟩
  refine ⟨fun x n hn => ?_,fun x n hn hm => ?_,fun j hj n hm hn => ?_⟩
  · rw [hp.synced] at hn
    rw [hp.orient]
    rcases List.mem_cons.mp hn with hn | hn
    · obtain ⟨rfl,rfl⟩ := Prod.mk.inj hn
      exact ⟨by simp,hs'.lt _ ((hs'.mem _).mp hnew)⟩
    · refine ⟨?_,lt_of_lt_of_le (h.paned x n hn).2 hlater.nextId⟩
      split
      · simp
      · exact (h.paned x n hn).1
  · rw [hp.synced] at hn
    rcases List.mem_cons.mp hn with hn | hn
    · obtain ⟨rfl,rfl⟩ := Prod.mk.inj hn
      have hrep := hs'.rep.sub (sub_subst hk hs.nodup
        (Shape.pairTree before o ratio (s.nextId+1) s.nextId q (leaf k (.leaf p))))
      obtain ⟨v,hv⟩ := hs'.rep.get_isSome ((hs'.mem _).mp hm)
      have hlook : s'.nodes.lookup (s.nextId+1) = some (.split o ratio
          (if before then s.nextId else k) (if before then k else s.nextId)) := by
        cases before <;> exact hrep.1
      rw [SplitTree.splitOf,hlook]
      rfl
    · rw [(hlater.kept n (h.paned x n hn).2 hm).2]
      exact h.split x n hn (hold x n hn hm).1
  · rw [hp.synced] at hn
    rcases List.mem_cons.mp hn with hn | hn
    · obtain ⟨hx,rfl⟩ := Prod.mk.inj hn
      exact (hinj j hj _ hnew (by rw [hx,graftW_split])).symm
    · obtain ⟨hns,hnt⟩ := hold _ n hn hm
      rcases (hs.mem_grafted hk hs' j).mp hj with rfl | rfl | hjt
      · -- the paned of the new split had no handler of a node that is left
        rw [graftW_split] at hn
        rcases hp.place with ⟨rfl,htk⟩ | ⟨hle,-⟩
        · have hsplit := h.split _ n hn hns
          obtain rfl : t = leaf k (.leaf p) := (Sub.refl t).eq_of_key hk htk hs.nodup
          obtain rfl : n = k := List.mem_singleton.mp hnt
          rw [SplitTree.splitOf,show s.nodes.lookup n = _ from hs.rep.1] at hsplit
          cases hsplit
        · exact absurd (hL.ok.paned_lt _ (h.paned _ n hn).1) (not_lt.mpr hle)
      · rw [graftW_leaf] at hn
        exact absurd hsp.box (h.paned _ n hn).1
      · rw [graftW_old hs W paned pw.container hjt] at hn
        exact h.names j ((hs.mem j).mpr hjt) n hns hn

theorem Tracked.graft (h : Tracked s ww W) (hs : Shape s t) (hk : Sub (leaf k (.leaf p)) t)
    (hp : Placed ww ww' t k (s.nextId+1) (W k) paned q pw before o)
    (hs' : Shape s' (t.subst k
      (Shape.pairTree before o ratio (s.nextId+1) s.nextId q (leaf k (.leaf p))))) :
    Tracked s' ww' (graftW s W paned pw.container) := by
  have hlater := SplitTree.Later.of_graft hs hk hs'
  intro j hj
  rw [hp.splitPaneds,hp.synced,HashMap.lookup_insert_ite]
  by_cases hjn : j = s.nextId+1
  · rw [if_pos hjn,hjn,graftW_split]
    exact ⟨rfl,List.mem_cons_self⟩
  have hjt : j ∈ t.keys := by
    rcases (hs.mem_grafted hk hs' j).mp (SplitTree.mem_of_splitOf hj) with he | rfl | hjt
    · exact absurd he hjn
    · -- the new leaf
      have hrep := hs'.rep.sub (sub_subst hk hs.nodup
        (Shape.pairTree before o ratio (s.nextId+1) s.nextId q (leaf k (.leaf p))))
      have hleaf : s'.nodes.lookup s.nextId = some (.leaf q) := by
        cases before
        · exact hrep.2.2.2.1
        · exact hrep.2.2.1.1
      rw [SplitTree.splitOf,hleaf] at hj
      cases hj
    · exact hjt
  rw [if_neg hjn,graftW_old hs W paned pw.container hjt]
  rw [hs.splitOf_graft hk hs' hjt] at hj
  exact ⟨(h j hj).1,List.mem_cons_of_mem _ (h j hj).2⟩

end Graft

/-- A rebuild puts a handler on every paned, and none of the old ones is in the layout. -/
theorem Rebuilt.wired (h : Rebuilt ww ww' s' t W) (hs' : Shape s' t) (hok : ww.gtk.Ok)
    (hl : s.Later s') (hpaned : ∀ x (n : ℕ), (x,n) ∈ ww.synced → ww.gtk.orient x ≠ none ∧
      n < s.nextId) (hsplit : ∀ x n, (x,n) ∈ ww.synced → n ∈ s.nodes → (s.splitOf n).isSome) :
    Wired s' ww' W ∧ Tracked s' ww' W := by
  refine ⟨⟨fun x n hn => ?_,fun x n hn hm => ?_,fun k hk n hm hn => ?_⟩,fun k hk => ?_⟩
  · rcases (h.synced x n).mp hn with hn | ⟨hm,rfl⟩
    · obtain ⟨h1,h2⟩ := hpaned x n hn
      rw [h.orient x (hok.paned_lt x h1)]
      exact ⟨h1,lt_of_lt_of_le h2 hl.nextId⟩
    · have hi := (hs'.mem_inner n).mp hm
      refine ⟨?_,hs'.lt n (inner_subset t hm)⟩
      obtain ⟨v,hv⟩ := HashMap.mem_iff_lookup.mp (SplitTree.mem_of_splitOf hi)
      have hf := h.fits n v hv
      rw [SplitTree.splitOf,hv] at hi
      cases v with
      | leaf p => cases hi
      | split o r a b =>
        rw [show ww'.gtk.orient (W n) = some o from hf]
        simp
  · rcases (h.synced x n).mp hn with hn | ⟨hn,-⟩
    · obtain ⟨hns,he⟩ := hl.kept n (hpaned x n hn).2 hm
      rw [he]
      exact hsplit x n hn hns
    · exact (hs'.mem_inner n).mp hn
  · rcases (h.synced _ n).mp hn with hn | ⟨-,he⟩
    · have hx := (hpaned _ n hn).1
      rcases h.range k ((hs'.mem k).mp hk) with hge | hb
      · exact absurd (hok.paned_lt _ hx) (not_lt.mpr hge)
      · exact absurd hb hx
    · exact (h.inj k hk n hm he).symm
  · have hi := (hs'.mem_inner k).mpr hk
    exact ⟨h.splitPaneds k hi,(h.synced _ k).mpr (.inr ⟨hi,rfl⟩)⟩

end WorkspaceWidgets

end Limux
