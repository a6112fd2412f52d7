import Limux.SplitOps

/-! Merging two split trees: the nodes of both are copied under fresh ids. -/
namespace Limux

open KeyTree

variable {F : Type}

namespace SplitTree

theorem allocRemap_spec (t : SplitTree F) {ids : List NodeId} (hn : ids.Nodup) :
    (t.allocRemap ids).2 = { t with nextId := t.nextId+ids.length } ∧
    ∀ k, (t.allocRemap ids).1.lookup k =
      if k ∈ ids then some (t.nextId+ids.idxOf k) else none := by
  suffices h : ∀ (m : HashMap NodeId NodeId) (t : SplitTree F),
      (ids.foldl (fun s old => ((s.1.insert old s.2.nextId,{ s.2 with nextId := s.2.nextId+1 }) :
        HashMap NodeId NodeId × SplitTree F)) (m,t)).2 = { t with nextId := t.nextId+ids.length } ∧
      ∀ k, (ids.foldl (fun s old => ((s.1.insert old s.2.nextId,
        { s.2 with nextId := s.2.nextId+1 }) : HashMap NodeId NodeId × SplitTree F)) (m,t)).1.lookup k =
        if k ∈ ids then some (t.nextId+ids.idxOf k) else m.lookup k by
    simpa only [allocRemap,allocId,AList.lookup_empty] using h ∅ t
  induction ids with
  | nil => exact fun m t => ⟨rfl,fun k => by simp⟩
  | cons i ids ih =>
    intro m t
    rw [List.nodup_cons] at hn
    obtain ⟨h1,h2⟩ := ih hn.2 (m.insert i t.nextId) { t with nextId := t.nextId+1 }
    refine ⟨?_,fun k => ?_⟩
    · simp only [List.foldl_cons,h1,List.length_cons]
      simp [Nat.add_assoc,Nat.add_comm 1]
    · simp only [List.foldl_cons,h2,HashMap.lookup_insert_ite,List.mem_cons]
      by_cases hk : k = i
      · subst hk
        simp [hn.1]
      · by_cases hm : k ∈ ids
        · simp [hk,hm,List.idxOf_cons_ne ids (Ne.symm hk)]
          omega
        · simp [hk,hm]

def remapFn (remap : HashMap NodeId NodeId) (k : NodeId) : NodeId := (remap.lookup k).getD k

theorem remapNode_eq (remap : HashMap NodeId NodeId) (n : Node F) :
    remapNode remap n = Cell.mapKids (remapFn remap) n := by
  cases n <;> rfl

theorem insertRemapped_spec (source : Arena F) (remap : HashMap NodeId NodeId)
    {ids : List NodeId} (hids : ∀ k ∈ ids, (∃ v, source.lookup k = some v) ∧
      remap.lookup k = some (remapFn remap k))
    (hinj : ∀ j ∈ ids, ∀ k ∈ ids, remapFn remap j = remapFn remap k → j = k)
    (hn : ids.Nodup) (t : SplitTree F) :
    (t.insertRemapped source remap ids).root = t.root ∧
    (t.insertRemapped source remap ids).nextId = t.nextId ∧
    (t.insertRemapped source remap ids).focused = t.focused ∧
    (∀ k ∈ ids, (t.insertRemapped source remap ids).nodes.lookup (remapFn remap k) =
      (source.lookup k).map (Cell.mapKids (remapFn remap))) ∧
    ∀ j, (∀ k ∈ ids, remapFn remap k ≠ j) →
      (t.insertRemapped source remap ids).nodes.lookup j = t.nodes.lookup j := by
  induction ids generalizing t with
  | nil => simp [insertRemapped]
  | cons i ids ih =>
    rw [List.nodup_cons] at hn
    obtain ⟨⟨v,hv⟩,hi⟩ := hids i (by simp)
    obtain ⟨h1,h2,h3,h4,h5⟩ := ih (fun k hk => hids k (by simp [hk]))
      (fun j hj k hk => hinj j (by simp [hj]) k (by simp [hk])) hn.2
      (t.insertNode (remapFn remap i) (remapNode remap v))
    have he : t.insertRemapped source remap (i :: ids) =
        (t.insertNode (remapFn remap i) (remapNode remap v)).insertRemapped source remap ids := by
      simp [insertRemapped,hv,hi]
    rw [he]
    refine ⟨h1,h2,h3,fun k hk => ?_,fun j hj => ?_⟩
    · rcases List.mem_cons.mp hk with rfl | hk
      · rw [h5 _ (fun j hj he => ?_)]
        · simp [insertNode,hv,remapNode_eq]
        · have := hinj j (by simp [hj]) k (by simp) he
          exact hn.1 (this ▸ hj)
      · exact h4 k hk
    · rw [h5 j (fun k hk => hj k (by simp [hk]))]
      simp [insertNode,Ne.symm (hj i (by simp))]

theorem copy_spec {s b : SplitTree F} {u : NodeTree F} (h : Shape s u)
    {ids : List NodeId} (hids : ids.Perm s.nodes.keys) {b' : SplitTree F}
    (he : b' = (b.allocRemap ids).2.insertRemapped s.nodes (b.allocRemap ids).1 ids) :
    ∃ u' : NodeTree F, Rep b'.nodes.get u' ∧ u'.keys.Nodup ∧ (∃ f, u' = u.rename f) ∧
      (b.allocRemap ids).1.lookup u.key = some u'.key ∧
      (∀ k : ℕ, k ∈ u'.keys → b.nextId ≤ k ∧ k < b'.nextId) ∧
      (∀ k, k ∈ b'.nodes ↔ k ∈ b.nodes ∨ k ∈ u'.keys) ∧
      (∀ k : ℕ, k < b.nextId → b'.nodes.lookup k = b.nodes.lookup k) ∧
      b.nextId ≤ b'.nextId ∧ b'.root = b.root ∧ b'.focused = b.focused := by
  have hn : ids.Nodup := hids.nodup_iff.mpr s.nodes.keys_nodup
  obtain ⟨ha,hlook⟩ := allocRemap_spec b hn
  generalize hm : (b.allocRemap ids).1 = remap at *
  have hmem : ∀ k, k ∈ ids ↔ k ∈ u.keys := fun k => by
    rw [hids.mem_iff,← AList.mem_keys,h.mem]
  have hf : ∀ k ∈ ids, remapFn remap k = b.nextId+ids.idxOf k := fun k hk => by
    simp [remapFn,hlook,hk]
  have hinj : ∀ j ∈ ids, ∀ k ∈ ids, remapFn remap j = remapFn remap k → j = k := by
    intro j hj k hk hjk
    rw [hf j hj,hf k hk] at hjk
    exact (List.idxOf_inj hj).mp (Nat.add_left_cancel hjk)
  have hsome : ∀ k ∈ ids, (∃ v, s.nodes.lookup k = some v) ∧
      remap.lookup k = some (remapFn remap k) := by
    intro k hk
    refine ⟨h.rep.get_isSome ((hmem k).mp hk),?_⟩
    rw [hlook,if_pos hk,hf k hk]
  rw [ha] at he
  obtain ⟨h1,h2,h3,h4,h5⟩ := insertRemapped_spec s.nodes remap hsome hinj hn
    { b with nextId := b.nextId+ids.length }
  rw [← he] at h1 h2 h3 h4 h5
  have hrange : ∀ k : ℕ, k ∈ (u.rename (remapFn remap)).keys → b.nextId ≤ k ∧ k < b'.nextId := by
    intro k hk
    rw [keys_rename,List.mem_map] at hk
    obtain ⟨j,hj,rfl⟩ := hk
    have hj' := (hmem j).mpr hj
    rw [hf j hj',h2]
    have := List.idxOf_lt_length_of_mem hj'
    constructor
    · exact Nat.le_add_right _ _
    · simp only []
      omega
  refine ⟨u.rename (remapFn remap),rep_rename _ h.rep ?_,?_,⟨_,rfl⟩,?_,hrange,?_,?_,?_,h1,h3⟩
  · exact fun k hk => h4 k ((hmem k).mpr hk)
  · rw [keys_rename]
    exact h.nodup.map_on (fun j hj k hk => hinj j ((hmem j).mpr hj) k ((hmem k).mpr hk))
  · rw [key_rename]
    exact (hsome _ ((hmem _).mpr (key_mem_keys u))).2
  · intro k
    rw [HashMap.mem_iff_lookup,HashMap.mem_iff_lookup]
    by_cases hk : k ∈ (u.rename (remapFn remap)).keys
    · refine iff_of_true ?_ (.inr hk)
      rw [keys_rename,List.mem_map] at hk
      obtain ⟨j,hj,rfl⟩ := hk
      obtain ⟨v,hv⟩ := (hsome j ((hmem j).mpr hj)).1
      exact ⟨_,by rw [h4 j ((hmem j).mpr hj),hv]; rfl⟩
    · rw [h5 k (fun j hj hjk => hk (by
        rw [keys_rename,List.mem_map]; exact ⟨j,(hmem j).mp hj,hjk⟩))]
      exact ⟨.inl,fun hor => hor.resolve_right hk⟩
  · intro k hk
    refine h5 k (fun j hj hjk => ?_)
    have hle : b.nextId ≤ k := (hf j hj).symm.trans hjk ▸ Nat.le_add_right _ _
    omega
  · rw [h2]
    exact Nat.le_add_right _ _

theorem copy_vacant {s b : SplitTree F} (h : s.Vacant) {ids : List NodeId}
    (hids : ids.Perm s.nodes.keys) :
    (b.allocRemap ids).2.insertRemapped s.nodes (b.allocRemap ids).1 ids = b := by
  have hnil : ids = [] := by
    rw [List.eq_nil_iff_forall_not_mem]
    intro k hk
    rw [hids.mem_iff,← AList.mem_keys,HashMap.mem_iff_lookup] at hk
    obtain ⟨v,hv⟩ := hk
    rw [h.lookup k] at hv
    cases hv
  subst hnil
  rfl

theorem Vacant.panes {s : SplitTree F} (h : s.Vacant) : s.panes = [] := by
  rw [SplitTree.panes,h.root]

theorem treePanes_rename (f : NodeId → NodeId) (u : NodeTree F) :
    treePanes (u.rename f) = treePanes u := by
  simp [treePanes]

/-- A split over copies of two trees. -/
def JoinedTree (first second : SplitTree F) (o : Orientation) (ratio : F) (t : NodeTree F) :
    Prop :=
  ∃ k t₁ t₂ f g, Shape first t₁ ∧ Shape second t₂ ∧
    t = node k (.split o ratio (t₁.rename f).key (t₂.rename g).key) (t₁.rename f) (t₂.rename g)

/-- The end of `merge`: the roots of the two copies, under a new split if both are there. -/
def joinRoots (o : Orientation) (ratio : F) (t : SplitTree F) :
    Option NodeId → Option NodeId → SplitTree F
  | some fr, some sr =>
    { t.allocId.2.insertNode t.allocId.1 (.split o ratio fr sr) with root := some t.allocId.1 }
  | some fr, none => { t with root := some fr }
  | none, some sr => { t with root := some sr }
  | none, none => t

/-- The panes of a merge are those of the first tree, then those of the second; two
trees that are there become the halves of a split. -/
theorem merge_spec (ord : IterOrder NodeId) {first second : SplitTree F}
    (h₁ : first.Vacant ∨ ∃ t, Shape first t) (h₂ : second.Vacant ∨ ∃ t, Shape second t)
    (o : Orientation) (ratio : F) :
    (first.Vacant ∧ second.Vacant ∧ (merge ord first second o ratio).Vacant) ∨
    ∃ t, Shape (merge ord first second o ratio) t ∧ treePanes t = first.panes ++ second.panes ∧
      (merge ord first second o ratio).focused = (treePanes t).head? ∧
      (first.Vacant ∨ second.Vacant ∨ JoinedTree first second o ratio t) := by
  have hp₁ := ord.perm first.nodes.keys
  have hp₂ := ord.perm second.nodes.keys
  let b₀ : SplitTree F := { new with nextId := max first.nextId second.nextId }
  let remap₁ := (b₀.allocRemap (ord.enum first.nodes.keys)).1
  let b₁ := (b₀.allocRemap (ord.enum first.nodes.keys)).2.insertRemapped first.nodes remap₁
    (ord.enum first.nodes.keys)
  let remap₂ := (b₁.allocRemap (ord.enum second.nodes.keys)).1
  let b₂ := (b₁.allocRemap (ord.enum second.nodes.keys)).2.insertRemapped second.nodes remap₂
    (ord.enum second.nodes.keys)
  have hb₀ : ∀ k : ℕ, k ∉ b₀.nodes := fun k => AList.notMem_empty k
  have he : ∀ s : SplitTree F, joinRoots o ratio b₂ (first.root.bind remap₁.lookup)
      (second.root.bind remap₂.lookup) = s →
      merge ord first second o ratio = { s with focused := s.panes.head? } := by
    rintro s rfl
    rfl
  have hfin : ∀ (s : SplitTree F) (t : NodeTree F), Shape s t →
      merge ord first second o ratio = { s with focused := s.panes.head? } →
      treePanes t = first.panes ++ second.panes →
      (first.Vacant ∨ second.Vacant ∨ JoinedTree first second o ratio t) →
      ∃ t, Shape (merge ord first second o ratio) t ∧ treePanes t = first.panes ++ second.panes ∧
        (merge ord first second o ratio).focused = (treePanes t).head? ∧
        (first.Vacant ∨ second.Vacant ∨ JoinedTree first second o ratio t) := by
    intro s t hs hm hp hj
    rw [hm]
    exact ⟨t,⟨hs.rep,hs.nodup,hs.mem,hs.root,hs.lt⟩,hp,by rw [hs.panes_eq],hj⟩
  rcases h₁ with h₁ | ⟨t₁,h₁⟩ <;> rcases h₂ with h₂ | ⟨t₂,h₂⟩
  · have hb₁ : b₁ = b₀ := copy_vacant h₁ hp₁
    have hb₂ : b₂ = b₁ := copy_vacant h₂ hp₂
    have hm := he b₀ (by simp [joinRoots,h₁.root,h₂.root,hb₂,hb₁])
    refine .inl ⟨h₁,h₂,?_⟩
    rw [hm]
    exact ⟨fun k => rfl,rfl,rfl⟩
  · have hb₁ : b₁ = b₀ := copy_vacant h₁ hp₁
    obtain ⟨u,hrep,hn,⟨f,hf⟩,hk,hr,hmem,-,-,-,-⟩ := copy_spec h₂ hp₂ (show b₂ = _ from rfl)
    refine .inr (hfin { b₂ with root := some u.key } u ⟨hrep,hn,fun k => ?_,rfl,fun k hk =>
      (hr k hk).2⟩ (he _ ?_) ?_ (.inl h₁))
    · rw [hmem k,hb₁]
      exact ⟨fun hor => hor.resolve_left (hb₀ k),.inr⟩
    · rw [h₁.root,h₂.root]
      simp only [Option.bind_none,Option.bind_some]
      rw [show AList.lookup t₂.key remap₂ = _ from hk]
      rfl
    · rw [hf,treePanes_rename,h₁.panes,h₂.panes_eq,List.nil_append]
  · obtain ⟨u,hrep,hn,⟨f,hf⟩,hk,hr,hmem,-,-,-,-⟩ := copy_spec h₁ hp₁ (show b₁ = _ from rfl)
    have hb₂ : b₂ = b₁ := copy_vacant h₂ hp₂
    refine .inr (hfin { b₁ with root := some u.key } u ⟨hrep,hn,fun k => ?_,rfl,fun k hk =>
      (hr k hk).2⟩ (he _ ?_) ?_ (.inr (.inl h₂)))
    · rw [hmem k]
      exact ⟨fun hor => hor.resolve_left (hb₀ k),.inr⟩
    · rw [h₁.root,h₂.root,hb₂]
      simp only [Option.bind_none,Option.bind_some]
      rw [show AList.lookup t₁.key remap₁ = _ from hk]
      rfl
    · rw [hf,treePanes_rename,h₁.panes_eq,h₂.panes,List.append_nil]
  · obtain ⟨u,hrep,hn,⟨f,hf⟩,hk,hr,hmem,-,-,-,-⟩ := copy_spec h₁ hp₁ (show b₁ = _ from rfl)
    obtain ⟨w,hrep',hn',⟨g,hg⟩,hk',hr',hmem',hold,hle,-,-⟩ :=
      copy_spec h₂ hp₂ (show b₂ = _ from rfl)
    have hu : ∀ k : ℕ, k ∈ u.keys → k ≠ b₂.nextId ∧ k < b₁.nextId := fun k hk => by
      have := (hr k hk).2
      omega
    have hw : ∀ k : ℕ, k ∈ w.keys → k ≠ b₂.nextId ∧ b₁.nextId ≤ k := fun k hk => by
      have := hr' k hk
      omega
    refine .inr (hfin _ (node b₂.nextId (.split o ratio u.key w.key) u w)
      ⟨⟨?_,rfl,hrep.congr (fun k hk => ?_),hrep'.congr (fun k hk => ?_)⟩,?_,fun k => ?_,rfl,
        fun k hk => ?_⟩ (he { b₂.allocId.2.insertNode b₂.allocId.1 (.split o ratio u.key w.key)
          with root := some b₂.allocId.1 } ?_) ?_
      (.inr (.inr ⟨_,t₁,t₂,f,g,h₁,h₂,by rw [← hf,← hg]⟩)))
    · simp [allocId,insertNode]
    · simp only [Arena.get,allocId,insertNode,HashMap.lookup_insert_ite,if_neg (hu k hk).1]
      exact hold k (hu k hk).2
    · simp only [Arena.get,allocId,insertNode,HashMap.lookup_insert_ite,if_neg (hw k hk).1]
    · simp only [keys,List.nodup_cons,List.mem_append,not_or,List.nodup_append]
      refine ⟨⟨fun hm => (hu _ hm).1 rfl,fun hm => (hw _ hm).1 rfl⟩,hn,hn',?_⟩
      rintro x hx y hy rfl
      have h1 := (hu x hx).2
      have h2 := (hw x hy).2
      omega
    · simp only [allocId,insertNode,AList.mem_insert,keys,List.mem_cons,List.mem_append]
      rw [hmem' k,hmem k]
      have := hb₀ k
      tauto
    · simp only [allocId,insertNode]
      simp only [keys,List.mem_cons,List.mem_append] at hk
      rcases hk with rfl | hk | hk
      · omega
      · have := (hr k hk).2
        omega
      · have := (hr' k hk).2
        omega
    · rw [h₁.root,h₂.root]
      simp only [Option.bind_some]
      rw [show AList.lookup t₁.key remap₁ = _ from hk,show AList.lookup t₂.key remap₂ = _ from hk']
      rfl
    · rw [treePanes_node,hf,hg,treePanes_rename,treePanes_rename,h₁.panes_eq,h₂.panes_eq]

end SplitTree

end Limux
