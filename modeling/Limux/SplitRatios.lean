import Limux.Split

/-! Where the ratios of a split tree come from: one half, the shares of a chain, and
what the caller passes. A property of these holds of every ratio. -/
namespace Limux

variable {F : Type} {P : F → Prop}

/-- The ratio, if there is one, satisfies `P`. -/
def Node.RatioIs (P : F → Prop) : Node F → Prop
  | .leaf _ => True
  | .split _ ratio _ _ => P ratio

namespace Arena

def Ratios (P : F → Prop) (nodes : Arena F) : Prop :=
  ∀ k n, nodes.lookup k = some n → n.RatioIs P

namespace Ratios

variable {nodes : Arena F}

theorem empty : Ratios P (∅ : Arena F) := by
  intro k n hl
  rw [AList.lookup_empty] at hl
  cases hl

theorem insert (h : Ratios P nodes) (id : NodeId) {n : Node F} (hn : n.RatioIs P) :
    Ratios P (nodes.insert id n) := by
  intro k m hl
  rw [HashMap.lookup_insert_ite] at hl
  split at hl
  · cases hl
    exact hn
  · exact h k m hl

theorem insertSplit (h : Ratios P nodes) (id : NodeId) {ratio : F} (hr : P ratio) (o : Orientation)
    (a b : NodeId) : Ratios P (nodes.insert id (.split o ratio a b)) := h.insert id hr

theorem insertLeaf (h : Ratios P nodes) (id : NodeId) (p : PaneId) :
    Ratios P (nodes.insert id (.leaf p)) := h.insert id (show (Node.leaf p : Node F).RatioIs P from trivial)

theorem ratio (h : Ratios P nodes) {id a b : NodeId} {o : Orientation} {ratio : F}
    (hl : nodes.lookup id = some (.split o ratio a b)) : P ratio := h id _ hl

theorem erase (h : Ratios P nodes) (id : NodeId) : Ratios P (nodes.erase id) := by
  intro k m hl
  rw [HashMap.lookup_erase_ite] at hl
  split at hl
  · cases hl
  · exact h k m hl

theorem updateSplit (h : Ratios P nodes) (id : NodeId)
    {f : Orientation → F → NodeId → NodeId → Node F} (hf : ∀ o r a b, P r → (f o r a b).RatioIs P) :
    Ratios P (nodes.updateSplit id f) := by
  unfold Arena.updateSplit
  split
  · rename_i o r a b hl
    exact h.insert id (hf o r a b (h.ratio hl))
  · exact h

theorem replaceChild (h : Ratios P nodes) (old new : NodeId) (fuel : ℕ) (id : NodeId) :
    Ratios P (Arena.replaceChild old new fuel nodes id) := by
  induction fuel generalizing nodes id with
  | zero => exact h
  | succ fuel ih =>
    unfold Arena.replaceChild
    split
    · rename_i o r a b hl
      split_ifs
      · exact h.insertSplit id (h.ratio hl) o new b
      · exact h.insertSplit id (h.ratio hl) o a new
      · exact ih (ih h a) b
    · exact h

theorem setChainRatios [F64Ops F] (h : Ratios P nodes)
    (hs : ∀ n : ℕ, 0 < n → P (F64Ops.div (F64Ops.lit 1) (F64Ops.ofUsize n))) (n : ℕ) (id : NodeId) :
    Ratios P (Arena.setChainRatios n nodes id) := by
  induction n generalizing nodes id with
  | zero => exact h
  | succ n ih =>
    cases n with
    | zero => exact h
    | succ n =>
      unfold Arena.setChainRatios
      split
      · exact ih (h.insertSplit id (hs (n+2) (Nat.succ_pos _)) _ _ _) _
      · exact h

end Ratios

end Arena

namespace SplitTree

/-- Every ratio of the tree satisfies `P`. -/
def Ratios (P : F → Prop) (t : SplitTree F) : Prop := t.nodes.Ratios P

namespace Ratios

variable {t : SplitTree F}

theorem newWithPane (p : PaneId) : Ratios P (.newWithPane p) :=
  Arena.Ratios.insertLeaf Arena.Ratios.empty _ p

theorem setFocused (h : Ratios P t) (p : PaneId) : Ratios P (t.setFocused p) := h

theorem setRatio (h : Ratios P t) (id : NodeId) {ratio : F} (hr : P ratio) :
    Ratios P (t.setRatio id ratio) :=
  Arena.Ratios.updateSplit h id (fun _ _ _ _ _ => hr)

theorem navigate (h : Ratios P t) (forward : Bool) : Ratios P (t.navigate forward).2 := by
  unfold SplitTree.navigate
  dsimp only
  split
  · exact h
  · split
    · exact h
    · split <;> exact h

theorem remove (h : Ratios P t) (p : PaneId) : Ratios P (t.remove p).2 := by
  have hfocus : ∀ u : SplitTree F, Ratios P u →
      Ratios P (if u.focused = some p then { u with focused := u.panes.head? } else u) := by
    intro u hu
    split <;> exact hu
  unfold SplitTree.remove
  split
  · exact h
  · split
    · exact Arena.Ratios.erase h _
    · split
      · exact h
      · split
        · rename_i isFirst _ _ _ _ a b _
          refine hfocus _ ?_
          generalize (if isFirst = true then b else a) = sibling
          generalize (if isFirst = true then a else b) = target
          split
          · exact Arena.Ratios.erase (Arena.Ratios.erase h _) _
          · split
            · refine Arena.Ratios.erase (Arena.Ratios.updateSplit (Arena.Ratios.erase h _) _ ?_) _
              intro o r a b hr
              split <;> exact hr
            · exact Arena.Ratios.erase h _
        · exact h

section

variable [F64Ops F]

theorem navigateDirectional (h : Ratios P t) (d : Direction) :
    Ratios P (t.navigateDirectional d).2 := by
  unfold SplitTree.navigateDirectional
  split
  · exact h
  · dsimp only
    split
    · exact h
    · split <;> exact h

theorem equalizeChain (h : Ratios P t)
    (hs : ∀ n : ℕ, 0 < n → P (F64Ops.div (F64Ops.lit 1) (F64Ops.ofUsize n))) :
    Ratios P t.equalizeChain := by
  unfold SplitTree.equalizeChain
  dsimp only
  split
  · exact h
  · split
    · exact Arena.Ratios.setChainRatios h hs _ _
    · exact h

theorem equalize (h : Ratios P t) (hhalf : P (F64Ops.lit (1/2))) : Ratios P t.equalize := by
  unfold SplitTree.equalize
  suffices hf : ∀ (ids : List NodeId) (nodes : Arena F), nodes.Ratios P →
      (ids.foldl (fun nodes id => Arena.updateSplit nodes id
        (fun o _ a b => .split o (F64Ops.lit (1/2)) a b)) nodes).Ratios P from hf _ _ h
  intro ids
  induction ids with
  | nil => exact fun nodes hn => hn
  | cons id ids ih => exact fun nodes hn => ih _ (hn.updateSplit id (fun _ _ _ _ _ => hhalf))

theorem splitAt (h : Ratios P t) (hhalf : P (F64Ops.lit (1/2))) (before : Bool) (p q : PaneId)
    (o : Orientation) : Ratios P (t.splitAt before p q o).2 := by
  have hpair : ∀ a b : NodeId, (if before then Node.split o (F64Ops.lit (1/2)) b a
      else .split o (F64Ops.lit (1/2)) a b : Node F).RatioIs P := by
    intro a b
    split <;> exact hhalf
  unfold SplitTree.splitAt
  dsimp only
  split
  · exact h
  · split
    · split
      · split
        · exact h
        · exact Arena.Ratios.insert (Arena.Ratios.insertLeaf h _ _) _ (hpair _ _)
      · exact h
    · split
      · refine Arena.Ratios.updateSplit (Arena.Ratios.insert (Arena.Ratios.insertLeaf h _ _) _
          (hpair _ _)) _ ?_
        intro o r a b hr
        split <;> exact hr
      · exact h

theorem movePaneAdjacent (h : Ratios P t) (hhalf : P (F64Ops.lit (1/2)))
    (hs : ∀ n : ℕ, 0 < n → P (F64Ops.div (F64Ops.lit 1) (F64Ops.ofUsize n)))
    (source target : PaneId) (before : Bool) (o : Orientation) :
    Ratios P (t.movePaneAdjacent source target before o).2 := by
  have hr := h.remove source
  have hpair : ∀ a b : NodeId, (if before then Node.split o (F64Ops.lit (1/2)) b a
      else .split o (F64Ops.lit (1/2)) a b : Node F).RatioIs P := by
    intro a b
    split <;> exact hhalf
  unfold SplitTree.movePaneAdjacent
  split
  · exact h
  · split
    · exact h
    · generalize t.remove source = r at hr ⊢
      dsimp only
      split
      · exact hr
      · split
        · exact hr
        · rename_i targetNode _
          generalize hn : (if before = true then
            (Node.split o (F64Ops.lit (1/2)) r.2.allocId.1 targetNode : Node F)
            else .split o (F64Ops.lit (1/2)) targetNode r.2.allocId.1) = n
          have hi := Arena.Ratios.insert (Arena.Ratios.insertLeaf hr r.2.nextId source)
            (r.2.nextId+1) (hn ▸ hpair targetNode r.2.allocId.1)
          refine equalizeChain ?_ hs
          split
          · exact hi
          · split
            · exact Arena.Ratios.replaceChild hi _ _ _ _
            · exact hi

end

theorem insertRemapped (h : Ratios P t) {source : Arena F} (hsrc : source.Ratios P)
    (remap : HashMap NodeId NodeId) (ids : List NodeId) :
    Ratios P (t.insertRemapped source remap ids) := by
  unfold SplitTree.insertRemapped
  induction ids generalizing t with
  | nil => exact h
  | cons id ids ih =>
    rw [List.foldl_cons]
    apply ih
    split
    · rename_i n k hl _
      refine Arena.Ratios.insert h _ ?_
      have hn := hsrc id n hl
      cases n with
      | leaf p => trivial
      | split o r a b => exact hn
    · exact h

theorem allocRemap (h : Ratios P t) (ids : List NodeId) : Ratios P (t.allocRemap ids).2 := by
  unfold SplitTree.allocRemap
  exact List.foldlRecOn (motive := fun s : HashMap NodeId NodeId × SplitTree F => Ratios P s.2)
    ids _ h (fun _ hs _ _ => hs)

theorem copy (h : Ratios P t) {source : Arena F} (hsrc : source.Ratios P) (ids : List NodeId) :
    Ratios P ((t.allocRemap ids).2.insertRemapped source (t.allocRemap ids).1 ids) :=
  insertRemapped (allocRemap h ids) hsrc _ ids

theorem merge (ord : IterOrder NodeId) {first second : SplitTree F} (h₁ : Ratios P first)
    (h₂ : Ratios P second) (o : Orientation) {ratio : F} (hr : P ratio) :
    Ratios P (.merge ord first second o ratio) := by
  have hb : Ratios P { (SplitTree.new : SplitTree F) with
      nextId := max first.nextId second.nextId } := Arena.Ratios.empty
  have hcopy := copy (copy hb h₁ (ord.enum first.nodes.keys)) h₂ (ord.enum second.nodes.keys)
  unfold SplitTree.merge
  dsimp only
  split
  · exact Arena.Ratios.insertSplit hcopy _ hr o _ _
  · exact hcopy
  · exact hcopy
  · exact hcopy

end Ratios

end SplitTree

end Limux
