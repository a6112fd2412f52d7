import Limux.SplitBounds

/-! Equal distribution: `equalize_chain` gives all panes the same area exactly
when the tree is a right-leaning chain. -/
namespace Limux

open KeyTree

/-- Every first child is a leaf. -/
def RightLeaning {K V : Type} : KeyTree K V → Prop
  | .leaf _ _ => True
  | .node _ _ l r => (∃ k v, l = .leaf k v) ∧ RightLeaning r

theorem RightLeaning.sub {K V : Type} {t u : KeyTree K V} (h : RightLeaning t) (hu : Sub u t) :
    RightLeaning u := by
  induction hu with
  | refl => exact h
  | left hu ih =>
    obtain ⟨⟨k,v,rfl⟩,-⟩ := h
    exact ih trivial
  | right _ ih => exact ih h.2

section Ratios

variable {F : Type} [F64Ops F]

/-- What `set_chain_ratios` makes of a tree. -/
def evenTree : ℕ → NodeTree F → NodeTree F
  | n+2, .node k (.split o _ a b) l r =>
    .node k (.split o (F64Ops.div (F64Ops.lit 1) (F64Ops.ofUsize (n+2))) a b) l (evenTree (n+1) r)
  | _, t => t

@[simp] theorem key_evenTree (n : ℕ) (t : NodeTree F) : (evenTree n t).key = t.key := by
  unfold evenTree
  split <;> rfl

@[simp] theorem keys_evenTree (n : ℕ) (t : NodeTree F) : (evenTree n t).keys = t.keys := by
  induction t generalizing n with
  | leaf k v => rcases n with _ | _ | n <;> rfl
  | node k v l r _ ihr =>
    rcases n with _ | _ | n
    · rfl
    · rfl
    · cases v with
      | leaf p => rfl
      | split o ratio a b => simp [evenTree,keys,ihr]

namespace Arena

theorem lookup_setChainRatios {nodes : Arena F} {t : NodeTree F} (h : Rep nodes.get t)
    (hn : t.keys.Nodup) (n : ℕ) {k : NodeId} (hk : k ∉ t.keys) :
    AList.lookup k (nodes.setChainRatios n t.key) = nodes.lookup k := by
  induction t generalizing n nodes with
  | leaf j v =>
    obtain ⟨p,rfl,hj⟩ := rep_leaf_cases h
    rcases n with _ | _ | n
    · rfl
    · rfl
    · simp [setChainRatios,show nodes.lookup j = _ from hj]
  | node j v l r _ ihr =>
    obtain ⟨o,ratio,rfl,hj⟩ := rep_node_cases h
    obtain ⟨-,hjr,-,hnr,-⟩ := nodup_node hn
    simp only [keys,List.mem_cons,List.mem_append,not_or] at hk
    rcases n with _ | _ | n
    · rfl
    · rfl
    · have hrep : Rep (Arena.get (nodes.insert j (.split o
          (F64Ops.div (F64Ops.lit 1) (F64Ops.ofUsize (n+2))) l.key r.key))) r :=
        h.2.2.2.congr (fun i hi => AList.lookup_insert_ne (fun he => hjr (he ▸ hi)))
      simp only [setChainRatios,key_node,show nodes.lookup j = _ from hj]
      rw [ihr hrep hnr (n+1) hk.2.2,AList.lookup_insert_ne hk.1]

theorem rep_setChainRatios {nodes : Arena F} {t : NodeTree F} (h : Rep nodes.get t)
    (hn : t.keys.Nodup) (n : ℕ) :
    Rep (Arena.get (nodes.setChainRatios n t.key)) (evenTree n t) := by
  induction t generalizing n nodes with
  | leaf j v =>
    obtain ⟨p,rfl,hj⟩ := rep_leaf_cases h
    rcases n with _ | _ | n
    · exact h
    · exact h
    · rw [key_leaf,setChainRatios,show nodes.lookup j = _ from hj]
      exact h
  | node j v l r _ ihr =>
    obtain ⟨o,ratio,rfl,hj⟩ := rep_node_cases h
    obtain ⟨hjl,hjr,hnl,hnr,hd⟩ := nodup_node hn
    rcases n with _ | _ | n
    · exact h
    · exact h
    · -- the node itself is written first, the rest of the walk stays in `r`
      have hrep : Rep (Arena.get (nodes.insert j (.split o
          (F64Ops.div (F64Ops.lit 1) (F64Ops.ofUsize (n+2))) l.key r.key))) r :=
        h.2.2.2.congr (fun i hi => AList.lookup_insert_ne (fun he => hjr (he ▸ hi)))
      have hout := fun k hk => lookup_setChainRatios hrep hnr (n+1) (k := k) hk
      simp only [setChainRatios,key_node,show nodes.lookup j = _ from hj]
      refine ⟨?_,by simp,h.2.2.1.congr (fun i hi => ?_),ihr hrep hnr (n+1)⟩
      · exact (hout j hjr).trans (AList.lookup_insert _)
      · exact (hout i (hd i hi)).trans (AList.lookup_insert_ne (fun he => hjl (he ▸ hi)))

end Arena

theorem Shape.equalizeChain {s : SplitTree F} {t : NodeTree F} (h : Shape s t) :
    Shape s.equalizeChain (evenTree (treePanes t).length t) := by
  have hs := SplitTree.sameShape_equalizeChain s
  have hrep : Rep s.equalizeChain.nodes.get (evenTree (treePanes t).length t) := by
    simp only [SplitTree.equalizeChain,h.panes_eq,h.root]
    split
    · rename_i hle
      have he : evenTree (treePanes t).length t = t := by
        rcases hn : (treePanes t).length with _ | _ | n
        · rfl
        · rfl
        · omega
      rw [he]
      exact h.rep
    · exact Arena.rep_setChainRatios h.rep h.nodup _
  refine ⟨hrep,?_,fun k => ?_,?_,fun k hk => ?_⟩
  · rw [keys_evenTree]; exact h.nodup
  · rw [hs.1.mem_iff,h.mem,keys_evenTree]
  · rw [hs.2.1,h.root,key_evenTree]
  · rw [keys_evenTree] at hk
    rw [hs.2.2.1]
    exact h.lt k hk

end Ratios

/-- All panes have the same share of the unit square. -/
def EqualAreas (s : SplitTree ℚ) : Prop :=
  ∀ b ∈ s.paneBounds, b.2.w*b.2.h = 1/(s.panes.length : ℚ)

theorem Drawn.even {t : NodeTree ℚ} {c : Cut Orientation ℚ PaneId} (h : Drawn t c) (n : ℕ) :
    Drawn (evenTree n t) (c.even n) := by
  induction h generalizing n with
  | leaf k p => rcases n with _ | _ | n <;> exact .leaf k p
  | node k o ratio a b hl hr _ ihr =>
    rcases n with _ | _ | n
    · exact .node k o ratio a b hl hr
    · exact .node k o ratio a b hl hr
    · exact .node k o _ a b hl (ihr (n+1))

theorem Drawn.comb_iff {t : NodeTree ℚ} {c : Cut Orientation ℚ PaneId} (h : Drawn t c) :
    c.Comb ↔ RightLeaning t := by
  induction h with
  | leaf k p => exact iff_of_true trivial trivial
  | node k o ratio a b hl _ _ ihr =>
    refine and_congr ?_ ihr
    cases hl <;> simp

/-- Equalising the chain makes the areas equal exactly on right-leaning trees. -/
theorem Shape.equalAreas_iff {s : SplitTree ℚ} {t : NodeTree ℚ} (h : Shape s t) :
    EqualAreas s.equalizeChain ↔ RightLeaning t := by
  obtain ⟨c,hc⟩ := exists_drawn h.rep
  have hs := h.equalizeChain
  have heven := hc.even (treePanes t).length
  have hlen : s.equalizeChain.panes.length = c.tiles.length := by
    rw [hs.panes_eq,← heven.tiles_eq,Cut.tiles_even]
  rw [← hc.comb_iff,← Cut.even_iff (b := unitSquare) (by rw [volume_unitSquare]; norm_num),
    volume_unitSquare,EqualAreas,hlen,hc.tiles_eq]
  unfold Cut.Even
  rw [← hs.paneBounds_eq heven,List.forall_mem_map]
  exact forall₂_congr (fun b _ => by rw [← Rect.volume_box]; rfl)

end Limux
