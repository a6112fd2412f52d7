import Limux.SplitEdits
import Limux.SplitRatios
import Limux.Lib.Subdivision
import Mathlib.Data.Rat.Cast.Order

/-! The rectangles of the panes in exact arithmetic: `pane_bounds` is the
subdivision of the unit square by the cuts of the tree. -/
namespace Limux

open KeyTree

instance : Fintype Orientation := ⟨{.horizontal,.vertical},fun o => by cases o <;> simp⟩

/-- A rectangle as a box; a horizontal split cuts across the horizontal axis. -/
def Rect.box (r : Rect ℚ) : Box Orientation ℚ where
  lo
    | .horizontal => r.x
    | .vertical => r.y
  size
    | .horizontal => r.w
    | .vertical => r.h

def unitSquare : Box Orientation ℚ := ⟨fun _ => 0,fun _ => 1⟩

theorem Rect.volume_box (r : Rect ℚ) : r.box.volume = r.w*r.h := by
  show ∏ i ∈ {Orientation.horizontal,Orientation.vertical}, r.box.size i = _
  rw [Finset.prod_pair (by decide)]
  rfl

theorem volume_unitSquare : unitSquare.volume = 1 := by
  simp [Box.volume,unitSquare]

theorem pos_unitSquare : unitSquare.Pos := fun _ => zero_lt_one

/-- The tree of cuts that a node tree draws. -/
inductive Drawn {F : Type} : NodeTree F → Cut Orientation F PaneId → Prop
  | leaf (k : NodeId) (p : PaneId) : Drawn (.leaf k (.leaf p)) (.tile p)
  | node (k : NodeId) (o : Orientation) (ratio : F) (a b : NodeId) {l r : NodeTree F}
      {cl cr : Cut Orientation F PaneId} :
      Drawn l cl → Drawn r cr → Drawn (.node k (.split o ratio a b) l r) (.cut o ratio cl cr)

theorem exists_drawn {F : Type} {get : NodeId → Option (Node F)} {t : NodeTree F}
    (h : Rep get t) : ∃ c, Drawn t c := by
  induction t with
  | leaf k v =>
    obtain ⟨p,rfl,-⟩ := rep_leaf_cases h
    exact ⟨_,.leaf k p⟩
  | node k v l r ihl ihr =>
    obtain ⟨o,ratio,rfl,-⟩ := rep_node_cases h
    obtain ⟨cl,hl⟩ := ihl h.2.2.1
    obtain ⟨cr,hr⟩ := ihr h.2.2.2
    exact ⟨_,.node k o ratio _ _ hl hr⟩

theorem Drawn.tiles_eq {F : Type} {t : NodeTree F} {c : Cut Orientation F PaneId}
    (h : Drawn t c) : c.tiles = treePanes t := by
  induction h with
  | leaf k p => rfl
  | node k o ratio a b _ _ ihl ihr => rw [Cut.tiles,ihl,ihr,treePanes_node]

theorem Drawn.proper {nodes : Arena ℚ} {t : NodeTree ℚ} {c : Cut Orientation ℚ PaneId}
    (h : Drawn t c) (hrep : Rep nodes.get t) (hr : nodes.Ratios (fun x => 0 < x ∧ x < 1)) :
    c.Proper := by
  induction h with
  | leaf k p => trivial
  | node k o ratio a b _ _ ihl ihr =>
    exact ⟨hr.ratio hrep.1,ihl hrep.2.2.1,ihr hrep.2.2.2⟩

theorem box_first (o : Orientation) (ratio : ℚ) (r : Rect ℚ) :
    r.box.first o ratio = match o with
      | .horizontal => (⟨r.x,r.y,r.w*ratio,r.h⟩ : Rect ℚ).box
      | .vertical => (⟨r.x,r.y,r.w,r.h*ratio⟩ : Rect ℚ).box := by
  cases o <;> (unfold Box.first Rect.box; congr 1; funext i; cases i <;> simp)

theorem box_second (o : Orientation) (ratio : ℚ) (r : Rect ℚ) :
    r.box.second o ratio = match o with
      | .horizontal => (⟨r.x+r.w*ratio,r.y,r.w-r.w*ratio,r.h⟩ : Rect ℚ).box
      | .vertical => (⟨r.x,r.y+r.h*ratio,r.w,r.h-r.h*ratio⟩ : Rect ℚ).box := by
  cases o <;> (unfold Box.second Rect.box; congr 1 <;> (funext i; cases i <;> simp))

theorem computeBounds_eq {nodes : Arena ℚ} {t : NodeTree ℚ} {c : Cut Orientation ℚ PaneId}
    (hc : Drawn t c) (h : Rep nodes.get t) {fuel : ℕ} (hf : t.height ≤ fuel) (rect : Rect ℚ) :
    (nodes.computeBounds fuel t.key rect).map (Prod.map id Rect.box) = c.boxes rect.box := by
  induction hc generalizing fuel rect with
  | leaf k p =>
    obtain ⟨n,rfl⟩ : ∃ n, fuel = n+1 := ⟨fuel-1,by simp only [height] at hf; omega⟩
    simp [Arena.computeBounds,show nodes.lookup k = _ from h.1,Cut.boxes]
  | @node k o ratio a b l r cl cr _ _ ihl ihr =>
    obtain ⟨n,rfl⟩ : ∃ n, fuel = n+1 := ⟨fuel-1,by simp only [height] at hf; omega⟩
    simp only [height] at hf
    obtain ⟨rfl,rfl⟩ := Prod.mk.inj (Option.some.inj h.2.1)
    have hl := fun rect => ihl h.2.2.1 (show l.height ≤ n by omega) rect
    have hr := fun rect => ihr h.2.2.2 (show r.height ≤ n by omega) rect
    rw [Cut.boxes,box_first,box_second]
    cases o with
    | horizontal =>
      simp only [Arena.computeBounds,key_node,show nodes.lookup k = _ from h.1,List.map_append,
        hl,hr]
      rfl
    | vertical =>
      simp only [Arena.computeBounds,key_node,show nodes.lookup k = _ from h.1,List.map_append,
        hl,hr]
      rfl

/-- `pane_bounds` subdivides the unit square by the cuts of the tree. -/
theorem Shape.paneBounds_eq {s : SplitTree ℚ} {t : NodeTree ℚ} (h : Shape s t)
    {c : Cut Orientation ℚ PaneId} (hc : Drawn t c) :
    s.paneBounds.map (Prod.map id Rect.box) = c.boxes unitSquare := by
  rw [SplitTree.paneBounds,h.root]
  refine (computeBounds_eq hc h.rep h.height_le_fuel _).trans (congrArg c.boxes ?_)
  unfold Rect.box unitSquare
  congr 1 <;> (funext i; cases i <;> rfl)

def Rect.Inside (r : Rect ℚ) (px py : ℚ) : Prop :=
  (r.x < px ∧ px < r.x+r.w) ∧ r.y < py ∧ py < r.y+r.h

theorem Rect.inside_box {r : Rect ℚ} {px py : ℚ} (h : r.Inside px py) :
    r.box.Inside (fun | .horizontal => px | .vertical => py) := by
  intro o
  cases o
  · exact h.1
  · exact h.2

theorem SplitTree.Vacant.paneBounds {s : SplitTree ℚ} (h : s.Vacant) : s.paneBounds = [] := by
  rw [SplitTree.paneBounds,h.root]

theorem Shape.map_fst_paneBounds {s : SplitTree ℚ} {t : NodeTree ℚ} (h : Shape s t) :
    s.paneBounds.map Prod.fst = treePanes t := by
  rw [SplitTree.paneBounds,h.root]
  exact SplitTree.computeBounds_panes h.rep h.height_le_fuel _

theorem Shape.mem_boxes {s : SplitTree ℚ} {t : NodeTree ℚ} (h : Shape s t)
    {c : Cut Orientation ℚ PaneId} (hc : Drawn t c) {b : PaneId × Rect ℚ}
    (hb : b ∈ s.paneBounds) : (b.1,b.2.box) ∈ c.boxes unitSquare := by
  rw [← h.paneBounds_eq hc]
  exact List.mem_map_of_mem (f := Prod.map id Rect.box) hb

/-- The rectangles belong to the panes in order, are not empty and stay within the window. -/
theorem paneBounds_spec {s : SplitTree ℚ} (h : RepInv s)
    (hr : s.Ratios (fun x => 0 < x ∧ x < 1)) :
    s.paneBounds.map Prod.fst = s.panes ∧
    ∀ b ∈ s.paneBounds, (0 < b.2.w ∧ 0 < b.2.h) ∧ (0 ≤ b.2.x ∧ b.2.x+b.2.w ≤ 1) ∧
      0 ≤ b.2.y ∧ b.2.y+b.2.h ≤ 1 := by
  rcases h.wellFormed with hv | ⟨t,ht⟩
  · rw [hv.paneBounds,hv.panes]
    simp
  have hs := ht.shape
  obtain ⟨c,hc⟩ := exists_drawn hs.rep
  have hproper := hc.proper hs.rep hr
  refine ⟨by rw [hs.map_fst_paneBounds,hs.panes_eq],fun b hb => ?_⟩
  have hpos := Cut.pos_boxes hproper pos_unitSquare _ (hs.mem_boxes hc hb)
  have hin := Cut.within_boxes hproper pos_unitSquare _ (hs.mem_boxes hc hb)
  have hsum : unitSquare.hi = fun _ => 1 := by funext o; simp [Box.hi,unitSquare]
  simp only [Box.Within,hsum] at hin
  exact ⟨⟨hpos .horizontal,hpos .vertical⟩,hin .horizontal,hin .vertical⟩

/-- The rectangles of the panes tile the unit square. -/
theorem paneBounds_tiles {s : SplitTree ℚ} (h : RepInv s)
    (hr : s.Ratios (fun x => 0 < x ∧ x < 1)) :
    s.paneBounds.map Prod.fst = s.panes ∧ s.panes.Nodup ∧
    (∀ b ∈ s.paneBounds, (0 < b.2.w ∧ 0 < b.2.h) ∧ (0 ≤ b.2.x ∧ b.2.x+b.2.w ≤ 1) ∧
      0 ≤ b.2.y ∧ b.2.y+b.2.h ≤ 1) ∧
    s.paneBounds.Pairwise (fun b d => ∀ px py, ¬ (b.2.Inside px py ∧ d.2.Inside px py)) ∧
    (s.panes ≠ [] → (s.paneBounds.map (fun b => b.2.w*b.2.h)).sum = 1) := by
  obtain ⟨hfst,hin⟩ := paneBounds_spec h hr
  refine ⟨hfst,h.panes_nodup,hin,?_⟩
  rcases h.wellFormed with hv | ⟨t,ht⟩
  · rw [hv.paneBounds,hv.panes]
    simp
  have hs := ht.shape
  obtain ⟨c,hc⟩ := exists_drawn hs.rep
  refine ⟨?_,fun _ => ?_⟩
  · have hapart := Cut.apart_boxes (hc.proper hs.rep hr) pos_unitSquare
    rw [← hs.paneBounds_eq hc,List.pairwise_map] at hapart
    refine hapart.imp (fun hab px py hin => ?_)
    exact hab.not_inside _ ⟨Rect.inside_box hin.1,Rect.inside_box hin.2⟩
  · have hsum := c.sum_volume_boxes unitSquare
    rw [← hs.paneBounds_eq hc,List.map_map,volume_unitSquare] at hsum
    rw [← hsum]
    congr 1
    exact List.map_congr_left (fun b _ => (Rect.volume_box b.2).symm)

/-- Two panes side by side, the left one a third of the window. -/
theorem paneBounds_tiles_pair :
    (((SplitTree.newWithPane 1 : SplitTree ℚ).split 1 2 .horizontal).2.setRatio 2 (1/3)).panes ≠ [] ∧
    ((((SplitTree.newWithPane 1 : SplitTree ℚ).split 1 2 .horizontal).2.setRatio 2
      (1/3)).paneBounds.map (fun b => b.2.w*b.2.h)).sum = 1 := by
  have h : RepInv (((SplitTree.newWithPane 1 : SplitTree ℚ).split 1 2 .horizontal).2.setRatio 2
      (1/3)) := repInv_of_built (.setRatio 2 _ (.split 1 2 _ (.newWithPane 1) (by decide)))
  have hne : (((SplitTree.newWithPane 1 : SplitTree ℚ).split 1 2 .horizontal).2.setRatio 2
      (1/3)).panes ≠ [] := by decide
  have hr : (((SplitTree.newWithPane 1 : SplitTree ℚ).split 1 2 .horizontal).2.setRatio 2
      (1/3)).Ratios (fun x => 0 < x ∧ x < 1) := by
    refine .setRatio (.splitAt (.newWithPane 1) ?_ false 1 2 .horizontal) 2 ?_
    · show (0 : ℚ) < 1/2 ∧ (1/2 : ℚ) < 1
      norm_num
    · norm_num
  exact ⟨hne,(paneBounds_tiles h hr).2.2.2.2 hne⟩

/-- The empty tree has no pane, and no area. -/
theorem empty_tree_without_area :
    RepInv (SplitTree.new : SplitTree ℚ) ∧
    (SplitTree.new : SplitTree ℚ).Ratios (fun x => 0 < x ∧ x < 1) ∧
    ((SplitTree.new : SplitTree ℚ).paneBounds.map (fun b => b.2.w*b.2.h)).sum ≠ 1 := by
  refine ⟨repInv_of_built .new,fun k n hk => ?_,by simp [SplitTree.paneBounds,SplitTree.new]⟩
  simp [SplitTree.new] at hk

end Limux
