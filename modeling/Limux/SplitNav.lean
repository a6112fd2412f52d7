import Limux.SplitBounds
import Mathlib.Data.List.MinMax

/-! Directional navigation in exact arithmetic: which pane `navigate_directional`
selects, and when that pane shares a stretch of the edge. -/
namespace Limux

open KeyTree

deriving instance DecidableEq for Rect

/-- `r` lies beyond the edge of `f`, without the tolerance of `beyond`. -/
def Rect.Past (f r : Rect ℚ) : Direction → Prop
  | .left => r.x+r.w ≤ f.x
  | .right => f.x+f.w ≤ r.x
  | .up => r.y+r.h ≤ f.y
  | .down => f.y+f.h ≤ r.y

/-- The edge of `f` in the direction is not on the border of the window. -/
def Rect.OffBorder (f : Rect ℚ) : Direction → Prop
  | .left => 0 < f.x
  | .right => f.x+f.w < 1
  | .up => 0 < f.y
  | .down => f.y+f.h < 1

/-- The two rectangles have a stretch of the axis across the direction in common. -/
def Rect.Shares (f r : Rect ℚ) : Direction → Prop
  | .left | .right => max f.y r.y < min (f.y+f.h) (r.y+r.h)
  | .up | .down => max f.x r.x < min (f.x+f.w) (r.x+r.w)

instance (f r : Rect ℚ) (d : Direction) : Decidable (f.Past r d) := by
  cases d <;> exact inferInstanceAs (Decidable (_ ≤ _))

instance (f r : Rect ℚ) (d : Direction) : Decidable (f.Shares r d) := by
  cases d <;> exact inferInstanceAs (Decidable (_ < _))

/-- Wider and higher than the tolerance. -/
def Rect.Broad (r : Rect ℚ) : Prop := 1/1000 < r.w ∧ 1/1000 < r.h

/-- The other panes beyond the edge of `f`, up to the tolerance. -/
def SplitTree.candidates (s : SplitTree ℚ) (focused : PaneId) (f : Rect ℚ) (d : Direction) :
    List (PaneId × Rect ℚ) :=
  s.paneBounds.filter (fun c => c.1 ≠ focused && f.beyond c.2 d)

theorem foldl_navStep (focused : PaneId) (f : Rect ℚ) (d : Direction)
    (cs : List (PaneId × Rect ℚ)) :
    cs.foldl (navStep focused f d) none =
      ((cs.filter (fun c => c.1 ≠ focused && f.beyond c.2 d)).argmin
        (fun c => f.navDist c.2 d)).map (fun c => (c.1,f.navDist c.2 d)) := by
  suffices h : ∀ best : Option (PaneId × Rect ℚ),
      cs.foldl (navStep focused f d) (best.map (fun c => (c.1,f.navDist c.2 d))) =
        ((cs.filter (fun c => c.1 ≠ focused && f.beyond c.2 d)).foldl
          (List.argAux (fun b c => f.navDist b.2 d < f.navDist c.2 d)) best).map
          (fun c => (c.1,f.navDist c.2 d)) from h none
  induction cs with
  | nil => exact fun best => rfl
  | cons c cs ih =>
    intro best
    by_cases hc : c.1 = focused
    · rw [List.foldl_cons,List.filter_cons_of_neg (by simp [hc]),← ih best]
      simp [navStep,hc]
    · by_cases hb : f.beyond c.2 d = true
      · rw [List.foldl_cons,List.filter_cons_of_pos (by simp [hc,hb]),List.foldl_cons,← ih]
        congr 1
        cases best with
        | none => simp [navStep,hc,hb,List.argAux]
        | some b =>
          by_cases hlt : f.navDist c.2 d < f.navDist b.2 d
          · simp [navStep,hc,hb,List.argAux,F64Ops.lt,hlt]
          · simp [navStep,hc,hb,List.argAux,F64Ops.lt,hlt]
      · rw [List.foldl_cons,List.filter_cons_of_neg (by simp [hb]),← ih best]
        simp [navStep,hc,hb]

/-- A first least element has a property exactly if each element without it is
beaten by one with it: by less, or by as much and earlier. -/
theorem argmin_has_iff {A : Type} [DecidableEq A] {l : List A} {dist : A → ℚ} {b : A}
    (hb : l.argmin dist = some b) (P : A → Prop) :
    P b ↔ ∀ c ∈ l, ¬ P c → ∃ c' ∈ l, P c' ∧
      (dist c' < dist c ∨ dist c' = dist c ∧ l.idxOf c' < l.idxOf c) := by
  obtain ⟨hmem,hle,hfirst⟩ := List.argmin_eq_some_iff.mp hb
  constructor
  · intro hP c hc hnot
    refine ⟨b,hmem,hP,?_⟩
    rcases (hle c hc).lt_or_eq with hlt | heq
    · exact .inl hlt
    · refine .inr ⟨heq,lt_of_le_of_ne (hfirst c hc heq.ge) (fun hidx => hnot ?_)⟩
      exact (List.idxOf_inj hmem).mp hidx ▸ hP
  · intro hall
    by_contra hnot
    obtain ⟨c',hc',-,hlt | ⟨heq,hidx⟩⟩ := hall b hmem hnot
    · exact absurd (hle c' hc') (not_le.mpr hlt)
    · exact absurd (hfirst c' hc' heq.le) (not_le.mpr hidx)

namespace SplitTree

variable {s : SplitTree ℚ} {p : PaneId} {f : Rect ℚ}

theorem navigateDirectional_argmin (hn : (s.paneBounds.map Prod.fst).Nodup)
    (hp : s.focused = some p) (hf : (p,f) ∈ s.paneBounds) (d : Direction) :
    (s.navigateDirectional d).1 =
      ((s.candidates p f d).argmin (fun c => f.navDist c.2 d)).map Prod.fst := by
  have hfind : s.paneBounds.find? (fun c => c.1 = p) = some (p,f) := by
    cases hx : s.paneBounds.find? (fun c => c.1 = p) with
    | none => exact absurd (List.find?_eq_none.mp hx _ hf) (by simp)
    | some x =>
      have hxp : x.1 = p := by simpa using List.find?_some hx
      rw [List.inj_on_of_nodup_map hn (List.mem_of_find?_eq_some hx) hf hxp]
  have hfold := foldl_navStep p f d s.paneBounds
  simp only [navigateDirectional,hp,hfind]
  rw [hfold]
  show _ = ((s.paneBounds.filter _).argmin _).map Prod.fst
  cases (s.paneBounds.filter (fun c => c.1 ≠ p && f.beyond c.2 d)).argmin
    (fun c => f.navDist c.2 d) with
  | none => rfl
  | some b => rfl

end SplitTree

theorem Rect.Past.candidate {f r : Rect ℚ} {d : Direction} (h : f.Past r d) (hf : f.Broad) :
    f.beyond r d = true ∧ r ≠ f := by
  obtain ⟨hw,hh⟩ := hf
  cases d <;>
    (refine ⟨decide_eq_true ?_,?_⟩
     · simp only [Rect.Past,F64Ops.add,F64Ops.sub,F64Ops.lit,id] at h ⊢; linarith
     · rintro rfl; simp only [Rect.Past] at h; linarith)

/-- A broad pane beyond the edge keeps the edge off the border of the window. -/
theorem Rect.off_border {f r : Rect ℚ} {d : Direction} (h : f.beyond r d = true) (hr : r.Broad)
    (hx : 0 ≤ r.x ∧ r.x+r.w ≤ 1) (hy : 0 ≤ r.y ∧ r.y+r.h ≤ 1) : f.OffBorder d := by
  obtain ⟨hw,hh⟩ := hr
  cases d <;>
    (replace h := of_decide_eq_true h
     simp only [F64Ops.add,F64Ops.sub,F64Ops.lit,id,Rect.OffBorder] at h ⊢
     linarith)

theorem Shape.exists_past {s : SplitTree ℚ} {t : NodeTree ℚ} (h : Shape s t)
    {c : Cut Orientation ℚ PaneId} (hc : Drawn t c) (hproper : c.Proper) {p : PaneId}
    {f : Rect ℚ} (hf : (p,f) ∈ s.paneBounds) {d : Direction} (hoff : f.OffBorder d) :
    ∃ b ∈ s.paneBounds, f.Past b.2 d := by
  have hbox := h.mem_boxes hc hf
  have hpull : ∀ q ∈ c.boxes unitSquare, ∃ b ∈ s.paneBounds, b.2.box = q.2 := by
    intro q hq
    rw [← h.paneBounds_eq hc] at hq
    obtain ⟨b,hb,rfl⟩ := List.mem_map.mp hq
    exact ⟨b,hb,rfl⟩
  have hbelow : ∀ i, 0 < f.box.lo i → ∃ b ∈ s.paneBounds, b.2.box.hi i ≤ f.box.lo i := by
    intro i hi
    obtain ⟨q,hq,hle⟩ := Cut.exists_below hproper pos_unitSquare i _ hbox hi
    obtain ⟨b,hb,he⟩ := hpull q hq
    exact ⟨b,hb,he ▸ hle⟩
  have habove : ∀ i, f.box.hi i < 1 → ∃ b ∈ s.paneBounds, f.box.hi i ≤ b.2.box.lo i := by
    intro i hi
    obtain ⟨q,hq,hle⟩ := Cut.exists_above hproper pos_unitSquare i _ hbox
      (by simpa [Box.hi,unitSquare] using hi)
    obtain ⟨b,hb,he⟩ := hpull q hq
    exact ⟨b,hb,he ▸ hle⟩
  cases d with
  | left => exact hbelow .horizontal hoff
  | right => exact habove .horizontal hoff
  | up => exact hbelow .vertical hoff
  | down => exact habove .vertical hoff

/-- `navigate_directional` goes somewhere exactly if a pane lies beyond the edge, and
then to the nearest candidate by centre distance. That one shares a stretch of the
edge exactly if every candidate without one is beaten by a candidate with one. -/
theorem navigateDirectional_nearest {s : SplitTree ℚ} (h : RepInv s)
    (hr : s.Ratios (fun x => 1/20 ≤ x ∧ x ≤ 19/20)) (hb : ∀ b ∈ s.paneBounds, b.2.Broad)
    {p : PaneId} {f : Rect ℚ} (hp : s.focused = some p) (hf : (p,f) ∈ s.paneBounds)
    (d : Direction) :
    ((s.navigateDirectional d).1.isSome ↔ ∃ b ∈ s.paneBounds, f.Past b.2 d) ∧
    ∀ q, (s.navigateDirectional d).1 = some q → ∃ r, (q,r) ∈ s.candidates p f d ∧
      (∀ c ∈ s.candidates p f d, f.navDist r d ≤ f.navDist c.2 d) ∧
      (f.Shares r d ↔ ∀ c ∈ s.candidates p f d, ¬ f.Shares c.2 d →
        ∃ c' ∈ s.candidates p f d, f.Shares c'.2 d ∧
          (f.navDist c'.2 d < f.navDist c.2 d ∨ f.navDist c'.2 d = f.navDist c.2 d ∧
            (s.candidates p f d).idxOf c' < (s.candidates p f d).idxOf c)) := by
  have hr' : s.Ratios (fun x => 0 < x ∧ x < 1) := by
    intro k n hk
    have hn := hr k n hk
    cases n with
    | leaf q => trivial
    | split o ratio a b => exact ⟨by linarith [hn.1],by linarith [hn.2]⟩
  have htiles := paneBounds_spec h hr'
  obtain ⟨t,ht⟩ : ∃ t, Live s t := by
    rcases h.wellFormed with hv | ht
    · rw [hv.focused] at hp
      cases hp
    · exact ht
  obtain ⟨c,hc⟩ := exists_drawn ht.shape.rep
  have hn : (s.paneBounds.map Prod.fst).Nodup := by
    rw [htiles.1]
    exact h.panes_nodup
  rw [SplitTree.navigateDirectional_argmin hn hp hf d]
  refine ⟨?_,fun q hq => ?_⟩
  · rw [Option.isSome_map,Option.isSome_iff_ne_none,ne_eq,List.argmin_eq_none]
    constructor
    · intro hne
      obtain ⟨b,hbc⟩ := List.exists_mem_of_ne_nil _ hne
      obtain ⟨hbb,hcand⟩ := List.mem_filter.mp hbc
      rw [Bool.and_eq_true] at hcand
      obtain ⟨-,hx,hy⟩ := htiles.2 b hbb
      exact ht.shape.exists_past hc (hc.proper ht.shape.rep hr') hf
        (Rect.off_border hcand.2 (hb b hbb) hx hy)
    · rintro ⟨b,hbb,hpast⟩ hnil
      obtain ⟨hcand,hne⟩ := hpast.candidate (hb _ hf)
      have hbp : b.1 ≠ p := fun he =>
        hne (congrArg Prod.snd (List.inj_on_of_nodup_map hn hbb hf he))
      have hmem : b ∈ s.candidates p f d := List.mem_filter.mpr ⟨hbb,by simp [hbp,hcand]⟩
      rw [hnil] at hmem
      cases hmem
  · obtain ⟨b,hbm,rfl⟩ := Option.map_eq_some_iff.mp hq
    obtain ⟨hmem,hle,-⟩ := List.argmin_eq_some_iff.mp hbm
    have hiff := argmin_has_iff hbm (fun c => f.Shares c.2 d)
    rw [lawful_beq_subsingleton instBEqOfDecidableEq instBEqProd] at hiff
    exact ⟨b.2,hmem,hle,hiff⟩

def diagonalTree : SplitTree ℚ :=
  (((((((SplitTree.newWithPane 1 : SplitTree ℚ).split 1 4 .vertical).2.split 1 2
    .horizontal).2.split 2 3 .horizontal).2.split 4 5 .horizontal).2).setFocused 4)

theorem repInv_diagonalTree : RepInv diagonalTree :=
  repInv_of_built (.setFocused 4 (.split 4 5 _ (.split 2 3 _ (.split 1 2 _ (.split 1 4 _
    (.newWithPane 1) (by decide)) (by decide)) (by decide +kernel)) (by decide +kernel))
    (by decide +kernel))

theorem ratios_diagonalTree : diagonalTree.Ratios (fun x => 1/20 ≤ x ∧ x ≤ 19/20) := by
  have hhalf : (1/20 : ℚ) ≤ (F64Ops.lit (1/2) : ℚ) ∧ (F64Ops.lit (1/2) : ℚ) ≤ 19/20 := by
    decide +kernel
  exact .setFocused (.splitAt (.splitAt (.splitAt (.splitAt (.newWithPane 1) hhalf false 1 4
    .vertical) hhalf false 1 2 .horizontal) hhalf false 2 3 .horizontal) hhalf false 4 5
    .horizontal) 4

theorem broad_diagonalTree : ∀ b ∈ diagonalTree.paneBounds, b.2.Broad := by
  unfold Rect.Broad
  decide +kernel

/-- From the lower left pane to the left there is nothing, and no move. -/
theorem navigateDirectional_nearest_left :
    ((diagonalTree.navigateDirectional .left).1.isSome ↔
      ∃ b ∈ diagonalTree.paneBounds, (⟨0,1/2,1/2,1/2⟩ : Rect ℚ).Past b.2 .left) :=
  (navigateDirectional_nearest repInv_diagonalTree ratios_diagonalTree broad_diagonalTree rfl
    (by decide +kernel) .left).1

/-- From the lower left pane to the right the focus jumps up to pane 2, past pane 5
beside it. -/
theorem navigateDirectional_diagonal :
    RepInv diagonalTree ∧ diagonalTree.Ratios (fun x => 1/20 ≤ x ∧ x ≤ 19/20) ∧
    (∀ b ∈ diagonalTree.paneBounds, b.2.Broad) ∧ diagonalTree.focused = some 4 ∧
    ∃ f r r', (4,f) ∈ diagonalTree.paneBounds ∧ (2,r) ∈ diagonalTree.paneBounds ∧
      (5,r') ∈ diagonalTree.paneBounds ∧
      (diagonalTree.navigateDirectional .right).1 = some 2 ∧ ¬ f.Shares r .right ∧
      f.Past r' .right ∧ f.Shares r' .right := by
  refine ⟨repInv_diagonalTree,ratios_diagonalTree,broad_diagonalTree,rfl,⟨0,1/2,1/2,1/2⟩,
    ⟨1/2,0,1/4,1/2⟩,⟨1/2,1/2,1/2,1/2⟩,?_⟩
  decide +kernel

end Limux
