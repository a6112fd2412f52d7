import Mathlib.Algebra.BigOperators.Group.Finset.Piecewise
import Mathlib.Algebra.BigOperators.Group.List.Basic
import Mathlib.Algebra.Order.BigOperators.Ring.Finset
import Mathlib.Algebra.Order.Field.Basic
import Mathlib.Tactic.FieldSimp
import Mathlib.Tactic.Linarith
import Mathlib.Tactic.Ring

/-! Recursive subdivision of a box by cuts across one axis at a time, in any
dimension. The pieces of a box are apart, stay within it and have its volume;
an evenly cut comb has pieces of equal volume, and no other tree cut by the
same ratios has. -/

/-- An axis-parallel box: a corner and a size along each axis. -/
structure Box (ι F : Type) where
  lo : ι → F
  size : ι → F

/-- A tree of cuts: each one across an axis, at a ratio of the size. -/
inductive Cut (ι F A : Type)
  | tile (a : A)
  | cut (axis : ι) (ratio : F) (first second : Cut ι F A)

namespace Box

variable {ι F : Type} [Field F]

def hi (b : Box ι F) (i : ι) : F := b.lo i + b.size i

/-- The volume; the area of a box with two axes. -/
def volume [Fintype ι] (b : Box ι F) : F := ∏ i, b.size i

variable [DecidableEq ι]

def first (b : Box ι F) (i : ι) (ratio : F) : Box ι F :=
  ⟨b.lo,Function.update b.size i (b.size i * ratio)⟩

def second (b : Box ι F) (i : ι) (ratio : F) : Box ι F :=
  ⟨Function.update b.lo i (b.lo i + b.size i * ratio),
    Function.update b.size i (b.size i - b.size i * ratio)⟩

theorem hi_first (b : Box ι F) (i : ι) (ratio : F) (j : ι) :
    (b.first i ratio).hi j = if j = i then b.lo i + b.size i * ratio else b.hi j := by
  by_cases h : j = i
  · subst h; simp [hi,first]
  · simp [hi,first,h]

theorem lo_second (b : Box ι F) (i : ι) (ratio : F) (j : ι) :
    (b.second i ratio).lo j = if j = i then b.lo i + b.size i * ratio else b.lo j := by
  by_cases h : j = i
  · subst h; simp [second]
  · simp [second,h]

@[simp] theorem hi_second (b : Box ι F) (i : ι) (ratio : F) : (b.second i ratio).hi = b.hi := by
  funext j
  by_cases h : j = i
  · subst h; simp only [hi,second,Function.update_self]; ring
  · simp [hi,second,h]

@[simp] theorem lo_first (b : Box ι F) (i : ι) (ratio : F) : (b.first i ratio).lo = b.lo := rfl

section Volume

variable [Fintype ι]

theorem volume_first (b : Box ι F) (i : ι) (ratio : F) :
    (b.first i ratio).volume = b.volume * ratio := by
  have h := Finset.prod_update_of_mem (Finset.mem_univ i) b.size (b.size i)
  rw [Function.update_eq_self] at h
  rw [volume,first,Finset.prod_update_of_mem (Finset.mem_univ i),volume,h]
  ring

theorem volume_second (b : Box ι F) (i : ι) (ratio : F) :
    (b.second i ratio).volume = b.volume * (1 - ratio) := by
  have h := Finset.prod_update_of_mem (Finset.mem_univ i) b.size (b.size i)
  rw [Function.update_eq_self] at h
  rw [volume,second,Finset.prod_update_of_mem (Finset.mem_univ i),volume,h]
  ring

end Volume

variable [LinearOrder F]

/-- Every side has positive length. -/
def Pos (b : Box ι F) : Prop := ∀ i, 0 < b.size i

def Within (a b : Box ι F) : Prop := ∀ i, b.lo i ≤ a.lo i ∧ a.hi i ≤ b.hi i

def Apart (a b : Box ι F) : Prop := ∃ i, a.hi i ≤ b.lo i ∨ b.hi i ≤ a.lo i

/-- The point lies strictly inside. -/
def Inside (b : Box ι F) (p : ι → F) : Prop := ∀ i, b.lo i < p i ∧ p i < b.hi i

omit [DecidableEq ι] in
theorem Within.refl (b : Box ι F) : Within b b := fun _ => ⟨le_rfl,le_rfl⟩

omit [DecidableEq ι] in
theorem Within.trans {a b c : Box ι F} (h : Within a b) (h' : Within b c) : Within a c :=
  fun i => ⟨(h' i).1.trans (h i).1,(h i).2.trans (h' i).2⟩

omit [DecidableEq ι] in
theorem Apart.not_inside {a b : Box ι F} (h : Apart a b) (p : ι → F) :
    ¬ (a.Inside p ∧ b.Inside p) := by
  rintro ⟨ha,hb⟩
  obtain ⟨i,h | h⟩ := h
  · exact absurd ((ha i).2.trans_le h) (lt_asymm (hb i).1)
  · exact absurd ((hb i).2.trans_le h) (lt_asymm (ha i).1)

variable [IsStrictOrderedRing F] {b : Box ι F} {ratio : F}

theorem pos_first (h : b.Pos) (i : ι) (h0 : 0 < ratio) : (b.first i ratio).Pos := by
  intro j
  by_cases hj : j = i
  · subst hj
    simpa [first] using mul_pos (h j) h0
  · simpa [first,hj] using h j

theorem pos_second (h : b.Pos) (i : ι) (h1 : ratio < 1) : (b.second i ratio).Pos := by
  intro j
  by_cases hj : j = i
  · subst hj
    simp only [second,Function.update_self]
    nlinarith [h j]
  · simpa [second,hj] using h j

theorem within_first (h : b.Pos) (i : ι) (h1 : ratio < 1) : Within (b.first i ratio) b := by
  intro j
  refine ⟨le_rfl,?_⟩
  rw [hi_first]
  split
  · rename_i hj
    subst hj
    simp only [hi]
    nlinarith [h j]
  · exact le_rfl

theorem within_second (h : b.Pos) (i : ι) (h0 : 0 < ratio) : Within (b.second i ratio) b := by
  intro j
  refine ⟨?_,by rw [hi_second]⟩
  rw [lo_second]
  split
  · rename_i hj
    subst hj
    nlinarith [h j]
  · exact le_rfl

end Box

namespace Cut

variable {ι F A : Type}

def tiles : Cut ι F A → List A
  | tile a => [a]
  | cut _ _ l r => l.tiles ++ r.tiles

theorem tiles_ne_nil (c : Cut ι F A) : c.tiles ≠ [] := by
  induction c with
  | tile a => simp [tiles]
  | cut i ratio l r ihl _ => simp [tiles,ihl]

theorem tiles_length_pos (c : Cut ι F A) : 0 < c.tiles.length :=
  List.length_pos_iff.mpr c.tiles_ne_nil

/-- Every cut is strictly between the ends. -/
def Proper [Zero F] [One F] [LT F] : Cut ι F A → Prop
  | tile _ => True
  | cut _ ratio l r => (0 < ratio ∧ ratio < 1) ∧ l.Proper ∧ r.Proper

def Comb : Cut ι F A → Prop
  | tile _ => True
  | cut _ _ l r => (∃ a, l = tile a) ∧ r.Comb

variable [Field F]

/-- The ratios `1/n, 1/(n-1), …, 1/2` down the second parts. -/
def even : ℕ → Cut ι F A → Cut ι F A
  | n+2, cut i _ l r => cut i (1/((n+2 : ℕ) : F)) l (even (n+1) r)
  | _, c => c

theorem tiles_even (n : ℕ) (c : Cut ι F A) : (c.even n).tiles = c.tiles := by
  induction c generalizing n with
  | tile a => rcases n with _ | _ | n <;> rfl
  | cut i ratio l r _ ihr =>
    rcases n with _ | _ | n
    · rfl
    · rfl
    · simp [even,tiles,ihr]

variable [DecidableEq ι]

/-- The pieces of a box, each with its tile. -/
def boxes : Cut ι F A → Box ι F → List (A × Box ι F)
  | tile a, b => [(a,b)]
  | cut i ratio l r, b => l.boxes (b.first i ratio) ++ r.boxes (b.second i ratio)

theorem map_fst_boxes (c : Cut ι F A) (b : Box ι F) : (c.boxes b).map Prod.fst = c.tiles := by
  induction c generalizing b with
  | tile a => rfl
  | cut i ratio l r ihl ihr => simp [boxes,tiles,ihl,ihr]

theorem exists_mem_boxes (c : Cut ι F A) (b : Box ι F) : ∃ p, p ∈ c.boxes b := by
  apply List.exists_mem_of_ne_nil
  intro h
  exact c.tiles_ne_nil (by rw [← c.map_fst_boxes b,h]; rfl)

section Volume

variable [Fintype ι]

/-- Cutting keeps the volume, at whatever ratios. -/
theorem sum_volume_boxes (c : Cut ι F A) (b : Box ι F) :
    ((c.boxes b).map (fun p => p.2.volume)).sum = b.volume := by
  induction c generalizing b with
  | tile a => simp [boxes]
  | cut i ratio l r ihl ihr =>
    simp only [boxes,List.map_append,List.sum_append,ihl,ihr,Box.volume_first,Box.volume_second]
    ring

def Even (c : Cut ι F A) (b : Box ι F) (v : F) : Prop := ∀ p ∈ c.boxes b, p.2.volume = v

theorem Even.sum {c : Cut ι F A} {b : Box ι F} {v : F} (h : c.Even b v) :
    b.volume = c.tiles.length * v := by
  rw [← c.sum_volume_boxes b,← c.map_fst_boxes b,List.length_map]
  have hc : (c.boxes b).map (fun p => p.2.volume) = (c.boxes b).map (fun _ => v) :=
    List.map_congr_left h
  rw [hc]
  simp

end Volume

section Order

variable [LinearOrder F] [IsStrictOrderedRing F]

theorem pos_boxes {c : Cut ι F A} (hc : c.Proper) {b : Box ι F} (hb : b.Pos) :
    ∀ p ∈ c.boxes b, p.2.Pos := by
  induction c generalizing b with
  | tile a => simpa [boxes] using hb
  | cut i ratio l r ihl ihr =>
    obtain ⟨⟨h0,h1⟩,hl,hr⟩ := hc
    simp only [boxes,List.mem_append]
    rintro p (hp | hp)
    · exact ihl hl (Box.pos_first hb i h0) p hp
    · exact ihr hr (Box.pos_second hb i h1) p hp

theorem within_boxes {c : Cut ι F A} (hc : c.Proper) {b : Box ι F} (hb : b.Pos) :
    ∀ p ∈ c.boxes b, p.2.Within b := by
  induction c generalizing b with
  | tile a => simpa [boxes] using Box.Within.refl b
  | cut i ratio l r ihl ihr =>
    obtain ⟨⟨h0,h1⟩,hl,hr⟩ := hc
    simp only [boxes,List.mem_append]
    rintro p (hp | hp)
    · exact (ihl hl (Box.pos_first hb i h0) p hp).trans (Box.within_first hb i h1)
    · exact (ihr hr (Box.pos_second hb i h1) p hp).trans (Box.within_second hb i h0)

/-- No two pieces overlap: the last cut they have in common keeps them apart. -/
theorem apart_boxes {c : Cut ι F A} (hc : c.Proper) {b : Box ι F} (hb : b.Pos) :
    (c.boxes b).Pairwise (fun p q => p.2.Apart q.2) := by
  induction c generalizing b with
  | tile a => simp [boxes]
  | cut i ratio l r ihl ihr =>
    obtain ⟨⟨h0,h1⟩,hl,hr⟩ := hc
    have hfirst := Box.pos_first hb i h0
    have hsecond := Box.pos_second hb i h1
    rw [boxes,List.pairwise_append]
    refine ⟨ihl hl hfirst,ihr hr hsecond,fun p hp q hq => ⟨i,.inl ?_⟩⟩
    have hp' := (within_boxes hl hfirst p hp i).2
    have hq' := (within_boxes hr hsecond q hq i).1
    rw [Box.hi_first,if_pos rfl] at hp'
    rw [Box.lo_second,if_pos rfl] at hq'
    exact hp'.trans hq'

/-- A piece that does not reach the lower end has another piece below it. -/
theorem exists_below {c : Cut ι F A} (hc : c.Proper) {b : Box ι F} (hb : b.Pos) (j : ι) :
    ∀ p ∈ c.boxes b, b.lo j < p.2.lo j → ∃ q ∈ c.boxes b, q.2.hi j ≤ p.2.lo j := by
  induction c generalizing b with
  | tile a =>
    intro p hp hlt
    obtain rfl : p = (a,b) := by simpa [boxes] using hp
    exact absurd hlt (lt_irrefl _)
  | cut i ratio l r ihl ihr =>
    obtain ⟨⟨h0,h1⟩,hl,hr⟩ := hc
    have hfirst := Box.pos_first hb i h0
    have hsecond := Box.pos_second hb i h1
    simp only [boxes,List.mem_append]
    rintro p (hp | hp) hlt
    · obtain ⟨q,hq,hle⟩ := ihl hl hfirst p hp hlt
      exact ⟨q,.inl hq,hle⟩
    · by_cases hlt' : (b.second i ratio).lo j < p.2.lo j
      · obtain ⟨q,hq,hle⟩ := ihr hr hsecond p hp hlt'
        exact ⟨q,.inr hq,hle⟩
      · -- the piece starts at the cut: all of the first part is below it
        rw [not_lt,Box.lo_second] at hlt'
        by_cases hji : j = i
        · subst hji
          obtain ⟨q,hq⟩ := l.exists_mem_boxes (b.first j ratio)
          have hq' := (within_boxes hl hfirst q hq j).2
          have hp' := (within_boxes hr hsecond p hp j).1
          rw [Box.hi_first,if_pos rfl] at hq'
          rw [Box.lo_second,if_pos rfl] at hp'
          exact ⟨q,.inl hq,hq'.trans hp'⟩
        · rw [if_neg hji] at hlt'
          exact absurd hlt (not_lt.mpr hlt')

theorem exists_above {c : Cut ι F A} (hc : c.Proper) {b : Box ι F} (hb : b.Pos) (j : ι) :
    ∀ p ∈ c.boxes b, p.2.hi j < b.hi j → ∃ q ∈ c.boxes b, p.2.hi j ≤ q.2.lo j := by
  induction c generalizing b with
  | tile a =>
    intro p hp hlt
    obtain rfl : p = (a,b) := by simpa [boxes] using hp
    exact absurd hlt (lt_irrefl _)
  | cut i ratio l r ihl ihr =>
    obtain ⟨⟨h0,h1⟩,hl,hr⟩ := hc
    have hfirst := Box.pos_first hb i h0
    have hsecond := Box.pos_second hb i h1
    simp only [boxes,List.mem_append]
    rintro p (hp | hp) hlt
    · by_cases hlt' : p.2.hi j < (b.first i ratio).hi j
      · obtain ⟨q,hq,hle⟩ := ihl hl hfirst p hp hlt'
        exact ⟨q,.inl hq,hle⟩
      · -- the piece ends at the cut: all of the second part is above it
        rw [not_lt,Box.hi_first] at hlt'
        by_cases hji : j = i
        · subst hji
          obtain ⟨q,hq⟩ := r.exists_mem_boxes (b.second j ratio)
          have hq' := (within_boxes hr hsecond q hq j).1
          have hp' := (within_boxes hl hfirst p hp j).2
          rw [Box.lo_second,if_pos rfl] at hq'
          rw [Box.hi_first,if_pos rfl] at hp'
          exact ⟨q,.inr hq,hp'.trans hq'⟩
        · rw [if_neg hji] at hlt'
          exact absurd hlt (not_lt.mpr hlt')
    · obtain ⟨q,hq,hle⟩ := ihr hr hsecond p hp (by rwa [Box.hi_second])
      exact ⟨q,.inr hq,hle⟩

variable [Fintype ι]

omit [LinearOrder F] [IsStrictOrderedRing F] in
theorem even_append {i : ι} {ratio : F} {l r : Cut ι F A} {b : Box ι F} {v : F} :
    (cut i ratio l r).Even b v ↔
      l.Even (b.first i ratio) v ∧ r.Even (b.second i ratio) v := by
  simp only [Even,boxes,List.mem_append]
  exact ⟨fun h => ⟨fun p hp => h p (.inl hp),fun p hp => h p (.inr hp)⟩,
    fun h p hp => hp.elim (h.1 p) (h.2 p)⟩

omit [Field F] [DecidableEq ι] [LinearOrder F] [IsStrictOrderedRing F] [Fintype ι] in
theorem eq_tile {c : Cut ι F A} (h : c.tiles.length = 1) : ∃ a, c = tile a := by
  cases c with
  | tile a => exact ⟨a,rfl⟩
  | cut i ratio l r =>
    have hl := l.tiles_length_pos
    have hr := r.tiles_length_pos
    simp only [tiles,List.length_append] at h
    omega

/-- A tree cut at `1/n, 1/(n-1), …` has pieces of equal volume exactly if it is a comb. -/
theorem even_iff {c : Cut ι F A} {b : Box ι F} (hb : b.volume ≠ 0) :
    (c.even c.tiles.length).Even b (b.volume / c.tiles.length) ↔ c.Comb := by
  induction c generalizing b with
  | tile a => simp [Even,even,boxes,tiles,Comb]
  | cut i ratio l r _ ihr =>
    obtain ⟨n,hn⟩ : ∃ n, l.tiles.length = n+1 := Nat.exists_eq_succ_of_ne_zero l.tiles_length_pos.ne'
    obtain ⟨m,hm⟩ : ∃ m, r.tiles.length = m+1 := Nat.exists_eq_succ_of_ne_zero r.tiles_length_pos.ne'
    have hlen : (cut i ratio l r).tiles.length = n+m+2 := by
      simp only [tiles,List.length_append,hn,hm]; omega
    have hN : ((n+m+2 : ℕ) : F) ≠ 0 := Nat.cast_ne_zero.mpr (by omega)
    have hM : ((m+1 : ℕ) : F) ≠ 0 := Nat.cast_ne_zero.mpr (by omega)
    have hfirst : (b.first i (1/((n+m+2 : ℕ) : F))).volume = b.volume/((n+m+2 : ℕ) : F) := by
      rw [Box.volume_first]; ring
    rw [hlen,show even (n+m+2) (cut i ratio l r) = cut i (1/((n+m+2 : ℕ) : F)) l
      (even (n+m+1) r) from rfl,even_append]
    -- with one tile in the first part, the second part is cut like a tree of its own
    have hrest : n = 0 → (((even (n+m+1) r).Even (b.second i (1/((n+m+2 : ℕ) : F)))
        (b.volume/((n+m+2 : ℕ) : F))) ↔ r.Comb) := by
      rintro rfl
      have hvol : (b.second i (1/((0+m+2 : ℕ) : F))).volume =
          b.volume/((0+m+2 : ℕ) : F)*((m+1 : ℕ) : F) := by
        rw [Box.volume_second]
        field_simp
        push_cast
        ring
      have hne : (b.second i (1/((0+m+2 : ℕ) : F))).volume ≠ 0 := by
        rw [hvol]
        exact mul_ne_zero (div_ne_zero hb hN) hM
      rw [← ihr hne,hm,hvol,mul_div_cancel_right₀ _ hM,show 0+m+1 = m+1 by omega]
    constructor
    · rintro ⟨hl,hr⟩
      have hsum := hl.sum
      rw [hfirst,hn] at hsum
      have hone : ((n+1 : ℕ) : F) = 1 := by
        have hv : b.volume/((n+m+2 : ℕ) : F) ≠ 0 := div_ne_zero hb hN
        exact mul_right_cancel₀ hv (hsum.symm.trans (one_mul _).symm)
      have hn0 : n = 0 := by
        have := Nat.cast_eq_one.mp hone
        omega
      exact ⟨eq_tile (by rw [hn,hn0]),(hrest hn0).mp hr⟩
    · rintro ⟨⟨a,rfl⟩,hr⟩
      have hn0 : n = 0 := by
        simp only [tiles,List.length_singleton] at hn
        omega
      refine ⟨fun p hp => ?_,(hrest hn0).mpr hr⟩
      simp only [boxes,List.mem_singleton] at hp
      rw [hp]
      exact hfirst

end Order

end Cut
