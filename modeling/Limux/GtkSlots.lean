import Limux.Widgets

/-! Widgets as a graph of slots: which child a paned shows on which side. Parents and slots
agree, so that what an operation does is said by what it does to the slots. -/
namespace Limux

namespace Gtk

def orient (g : Gtk) (x : WidgetId) : Option Orientation :=
  (g.paneds.lookup x).map Paned.orientation

/-- The parents are those of the slots, no widget is in two slots, and all are in use. -/
structure Ok (g : Gtk) : Prop where
  parent_iff : ∀ c x, g.parent c = some x ↔ ∃ side, g.child x side = some c
  one : ∀ x side y s c, g.child x side = some c → g.child y s = some c → x = y ∧ side = s
  paned_lt : ∀ x, g.orient x ≠ none → x < g.next
  child_lt : ∀ x side c, g.child x side = some c → c < g.next

variable {g : Gtk}

theorem ok_empty : Gtk.empty.Ok := by
  refine ⟨fun c x => ⟨fun h => ?_,fun ⟨side,h⟩ => ?_⟩,fun x side y s c h => ?_,fun x h => ?_,
    fun x side c h => ?_⟩
  · cases h
  · cases h
  · cases h
  · exact absurd rfl h
  · cases h

theorem child_of_orient {x : WidgetId} (h : g.orient x = none) (side : Bool) :
    g.child x side = none := by
  have hx : g.paneds.lookup x = none := Option.map_eq_none_iff.mp h
  rw [child,hx,Option.bind_none]

theorem orient_of_child {x c : WidgetId} {side : Bool} (h : g.child x side = some c) :
    g.orient x ≠ none := by
  intro hx
  rw [child_of_orient hx] at h
  cases h

theorem parent_eq_none (h : g.Ok) {c : WidgetId} :
    g.parent c = none ↔ ∀ x side, g.child x side ≠ some c := by
  constructor
  · intro hc x side hx
    rw [(h.parent_iff c x).mpr ⟨side,hx⟩] at hc
    cases hc
  · intro hc
    cases hp : g.parent c with
    | none => rfl
    | some x =>
      obtain ⟨side,hx⟩ := (h.parent_iff c x).mp hp
      exact absurd hx (hc x side)

@[simp] theorem orient_setChild (g : Gtk) (p : WidgetId) (side : Bool) (c : Option WidgetId) :
    (g.setChild p side c).orient = g.orient := by
  funext x
  unfold setChild
  cases hp : g.paneds.lookup p with
  | none => rfl
  | some w =>
    dsimp only
    split
    · rfl
    · simp only [orient,HashMap.lookup_insert_ite]
      split
      · rename_i hx
        rw [hx,hp,Option.map_some,Option.map_some,Paned.orientation_setSide]
      · rfl

@[simp] theorem next_setChild (g : Gtk) (p : WidgetId) (side : Bool) (c : Option WidgetId) :
    (g.setChild p side c).next = g.next := by
  unfold setChild
  cases g.paneds.lookup p with
  | none => rfl
  | some w =>
    dsimp only
    split <;> rfl

theorem child_setChild_none (g : Gtk) (p : WidgetId) (side : Bool) (x : WidgetId) (s : Bool) :
    (g.setChild p side none).child x s = if x = p ∧ s = side then none else g.child x s := by
  unfold setChild
  cases hp : g.paneds.lookup p with
  | none =>
    dsimp only
    split
    · rename_i hx
      rw [hx.1,child,hp,Option.bind_none]
    · rfl
  | some w =>
    by_cases hw : w.child side = none
    · simp only [hw,true_or,if_true]
      split
      · rename_i hx
        rw [hx.1,hx.2,child,hp,Option.bind_some,hw]
      · rfl
    · simp only [hw,Option.any_none,Bool.false_eq_true,or_self,if_false,child,
        HashMap.lookup_insert_ite]
      by_cases hx : x = p
      · subst hx
        simp [hp]
      · simp [hx]

theorem ok_setChild_none (h : g.Ok) (p : WidgetId) (side : Bool) :
    (g.setChild p side none).Ok := by
  refine ⟨fun c x => ?_,fun x s y s' c hx hy => ?_,?_,fun x s c hx => ?_⟩
  · have hpar : (g.setChild p side none).parent c =
        if g.child p side = some c then none else g.parent c := by
      unfold setChild
      cases hp : g.paneds.lookup p with
      | none => simp [child,hp]
      | some w =>
        cases hw : w.child side with
        | none => simp [child,hp,hw]
        | some old =>
          have hold : g.child p side = some old := by rw [child,hp,Option.bind_some,hw]
          simp only [hw,reduceCtorEq,Option.any_none,Bool.false_eq_true,or_self,if_false,hold]
          simp only [parent,HashMap.lookup_erase_ite,Option.some.injEq,eq_comm]
    rw [hpar]
    simp only [child_setChild_none]
    split
    · rename_i hc
      simp only [reduceCtorEq,false_iff,not_exists]
      intro s hx
      split at hx
      · cases hx
      · rename_i hne
        exact hne (h.one x s p side c hx hc)
    · rename_i hc
      rw [h.parent_iff]
      refine ⟨fun hs => ?_,fun hs => ?_⟩
      · obtain ⟨s,hs⟩ := hs
        refine ⟨s,?_⟩
        rw [if_neg,hs]
        rintro ⟨rfl,rfl⟩
        exact hc hs
      · obtain ⟨s,hs⟩ := hs
        refine ⟨s,?_⟩
        split at hs
        · cases hs
        · exact hs
  · rw [child_setChild_none] at hx hy
    split at hx
    · cases hx
    · split at hy
      · cases hy
      · exact h.one x s y s' c hx hy
  · simpa only [orient_setChild,next_setChild] using h.paned_lt
  · rw [child_setChild_none] at hx
    rw [next_setChild]
    split at hx
    · cases hx
    · exact h.child_lt x s c hx

section Put

variable {p c : WidgetId}

theorem child_setChild_some (h : g.Ok) (side : Bool) (hp : g.orient p ≠ none)
    (hc : ∀ x s, g.child x s ≠ some c) (x : WidgetId) (s : Bool) :
    (g.setChild p side (some c)).child x s =
      if x = p ∧ s = side then some c else g.child x s := by
  have hpar : (g.parent c).isSome = false := by
    rw [(parent_eq_none h).mpr hc]
    rfl
  unfold setChild
  cases hl : g.paneds.lookup p with
  | none => exact absurd (by rw [orient,hl,Option.map_none]) hp
  | some w =>
    have hw : w.child side ≠ some c := by
      have := hc p side
      rwa [child,hl,Option.bind_some] at this
    simp only [hw,Option.any_some,hpar,Bool.false_eq_true,or_self,if_false,child,
      HashMap.lookup_insert_ite]
    by_cases hx : x = p
    · subst hx
      simp [hl]
    · simp [hx]

theorem ok_setChild_some (h : g.Ok) {side : Bool} (hp : g.orient p ≠ none)
    (he : g.child p side = none) (hc : ∀ x s, g.child x s ≠ some c) (hlt : c < g.next) :
    (g.setChild p side (some c)).Ok := by
  have hchild := child_setChild_some h side hp hc
  refine ⟨fun d x => ?_,fun x s y s' d hx hy => ?_,?_,fun x s d hx => ?_⟩
  · have hpar : (g.setChild p side (some c)).parent d = if d = c then some p else g.parent d := by
      have hnone : (g.parent c).isSome = false := by
        rw [(parent_eq_none h).mpr hc]
        rfl
      unfold setChild
      cases hl : g.paneds.lookup p with
      | none => exact absurd (by rw [orient,hl,Option.map_none]) hp
      | some w =>
        have hw : w.child side = none := by rwa [child,hl,Option.bind_some] at he
        simp only [hw,reduceCtorEq,Option.any_some,hnone,Bool.false_eq_true,or_self,if_false]
        simp only [parent,HashMap.lookup_insert_ite]
    rw [hpar]
    simp only [hchild]
    split
    · rename_i hd
      subst hd
      refine ⟨fun hx => ?_,fun hs => ?_⟩
      · obtain rfl := Option.some.inj hx
        exact ⟨side,if_pos ⟨rfl,rfl⟩⟩
      · obtain ⟨s,hs⟩ := hs
        split at hs
        · rename_i hx
          rw [hx.1]
        · exact absurd hs (hc x s)
    · rename_i hd
      rw [h.parent_iff]
      refine exists_congr (fun s => ?_)
      split
      · rename_i hx
        rw [hx.1,hx.2,he]
        simp [Ne.symm hd]
      · rfl
  · rw [hchild] at hx hy
    split at hx
    · rename_i h1
      obtain rfl := Option.some.inj hx
      split at hy
      · rename_i h2
        exact ⟨h1.1.trans h2.1.symm,h1.2.trans h2.2.symm⟩
      · exact absurd hy (hc y s')
    · split at hy
      · obtain rfl := Option.some.inj hy
        exact absurd hx (hc x s)
      · exact h.one x s y s' d hx hy
  · simpa only [orient_setChild,next_setChild] using h.paned_lt
  · rw [hchild] at hx
    rw [next_setChild]
    split at hx
    · obtain rfl := Option.some.inj hx
      exact hlt
    · exact h.child_lt x s d hx

end Put

theorem orient_next (h : g.Ok) : g.orient g.next = none := by
  by_contra hn
  exact absurd (h.paned_lt _ hn) (lt_irrefl _)

theorem ok_newBox (h : g.Ok) : g.newBox.2.Ok :=
  ⟨h.parent_iff,h.one,fun x hx => Nat.lt_succ_of_lt (h.paned_lt x hx),
    fun x s c hx => Nat.lt_succ_of_lt (h.child_lt x s c hx)⟩

theorem orient_newPaned (g : Gtk) (o : Orientation) (x : WidgetId) :
    (g.newPaned o).2.orient x = if x = g.next then some o else g.orient x := by
  simp only [newPaned,orient,HashMap.lookup_insert_ite]
  split <;> rfl

theorem child_newPaned (h : g.Ok) (o : Orientation) : (g.newPaned o).2.child = g.child := by
  funext x s
  simp only [newPaned,child,HashMap.lookup_insert_ite]
  split
  · rename_i hx
    have hnone := child_of_orient (orient_next h) s
    rw [child,← hx] at hnone
    rw [hnone]
    cases s <;> rfl
  · rfl

theorem ok_newPaned (h : g.Ok) (o : Orientation) : (g.newPaned o).2.Ok := by
  refine ⟨?_,?_,fun x hx => ?_,fun x s c hx => ?_⟩
  · rw [child_newPaned h]
    exact h.parent_iff
  · rw [child_newPaned h]
    exact h.one
  · rw [orient_newPaned] at hx
    split at hx
    · rename_i he
      rw [he]
      exact Nat.lt_succ_self _
    · exact Nat.lt_succ_of_lt (h.paned_lt x hx)
  · rw [child_newPaned h] at hx
    exact Nat.lt_succ_of_lt (h.child_lt x s c hx)

theorem orient_setOrientation (g : Gtk) (p : WidgetId) (o : Orientation) (x : WidgetId) :
    (g.setOrientation p o).orient x =
      if x = p then (g.orient p).map (fun _ => o) else g.orient x := by
  simp only [setOrientation,orient,HashMap.lookup_modify]
  split
  · rw [Option.map_map,Option.map_map]
    rfl
  · rfl

@[simp] theorem child_setOrientation (g : Gtk) (p : WidgetId) (o : Orientation) :
    (g.setOrientation p o).child = g.child := by
  funext x s
  simp only [setOrientation,child,HashMap.lookup_modify]
  split
  · rename_i hx
    subst hx
    cases g.paneds.lookup x with
    | none => rfl
    | some w => cases s <;> rfl
  · rfl

theorem ok_setOrientation (h : g.Ok) (p : WidgetId) (o : Orientation) :
    (g.setOrientation p o).Ok := by
  refine ⟨?_,?_,fun x hx => h.paned_lt x ?_,?_⟩
  · rw [child_setOrientation]
    exact h.parent_iff
  · rw [child_setOrientation]
    exact h.one
  · rw [orient_setOrientation] at hx
    split at hx
    · rename_i he
      rw [he]
      exact fun hp => hx (by rw [hp,Option.map_none])
    · exact hx
  · rw [child_setOrientation]
    exact h.child_lt

/-- No paned shows the widget. -/
def Free (g : Gtk) (c : WidgetId) : Prop := ∀ x side, g.child x side ≠ some c

theorem free_setChild_none {c : WidgetId} {p : WidgetId} {side : Bool} (h : g.Ok)
    (hc : g.child p side = some c ∨ g.Free c) : (g.setChild p side none).Free c := by
  intro x s hx
  rw [child_setChild_none] at hx
  split at hx
  · cases hx
  · rename_i hn
    rcases hc with hc | hc
    · exact hn (h.one x s p side c hx hc)
    · exact hc x s hx

theorem fill_spec (h : g.Ok) {p first second : WidgetId} (hp : g.orient p ≠ none)
    (he : ∀ s, g.child p s = none) (hf : g.Free first) (hs : g.Free second)
    (hne : first ≠ second) (hfl : first < g.next) (hsl : second < g.next) :
    ((g.setChild p true (some first)).setChild p false (some second)).Ok ∧
      ∀ x s, ((g.setChild p true (some first)).setChild p false (some second)).child x s =
        if x = p then some (if s then first else second) else g.child x s := by
  have ok₁ := ok_setChild_some h hp (he true) hf hfl
  have hch₁ := child_setChild_some h true hp hf
  have hp₁ : (g.setChild p true (some first)).orient p ≠ none := by rwa [orient_setChild]
  have hs₁ : (g.setChild p true (some first)).Free second := by
    intro x s hx
    rw [hch₁] at hx
    split at hx
    · exact hne (Option.some.inj hx)
    · exact hs x s hx
  have he₁ : (g.setChild p true (some first)).child p false = none := by
    rw [hch₁,if_neg (by simp),he]
  refine ⟨ok_setChild_some ok₁ hp₁ he₁ hs₁ (by rwa [next_setChild]),fun x s => ?_⟩
  rw [child_setChild_some ok₁ false hp₁ hs₁,hch₁]
  by_cases hx : x = p
  · cases s <;> simp [hx]
  · simp [hx]

theorem wrap_spec (h : g.Ok) {parent c first second : WidgetId} {isStart : Bool} (o : Orientation)
    (hc : g.child parent isStart = some c) (hf : first = c ∨ g.Free first)
    (hs : second = c ∨ g.Free second) (hne : first ≠ second)
    (hfl : first < g.next) (hsl : second < g.next) :
    (WorkspaceWidgets.wrap g parent isStart o first second).1 = g.next ∧
      (WorkspaceWidgets.wrap g parent isStart o first second).2.Ok ∧
      (WorkspaceWidgets.wrap g parent isStart o first second).2.next = g.next+1 ∧
      (∀ x, (WorkspaceWidgets.wrap g parent isStart o first second).2.orient x =
        if x = g.next then some o else g.orient x) ∧
      ∀ x s, (WorkspaceWidgets.wrap g parent isStart o first second).2.child x s =
        if x = g.next then some (if s then first else second)
        else if g.child x s = some c then some g.next else g.child x s := by
  have hpar : parent ≠ g.next := fun he => orient_of_child hc (he ▸ orient_next h)
  obtain ⟨g₁,hg₁⟩ : ∃ g₁, g₁ = (g.newPaned o).2 := ⟨_,rfl⟩
  have ok₁ : g₁.Ok := hg₁ ▸ ok_newPaned h o
  have hch₁ : g₁.child = g.child := hg₁ ▸ child_newPaned h o
  have hor₁ : ∀ x, g₁.orient x = if x = g.next then some o else g.orient x :=
    hg₁ ▸ orient_newPaned g o
  have hnx₁ : g₁.next = g.next+1 := hg₁ ▸ rfl
  obtain ⟨g₂,hg₂⟩ : ∃ g₂, g₂ = g₁.setChild parent isStart none := ⟨_,rfl⟩
  have ok₂ : g₂.Ok := hg₂ ▸ ok_setChild_none ok₁ parent isStart
  have hor₂ : g₂.orient = g₁.orient := hg₂ ▸ orient_setChild g₁ parent isStart none
  have hnx₂ : g₂.next = g.next+1 := by rw [hg₂,next_setChild,hnx₁]
  have hch₂ : ∀ x s, g₂.child x s = if x = parent ∧ s = isStart then none else g.child x s := by
    intro x s
    rw [hg₂,child_setChild_none,hch₁]
  -- both children are free once the slot is empty
  have hfree : ∀ d, d = c ∨ g.Free d → g₂.Free d := by
    rintro d hd
    rw [hg₂]
    refine free_setChild_none ok₁ ?_
    unfold Free
    rw [hch₁]
    rcases hd with rfl | hd
    · exact .inl hc
    · exact .inr hd
  have hroom : ∀ s, g₂.child g.next s = none := by
    intro s
    rw [hch₂,if_neg (fun he => hpar he.1.symm),child_of_orient (orient_next h)]
  have hp₂ : g₂.orient g.next ≠ none := by simp [hor₂,hor₁]
  obtain ⟨g₃,hg₃⟩ : ∃ g₃,
    g₃ = (g₂.setChild g.next true (some first)).setChild g.next false (some second) := ⟨_,rfl⟩
  obtain ⟨ok₃,hch₃⟩ : g₃.Ok ∧ ∀ x s, g₃.child x s =
      if x = g.next then some (if s then first else second) else g₂.child x s := by
    rw [hg₃]
    refine fill_spec ok₂ hp₂ hroom (hfree first hf) (hfree second hs) hne ?_ ?_
    · rw [hnx₂]; exact Nat.lt_succ_of_lt hfl
    · rw [hnx₂]; exact Nat.lt_succ_of_lt hsl
  have hor₃ : g₃.orient = g₁.orient := by rw [hg₃,orient_setChild,orient_setChild,hor₂]
  have hnx₃ : g₃.next = g.next+1 := by rw [hg₃,next_setChild,next_setChild,hnx₂]
  have hp₃ : g₃.orient parent ≠ none := by
    rw [hor₃,hor₁,if_neg hpar]
    exact orient_of_child hc
  have hroom₃ : g₃.child parent isStart = none := by
    rw [hch₃,if_neg hpar,hch₂,if_pos ⟨rfl,rfl⟩]
  have hfree₃ : g₃.Free g.next := by
    intro x s hx
    rw [hch₃] at hx
    split at hx
    · have hfs := Option.some.inj hx
      split at hfs
      · exact absurd hfs (ne_of_lt hfl)
      · exact absurd hfs (ne_of_lt hsl)
    · rw [hch₂] at hx
      split at hx
      · cases hx
      · exact absurd (h.child_lt x s _ hx) (lt_irrefl _)
  have hlt : g.next < g₃.next := by rw [hnx₃]; exact Nat.lt_succ_self _
  have hres : WorkspaceWidgets.wrap g parent isStart o first second =
      (g.next,g₃.setChild parent isStart (some g.next)) := by
    rw [hg₃,hg₂,hg₁]
    rfl
  rw [hres]
  refine ⟨rfl,ok_setChild_some ok₃ hp₃ hroom₃ hfree₃ hlt,by rw [next_setChild,hnx₃],fun x => ?_,
    fun x s => ?_⟩
  · rw [orient_setChild,hor₃,hor₁]
  · rw [child_setChild_some ok₃ isStart hp₃ hfree₃,hch₃,hch₂]
    by_cases hx : x = g.next
    · rw [if_pos hx,if_pos hx,if_neg (fun he => hpar (he.1.symm.trans hx))]
    · rw [if_neg hx,if_neg hx]
      by_cases hxs : x = parent ∧ s = isStart
      · rw [if_pos hxs,hxs.1,hxs.2,if_pos hc]
      · rw [if_neg hxs,if_neg hxs,if_neg (fun he => hxs (h.one x s parent isStart c he hc))]

/-- The root paned becomes a split: its one child stays at the start. -/
theorem split_root_spec (h : g.Ok) {root c d : WidgetId} (o : Orientation)
    (hr : g.orient root ≠ none) (hc : g.child root true = some c) (hn : g.child root false = none)
    (hd : g.Free d) (hdl : d < g.next) :
    ((g.setOrientation root o).setChild root false (some d)).Ok ∧
      ((g.setOrientation root o).setChild root false (some d)).next = g.next ∧
      (∀ x, ((g.setOrientation root o).setChild root false (some d)).orient x =
        if x = root then some o else g.orient x) ∧
      ∀ x s, ((g.setOrientation root o).setChild root false (some d)).child x s =
        if x = root then some (if s then c else d)
        else if g.child x s = some c then some root else g.child x s := by
  have ok₁ := ok_setOrientation h root o
  have hor₁ : ∀ x, (g.setOrientation root o).orient x =
      if x = root then some o else g.orient x := by
    intro x
    rw [orient_setOrientation]
    obtain ⟨o',ho⟩ := Option.ne_none_iff_exists'.mp hr
    rw [ho,Option.map_some]
  have hr₁ : (g.setOrientation root o).orient root ≠ none := by simp [hor₁]
  have hd₁ : (g.setOrientation root o).Free d := by
    unfold Free
    rw [child_setOrientation]
    exact hd
  refine ⟨ok_setChild_some ok₁ hr₁ (by rw [child_setOrientation,hn]) hd₁ hdl,
    by rw [next_setChild]; rfl,fun x => by rw [orient_setChild,hor₁],fun x s => ?_⟩
  rw [child_setChild_some ok₁ false hr₁ hd₁,child_setOrientation]
  by_cases hx : x = root
  · subst hx
    cases s <;> simp [hc]
  · rw [if_neg (fun he => hx he.1),if_neg hx,if_neg]
    exact fun he => hx (h.one x s root true c he hc).1

/-- The same with the new child before the old one. -/
theorem split_root_before_spec (h : g.Ok) {root c d : WidgetId} (o : Orientation)
    (hr : g.orient root ≠ none) (hc : g.child root true = some c) (hd : g.Free d)
    (hdl : d < g.next) {g' : Gtk}
    (hg : g' = ((((g.setOrientation root o).setChild root true none).setChild root false
      none).setChild root true (some d)).setChild root false (some c)) :
    g'.Ok ∧ g'.next = g.next ∧ (∀ x, g'.orient x = if x = root then some o else g.orient x) ∧
      ∀ x s, g'.child x s = if x = root then some (if s then d else c)
        else if g.child x s = some c then some root else g.child x s := by
  obtain ⟨g₁,hg₁⟩ : ∃ g₁, g₁ = g.setOrientation root o := ⟨_,rfl⟩
  have ok₁ : g₁.Ok := hg₁ ▸ ok_setOrientation h root o
  have hch₁ : g₁.child = g.child := hg₁ ▸ child_setOrientation g root o
  have hor₁ : ∀ x, g₁.orient x = if x = root then some o else g.orient x := by
    intro x
    rw [hg₁,orient_setOrientation]
    obtain ⟨o',ho⟩ := Option.ne_none_iff_exists'.mp hr
    rw [ho,Option.map_some]
  obtain ⟨g₂,hg₂⟩ : ∃ g₂, g₂ = (g₁.setChild root true none).setChild root false none := ⟨_,rfl⟩
  have ok₂ : g₂.Ok := hg₂ ▸ ok_setChild_none (ok_setChild_none ok₁ root true) root false
  have hor₂ : g₂.orient = g₁.orient := by rw [hg₂,orient_setChild,orient_setChild]
  have hnx₂ : g₂.next = g.next := by rw [hg₂,next_setChild,next_setChild,hg₁]; rfl
  have hch₂ : ∀ x s, g₂.child x s = if x = root then none else g.child x s := by
    intro x s
    rw [hg₂,child_setChild_none,child_setChild_none,hch₁]
    by_cases hx : x = root
    · cases s <;> simp [hx]
    · simp [hx]
  have hfree : ∀ e, g.child root true = some e ∨ g.Free e → g₂.Free e := by
    intro e he x s hx
    rw [hch₂] at hx
    split at hx
    · cases hx
    · rename_i hne
      rcases he with he | he
      · exact hne (h.one x s root true e hx he).1
      · exact he x s hx
  have hr₂ : g₂.orient root ≠ none := by simp [hor₂,hor₁]
  obtain ⟨ok₃,hch₃⟩ := fill_spec ok₂ hr₂ (fun s => by rw [hch₂,if_pos rfl]) (hfree d (.inr hd))
    (hfree c (.inl hc)) (fun he => hd root true (he ▸ hc)) (by rwa [hnx₂])
    (by rw [hnx₂]; exact h.child_lt _ _ _ hc)
  rw [hg,← hg₁,← hg₂]
  refine ⟨ok₃,by rw [next_setChild,next_setChild,hnx₂],fun x => ?_,fun x s => ?_⟩
  · rw [orient_setChild,orient_setChild,hor₂,hor₁]
  · rw [hch₃,hch₂]
    by_cases hx : x = root
    · rw [if_pos hx,if_pos hx]
    · rw [if_neg hx,if_neg hx,if_neg hx,if_neg]
      exact fun he => hx (h.one x s root true c he hc).1

/-- The side on which a paned shows a widget. -/
theorem side_eq (h : g.Ok) {p c : WidgetId} {side : Bool} (hc : g.child p side = some c) :
    decide (g.child p true = some c) = side := by
  cases side
  · exact decide_eq_false (fun ht => by simpa using (h.one p true p false c ht hc).2)
  · exact decide_eq_true hc

end Gtk

namespace WorkspaceWidgets

/-- A removed pane leaves its sibling in the place of their paned. -/
theorem removePane_spec {ww : WorkspaceWidgets} (h : ww.gtk.Ok) {p : PaneId} {pw : PaneWidget}
    {paned sib : WidgetId} {side : Bool} (hl : ww.paneWidgets.lookup p = some pw)
    (hc : ww.gtk.child paned side = some pw.container)
    (hs : ww.gtk.child paned (!side) = some sib)
    (hp : paned = ww.rootPaned ∧ ww.gtk.Free paned ∨ paned ≠ ww.rootPaned ∧ ∃ gp s, gp ≠ paned ∧
      ww.gtk.child gp s = some paned) : ∃ g splits,
      ww.removePane p = { ww with
        gtk := g, paneWidgets := ww.paneWidgets.erase p, splitPaneds := splits } ∧
      g.Ok ∧ g.next = ww.gtk.next ∧ g.orient = ww.gtk.orient ∧
      (∀ n x, ww.splitPaneds.lookup n = some x → x ≠ paned → splits.lookup n = some x) ∧
      ∀ x s, g.child x s =
        if x = paned then if paned = ww.rootPaned ∧ s = true then some sib else none
        else if ww.gtk.child x s = some paned then some sib else ww.gtk.child x s := by
  have hpar : ww.gtk.parent pw.container = some paned := (h.parent_iff _ _).mpr ⟨side,hc⟩
  have hside := Gtk.side_eq h hc
  obtain ⟨g₁,hg₁⟩ : ∃ g₁, g₁ = ww.gtk.setChild paned side none := ⟨_,rfl⟩
  have ok₁ : g₁.Ok := hg₁ ▸ Gtk.ok_setChild_none h paned side
  have hor₁ : g₁.orient = ww.gtk.orient := hg₁ ▸ Gtk.orient_setChild _ _ _ _
  have hnx₁ : g₁.next = ww.gtk.next := hg₁ ▸ Gtk.next_setChild _ _ _ _
  have hch₁ : ∀ x s, g₁.child x s = if x = paned ∧ s = side then none else ww.gtk.child x s :=
    hg₁ ▸ Gtk.child_setChild_none ww.gtk paned side
  have hsib₁ : g₁.child paned (!side) = some sib := by
    rw [hch₁,if_neg (by simp),hs]
  rcases hp with ⟨rfl,htop⟩ | ⟨hne,gp,gs,hgp,hg⟩
  · -- the root paned keeps the sibling at its start
    cases side with
    | false =>
      refine ⟨g₁,ww.splitPaneds,?_,ok₁,hnx₁,hor₁,fun _ _ hn _ => hn,fun x s => ?_⟩
      · simp only [removePane,hl,hpar,hside,if_true,hg₁]
      · rw [hch₁]
        by_cases hx : x = ww.rootPaned
        · subst hx
          cases s <;> simp_all
        · rw [if_neg (fun he => hx he.1),if_neg hx,if_neg (htop x s)]
    | true =>
      obtain ⟨g₂,hg₂⟩ : ∃ g₂, g₂ = g₁.setChild ww.rootPaned false none := ⟨_,rfl⟩
      have ok₂ : g₂.Ok := hg₂ ▸ Gtk.ok_setChild_none ok₁ _ _
      have hor₂ : g₂.orient = ww.gtk.orient := by rw [hg₂,Gtk.orient_setChild,hor₁]
      have hch₂ : ∀ x s, g₂.child x s = if x = ww.rootPaned then none else ww.gtk.child x s := by
        intro x s
        rw [hg₂,Gtk.child_setChild_none,hch₁]
        by_cases hx : x = ww.rootPaned
        · cases s <;> simp [hx]
        · simp [hx]
      have hfree : g₂.Free sib := hg₂ ▸ Gtk.free_setChild_none ok₁ (.inl hsib₁)
      have hnx₂ : g₂.next = ww.gtk.next := by rw [hg₂,Gtk.next_setChild,hnx₁]
      have hr₂ : g₂.orient ww.rootPaned ≠ none := by rw [hor₂]; exact Gtk.orient_of_child hs
      refine ⟨g₂.setChild ww.rootPaned true (some sib),ww.splitPaneds,?_,
        Gtk.ok_setChild_some ok₂ hr₂ (by rw [hch₂,if_pos rfl]) hfree
          (by rw [hnx₂]; exact h.child_lt _ _ _ hs),by rw [Gtk.next_setChild,hnx₂],
        by rw [Gtk.orient_setChild,hor₂],fun _ _ hn _ => hn,fun x s => ?_⟩
      · simp only [removePane,hl,hpar,hside,if_true,hs,hg₁,hg₂]
      · rw [Gtk.child_setChild_some ok₂ true hr₂ hfree,hch₂]
        by_cases hx : x = ww.rootPaned
        · subst hx
          cases s <;> simp
        · rw [if_neg (fun he => hx he.1),if_neg hx,if_neg hx,if_neg (htop x s)]
  · -- the sibling takes the slot of the paned
    have hgp₁ : g₁.child gp gs = some paned := by rw [hch₁,if_neg (fun he => hgp he.1),hg]
    have hpar₁ : g₁.parent paned = some gp := (ok₁.parent_iff _ _).mpr ⟨gs,hgp₁⟩
    have hgs := Gtk.side_eq ok₁ hgp₁
    have hss := Gtk.side_eq ok₁ hsib₁
    obtain ⟨g₂,hg₂⟩ : ∃ g₂, g₂ = g₁.setChild paned (!side) none := ⟨_,rfl⟩
    have ok₂ : g₂.Ok := hg₂ ▸ Gtk.ok_setChild_none ok₁ _ _
    have hch₂ : ∀ x s, g₂.child x s = if x = paned then none else ww.gtk.child x s := by
      intro x s
      rw [hg₂,Gtk.child_setChild_none,hch₁]
      by_cases hx : x = paned
      · cases s <;> cases side <;> simp [hx]
      · simp [hx]
    have hfree₂ : g₂.Free sib := hg₂ ▸ Gtk.free_setChild_none ok₁ (.inl hsib₁)
    obtain ⟨g₃,hg₃⟩ : ∃ g₃, g₃ = g₂.setChild gp gs none := ⟨_,rfl⟩
    have ok₃ : g₃.Ok := hg₃ ▸ Gtk.ok_setChild_none ok₂ _ _
    have hch₃ : ∀ x s, g₃.child x s = if x = gp ∧ s = gs then none else g₂.child x s :=
      hg₃ ▸ Gtk.child_setChild_none g₂ gp gs
    have hfree₃ : g₃.Free sib := hg₃ ▸ Gtk.free_setChild_none ok₂ (.inr hfree₂)
    have hor₃ : g₃.orient = ww.gtk.orient := by
      rw [hg₃,Gtk.orient_setChild,hg₂,Gtk.orient_setChild,hor₁]
    have hnx₃ : g₃.next = ww.gtk.next := by
      rw [hg₃,Gtk.next_setChild,hg₂,Gtk.next_setChild,hnx₁]
    have hgp₃ : g₃.orient gp ≠ none := by rw [hor₃]; exact Gtk.orient_of_child hg
    refine ⟨g₃.setChild gp gs (some sib),ww.splitPaneds.retain (fun x => x ≠ paned),?_,
      Gtk.ok_setChild_some ok₃ hgp₃ (by rw [hch₃,if_pos ⟨rfl,rfl⟩]) hfree₃
        (by rw [hnx₃]; exact h.child_lt _ _ _ hs),by rw [Gtk.next_setChild,hnx₃],
      by rw [Gtk.orient_setChild,hor₃],fun n x hn hx => ?_,fun x s => ?_⟩
    · simp only [removePane,hl,hpar,hside,if_neg hne,hs,← hg₁,hpar₁,hgs,hss,← hg₂,← hg₃]
    · exact HashMap.lookup_retain hn (decide_eq_true hx)
    · rw [Gtk.child_setChild_some ok₃ gs hgp₃ hfree₃,hch₃,hch₂]
      by_cases hx : x = paned
      · subst hx
        rw [if_neg (fun he => hgp he.1.symm),if_neg (fun he => hgp he.1.symm),if_pos rfl,if_pos rfl,
          if_neg (fun he => hne he.1)]
      · rw [if_neg hx,if_neg hx]
        by_cases hxs : x = gp ∧ s = gs
        · rw [if_pos hxs,hxs.1,hxs.2,if_pos hg]
        · rw [if_neg hxs,if_neg hxs,if_neg (fun he => hxs (h.one x s gp gs paned he hg))]

end WorkspaceWidgets

end Limux
