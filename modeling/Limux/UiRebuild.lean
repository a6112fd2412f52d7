import Limux.UiGraft

/-! Paneds that are built anew for a split tree: after a move from a snapshot of the tree,
and for a restored workspace from its saved layout. -/
namespace Limux

open KeyTree

variable {F : Type}

namespace Gtk

variable {g g' g'' : Gtk}

/-- Widgets are added and none that was there is touched. -/
structure Grown (g g' : Gtk) : Prop where
  ok : g'.Ok
  next : g.next ≤ g'.next
  orient : ∀ x, x < g.next → g'.orient x = g.orient x
  child : ∀ x, x < g.next → ∀ side, g'.child x side = g.child x side

namespace Grown

theorem refl (h : g.Ok) : g.Grown g := ⟨h,le_rfl,fun _ _ => rfl,fun _ _ _ => rfl⟩

theorem trans (h : g.Grown g') (h' : g'.Grown g'') : g.Grown g'' :=
  ⟨h'.ok,h.next.trans h'.next,
    fun x hx => (h'.orient x (lt_of_lt_of_le hx h.next)).trans (h.orient x hx),
    fun x hx side => (h'.child x (lt_of_lt_of_le hx h.next) side).trans (h.child x hx side)⟩

theorem newPaned (h : g.Ok) (o : Orientation) : g.Grown (g.newPaned o).2 := by
  refine ⟨ok_newPaned h o,Nat.le_succ _,fun x hx => ?_,fun x _ side => by rw [child_newPaned h]⟩
  rw [orient_newPaned,if_neg (ne_of_lt hx)]

theorem newBox (h : g.Ok) : g.Grown g.newBox.2 :=
  ⟨ok_newBox h,Nat.le_succ _,fun _ _ => rfl,fun _ _ _ => rfl⟩

end Grown

/-- The tree is shown by widgets of its own, which are new or among `R`. -/
structure Stands (g : Gtk) (Fits : Node F → WidgetId → Prop) (W : NodeId → WidgetId)
    (t : NodeTree F) (n : WidgetId) (R : WidgetId → Prop) : Prop where
  shown : Shown g.child Fits W t
  inj : ∀ a ∈ t.keys, ∀ b ∈ t.keys, W a = W b → a = b
  lt : ∀ k ∈ t.keys, W k < g.next
  range : ∀ k ∈ t.keys, n ≤ W k ∨ R (W k)

theorem Stands.grow {Fits Fits' : Node F → WidgetId → Prop} {W : NodeId → WidgetId} {t : NodeTree F}
    {n n' : WidgetId} {R R' : WidgetId → Prop} (h : Stands g Fits W t n R) (hg : g.Grown g')
    (hF : ∀ x, x < g.next → ∀ v, Fits v x → Fits' v x) (hn : n' ≤ n) (hR : ∀ x, R x → R' x) :
    Stands g' Fits' W t n' R' := by
  refine ⟨h.shown.congr (fun _ _ => rfl) (fun k hk v hv => hF _ (h.lt k hk) v hv)
    (fun k hk j _ side hc => ?_),h.inj,fun k hk => lt_of_lt_of_le (h.lt k hk) hg.next,
    fun k hk => (h.range k hk).imp hn.trans (hR _)⟩
  rw [hg.child _ (h.lt k hk),hc]

/-- The widget that shows a node over two shown trees. -/
def pairW (W₁ W₂ : NodeId → WidgetId) (k : NodeId) (l : NodeTree F) (x : WidgetId) (j : NodeId) :
    WidgetId :=
  if j = k then x else if j ∈ l.keys then W₁ j else W₂ j

theorem Stands.pair {Fits Fits' : Node F → WidgetId → Prop} {W₁ W₂ : NodeId → WidgetId}
    {l r : NodeTree F} {n x : WidgetId} {R : WidgetId → Prop} {k a b : NodeId} {o : Orientation}
    {ratio : F} (hg : g.Ok) (hl : Stands g Fits W₁ l n R) (hr : Stands g Fits W₂ r n R)
    (hn : (node k (.split o ratio a b) l r).keys.Nodup)
    (hcross : ∀ i ∈ l.keys, ∀ j ∈ r.keys, W₁ i ≠ W₂ j) (hnx : n ≤ x) (hxl : ∀ i ∈ l.keys, W₁ i ≠ x)
    (hxr : ∀ j ∈ r.keys, W₂ j ≠ x) (hor : g.orient x = some o) (he : ∀ s, g.child x s = none)
    (hfl : g.Free (W₁ l.key)) (hfr : g.Free (W₂ r.key)) (hfx : g.Free x)
    (hnew : ∀ y s c, n ≤ y → g.child y s = some c →
      (∃ i ∈ l.keys, W₁ i = c) ∨ ∃ j ∈ r.keys, W₂ j = c)
    (hF : ∀ v y, Fits v y → Fits' v y) (hFx : Fits' (.split o ratio a b) x)
    (hg' : g' = (g.setChild x true (some (W₁ l.key))).setChild x false (some (W₂ r.key))) :
    g'.Ok ∧ Stands g' Fits' (pairW W₁ W₂ k l x) (node k (.split o ratio a b) l r) n R ∧
      g'.Free x ∧ (∀ y s, y ≠ x → g'.child y s = g.child y s) ∧
      ∀ y s c, n ≤ y → g'.child y s = some c →
        ∃ j ∈ (node k (.split o ratio a b) l r).keys, pairW W₁ W₂ k l x j = c := by
  obtain ⟨hkl,hkr,-,-,hd⟩ := nodup_node hn
  obtain ⟨hok,hch⟩ := fill_spec hg (by rw [hor]; simp) he hfl hfr
    (hcross _ (key_mem_keys l) _ (key_mem_keys r)) (hl.lt _ (key_mem_keys l))
    (hr.lt _ (key_mem_keys r))
  rw [← hg'] at hok hch
  have hWk : pairW W₁ W₂ k l x k = x := if_pos rfl
  have hWl : ∀ i ∈ l.keys, pairW W₁ W₂ k l x i = W₁ i := by
    intro i hi
    rw [pairW,if_neg (fun hik : i = k => hkl (hik ▸ hi)),if_pos hi]
  have hWr : ∀ j ∈ r.keys, pairW W₁ W₂ k l x j = W₂ j := by
    intro j hj
    rw [pairW,if_neg (fun hjk : j = k => hkr (hjk ▸ hj)),if_neg (fun hi => hd j hi hj)]
  have hnext : g'.next = g.next := by rw [hg',next_setChild,next_setChild]
  have hmem : ∀ j ∈ (node k (.split o ratio a b) l r).keys, j = k ∨ j ∈ l.keys ∨ j ∈ r.keys := by
    intro j hj
    simpa [keys] using hj
  have hkeep : ∀ y s, y ≠ x → g'.child y s = g.child y s := fun y s hy => by
    rw [hch,if_neg hy]
  refine ⟨hok,⟨⟨?_,?_,?_,?_,?_⟩,fun i hi j hj he => ?_,fun j hj => ?_,fun j hj => ?_⟩,
    fun y s hy => ?_,hkeep,fun y s c hy hc => ?_⟩
  · rw [hWk]
    exact hFx
  · rw [hWk,hWl _ (key_mem_keys l),hch,if_pos rfl,if_pos rfl]
  · rw [hWk,hWr _ (key_mem_keys r),hch,if_pos rfl]
    rfl
  · refine hl.shown.congr hWl (fun i _ v hv => hF v _ hv) (fun i hi j _ s hc => ?_)
    rw [hkeep _ _ (hxl i hi),hc]
  · refine hr.shown.congr hWr (fun i _ v hv => hF v _ hv) (fun i hi j _ s hc => ?_)
    rw [hkeep _ _ (hxr i hi),hc]
  · rcases hmem i hi with rfl | hi' | hi' <;> rcases hmem j hj with rfl | hj' | hj'
    · rfl
    · rw [hWk,hWl j hj'] at he
      exact absurd he.symm (hxl j hj')
    · rw [hWk,hWr j hj'] at he
      exact absurd he.symm (hxr j hj')
    · rw [hWk,hWl i hi'] at he
      exact absurd he (hxl i hi')
    · rw [hWl i hi',hWl j hj'] at he
      exact hl.inj i hi' j hj' he
    · rw [hWl i hi',hWr j hj'] at he
      exact absurd he (hcross i hi' j hj')
    · rw [hWk,hWr i hi'] at he
      exact absurd he (hxr i hi')
    · rw [hWr i hi',hWl j hj'] at he
      exact absurd he.symm (hcross j hj' i hi')
    · rw [hWr i hi',hWr j hj'] at he
      exact hr.inj i hi' j hj' he
  · rw [hnext]
    rcases hmem j hj with rfl | hj | hj
    · rw [hWk]
      exact hg.paned_lt x (by rw [hor]; simp)
    · rw [hWl j hj]
      exact hl.lt j hj
    · rw [hWr j hj]
      exact hr.lt j hj
  · rcases hmem j hj with rfl | hj | hj
    · rw [hWk]
      exact .inl hnx
    · rw [hWl j hj]
      exact hl.range j hj
    · rw [hWr j hj]
      exact hr.range j hj
  · rw [hch] at hy
    split at hy
    · have hw := Option.some.inj hy
      split at hw
      · exact hxl _ (key_mem_keys l) hw
      · exact hxr _ (key_mem_keys r) hw
    · exact hfx y s hy
  · rw [hch] at hc
    split at hc
    · have hw := Option.some.inj hc
      split at hw
      · exact ⟨l.key,by simp [keys],(hWl _ (key_mem_keys l)).trans hw⟩
      · exact ⟨r.key,by simp [keys],(hWr _ (key_mem_keys r)).trans hw⟩
    · rcases hnew y s c hy hc with ⟨i,hi,rfl⟩ | ⟨j,hj,rfl⟩
      · exact ⟨i,by simp [keys,hi],hWl i hi⟩
      · exact ⟨j,by simp [keys,hj],hWr j hj⟩

/-- Widgets are added that show the tree together with those in `R`, and nothing else. -/
structure Built (g g' : Gtk) (Fits : Node F → WidgetId → Prop) (W : NodeId → WidgetId)
    (t : NodeTree F) (R : WidgetId → Prop) : Prop extends g.Grown g' where
  stands : Stands g' Fits W t g.next R
  free : g'.Free (W t.key)
  new : ∀ y s c, g.next ≤ y → g'.child y s = some c → ∃ j ∈ t.keys, W j = c

namespace Built

variable {Fits Fits' : Node F → WidgetId → Prop} {W₁ W₂ : NodeId → WidgetId} {l r : NodeTree F}
  {R₁ R₂ : WidgetId → Prop}

theorem cross (h₁ : Built g g' Fits W₁ l R₁) (h₂ : Built g' g'' Fits' W₂ r R₂)
    (hd : ∀ x, R₁ x → ¬ R₂ x) (hR : ∀ x, R₂ x → x < g.next) {i j : NodeId} (hi : i ∈ l.keys)
    (hj : j ∈ r.keys) : W₁ i ≠ W₂ j := by
  intro he
  rcases h₂.stands.range j hj with hge | hb
  · exact absurd (he ▸ h₁.stands.lt i hi) (not_lt.mpr hge)
  · rcases h₁.stands.range i hi with hge | hb'
    · exact absurd (hR _ hb) (not_lt.mpr (he ▸ hge))
    · exact hd _ hb' (he ▸ hb)

theorem new_trans (h₁ : Built g g' Fits W₁ l R₁) (h₂ : Built g' g'' Fits' W₂ r R₂) {y c : WidgetId}
    {s : Bool} (hy : g.next ≤ y) (hc : g''.child y s = some c) :
    (∃ i ∈ l.keys, W₁ i = c) ∨ ∃ j ∈ r.keys, W₂ j = c := by
  rcases lt_or_ge y g'.next with hlt | hge
  · exact .inl (h₁.new y s c hy (h₂.child y hlt s ▸ hc))
  · exact .inr (h₂.new y s c hge hc)

theorem free_trans (h₁ : Built g g' Fits W₁ l R₁) (h₂ : Built g' g'' Fits' W₂ r R₂)
    (hd : ∀ x, R₁ x → ¬ R₂ x) (hR : ∀ x, R₂ x → x < g.next) : g''.Free (W₁ l.key) := by
  intro y s hc
  rcases lt_or_ge y g'.next with hlt | hge
  · exact h₁.free y s (h₂.child y hlt s ▸ hc)
  · obtain ⟨j,hj,he⟩ := h₂.new y s _ hge hc
    exact h₁.cross h₂ hd hR (key_mem_keys l) hj he.symm

end Built

end Gtk

namespace WorkspaceWidgets

variable {ww ww' : WorkspaceWidgets} {t : NodeTree F} {W : NodeId → WidgetId}

def Boxes (ww : WorkspaceWidgets) (t : NodeTree F) (x : WidgetId) : Prop :=
  ∃ p ∈ treePanes t, ∃ pw, ww.paneWidgets.lookup p = some pw ∧ pw.container = x

/-- Every pane of the tree has a box of its own that is in no slot. -/
structure Ready (ww : WorkspaceWidgets) (t : NodeTree F) : Prop where
  ok : ww.gtk.Ok
  panes : ∀ p ∈ treePanes t, p ∈ ww.paneWidgets
  box : ∀ x, ww.Boxes t x → ww.gtk.orient x = none ∧ ww.gtk.Free x ∧ x < ww.gtk.next
  own : ∀ p q pw qw, ww.paneWidgets.lookup p = some pw → ww.paneWidgets.lookup q = some qw →
    pw.container = qw.container → p = q

/-- New paneds show the tree. -/
structure Raised (ww ww' : WorkspaceWidgets) (t : NodeTree F) (W : NodeId → WidgetId) : Prop
    extends Gtk.Built ww.gtk ww'.gtk ww'.Fits W t (ww.Boxes t) where
  rootPaned : ww'.rootPaned = ww.rootPaned
  panes : ww'.paneWidgets = ww.paneWidgets
  splitPaneds : ∀ n, ww'.splitPaneds.lookup n =
    if n ∈ t.inner then some (W n) else ww.splitPaneds.lookup n
  synced : ∀ y n, (y,n) ∈ ww'.synced ↔ (y,n) ∈ ww.synced ∨ n ∈ t.inner ∧ y = W n

theorem Boxes.mono {t' : NodeTree F} (hp : treePanes t ⊆ treePanes t')
    (he : ww'.paneWidgets = ww.paneWidgets) {x : WidgetId} (h : ww.Boxes t x) : ww'.Boxes t' x := by
  obtain ⟨p,hpt,pw,hl,hc⟩ := h
  exact ⟨p,hp hpt,pw,he ▸ hl,hc⟩

theorem Ready.disjoint {l r : NodeTree F} (h : ww.Ready t)
    (hd : ∀ p ∈ treePanes l, p ∉ treePanes r) {x : WidgetId} (hl : ww.Boxes l x) :
    ¬ ww.Boxes r x := by
  rintro ⟨q,hq,qw,hqw,he⟩
  obtain ⟨p,hp,pw,hpw,rfl⟩ := hl
  obtain rfl := h.own p q pw qw hpw hqw he.symm
  exact hd p hp hq

theorem Raised.fits (h : Raised ww ww' t W) {x : WidgetId} (hx : x < ww.gtk.next) {v : Node F}
    (hf : ww.Fits v x) : ww'.Fits v x :=
  hf.mono (fun _ _ hl => h.panes ▸ hl) (h.orient x hx)

theorem Raised.ready {l r : NodeTree F} (h : Raised ww ww' l W) (hr : ww.Ready r)
    (hd : ∀ p ∈ treePanes l, p ∉ treePanes r) : ww'.Ready r := by
  refine ⟨h.ok,fun p hp => h.panes ▸ hr.panes p hp,fun x hx => ?_,h.panes ▸ hr.own⟩
  obtain ⟨hor,hfree,hlt⟩ := hr.box x (hx.mono (List.Subset.refl _) h.panes.symm)
  refine ⟨by rw [h.orient x hlt,hor],fun y s hy => ?_,lt_of_lt_of_le hlt h.next⟩
  rcases lt_or_ge y ww.gtk.next with hy' | hy'
  · rw [h.child y hy'] at hy
    exact hfree y s hy
  · obtain ⟨j,hj,rfl⟩ := h.new y s _ hy' hy
    rcases h.stands.range j hj with hge | hb
    · exact absurd hlt (not_lt.mpr hge)
    · exact hr.disjoint hd hb (hx.mono (List.Subset.refl _) h.panes.symm)

theorem buildWidget_split {ww w₁ w₂ : WorkspaceWidgets} {o : Orientation} {k : NodeId}
    {a b : TreeSnapshot} {x y : WidgetId}
    (h₁ : buildWidget a { ww with gtk := (ww.gtk.newPaned o).2 } = (x,w₁))
    (h₂ : buildWidget b w₁ = (y,w₂)) {g : Gtk}
    (hg : g = (w₂.gtk.setChild ww.gtk.next true (some x)).setChild ww.gtk.next false (some y)) :
    buildWidget (.split o k a b) ww =
      (ww.gtk.next,({ w₂ with gtk := g } : WorkspaceWidgets).track k ww.gtk.next) := by
  subst hg
  simp only [Gtk.newPaned] at h₁
  simp only [buildWidget,Gtk.newPaned,h₁,h₂]

section Split

variable {k : NodeId} {o : Orientation} {ratio : F} {l r : NodeTree F}
  {w₀ w₁ w₂ w₃ : WorkspaceWidgets} {W₁ W₂ : NodeId → WidgetId}

theorem Ready.newPaned (h : ww.Ready t) (hw : w₀ = { ww with gtk := (ww.gtk.newPaned o).2 })
    {u : NodeTree F} (hu : treePanes u ⊆ treePanes t) : w₀.Ready u := by
  have hgrow : ww.gtk.Grown w₀.gtk := by rw [hw]; exact .newPaned h.ok o
  have hpw : ww.paneWidgets = w₀.paneWidgets := by rw [hw]
  refine ⟨hgrow.ok,fun p hp => hpw ▸ h.panes p (hu hp),fun y hy => ?_,hpw ▸ h.own⟩
  obtain ⟨h1,h2,h3⟩ := h.box y (hy.mono hu hpw)
  refine ⟨by rw [hgrow.orient y h3,h1],?_,lt_of_lt_of_le h3 hgrow.next⟩
  rw [hw]
  unfold Gtk.Free
  rw [Gtk.child_newPaned h.ok]
  exact h2

theorem Raised.built_split (h : ww.Ready (node k (.split o ratio l.key r.key) l r))
    (hn : (node k (.split o ratio l.key r.key) l r).keys.Nodup)
    (hd : ∀ p ∈ treePanes l, p ∉ treePanes r)
    (hw₀ : w₀ = { ww with gtk := (ww.gtk.newPaned o).2 }) (h₁ : Raised w₀ w₁ l W₁)
    (h₂ : Raised w₁ w₂ r W₂) {g : Gtk} (hg : g = (w₂.gtk.setChild ww.gtk.next true
      (some (W₁ l.key))).setChild ww.gtk.next false (some (W₂ r.key))) :
    Gtk.Built ww.gtk g (Fits { w₂ with gtk := g }) (Gtk.pairW W₁ W₂ k l ww.gtk.next)
      (node k (.split o ratio l.key r.key) l r)
      (ww.Boxes (node k (.split o ratio l.key r.key) l r)) := by
  obtain ⟨x,hx⟩ : ∃ x, x = ww.gtk.next := ⟨_,rfl⟩
  rw [← hx] at hg ⊢
  have hsl : treePanes l ⊆ treePanes (node k (.split o ratio l.key r.key) l r) := by simp
  have hsr : treePanes r ⊆ treePanes (node k (.split o ratio l.key r.key) l r) := by simp
  have hpw₀ : w₀.paneWidgets = ww.paneWidgets := by rw [hw₀]
  have hgrow : ww.gtk.Grown w₀.gtk := by rw [hw₀]; exact .newPaned h.ok o
  have hnx : w₀.gtk.next = x+1 := by rw [hw₀,hx]; rfl
  have hor₀ : w₀.gtk.orient x = some o := by rw [hw₀,Gtk.orient_newPaned,if_pos hx]
  have hch₀ : w₀.gtk.child = ww.gtk.child := by rw [hw₀]; exact Gtk.child_newPaned h.ok o
  have hx₀ : x < w₀.gtk.next := by rw [hnx]; exact Nat.lt_succ_self x
  have hx₁ : x < w₁.gtk.next := lt_of_lt_of_le hx₀ h₁.next
  -- the boxes of the two halves are apart, and were there before
  have hboxr : ∀ y, w₁.Boxes r y → w₀.Boxes r y := fun y hy =>
    hy.mono (List.Subset.refl _) h₁.panes.symm
  have hdis : ∀ y, w₀.Boxes l y → ¬ w₁.Boxes r y := fun y hl hr =>
    (h.newPaned hw₀ (List.Subset.refl _)).disjoint hd hl (hboxr y hr)
  have hold : ∀ y, w₁.Boxes r y → y < w₀.gtk.next := fun y hy =>
    ((h.newPaned hw₀ hsr).box y (hboxr y hy)).2.2
  have hbox : ∀ u : NodeTree F, treePanes u ⊆
      treePanes (node k (.split o ratio l.key r.key) l r) → ¬ w₀.Boxes u x := by
    intro u hu hb
    rw [((h.newPaned hw₀ hu).box x hb).1] at hor₀
    cases hor₀
  have hxl : ∀ i ∈ l.keys, W₁ i ≠ x := by
    intro i hi he
    rcases h₁.stands.range i hi with hge | hb
    · exact absurd hx₀ (not_lt.mpr (he ▸ hge))
    · exact hbox l hsl (he ▸ hb)
  have hxr : ∀ j ∈ r.keys, W₂ j ≠ x := by
    intro j hj he
    rcases h₂.stands.range j hj with hge | hb
    · exact absurd hx₁ (not_lt.mpr (he ▸ hge))
    · exact hbox r hsr (he ▸ hboxr _ hb)
  have hempty : ∀ s, w₂.gtk.child x s = none := fun s => by
    rw [h₂.child x hx₁,h₁.child x hx₀,hch₀,hx]
    exact Gtk.child_of_orient (Gtk.orient_next h.ok) s
  have hnew : ∀ y s c, x ≤ y → w₂.gtk.child y s = some c →
      (∃ i ∈ l.keys, W₁ i = c) ∨ ∃ j ∈ r.keys, W₂ j = c := by
    intro y s c hy hc
    rcases eq_or_lt_of_le hy with rfl | hy
    · rw [hempty] at hc
      cases hc
    · exact h₁.toBuilt.new_trans h₂.toBuilt (by rw [hnx]; exact hy) hc
  have hfx : w₂.gtk.Free x := by
    intro y s hc
    rcases lt_or_ge y x with hy | hy
    · rw [h₂.child y (hy.trans hx₁),h₁.child y (hy.trans hx₀),hch₀] at hc
      exact absurd (h.ok.child_lt y s x hc) (not_lt.mpr (le_of_eq hx.symm))
    · rcases hnew y s x hy hc with ⟨i,hi,he⟩ | ⟨j,hj,he⟩
      · exact hxl i hi he
      · exact hxr j hj he
  have hor : g.orient = w₂.gtk.orient := by rw [hg,Gtk.orient_setChild,Gtk.orient_setChild]
  have hor₂ : w₂.gtk.orient x = some o := by rw [h₂.orient x hx₁,h₁.orient x hx₀,hor₀]
  have hmove : ∀ (v : Node F) y, w₂.Fits v y → Fits ({ w₂ with gtk := g } : WorkspaceWidgets) v y :=
    fun v y hv => hv.mono (fun _ _ h => h) (by rw [hor])
  obtain ⟨hok,hstands,hfree,hkeep,hnew'⟩ := Gtk.Stands.pair h₂.ok
    (h₁.stands.grow h₂.toGrown (fun y hy v hv => h₂.fits hy hv) (by rw [hnx]; exact Nat.le_succ x)
      (fun y hy => hy.mono hsl hpw₀.symm))
    (h₂.stands.grow (.refl h₂.ok) (fun _ _ _ hv => hv) (le_of_lt hx₁)
      (fun y hy => hy.mono hsr (by rw [h₁.panes,hpw₀])))
    hn (fun i hi j hj => h₁.toBuilt.cross h₂.toBuilt hdis hold hi hj) le_rfl hxl hxr hor₂ hempty
    (h₁.toBuilt.free_trans h₂.toBuilt hdis hold) h₂.free hfx hnew hmove
    (show g.orient x = some o by rw [hor,hor₂]) hg
  have hlt : ∀ y, y < ww.gtk.next → y < w₀.gtk.next := fun y hy => lt_of_lt_of_le hy hgrow.next
  refine ⟨⟨hok,?_,fun y hy => ?_,fun y hy s => ?_⟩,hx ▸ hstands,?_,hx ▸ hnew'⟩
  · rw [hg,Gtk.next_setChild,Gtk.next_setChild]
    exact hgrow.next.trans (h₁.next.trans h₂.next)
  · rw [hor,h₂.orient y (lt_of_lt_of_le (hlt y hy) h₁.next),h₁.orient y (hlt y hy),
      hgrow.orient y hy]
  · rw [hkeep y s (by rw [hx]; exact ne_of_lt hy),
      h₂.child y (lt_of_lt_of_le (hlt y hy) h₁.next),h₁.child y (hlt y hy),hgrow.child y hy]
  · rw [key_node,Gtk.pairW,if_pos rfl]
    exact hfree

theorem Raised.split (h : ww.Ready (node k (.split o ratio l.key r.key) l r))
    (hn : (node k (.split o ratio l.key r.key) l r).keys.Nodup)
    (hd : ∀ p ∈ treePanes l, p ∉ treePanes r)
    (hw₀ : w₀ = { ww with gtk := (ww.gtk.newPaned o).2 }) (h₁ : Raised w₀ w₁ l W₁)
    (h₂ : Raised w₁ w₂ r W₂) {g : Gtk} (hg : g = (w₂.gtk.setChild ww.gtk.next true
      (some (W₁ l.key))).setChild ww.gtk.next false (some (W₂ r.key)))
    (hw₃ : w₃ = ({ w₂ with gtk := g } : WorkspaceWidgets).track k ww.gtk.next) :
    Raised ww w₃ (node k (.split o ratio l.key r.key) l r)
      (Gtk.pairW W₁ W₂ k l ww.gtk.next) := by
  obtain ⟨hkl,hkr,-,-,hdk⟩ := nodup_node hn
  have hb := Raised.built_split h hn hd hw₀ h₁ h₂ hg
  have hpw₀ : w₀.paneWidgets = ww.paneWidgets := by rw [hw₀]
  have hsp₀ : w₀.splitPaneds = ww.splitPaneds := by rw [hw₀]
  have hsy₀ : w₀.synced = ww.synced := by rw [hw₀]
  have hWk : Gtk.pairW W₁ W₂ k l ww.gtk.next k = ww.gtk.next := if_pos rfl
  have hWl : ∀ n ∈ l.inner, Gtk.pairW W₁ W₂ k l ww.gtk.next n = W₁ n := fun n hn' => by
    rw [Gtk.pairW,if_neg (fun he : n = k => hkl (he ▸ inner_subset l hn')),
      if_pos (inner_subset l hn')]
  have hWr : ∀ n ∈ r.inner, Gtk.pairW W₁ W₂ k l ww.gtk.next n = W₂ n := fun n hn' => by
    rw [Gtk.pairW,if_neg (fun he : n = k => hkr (he ▸ inner_subset r hn')),
      if_neg (fun hl => hdk n hl (inner_subset r hn'))]
  subst hw₃
  refine ⟨hb,?_,?_,fun n => ?_,fun y n => ?_⟩
  · show w₂.rootPaned = _
    rw [h₂.rootPaned,h₁.rootPaned,hw₀]
  · show w₂.paneWidgets = _
    rw [h₂.panes,h₁.panes,hpw₀]
  · show (w₂.splitPaneds.insert k ww.gtk.next).lookup n = _
    rw [HashMap.lookup_insert_ite,h₂.splitPaneds,h₁.splitPaneds,hsp₀]
    simp only [KeyTree.inner,List.mem_cons,List.mem_append]
    by_cases hnk : n = k
    · rw [if_pos hnk,if_pos (.inl hnk),hnk,hWk]
    · rw [if_neg hnk]
      by_cases hnr' : n ∈ r.inner
      · rw [if_pos hnr',if_pos (.inr (.inr hnr')),hWr n hnr']
      · rw [if_neg hnr']
        by_cases hnl' : n ∈ l.inner
        · rw [if_pos hnl',if_pos (.inr (.inl hnl')),hWl n hnl']
        · rw [if_neg hnl',if_neg (by tauto)]
  · show (y,n) ∈ (ww.gtk.next,k) :: w₂.synced ↔ _
    rw [List.mem_cons,h₂.synced,h₁.synced,hsy₀,Prod.mk.injEq]
    simp only [KeyTree.inner,List.mem_cons,List.mem_append]
    constructor
    · rintro (⟨rfl,rfl⟩ | (hs | ⟨hl,rfl⟩) | ⟨hr,rfl⟩)
      · exact .inr ⟨.inl rfl,hWk.symm⟩
      · exact .inl hs
      · exact .inr ⟨.inr (.inl hl),(hWl n hl).symm⟩
      · exact .inr ⟨.inr (.inr hr),(hWr n hr).symm⟩
    · rintro (hs | ⟨rfl | hl | hr,rfl⟩)
      · exact .inr (.inl (.inl hs))
      · exact .inl ⟨hWk,rfl⟩
      · exact .inr (.inl (.inr ⟨hl,hWl n hl⟩))
      · exact .inr (.inr ⟨hr,hWr n hr⟩)

end Split

theorem raised_buildWidget {nodes : Arena F} (hrep : Rep nodes.get t) (hn : t.keys.Nodup)
    (hp : (treePanes t).Nodup) {fuel : ℕ} (hf : t.height ≤ fuel) (h : ww.Ready t) :
    ∃ ww' W, buildWidget (snapshotTreeNode nodes fuel t.key) ww = (W t.key,ww') ∧
      Raised ww ww' t W := by
  induction t generalizing fuel ww with
  | leaf k v =>
    obtain ⟨p,rfl,hk⟩ := rep_leaf_cases hrep
    obtain ⟨f,rfl⟩ : ∃ f, fuel = f+1 := ⟨fuel-1,by simp only [height] at hf; omega⟩
    obtain ⟨pw,hl⟩ := HashMap.mem_iff_lookup.mp (h.panes p (by simp))
    obtain ⟨hor,hfree,hlt⟩ := h.box pw.container ⟨p,by simp,pw,hl,rfl⟩
    refine ⟨ww,fun _ => pw.container,?_,⟨⟨.refl h.ok,⟨⟨pw,hl,rfl⟩,?_,fun _ _ => hlt,?_⟩,hfree,?_⟩,
      rfl,rfl,fun n => by simp [KeyTree.inner],fun y n => by simp [KeyTree.inner]⟩⟩
    · simp only [key_leaf,snapshotTreeNode,show AList.lookup k nodes = _ from hk,buildWidget,hl]
    · intro a ha b hb _
      exact (List.mem_singleton.mp ha).trans (List.mem_singleton.mp hb).symm
    · exact fun _ _ => .inr ⟨p,by simp,pw,hl,rfl⟩
    · intro y s c hy hc
      exact absurd (h.ok.paned_lt y (Gtk.orient_of_child hc)) (not_lt.mpr hy)
  | node k v l r ihl ihr =>
    obtain ⟨o,ratio,rfl,hk⟩ := rep_node_cases hrep
    obtain ⟨f,rfl⟩ : ∃ f, fuel = f+1 := ⟨fuel-1,by simp only [height] at hf; omega⟩
    simp only [height] at hf
    obtain ⟨-,-,hnl,hnr,-⟩ := nodup_node hn
    rw [treePanes_node,List.nodup_append] at hp
    have hd : ∀ p ∈ treePanes l, p ∉ treePanes r := fun p hl hr => hp.2.2 p hl p hr rfl
    obtain ⟨w₀,hw₀⟩ : ∃ w₀ : WorkspaceWidgets, w₀ = { ww with gtk := (ww.gtk.newPaned o).2 } :=
      ⟨_,rfl⟩
    obtain ⟨w₁,W₁,hb₁,hr₁⟩ := ihl hrep.2.2.1 hnl hp.1 (by omega : l.height ≤ f)
      (h.newPaned hw₀ (by simp))
    obtain ⟨w₂,W₂,hb₂,hr₂⟩ := ihr hrep.2.2.2 hnr hp.2.1 (by omega : r.height ≤ f)
      (hr₁.ready (h.newPaned hw₀ (by simp)) hd)
    refine ⟨_,_,?_,Raised.split h hn hd hw₀ hr₁ hr₂ rfl rfl⟩
    rw [hw₀] at hb₁
    simp only [key_node,snapshotTreeNode,show AList.lookup k nodes = _ from hk]
    rw [buildWidget_split hb₁ hb₂ rfl,Gtk.pairW,if_pos rfl]

def detach (g : Gtk) (c : WidgetId) : Gtk :=
  match g.parent c with
  | none => g
  | some parent => g.setChild parent (decide (g.child parent true = some c)) none

theorem detachContainers_eq (ww : WorkspaceWidgets) : ww.detachContainers =
    ww.paneWidgets.values.foldl (fun g pw => detach g pw.container) ww.gtk := rfl

theorem detach_spec {g : Gtk} (h : g.Ok) (c : WidgetId) : (detach g c).Ok ∧
    (detach g c).orient = g.orient ∧ (detach g c).next = g.next ∧
    (∀ x s d, (detach g c).child x s = some d → g.child x s = some d) ∧ (detach g c).Free c := by
  unfold detach
  cases hp : g.parent c with
  | none => exact ⟨h,rfl,rfl,fun _ _ _ hd => hd,(Gtk.parent_eq_none h).mp hp⟩
  | some parent =>
    obtain ⟨side,hc⟩ := (h.parent_iff _ _).mp hp
    dsimp only
    rw [Gtk.side_eq h hc]
    refine ⟨Gtk.ok_setChild_none h _ _,Gtk.orient_setChild _ _ _ _,Gtk.next_setChild _ _ _ _,
      fun x s d hx => ?_,Gtk.free_setChild_none h (.inl hc)⟩
    rw [Gtk.child_setChild_none] at hx
    split at hx
    · cases hx
    · exact hx

/-- Detaching frees the containers and only empties slots. -/
theorem detachAll_spec (l : List PaneWidget) {g g' : Gtk} (h : g.Ok)
    (hg : g' = l.foldl (fun g pw => detach g pw.container) g) : g'.Ok ∧ g'.orient = g.orient ∧
    g'.next = g.next ∧ (∀ x s c, g'.child x s = some c → g.child x s = some c) ∧
    ∀ pw ∈ l, g'.Free pw.container := by
  induction l generalizing g with
  | nil =>
    subst hg
    exact ⟨h,rfl,rfl,fun _ _ _ hc => hc,fun _ hm => by cases hm⟩
  | cons pw l ih =>
    obtain ⟨hok,hor,hnx,hch,hfree⟩ := detach_spec h pw.container
    obtain ⟨hok',hor',hnx',hch',hfree'⟩ := ih hok hg
    refine ⟨hok',hor'.trans hor,hnx'.trans hnx,fun x s c hx => hch x s c (hch' x s c hx),?_⟩
    intro qw hq
    rcases List.mem_cons.mp hq with rfl | hq
    · exact fun x s hx => hfree x s (hch' x s _ hx)
    · exact hfree' qw hq

/-- Before a rebuild the root paned is emptied too. -/
theorem Held.cleared (h : ww.Held) {g : Gtk}
    (hg : g = (ww.detachContainers.setChild ww.rootPaned true none).setChild ww.rootPaned false
      none) : g.Ok ∧ g.orient = ww.gtk.orient ∧ g.next = ww.gtk.next ∧
      (∀ x s c, g.child x s = some c → ww.gtk.child x s = some c) ∧
      (∀ s, g.child ww.rootPaned s = none) ∧
      ∀ p pw, ww.paneWidgets.lookup p = some pw → g.Free pw.container := by
  obtain ⟨hok,hor,hnx,hch,hfree⟩ := detachAll_spec _ h.ok ww.detachContainers_eq
  have ok₁ := Gtk.ok_setChild_none hok ww.rootPaned true
  have hchild : ∀ x s, g.child x s =
      if x = ww.rootPaned then none else ww.detachContainers.child x s := by
    intro x s
    rw [hg,Gtk.child_setChild_none,Gtk.child_setChild_none]
    by_cases hx : x = ww.rootPaned
    · cases s <;> simp [hx]
    · simp [hx]
  refine ⟨hg ▸ Gtk.ok_setChild_none ok₁ _ _,by rw [hg,Gtk.orient_setChild,Gtk.orient_setChild,hor],
    by rw [hg,Gtk.next_setChild,Gtk.next_setChild,hnx],fun x s c hx => ?_,
    fun s => by rw [hchild,if_pos rfl],fun p pw hl x s hx => ?_⟩
  · rw [hchild] at hx
    split at hx
    · cases hx
    · exact hch x s c hx
  · rw [hchild] at hx
    split at hx
    · cases hx
    · refine hfree pw ?_ x s hx
      exact HashMap.mem_values.mpr ⟨p,hl⟩

/-- Shown widgets that are put under the root paned lay out their tree. -/
theorem Held.laid {s : SplitTree F} (h : ww.Held) (hs : Shape s t)
    (hW : Shown ww.gtk.child ww.Fits W t) (hinj : ∀ a ∈ t.keys, ∀ b ∈ t.keys, W a = W b → a = b)
    (hlt : ∀ k ∈ t.keys, W k < ww.gtk.next) (hp : ∀ p, p ∈ ww.paneWidgets ↔ p ∈ s.panes)
    (hfree : ww.gtk.Free (W t.key)) (hempty : ∀ side, ww.gtk.child ww.rootPaned side = none)
    (hne : ∀ k ∈ t.keys, W k ≠ ww.rootPaned)
    (hw : ww' = { ww with gtk := ww.gtk.setChild ww.rootPaned true (some (W t.key)) }) :
    Laid s ww' W := by
  obtain ⟨g,hg⟩ : ∃ g, g = ww.gtk.setChild ww.rootPaned true (some (W t.key)) := ⟨_,rfl⟩
  have hor : g.orient = ww.gtk.orient := by rw [hg,Gtk.orient_setChild]
  have hnx : g.next = ww.gtk.next := by rw [hg,Gtk.next_setChild]
  have hch := Gtk.child_setChild_some h.ok true h.root hfree
  have hok := Gtk.ok_setChild_some h.ok h.root (hempty true) hfree (hlt _ (key_mem_keys t))
  rw [← hg] at hok hch hw
  subst hw
  have hshown : Shown g.child (Fits ({ ww with gtk := g } : WorkspaceWidgets)) W t := by
    refine hW.congr (fun _ _ => rfl) (fun k _ v hv => ?_) (fun k hk j _ side hc => ?_)
    · exact hv.mono (fun _ _ h => h) (congrFun hor _)
    · rw [hch,if_neg (fun he => hne k hk he.1),hc]
  obtain ⟨hfits,hslots⟩ := (shown_iff hs ({ ww with gtk := g } : WorkspaceWidgets) W).mp hshown
  refine ⟨⟨hok,?_,fun x side hx => ?_,fun p pw hl => ?_,fun p pw hl => ?_,h.own⟩,hp,hfits,hslots,
    fun a ha b hb => hinj a ((hs.mem a).mp ha) b ((hs.mem b).mp hb),fun r hroot => .inr ?_⟩
  · show g.orient ww.rootPaned ≠ none
    rw [hor]
    exact h.root
  · replace hx : g.child x side = some ww.rootPaned := hx
    rw [hch] at hx
    split at hx
    · exact hne _ (key_mem_keys t) (Option.some.inj hx)
    · exact h.top x side hx
  · show g.orient pw.container = none
    rw [hor]
    exact h.box p pw hl
  · show pw.container < g.next
    rw [hnx]
    exact h.lt p pw hl
  · obtain rfl := Option.some.inj (hs.root.symm.trans hroot)
    show g.child ww.rootPaned true = _ ∧ g.child ww.rootPaned false = none ∧ _
    refine ⟨?_,?_,fun k hk => hne k ((hs.mem k).mp hk)⟩
    · rw [hch,if_pos ⟨rfl,rfl⟩]
    · rw [hch,if_neg (by simp),hempty]

theorem Held.raised {s : SplitTree F} (h : ww.Held) (hs : Shape s t) (hn : s.panes.Nodup)
    (hp : ∀ p, p ∈ ww.paneWidgets ↔ p ∈ s.panes) :
    ∃ (w₁ : WorkspaceWidgets) (W : NodeId → WidgetId), ww.rebuild (cloneSplitTreeStructure s) =
        { w₁ with gtk := w₁.gtk.setChild w₁.rootPaned true (some (W t.key)) } ∧
      w₁.Held ∧ w₁.rootPaned = ww.rootPaned ∧ w₁.paneWidgets = ww.paneWidgets ∧
      (∀ x, x < ww.gtk.next → w₁.gtk.orient x = ww.gtk.orient x) ∧ ww.gtk.next ≤ w₁.gtk.next ∧
      (∀ side, w₁.gtk.child ww.rootPaned side = none) ∧ w₁.gtk.Free (W t.key) ∧
      Gtk.Stands w₁.gtk w₁.Fits W t ww.gtk.next (ww.Boxes t) ∧
      (∀ n ∈ t.inner, w₁.splitPaneds.lookup n = some (W n)) ∧
      ∀ y n, (y,n) ∈ w₁.synced ↔ (y,n) ∈ ww.synced ∨ n ∈ t.inner ∧ y = W n := by
  obtain ⟨g₀,hg₀⟩ : ∃ g₀, g₀ = (ww.detachContainers.setChild ww.rootPaned true none).setChild
    ww.rootPaned false none := ⟨_,rfl⟩
  obtain ⟨ok₀,hor₀,hnx₀,hch₀,hempty,hfree₀⟩ := h.cleared hg₀
  obtain ⟨w₀,hw₀⟩ : ∃ w₀ : WorkspaceWidgets, w₀ = { ww with gtk := g₀, splitPaneds := ∅ } :=
    ⟨_,rfl⟩
  have hgw : w₀.gtk = g₀ := by rw [hw₀]
  have hpw : w₀.paneWidgets = ww.paneWidgets := by rw [hw₀]
  have hsy : w₀.synced = ww.synced := by rw [hw₀]
  have hready : w₀.Ready t := by
    refine ⟨hgw ▸ ok₀,fun p hpt => ?_,fun x hx => ?_,hpw ▸ h.own⟩
    · rw [hpw,hp,hs.panes_eq]
      exact hpt
    · obtain ⟨p,-,pw,hl,rfl⟩ := hx
      rw [hpw] at hl
      rw [hgw,hor₀,hnx₀]
      exact ⟨h.box p pw hl,hfree₀ p pw hl,h.lt p pw hl⟩
  obtain ⟨w₁,W,hb,hr⟩ := raised_buildWidget hs.rep hs.nodup (hs.panes_eq ▸ hn)
    (hs.height_le_fuel) hready
  have hrlt : ww.rootPaned < ww.gtk.next := h.ok.paned_lt _ h.root
  have hnext : w₀.gtk.next = ww.gtk.next := by rw [hgw,hnx₀]
  have hroot : w₁.rootPaned = ww.rootPaned := by rw [hr.rootPaned,hw₀]
  have hpw₁ : w₁.paneWidgets = ww.paneWidgets := by rw [hr.panes,hpw]
  have hor₁ : ∀ x, x < ww.gtk.next → w₁.gtk.orient x = ww.gtk.orient x := fun x hx => by
    rw [hr.orient x (hnext ▸ hx),hgw,hor₀]
  have hst : Gtk.Stands w₁.gtk w₁.Fits W t ww.gtk.next (ww.Boxes t) := by
    rw [← hnext]
    exact hr.stands.grow (.refl hr.ok) (fun _ _ _ hv => hv) le_rfl
      (fun y hy => hy.mono (List.Subset.refl _) hpw.symm)
  refine ⟨w₁,W,?_,⟨hr.ok,?_,fun x side hx => ?_,fun p pw hl => ?_,fun p pw hl => ?_,?_⟩,hroot,hpw₁,
    hor₁,hnext ▸ hr.next,fun side => ?_,hr.free,hst,fun n hn => ?_,fun y n => ?_⟩
  · rw [hg₀] at hw₀
    rw [hw₀] at hb
    rw [cloneSplitTreeStructure,hs.root,Option.map_some]
    simp only [WorkspaceWidgets.rebuild,hb]
  · rw [hroot,hor₁ _ hrlt]
    exact h.root
  · rw [hroot] at hx
    rcases lt_or_ge x ww.gtk.next with hlt | hge
    · rw [hr.child x (hnext ▸ hlt),hgw] at hx
      exact h.top x side (hch₀ x side _ hx)
    · obtain ⟨j,hj,he⟩ := hr.new x side _ (hnext ▸ hge) hx
      rcases hst.range j hj with hge' | ⟨p,-,pw,hl,he'⟩
      · exact absurd hrlt (not_lt.mpr (he ▸ hge'))
      · exact h.root (by rw [← he,← he']; exact h.box p pw hl)
  · rw [hpw₁] at hl
    rw [hor₁ _ (h.lt p pw hl)]
    exact h.box p pw hl
  · rw [hpw₁] at hl
    exact lt_of_lt_of_le (h.lt p pw hl) (hnext ▸ hr.next)
  · rw [hpw₁]
    exact h.own
  · rw [hr.child _ (hnext ▸ hrlt),hgw,hempty]
  · rw [hr.splitPaneds,if_pos hn]
  · rw [hr.synced,hsy]

/-- What a rebuild lays out: any tree over the panes, with new paneds and their handlers. -/
structure Rebuilt (ww ww' : WorkspaceWidgets) (s : SplitTree F) (t : NodeTree F)
    (W : NodeId → WidgetId) : Prop extends Laid s ww' W where
  rootPaned : ww'.rootPaned = ww.rootPaned
  orient : ∀ x, x < ww.gtk.next → ww'.gtk.orient x = ww.gtk.orient x
  next : ww.gtk.next ≤ ww'.gtk.next
  range : ∀ k ∈ t.keys, ww.gtk.next ≤ W k ∨ ww.gtk.orient (W k) = none
  splitPaneds : ∀ n ∈ t.inner, ww'.splitPaneds.lookup n = some (W n)
  synced : ∀ y n, (y,n) ∈ ww'.synced ↔ (y,n) ∈ ww.synced ∨ n ∈ t.inner ∧ y = W n

theorem Held.rebuild {s : SplitTree F} (h : ww.Held) (hs : Shape s t) (hn : s.panes.Nodup)
    (hp : ∀ p, p ∈ ww.paneWidgets ↔ p ∈ s.panes) :
    ∃ W, Rebuilt ww (ww.rebuild (cloneSplitTreeStructure s)) s t W := by
  obtain ⟨w₁,W,he,hheld,hroot,hpw,hor,hnext,hempty,hfree,hst,hsp,hsy⟩ := h.raised hs hn hp
  have hrlt : ww.rootPaned < ww.gtk.next := h.ok.paned_lt _ h.root
  have hrange : ∀ k ∈ t.keys, ww.gtk.next ≤ W k ∨ ww.gtk.orient (W k) = none := by
    intro k hk
    refine (hst.range k hk).imp_right ?_
    rintro ⟨p,-,pw,hl,he'⟩
    rw [← he']
    exact h.box p pw hl
  have hne : ∀ k ∈ t.keys, W k ≠ w₁.rootPaned := by
    intro k hk he'
    rw [hroot] at he'
    rcases hrange k hk with hge | hb
    · exact absurd hrlt (not_lt.mpr (he' ▸ hge))
    · exact h.root (he' ▸ hb)
  refine ⟨W,⟨hheld.laid hs hst.shown hst.inj hst.lt (fun p => by rw [hpw,hp]) hfree
    (fun side => by rw [hroot,hempty]) hne he,?_,fun x hx => ?_,?_,hrange,fun n hn => ?_,
    fun y n => ?_⟩⟩
  · rw [he]
    exact hroot
  · rw [he]
    show (w₁.gtk.setChild _ _ _).orient x = _
    rw [Gtk.orient_setChild,hor x hx]
  · rw [he]
    show ww.gtk.next ≤ (w₁.gtk.setChild _ _ _).next
    rw [Gtk.next_setChild]
    exact hnext
  · rw [he]
    exact hsp n hn
  · rw [he]
    exact hsy y n

end WorkspaceWidgets

end Limux
