import Limux.GtkSlots
import Limux.Lib.SlotTree
import Limux.SplitLater

/-! The paneds of a workspace lay out its split tree: every node has a widget, a leaf the
container of its pane and a split a paned of its orientation with the widgets of its halves.
What a graft and a cut of the tree do to the widgets. -/
namespace Limux

open KeyTree

variable {F : Type}

namespace WorkspaceWidgets

/-- The widget that may show a node: the container of its pane, or a paned. -/
def Fits (ww : WorkspaceWidgets) : Node F → WidgetId → Prop
  | .leaf p, x => ∃ pw, ww.paneWidgets.lookup p = some pw ∧ pw.container = x
  | .split o _ _ _, x => ww.gtk.orient x = some o

theorem Fits.mapKids {ww : WorkspaceWidgets} {v : Node F} {x : WidgetId} (h : ww.Fits v x)
    (f : NodeId → NodeId) : ww.Fits (Cell.mapKids f v) x := by
  cases v <;> exact h

theorem Fits.mono {ww ww' : WorkspaceWidgets} {v : Node F} {x : WidgetId} (h : ww.Fits v x)
    (hp : ∀ p pw, ww.paneWidgets.lookup p = some pw → ww'.paneWidgets.lookup p = some pw)
    (ho : ww'.gtk.orient x = ww.gtk.orient x) : ww'.Fits v x := by
  cases v with
  | leaf p => exact h.imp (fun pw hpw => ⟨hp p pw hpw.1,hpw.2⟩)
  | split o r a b => exact ho.trans h

/-- The containers are boxes, one for each pane, and no paned shows the root paned. -/
structure Held (ww : WorkspaceWidgets) : Prop where
  ok : ww.gtk.Ok
  root : ww.gtk.orient ww.rootPaned ≠ none
  top : ww.gtk.Free ww.rootPaned
  box : ∀ p pw, ww.paneWidgets.lookup p = some pw → ww.gtk.orient pw.container = none
  lt : ∀ p pw, ww.paneWidgets.lookup p = some pw → pw.container < ww.gtk.next
  own : ∀ p q pw qw, ww.paneWidgets.lookup p = some pw → ww.paneWidgets.lookup q = some qw →
    pw.container = qw.container → p = q

/-- A box that is no container yet. -/
structure Spare (ww : WorkspaceWidgets) (x : WidgetId) : Prop where
  box : ww.gtk.orient x = none
  free : ww.gtk.Free x
  lt : x < ww.gtk.next
  other : ∀ p pw, ww.paneWidgets.lookup p = some pw → pw.container ≠ x

section Boxes

variable {ww : WorkspaceWidgets}

theorem Held.newBox (h : ww.Held) : Held { ww with gtk := ww.gtk.newBox.2 } ∧
    Spare { ww with gtk := ww.gtk.newBox.2 } ww.gtk.next := by
  refine ⟨⟨Gtk.ok_newBox h.ok,h.root,h.top,h.box,fun p pw hl => Nat.lt_succ_of_lt (h.lt p pw hl),
    h.own⟩,⟨Gtk.orient_next h.ok,fun x side hx => ?_,Nat.lt_succ_self _,fun p pw hl => ?_⟩⟩
  · exact absurd (h.ok.child_lt x side _ hx) (lt_irrefl _)
  · exact ne_of_lt (h.lt p pw hl)

theorem Held.insert (h : ww.Held) {pw : PaneWidget} (hsp : ww.Spare pw.container) (q : PaneId) :
    Held { ww with paneWidgets := ww.paneWidgets.insert q pw } := by
  have hnew : ∀ r rw, (ww.paneWidgets.insert q pw).lookup r = some rw →
      r = q ∧ rw = pw ∨ ww.paneWidgets.lookup r = some rw := by
    intro r rw hr
    rw [HashMap.lookup_insert_ite] at hr
    split at hr
    · rename_i he
      exact .inl ⟨he,(Option.some.inj hr).symm⟩
    · exact .inr hr
  refine ⟨h.ok,h.root,h.top,fun r rw hr => ?_,fun r rw hr => ?_,fun r r' rw rw' hr hr' he => ?_⟩
  · rcases hnew r rw hr with ⟨-,rfl⟩ | hr
    · exact hsp.box
    · exact h.box r rw hr
  · rcases hnew r rw hr with ⟨-,rfl⟩ | hr
    · exact hsp.lt
    · exact h.lt r rw hr
  · rcases hnew r rw hr with ⟨rfl,rfl⟩ | h₁ <;> rcases hnew r' rw' hr' with ⟨rfl,rfl⟩ | h₂
    · rfl
    · exact absurd he.symm (hsp.other r' rw' h₂)
    · exact absurd he (hsp.other r rw h₁)
    · exact h.own r r' rw rw' h₁ h₂ he

end Boxes

/-- The widgets differ in their stacks only. -/
structure SameLayout (ww ww' : WorkspaceWidgets) : Prop where
  gtk : ww'.gtk = ww.gtk
  rootPaned : ww'.rootPaned = ww.rootPaned
  splitPaneds : ww'.splitPaneds = ww.splitPaneds
  synced : ww'.synced = ww.synced
  containers : ∀ p, (ww'.paneWidgets.lookup p).map PaneWidget.container =
    (ww.paneWidgets.lookup p).map PaneWidget.container

namespace SameLayout

variable {ww ww' ww'' : WorkspaceWidgets}

theorem refl (ww : WorkspaceWidgets) : ww.SameLayout ww := ⟨rfl,rfl,rfl,rfl,fun _ => rfl⟩

theorem trans (h : ww.SameLayout ww') (h' : ww'.SameLayout ww'') : ww.SameLayout ww'' :=
  ⟨h'.gtk.trans h.gtk,h'.rootPaned.trans h.rootPaned,h'.splitPaneds.trans h.splitPaneds,
    h'.synced.trans h.synced,fun p => (h'.containers p).trans (h.containers p)⟩

theorem modifyStack (ww : WorkspaceWidgets) (p : PaneId) (f : Stack → Stack) :
    ww.SameLayout (ww.modifyStack p f) := by
  refine ⟨rfl,rfl,rfl,rfl,fun q => ?_⟩
  simp only [WorkspaceWidgets.modifyStack,HashMap.lookup_modify]
  split
  · rename_i hq
    rw [hq,Option.map_map]
    rfl
  · rfl

theorem showActive (ww : WorkspaceWidgets) (p : PaneId) (pane : Pane) :
    ww.SameLayout (ww.showActive p pane) := by
  unfold WorkspaceWidgets.showActive
  split
  · exact modifyStack ww p _
  · exact refl ww

theorem lookup (h : ww.SameLayout ww') {p : PaneId} {pw' : PaneWidget}
    (hl : ww'.paneWidgets.lookup p = some pw') :
    ∃ pw, ww.paneWidgets.lookup p = some pw ∧ pw.container = pw'.container := by
  have hc := h.containers p
  rw [hl,Option.map_some] at hc
  exact Option.map_eq_some_iff.mp hc.symm

theorem lookup' (h : ww.SameLayout ww') {p : PaneId} {pw : PaneWidget}
    (hl : ww.paneWidgets.lookup p = some pw) :
    ∃ pw', ww'.paneWidgets.lookup p = some pw' ∧ pw'.container = pw.container := by
  have hc := h.containers p
  rw [hl,Option.map_some] at hc
  exact Option.map_eq_some_iff.mp hc

theorem mem_iff (h : ww.SameLayout ww') (p : PaneId) :
    p ∈ ww'.paneWidgets ↔ p ∈ ww.paneWidgets := by
  rw [HashMap.mem_iff_lookup,HashMap.mem_iff_lookup]
  constructor
  · rintro ⟨pw,hl⟩
    obtain ⟨v,hv,-⟩ := h.lookup hl
    exact ⟨v,hv⟩
  · rintro ⟨pw,hl⟩
    obtain ⟨v,hv,-⟩ := h.lookup' hl
    exact ⟨v,hv⟩

theorem fits (h : ww.SameLayout ww') {v : Node F} {x : WidgetId} (hf : ww.Fits v x) :
    ww'.Fits v x := by
  cases v with
  | leaf p =>
    obtain ⟨pw,hl,rfl⟩ := hf
    exact h.lookup' hl
  | split o r a b =>
    show ww'.gtk.orient x = some o
    rw [h.gtk]
    exact hf

theorem held (h : ww.SameLayout ww') (hh : ww.Held) : ww'.Held := by
  refine ⟨by rw [h.gtk]; exact hh.ok,by rw [h.gtk,h.rootPaned]; exact hh.root,
    by rw [h.gtk,h.rootPaned]; exact hh.top,fun p pw hl => ?_,fun p pw hl => ?_,
    fun p q pw qw hp hq he => ?_⟩
  · obtain ⟨v,hv,hc⟩ := h.lookup hl
    rw [h.gtk,← hc]
    exact hh.box p v hv
  · obtain ⟨v,hv,hc⟩ := h.lookup hl
    rw [h.gtk,← hc]
    exact hh.lt p v hv
  · obtain ⟨v,hv,hcv⟩ := h.lookup hp
    obtain ⟨w,hw,hcw⟩ := h.lookup hq
    exact hh.own p q v w hv hw (by rw [hcv,hcw,he])

theorem spare (h : ww.SameLayout ww') {x : WidgetId} (hs : ww.Spare x) : ww'.Spare x := by
  refine ⟨by rw [h.gtk]; exact hs.box,by rw [h.gtk]; exact hs.free,by rw [h.gtk]; exact hs.lt,
    fun p pw hl => ?_⟩
  obtain ⟨v,hv,hc⟩ := h.lookup hl
  rw [← hc]
  exact hs.other p v hv

end SameLayout

/-- `W` gives every node of the tree the widget that shows it. -/
structure Laid (s : SplitTree F) (ww : WorkspaceWidgets) (W : NodeId → WidgetId) : Prop
    extends ww.Held where
  panes : ∀ p, p ∈ ww.paneWidgets ↔ p ∈ s.panes
  fits : ∀ k v, s.nodes.lookup k = some v → ww.Fits v (W k)
  slots : ∀ k o r a b, s.nodes.lookup k = some (.split o r a b) →
    ww.gtk.child (W k) true = some (W a) ∧ ww.gtk.child (W k) false = some (W b)
  inj : ∀ a ∈ s.nodes, ∀ b ∈ s.nodes, W a = W b → a = b
  rooted : ∀ r, s.root = some r → W r = ww.rootPaned ∨
    ww.gtk.child ww.rootPaned true = some (W r) ∧ ww.gtk.child ww.rootPaned false = none ∧
      ∀ k ∈ s.nodes, W k ≠ ww.rootPaned

theorem shown_iff {s : SplitTree F} {t : NodeTree F} (hs : Shape s t) (ww : WorkspaceWidgets)
    (W : NodeId → WidgetId) : Shown ww.gtk.child ww.Fits W t ↔
      (∀ k v, s.nodes.lookup k = some v → ww.Fits v (W k)) ∧
      ∀ k o r a b, s.nodes.lookup k = some (.split o r a b) →
        ww.gtk.child (W k) true = some (W a) ∧ ww.gtk.child (W k) false = some (W b) := by
  have hmem : ∀ k v, s.nodes.lookup k = some v → k ∈ t.keys := fun k v hk =>
    (hs.mem k).mp (HashMap.mem_iff_lookup.mpr ⟨v,hk⟩)
  rw [hs.rep.shown_iff]
  constructor
  · intro h
    refine ⟨fun k v hk => (h k (hmem k v hk) v hk).1,fun k o r a b hk => ?_⟩
    exact (h k (hmem k _ hk) _ hk).2 (a,b) rfl
  · rintro ⟨hf,hsl⟩ k - v hk
    refine ⟨hf k v hk,fun q hq => ?_⟩
    cases v with
    | leaf p => cases hq
    | split o r a b =>
      cases hq
      exact hsl k o r a b hk

namespace Laid

variable {s s' : SplitTree F} {t : NodeTree F} {ww ww' : WorkspaceWidgets} {W : NodeId → WidgetId}

theorem shown (h : Laid s ww W) (hs : Shape s t) : Shown ww.gtk.child ww.Fits W t :=
  (shown_iff hs ww W).mpr ⟨h.fits,h.slots⟩

theorem injOn (h : Laid s ww W) (hs : Shape s t) {a b : NodeId} (ha : a ∈ t.keys)
    (hb : b ∈ t.keys) (he : W a = W b) : a = b :=
  h.inj a ((hs.mem a).mpr ha) b ((hs.mem b).mpr hb) he

theorem container (h : Laid s ww W) {k : NodeId} {p : PaneId}
    (hk : s.nodes.lookup k = some (.leaf p)) :
    ∃ pw, ww.paneWidgets.lookup p = some pw ∧ pw.container = W k := h.fits k _ hk

theorem lt_next (h : Laid s ww W) {k : NodeId} (hk : k ∈ s.nodes) : W k < ww.gtk.next := by
  obtain ⟨v,hv⟩ := HashMap.mem_iff_lookup.mp hk
  have hf := h.fits k v hv
  cases v with
  | leaf p =>
    obtain ⟨pw,hl,he⟩ := hf
    rw [← he]
    exact h.lt p pw hl
  | split o r a b =>
    refine h.ok.paned_lt _ ?_
    rw [show ww.gtk.orient (W k) = some o from hf]
    simp

/-- Only stacks and ratios differ. -/
theorem same (h : Laid s ww W) (hww : ww.SameLayout ww') (hn : Arena.SameShape s.nodes s'.nodes)
    (hr : s'.root = s.root) (hp : ∀ p, p ∈ s'.panes ↔ p ∈ s.panes) : Laid s' ww' W := by
  refine ⟨hww.held h.toHeld,fun p => ?_,fun k v hk => ?_,fun k o r a b hk => ?_,
    fun a ha b hb => ?_,fun r hroot => ?_⟩
  · rw [hww.mem_iff,hp,h.panes]
  · refine hww.fits ?_
    rcases hn k with he | ⟨o,r,r',a,b,h1,h2⟩
    · exact h.fits k v (he ▸ hk)
    · obtain rfl := Option.some.inj (hk.symm.trans h2)
      exact (h.fits k _ h1 : ww.gtk.orient (W k) = some o)
  · rw [hww.gtk]
    rcases hn k with he | ⟨o',r₁,r₂,a',b',h1,h2⟩
    · exact h.slots k o r a b (he ▸ hk)
    · cases Option.some.inj (hk.symm.trans h2)
      exact h.slots k _ _ _ _ h1
  · exact h.inj a ((hn.mem_iff a).mp ha) b ((hn.mem_iff b).mp hb)
  · rw [hr] at hroot
    rw [hww.rootPaned,hww.gtk]
    refine (h.rooted r hroot).imp_right (fun hc => ⟨hc.1,hc.2.1,fun k hk => ?_⟩)
    exact hc.2.2 k ((hn.mem_iff k).mp hk)

end Laid

/-- `ww'` shows in `paned` what `ww` shows as `c`, with the new container `pw` beside it. -/
structure Grafted (ww ww' : WorkspaceWidgets) (c paned : WidgetId) (q : PaneId) (pw : PaneWidget)
    (before : Bool) (o : Orientation) : Prop where
  ok : ww'.gtk.Ok
  next : ww.gtk.next ≤ ww'.gtk.next
  rootPaned : ww'.rootPaned = ww.rootPaned
  orient : ∀ x, ww'.gtk.orient x = if x = paned then some o else ww.gtk.orient x
  child : ∀ x side, ww'.gtk.child x side =
    if x = paned then some (if side = before then pw.container else c)
    else if ww.gtk.child x side = some c then some paned else ww.gtk.child x side
  panes : ww'.paneWidgets = ww.paneWidgets.insert q pw

/-- The nodes of a graft have the paned and the new container. -/
def graftW (s : SplitTree F) (W : NodeId → WidgetId) (paned c : WidgetId) (k : NodeId) : WidgetId :=
  if k = s.nextId+1 then paned else if k = s.nextId then c else W k

theorem graftW_old {s : SplitTree F} {t : NodeTree F} (hs : Shape s t) (W : NodeId → WidgetId)
    (paned c : WidgetId) {k : NodeId} (hk : k ∈ t.keys) : graftW s W paned c k = W k := by
  obtain ⟨h1,h2⟩ := hs.ne_next hk
  rw [graftW,if_neg h2,if_neg h1]

@[simp] theorem graftW_split (s : SplitTree F) (W : NodeId → WidgetId) (paned c : WidgetId) :
    graftW s W paned c (s.nextId+1) = paned := if_pos rfl

@[simp] theorem graftW_leaf (s : SplitTree F) (W : NodeId → WidgetId) (paned c : WidgetId) :
    graftW s W paned c s.nextId = c := by
  rw [graftW,if_neg (Nat.succ_ne_self s.nextId).symm,if_pos rfl]

namespace Laid

variable {s s' : SplitTree F} {t : NodeTree F} {ww ww' : WorkspaceWidgets} {W : NodeId → WidgetId}
  {c paned : WidgetId} {p q : PaneId} {pw : PaneWidget} {before : Bool} {o : Orientation}
  {k : NodeId} {ratio : F}

/-- The paned of a graft is the root paned, under which there was one pane, or a new one. -/
def Place (ww : WorkspaceWidgets) (t : NodeTree F) (k : NodeId) (paned : WidgetId) : Prop :=
  paned = ww.rootPaned ∧ t.key = k ∨ ww.gtk.next ≤ paned ∧ t.key ≠ k

theorem ne_paned (h : Laid s ww W) (hs : Shape s t) (hk : Sub (leaf k (.leaf p)) t)
    (hp : Place ww t k paned) {j : NodeId} (hj : j ∈ t.keys) : W j ≠ paned := by
  rcases hp with ⟨rfl,htk⟩ | ⟨hle,-⟩
  · -- the one node is a container
    obtain rfl : t = leaf k (.leaf p) := (Sub.refl t).eq_of_key hk htk hs.nodup
    obtain rfl : j = k := List.mem_singleton.mp hj
    obtain ⟨pw,hl,he⟩ := h.container (hs.rep.1 : s.nodes.lookup j = _)
    intro hw
    exact h.root (by rw [← hw,← he]; exact h.box p pw hl)
  · exact ne_of_lt (lt_of_lt_of_le (h.lt_next ((hs.mem j).mpr hj)) hle)

theorem held_graft (h : Laid s ww W) (hs : Shape s t) (hk : Sub (leaf k (.leaf p)) t)
    (hsp : ww.Spare pw.container) (hq : q ∉ s.panes) (hp : Place ww t k paned)
    (hg : Grafted ww ww' (W k) paned q pw before o) : ww'.Held := by
  obtain ⟨tpw,htl,hte⟩ := h.container ((hs.rep.sub hk).1 : s.nodes.lookup k = _)
  have hkn : ww.gtk.orient (W k) = none := hte ▸ h.box p tpw htl
  have hbox : ∀ x, ww.gtk.orient x = none → x < ww.gtk.next → x ≠ paned := by
    rintro x hx hlt rfl
    rcases hp with ⟨rfl,-⟩ | ⟨hle,-⟩
    · exact h.root hx
    · exact absurd hlt (not_lt.mpr hle)
  have hnew : ∀ r rw, ww'.paneWidgets.lookup r = some rw →
      r = q ∧ rw = pw ∨ r ≠ q ∧ ww.paneWidgets.lookup r = some rw := by
    intro r rw hr
    rw [hg.panes,HashMap.lookup_insert_ite] at hr
    split at hr
    · rename_i he
      exact .inl ⟨he,(Option.some.inj hr).symm⟩
    · rename_i he
      exact .inr ⟨he,hr⟩
  refine ⟨hg.ok,?_,?_,fun r rw hr => ?_,fun r rw hr => ?_,fun r r' rw rw' hr hr' he => ?_⟩
  · rw [hg.rootPaned,hg.orient]
    split
    · simp
    · exact h.root
  · intro x side hx
    rw [hg.rootPaned,hg.child] at hx
    split at hx
    · have hx' := Option.some.inj hx
      split at hx'
      · exact h.root (hx' ▸ hsp.box)
      · exact h.root (hx' ▸ hkn)
    · rename_i hne
      split at hx
      · rename_i hc
        obtain rfl := Option.some.inj hx
        rcases hp with ⟨-,htk⟩ | ⟨hle,-⟩
        · have hroot := h.rooted t.key hs.root
          rw [htk] at hroot
          rcases hroot with hr | ⟨hr,-⟩
          · exact h.root (hr ▸ hkn)
          · exact hne (h.ok.one _ _ _ _ _ hc hr).1
        · exact absurd (h.ok.paned_lt _ h.root) (not_lt.mpr hle)
      · exact h.top x side hx
  · rw [hg.orient,if_neg]
    · rcases hnew r rw hr with ⟨-,rfl⟩ | ⟨-,hr⟩
      · exact hsp.box
      · exact h.box r rw hr
    · rcases hnew r rw hr with ⟨-,rfl⟩ | ⟨-,hr⟩
      · exact hbox _ hsp.box hsp.lt
      · exact hbox _ (h.box r rw hr) (h.lt r rw hr)
  · refine lt_of_lt_of_le ?_ hg.next
    rcases hnew r rw hr with ⟨-,rfl⟩ | ⟨-,hr⟩
    · exact hsp.lt
    · exact h.lt r rw hr
  · rcases hnew r rw hr with ⟨rfl,rfl⟩ | ⟨-,hr⟩
    · rcases hnew r' rw' hr' with ⟨rfl,-⟩ | ⟨-,hr'⟩
      · rfl
      · exact absurd he.symm (hsp.other r' rw' hr')
    · rcases hnew r' rw' hr' with ⟨rfl,rfl⟩ | ⟨-,hr'⟩
      · exact absurd he (hsp.other r rw hr)
      · exact h.own r r' rw rw' hr hr' he

theorem shown_graft (h : Laid s ww W) (hs : Shape s t) (hk : Sub (leaf k (.leaf p)) t)
    (hq : q ∉ s.panes) (hp : Place ww t k paned)
    (hg : Grafted ww ww' (W k) paned q pw before o) :
    Shown ww'.gtk.child ww'.Fits (graftW s W paned pw.container)
      (t.subst k (Shape.pairTree before o ratio (s.nextId+1) s.nextId q (leaf k (.leaf p)))) := by
  have hkk : k ∈ t.keys := hk.keys_subset (key_mem_keys _)
  have hne : ∀ j ∈ t.keys, W j ≠ paned := fun j hj => h.ne_paned hs hk hp hj
  have hold : ∀ j ∈ t.keys, graftW s W paned pw.container j = W j := fun j hj =>
    graftW_old hs W paned pw.container hj
  obtain ⟨tpw,htl,hte⟩ := h.container ((hs.rep.sub hk).1 : s.nodes.lookup k = _)
  have hpq : p ≠ q := by
    rintro rfl
    exact hq ((h.panes p).mp (HashMap.mem_iff_lookup.mpr ⟨tpw,htl⟩))
  have hqw : ∀ r rw, ww.paneWidgets.lookup r = some rw → ww'.paneWidgets.lookup r = some rw := by
    intro r rw hr
    rw [hg.panes,HashMap.lookup_insert_ite,if_neg]
    · exact hr
    · rintro rfl
      exact hq ((h.panes r).mp (HashMap.mem_iff_lookup.mpr ⟨rw,hr⟩))
  have hkl : ww'.Fits (.leaf p : Node F) (W k) := ⟨tpw,hqw p tpw htl,hte⟩
  have hql : ww'.Fits (.leaf q : Node F) pw.container :=
    ⟨pw,by rw [hg.panes,HashMap.lookup_insert_ite,if_pos rfl],rfl⟩
  have hon : ww'.gtk.orient paned = some o := by rw [hg.orient,if_pos rfl]
  have hch : ∀ side, ww'.gtk.child paned side =
      some (if side = before then pw.container else W k) := fun side => by
    rw [hg.child,if_pos rfl]
  have hkey : graftW s W paned pw.container
      (Shape.pairTree before o ratio (s.nextId+1) s.nextId q (leaf k (.leaf p))).key = paned := by
    rw [Shape.key_pairTree,graftW_split]
  refine (h.shown hs).subst hs.nodup (.inl hk) ?_ hold ?_ ⟨?_,?_⟩ ?_
  · intro j hj _ f v hf
    cases v with
    | leaf r =>
      obtain ⟨rw,hr,he⟩ := hf
      exact ⟨rw,hqw r rw hr,he⟩
    | split o' r a b =>
      show ww'.gtk.orient (W j) = some o'
      rw [hg.orient,if_neg (hne j hj)]
      exact hf
  · exact fun j hj hjk he => hjk (h.injOn hs hj hkk he)
  · intro j hj _ side hc
    rw [key_leaf] at hc
    rw [hg.child,if_neg (hne j hj),if_pos hc,hkey]
  · intro j hj _ side d hc hd
    rw [key_leaf] at hd
    rw [hg.child,if_neg (hne j hj),if_neg (fun he => hd (Option.some.inj (hc.symm.trans he))),hc]
  · cases before
    · refine ⟨?_,?_,?_,?_,?_⟩
      · rw [graftW_split]; exact hon
      · rw [graftW_split,hch,key_leaf,hold k hkk]; simp
      · rw [graftW_split,hch,key_leaf,graftW_leaf]; simp
      · show ww'.Fits _ (graftW s W paned pw.container k)
        rw [hold k hkk]; exact hkl
      · show ww'.Fits _ (graftW s W paned pw.container s.nextId)
        rw [graftW_leaf]; exact hql
    · refine ⟨?_,?_,?_,?_,?_⟩
      · rw [graftW_split]; exact hon
      · rw [graftW_split,hch,key_leaf,graftW_leaf]; simp
      · rw [graftW_split,hch,key_leaf,hold k hkk]; simp
      · show ww'.Fits _ (graftW s W paned pw.container s.nextId)
        rw [graftW_leaf]; exact hql
      · show ww'.Fits _ (graftW s W paned pw.container k)
        rw [hold k hkk]; exact hkl

theorem graft (h : Laid s ww W) (hs : Shape s t) (hk : Sub (leaf k (.leaf p)) t)
    (hsp : ww.Spare pw.container) (hq : q ∉ s.panes) (hp : Place ww t k paned)
    (hg : Grafted ww ww' (W k) paned q pw before o) (hs' : Shape s' (t.subst k
      (Shape.pairTree before o ratio (s.nextId+1) s.nextId q (leaf k (.leaf p)))))
    (hpanes : ∀ r, r ∈ s'.panes ↔ r = q ∨ r ∈ s.panes) :
    Laid s' ww' (graftW s W paned pw.container) := by
  have hold : ∀ j ∈ t.keys, graftW s W paned pw.container j = W j := fun j hj =>
    graftW_old hs W paned pw.container hj
  have hheld := h.held_graft hs hk hsp hq hp hg
  obtain ⟨hfits,hslots⟩ := (shown_iff hs' ww' _).mp (h.shown_graft hs hk hq hp hg)
  have hwp : ∀ j ∈ t.keys, W j ≠ paned := fun j hj => h.ne_paned hs hk hp hj
  have hwc : ∀ j ∈ t.keys, W j ≠ pw.container := by
    intro j hj he
    obtain ⟨v,hv⟩ := HashMap.mem_iff_lookup.mp ((hs.mem j).mpr hj)
    have hf := h.fits j v hv
    cases v with
    | leaf r =>
      obtain ⟨rw,hr,hw⟩ := hf
      exact hsp.other r rw hr (hw.trans he)
    | split o' r a b =>
      have hb := hsp.box
      rw [← he,show ww.gtk.orient (W j) = some o' from hf] at hb
      cases hb
  have hpc : paned ≠ pw.container := by
    have hb := hheld.box q pw (by rw [hg.panes,HashMap.lookup_insert_ite,if_pos rfl])
    rintro rfl
    rw [hg.orient,if_pos rfl] at hb
    cases hb
  refine ⟨hheld,fun r => ?_,hfits,hslots,fun a ha b hb he => ?_,fun r hr => ?_⟩
  · rw [hg.panes,AList.mem_insert,hpanes,h.panes]
  · have hcases : ∀ j, j ∈ s'.nodes → j = s.nextId+1 ∧ graftW s W paned pw.container j = paned ∨
        j = s.nextId ∧ graftW s W paned pw.container j = pw.container ∨
        j ∈ t.keys ∧ graftW s W paned pw.container j = W j := by
      intro j hj
      rcases (hs.mem_grafted hk hs' j).mp hj with rfl | rfl | hj
      · exact .inl ⟨rfl,graftW_split s W paned pw.container⟩
      · exact .inr (.inl ⟨rfl,graftW_leaf s W paned pw.container⟩)
      · exact .inr (.inr ⟨hj,hold j hj⟩)
    rcases hcases a ha with ⟨rfl,h1⟩ | ⟨rfl,h1⟩ | ⟨ha,h1⟩ <;>
      rcases hcases b hb with ⟨rfl,h2⟩ | ⟨rfl,h2⟩ | ⟨hb,h2⟩ <;>
      replace he := h1.symm.trans (he.trans h2)
    · rfl
    · exact absurd he hpc
    · exact absurd he.symm (hwp b hb)
    · exact absurd he.symm hpc
    · rfl
    · exact absurd he.symm (hwc b hb)
    · exact absurd he (hwp a ha)
    · exact absurd he (hwc a ha)
    · exact h.injOn hs ha hb he
  · rw [hs'.root,key_subst,Shape.key_pairTree] at hr
    obtain rfl := Option.some.inj hr
    rcases hp with ⟨rfl,htk⟩ | ⟨hle,htk⟩
    · rw [htk,redirect_self,graftW_split,hg.rootPaned]
      exact .inl rfl
    · rw [redirect_of_ne htk,hold _ (key_mem_keys t),hg.rootPaned]
      refine (h.rooted t.key hs.root).imp_right (fun hc => ?_)
      have hrp : ww.rootPaned ≠ paned := ne_of_lt (lt_of_lt_of_le (h.ok.paned_lt _ h.root) hle)
      refine ⟨?_,?_,fun j hj => ?_⟩
      · rw [hg.child,if_neg hrp,if_neg (fun he => htk (h.injOn hs (key_mem_keys t)
          (hk.keys_subset (key_mem_keys _)) (Option.some.inj (hc.1.symm.trans he)))),hc.1]
      · rw [hg.child,if_neg hrp,hc.2.1,if_neg (by simp)]
      · rcases (hs.mem_grafted hk hs' j).mp hj with rfl | rfl | hj
        · rw [graftW_split]
          exact hrp.symm
        · rw [graftW_leaf]
          exact fun he => h.root (he ▸ hsp.box)
        · rw [hold j hj]
          exact hc.2.2 j ((hs.mem j).mpr hj)

end Laid

/-- A pane is out of the widgets, with the paned `x` around it. -/
structure Cut (ww ww' : WorkspaceWidgets) (p : PaneId) (x : WidgetId) : Prop where
  synced : ww'.synced = ww.synced
  next : ww'.gtk.next = ww.gtk.next
  orient : ww'.gtk.orient = ww.gtk.orient
  rootPaned : ww'.rootPaned = ww.rootPaned
  panes : ww'.paneWidgets = ww.paneWidgets.erase p
  free : ∀ c, ww.gtk.Free c → ww'.gtk.Free c
  splitPaneds : ∀ n y, ww.splitPaneds.lookup n = some y → y ≠ x →
    ww'.splitPaneds.lookup n = some y

namespace Laid

variable {s s' : SplitTree F} {t : NodeTree F} {ww : WorkspaceWidgets} {W : NodeId → WidgetId}
  {p : PaneId} {k : NodeId}

theorem cut (h : Laid s ww W) (hw : WellFormed s) (hs : Shape s t) (hp : p ∈ s.panes)
    {j : NodeId} {v : Node F} {l r : NodeTree F} {side : Bool} (hj : Sub (node j v l r) t)
    (hk : (if side then l else r) = leaf k (.leaf p))
    (hs' : Shape s' (t.subst j (if side then r else l)))
    (hpanes : s'.panes = s.panes.erase p) :
    Laid s' (ww.removePane p) W ∧ Cut ww (ww.removePane p) p (W j) := by
  have hjt : j ∈ t.keys := hj.keys_subset (by simp [keys])
  obtain ⟨hjl,hjr,-,-,-⟩ := nodup_node (hj.nodup hs.nodup)
  have hsj := (h.shown hs).sub hj
  have hleaf : Sub (leaf k (.leaf p)) t := by
    rw [← hk]
    cases side
    · exact (Sub.right (.refl r)).trans hj
    · exact (Sub.left (.refl l)).trans hj
  have hkt : k ∈ t.keys := hleaf.keys_subset (key_mem_keys _)
  obtain ⟨pw,hl,hpw⟩ := h.container ((hs.rep.sub hleaf).1 : s.nodes.lookup k = _)
  have hc : ww.gtk.child (W j) side = some pw.container := by
    rw [hsj.slot_node,hk,key_leaf,hpw]
  obtain ⟨sib,hsib⟩ : ∃ sib : NodeTree F, sib = if side then r else l := ⟨_,rfl⟩
  rw [← hsib] at hs'
  have hsc : ww.gtk.child (W j) (!side) = some (W sib.key) := by
    rw [hsj.slot_node,hsib]
    cases side <;> rfl
  have hst : Sub sib t := by
    rw [hsib]
    cases side
    · exact (Sub.left (.refl l)).trans hj
    · exact (Sub.right (.refl r)).trans hj
  have hsj' : ∀ x ∈ sib.keys, x ≠ j := by
    rw [hsib]
    rintro x hx rfl
    cases side
    · exact hjl hx
    · exact hjr hx
  -- the paned of the split is the root paned or is shown itself
  have hplace : W j = ww.rootPaned ∧ ww.gtk.Free (W j) ∨ W j ≠ ww.rootPaned ∧
      ∃ gp s, gp ≠ W j ∧ ww.gtk.child gp s = some (W j) := by
    by_cases hr : W j = ww.rootPaned
    · exact .inl ⟨hr,hr ▸ h.top⟩
    refine .inr ⟨hr,?_⟩
    by_cases htk : j = t.key
    · rcases h.rooted t.key hs.root with hroot | ⟨hroot,-⟩
      · exact absurd (htk ▸ hroot) hr
      · exact ⟨ww.rootPaned,true,fun he => hr he.symm,htk ▸ hroot⟩
    · obtain ⟨g,hg,s,hgs⟩ := (h.shown hs).exists_slot hjt htk
      refine ⟨W g,s,fun he => ?_,hgs⟩
      obtain rfl := h.injOn hs hg hjt he
      rw [hsj.slot_node] at hgs
      have hkey := h.injOn hs ?_ hjt (Option.some.inj hgs)
      · cases s
        · exact hjr (hkey ▸ key_mem_keys r)
        · exact hjl (hkey ▸ key_mem_keys l)
      · refine hj.keys_subset ?_
        cases s <;> simp [keys]
  obtain ⟨g,splits,he,ok,hnext,hor,hsplits,hch⟩ := removePane_spec h.ok hl hc hsc hplace
  rw [he]
  have hnj : ∀ x ∈ t.keys, x ≠ j → W x ≠ W j := fun x hx hne hw => hne (h.injOn hs hx hjt hw)
  have hslot : ∀ x, x ≠ W j → ∀ s, g.child x s =
      if ww.gtk.child x s = some (W j) then some (W sib.key) else ww.gtk.child x s :=
    fun x hx s => by rw [hch,if_neg hx]
  have hfit : ∀ i ∈ t.keys, i ≠ k → ∀ v : Node F, ww.Fits v (W i) →
      ({ ww with gtk := g, paneWidgets := ww.paneWidgets.erase p, splitPaneds := splits } :
        WorkspaceWidgets).Fits v (W i) := by
    intro i hi hik v hf
    cases v with
    | leaf q =>
      obtain ⟨qw,hq,hqw⟩ := hf
      refine ⟨qw,?_,hqw⟩
      rw [HashMap.lookup_erase_ite,if_neg]
      · exact hq
      · rintro rfl
        obtain rfl := Option.some.inj (hl.symm.trans hq)
        exact hik (h.injOn hs hi hkt (hqw.symm.trans hpw))
    | split o a b c =>
      show g.orient (W i) = some o
      rw [hor]
      exact hf
  have hshown : Shown g.child (Fits ({ ww with
      gtk := g, paneWidgets := ww.paneWidgets.erase p, splitPaneds := splits } :
        WorkspaceWidgets)) W (t.subst j sib) := by
    refine (h.shown hs).subst hs.nodup (.inl hj) ?_ (fun _ _ => rfl) ?_ ⟨?_,?_⟩ ?_
    · intro i hi hiu f v hf
      refine (hfit i hi ?_ v hf).mapKids f
      rintro rfl
      refine hiu ?_
      cases side
      · simp [keys,show r = _ from hk]
      · simp [keys,show l = _ from hk]
    · exact fun i hi hij => hnj i hi hij
    · intro i hi hiu s hs
      rw [key_node] at hs
      rw [hslot _ (hnj i hi (fun he => hiu (by simp [keys,he]))),if_pos hs]
    · intro i hi hiu s c hs hc
      rw [key_node] at hc
      rw [hslot _ (hnj i hi (fun he => hiu (by simp [keys,he]))),
        if_neg (fun he => hc (Option.some.inj (hs.symm.trans he))),hs]
    · refine ((h.shown hs).sub hst).congr (fun _ _ => rfl) (fun i hi v hf => ?_)
        (fun i hi m hm s hs => ?_)
      · refine hfit i (hst.keys_subset hi) ?_ v hf
        rintro rfl
        rw [hsib] at hi
        obtain ⟨-,-,-,-,hd⟩ := nodup_node (hj.nodup hs.nodup)
        cases side
        · exact hd i hi (by rw [show r = _ from hk]; simp [keys])
        · exact hd i (by rw [show l = _ from hk]; simp [keys]) hi
      · rw [hslot _ (hnj i (hst.keys_subset hi) (hsj' i hi)),if_neg,hs]
        rw [hs]
        exact fun he => hnj m (hst.keys_subset hm) (hsj' m hm) (Option.some.inj he)
  rw [hsib] at hs' hshown
  obtain ⟨hfits,hslots⟩ := (shown_iff hs' ({ ww with
    gtk := g, paneWidgets := ww.paneWidgets.erase p, splitPaneds := splits } :
      WorkspaceWidgets) W).mp hshown
  refine ⟨⟨⟨ok,?_,fun x s hx => ?_,fun q qw hq => ?_,fun q qw hq => ?_,
    fun q q' qw qw' hq hq' => ?_⟩,fun q => ?_,hfits,hslots,fun a ha b hb => ?_,fun r hr => ?_⟩,
    ⟨rfl,hnext,hor,rfl,rfl,fun c hc x s hx => ?_,hsplits⟩⟩
  · show g.orient ww.rootPaned ≠ none
    rw [hor]
    exact h.root
  · show False
    replace hx : g.child x s = some ww.rootPaned := hx
    have hne : W sib.key ≠ ww.rootPaned := fun hw => h.top _ _ (hw ▸ hsc)
    rw [hch] at hx
    split_ifs at hx
    · exact hne (Option.some.inj hx)
    · exact hne (Option.some.inj hx)
    · exact h.top x s hx
  · show g.orient qw.container = none
    rw [hor]
    exact h.box q qw (HashMap.lookup_of_erase hq)
  · show qw.container < g.next
    rw [hnext]
    exact h.lt q qw (HashMap.lookup_of_erase hq)
  · exact h.own q q' qw qw' (HashMap.lookup_of_erase hq) (HashMap.lookup_of_erase hq')
  · rw [AList.mem_erase,h.panes,hpanes,hw.panes_nodup.mem_erase_iff]
  · exact h.injOn hs (hs.mem_cut hj hs' ha).1 (hs.mem_cut hj hs' hb).1
  · rw [hs'.root,key_subst,← hsib] at hr
    obtain rfl := Option.some.inj hr
    show W _ = ww.rootPaned ∨ g.child ww.rootPaned true = _ ∧ g.child ww.rootPaned false = none ∧
      ∀ i ∈ s'.nodes, W i ≠ ww.rootPaned
    have hroot := h.rooted t.key hs.root
    by_cases htk : t.key = j
    · rw [htk,redirect_self]
      rw [htk] at hroot
      refine .inr ?_
      rcases hroot with hr | ⟨h1,h2,h3⟩
      · refine ⟨?_,?_,fun i hi => ?_⟩
        · rw [hch,if_pos hr.symm,if_pos ⟨hr,rfl⟩]
        · rw [hch,if_pos hr.symm,if_neg (by simp)]
        · rw [← hr]
          exact hnj i (hs.mem_cut hj hs' hi).1 (hs.mem_cut hj hs' hi).2.1
      · have hne : ww.rootPaned ≠ W j := (h3 j ((hs.mem j).mpr hjt)).symm
        refine ⟨?_,?_,fun i hi => h3 i ((hs.mem i).mpr (hs.mem_cut hj hs' hi).1)⟩
        · rw [hslot _ hne,if_pos h1]
        · rw [hslot _ hne,h2,if_neg (by simp)]
    · rw [redirect_of_ne htk]
      refine hroot.imp_right (fun hc => ?_)
      obtain ⟨h1,h2,h3⟩ := hc
      have hne : ww.rootPaned ≠ W j := (h3 j ((hs.mem j).mpr hjt)).symm
      refine ⟨?_,?_,fun i hi => h3 i ((hs.mem i).mpr (hs.mem_cut hj hs' hi).1)⟩
      · rw [hslot _ hne,if_neg,h1]
        rw [h1]
        exact fun hw => hnj t.key (key_mem_keys t) htk (Option.some.inj hw)
      · rw [hslot _ hne,h2,if_neg (by simp)]
  · replace hx : g.child x s = some c := hx
    rw [hch] at hx
    split_ifs at hx
    · exact hc _ _ (hsc.trans hx)
    · exact hc _ _ (hsc.trans hx)
    · exact hc x s hx

end Laid

end WorkspaceWidgets

end Limux
