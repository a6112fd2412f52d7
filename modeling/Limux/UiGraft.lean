import Limux.UiTree
import Limux.UiSteps

/-! The splits and closed panes of a workspace, as grafts and cuts of its layout. -/
namespace Limux

open KeyTree

variable {F : Type}

namespace WorkspaceWidgets

variable {s s' : SplitTree F} {t : NodeTree F} {ww ww' : WorkspaceWidgets} {W : NodeId → WidgetId}
  {p q : PaneId} {pw : PaneWidget} {k node : NodeId} {o : Orientation}

theorem Held.build (h : ww.Held) {panel : PanelKind} {widget : PanelWidget}
    (hb : ww.buildPaneWidget panel widget = (pw,ww')) : ww'.Held ∧ ww'.Spare pw.container := by
  cases hb
  exact h.newBox

theorem Laid.build (h : Laid s ww W) {panel : PanelKind} {widget : PanelWidget}
    (hb : ww.buildPaneWidget panel widget = (pw,ww')) : Laid s ww' W ∧ ww'.Spare pw.container := by
  obtain ⟨hh,hs⟩ := h.toHeld.build hb
  cases hb
  exact ⟨⟨hh,h.panes,h.fits,h.slots,h.inj,h.rooted⟩,hs⟩

/-- The paned a split made, in its place and tracked under its node. -/
structure Placed (ww ww' : WorkspaceWidgets) (t : NodeTree F) (k node : NodeId) (c paned : WidgetId)
    (q : PaneId) (pw : PaneWidget) (before : Bool) (o : Orientation) : Prop
    extends Grafted ww ww' c paned q pw before o where
  place : Laid.Place ww t k paned
  splitPaneds : ww'.splitPaneds = ww.splitPaneds.insert node paned
  synced : ww'.synced = (paned,node) :: ww.synced

namespace Laid

theorem only_slots (h : Laid s ww W) (hs : Shape s t) (hk : Sub (leaf k (.leaf p)) t)
    (ht : t.key = k) :
    ww.gtk.child ww.rootPaned true = some (W k) ∧ ww.gtk.child ww.rootPaned false = none := by
  obtain ⟨tpw,htl,hte⟩ := h.container ((hs.rep.sub hk).1 : s.nodes.lookup k = _)
  rcases h.rooted t.key hs.root with hr | ⟨h1,h2,-⟩
  · rw [ht] at hr
    exact absurd (h.box p tpw htl) (hte ▸ hr ▸ h.root)
  · exact ⟨ht ▸ h1,h2⟩

theorem exists_parent (h : Laid s ww W) (hs : Shape s t) (hk : k ∈ t.keys) (ht : t.key ≠ k) :
    ∃ parent side, ww.gtk.parent (W k) = some parent ∧ ww.gtk.child parent side = some (W k) := by
  obtain ⟨j,hj,side,hc⟩ := (h.shown hs).exists_slot hk (Ne.symm ht)
  exact ⟨W j,side,(h.ok.parent_iff _ _).mpr ⟨side,hc⟩,hc⟩

theorem ne_spare (h : Laid s ww W) {x : WidgetId} (hx : ww.Spare x)
    (hk : s.nodes.lookup k = some (.leaf p)) : W k ≠ x := by
  obtain ⟨pw,hl,he⟩ := h.container hk
  exact fun hw => hx.other p pw hl (he.trans hw)

theorem placed_wrap (h : Laid s ww W) (hs : Shape s t) (hk : Sub (leaf k (.leaf p)) t)
    (hsp : ww.Spare pw.container) (ht : t.key ≠ k) (q : PaneId) (o : Orientation) (before : Bool)
    (node : NodeId) {parent : WidgetId} {side : Bool}
    (hc : ww.gtk.child parent side = some (W k)) {paned : WidgetId} {g' : Gtk}
    (hw : wrap ww.gtk parent side o (if before then pw.container else W k)
      (if before then W k else pw.container) = (paned,g')) :
    Placed ww { ({ ww with gtk := g' } : WorkspaceWidgets).track node paned with
      paneWidgets := ww.paneWidgets.insert q pw } t k node (W k) paned q pw before o := by
  have hlook : s.nodes.lookup k = some (.leaf p) := (hs.rep.sub hk).1
  have hne := h.ne_spare hsp hlook
  have hlt := h.ok.child_lt _ _ _ hc
  obtain ⟨first,hfirst⟩ : ∃ first, first = if before then pw.container else W k := ⟨_,rfl⟩
  obtain ⟨second,hsecond⟩ : ∃ second, second = if before then W k else pw.container := ⟨_,rfl⟩
  rw [← hfirst,← hsecond] at hw
  have hspec := @Gtk.wrap_spec _ h.ok parent (W k) first second side o hc
  rw [hw] at hspec
  obtain ⟨hp,hok,hnx,hor,hch⟩ := hspec
    (by rw [hfirst]; cases before; exacts [.inl rfl,.inr hsp.free])
    (by rw [hsecond]; cases before; exacts [.inr hsp.free,.inl rfl])
    (by rw [hfirst,hsecond]; cases before; exacts [hne,hne.symm])
    (by rw [hfirst]; cases before; exacts [hlt,hsp.lt])
    (by rw [hsecond]; cases before; exacts [hsp.lt,hlt])
  dsimp only at hp hok hnx hor hch
  subst hp
  refine ⟨⟨hok,?_,rfl,hor,fun x s => ?_,rfl⟩,.inr ⟨le_rfl,ht⟩,rfl,rfl⟩
  · show ww.gtk.next ≤ g'.next
    rw [hnx]
    exact Nat.le_succ _
  · show g'.child x s = _
    rw [hch,hfirst,hsecond]
    cases before <;> cases s <;> rfl

theorem placed_root (h : Laid s ww W) (hs : Shape s t) (hk : Sub (leaf k (.leaf p)) t)
    (hsp : ww.Spare pw.container) (ht : t.key = k) (q : PaneId) (o : Orientation) (before : Bool)
    (node : NodeId) {g : Gtk} (hg : g = if before then
      ((((ww.gtk.setOrientation ww.rootPaned o).setChild ww.rootPaned true none).setChild
        ww.rootPaned false none).setChild ww.rootPaned true (some pw.container)).setChild
          ww.rootPaned false (some (W k))
      else (ww.gtk.setOrientation ww.rootPaned o).setChild ww.rootPaned false
        (some pw.container)) :
    Placed ww { ({ ww with gtk := g } : WorkspaceWidgets).track node ww.rootPaned with
      paneWidgets := ww.paneWidgets.insert q pw } t k node (W k) ww.rootPaned q pw before o := by
  obtain ⟨h1,h2⟩ := h.only_slots hs hk ht
  have hspec : g.Ok ∧ g.next = ww.gtk.next ∧
      (∀ x, g.orient x = if x = ww.rootPaned then some o else ww.gtk.orient x) ∧
      ∀ x s, g.child x s = if x = ww.rootPaned then some (if s = before then pw.container else W k)
        else if ww.gtk.child x s = some (W k) then some ww.rootPaned else ww.gtk.child x s := by
    cases before with
    | false =>
      obtain ⟨hok,hnx,hor,hch⟩ := Gtk.split_root_spec h.ok o h.root h1 h2 hsp.free hsp.lt
      rw [hg]
      refine ⟨hok,hnx,hor,fun x s => (hch x s).trans ?_⟩
      cases s <;> rfl
    | true =>
      obtain ⟨hok,hnx,hor,hch⟩ := Gtk.split_root_before_spec h.ok o h.root h1 hsp.free hsp.lt hg
      refine ⟨hok,hnx,hor,fun x s => (hch x s).trans ?_⟩
      cases s <;> rfl
  obtain ⟨hok,hnx,hor,hch⟩ := hspec
  exact ⟨⟨hok,le_of_eq hnx.symm,rfl,hor,hch,rfl⟩,.inl ⟨rfl,ht⟩,rfl,rfl⟩

theorem placed_addSplit (h : Laid s ww W) (hs : Shape s t) (hk : Sub (leaf k (.leaf p)) t)
    (hsp : ww.Spare pw.container) (q : PaneId) (o : Orientation) (node : NodeId) {only : Bool}
    (honly : only = true ↔ t.key = k) : ∃ paned,
      Placed ww (ww.addSplit only p q pw o (some node)) t k node (W k) paned q pw false o := by
  obtain ⟨tpw,htl,hte⟩ := h.container ((hs.rep.sub hk).1 : s.nodes.lookup k = _)
  cases only with
  | true =>
    have hp := h.placed_root hs hk hsp (honly.mp rfl) q o false node rfl
    exact ⟨ww.rootPaned,hp⟩
  | false =>
    have ht : t.key ≠ k := fun he => by simpa using honly.mpr he
    have hkt : k ∈ t.keys := hk.keys_subset (key_mem_keys _)
    obtain ⟨parent,side,hpar,hc⟩ := h.exists_parent hs hkt ht
    have hside := Gtk.side_eq h.ok hc
    have hp := h.placed_wrap hs hk hsp ht q o false node hc rfl
    refine ⟨ww.gtk.next,?_⟩
    simp only [addSplit,Bool.false_eq_true,if_false,htl,hte,hpar,hside]
    exact hp

theorem placed_placeTab (h : Laid s ww W) (hs : Shape s t) (hk : Sub (leaf k (.leaf p)) t)
    (hsp : ww.Spare pw.container) (q : PaneId) (o : Orientation) (before : Bool) (node : NodeId)
    {only : Bool} (honly : only = true ↔ t.key = k) {nested : Option (WidgetId × Bool)}
    (hn : only = false → ∃ parent, ww.gtk.parent (W k) = some parent ∧
      nested = some (parent,decide (ww.gtk.child parent true = some (W k))))
    (hpl : Ui.placeTab ww (W k) pw q nested only before o node = some ww') : ∃ paned,
      Placed ww ww' t k node (W k) paned q pw before o := by
  cases only with
  | true =>
    have hp := h.placed_root hs hk hsp (honly.mp rfl) q o before node rfl
    cases hpl
    exact ⟨ww.rootPaned,hp⟩
  | false =>
    have ht : t.key ≠ k := fun he => by simpa using honly.mpr he
    obtain ⟨parent,hpar,rfl⟩ := hn rfl
    obtain ⟨side,hc⟩ := (h.ok.parent_iff _ _).mp hpar
    rw [Gtk.side_eq h.ok hc] at hpl
    have hp := h.placed_wrap hs hk hsp ht q o before node hc rfl
    cases hpl
    exact ⟨_,hp⟩

end Laid

end WorkspaceWidgets

end Limux
