import Limux.SplitMove
import Limux.UiWired

/-! The layout of the widgets is that of the split tree, in every reachable state: what each
edit does to the paneds and their handlers. -/
namespace Limux

open KeyTree

variable {F : Type}

/-- There is one pane exactly if its leaf is the root. -/
theorem WsShape.only_iff {ws : Workspace F} (h : WsShape ws) {t : NodeTree F}
    (hs : Shape ws.splitTree t) {k : NodeId} {p : PaneId} (hk : Sub (leaf k (.leaf p)) t) :
    ws.panes.keys.length = 1 ↔ t.key = k := by
  have hlen : ws.panes.keys.length = (treePanes t).length := by
    refine List.Perm.length_eq ((List.perm_ext_iff_of_nodup ws.panes.keys_nodup ?_).mpr ?_)
    · rw [← hs.panes_eq]
      exact h.tree.panes_nodup
    · intro q
      rw [← hs.panes_eq,← h.keys]
      exact AList.mem_keys.symm
  rw [hlen]
  constructor
  · intro h1
    obtain ⟨j,v,rfl⟩ := (treePanes_length_one hs.rep).mp h1
    cases hk
    rfl
  · intro he
    obtain rfl : t = leaf k (.leaf p) := (Sub.refl t).eq_of_key hk he hs.nodup
    simp

namespace WorkspaceWidgets

/-- The widgets lay out the tree, and their handlers are in order. -/
structure Arranged (s : SplitTree F) (ww : WorkspaceWidgets) (W : NodeId → WidgetId) : Prop
    extends Laid s ww W, Wired s ww W

variable {s s' : SplitTree F} {t : NodeTree F} {ww ww' : WorkspaceWidgets} {W : NodeId → WidgetId}

namespace Arranged

theorem same (h : Arranged s ww W) (hwf : WellFormed s) (hww : ww.SameLayout ww')
    (hr : s.Resized s') :
    Arranged s' ww' W ∧ (Tracked s ww W → Tracked s' ww' W) := by
  have hsub : ∀ n ∈ s'.nodes, n ∈ s.nodes := fun n hn => (hr.nodes.mem_iff n).mp hn
  have hl := SplitTree.Later.of_sameShape hr.nodes hr.nextId
  have hp := hwf.panes_of_sameShape hr.nodes hr.root hr.nextId
  refine ⟨⟨h.toLaid.same hww hr.nodes hr.root (fun p => by rw [hp]),
    h.toWired.sub hl hsub hww.synced (by rw [hww.gtk])⟩,fun ht => ?_⟩
  rcases hwf with hv | ⟨t,ht'⟩
  · intro k hk
    obtain ⟨v,hv'⟩ := HashMap.mem_iff_lookup.mp (hsub k (SplitTree.mem_of_splitOf hk))
    rw [hv.lookup] at hv'
    cases hv'
  · exact ht.sub hl hsub ht'.shape hww.synced (fun k _ hk => by rw [hww.splitPaneds,hk])

theorem removed (h : Arranged s ww W) (hwf : WellFormed s) {p q : PaneId} (hp : p ∈ s.panes)
    (hq : q ∈ s.panes) (hqp : q ≠ p) :
    Arranged (s.remove p).2 (ww.removePane p) W ∧
      (Tracked s ww W → Tracked (s.remove p).2 (ww.removePane p) W) ∧
      ∃ x, Cut ww (ww.removePane p) p x := by
  rcases hwf with hv | ⟨t,ht⟩
  · rw [hv.panes] at hp
    cases hp
  have hs := ht.shape
  have hl := WellFormed.later_remove (.inr ⟨t,ht⟩ : WellFormed s) p
  rcases SplitTree.remove_cuts hs p with ⟨-,hn⟩ | ⟨-,-,he⟩ | ⟨j,v,l,r,k,side,hj,hk,-,hs',-⟩
  · exact absurd (hs.panes_eq ▸ hp) hn
  · rw [hs.panes_eq,he,treePanes_leaf,List.mem_singleton] at hq
    exact absurd hq hqp
  · obtain ⟨hL,hcut⟩ := h.toLaid.cut (.inr ⟨t,ht⟩) hs hp hj hk hs'
      (WellFormed.panes_remove (.inr ⟨t,ht⟩) p)
    have hsub : ∀ n ∈ (s.remove p).2.nodes, n ∈ s.nodes := fun n hn =>
      (hs.mem n).mpr (hs.mem_cut hj hs' hn).1
    refine ⟨⟨hL,h.toWired.sub hl hsub hcut.synced hcut.orient⟩,fun htr => ?_,W j,hcut⟩
    refine htr.sub hl hsub hs hcut.synced (fun i hi hlook => hcut.splitPaneds i _ hlook ?_)
    have hm := hs.mem_cut hj hs' hi
    exact fun he => hm.2.1 (h.injOn hs hm.1 (hj.keys_subset (by simp [keys])) he)

theorem grafted [F64Ops F] (h : Arranged s ww W) (hwf : WellFormed s) {p q : PaneId}
    (hp : p ∈ s.panes) (hq : q ∉ s.panes) {pw : PaneWidget} (hsp : ww.Spare pw.container)
    {before : Bool} {o : Orientation} (hplace : ∀ t k, Shape s t → Sub (leaf k (.leaf p)) t →
      (s.splitAt before p q o).1 = some (s.nextId+1) → ∃ paned,
        Placed ww ww' t k (s.nextId+1) (W k) paned q pw before o) :
    ∃ W', Arranged (s.splitAt before p q o).2 ww' W' ∧
      (Tracked s ww W → Tracked (s.splitAt before p q o).2 ww' W') := by
  obtain ⟨-,hperm⟩ := hwf.splitAt_ok before q o hp
  rcases hwf with hv | ⟨t,ht⟩
  · rw [hv.panes] at hp
    cases hp
  have hs := ht.shape
  rcases SplitTree.splitAt_spec hs before p q o with ⟨-,hn⟩ | ⟨k,hk,hid,-,hs'⟩
  · exact absurd (hs.panes_eq ▸ hp) hn
  · obtain ⟨paned,hpl⟩ := hplace t k hs hk hid
    have hL := h.toLaid.graft hs hk hsp hq hpl.place hpl.toGrafted hs'
      (fun r => by rw [hperm.mem_iff,List.mem_cons])
    exact ⟨_,⟨hL,h.toWired.graft h.toLaid hs hk hsp hpl hs' hL.inj⟩,
      fun htr => htr.graft hs hk hpl hs'⟩

theorem rebuilt (hw : ww.Held) (h : Wired s ww W) (hl : s.Later s') (hwf : WellFormed s')
    (hne : s'.panes ≠ []) (hp : ∀ p, p ∈ ww.paneWidgets ↔ p ∈ s'.panes) :
    ∃ W', Arranged s' (ww.rebuild (cloneSplitTreeStructure s')) W' ∧
      Tracked s' (ww.rebuild (cloneSplitTreeStructure s')) W' := by
  obtain ⟨t,ht⟩ := hwf.resolve_left (fun hv => hne hv.panes)
  obtain ⟨W',hr⟩ := hw.rebuild ht.shape hwf.panes_nodup hp
  obtain ⟨hw',ht'⟩ := hr.wired ht.shape hw.ok hl h.paned h.split
  exact ⟨W',⟨hr.toLaid,hw'⟩,ht'⟩

theorem build (h : Arranged s ww W) {panel : PanelKind} {widget : PanelWidget} {pw : PaneWidget}
    (hb : ww.buildPaneWidget panel widget = (pw,ww')) :
    Arranged s ww' W ∧ (Tracked s ww W → Tracked s ww' W) ∧ ww'.Spare pw.container := by
  obtain ⟨hL,hsp⟩ := h.toLaid.build hb
  cases hb
  exact ⟨⟨hL,h.toWired.sub (.refl s) (fun _ hn => hn) rfl rfl⟩,id,hsp⟩

theorem removed_rebuilt (h : Arranged s ww W) (hwf : WellFormed s) {p q : PaneId} (hp : p ∈ s.panes)
    (hq : q ∈ s.panes) (hqp : q ≠ p) (hl : s.Later s') (hwf' : WellFormed s')
    (hpanes : ∀ r, r ∈ s'.panes ↔ r ∈ s.panes ∧ r ≠ p) : ∃ W',
      Arranged s' ((ww.removePane p).rebuild (cloneSplitTreeStructure s')) W' ∧
      Tracked s' ((ww.removePane p).rebuild (cloneSplitTreeStructure s')) W' := by
  obtain ⟨ha,-,x,hcut⟩ := h.removed hwf hp hq hqp
  refine rebuilt ha.toHeld (h.toWired.sub (.refl s) (fun _ hn => hn) hcut.synced hcut.orient) hl
    hwf' (List.ne_nil_of_mem ((hpanes q).mpr ⟨hq,hqp⟩)) (fun r => ?_)
  rw [hcut.panes,AList.mem_erase,h.panes,hpanes,and_comm]

end Arranged

theorem Cut.spare {p : PaneId} {x c : WidgetId} (h : Cut ww ww' p x) (hs : ww.Spare c) :
    ww'.Spare c := by
  refine ⟨by rw [h.orient]; exact hs.box,h.free c hs.free,by rw [h.next]; exact hs.lt,
    fun q qw hq => hs.other q qw ?_⟩
  rw [h.panes] at hq
  exact HashMap.lookup_of_erase hq

theorem child_new (x : WidgetId) (side : Bool) :
    WorkspaceWidgets.new.gtk.child x side = none := by
  show (Gtk.empty.newPaned .horizontal).2.child x side = none
  rw [Gtk.child_newPaned Gtk.ok_empty]
  rfl

theorem held_new : WorkspaceWidgets.new.Held := by
  refine ⟨Gtk.ok_newPaned Gtk.ok_empty _,?_,fun x side => ?_,fun p pw hl => ?_,fun p pw hl => ?_,
    fun p q pw qw hl => ?_⟩
  · show (Gtk.empty.newPaned .horizontal).2.orient 0 ≠ none
    rw [Gtk.orient_newPaned]
    simp [Gtk.empty]
  · rw [child_new]
    simp
  all_goals cases hl

/-- What is built from nothing is laid out under the root paned. -/
theorem Rested.arranged (h : Rested .new ww s t W) (hs : Shape s t)
    (hw : ww' = { ww with gtk := ww.gtk.setChild ww.rootPaned true (some (W t.key)) }) :
    Arranged s ww' W ∧ (t.inner.length ≤ 1 ↔ Tracked s ww' W) ∧
      ∀ W', Tracked s ww' W' → t.inner.length ≤ 1 := by
  have hroot : ww.rootPaned < WorkspaceWidgets.new.gtk.next := by
    rw [h.rootPaned]
    exact held_new.ok.paned_lt _ held_new.root
  have hL : Laid s ww' W := by
    refine h.held.laid hs h.stands.shown h.stands.inj h.stands.lt (fun p => ?_) h.free
      (fun side => ?_) (fun k hk he => ?_) hw
    · rw [h.panes,hs.panes_eq]
      exact or_iff_right (AList.notMem_empty p)
    · rw [h.child _ hroot,child_new]
    · have := (h.stands.range k hk).resolve_right id
      exact absurd hroot (not_lt.mpr (he ▸ this))
  have hsync : ∀ y n, (y,n) ∈ ww'.synced → ww'.gtk.orient y ≠ none ∧ n < s.nextId ∧
      (n ∈ t.keys → n = t.key ∧ n ∈ t.inner ∧ y = W n) := by
    intro y n hn
    rw [hw] at hn ⊢
    show (ww.gtk.setChild _ _ _).orient y ≠ none ∧ _
    rw [Gtk.orient_setChild]
    exact (h.synced y n hn).resolve_left (List.not_mem_nil)
  have hone : ∀ W', Tracked s ww' W' → t.inner.length ≤ 1 := by
    intro W' htr
    have hall : ∀ k ∈ t.inner, k = t.key := fun k hk =>
      ((hsync _ k (htr k ((hs.mem_inner k).mp hk)).2).2.2 (inner_subset t hk)).1
    exact List.Nodup.length_le_of_subset ((inner_sublist t).nodup hs.nodup)
      (fun k hk => List.mem_singleton.mpr (hall k hk))
  refine ⟨⟨hL,⟨fun x n hn => ⟨(hsync x n hn).1,(hsync x n hn).2.1⟩,fun x n hn hm => ?_,
    fun k hk n hm hn => ?_⟩⟩,⟨fun hle k hk => ?_,hone W⟩,hone⟩
  · exact (hs.mem_inner n).mp ((hsync x n hn).2.2 ((hs.mem n).mp hm)).2.1
  · have hn' := (hsync _ n hn).2.2 ((hs.mem n).mp hm)
    exact (hL.inj k hk n hm hn'.2.2).symm
  · have hi := (hs.mem_inner k).mpr hk
    obtain rfl := eq_key_of_mem_inner hle hi
    rw [hw]
    exact h.tracked hi

end WorkspaceWidgets

namespace Ui

open WorkspaceWidgets

variable {ui : Ui F} {op : WindowOp F} {ws ws' : Workspace F} {ww ww' : WorkspaceWidgets}
  {W : NodeId → WidgetId}

theorem takeChild_same (ww : WorkspaceWidgets) (p : PaneId) (tab : Tab) :
    ww.SameLayout (takeChild ww p tab) := .modifyStack ww p _

theorem moveChild_same (ww : WorkspaceWidgets) (p : PaneId) (c : StackChild) (name : String) :
    ww.SameLayout (moveChild ww p c name) := .modifyStack ww p _

theorem arranged_fresh (surface : SurfaceId) (p : PaneId) :
    ∃ W, Arranged (.newWithPane p : SplitTree F) (freshWidgets surface p) W ∧
      Tracked (.newWithPane p : SplitTree F) (freshWidgets surface p) W := by
  obtain ⟨pw,hpw⟩ : ∃ pw, pw = (WorkspaceWidgets.new.buildPaneWidget (.terminal surface)
    (.glArea surface)).1 := ⟨_,rfl⟩
  have hr := rested_single (F := F) held_new (p := p) (AList.notMem_empty p)
    (show pw.container = _ by rw [hpw]; rfl) rfl
  have hs : Shape (.newWithPane p : SplitTree F) (leaf 0 (.leaf p)) :=
    @Shape.single F .new _ ⟨fun _ => rfl,rfl,rfl⟩ p rfl rfl rfl
  have hw : freshWidgets surface p = { ({ WorkspaceWidgets.new with
      gtk := WorkspaceWidgets.new.gtk.newBox.2
      paneWidgets := WorkspaceWidgets.new.paneWidgets.insert p pw } : WorkspaceWidgets) with
      gtk := WorkspaceWidgets.new.gtk.newBox.2.setChild WorkspaceWidgets.new.rootPaned true
        (some pw.container) } := by
    rw [hpw]
    rfl
  obtain ⟨ha,htr,-⟩ := hr.arranged hs hw
  exact ⟨_,ha,htr.mp (Nat.zero_le _)⟩

/-- The widgets of a saved layout; a split inside a split has no handler. -/
theorem arranged_restored (ord : IterOrder NodeId) (l : LayoutSnapshot F)
    {s s' : Workspace F × IdCounters} {tree : SplitTree F} {root : WidgetId}
    (he : s.1.panes = ∅) (hl : AppWindow.buildLayout ord l s = (tree,s'))
    (hb : buildLayoutWidget ord l s .new = (root,ww))
    (hw : ww' = { ww with gtk := ww.gtk.setChild ww.rootPaned true (some root) }) :
    ∃ W, Arranged tree ww' W ∧ (l.splits ≤ 1 → Tracked tree ww' W) ∧
      ∀ W', Tracked tree ww' W' → l.splits ≤ 1 := by
  obtain ⟨t,W,hs,hlen,hroot,hr⟩ := rested_buildLayoutWidget ord l s.1 s.2 held_new
    (fun p hp => by rw [he] at hp; exact absurd hp (AList.notMem_empty p))
    (fun p hp => absurd hp (AList.notMem_empty p))
  rw [hl] at hs hr
  rw [hb] at hroot hr
  obtain rfl : root = W t.key := hroot
  obtain ⟨ha,htr,hnot⟩ := hr.arranged hs hw
  rw [hlen] at htr hnot
  exact ⟨W,ha,htr.mp,hnot⟩

/-- The layout a new workspace is made from has a split inside a split. -/
def RestoresNested : WindowOp F → Prop
  | .restoreWorkspaceFromLayout _ snap _ _ _ => 1 < snap.layout.splits
  | _ => False

theorem arranged_made (h : Made ui op ws ww) : ∃ W, Arranged ws.splitTree ww W ∧
    (¬ RestoresNested op → Tracked ws.splitTree ww W) := by
  cases h with
  | fresh _ ht =>
    rw [ht]
    obtain ⟨W,ha,htr⟩ := @arranged_fresh F ui.window.ids.surface ui.window.ids.pane
    exact ⟨W,ha,fun _ => htr⟩
  | @restored ord snap _ _ _ _ _ _ _ _ _ he hl hb _ ht =>
    rw [ht]
    obtain ⟨W,ha,htr,-⟩ := arranged_restored ord snap.layout he hl hb rfl
    exact ⟨W,ha,fun hop => htr (not_lt.mp hop)⟩

variable [F64Ops F]

theorem arranged_edited (h : Arranged ws.splitTree ww W) (hws : WsInv ws) (hinv : WsInv ws')
    (hlt : ∀ p : ℕ, p ∈ ws.panes → p < ui.window.ids.pane) (he : Edit ui op ws ww ws' ww') :
    ∃ W', Arranged ws'.splitTree ww' W' ∧
      (Tracked ws.splitTree ww W → Tracked ws'.splitTree ww' W') := by
  have hwf := hws.tree
  have hwf' := hinv.tree
  have hnew : ∀ new : PaneId, new = ui.window.ids.pane → new ∉ ws.splitTree.panes := by
    rintro _ rfl hm
    exact absurd (hlt _ ((hws.keys _).mpr hm)) (lt_irrefl _)
  have hmem : ∀ p, p ∈ ws.splitTree.panes ↔ (ws.panes.lookup p).isSome := fun p => by
    rw [← hws.keys,AList.lookup_isSome]
  have hmem' : ∀ p, p ∈ ws'.splitTree.panes ↔ (ws'.panes.lookup p).isSome := fun p => by
    rw [← hinv.keys,AList.lookup_isSome]
  have hne : ws'.splitTree.panes ≠ [] := by
    obtain ⟨p,hp⟩ := hinv.nonempty
    exact List.ne_nil_of_mem ((hinv.keys p).mp hp)
  have hsame : ∀ {w : WorkspaceWidgets}, ww.SameLayout w → ws.splitTree.Resized ws'.splitTree →
      ∃ W', Arranged ws'.splitTree w W' ∧
        (Tracked ws.splitTree ww W → Tracked ws'.splitTree w W') :=
    fun hw hr => ⟨W,h.same hwf hw hr⟩
  cases he with
  | keep ha => exact hsame (.refl ww) ha.tree
  | push _ _ ht => exact hsame (.modifyStack ww _ _) ht
  | select _ _ _ ht => exact hsame (.showActive ww _ _) ht
  | close _ _ _ ht => exact hsame (.showActive ww _ _) ht
  | @split _ target new panel o pw ww₁ hn hm hb _ ht =>
    obtain ⟨h₁,htr₁,hsp⟩ := h.build hb
    have hq := hnew new hn
    have hplace : ∀ t k, Shape ws.splitTree t → Sub (leaf k (.leaf target)) t →
        (ws.splitTree.splitAt false target new o).1 = some (ws.splitTree.nextId+1) → ∃ paned,
          WorkspaceWidgets.Placed ww₁ (ww₁.addSplit (decide (ws.panes.keys.length = 1)) target
            new pw o (ws.splitTree.split target new o).1) t k (ws.splitTree.nextId+1) (W k) paned
              new pw false o := by
      intro t k hs hk hid
      rw [show (ws.splitTree.split target new o).1 = _ from hid]
      exact h₁.toLaid.placed_addSplit hs hk hsp new o _ (by simpa using hws.only_iff hs hk)
    obtain ⟨W',h₂,htr₂⟩ := h₁.grafted hwf ((hws.keys _).mp hm) hq hsp hplace
    obtain ⟨h₃,htr₃⟩ := h₂.same (hwf.splitAt false target hq o) (.refl _) ht
    exact ⟨W',h₃,fun htr => htr₃ (htr₂ (htr₁ htr))⟩
  | @drop _ p hm h1 _ ht =>
    obtain ⟨q,hq,hqp⟩ := exists_other_pane (p := p) (not_le.mpr h1)
    obtain ⟨ha,htr,-⟩ := h.removed hwf ((hws.keys p).mp hm) ((hws.keys q).mp hq) hqp
    have := ha.same (hwf.remove p) (.refl _) ht
    exact ⟨W,this.1,fun h => this.2 (htr h)⟩
  | move hp ht =>
    obtain ⟨W',h₁,htr⟩ := Arranged.rebuilt h.toHeld h.toWired ht hwf' hne
      (fun p => by rw [h.panes,hmem,hmem',hp])
    exact ⟨W',h₁,fun _ => htr⟩
  | @splitTab _ ww₁ _ source new tab rest moving panel spw pw o before node nested hn ht _ _ hs hb _
      hnode htree hnested hplace =>
    obtain ⟨pane,_,hl,-⟩ := ht.tabs
    have hp : source ∈ ws.splitTree.panes := by rw [hmem,hl]; rfl
    obtain ⟨h₁,htr₁⟩ := h.same hwf (takeChild_same ww source tab) (.refl _)
    obtain ⟨h₂,htr₂,hsp⟩ := h₁.build hb
    have hshow := SameLayout.showActive ww₁ source rest
    obtain ⟨h₃,htr₃⟩ := h₂.same hwf hshow (.refl _)
    have hgtk : (ww₁.showActive source rest).gtk = ww.gtk.newBox.2 := by
      cases hb
      exact hshow.gtk
    have hplaced : ∀ t k, Shape ws.splitTree t → Sub (leaf k (.leaf source)) t →
        (ws.splitTree.splitAt before source new o).1 = some (ws.splitTree.nextId+1) → ∃ paned,
          WorkspaceWidgets.Placed (ww₁.showActive source rest) ww' t k (ws.splitTree.nextId+1) (W k)
            paned new pw before o := by
      intro t k hst hk hid
      obtain rfl := Option.some.inj (hnode.symm.trans hid)
      obtain ⟨spw',hs',hc⟩ := h.toLaid.container ((hst.rep.sub hk).1 : _ = _)
      obtain rfl := Option.some.inj (hs.symm.trans hs')
      rw [hc] at hnested hplace
      refine h₃.toLaid.placed_placeTab hst hk (hshow.spare hsp) new o before _
        (by simpa using hws.only_iff hst hk) (fun honly => ?_) hplace
      have hpos : 0 < ws.panes.keys.length := List.length_pos_of_mem (AList.mem_keys.mpr
        ((hws.keys source).mpr hp))
      rw [if_pos (by have := of_decide_eq_false honly; omega)] at hnested
      rw [hgtk]
      exact hnested
    obtain ⟨W',h₄,htr₄⟩ := h₃.grafted hwf hp (hnew new hn) (hshow.spare hsp) hplaced
    obtain ⟨h₅,htr₅⟩ := h₄.same (hwf.splitAt before source (hnew new hn) o) (.refl _) htree
    exact ⟨W',h₅,fun htr => htr₅ (htr₄ (htr₃ (htr₂ (htr₁ htr))))⟩
  | @splitTarget _ ww₁ ww₂ source new tab rest moving panel pw hn ht hother _ hb h2 hp hl =>
    obtain ⟨pane,_,hl',-⟩ := ht.tabs
    have hps : source ∈ ws.splitTree.panes := by rw [hmem,hl']; rfl
    obtain ⟨h₁,-⟩ := h.same hwf (takeChild_same ww source tab) (.refl _)
    obtain ⟨h₂,-,hsp⟩ := h₁.build hb
    have hshow := SameLayout.showActive ww₁ source rest
    obtain ⟨h₃,-⟩ := h₂.same hwf hshow (.refl _)
    have hsp₃ := hshow.spare hsp
    obtain ⟨hheld,hwired,hspare,hpanes⟩ : ww₂.Held ∧ Wired ws.splitTree ww₂ W ∧
        ww₂.Spare pw.container ∧ ∀ q, q ∈ ww₂.paneWidgets ↔
          q ∈ ws.splitTree.panes ∧ (rest.tabs = [] → q ≠ source) := by
      rw [h2]
      split_ifs with he
      · obtain ⟨q,hq,hqp⟩ := hother
        obtain ⟨h₄,-,x,hcut⟩ := h₃.removed hwf hps ((hws.keys q).mp hq) hqp
        refine ⟨h₄.toHeld,h₃.toWired.sub (.refl _) (fun _ hn => hn) hcut.synced hcut.orient,
          hcut.spare hsp₃,fun q => ?_⟩
        rw [hcut.panes,AList.mem_erase,h₃.panes,and_comm]
        simp [he]
      · exact ⟨h₃.toHeld,h₃.toWired,hsp₃,fun q => by rw [h₃.panes]; simp [he]⟩
    have hwired' : Wired ws.splitTree { ww₂ with paneWidgets := ww₂.paneWidgets.insert new pw } W :=
      hwired.sub (.refl _) (fun _ hn => hn) rfl rfl
    obtain ⟨W',h₅,htr⟩ := Arranged.rebuilt (hheld.insert hspare new) hwired' hl hwf' hne
      (fun q => by
        rw [hmem',hp,AList.mem_insert,hpanes,hmem]
        by_cases hqn : q = new
        · simp [hqn]
        · rw [if_neg hqn]
          by_cases hqs : q = source
          · rw [hqs] at hqn ⊢
            by_cases hrest : rest.tabs = [] <;> simp [hqn,hrest,hl']
          · simp [hqn,hqs])
    exact ⟨W',h₅,fun _ => htr⟩
  | moveTab _ _ _ _ _ _ ht =>
    exact hsame (((takeChild_same ww _ _).trans (moveChild_same _ _ _ _)).trans
      (.showActive _ _ _)) ht
  | @moveLast _ source target tab rest tpane d moving ht hst htp _ hp hl =>
    obtain ⟨pane,_,hl',-⟩ := ht.tabs
    have hsame' := (takeChild_same ww source tab).trans
      (moveChild_same (takeChild ww source tab) target moving tab.panel.stackChildName)
    obtain ⟨h₁,-⟩ := h.same hwf hsame' (.refl _)
    obtain ⟨W',h₂,htr⟩ := h₁.removed_rebuilt hwf ((hmem source).mpr (by rw [hl']; rfl))
      ((hmem target).mpr (by rw [htp]; rfl)) (Ne.symm hst) hl hwf' (fun q => by
        rw [hmem',hmem,hp]
        by_cases hq : q = source
        · simp [hq]
        · rw [if_neg hq]
          by_cases hqt : q = target
          · rw [if_pos hqt,hqt,htp]
            simp [Ne.symm hst]
          · simp [hqt,hq])
    exact ⟨W',h₂,fun _ => htr⟩
  | give _ _ _ ht => exact hsame ((takeChild_same ww _ _).trans (.showActive _ _ _)) ht
  | @giveLast _ source tab rest moving ht hp hl =>
    obtain ⟨pane,_,hl',-⟩ := ht.tabs
    obtain ⟨h₁,-⟩ := h.same hwf (takeChild_same ww source tab) (.refl _)
    have hpanes : ∀ q, q ∈ ws'.splitTree.panes ↔ q ∈ ws.splitTree.panes ∧ q ≠ source := by
      intro q
      rw [hmem',hmem,hp]
      by_cases hq : q = source
      · simp [hq]
      · simp [hq]
    obtain ⟨q,hq⟩ := List.exists_mem_of_ne_nil _ hne
    obtain ⟨hq,hqs⟩ := (hpanes q).mp hq
    obtain ⟨W',h₂,htr⟩ := h₁.removed_rebuilt hwf ((hmem source).mpr (by rw [hl']; rfl)) hq hqs hl
      hwf' hpanes
    exact ⟨W',h₂,fun _ => htr⟩
  | receive _ _ _ _ _ _ ht => exact hsame (moveChild_same ww _ _ _) ht

theorem arranged (h : Reach (fun ui op => op.Targeted ui.window) ui) :
    ui.Each (fun ws ww => ∃ W, Arranged ws.splitTree ww W) := by
  refine h.each (fun _ _ ho => ho) ?_ ?_
  · exact fun ui op ws ww _ _ _ hmade => (arranged_made hmade).imp (fun _ h => h.1)
  · rintro ui op ws ww ws' ww' - hinv - hws hinv' ⟨W,hW⟩ he
    exact (arranged_edited hW (hinv.ws ws hws) hinv' (hinv.panes_lt ws hws) he).imp
      (fun _ h => h.1)

/-- In every reachable state the paneds of a workspace lay out its split tree: each leaf is
the container of its pane, each split a paned of its own with its orientation and its halves
in the slots, all of it under the root paned. -/
theorem layout_shown (h : Reach (fun ui op => op.Targeted ui.window) ui) :
    ui.Each (fun ws ww => ∃ W, Laid ws.splitTree ww W) := fun ws hws =>
  (arranged h ws hws).imp (fun _ hw => ⟨hw.1,hw.2.imp (fun _ ha => ha.toLaid)⟩)

theorem layout_shown_split : (twoTabs.splitFocused .vertical).Each
    (fun ws ww => ∃ W, Laid ws.splitTree ww W) :=
  layout_shown (.step (.splitFocused .vertical) (.step .newPaneTab (.step .newWorkspace
    (.empty (rfl : AppWindow.start.workspaces = [])) trivial rfl) trivial rfl) trivial rfl)

end Ui

namespace WorkspaceWidgets

/-- What is laid out under the root paned: its start child if that is all it has. -/
def top (ww : WorkspaceWidgets) : Option WidgetId :=
  if ww.gtk.child ww.rootPaned false = none then ww.gtk.child ww.rootPaned true
  else some ww.rootPaned

/-- The widgets below `x` are those of a tree: a leaf is the container of its pane, a split a
paned of its orientation with its halves at the start and at the end. -/
def Below (ww : WorkspaceWidgets) : NodeTree F → WidgetId → Prop
  | .leaf _ v, x => ww.Fits v x ∧ ww.gtk.orient x = none
  | .node _ v l r, x => ww.Fits v x ∧ ∃ y z, ww.gtk.child x true = some y ∧
      ww.gtk.child x false = some z ∧ ww.Below l y ∧ ww.Below r z

/-- The widgets of a workspace are those of its split tree, and the container of each of its
panes is in one slot, whose widget is its parent. -/
structure Refines (ww : WorkspaceWidgets) (ws : Workspace F) : Prop where
  tree : ∃ t x, Shape ws.splitTree t ∧ ww.top = some x ∧ ww.Below t x
  panes : ∀ p, p ∈ ww.paneWidgets ↔ p ∈ ws.panes
  placed : ∀ p pw, ww.paneWidgets.lookup p = some pw → ∃ x side,
    ww.gtk.parent pw.container = some x ∧ ww.gtk.child x side = some pw.container ∧
      ∀ y side', ww.gtk.child y side' = some pw.container → y = x ∧ side' = side

namespace Laid

variable {s : SplitTree F} {t u : NodeTree F} {ww : WorkspaceWidgets} {W : NodeId → WidgetId}

theorem box_of_leaf (h : Laid s ww W) {k : NodeId} {p : PaneId}
    (hk : s.nodes.lookup k = some (.leaf p)) : ww.gtk.orient (W k) = none := by
  obtain ⟨pw,hl,he⟩ := h.container hk
  rw [← he]
  exact h.box p pw hl

theorem below (h : Laid s ww W) (hu : Rep s.nodes.get u) : ww.Below u (W u.key) := by
  induction u with
  | leaf k v =>
    obtain ⟨p,rfl,hk⟩ := rep_leaf_cases hu
    exact ⟨h.fits k _ hk,h.box_of_leaf hk⟩
  | node k v l r ihl ihr =>
    obtain ⟨o,ratio,rfl,hk⟩ := rep_node_cases hu
    obtain ⟨hl,hr⟩ := h.slots k o ratio _ _ hk
    exact ⟨h.fits k _ hk,_,_,hl,hr,ihl hu.2.2.1,ihr hu.2.2.2⟩

/-- The root of the tree is what is laid out under the root paned. -/
theorem top_eq (h : Laid s ww W) (hs : Shape s t) : ww.top = some (W t.key) := by
  unfold top
  rcases h.rooted t.key hs.root with hr | ⟨hc,hn,-⟩
  · have hfalse : ∃ z, ww.gtk.child ww.rootPaned false = some z := by
      cases t with
      | leaf k v =>
        obtain ⟨p,rfl,hk⟩ := rep_leaf_cases hs.rep
        have hbox := h.box_of_leaf hk
        rw [show W k = ww.rootPaned from hr] at hbox
        exact absurd hbox h.root
      | node k v l r =>
        obtain ⟨o,ratio,rfl,hk⟩ := rep_node_cases hs.rep
        exact ⟨_,(hr : W k = _) ▸ (h.slots k o ratio _ _ hk).2⟩
    obtain ⟨z,hz⟩ := hfalse
    rw [hz,if_neg (by simp),hr]
  · rw [if_pos hn,hc]

/-- Every node but the one that the root paned shows is in a slot. -/
theorem slotted (h : Laid s ww W) (hs : Shape s t) {k : NodeId} (hk : k ∈ t.keys)
    (hr : W k ≠ ww.rootPaned) : ∃ x side, ww.gtk.child x side = some (W k) := by
  by_cases he : k = t.key
  · subst he
    obtain ⟨hc,-⟩ := (h.rooted t.key hs.root).resolve_left hr
    exact ⟨_,_,hc⟩
  · obtain ⟨j,hj,side,hc⟩ := hs.rep.exists_parent hk he
    obtain ⟨v,l,r,hsub,rfl⟩ := hs.rep.childAt_sub hj hc
    exact ⟨W j,side,((h.shown hs).sub hsub).slot_node side ▸ by cases side <;> rfl⟩

/-- The container of a pane is in one slot. -/
theorem placed (h : Laid s ww W) (hs : Shape s t) {p : PaneId} {pw : PaneWidget}
    (hl : ww.paneWidgets.lookup p = some pw) : ∃ x side,
      ww.gtk.parent pw.container = some x ∧ ww.gtk.child x side = some pw.container ∧
        ∀ y side', ww.gtk.child y side' = some pw.container → y = x ∧ side' = side := by
  obtain ⟨k,hk⟩ : ∃ k, Sub (leaf k (.leaf p)) t := by
    rcases hs.nodeIdForPane_spec p with ⟨k,-,hk⟩ | ⟨-,hn⟩
    · exact ⟨k,hk⟩
    · rw [← hs.panes_eq,← h.panes] at hn
      exact absurd (HashMap.mem_iff_lookup.mpr ⟨pw,hl⟩) hn
  have hnode : s.nodes.lookup k = some (.leaf p) := (hs.rep.sub hk).1
  obtain ⟨pw',hl',hc⟩ := h.container hnode
  obtain rfl := Option.some.inj (hl.symm.trans hl')
  have hroot : W k ≠ ww.rootPaned := by
    intro he
    have hbox := h.box_of_leaf hnode
    rw [he] at hbox
    exact h.root hbox
  obtain ⟨x,side,hx⟩ := h.slotted hs (hk.keys_subset (key_mem_keys _)) hroot
  rw [key_leaf,← hc] at hx
  exact ⟨x,side,(h.ok.parent_iff _ x).mpr ⟨side,hx⟩,hx,fun y side' hy =>
    h.ok.one y side' x side _ hy hx⟩

theorem refines {ws : Workspace F} (h : Laid ws.splitTree ww W) (hws : WsInv ws) :
    ww.Refines ws := by
  obtain ⟨t,hs⟩ := hws.shape
  refine ⟨⟨t,W t.key,hs,h.top_eq hs,h.below hs.rep⟩,fun p => ?_,fun p pw hl => h.placed hs hl⟩
  rw [h.panes,← hws.keys]

end Laid

end WorkspaceWidgets

namespace Ui

variable [F64Ops F] {ui : Ui F}

/-- In every reachable state the tree of widgets under the root paned of a workspace is its
split tree, and the container of each of its panes has one place. -/
theorem widgets_refine (h : Reach (fun ui op => op.Targeted ui.window) ui) :
    ui.Each (fun ws ww => ww.Refines ws) := by
  intro ws hws
  obtain ⟨ww,hww,W,hW⟩ := arranged h ws hws
  exact ⟨ww,hww,hW.toLaid.refines ((h.window (fun _ _ ho => ho)).windowInv.ws ws hws)⟩

theorem widgets_refine_splits : ∃ ui₁ ui₂ ui₃ ui₄ : Ui ℚ,
    (⟨AppWindow.start,∅⟩ : Ui ℚ).step .newWorkspace = some ui₁ ∧
      ui₁.step (.splitFocused .vertical) = some ui₂ ∧ ui₂.step (.closeSurface 1) = some ui₃ ∧
      ui₃.step (.splitFocused .horizontal) = some ui₄ ∧
      ui₄.window.workspaces.map (fun ws => ws.splitTree.panes) = [[2,3]] ∧
      ui₄.Each (fun ws ww => ww.Refines ws) :=
  ⟨_,_,_,_,rfl,rfl,rfl,rfl,rfl,widgets_refine (.step (.splitFocused .horizontal)
    (.step (.closeSurface 1) (.step (.splitFocused .vertical) (.step .newWorkspace
      (.empty (rfl : AppWindow.start.workspaces = [])) trivial rfl) trivial rfl) trivial rfl)
        trivial rfl)⟩

end Ui

end Limux
