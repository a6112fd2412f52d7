import Limux.UiRebuild

/-! The paneds of a restored workspace: built from the saved layout while the trees of its
halves are merged, which numbers all nodes anew at every split. -/
namespace Limux

open KeyTree

variable {F : Type}

def LayoutSnapshot.splits : LayoutSnapshot F → ℕ
  | .single _ => 0
  | .split _ _ first second => first.splits+second.splits+1

namespace SplitTree

/-- A merge of two trees numbers its nodes above all of theirs. -/
theorem merge_fresh (ord : IterOrder NodeId) {first second : SplitTree F} {t₁ t₂ : NodeTree F}
    (h₁ : Shape first t₁) (h₂ : Shape second t₂) (o : Orientation) (ratio : F) :
    (∀ k : ℕ, k ∈ (merge ord first second o ratio).nodes →
      first.nextId ≤ k ∧ second.nextId ≤ k) ∧
    first.nextId ≤ (merge ord first second o ratio).nextId ∧
      second.nextId ≤ (merge ord first second o ratio).nextId := by
  let b₀ : SplitTree F := { new with nextId := max first.nextId second.nextId }
  let remap₁ := (b₀.allocRemap (ord.enum first.nodes.keys)).1
  let b₁ := (b₀.allocRemap (ord.enum first.nodes.keys)).2.insertRemapped first.nodes remap₁
    (ord.enum first.nodes.keys)
  let remap₂ := (b₁.allocRemap (ord.enum second.nodes.keys)).1
  let b₂ := (b₁.allocRemap (ord.enum second.nodes.keys)).2.insertRemapped second.nodes remap₂
    (ord.enum second.nodes.keys)
  obtain ⟨u,-,-,-,hk₁,hr₁,hm₁,-,hle₁,-,-⟩ := copy_spec h₁ (ord.perm first.nodes.keys)
    (show b₁ = _ from rfl)
  obtain ⟨w,-,-,-,hk₂,hr₂,hm₂,-,hle₂,-,-⟩ := copy_spec h₂ (ord.perm second.nodes.keys)
    (show b₂ = _ from rfl)
  have he : merge ord first second o ratio = { joinRoots o ratio b₂ (some u.key) (some w.key) with
      focused := (joinRoots o ratio b₂ (some u.key) (some w.key)).panes.head? } := by
    have hfr : first.root.bind remap₁.lookup = some u.key := by rw [h₁.root]; exact hk₁
    have hsr : second.root.bind remap₂.lookup = some w.key := by rw [h₂.root]; exact hk₂
    rw [← hfr,← hsr]
    rfl
  have hmax : ∀ k : ℕ, max first.nextId second.nextId ≤ k → first.nextId ≤ k ∧ second.nextId ≤ k :=
    fun k hk => ⟨(le_max_left _ _).trans hk,(le_max_right _ _).trans hk⟩
  have hb₂ : max first.nextId second.nextId ≤ b₂.nextId := hle₁.trans hle₂
  rw [he]
  refine ⟨fun k hk => hmax k ?_,hmax _ (hb₂.trans (Nat.le_succ _))⟩
  replace hk : k ∈ b₂.nodes.insert b₂.nextId (.split o ratio u.key w.key) := hk
  rw [AList.mem_insert,hm₂,hm₁] at hk
  rcases hk with rfl | (hk | hk) | hk
  · exact hb₂
  · exact absurd hk (AList.notMem_empty k)
  · exact (hr₁ k hk).1
  · exact hle₁.trans (hr₂ k hk).1

end SplitTree

namespace Gtk

theorem Stands.rename {g : Gtk} {Fits : Node F → WidgetId → Prop} {W : NodeId → WidgetId}
    {t : NodeTree F} {n : WidgetId} {R : WidgetId → Prop} (h : Stands g Fits W t n R)
    (hF : ∀ f v x, Fits v x → Fits (Cell.mapKids f v) x) {f : NodeId → NodeId}
    (hn : (t.rename f).keys.Nodup) : ∃ W', (∀ k ∈ t.keys, W' (f k) = W k) ∧
      Stands g Fits W' (t.rename f) n R := by
  rw [keys_rename] at hn
  have hinj : ∀ a ∈ t.keys, ∀ b ∈ t.keys, f a = f b → a = b := fun a ha b hb he =>
    List.inj_on_of_nodup_map hn ha hb he
  obtain ⟨W',hW'⟩ : ∃ W' : NodeId → WidgetId, ∀ k ∈ t.keys, W' (f k) = W k := by
    classical
    refine ⟨fun y => if hy : ∃ k ∈ t.keys, f k = y then W hy.choose else W t.key,fun k hk => ?_⟩
    have hy : ∃ j ∈ t.keys, f j = f k := ⟨k,hk,rfl⟩
    simp only [dif_pos hy]
    rw [hinj _ hy.choose_spec.1 _ hk hy.choose_spec.2]
  refine ⟨W',hW',h.shown.rename f (hF f) hW',fun a ha b hb he => ?_,fun k hk => ?_,fun k hk => ?_⟩
  · rw [keys_rename] at ha hb
    obtain ⟨i,hi,rfl⟩ := List.mem_map.mp ha
    obtain ⟨j,hj,rfl⟩ := List.mem_map.mp hb
    rw [hW' i hi,hW' j hj] at he
    rw [h.inj i hi j hj he]
  · rw [keys_rename] at hk
    obtain ⟨i,hi,rfl⟩ := List.mem_map.mp hk
    rw [hW' i hi]
    exact h.lt i hi
  · rw [keys_rename] at hk
    obtain ⟨i,hi,rfl⟩ := List.mem_map.mp hk
    rw [hW' i hi]
    exact h.range i hi

end Gtk

namespace WorkspaceWidgets

variable {ww ww' : WorkspaceWidgets} {s : SplitTree F} {t : NodeTree F} {W : NodeId → WidgetId}

theorem restorePaneWidget_spec (ww : WorkspaceWidgets) (ids : IdCounters)
    (tabs : List PaneTabSnapshot) :
    (ww.restorePaneWidget ids tabs).1.container = ww.gtk.next ∧
      (ww.restorePaneWidget ids tabs).2 = { ww with gtk := ww.gtk.newBox.2 } := by
  cases tabs <;> exact ⟨rfl,rfl⟩

/-- New widgets show a restored tree. Only its root can be tracked by a handler that still
names one of its nodes. -/
structure Rested (ww ww' : WorkspaceWidgets) (s : SplitTree F) (t : NodeTree F)
    (W : NodeId → WidgetId) : Prop
    extends Gtk.Built ww.gtk ww'.gtk ww'.Fits W t (fun _ => False) where
  rootPaned : ww'.rootPaned = ww.rootPaned
  held : ww'.Held
  keep : ∀ p pw, ww.paneWidgets.lookup p = some pw → ww'.paneWidgets.lookup p = some pw
  panes : ∀ p, p ∈ ww'.paneWidgets ↔ p ∈ ww.paneWidgets ∨ p ∈ treePanes t
  synced : ∀ y n, (y,n) ∈ ww'.synced → (y,n) ∈ ww.synced ∨ ww'.gtk.orient y ≠ none ∧
    n < s.nextId ∧ (n ∈ t.keys → n = t.key ∧ n ∈ t.inner ∧ y = W n)
  tracked : t.key ∈ t.inner → ww'.splitPaneds.lookup t.key = some (W t.key) ∧
    (W t.key,t.key) ∈ ww'.synced

theorem rested_single (h : ww.Held) {p : PaneId} {pw : PaneWidget} (hp : p ∉ ww.paneWidgets)
    (hc : pw.container = ww.gtk.next) (hw : ww' = { ww with
      gtk := ww.gtk.newBox.2, paneWidgets := ww.paneWidgets.insert p pw }) :
    Rested ww ww' (.newWithPane p) (leaf 0 (.leaf p) : NodeTree F) (fun _ => pw.container) := by
  have hg : ww'.gtk = ww.gtk.newBox.2 := by rw [hw]
  have hch : ∀ x side, ww'.gtk.child x side = ww.gtk.child x side := fun x side => by rw [hg]; rfl
  have hnx : ww'.gtk.next = ww.gtk.next+1 := by rw [hg]; rfl
  have hself : ww'.paneWidgets.lookup p = some pw := by rw [hw]; exact AList.lookup_insert _
  refine ⟨⟨hg ▸ .newBox h.ok,⟨⟨pw,hself,rfl⟩,?_,?_,?_⟩,fun x side hx => ?_,
    fun y side c hy hy' => ?_⟩,by rw [hw],?_,fun q qw hq => ?_,fun q => ?_,fun y n hn => ?_,
    fun hm => by cases hm⟩
  · intro a ha b hb _
    exact (List.mem_singleton.mp ha).trans (List.mem_singleton.mp hb).symm
  · intro _ _
    rw [hc,hnx]
    exact Nat.lt_succ_self _
  · exact fun _ _ => .inl (le_of_eq hc.symm)
  · rw [hch] at hx
    exact absurd (h.ok.child_lt x side _ hx) (by rw [hc]; exact lt_irrefl _)
  · rw [hch] at hy'
    exact absurd (h.ok.paned_lt y (Gtk.orient_of_child hy')) (not_lt.mpr hy)
  · rw [hw]
    exact h.newBox.1.insert (hc ▸ h.newBox.2) p
  · rw [hw,HashMap.lookup_insert_ite,if_neg]
    · exact hq
    · rintro rfl
      exact hp (HashMap.mem_iff_lookup.mpr ⟨qw,hq⟩)
  · rw [hw,AList.mem_insert,treePanes_leaf,List.mem_singleton,or_comm]
  · rw [hw] at hn
    exact .inl hn

theorem Rested.fits (h : Rested ww ww' s t W) {x : WidgetId} (hx : x < ww.gtk.next) {v : Node F}
    (hf : ww.Fits v x) : ww'.Fits v x := hf.mono h.keep (h.orient x hx)

section Split

variable {w₁ w₂ : WorkspaceWidgets} {s₁ s₂ : SplitTree F} {t₁ t₂ : NodeTree F}
  {W₁ W₂ : NodeId → WidgetId}

theorem Rested.stands_pair (h₁ : Rested ww w₁ s₁ t₁ W₁) (h₂ : Rested w₁ w₂ s₂ t₂ W₂) (k : NodeId)
    {f g : NodeId → NodeId} {o : Orientation} {ratio : F}
    (hn : (node k (.split o ratio (t₁.rename f).key (t₂.rename g).key) (t₁.rename f)
      (t₂.rename g)).keys.Nodup) {g' : Gtk}
    (hg : g' = ((w₂.gtk.newPaned o).2.setChild w₂.gtk.next true (some (W₁ t₁.key))).setChild
      w₂.gtk.next false (some (W₂ t₂.key))) :
    w₂.gtk.Grown g' ∧ g'.orient w₂.gtk.next = some o ∧ g'.Free w₂.gtk.next ∧
      ∃ W, W k = w₂.gtk.next ∧ Gtk.Stands g' (Fits { w₂ with gtk := g' }) W
        (node k (.split o ratio (t₁.rename f).key (t₂.rename g).key) (t₁.rename f)
          (t₂.rename g)) ww.gtk.next (fun _ => False) ∧
      ∀ y side c, ww.gtk.next ≤ y → g'.child y side = some c →
        ∃ j ∈ (node k (.split o ratio (t₁.rename f).key (t₂.rename g).key) (t₁.rename f)
          (t₂.rename g)).keys, W j = c := by
  obtain ⟨x,hx⟩ : ∃ x, x = w₂.gtk.next := ⟨_,rfl⟩
  obtain ⟨g₀,hg₀⟩ : ∃ g₀, g₀ = (w₂.gtk.newPaned o).2 := ⟨_,rfl⟩
  have hgrow : w₂.gtk.Grown g₀ := by rw [hg₀]; exact .newPaned h₂.ok o
  have hch₀ : g₀.child = w₂.gtk.child := by rw [hg₀]; exact Gtk.child_newPaned h₂.ok o
  obtain ⟨-,-,hn₁,hn₂,-⟩ := nodup_node hn
  obtain ⟨W₁',hW₁,hst₁⟩ := h₁.stands.rename (fun f v x hv => hv.mapKids f) hn₁
  obtain ⟨W₂',hW₂,hst₂⟩ := h₂.stands.rename (fun f v x hv => hv.mapKids f) hn₂
  have hmem₁ : ∀ i ∈ (t₁.rename f).keys, ∃ j ∈ t₁.keys, W₁' i = W₁ j := by
    intro i hi
    rw [keys_rename] at hi
    obtain ⟨j,hj,rfl⟩ := List.mem_map.mp hi
    exact ⟨j,hj,hW₁ j hj⟩
  have hmem₂ : ∀ i ∈ (t₂.rename g).keys, ∃ j ∈ t₂.keys, W₂' i = W₂ j := by
    intro i hi
    rw [keys_rename] at hi
    obtain ⟨j,hj,rfl⟩ := List.mem_map.mp hi
    exact ⟨j,hj,hW₂ j hj⟩
  have hkey₁ : W₁' (t₁.rename f).key = W₁ t₁.key := by
    rw [key_rename]
    exact hW₁ _ (key_mem_keys t₁)
  have hkey₂ : W₂' (t₂.rename g).key = W₂ t₂.key := by
    rw [key_rename]
    exact hW₂ _ (key_mem_keys t₂)
  have hfree : ∀ c, w₂.gtk.Free c → g₀.Free c := fun c hc => by
    unfold Gtk.Free
    rw [hch₀]
    exact hc
  have hmove : ∀ y, y < w₂.gtk.next → ∀ v : Node F, w₂.Fits v y →
      Fits ({ w₂ with gtk := g₀ } : WorkspaceWidgets) v y := fun y hy v hv =>
    hv.mono (fun _ _ h => h) (hgrow.orient y hy)
  have hle₁ : w₁.gtk.next ≤ w₂.gtk.next := h₂.next
  have hor : g'.orient = g₀.orient := by rw [hg,Gtk.orient_setChild,Gtk.orient_setChild,hg₀]
  have horx : g₀.orient x = some o := by rw [hg₀,Gtk.orient_newPaned,if_pos hx]
  have hfx : w₂.gtk.Free x := fun y side hc =>
    absurd (h₂.ok.child_lt y side x hc) (not_lt.mpr (le_of_eq hx.symm))
  have hpair := @Gtk.Stands.pair F g₀ g' (Fits ({ w₂ with gtk := g₀ } : WorkspaceWidgets))
    (Fits ({ w₂ with gtk := g' } : WorkspaceWidgets)) W₁' W₂' (t₁.rename f) (t₂.rename g)
    ww.gtk.next x (fun _ => False) k (t₁.rename f).key (t₂.rename g).key o ratio hgrow.ok
    (hst₁.grow (h₂.toGrown.trans hgrow)
      (fun y hy v hv => hmove y (lt_of_lt_of_le hy hle₁) v (h₂.fits hy hv)) le_rfl (fun _ h => h))
    (hst₂.grow hgrow hmove h₁.next (fun _ h => h)) hn ?_ ?_ ?_ ?_ horx ?_ ?_ ?_ (hfree x hfx) ?_ ?_
    ?_ (by rw [hg,hkey₁,hkey₂,hx,hg₀])
  · obtain ⟨hok,hst,hfree',hkeep,hnew⟩ := hpair
    rw [← hx]
    refine ⟨⟨hok,?_,fun y hy => by rw [hor,hgrow.orient y hy],fun y hy side => ?_⟩,
      by rw [hor,horx],hfree',Gtk.pairW W₁' W₂' k (t₁.rename f) x,if_pos rfl,hst,hnew⟩
    · rw [hg,Gtk.next_setChild,Gtk.next_setChild,← hg₀]
      exact hgrow.next
    · rw [hkeep y side (by rw [hx]; exact ne_of_lt hy),hch₀]
  · intro i hi j hj he
    obtain ⟨i',hi',e₁⟩ := hmem₁ i hi
    obtain ⟨j',hj',e₂⟩ := hmem₂ j hj
    exact h₁.toBuilt.cross h₂.toBuilt (fun _ => False.elim) (fun _ => False.elim) hi' hj'
      (e₁.symm.trans (he.trans e₂))
  · rw [hx]
    exact h₁.next.trans hle₁
  · intro i hi he
    obtain ⟨i',hi',e₁⟩ := hmem₁ i hi
    exact absurd (h₁.stands.lt i' hi') (not_lt.mpr (by rw [← e₁,he,hx]; exact hle₁))
  · intro j hj he
    obtain ⟨j',hj',e₂⟩ := hmem₂ j hj
    exact absurd (h₂.stands.lt j' hj') (not_lt.mpr (by rw [← e₂,he,hx]))
  · intro side
    rw [hch₀,hx]
    exact Gtk.child_of_orient (Gtk.orient_next h₂.ok) side
  · rw [hkey₁]
    exact hfree _ (h₁.toBuilt.free_trans h₂.toBuilt (fun _ => False.elim) (fun _ => False.elim))
  · rw [hkey₂]
    exact hfree _ h₂.free
  · intro y side c hy hc
    rw [hch₀] at hc
    obtain ⟨i,hi,he⟩ | ⟨j,hj,he⟩ := h₁.toBuilt.new_trans h₂.toBuilt hy hc
    · refine .inl ⟨f i,?_,by rw [hW₁ i hi,he]⟩
      rw [keys_rename]
      exact List.mem_map_of_mem hi
    · refine .inr ⟨g j,?_,by rw [hW₂ j hj,he]⟩
      rw [keys_rename]
      exact List.mem_map_of_mem hj
  · exact fun v y hv => hv.mono (fun _ _ h => h) (congrFun hor y)
  · show g'.orient x = some o
    rw [hor,horx]

theorem Rested.split (h : ww.Held) (h₁ : Rested ww w₁ s₁ t₁ W₁) (h₂ : Rested w₁ w₂ s₂ t₂ W₂)
    (hs₁ : Shape s₁ t₁) (hs₂ : Shape s₂ t₂) (ord : IterOrder NodeId) (o : Orientation) (ratio : F)
    (hs : Shape (SplitTree.merge ord s₁ s₂ o ratio) t)
    (hw : ww' = ({ w₂ with gtk := ((w₂.gtk.newPaned o).2.setChild w₂.gtk.next true
      (some (W₁ t₁.key))).setChild w₂.gtk.next false (some (W₂ t₂.key)) } :
        WorkspaceWidgets).track t.key w₂.gtk.next) :
    t.inner.length = t₁.inner.length+t₂.inner.length+1 ∧
      ∃ W, W t.key = w₂.gtk.next ∧ Rested ww ww' (.merge ord s₁ s₂ o ratio) t W := by
  obtain ⟨hfresh,hle₁,hle₂⟩ := SplitTree.merge_fresh ord hs₁ hs₂ o ratio
  have hjoin : SplitTree.JoinedTree s₁ s₂ o ratio t ∧ treePanes t = s₁.panes ++ s₂.panes := by
    rcases SplitTree.merge_spec ord (.inr ⟨t₁,hs₁⟩) (.inr ⟨t₂,hs₂⟩) o ratio with ⟨hv,-⟩ |
      ⟨t',hs',hp,-,hv | hv | hj⟩
    · cases hv.root.symm.trans hs₁.root
    · cases hv.root.symm.trans hs₁.root
    · cases hv.root.symm.trans hs₂.root
    · rw [hs.unique hs']
      exact ⟨hj,hp⟩
  obtain ⟨⟨k,u₁,u₂,f,g,hu₁,hu₂,he⟩,hp⟩ := hjoin
  obtain rfl := hs₁.unique hu₁
  obtain rfl := hs₂.unique hu₂
  have hkey : t.key = k := by rw [he,key_node]
  obtain ⟨g',hg⟩ : ∃ g', g' = ((w₂.gtk.newPaned o).2.setChild w₂.gtk.next true
    (some (W₁ t₁.key))).setChild w₂.gtk.next false (some (W₂ t₂.key)) := ⟨_,rfl⟩
  obtain ⟨hgrow,hor,hfree,W,hWk,hst,hnew⟩ := h₁.stands_pair h₂ k (he ▸ hs.nodup) hg
  rw [← he] at hst hnew
  rw [← hg] at hw
  have hpw : ww'.paneWidgets = w₂.paneWidgets := by rw [hw]; rfl
  have hgt : ww'.gtk = g' := by rw [hw]; rfl
  have hrt : ww'.rootPaned = w₂.rootPaned := by rw [hw]; rfl
  have hroot : w₂.rootPaned = ww.rootPaned := by rw [h₂.rootPaned,h₁.rootPaned]
  have hrlt : ww.rootPaned < ww.gtk.next := h.ok.paned_lt _ h.root
  have hle : ww.gtk.next ≤ w₂.gtk.next := h₁.next.trans h₂.next
  have hge : ∀ j ∈ t.keys, ww.gtk.next ≤ W j := fun j hj => (hst.range j hj).resolve_right id
  have hsync : ∀ y n, (y,n) ∈ w₂.synced → (y,n) ∈ ww.synced ∨ w₂.gtk.orient y ≠ none ∧
      n < (SplitTree.merge ord s₁ s₂ o ratio).nextId ∧ n ∉ t.keys := by
    intro y n hn
    rcases h₂.synced y n hn with hn | ⟨hy,hlt,-⟩
    · rcases h₁.synced y n hn with hn | ⟨hy,hlt,-⟩
      · exact .inl hn
      · refine .inr ⟨by rwa [h₂.orient y (h₁.ok.paned_lt y hy)],lt_of_lt_of_le hlt hle₁,
          fun hk => ?_⟩
        exact absurd (hfresh n ((hs.mem n).mpr hk)).1 (not_le.mpr hlt)
    · refine .inr ⟨hy,lt_of_lt_of_le hlt hle₂,fun hk => ?_⟩
      exact absurd (hfresh n ((hs.mem n).mpr hk)).2 (not_le.mpr hlt)
  refine ⟨by rw [he]; simp [KeyTree.inner],W,hkey ▸ hWk,
    ⟨⟨hgt ▸ (h₁.toGrown.trans (h₂.toGrown.trans hgrow)),?_,?_,fun y side c hy hc => ?_⟩,
    by rw [hrt,hroot],⟨hgt ▸ hgrow.ok,?_,fun y side hc => ?_,fun p pw hl => ?_,
    fun p pw hl => ?_,?_⟩,fun p pw hl => ?_,fun p => ?_,fun y n hn => ?_,fun _ => ?_⟩⟩
  · rw [hgt]
    refine hst.grow (.refl hgrow.ok) (fun y _ v hv => ?_) le_rfl (fun _ h => h)
    rw [hw]
    exact hv
  · rw [hgt,hkey,hWk]
    exact hfree
  · rw [hgt] at hc
    exact hnew y side c hy hc
  · rw [hgt,hrt,hroot,hgrow.orient _ (lt_of_lt_of_le hrlt hle),← hroot]
    exact h₂.held.root
  · rw [hgt,hrt] at hc
    rcases lt_or_ge y w₂.gtk.next with hlt | hy
    · rw [hgrow.child y hlt] at hc
      exact h₂.held.top y side hc
    · obtain ⟨j,hj,hWj⟩ := hnew y side _ (hle.trans hy) hc
      exact absurd hrlt (not_lt.mpr (hroot ▸ hWj ▸ hge j hj))
  · rw [hpw] at hl
    rw [hgt,hgrow.orient _ (h₂.held.lt p pw hl)]
    exact h₂.held.box p pw hl
  · rw [hpw] at hl
    rw [hgt]
    exact lt_of_lt_of_le (h₂.held.lt p pw hl) hgrow.next
  · rw [hpw]
    exact h₂.held.own
  · rw [hpw]
    exact h₂.keep p pw (h₁.keep p pw hl)
  · rw [hpw,h₂.panes,h₁.panes,hp,hs₁.panes_eq,hs₂.panes_eq,List.mem_append,or_assoc]
  · rw [hw] at hn
    rcases List.mem_cons.mp hn with hn | hn
    · obtain ⟨rfl,rfl⟩ := Prod.mk.inj hn
      refine .inr ⟨?_,hs.lt _ (key_mem_keys t),fun _ => ⟨rfl,?_,(hkey ▸ hWk).symm⟩⟩
      · rw [hgt,hor]
        simp
      · rw [he]
        simp [KeyTree.inner]
    · refine (hsync y n hn).imp_right (fun h => ⟨?_,h.2.1,fun hk => absurd hk h.2.2⟩)
      rw [hgt,hgrow.orient y (h₂.ok.paned_lt y h.1)]
      exact h.1
  · rw [hw,hkey,hWk]
    exact ⟨AList.lookup_insert _,List.mem_cons_self⟩

end Split

theorem buildLayoutWidget_single (ord : IterOrder NodeId) (tabs : List PaneTabSnapshot)
    (s : Workspace F × IdCounters) (ww : WorkspaceWidgets) :
    buildLayoutWidget ord (.single tabs) s ww = ((ww.restorePaneWidget s.2 tabs).1.container,
      { (ww.restorePaneWidget s.2 tabs).2 with
        paneWidgets := (ww.restorePaneWidget s.2 tabs).2.paneWidgets.insert
          (AppWindow.restorePane s.2 tabs).1.id (ww.restorePaneWidget s.2 tabs).1 }) := rfl

theorem buildLayoutWidget_split (ord : IterOrder NodeId) (o : String) (ratio : F)
    (a b : LayoutSnapshot F) (s : Workspace F × IdCounters) {w₁ w₂ : WorkspaceWidgets}
    {x y : WidgetId} {k : NodeId} (h₁ : buildLayoutWidget ord a s ww = (x,w₁))
    (h₂ : buildLayoutWidget ord b (AppWindow.buildLayout ord a s).2 w₁ = (y,w₂))
    (hk : (AppWindow.buildLayout ord (.split o ratio a b) s).1.root = some k) :
    buildLayoutWidget ord (.split o ratio a b) s ww = (w₂.gtk.next,
      ({ w₂ with gtk := ((w₂.gtk.newPaned
          (if o = "vertical" then .vertical else .horizontal)).2.setChild w₂.gtk.next true
            (some x)).setChild w₂.gtk.next false (some y) } :
        WorkspaceWidgets).track k w₂.gtk.next) := by
  simp only [buildLayoutWidget,h₁,h₂,hk,Gtk.newPaned]

/-- The widgets of a saved layout show the tree that is built for it. -/
theorem rested_buildLayoutWidget (ord : IterOrder NodeId) (l : LayoutSnapshot F) (ws : Workspace F)
    (ids : IdCounters) (h : ww.Held) (hlt : ∀ p : ℕ, p ∈ ws.panes → p < ids.pane)
    (hw : ∀ p : ℕ, p ∈ ww.paneWidgets → p < ids.pane) :
    ∃ t W, Shape (AppWindow.buildLayout ord l (ws,ids)).1 t ∧ t.inner.length = l.splits ∧
      (buildLayoutWidget ord l (ws,ids) ww).1 = W t.key ∧
      Rested ww (buildLayoutWidget ord l (ws,ids) ww).2
        (AppWindow.buildLayout ord l (ws,ids)).1 t W := by
  induction l generalizing ws ids ww with
  | single tabs =>
    obtain ⟨hc,hww⟩ := ww.restorePaneWidget_spec ids tabs
    obtain ⟨pane,he,hid,-⟩ := restorePane_spec ids tabs
    have hp : (AppWindow.restorePane ids tabs).1 = pane := by rw [he]
    have hnot : pane.id ∉ ww.paneWidgets := fun hm =>
      absurd (hw _ hm) (by rw [hid]; exact lt_irrefl _)
    have ht : (AppWindow.buildLayout ord (.single tabs) (ws,ids)).1 =
        (.newWithPane pane.id : SplitTree F) := by
      rw [← hp]
      rfl
    refine ⟨leaf 0 (.leaf pane.id),fun _ => (ww.restorePaneWidget ids tabs).1.container,?_,rfl,?_,
      ?_⟩
    · rw [ht]
      exact @Shape.single F .new _ ⟨fun _ => rfl,rfl,rfl⟩ pane.id rfl rfl rfl
    · rw [buildLayoutWidget_single]
    · rw [ht]
      refine rested_single h hnot hc ?_
      rw [buildLayoutWidget_single,hww,hp]
  | split o ratio a b iha ihb =>
    obtain ⟨t₁,W₁,hs₁,hn₁,hx₁,h₁⟩ := iha ws ids h hlt hw
    have hb₁ := layoutBuilt_buildLayout ord a ws ids hlt
    have hlt₁ : ∀ p : ℕ, p ∈ (AppWindow.buildLayout ord a (ws,ids)).2.1.panes →
        p < (AppWindow.buildLayout ord a (ws,ids)).2.2.pane := by
      intro p hp
      rcases (hb₁.keys p).mp hp with hp | hp
      · exact lt_of_lt_of_le (hlt p hp) hb₁.le.pane
      · exact (hb₁.fresh p hp).2
    have hw₁ : ∀ p : ℕ, p ∈ (buildLayoutWidget ord a (ws,ids) ww).2.paneWidgets →
        p < (AppWindow.buildLayout ord a (ws,ids)).2.2.pane := by
      intro p hp
      rcases (h₁.panes p).mp hp with hp | hp
      · exact lt_of_lt_of_le (hw p hp) hb₁.le.pane
      · exact (hb₁.fresh p (hs₁.panes_eq ▸ hp)).2
    obtain ⟨t₂,W₂,hs₂,hn₂,hx₂,h₂⟩ := ihb (AppWindow.buildLayout ord a (ws,ids)).2.1
      (AppWindow.buildLayout ord a (ws,ids)).2.2 h₁.held hlt₁ hw₁
    obtain ⟨dir,hdir⟩ : ∃ d, d = if o = "vertical" then Orientation.vertical else .horizontal :=
      ⟨_,rfl⟩
    obtain ⟨t,hs⟩ : ∃ t, Shape (SplitTree.merge ord (AppWindow.buildLayout ord a (ws,ids)).1
        (AppWindow.buildLayout ord b (AppWindow.buildLayout ord a (ws,ids)).2).1 dir ratio) t := by
      rcases SplitTree.merge_spec ord (.inr ⟨t₁,hs₁⟩) (.inr ⟨t₂,hs₂⟩) dir ratio with ⟨hv,-⟩ |
        ⟨t,hs,-⟩
      · cases hv.root.symm.trans hs₁.root
      · exact ⟨t,hs⟩
    have hbuild : (AppWindow.buildLayout ord (.split o ratio a b) (ws,ids)).1 =
        SplitTree.merge ord (AppWindow.buildLayout ord a (ws,ids)).1
          (AppWindow.buildLayout ord b (AppWindow.buildLayout ord a (ws,ids)).2).1 dir ratio := by
      rw [hdir]
      rfl
    obtain ⟨hn,W,hWk,hr⟩ := h₁.split h h₂ hs₁ hs₂ ord dir ratio hs rfl
    have heq := buildLayoutWidget_split ord o ratio a b (ws,ids) (Prod.ext hx₁ rfl)
      (Prod.ext hx₂ rfl) (by rw [hbuild]; exact hs.root)
    rw [← hdir] at heq
    refine ⟨t,W,hbuild ▸ hs,?_,?_,?_⟩
    · rw [hn,hn₁,hn₂]
      rfl
    · rw [heq,hWk]
    · rw [heq,hbuild]
      exact hr

end WorkspaceWidgets

end Limux
