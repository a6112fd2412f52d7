import Limux.WindowEdits
import Limux.TabMoves
import Limux.SessionRun

/-! The notebook and the sidebar show the workspaces in order, the pinned ones first,
whatever was opened, closed, pinned, dragged or restored before. -/
namespace Limux

/-- The pinned workspaces are a prefix. -/
def PinnedFirst {F : Type} (wss : List (Workspace F)) : Prop :=
  wss.Pairwise (fun ws ws' => ws'.pinned = true → ws.pinned = true)

namespace PinnedFirst

variable {F : Type}

theorem sublist {wss wss' : List (Workspace F)} (h : PinnedFirst wss) (hs : wss'.Sublist wss) :
    PinnedFirst wss' := List.Pairwise.sublist hs h

theorem congr {wss wss' : List (Workspace F)} (h : PinnedFirst wss)
    (he : wss'.map Workspace.pinned = wss.map Workspace.pinned) : PinnedFirst wss' := by
  have hp : ∀ l : List (Workspace F), PinnedFirst l ↔
      (l.map Workspace.pinned).Pairwise (fun b b' => b' = true → b = true) :=
    fun l => (List.pairwise_map (R := fun b b' : Bool => b' = true → b = true)).symm
  rw [hp,he,← hp]
  exact h

/-- A workspace that is not pinned goes to the end. -/
theorem append {wss : List (Workspace F)} (h : PinnedFirst wss) {ws : Workspace F}
    (hws : ws.pinned = false) : PinnedFirst (wss ++ [ws]) := by
  refine List.pairwise_append.mpr ⟨h,List.pairwise_singleton _ _,fun x _ y hy hp => ?_⟩
  rw [List.mem_singleton.mp hy,hws] at hp
  cases hp

/-- A workspace goes right before or behind one that is pinned like it. -/
theorem insertIdx {wss : List (Workspace F)} (h : PinnedFirst wss) {ws target : Workspace F}
    {i : ℕ} (hi : wss[i]? = some target) (he : ws.pinned = target.pinned) (before : Bool) :
    PinnedFirst (wss.insertIdx (if before then i else i+1) ws) := by
  obtain ⟨a,b,rfl,rfl,-,-⟩ := workspaces_split hi
  obtain ⟨ha,hb,hab⟩ := List.pairwise_append.mp h
  obtain ⟨htb,hb⟩ := List.pairwise_cons.mp hb
  have hins : ∀ l r : List (Workspace F), (l ++ r).insertIdx l.length ws = l ++ ws :: r :=
    fun l r => Reorder.insertIdx_append l r ws
  have hwa : ∀ x ∈ a, ws.pinned = true → x.pinned = true := by
    intro x hx hp
    exact hab x hx target (by simp) (he ▸ hp)
  have hwb : ∀ x ∈ b, x.pinned = true → ws.pinned = true := by
    intro x hx hp
    exact he ▸ htb x hx hp
  cases before with
  | true =>
    rw [if_pos rfl,hins]
    refine List.pairwise_append.mpr ⟨ha,List.pairwise_cons.mpr ⟨?_,List.pairwise_cons.mpr
      ⟨htb,hb⟩⟩,?_⟩
    · exact List.forall_mem_cons.mpr ⟨fun hp => he ▸ hp,hwb⟩
    · exact fun x hx => List.forall_mem_cons.mpr ⟨hwa x hx,hab x hx⟩
  | false =>
    have hlen : a.length+1 = (a ++ [target]).length := by simp
    rw [if_neg Bool.false_ne_true,List.append_cons,hlen,hins]
    refine List.pairwise_append.mpr ⟨?_,List.pairwise_cons.mpr ⟨hwb,hb⟩,?_⟩
    · exact List.pairwise_append.mpr ⟨ha,List.pairwise_singleton _ _,fun x hx y hy =>
        hab x hx y (by simpa using .inl (List.mem_singleton.mp hy))⟩
    · intro x hx
      rcases List.mem_append.mp hx with hx | hx
      · exact List.forall_mem_cons.mpr ⟨hwa x hx,fun y hy => hab x hx y (by simp [hy])⟩
      · rw [List.mem_singleton.mp hx]
        exact List.forall_mem_cons.mpr ⟨fun hp => he ▸ hp,htb⟩

/-- The stable sort brings the pinned ones to the front. -/
theorem reorder (aw : AppWindow F) : PinnedFirst aw.reorderWorkspacesForPin.workspaces := by
  refine List.pairwise_append.mpr ⟨?_,?_,?_⟩
  · exact List.pairwise_of_forall_mem_list (fun x hx _ _ _ => (List.mem_filter.mp hx).2)
  · refine List.pairwise_of_forall_mem_list (fun _ _ y hy hp => ?_)
    simp [hp] at hy
  · exact fun x hx _ _ _ => (List.mem_filter.mp hx).2

theorem exists_prefix {wss : List (Workspace F)} (h : PinnedFirst wss) :
    ∃ pinned rest, wss = pinned ++ rest ∧ (∀ ws ∈ pinned, ws.pinned = true) ∧
      ∀ ws ∈ rest, ws.pinned = false := by
  induction wss with
  | nil => exact ⟨[],[],rfl,by simp,by simp⟩
  | cons ws wss ih =>
    obtain ⟨hall,ht⟩ := List.pairwise_cons.mp h
    cases hp : ws.pinned with
    | true =>
      obtain ⟨pinned,rest,rfl,hpinned,hrest⟩ := ih ht
      exact ⟨ws :: pinned,rest,rfl,List.forall_mem_cons.mpr ⟨hp,hpinned⟩,hrest⟩
    | false =>
      refine ⟨[],ws :: wss,rfl,by simp,List.forall_mem_cons.mpr ⟨hp,fun x hx => ?_⟩⟩
      exact Bool.eq_false_iff.mpr (fun hx' => by simp [hall x hx hx'] at hp)

end PinnedFirst

theorem idxOf?_of_nodup {α : Type} [DecidableEq α] {l : List α} (hn : l.Nodup) {i : ℕ} {x : α}
    (hi : l[i]? = some x) : l.idxOf? x = some i := by
  obtain ⟨hlt,rfl⟩ := List.getElem?_eq_some_iff.mp hi
  rw [List.idxOf?_eq_some_iff]
  refine ⟨hlt,rfl,fun j hj he => ?_⟩
  exact absurd (hn.getElem_inj_iff.mp he) hj.ne

theorem not_mem_eraseIdx {α : Type} {l : List α} (hn : l.Nodup) {i : ℕ} {x : α}
    (hi : l[i]? = some x) : x ∉ l.eraseIdx i := by
  classical
  obtain ⟨hlt,rfl⟩ := List.getElem?_eq_some_iff.mp hi
  rw [← hn.erase_getElem i hlt]
  exact hn.not_mem_erase

theorem exists_map_some {α : Type} {l : List (Option α)} (h : ∀ o ∈ l, ∃ x, some x = o) :
    ∃ s : List α, l = s.map some := by
  induction l with
  | nil => exact ⟨[],rfl⟩
  | cons o l ih =>
    obtain ⟨x,rfl⟩ := h o (by simp)
    obtain ⟨s,rfl⟩ := ih (fun o ho => h o (by simp [ho]))
    exact ⟨x :: s,rfl⟩

/-- `ids` are shown by pages and rows in this order. -/
structure InOrder (ids : List WorkspaceId) (v : Views) (shown : List WorkspaceView) : Prop where
  widgets : ids.map (fun id => v.workspaceWidgets.lookup id) = shown.map some
  notebook : v.notebook = shown.map WorkspaceView.overlay
  sidebar : v.sidebarList = shown.map WorkspaceView.sidebarRow
  notebook_nodup : v.notebook.Nodup
  sidebar_nodup : v.sidebarList.Nodup
  notebook_lt : ∀ x ∈ v.notebook, x < v.next
  sidebar_lt : ∀ x ∈ v.sidebarList, x < v.next

namespace InOrder

variable {ids : List WorkspaceId} {v : Views} {shown : List WorkspaceView}

theorem get (h : InOrder ids v shown) {i : ℕ} {id : WorkspaceId} (hi : ids[i]? = some id) :
    ∃ w, shown[i]? = some w ∧ v.workspaceWidgets.lookup id = some w := by
  have hw := congrArg (fun l => l[i]?) h.widgets
  simp only [List.getElem?_map,hi,Option.map_some] at hw
  obtain ⟨w,hs,hl⟩ := Option.map_eq_some_iff.mp hw.symm
  exact ⟨w,hs,hl.symm⟩

theorem empty : InOrder [] .empty [] := by
  constructor <;> simp [Views.empty]

theorem add (h : InOrder ids v shown) {id : WorkspaceId} (hid : id ∉ ids) :
    InOrder (ids ++ [id]) (v.addWorkspace id) (shown ++ [⟨v.next,v.next+1⟩]) := by
  have hnext : v.next ∉ v.notebook := fun hx => absurd (h.notebook_lt _ hx) (Nat.lt_irrefl _)
  have hrow : v.next+1 ∉ v.sidebarList :=
    fun hx => absurd (h.sidebar_lt _ hx) (Nat.not_lt.mpr (Nat.le_succ _))
  refine ⟨?_,?_,?_,?_,?_,?_,?_⟩
  · have hold : ids.map (fun j => (v.addWorkspace id).workspaceWidgets.lookup j) =
        ids.map (fun j => v.workspaceWidgets.lookup j) := by
      refine List.map_congr_left (fun j hj => ?_)
      have hne : j ≠ id := fun he => hid (he ▸ hj)
      simp only [Views.addWorkspace,HashMap.lookup_insert_ite,if_neg hne]
    rw [List.map_append,hold,h.widgets]
    simp [Views.addWorkspace]
  · simp [Views.addWorkspace,h.notebook]
  · simp [Views.addWorkspace,h.sidebar]
  · exact h.notebook_nodup.append (List.nodup_singleton _) (by simpa using hnext)
  · exact h.sidebar_nodup.append (List.nodup_singleton _) (by simpa using hrow)
  · intro x hx
    rcases List.mem_append.mp hx with hx | hx
    · exact (h.notebook_lt x hx).trans (Nat.lt_add_of_pos_right Nat.two_pos)
    · rw [List.mem_singleton.mp hx]
      exact Nat.lt_add_of_pos_right Nat.two_pos
  · intro x hx
    rcases List.mem_append.mp hx with hx | hx
    · exact (h.sidebar_lt x hx).trans (Nat.lt_add_of_pos_right Nat.two_pos)
    · rw [List.mem_singleton.mp hx]
      exact Nat.lt_succ_self _

theorem remove (h : InOrder ids v shown) (hn : ids.Nodup) {i : ℕ} {id : WorkspaceId}
    (hi : ids[i]? = some id) :
    InOrder (ids.eraseIdx i) (v.removeWorkspace id) (shown.eraseIdx i) := by
  obtain ⟨w,hs,hl⟩ := h.get hi
  have hpage : v.notebook[i]? = some w.overlay := by rw [h.notebook,List.getElem?_map,hs]; rfl
  have hrow : v.sidebarList[i]? = some w.sidebarRow := by rw [h.sidebar,List.getElem?_map,hs]; rfl
  have hnum : (v.pageNum w.overlay).getD 0 = i := by
    rw [Views.pageNum,idxOf?_of_nodup h.notebook_nodup hpage,Option.getD_some]
  have herase : v.sidebarList.erase w.sidebarRow = v.sidebarList.eraseIdx i := by
    obtain ⟨hlt,he⟩ := List.getElem?_eq_some_iff.mp hrow
    rw [← he,h.sidebar_nodup.erase_getElem i hlt]
  have hv : v.removeWorkspace id = { v with
      notebook := v.notebook.eraseIdx i
      sidebarList := v.sidebarList.eraseIdx i
      workspaceWidgets := v.workspaceWidgets.erase id } := by
    rw [Views.removeWorkspace,hl]
    simp only [hnum,herase]
  rw [hv]
  refine ⟨?_,?_,?_,?_,?_,?_,?_⟩
  · have hother : (ids.eraseIdx i).map (fun j => (v.workspaceWidgets.erase id).lookup j) =
        (ids.eraseIdx i).map (fun j => v.workspaceWidgets.lookup j) := by
      refine List.map_congr_left (fun j hj => ?_)
      have hne : j ≠ id := fun he => not_mem_eraseIdx hn hi (he ▸ hj)
      rw [HashMap.lookup_erase_ite,if_neg hne]
    rw [hother,← List.eraseIdx_map,h.widgets,List.eraseIdx_map]
  · rw [h.notebook,List.eraseIdx_map]
  · rw [h.sidebar,List.eraseIdx_map]
  · exact h.notebook_nodup.sublist (List.eraseIdx_sublist _ _)
  · exact h.sidebar_nodup.sublist (List.eraseIdx_sublist _ _)
  · exact fun x hx => h.notebook_lt x (List.eraseIdx_subset hx)
  · exact fun x hx => h.sidebar_lt x (List.eraseIdx_subset hx)

theorem foldl_detachRow {ids : List WorkspaceId} {v : Views} {shown : List WorkspaceView}
    (h : ids.map (fun id => v.workspaceWidgets.lookup id) = shown.map some) :
    ids.foldl Views.detachRow v =
      { v with sidebarList := v.sidebarList.diff (shown.map WorkspaceView.sidebarRow) } := by
  induction ids generalizing v shown with
  | nil =>
    obtain rfl : shown = [] := by simpa using h.symm
    rfl
  | cons id ids ih =>
    obtain ⟨w,ws,rfl,hw,hws⟩ := List.map_eq_cons_iff.mp h.symm
    simp only at hw
    have hd : v.detachRow id = { v with sidebarList := v.sidebarList.erase w.sidebarRow } := by
      rw [Views.detachRow,← hw]
    rw [List.foldl_cons,@ih (v.detachRow id) ws (by rw [hd]; exact hws.symm),hd,List.map_cons,
      List.diff_cons]

theorem foldl_attachView {ids : List WorkspaceId} {i : ℕ} {v : Views}
    {shown : List WorkspaceView}
    (h : ids.map (fun id => v.workspaceWidgets.lookup id) = shown.map some) :
    (ids.zipIdx i).foldl (fun v e => v.attachView e.1 e.2) v =
      { v with
        notebook := Reorder.arrange v.notebook i (shown.map WorkspaceView.overlay)
        sidebarList := v.sidebarList ++ shown.map WorkspaceView.sidebarRow } := by
  induction ids generalizing v shown i with
  | nil =>
    obtain rfl : shown = [] := by simpa using h.symm
    simp
  | cons id ids ih =>
    obtain ⟨w,ws,rfl,hw,hws⟩ := List.map_eq_cons_iff.mp h.symm
    simp only at hw
    have ha : v.attachView id i = { v with
        notebook := Reorder.place v.notebook w.overlay i
        sidebarList := v.sidebarList ++ [w.sidebarRow] } := by
      rw [Views.attachView,← hw]
      simp only [Views.pageNum,Views.reorderChild,Reorder.place]
      cases v.notebook.idxOf? w.overlay with
      | none => rfl
      | some j => by_cases hj : j = i <;> simp [hj]
    rw [List.zipIdx_cons,List.foldl_cons,@ih (i+1) (v.attachView id i) ws (by rw [ha]; exact hws.symm),
      ha]
    simp

/-- The views follow the workspaces into any order. -/
theorem reorder (h : InOrder ids v shown) {ids' : List WorkspaceId} (hp : ids'.Perm ids) :
    ∃ shown', InOrder ids' (v.reorderWorkspaceViews ids') shown' := by
  have hperm : (ids'.map (fun id => v.workspaceWidgets.lookup id)).Perm (shown.map some) :=
    h.widgets ▸ hp.map _
  obtain ⟨shown',hw⟩ := exists_map_some (fun o ho =>
    (List.exists_of_mem_map (hperm.mem_iff.mp ho)).imp (fun _ hx => hx.2))
  have hs : shown.Perm shown' := by
    rw [hw] at hperm
    simpa using (hperm.filterMap id).symm
  have hnot : (shown'.map WorkspaceView.overlay).Perm v.notebook :=
    h.notebook ▸ (hs.map _).symm
  have hside : (shown'.map WorkspaceView.sidebarRow).Perm v.sidebarList :=
    h.sidebar ▸ (hs.map _).symm
  have hdiff : v.sidebarList.diff (shown'.map WorkspaceView.sidebarRow) = [] := by
    refine List.eq_nil_iff_forall_not_mem.mpr (fun x hx => ?_)
    obtain ⟨hm,hx⟩ := h.sidebar_nodup.mem_sdiff_iff.mp hx
    exact hx (hside.mem_iff.mpr hm)
  have hv : v.reorderWorkspaceViews ids' = { v with
      notebook := shown'.map WorkspaceView.overlay
      sidebarList := shown'.map WorkspaceView.sidebarRow } := by
    have hnd : (shown'.map WorkspaceView.overlay).Nodup := hnot.nodup_iff.mpr h.notebook_nodup
    rw [Views.reorderWorkspaceViews,foldl_attachView (by rw [foldl_detachRow hw]; exact hw),
      foldl_detachRow hw]
    simp only [Reorder.arrange_eq hnot.symm hnd,hdiff,List.nil_append]
  rw [hv]
  refine ⟨shown',hw,rfl,rfl,hnot.nodup_iff.mpr h.notebook_nodup,
    hside.nodup_iff.mpr h.sidebar_nodup,fun x hx => h.notebook_lt x (hnot.mem_iff.mp hx),
    fun x hx => h.sidebar_lt x (hside.mem_iff.mp hx)⟩

end InOrder

section

variable {F : Type} {aw aw' : AppWindow F} {v : Views}

def AppWindow.order (aw : AppWindow F) : List WorkspaceId := aw.workspaces.map Workspace.id

theorem restoredWorkspace_head (ord : IterOrder NodeId) (aw : AppWindow F)
    (snap : WorkspaceSnapshot F) (port : Option UInt16) (id token : String) :
    (AppWindow.restoredWorkspace ord aw snap port id token).1.id = aw.ids.workspace ∧
      (AppWindow.restoredWorkspace ord aw snap port id token).1.pinned =
        snap.pinned.getD false := by
  obtain ⟨t,ws,hL,hb,hws⟩ := restoredWorkspace_spec ord aw snap port id token
  have hrest := buildLayout_rest ord snap.layout (emptyRestored aw snap,
    { aw.ids with workspace := aw.ids.workspace+1 })
  rw [hb] at hrest
  rw [hws]
  exact ⟨congrArg Workspace.id hrest,congrArg Workspace.pinned hrest⟩

theorem map_of_forall₂ {α β γ : Type} {R : α → β → Prop} {f : α → γ} {g : β → γ} {l : List α}
    {l' : List β} (h : List.Forall₂ R l l') (hR : ∀ x y, R x y → g y = f x) :
    l'.map g = l.map f := by
  induction h with
  | nil => rfl
  | cons hxy _ ih => rw [List.map_cons,List.map_cons,hR _ _ hxy,ih]

theorem WindowInv.fresh_id (h : WindowInv aw) : aw.ids.workspace ∉ aw.order := by
  intro hm
  obtain ⟨ws,hws,he⟩ := List.mem_map.mp hm
  exact absurd (h.ids_lt ws hws) (he ▸ Nat.lt_irrefl _)

theorem append_inOrder (h : WindowInv aw) {shown : List WorkspaceView}
    (hv : InOrder aw.order v shown) {ws : Workspace F}
    (hw : aw'.workspaces = aw.workspaces ++ [ws]) (hid : ws.id = aw.ids.workspace) :
    ∃ shown', InOrder aw'.order (v.addWorkspace aw.ids.workspace) shown' := by
  have horder : aw'.order = aw.order ++ [aw.ids.workspace] := by
    rw [AppWindow.order,hw,List.map_append,← hid]
    rfl
  rw [horder]
  exact ⟨_,hv.add h.fresh_id⟩

theorem order_toggle (id : WorkspaceId) : (aw.toggleWorkspacePinned id).order.Perm aw.order := by
  unfold AppWindow.toggleWorkspacePinned
  split
  · exact .refl _
  · rename_i i _ _ _
    have hsame : List.Forall₂ (fun ws ws' : Workspace F => ws'.id = ws.id) aw.workspaces
        (aw.modifyWs i (fun ws => { ws with pinned := !ws.pinned })).workspaces :=
      forall₂_modify (R := fun ws ws' : Workspace F => ws'.id = ws.id) (fun _ => rfl) (fun _ _ => rfl)
    have hids : (aw.modifyWs i (fun ws => { ws with pinned := !ws.pinned })).order = aw.order :=
      map_of_forall₂ hsame (fun _ _ he => he)
    exact ((List.filter_append_perm _ _).map Workspace.id).trans (.of_eq hids)

theorem order_moveWorkspace {source target : WorkspaceId} {before : Bool}
    (hs : aw.moveWorkspace source target before = some aw') : aw'.order.Perm aw.order := by
  unfold AppWindow.moveWorkspace at hs
  split at hs
  · rename_i si sws _ _ tws _ hsrc htgt
    split at hs
    · cases hs; exact .refl _
    · obtain ⟨hle,hs⟩ := Option.ite_none_right_eq_some.mp hs
      cases hs
      obtain ⟨hlt,hget⟩ := List.getElem?_eq_some_iff.mp (findWs_spec hsrc).1
      refine ((List.perm_insertIdx sws _ hle).trans ?_).map Workspace.id
      rw [← hget]
      exact List.getElem_cons_eraseIdx_perm hlt
  · cases hs; exact .refl _

theorem findById_spec {id : WorkspaceId} {i : ℕ} {ws : Workspace F} {u : Unit}
    (hf : aw.findWorkspaceById id = some (i,ws,u)) : aw.workspaces[i]? = some ws ∧ ws.id = id := by
  obtain ⟨hi,hid⟩ := findWs_spec hf
  refine ⟨hi,?_⟩
  by_contra hne
  rw [if_neg hne] at hid
  cases hid

theorem pinnedFirst_moveWorkspace (h : WindowInv aw) (hp : PinnedFirst aw.workspaces)
    {source target : WorkspaceId} {before : Bool} (hne : source ≠ target)
    (hs : aw.moveWorkspace source target before = some aw') : PinnedFirst aw'.workspaces := by
  unfold AppWindow.moveWorkspace at hs
  split at hs
  · rename_i si sws _ ti tws _ hsrc htgt
    split at hs
    · cases hs; exact hp
    · rename_i hpin
      obtain ⟨hsi,hsid⟩ := findById_spec hsrc
      obtain ⟨hti,htid⟩ := findById_spec htgt
      have hrest : tws ∈ aw.workspaces.eraseIdx si := by
        refine List.mem_eraseIdx_iff_getElem?.mpr ⟨ti,fun he => ?_,hti⟩
        subst he
        obtain rfl := Option.some.inj (hsi.symm.trans hti)
        exact hne (hsid.symm.trans htid)
      obtain ⟨j,hj⟩ := List.mem_iff_getElem?.mp hrest
      have hn : ((aw.workspaces.eraseIdx si).map Workspace.id).Nodup :=
        h.ids_nodup.sublist ((List.eraseIdx_sublist _ _).map _)
      have hfind := findById_of_get { aw with workspaces := aw.workspaces.eraseIdx si } hn rfl hj
      rw [htid] at hfind
      simp only [hfind] at hs
      obtain ⟨-,hs⟩ := Option.ite_none_right_eq_some.mp hs
      cases hs
      exact (hp.sublist (List.eraseIdx_sublist _ _)).insertIdx hj (not_not.mp hpin) before
  · cases hs; exact hp

end

section

variable {F : Type} [F64Ops F] {aw aw' : AppWindow F} {op : WindowOp F} {v : Views}

theorem WsEdit.id_eq {ws ws' : Workspace F} (h : WsEdit ws op ws') : ws'.id = ws.id := by
  cases h with
  | moved h => rw [h.rest]
  | _ => rfl

theorem WsEdit.pinned_eq {ws ws' : Workspace F} (h : WsEdit ws op ws')
    (hop : ∀ id, op ≠ .toggleWorkspacePinned id) : ws'.pinned = ws.pinned := by
  cases h with
  | moved h => rw [h.rest]
  | togglePinned id => exact absurd rfl (hop id)
  | _ => rfl

omit [F64Ops F] in
/-- An operation that arranges nothing takes at most the view of the workspace it closes. -/
theorem viewsAfter_of_keeps (hop : ¬ op.Arranges) (aw' : AppWindow F) :
    aw.viewsAfter op aw' v = match (aw.closedAt op).bind (fun i => aw.workspaces[i]?) with
      | some ws => v.removeWorkspace ws.id
      | none => v := by
  cases op <;> first | rfl | exact absurd trivial hop

/-- The views of a window follow one operation. -/
theorem step_inOrder (h : WindowInv aw) {shown : List WorkspaceView}
    (hv : InOrder aw.order v shown) (hs : aw.step op = some aw') :
    ∃ shown', InOrder aw'.order (aw.viewsAfter op aw' v) shown' := by
  by_cases hop : op.Arranges
  · cases op with
    | newWorkspace =>
      cases hs
      exact append_inOrder h hv rfl rfl
    | newRemoteWorkspace c port id token =>
      cases hs
      exact append_inOrder h hv rfl rfl
    | restoreWorkspaceFromLayout ord snap port id token =>
      cases hs
      exact append_inOrder h hv rfl (restoredWorkspace_head ord aw snap port id token).1
    | toggleWorkspacePinned id =>
      cases hs
      have hp : (aw.toggleWorkspacePinned id).order.Perm aw.order := order_toggle id
      unfold AppWindow.viewsAfter
      simp only
      split
      · exact hv.reorder hp
      · rename_i hf
        have he : aw.toggleWorkspacePinned id = aw := by
          rw [AppWindow.toggleWorkspacePinned,Option.not_isSome_iff_eq_none.mp hf]
        rw [he]
        exact ⟨shown,hv⟩
    | moveWorkspace source target before =>
      have hp := order_moveWorkspace hs
      unfold AppWindow.viewsAfter
      simp only [AppWindow.step,AppWindow.moveWorkspace] at hs
      simp only
      split
      · rename_i hsrc htgt
        simp only [hsrc,htgt] at hs
        split
        · rename_i hne
          rw [if_pos hne] at hs
          cases hs
          exact ⟨shown,hv⟩
        · exact hv.reorder hp
      · rename_i hno
        split at hs
        · rename_i hsrc htgt
          exact (hno _ _ _ _ _ _ hsrc htgt).elim
        · cases hs
          exact ⟨shown,hv⟩
    | _ => cases hop
  · have horder : aw'.order = (aw.leftOpen op).map Workspace.id :=
      map_of_forall₂ (step_each hs hop) (fun _ _ he => he.id_eq)
    rw [viewsAfter_of_keeps hop,horder,AppWindow.leftOpen]
    cases aw.closedAt op with
    | none => exact ⟨shown,hv⟩
    | some i =>
      simp only [Option.bind_some,Option.elim_some]
      cases hi : aw.workspaces[i]? with
      | none =>
        rw [List.eraseIdx_of_length_le (List.getElem?_eq_none_iff.mp hi)]
        exact ⟨shown,hv⟩
      | some ws =>
        rw [← List.eraseIdx_map]
        refine ⟨_,hv.remove h.ids_nodup ?_⟩
        rw [AppWindow.order,List.getElem?_map,hi]
        rfl

/-- The pinned workspaces stay in front. -/
theorem step_pinnedFirst (h : WindowInv aw) (hp : PinnedFirst aw.workspaces) (hd : op.Dropped)
    (hs : aw.step op = some aw') : PinnedFirst aw'.workspaces := by
  by_cases hop : op.Arranges
  · cases op with
    | newWorkspace => cases hs; exact hp.append rfl
    | newRemoteWorkspace c port id token => cases hs; exact hp.append rfl
    | restoreWorkspaceFromLayout ord snap port id token => cases hd
    | toggleWorkspacePinned id =>
      cases hs
      unfold AppWindow.toggleWorkspacePinned
      split
      · exact hp
      · exact .reorder _
    | moveWorkspace source target before => exact pinnedFirst_moveWorkspace h hp hd hs
    | _ => cases hop
  · have hsame : aw'.workspaces.map Workspace.pinned =
        (aw.leftOpen op).map Workspace.pinned :=
      map_of_forall₂ (step_each hs hop) (fun _ _ he => he.pinned_eq (fun id hid => by
        subst hid
        exact hop trivial))
    refine PinnedFirst.congr (hp.sublist ?_) hsame
    unfold AppWindow.leftOpen
    cases aw.closedAt op with
    | none => exact .refl _
    | some i => exact List.eraseIdx_sublist _ _

/-- What every step keeps. -/
structure Synced (w : ViewedWindow F) : Prop where
  window : WindowInv w.window
  views : ∃ shown, InOrder w.window.order w.views shown

namespace Synced

variable {w w' : ViewedWindow F}

theorem empty (he : aw.workspaces = []) : Synced ⟨aw,.empty⟩ := by
  refine ⟨Reachable.windowInv (.empty he),[],?_⟩
  rw [AppWindow.order,he]
  exact .empty

theorem step (h : Synced w) (hop : op.Targeted w.window) (hs : w.step op = some w') :
    Synced w' := by
  obtain ⟨aw',haw,rfl⟩ := Option.map_eq_some_iff.mp hs
  obtain ⟨shown,hv⟩ := h.views
  exact ⟨windowInv_step h.window hop haw,step_inOrder h.window hv haw⟩

/-- A restored session brings its workspaces in order, with their pins. -/
theorem restoreSession (h : Synced w) {input : ℕ → RestoreInput} {i : ℕ}
    {snaps : List (WorkspaceSnapshot F)}
    (hs : ViewedWindow.restoreSession input i snaps w = some w') :
    Synced w' ∧ w'.window.workspaces.map Workspace.pinned =
      w.window.workspaces.map Workspace.pinned ++
        snaps.map (fun snap => snap.pinned.getD false) := by
  induction snaps generalizing i w with
  | nil =>
    cases hs
    exact ⟨h,by simp⟩
  | cons snap rest ih =>
    obtain ⟨w₁,h₁,hs⟩ := Option.bind_eq_some_iff.mp hs
    have hop : WindowOp.Targeted w.window (.restoreWorkspaceFromLayout (input i).ord snap
        (input i).port (input i).id (input i).token) := trivial
    obtain ⟨hsync,hpin⟩ := ih (h.step hop h₁) hs
    cases h₁
    refine ⟨hsync,?_⟩
    rw [hpin]
    simp [AppWindow.restoreWorkspaceFromLayout,restoredWorkspace_head]

end Synced

end

/-- Page and row `i` belong to the `i`-th of the workspaces. -/
structure Shows (v : Views) (ids : List WorkspaceId) : Prop where
  pages : v.notebook.length = ids.length
  rows : v.sidebarList.length = ids.length
  get : ∀ (i : ℕ) (id : WorkspaceId), ids[i]? = some id → ∃ w, v.workspaceWidgets.lookup id = some w ∧
    v.notebook[i]? = some w.overlay ∧ v.sidebarList[i]? = some w.sidebarRow

theorem InOrder.shows {ids : List WorkspaceId} {v : Views} {shown : List WorkspaceView}
    (h : InOrder ids v shown) : Shows v ids := by
  have hlen : shown.length = ids.length := by simpa using (congrArg List.length h.widgets).symm
  refine ⟨by rw [h.notebook,List.length_map,hlen],by rw [h.sidebar,List.length_map,hlen],
    fun i id hi => ?_⟩
  obtain ⟨w,hs,hl⟩ := h.get hi
  refine ⟨w,hl,?_,?_⟩
  · rw [h.notebook,List.getElem?_map,hs]
    rfl
  · rw [h.sidebar,List.getElem?_map,hs]
    rfl

section Opened

variable {F : Type} [F64Finite F] {w : ViewedWindow F}

theorem Opened.synced (h : Opened w) : Synced w ∧ PinnedFirst w.window.workspaces := by
  induction h with
  | empty he => exact ⟨.empty he,by rw [he]; exact List.Pairwise.nil⟩
  | step op _ hop hd hs ih =>
    refine ⟨ih.1.step hop hs,?_⟩
    obtain ⟨aw',haw,rfl⟩ := Option.map_eq_some_iff.mp hs
    exact step_pinnedFirst ih.1.window ih.2 hd haw
  | restored rd input _ he hfile hload hs ih =>
    cases hfile
    obtain ⟨hsync,hpin⟩ := (Synced.empty he).restoreSession hs
    refine ⟨hsync,ih.2.congr ?_⟩
    have hsaved := Session.load_pinned hload
    have hflags := congrArg (List.map (fun b => Option.getD b false)) hsaved
    simp only [List.map_map] at hflags
    rw [hpin,he]
    simpa [AppWindow.sessionSnapshot,Function.comp_def,AppWindow.workspaceSnapshot] using hflags

/-- In every window, page and row `i` belong to workspace `i` and the pinned workspaces come
first; and the reorder loop brings the views into any order of the workspaces. -/
theorem views_in_order (h : Opened w) :
    Shows w.views w.window.order ∧
    (∃ pinned rest, w.window.workspaces = pinned ++ rest ∧ (∀ ws ∈ pinned, ws.pinned = true) ∧
      ∀ ws ∈ rest, ws.pinned = false) ∧
    ∀ ids : List WorkspaceId, ids.Perm w.window.order →
      Shows (w.views.reorderWorkspaceViews ids) ids := by
  obtain ⟨hsync,hp⟩ := h.synced
  obtain ⟨shown,hv⟩ := hsync.views
  refine ⟨hv.shows,hp.exists_prefix,fun ids hperm => ?_⟩
  obtain ⟨shown',hv'⟩ := hv.reorder hperm
  exact hv'.shows

end Opened

/-- Three workspaces: the last one is pinned, the first is dragged behind the second, and a
fourth one is closed again. -/
theorem views_in_order_dragged : ∃ w : ViewedWindow Extended, Opened w ∧
    w.window.order = [3,2,1] ∧ w.views.notebook = [4,2,0] ∧ Shows w.views w.window.order := by
  have h : Opened (⟨App.start.window,.empty⟩ : ViewedWindow Extended) := .empty rfl
  have h := (h.step .newWorkspace trivial trivial rfl).step .newWorkspace trivial trivial rfl
  have h := (h.step .newWorkspace trivial trivial rfl).step (.toggleWorkspacePinned 3) trivial
    trivial rfl
  have h := (h.step (.moveWorkspace 1 2 false) trivial (show 1 ≠ 2 by decide) rfl).step .newWorkspace trivial
    trivial rfl
  have h := h.step (.closeSurface 4) trivial trivial rfl
  exact ⟨_,h,rfl,rfl,(views_in_order h).1⟩

end Limux
