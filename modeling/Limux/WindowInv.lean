import Limux.SplitPanes
import Limux.PaneEdits
import Limux.WindowSession

/-! The window invariant: what holds of one workspace, how the edits of panes,
tabs and trees act on it, and the panel identities of a window up to order. -/
namespace Limux

variable {F : Type}

def paneIdentities (m : HashMap PaneId Pane) : List TabDragIdentity :=
  m.values.flatMap Pane.identities

def Workspace.identities (ws : Workspace F) : List TabDragIdentity := paneIdentities ws.panes

def AppWindow.identities (aw : AppWindow F) : List TabDragIdentity :=
  aw.workspaces.flatMap Workspace.identities

/-- Keys of the pane map are the panes of the tree; selections are in range
wherever there is a tab. Holds also between the steps of a tab move. -/
structure WsShape (ws : Workspace F) : Prop where
  tree : WellFormed ws.splitTree
  keys : ∀ p, p ∈ ws.panes ↔ p ∈ ws.splitTree.panes
  paneId : ∀ p pane, ws.panes.lookup p = some pane → pane.id = p
  selected : ∀ p pane, ws.panes.lookup p = some pane → pane.tabs ≠ [] →
    pane.selectedTab < pane.tabs.length

/-- The invariant of one workspace. -/
structure WsInv (ws : Workspace F) : Prop extends WsShape ws where
  tabs : ∀ p pane, ws.panes.lookup p = some pane → pane.tabs ≠ []
  nonempty : ∃ p, p ∈ ws.panes

/-- An identity the allocators have already handed out. -/
def TabDragIdentity.Below (ids : IdCounters) : TabDragIdentity → Prop
  | .surface s => s < ids.surface
  | .browser b => b < ids.browser

/-- The invariant of the window. -/
structure WindowInv (aw : AppWindow F) : Prop where
  ws : ∀ ws ∈ aw.workspaces, WsInv ws
  ids_nodup : (aw.workspaces.map Workspace.id).Nodup
  ids_lt : ∀ ws ∈ aw.workspaces, ws.id < aw.ids.workspace
  panes_lt : ∀ ws ∈ aw.workspaces, ∀ p : ℕ, p ∈ ws.panes → p < aw.ids.pane
  identities_nodup : aw.identities.Nodup
  below : ∀ x ∈ aw.identities, x.Below aw.ids

/-! Identities under map edits. -/

theorem paneIdentities_insert (m : HashMap PaneId Pane) (p : PaneId) (pane : Pane) :
    paneIdentities (m.insert p pane) = pane.identities ++ paneIdentities (m.erase p) := by
  rw [paneIdentities,HashMap.values_insert,List.flatMap_cons,paneIdentities]

theorem paneIdentities_erase {m : HashMap PaneId Pane} {p : PaneId} {pane : Pane}
    (h : m.lookup p = some pane) :
    (paneIdentities m).Perm (pane.identities ++ paneIdentities (m.erase p)) := by
  rw [paneIdentities,paneIdentities,← List.flatMap_cons]
  exact (HashMap.values_erase_perm h).flatMap_right _

theorem paneIdentities_insert_fresh {m : HashMap PaneId Pane} {p : PaneId} (pane : Pane)
    (h : m.lookup p = none) :
    paneIdentities (m.insert p pane) = pane.identities ++ paneIdentities m := by
  rw [paneIdentities_insert,HashMap.erase_of_notMem h]

theorem paneIdentities_update {m : HashMap PaneId Pane} {p : PaneId} {pane pane' : Pane}
    (h : m.lookup p = some pane) (xs ys : List TabDragIdentity)
    (hp : (xs ++ pane'.identities).Perm (ys ++ pane.identities)) :
    (xs ++ paneIdentities (m.insert p pane')).Perm (ys ++ paneIdentities m) := by
  rw [paneIdentities_insert,← List.append_assoc]
  refine (hp.append_right _).trans ?_
  rw [List.append_assoc]
  exact (paneIdentities_erase h).symm.append_left ys

theorem modify_of_lookup {m : HashMap PaneId Pane} {p : PaneId} {pane : Pane}
    (h : m.lookup p = some pane) (f : Pane → Pane) : m.modify p f = m.insert p (f pane) := by
  rw [HashMap.modify,h]

theorem modify_of_none {m : HashMap PaneId Pane} {p : PaneId} (h : m.lookup p = none)
    (f : Pane → Pane) : m.modify p f = m := by
  rw [HashMap.modify,h]

/-! Edits of a list of workspaces at one index. -/

theorem workspaces_split {l : List (Workspace F)} {i : ℕ} {ws : Workspace F}
    (h : l[i]? = some ws) : ∃ a b, l = a ++ ws :: b ∧ a.length = i ∧
      (∀ f, l.modify i f = a ++ f ws :: b) ∧ l.eraseIdx i = a ++ b := by
  obtain ⟨hi,rfl⟩ := List.getElem?_eq_some_iff.mp h
  have hl : l.take i ++ l[i] :: l.drop (i+1) = l := by simp
  have hlen : (l.take i).length = i := by simp [hi.le]
  refine ⟨l.take i,l.drop (i+1),hl.symm,hlen,fun f => ?_,?_⟩
  · rw [List.modify_eq_take_cons_drop hi]
  · exact List.eraseIdx_eq_take_drop_succ l i

/-! Edits of one workspace. -/

namespace WsShape

variable {ws : Workspace F}

theorem mem_of_lookup {p : PaneId} {pane : Pane} (h : ws.panes.lookup p = some pane) :
    p ∈ ws.panes := HashMap.mem_iff_lookup.mpr ⟨pane,h⟩

theorem insert_pane (h : WsShape ws) {p : PaneId} (hp : p ∈ ws.panes) {pane : Pane}
    (hid : pane.id = p) (hsel : pane.tabs ≠ [] → pane.selectedTab < pane.tabs.length) :
    WsShape { ws with panes := ws.panes.insert p pane } := by
  refine ⟨h.tree,fun q => ?_,fun q x hx => ?_,fun q x hx => ?_⟩
  · rw [AList.mem_insert,← h.keys q]
    constructor
    · rintro (rfl | hq)
      · exact hp
      · exact hq
    · exact .inr
  · rw [HashMap.lookup_insert_ite] at hx
    split at hx
    · rename_i hq
      cases hx
      exact hid.trans hq.symm
    · exact h.paneId q x hx
  · rw [HashMap.lookup_insert_ite] at hx
    split at hx
    · cases hx
      exact hsel
    · exact h.selected q x hx

theorem with_tree (h : WsShape ws) {t : SplitTree F} (ht : WellFormed t)
    (hp : ∀ p, p ∈ t.panes ↔ p ∈ ws.splitTree.panes) : WsShape { ws with splitTree := t } :=
  ⟨ht,fun p => (h.keys p).trans (hp p).symm,h.paneId,h.selected⟩

theorem setFocusedPane (h : WsShape ws) {p : PaneId} (hp : p ∈ ws.panes) :
    WsShape (ws.setFocusedPane p) :=
  h.with_tree (h.tree.of_focus ((h.keys p).mp hp)) (fun q => by
    rw [WellFormed.panes_setFocused])

theorem remove_pane (h : WsShape ws) (p : PaneId) :
    WsShape ({ ws with splitTree := (ws.splitTree.remove p).2 }.removePane p) := by
  refine ⟨h.tree.remove p,fun q => ?_,fun q x hx => ?_,fun q x hx => ?_⟩
  · simp only [Workspace.removePane,AList.mem_erase]
    rw [h.tree.panes_remove p,h.keys q,h.tree.panes_nodup.mem_erase_iff]
  · simp only [Workspace.removePane,HashMap.lookup_erase_ite] at hx
    split at hx
    · cases hx
    · exact h.paneId q x hx
  · simp only [Workspace.removePane,HashMap.lookup_erase_ite] at hx
    split at hx
    · cases hx
    · exact h.selected q x hx

theorem add_split [F64Ops F] (h : WsShape ws) {target : PaneId} (ht : target ∈ ws.panes)
    {pane : Pane} (hfresh : pane.id ∉ ws.panes)
    (hsel : pane.tabs ≠ [] → pane.selectedTab < pane.tabs.length) (before : Bool)
    (o : Orientation) :
    WsShape { ws.addPane pane with
      splitTree := (ws.splitTree.splitAt before target pane.id o).2 } := by
  have hq : pane.id ∉ ws.splitTree.panes := fun hm => hfresh ((h.keys _).mpr hm)
  have hperm := (h.tree.splitAt_ok before pane.id o ((h.keys _).mp ht)).2
  refine ⟨h.tree.splitAt before target hq o,fun q => ?_,fun q x hx => ?_,fun q x hx => ?_⟩
  · simp only [Workspace.addPane,AList.mem_insert]
    rw [hperm.mem_iff,List.mem_cons,h.keys q]
  · simp only [Workspace.addPane,HashMap.lookup_insert_ite] at hx
    split at hx
    · rename_i hq
      cases hx
      exact hq.symm
    · exact h.paneId q x hx
  · simp only [Workspace.addPane,HashMap.lookup_insert_ite] at hx
    split at hx
    · cases hx
      exact hsel
    · exact h.selected q x hx

end WsShape

namespace WsInv

variable {ws : Workspace F}

theorem focused (h : WsInv ws) : ∃ p ∈ ws.panes, ws.focusedPane = some p := by
  obtain ⟨q,hq⟩ := h.nonempty
  obtain ⟨p,hp,hf⟩ := h.tree.focused_mem (List.ne_nil_of_mem ((h.keys q).mp hq))
  exact ⟨p,(h.keys p).mpr hp,hf⟩

theorem mem_of_focused (h : WsInv ws) {p : PaneId} (hp : ws.focusedPane = some p) :
    p ∈ ws.panes := by
  obtain ⟨q,hq,hf⟩ := h.focused
  exact Option.some.inj (hf.symm.trans hp) ▸ hq

theorem insert_pane (h : WsInv ws) {p : PaneId} (hp : p ∈ ws.panes) {pane : Pane}
    (hid : pane.id = p) (hok : pane.Ok) : WsInv { ws with panes := ws.panes.insert p pane } := by
  refine ⟨h.toWsShape.insert_pane hp hid (fun _ => hok.sel),fun q x hx => ?_,
    ⟨p,(AList.mem_insert _).mpr (.inl rfl)⟩⟩
  rw [HashMap.lookup_insert_ite] at hx
  split at hx
  · cases hx
    exact hok.ne
  · exact h.tabs q x hx

theorem ok (h : WsInv ws) {p : PaneId} {pane : Pane} (hl : ws.panes.lookup p = some pane) :
    pane.Ok := ⟨h.tabs p pane hl,h.selected p pane hl (h.tabs p pane hl)⟩

theorem modifyPane (h : WsInv ws) (p : PaneId) {f : Pane → Pane}
    (hf : ∀ pane, ws.panes.lookup p = some pane → pane.Ok →
      (f pane).id = pane.id ∧ (f pane).Ok) : WsInv (ws.modifyPane p f) := by
  rw [Workspace.modifyPane]
  rcases hl : ws.panes.lookup p with _ | pane
  · rw [modify_of_none hl]; exact h
  · rw [modify_of_lookup hl]
    obtain ⟨hid,hok⟩ := hf pane hl (h.ok hl)
    exact h.insert_pane (WsShape.mem_of_lookup hl) (hid.trans (h.paneId p pane hl)) hok

theorem setFocusedPane (h : WsInv ws) {p : PaneId} (hp : p ∈ ws.panes) :
    WsInv (ws.setFocusedPane p) := ⟨h.toWsShape.setFocusedPane hp,h.tabs,h.nonempty⟩

theorem with_tree (h : WsInv ws) {t : SplitTree F} (ht : WellFormed t)
    (hp : ∀ p, p ∈ t.panes ↔ p ∈ ws.splitTree.panes) : WsInv { ws with splitTree := t } :=
  ⟨h.toWsShape.with_tree ht hp,h.tabs,h.nonempty⟩

theorem add_split [F64Ops F] (h : WsInv ws) {target : PaneId} (ht : target ∈ ws.panes)
    {pane : Pane} (hfresh : pane.id ∉ ws.panes) (hok : pane.Ok) (before : Bool)
    (o : Orientation) : WsInv { ws.addPane pane with
      splitTree := (ws.splitTree.splitAt before target pane.id o).2 } := by
  refine ⟨h.toWsShape.add_split ht hfresh (fun _ => hok.sel) before o,fun q x hx => ?_,
    ⟨pane.id,(AList.mem_insert _).mpr (.inl rfl)⟩⟩
  simp only [Workspace.addPane,HashMap.lookup_insert_ite] at hx
  split at hx
  · cases hx
    exact hok.ne
  · exact h.tabs q x hx

theorem remove_pane (h : WsInv ws) {p q : PaneId} (hq : q ∈ ws.panes) (hne : q ≠ p) :
    WsInv ({ ws with splitTree := (ws.splitTree.remove p).2 }.removePane p) := by
  refine ⟨h.toWsShape.remove_pane p,fun r x hx => ?_,⟨q,AList.mem_erase.mpr ⟨hne,hq⟩⟩⟩
  simp only [Workspace.removePane,HashMap.lookup_erase_ite] at hx
  split at hx
  · cases hx
  · exact h.tabs r x hx

theorem congr {ws' : Workspace F} (h : WsInv ws) (hp : ws'.panes = ws.panes)
    (ht : ws'.splitTree = ws.splitTree) : WsInv ws' := by
  obtain ⟨⟨h1,h2,h3,h4⟩,h5,h6⟩ := h
  refine ⟨⟨ht ▸ h1,fun p => ?_,?_,?_⟩,?_,?_⟩
  · rw [hp,ht]; exact h2 p
  · rw [hp]; exact h3
  · rw [hp]; exact h4
  · rw [hp]; exact h5
  · rw [hp]; exact h6

end WsInv

/-! The window as a list of workspaces. -/

/-- All counters have at most advanced. -/
structure IdCounters.Le (a b : IdCounters) : Prop where
  workspace : a.workspace ≤ b.workspace
  pane : a.pane ≤ b.pane
  surface : a.surface ≤ b.surface
  browser : a.browser ≤ b.browser

theorem IdCounters.Le.refl (a : IdCounters) : a.Le a := ⟨le_rfl,le_rfl,le_rfl,le_rfl⟩

theorem IdCounters.Le.trans {a b c : IdCounters} (h : a.Le b) (h' : b.Le c) : a.Le c :=
  ⟨h.workspace.trans h'.workspace,h.pane.trans h'.pane,h.surface.trans h'.surface,
    h.browser.trans h'.browser⟩

theorem TabDragIdentity.Below.mono {a b : IdCounters} (h : a.Le b) {x : TabDragIdentity}
    (hx : x.Below a) : x.Below b := by
  cases x with
  | surface s => exact lt_of_lt_of_le hx h.surface
  | browser b => exact lt_of_lt_of_le hx h.browser

/-- Identities handed out between two states of the allocators. -/
structure Fresh (ids ids' : IdCounters) (new : List TabDragIdentity) : Prop where
  le : ids.Le ids'
  nodup : new.Nodup
  notBelow : ∀ x ∈ new, ¬ x.Below ids
  below : ∀ x ∈ new, x.Below ids'

theorem Fresh.nil (ids : IdCounters) : Fresh ids ids [] :=
  ⟨.refl ids,.nil,by simp,by simp⟩

namespace WindowInv

variable {aw : AppWindow F}

/-- A new list of workspaces, each well-formed, that holds no identity beyond the
old ones and fresh ones. -/
theorem relist (h : WindowInv aw) {wss : List (Workspace F)} {ids : IdCounters}
    {new : List TabDragIdentity} (hf : Fresh aw.ids ids new) (page : Option ℕ)
    (hws : ∀ ws ∈ wss, WsInv ws) (hid : (wss.map Workspace.id).Nodup)
    (hlt : ∀ ws ∈ wss, ws.id < ids.workspace)
    (hpane : ∀ ws ∈ wss, ∀ p : ℕ, p ∈ ws.panes → p < ids.pane)
    (hsub : (wss.flatMap Workspace.identities).Subperm (new ++ aw.identities)) :
    WindowInv { aw with workspaces := wss, currentPage := page, ids := ids } := by
  have hnd : (new ++ aw.identities).Nodup := by
    rw [List.nodup_append]
    refine ⟨hf.nodup,h.identities_nodup,?_⟩
    rintro x hx y hy rfl
    exact hf.notBelow x hx (h.below x hy)
  have hnd' : (wss.flatMap Workspace.identities).Nodup := by
    obtain ⟨l,hl,hs⟩ := hsub
    exact hl.nodup_iff.mp (hs.nodup hnd)
  refine ⟨hws,hid,hlt,hpane,hnd',fun x hx => ?_⟩
  rcases List.mem_append.mp (hsub.subset hx) with hx | hx
  · exact hf.below x hx
  · exact (h.below x hx).mono hf.le

theorem replace (h : WindowInv aw) {i : ℕ} {ws : Workspace F} (hi : aw.workspaces[i]? = some ws)
    {ids : IdCounters} {new : List TabDragIdentity} (hf : Fresh aw.ids ids new)
    {g : Workspace F → Workspace F} (hws : WsInv (g ws)) (hid : (g ws).id = ws.id)
    (hpane : ∀ p : ℕ, p ∈ (g ws).panes → p ∈ ws.panes ∨ aw.ids.pane ≤ p ∧ p < ids.pane)
    (hsub : (g ws).identities.Subperm (new ++ ws.identities)) :
    WindowInv ({ aw with ids := ids }.modifyWs i g) := by
  obtain ⟨a,b,hl,-,hm,-⟩ := workspaces_split hi
  have hmem : ∀ x ∈ a ++ g ws :: b, x = g ws ∨ x ∈ aw.workspaces := by
    intro x hx
    rw [hl]
    simp only [List.mem_append,List.mem_cons] at hx ⊢
    tauto
  have hwm : ws ∈ aw.workspaces := List.mem_of_getElem? hi
  rw [AppWindow.modifyWs,hm g]
  refine h.relist hf aw.currentPage ?_ ?_ ?_ ?_ ?_
  · intro x hx
    rcases hmem x hx with rfl | hx
    · exact hws
    · exact h.ws x hx
  · have := h.ids_nodup
    rw [hl] at this
    simpa [hid] using this
  · intro x hx
    rcases hmem x hx with rfl | hx
    · rw [hid]; exact lt_of_lt_of_le (h.ids_lt ws hwm) hf.le.workspace
    · exact lt_of_lt_of_le (h.ids_lt x hx) hf.le.workspace
  · intro x hx p hp
    rcases hmem x hx with rfl | hx
    · rcases hpane p hp with hp | hp
      · exact lt_of_lt_of_le (h.panes_lt ws hwm p hp) hf.le.pane
      · exact hp.2
    · exact lt_of_lt_of_le (h.panes_lt x hx p hp) hf.le.pane
  · rw [AppWindow.identities,hl]
    simp only [List.flatMap_append,List.flatMap_cons]
    have h1 : (a.flatMap Workspace.identities ++
        ((g ws).identities ++ b.flatMap Workspace.identities)).Perm
        ((g ws).identities ++ (a.flatMap Workspace.identities ++
          b.flatMap Workspace.identities)) := by
      rw [← List.append_assoc,← List.append_assoc]
      exact List.perm_append_comm.append_right _
    have h2 : (new ++ ws.identities ++ (a.flatMap Workspace.identities ++
        b.flatMap Workspace.identities)).Perm
        (new ++ (a.flatMap Workspace.identities ++ (ws.identities ++
          b.flatMap Workspace.identities))) := by
      rw [List.append_assoc]
      refine List.Perm.append_left new ?_
      rw [← List.append_assoc,← List.append_assoc]
      exact List.perm_append_comm.append_right _
    exact h1.subperm.trans (((List.subperm_append_right _).mpr hsub).trans h2.subperm)

end WindowInv

/-- Replacing one workspace by one with all its identities loses none. -/
theorem identities_modifyWs {aw : AppWindow F} {i : ℕ} {ws : Workspace F}
    (hi : aw.workspaces[i]? = some ws) {g : Workspace F → Workspace F}
    (hsub : ws.identities ⊆ (g ws).identities) :
    aw.identities ⊆ (aw.modifyWs i g).identities := by
  obtain ⟨a,b,hl,-,hm,-⟩ := workspaces_split hi
  intro x hx
  rw [AppWindow.identities,hl] at hx
  rw [AppWindow.identities,AppWindow.modifyWs,hm g]
  simp only [List.flatMap_append,List.flatMap_cons,List.mem_append] at hx ⊢
  rcases hx with hx | hx | hx
  · exact .inl hx
  · exact .inr (.inl (hsub hx))
  · exact .inr (.inr hx)

theorem current_spec {aw : AppWindow F} {i : ℕ} {ws : Workspace F}
    (h : aw.current = some (i,ws)) : aw.workspaces[i]? = some ws := by
  simp only [AppWindow.current,Option.bind_eq_some_iff,Option.map_eq_some_iff,
    Prod.mk.injEq] at h
  obtain ⟨j,-,w,hw,rfl,rfl⟩ := h
  exact hw

theorem findWs_spec {aw : AppWindow F} {α : Type} {f : Workspace F → Option α} {i : ℕ}
    {ws : Workspace F} {a : α} (h : aw.findWs f = some (i,ws,a)) :
    aw.workspaces[i]? = some ws ∧ f ws = some a := by
  obtain ⟨⟨w,j⟩,hm,he⟩ := List.exists_of_findSome?_eq_some h
  simp only [Option.map_eq_some_iff,Prod.mk.injEq] at he
  obtain ⟨b,hb,rfl,rfl,rfl⟩ := he
  exact ⟨List.mem_zipIdx_iff_getElem?.mp hm,hb⟩

end Limux
