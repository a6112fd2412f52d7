import Limux.ControllerSteps
import Limux.Dbus

/-! When two states of the application are the same: up to the order in which a map lists its
status entries, and with the connections that were started. -/
namespace Limux

variable {F : Type}

/-- Equal but for the order of the status entries. -/
structure Workspace.Alike (a b : Workspace F) : Prop where
  rest : { a with statusEntries := ∅ } = { b with statusEntries := ∅ }
  status : ∀ k, a.statusEntries.lookup k = b.statusEntries.lookup k

namespace Workspace

theorem Alike.refl (a : Workspace F) : a.Alike a := ⟨rfl,fun _ => rfl⟩

theorem Alike.symm {a b : Workspace F} (h : a.Alike b) : b.Alike a :=
  ⟨h.rest.symm,fun k => (h.status k).symm⟩

theorem alike_iff_eq {a b : Workspace F} (h : a.statusEntries = b.statusEntries) :
    a.Alike b ↔ a = b := by
  constructor
  · rintro ⟨hr,-⟩
    cases a
    cases b
    simp only [mk.injEq] at hr h ⊢
    simp only [hr,h,and_self]
  · rintro rfl
    exact .refl a

theorem alike_status_iff (ws : Workspace F) (m n : HashMap String SidebarStatusEntry) :
    { ws with statusEntries := m }.Alike { ws with statusEntries := n } ↔
      ∀ k, m.lookup k = n.lookup k :=
  ⟨Alike.status,fun h => ⟨rfl,h⟩⟩

theorem alike_insert_iff (ws : Workspace F) (k : String) (e : SidebarStatusEntry) :
    ws.Alike { ws with statusEntries := ws.statusEntries.insert k e } ↔
      ws.statusEntries.lookup k = some e := by
  rw [show ws = { ws with statusEntries := ws.statusEntries } from rfl,alike_status_iff]
  simp only [HashMap.lookup_insert_ite]
  constructor
  · intro h
    simpa using h k
  · intro h j
    split
    · rename_i hj
      rw [hj,h]
    · rfl

theorem insert_alike_iff (ws : Workspace F) (k : String) (e d : SidebarStatusEntry) :
    { ws with statusEntries := ws.statusEntries.insert k e }.Alike
      { ws with statusEntries := ws.statusEntries.insert k d } ↔ e = d := by
  rw [alike_status_iff]
  simp only [HashMap.lookup_insert_ite]
  constructor
  · intro h
    simpa using h k
  · rintro rfl j
    rfl

theorem alike_erase_iff (ws : Workspace F) (k : String) :
    ws.Alike { ws with statusEntries := ws.statusEntries.erase k } ↔
      ws.statusEntries.lookup k = none := by
  rw [show ws = { ws with statusEntries := ws.statusEntries } from rfl,alike_status_iff]
  simp only [HashMap.lookup_erase_ite]
  constructor
  · intro h
    simpa using h k
  · intro h j
    split
    · rename_i hj
      rw [hj,h]
    · rfl

end Workspace

namespace AppWindow

structure Alike (a b : AppWindow F) : Prop where
  workspaces : List.Forall₂ Workspace.Alike a.workspaces b.workspaces
  rest : { a with workspaces := ([] : List (Workspace F)) } = { b with workspaces := [] }

theorem Alike.refl (a : AppWindow F) : a.Alike a := by
  refine ⟨?_,rfl⟩
  rw [List.forall₂_same]
  exact fun ws _ => .refl ws

theorem Alike.symm {a b : AppWindow F} (h : a.Alike b) : b.Alike a :=
  ⟨h.workspaces.flip.imp (fun _ _ hw => Workspace.Alike.symm hw),h.rest.symm⟩

theorem alike_comm {a b : AppWindow F} : a.Alike b ↔ b.Alike a := ⟨.symm,.symm⟩

/-- The workspace with the id, if there is one, is as required. -/
def Meets (aw : AppWindow F) (id : WorkspaceId) (P : Workspace F → Prop) : Prop :=
  ∀ i ws, aw.findWorkspaceById id = some (i,ws,()) → P ws

theorem modifyById_id (aw : AppWindow F) (id : WorkspaceId) : aw.modifyById id (fun ws => ws) = aw := by
  unfold modifyById
  split
  · rename_i i ws u h
    have hm : aw.workspaces.modify i (fun ws => ws) = aw.workspaces := List.modify_id i _
    rw [modifyWs,hm]
  · rfl

theorem modifyById_alike_iff (aw : AppWindow F) (id : WorkspaceId)
    (f g : Workspace F → Workspace F) :
    (aw.modifyById id f).Alike (aw.modifyById id g) ↔
      aw.Meets id (fun ws => (f ws).Alike (g ws)) := by
  unfold modifyById Meets
  rcases hfind : aw.findWorkspaceById id with _ | ⟨i,ws,u⟩
  · exact iff_of_true (.refl aw) (fun i ws h => by cases h)
  · obtain ⟨hget,-⟩ := findWs_spec hfind
    obtain ⟨hlt,hws⟩ := List.getElem?_eq_some_iff.mp hget
    constructor
    · rintro ⟨h,-⟩ j v hv
      cases hv
      have hi := (List.forall₂_iff_get.mp h).2 i (by simpa [modifyWs] using hlt)
        (by simpa [modifyWs] using hlt)
      simpa [modifyWs,hws] using hi
    · intro h
      refine ⟨List.forall₂_iff_get.mpr ⟨by simp [modifyWs],fun j h₁ h₂ => ?_⟩,rfl⟩
      simp only [modifyWs,List.get_eq_getElem,List.getElem_modify]
      split
      · rename_i hij
        subst hij
        rw [hws]
        exact h i ws rfl
      · exact .refl _

/-- An update that may change nothing. -/
theorem alike_modifyById_iff (aw : AppWindow F) (id : WorkspaceId) (g : Workspace F → Workspace F) :
    aw.Alike (aw.modifyById id g) ↔ aw.Meets id (fun ws => ws.Alike (g ws)) := by
  have h := modifyById_alike_iff aw id (fun ws => ws) g
  rwa [modifyById_id] at h

theorem meets_congr {aw : AppWindow F} {id : WorkspaceId} {P Q : Workspace F → Prop}
    (h : ∀ ws, P ws ↔ Q ws) : aw.Meets id P ↔ aw.Meets id Q :=
  forall₃_congr (fun _ ws _ => h ws)

theorem alike_modifyById_iff_eq {aw : AppWindow F} {id : WorkspaceId}
    {g : Workspace F → Workspace F} (h : ∀ ws, ws.statusEntries = (g ws).statusEntries) :
    aw.Alike (aw.modifyById id g) ↔ aw.Meets id (fun ws => ws = g ws) := by
  rw [alike_modifyById_iff]
  exact meets_congr (fun ws => Workspace.alike_iff_eq (h ws))

theorem setWorkspaceColor_alike_iff (aw : AppWindow F) (id : WorkspaceId) :
    aw.Alike (aw.setWorkspaceColor id none) ↔ aw.Meets id (fun ws => ws.color = none) := by
  rw [setWorkspaceColor]
  refine Iff.trans (alike_modifyById_iff_eq (fun _ => rfl)) (meets_congr (fun ws => ?_))
  cases ws
  simp

theorem renameWorkspace_alike_iff (aw : AppWindow F) (id : WorkspaceId) (name : String) :
    aw.Alike (aw.renameWorkspace id name) ↔
      aw.Meets id (fun ws => ws.customTitle = some name ∧ ws.title = name) := by
  rw [renameWorkspace]
  refine Iff.trans (alike_modifyById_iff_eq (fun _ => rfl)) (meets_congr (fun ws => ?_))
  cases ws
  simp [and_comm]

theorem setWorkspaceStatus_alike_iff (aw : AppWindow F) (id : WorkspaceId)
    (e : SidebarStatusEntry) : aw.Alike (aw.setWorkspaceStatus id e) ↔
      aw.Meets id (fun ws => ws.statusEntries.lookup e.key = some e) := by
  rw [setWorkspaceStatus,alike_modifyById_iff]
  exact meets_congr (fun ws => ws.alike_insert_iff e.key e)

theorem clearWorkspaceStatus_alike_iff (aw : AppWindow F) (id : WorkspaceId) (key : String) :
    aw.Alike (aw.clearWorkspaceStatus id key) ↔
      aw.Meets id (fun ws => ws.statusEntries.lookup key = none) := by
  rw [clearWorkspaceStatus,alike_modifyById_iff]
  exact meets_congr (fun ws => ws.alike_erase_iff key)

theorem setWorkspaceProgress_alike_iff (aw : AppWindow F) (id : WorkspaceId) (value : F)
    (label : Option String) : aw.Alike (aw.setWorkspaceProgress id value label) ↔
      aw.Meets id (fun ws => ws.progress = some ⟨value,label⟩) := by
  rw [setWorkspaceProgress]
  refine Iff.trans (alike_modifyById_iff_eq (fun _ => rfl)) (meets_congr (fun ws => ?_))
  cases ws
  simp

theorem clearWorkspaceProgress_alike_iff (aw : AppWindow F) (id : WorkspaceId) :
    aw.Alike (aw.clearWorkspaceProgress id) ↔ aw.Meets id (fun ws => ws.progress = none) := by
  rw [clearWorkspaceProgress]
  refine Iff.trans (alike_modifyById_iff_eq (fun _ => rfl)) (meets_congr (fun ws => ?_))
  cases ws
  simp

theorem clearWorkspaceLog_alike_iff (aw : AppWindow F) (id : WorkspaceId) :
    aw.Alike (aw.clearWorkspaceLog id) ↔ aw.Meets id (fun ws => ws.logEntries = []) := by
  rw [clearWorkspaceLog]
  refine Iff.trans (alike_modifyById_iff_eq (fun _ => rfl)) (meets_congr (fun ws => ?_))
  cases ws
  simp

theorem append_singleton_eq_cons_iff {α : Type} (l : List α) (a b : α) :
    l ++ [a] = b :: l ↔ ∀ x ∈ b :: l, x = a := by
  induction l generalizing b with
  | nil => simp [eq_comm]
  | cons c l ih =>
    rw [List.cons_append,List.cons.injEq,ih]
    simp only [List.mem_cons,forall_eq_or_imp]
    constructor
    · rintro ⟨rfl,h⟩
      exact ⟨h.1,h⟩
    · rintro ⟨rfl,h⟩
      exact ⟨h.1,h⟩

theorem addWorkspaceLog_alike_iff (aw : AppWindow F) (id : WorkspaceId) (e : SidebarLogEntry) :
    aw.Alike (aw.addWorkspaceLog id e) ↔
      aw.Meets id (fun ws => 50 ≤ ws.logEntries.length ∧ ∀ x ∈ ws.logEntries, x = e) := by
  rw [addWorkspaceLog]
  refine Iff.trans (alike_modifyById_iff_eq (fun _ => rfl)) (meets_congr (fun ws => ?_))
  have hlog : ws = (let log := ws.logEntries ++ [e]
      { ws with logEntries := if 50 < log.length then log.tail else log }) ↔
      ws.logEntries = if 50 < (ws.logEntries ++ [e]).length then (ws.logEntries ++ [e]).tail
        else ws.logEntries ++ [e] := by
    cases ws
    simp
  rw [hlog,List.length_append,List.length_singleton]
  by_cases h50 : 50 < ws.logEntries.length + 1
  · rw [if_pos h50]
    rcases hl : ws.logEntries with _ | ⟨b,l⟩
    · rw [hl] at h50
      simp at h50
    · rw [List.cons_append,List.tail_cons,eq_comm,append_singleton_eq_cons_iff,← hl]
      exact (and_iff_right (by omega)).symm
  · rw [if_neg h50]
    refine iff_of_false (fun h => ?_) (fun h => ?_)
    · have hlen := congrArg List.length h
      simp at hlen
    · omega

/-- Updates of two workspaces are the same only if neither changes anything. -/
theorem modifyById_alike_iff_of_ne (aw : AppWindow F) {v w : WorkspaceId} (hne : v ≠ w)
    (f : Workspace F → Workspace F) :
    (aw.modifyById v f).Alike (aw.modifyById w f) ↔
      aw.Meets v (fun ws => ws.Alike (f ws)) ∧ aw.Meets w (fun ws => ws.Alike (f ws)) := by
  rcases hv : aw.findWorkspaceById v with _ | ⟨i,x,u⟩
  · have he : aw.modifyById v f = aw := by rw [modifyById,hv]
    have hm : aw.Meets v (fun ws => ws.Alike (f ws)) := by
      intro i ws h
      rw [hv] at h
      cases h
    rw [he,alike_modifyById_iff]
    exact ⟨fun h => ⟨hm,h⟩,And.right⟩
  rcases hw : aw.findWorkspaceById w with _ | ⟨j,y,u'⟩
  · have he : aw.modifyById w f = aw := by rw [modifyById,hw]
    have hm : aw.Meets w (fun ws => ws.Alike (f ws)) := by
      intro i ws h
      rw [hw] at h
      cases h
    rw [he,alike_comm,alike_modifyById_iff]
    exact ⟨fun h => ⟨h,hm⟩,And.left⟩
  obtain ⟨hi,hx⟩ := findWs_spec hv
  obtain ⟨hj,hy⟩ := findWs_spec hw
  have hij : i ≠ j := by
    rintro rfl
    rw [hi] at hj
    cases hj
    split at hx
    · rename_i hxv
      split at hy
      · rename_i hxw
        exact hne (hxv.symm.trans hxw)
      · cases hy
    · cases hx
  obtain ⟨hilt,hix⟩ := List.getElem?_eq_some_iff.mp hi
  obtain ⟨hjlt,hjy⟩ := List.getElem?_eq_some_iff.mp hj
  have hmv : aw.modifyById v f = aw.modifyWs i f := by rw [modifyById,hv]
  have hmw : aw.modifyById w f = aw.modifyWs j f := by rw [modifyById,hw]
  rw [hmv,hmw]
  constructor
  · rintro ⟨h,-⟩
    have hget := (List.forall₂_iff_get.mp h).2
    constructor
    · intro k ws hk
      rw [hv] at hk
      cases hk
      have hg := hget i (by simpa [modifyWs] using hilt) (by simpa [modifyWs] using hilt)
      simp only [modifyWs,List.get_eq_getElem,List.getElem_modify,hij.symm,if_true,if_false,
        hix] at hg
      exact hg.symm
    · intro k ws hk
      rw [hw] at hk
      cases hk
      have hg := hget j (by simpa [modifyWs] using hjlt) (by simpa [modifyWs] using hjlt)
      simpa only [modifyWs,List.get_eq_getElem,List.getElem_modify,hij,if_true,if_false,
        hjy] using hg
  · rintro ⟨h₁,h₂⟩
    refine ⟨List.forall₂_iff_get.mpr ⟨by simp [modifyWs],fun k hk₁ hk₂ => ?_⟩,rfl⟩
    simp only [modifyWs,List.get_eq_getElem,List.getElem_modify]
    by_cases hki : i = k
    · subst hki
      rw [if_pos rfl,if_neg hij.symm,hix]
      exact (h₁ i x hv).symm
    · rw [if_neg hki]
      split
      · rename_i hjk
        subst hjk
        rw [hjy]
        exact h₂ j y hw
      · exact .refl _

/-- The focused workspace is there. -/
theorem meets_focused {aw : AppWindow F} {id : WorkspaceId} (h : aw.focusedWorkspaceId = some id)
    {P : Prop} : aw.Meets id (fun _ => P) ↔ P := by
  constructor
  · intro hm
    obtain ⟨⟨i,ws⟩,hc,hid⟩ := Option.map_eq_some_iff.mp h
    rcases hfind : aw.findWorkspaceById id with _ | ⟨j,v,u⟩
    · exact absurd hid (findWorkspaceById_none hfind (List.mem_of_getElem? (current_spec hc)))
    · exact hm j v hfind
  · exact fun hp _ _ _ => hp

end AppWindow

def Effect.starts : Effect → Option (WorkspaceId × RemoteConfiguration)
  | connect ws c | reconnect ws c => some (ws,c)
  | _ => none

namespace App

def started (st : App F) : List (WorkspaceId × RemoteConfiguration) :=
  st.effects.filterMap Effect.starts

/-- The same window state, notification switch and started connections. -/
structure Alike (a b : App F) : Prop where
  window : a.window.Alike b.window
  notifications : a.notifications = b.notifications
  started : a.started = b.started

theorem Alike.refl (a : App F) : a.Alike a := ⟨.refl _,rfl,rfl⟩

theorem started_addEffect (st : App F) (e : Effect) :
    (st.addEffect e).started = st.started ++ e.starts.toList := by
  rw [started,addEffect,List.filterMap_append,started]
  cases h : e.starts <;> simp [h]

/-- An effect that starts no connection. -/
theorem addEffect_alike (st : App F) {e : Effect} (h : e.starts = none) :
    st.Alike (st.addEffect e) := by
  refine ⟨.refl _,rfl,?_⟩
  rw [started_addEffect,h,Option.toList_none,List.append_nil]

theorem alike_iff_window {a b : App F} (hn : a.notifications = b.notifications)
    (hs : a.started = b.started) : a.Alike b ↔ a.window.Alike b.window :=
  ⟨Alike.window,fun h => ⟨h,hn,hs⟩⟩

theorem alike_iff_started {a b : App F} (hw : a.window = b.window)
    (hn : a.notifications = b.notifications) : a.Alike b ↔ a.started = b.started :=
  ⟨Alike.started,fun h => ⟨hw ▸ .refl _,hn,h⟩⟩

theorem started_newRemoteWorkspace [F64Ops F] (env : CommandEnv F) (st : App F)
    (c : RemoteConfiguration) : (st.newRemoteWorkspace env c).started = st.started ++
      [(st.window.ids.workspace,AppWindow.fillRelay c env.relayPort env.relayId
        env.relayToken)] := started_addEffect _ _

theorem not_alike_newRemoteWorkspace [F64Ops F] (env : CommandEnv F) (st : App F)
    (c : RemoteConfiguration) : ¬ st.Alike (st.newRemoteWorkspace env c) := by
  intro h
  have hlen := congrArg List.length h.started
  rw [started_newRemoteWorkspace] at hlen
  simp at hlen

/-- Configurations whose relay settings are the same. -/
theorem newRemoteWorkspace_alike_iff [F64Ops F] (env : CommandEnv F) (st : App F)
    {c d : RemoteConfiguration} (hp : c.relayPort = d.relayPort) (hi : c.relayId = d.relayId)
    (ht : c.relayToken = d.relayToken) :
    (st.newRemoteWorkspace env c).Alike (st.newRemoteWorkspace env d) ↔ c = d := by
  constructor
  · intro h
    have hs := h.started
    rw [started_newRemoteWorkspace,started_newRemoteWorkspace] at hs
    have hfill := (Prod.mk.inj (List.cons.inj (List.append_cancel_left hs)).1).2
    cases c
    cases d
    simp only [AppWindow.fillRelay,RemoteConfiguration.mk.injEq] at hfill hp hi ht ⊢
    simp only [hfill,hp,hi,ht,and_self]
  · rintro rfl
    exact .refl _

theorem setWindow_alike_iff (st : App F) (a b : AppWindow F) :
    (st.setWindow a).Alike (st.setWindow b) ↔ a.Alike b :=
  ⟨Alike.window,fun h => ⟨h,rfl,rfl⟩⟩

theorem alike_setWindow_iff (st : App F) (b : AppWindow F) :
    st.Alike (st.setWindow b) ↔ st.window.Alike b :=
  ⟨Alike.window,fun h => ⟨h,rfl,rfl⟩⟩

end App

end Limux
