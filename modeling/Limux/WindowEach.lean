import Limux.WindowEdits

/-! A property of every single workspace under the operations of the window: which
workspaces an edit touches, and the operations that leave panes, focus, directory and
endpoint of each workspace as they are. -/
namespace Limux

variable {F : Type}

def AppWindow.Each (P : Workspace F → Prop) (aw : AppWindow F) : Prop :=
  ∀ ws ∈ aw.workspaces, P ws

/-- The property sees only the panes, the focus, the directory and the endpoint. -/
def Workspace.Viewed (P : Workspace F → Prop) : Prop :=
  ∀ ws ws' : Workspace F, P ws → ws'.panes = ws.panes → ws'.focusedPane = ws.focusedPane →
    ws'.workingDirectory = ws.workingDirectory → ws'.proxyEndpoint = ws.proxyEndpoint → P ws'

/-- Operations on the list of workspaces, on ratios and on metadata. -/
def WindowOp.Idle : WindowOp F → Prop
  | .removeWorkspaceAt _ | .equalizeSplits | .syncRatio _ _ _ _ | .setWorkspaceStatus _ _
  | .clearWorkspaceStatus _ _ | .addWorkspaceLog _ _ | .clearWorkspaceLog _
  | .setWorkspaceProgress _ _ _ | .clearWorkspaceProgress _ | .renameWorkspace _ _
  | .setWorkspaceColor _ _ | .toggleWorkspacePinned _ | .moveWorkspace _ _ _
  | .disconnectRemote _ _ | .updateRemoteState _ _ | .showPage _ | .moveSidebar _ _ _ => True
  | _ => False

namespace AppWindow.Each

variable {P : Workspace F → Prop} {aw aw' : AppWindow F}

theorem view (h : aw.Each P) (hs : aw'.workspaces ⊆ aw.workspaces) : aw'.Each P :=
  fun ws hws => h ws (hs hws)

theorem at_index (h : aw.Each P) {i : ℕ} {ws : Workspace F} (hi : aw.workspaces[i]? = some ws) :
    P ws := h ws (List.mem_of_getElem? hi)

theorem append (h : aw.Each P) {ws : Workspace F} (hw : aw'.workspaces = aw.workspaces ++ [ws])
    (hws : P ws) : aw'.Each P := by
  intro v hv
  rw [hw,List.mem_append,List.mem_singleton] at hv
  rcases hv with hv | rfl
  · exact h v hv
  · exact hws

theorem modifyWs (h : aw.Each P) (hw : aw'.workspaces = aw.workspaces) {i : ℕ}
    {f : Workspace F → Workspace F}
    (hf : ∀ ws, aw.workspaces[i]? = some ws → P ws → P (f ws)) : (aw'.modifyWs i f).Each P := by
  intro ws' hws'
  rw [AppWindow.modifyWs,hw] at hws'
  rcases mem_modify hws' with hm | ⟨ws,hi,rfl⟩
  · exact h ws' hm
  · exact hf ws hi (h.at_index hi)

theorem putWs (h : aw.Each P) (hw : aw'.workspaces = aw.workspaces) {i : ℕ}
    {o : Option (Workspace F)} (ho : ∀ ws ∈ o, P ws) {aw'' : AppWindow F}
    (hs : aw'.putWs i o = some aw'') : aw''.Each P := by
  obtain ⟨ws,hws,rfl⟩ := Option.map_eq_some_iff.mp hs
  exact h.modifyWs hw (fun _ _ _ => ho ws hws)

theorem modifyById (h : aw.Each P) (id : WorkspaceId) {f : Workspace F → Workspace F}
    (hf : ∀ ws, P ws → P (f ws)) : (aw.modifyById id f).Each P := by
  unfold AppWindow.modifyById
  split
  · exact h.modifyWs rfl (fun ws _ hws => hf ws hws)
  · exact h

theorem removeWorkspaceAt (h : aw.Each P) {i : ℕ} (hs : aw.removeWorkspaceAt i = some aw') :
    aw'.Each P := by
  unfold AppWindow.removeWorkspaceAt at hs
  split_ifs at hs
  cases hs
  exact h.view List.eraseIdx_subset

theorem toggleWorkspacePinned (h : aw.Each P) (hv : Workspace.Viewed P) (id : WorkspaceId) :
    (aw.toggleWorkspacePinned id).Each P := by
  unfold AppWindow.toggleWorkspacePinned
  split
  · exact h
  · rename_i i _ _ _
    have hmod : (aw.modifyWs i (fun ws => { ws with pinned := !ws.pinned })).Each P :=
      h.modifyWs rfl (fun ws _ hws => hv ws _ hws rfl rfl rfl rfl)
    apply hmod.view
    intro ws hws
    rcases List.mem_append.mp hws with hm | hm
    · exact (List.mem_filter.mp hm).1
    · exact (List.mem_filter.mp hm).1

theorem moveWorkspace (h : aw.Each P) {source target : WorkspaceId} {before : Bool}
    (hs : aw.moveWorkspace source target before = some aw') : aw'.Each P := by
  unfold AppWindow.moveWorkspace at hs
  split at hs
  · rename_i hsrc _
    split at hs
    · cases hs; exact h
    · obtain ⟨-,hs⟩ := Option.ite_none_right_eq_some.mp hs
      cases hs
      apply h.view
      intro ws hws
      rcases List.eq_or_mem_of_mem_insertIdx hws with rfl | hm
      · exact List.mem_of_getElem? (findWs_spec hsrc).1
      · exact List.eraseIdx_subset hm
  · cases hs; exact h

theorem disconnectRemote (h : aw.Each P) (hv : Workspace.Viewed P) (id : Option WorkspaceId)
    (clear : Bool) : (aw.disconnectRemote id clear).Each P := by
  unfold AppWindow.disconnectRemote
  split
  · exact h
  · apply h.modifyById
    intro ws hws
    cases clear
    · exact hv ws _ hws rfl rfl rfl rfl
    · exact hv ws _ hws rfl rfl rfl rfl

variable [F64Ops F]

theorem equalizeSplits (h : aw.Each P) (hv : Workspace.Viewed P) : aw.equalizeSplits.Each P := by
  unfold AppWindow.equalizeSplits
  split
  · exact h
  · exact h.modifyWs rfl (fun ws _ hws => hv ws _ hws rfl rfl rfl rfl)

theorem syncRatio (h : aw.Each P) (hv : Workspace.Viewed P) (id : WorkspaceId) (node : NodeId)
    (pos total : Int32) : (aw.syncRatio id node pos total).Each P := by
  unfold AppWindow.syncRatio
  split
  · exact h
  · exact h.modifyById id (fun ws hws => hv ws _ hws rfl rfl rfl rfl)

/-- An idle operation keeps every property of what it leaves as it is. -/
theorem step_idle (h : aw.Each P) (hv : Workspace.Viewed P) {op : WindowOp F} (hop : op.Idle)
    (hs : aw.step op = some aw') : aw'.Each P := by
  cases op with
  | removeWorkspaceAt i => exact h.removeWorkspaceAt hs
  | moveWorkspace source target before => exact h.moveWorkspace hs
  | equalizeSplits => cases hs; exact h.equalizeSplits hv
  | syncRatio id node pos total => cases hs; exact h.syncRatio hv id node pos total
  | toggleWorkspacePinned id => cases hs; exact h.toggleWorkspacePinned hv id
  | disconnectRemote id clear => cases hs; exact h.disconnectRemote hv id clear
  | showPage page => cases hs; exact h
  | moveSidebar visible lastWidth position => cases hs; exact h
  | setWorkspaceStatus id _ | clearWorkspaceStatus id _ | addWorkspaceLog id _
  | clearWorkspaceLog id | setWorkspaceProgress id _ _ | clearWorkspaceProgress id
  | renameWorkspace id _ | setWorkspaceColor id _ | updateRemoteState id _ =>
    cases hs
    exact h.modifyById id (fun ws hws => hv ws _ hws rfl rfl rfl rfl)
  | _ => cases hop

end AppWindow.Each

end Limux
