import Limux.WindowOps

/-! Moving a tab between workspaces, closing, focus and metadata: the remaining
operations of the window. -/
namespace Limux

variable {F : Type} {aw aw' : AppWindow F}

/-! Moves between workspaces. -/

theorem count_flatMap_modify {l : List (Workspace F)} {i : ℕ} {ws : Workspace F}
    (hi : l[i]? = some ws) (w : Workspace F) (x : TabDragIdentity) :
    ((l.modify i (fun _ => w)).flatMap Workspace.identities).count x + ws.identities.count x =
      w.identities.count x + (l.flatMap Workspace.identities).count x := by
  obtain ⟨a,b,hl,-,hm,-⟩ := workspaces_split hi
  rw [hm,hl]
  simp only [List.flatMap_append,List.flatMap_cons,List.count_append]
  omega

theorem map_id_modify {l : List (Workspace F)} {i : ℕ} {ws w : Workspace F}
    (hi : l[i]? = some ws) (hw : w.id = ws.id) :
    (l.modify i (fun _ => w)).map Workspace.id = l.map Workspace.id := by
  obtain ⟨a,b,hl,-,hm,-⟩ := workspaces_split hi
  rw [hm,hl]
  simp [hw]

theorem mem_modify_cases {l : List (Workspace F)} {i : ℕ} {w x : Workspace F}
    (hx : x ∈ l.modify i (fun _ => w)) : x = w ∨ x ∈ l := by
  rcases lt_or_ge i l.length with hlt | hge
  · obtain ⟨a,b,hl,-,hm,-⟩ := workspaces_split (List.getElem?_eq_getElem hlt)
    rw [hm,List.mem_append,List.mem_cons] at hx
    rw [hl]
    simp only [List.mem_append,List.mem_cons]
    tauto
  · rw [List.modify_eq_self hge] at hx
    exact .inr hx

def replaceTwo (l : List (Workspace F)) (si ti : ℕ) (sws' tws' : Workspace F) :
    List (Workspace F) := (l.modify si (fun _ => sws')).modify ti (fun _ => tws')

section ReplaceTwo

variable {l : List (Workspace F)} {si ti : ℕ} {sws tws sws' tws' : Workspace F}

theorem getElem?_replaceTwo_left (hne : si ≠ ti) (hsi : l[si]? = some sws) :
    (replaceTwo l si ti sws' tws')[si]? = some sws' := by
  simp [replaceTwo,hsi,Ne.symm hne]

theorem modify_replaceTwo (hne : si ≠ ti) (f : Workspace F → Workspace F) :
    (replaceTwo l si ti sws' tws').modify si f = replaceTwo l si ti (f sws') tws' := by
  unfold replaceTwo
  rw [List.modify_modify_ne _ _ _ hne,List.modify_modify_ne _ _ _ hne,List.modify_modify_eq]
  rfl

theorem eraseIdx_replaceTwo (hne : si ≠ ti) :
    (replaceTwo l si ti sws' tws').eraseIdx si =
      (l.modify ti (fun _ => tws')).eraseIdx si := by
  rw [replaceTwo,List.modify_modify_ne _ _ _ hne,List.eraseIdx_modify_of_eq]

theorem replaceTwo_perm (hne : si ≠ ti) (hsi : l[si]? = some sws) (hti : l[ti]? = some tws)
    {x : TabDragIdentity} (hs : sws.identities.Perm (x :: sws'.identities))
    (ht : tws'.identities.Perm (x :: tws.identities)) :
    ((replaceTwo l si ti sws' tws').flatMap Workspace.identities).Perm
      (l.flatMap Workspace.identities) := by
  have hti' : (l.modify si (fun _ => sws'))[ti]? = some tws := by
    simp [hne,hti]
  rw [List.perm_iff_count]
  intro y
  have h1 := count_flatMap_modify hsi sws' y
  have h2 := count_flatMap_modify hti' tws' y
  have h3 := hs.count_eq y
  have h4 := ht.count_eq y
  rw [List.count_cons] at h3 h4
  rw [replaceTwo]
  omega

theorem replaceTwo_ids (hne : si ≠ ti) (hsi : l[si]? = some sws) (hti : l[ti]? = some tws)
    (hsid : sws'.id = sws.id) (htid : tws'.id = tws.id) :
    (replaceTwo l si ti sws' tws').map Workspace.id = l.map Workspace.id := by
  have hti' : (l.modify si (fun _ => sws'))[ti]? = some tws := by
    simp [hne,hti]
  rw [replaceTwo,map_id_modify hti' htid,map_id_modify hsi hsid]

theorem mem_replaceTwo {w : Workspace F} (hw : w ∈ replaceTwo l si ti sws' tws') :
    w = sws' ∨ w = tws' ∨ w ∈ l := by
  rcases mem_modify_cases hw with rfl | hw
  · exact .inr (.inl rfl)
  · rcases mem_modify_cases hw with rfl | hw
    · exact .inl rfl
    · exact .inr (.inr hw)

end ReplaceTwo

section Transfer

variable {si ti : ℕ} {sws tws sws' tws' : Workspace F}

theorem kept_two (h : WindowInv aw) (hne : si ≠ ti) (hsi : aw.workspaces[si]? = some sws)
    (hti : aw.workspaces[ti]? = some tws) (hsid : sws'.id = sws.id) (htid : tws'.id = tws.id)
    (hspanes : ∀ p, p ∈ sws'.panes → p ∈ sws.panes)
    (htpanes : ∀ p, p ∈ tws'.panes → p ∈ tws.panes) {x : TabDragIdentity}
    (hs : sws.identities.Perm (x :: sws'.identities))
    (ht : tws'.identities.Perm (x :: tws.identities)) (hswf : WsInv sws') (htwf : WsInv tws') :
    Kept aw { aw with workspaces := replaceTwo aw.workspaces si ti sws' tws' } := by
  have hperm := replaceTwo_perm hne hsi hti hs ht
  have hsm := List.mem_of_getElem? hsi
  have htm := List.mem_of_getElem? hti
  refine ⟨h.relist (.nil _) aw.currentPage ?_ ?_ ?_ ?_ hperm.subperm,
    fun y hy => hperm.mem_iff.mpr hy⟩
  · intro w hw
    rcases mem_replaceTwo hw with rfl | rfl | hw
    exacts [hswf,htwf,h.ws w hw]
  · rw [replaceTwo_ids hne hsi hti hsid htid]
    exact h.ids_nodup
  · intro w hw
    rcases mem_replaceTwo hw with rfl | rfl | hw
    · rw [hsid]; exact h.ids_lt sws hsm
    · rw [htid]; exact h.ids_lt tws htm
    · exact h.ids_lt w hw
  · intro w hw p hp
    rcases mem_replaceTwo hw with rfl | rfl | hw
    · exact h.panes_lt sws hsm p (hspanes p hp)
    · exact h.panes_lt tws htm p (htpanes p hp)
    · exact h.panes_lt w hw p hp

theorem kept_two_erase (h : WindowInv aw) (hne : si ≠ ti) (hsi : aw.workspaces[si]? = some sws)
    (hti : aw.workspaces[ti]? = some tws) (htid : tws'.id = tws.id)
    (htpanes : ∀ p, p ∈ tws'.panes → p ∈ tws.panes) {x : TabDragIdentity}
    (hs : sws.identities.Perm [x]) (ht : tws'.identities.Perm (x :: tws.identities))
    (htwf : WsInv tws') :
    Kept aw { aw with workspaces := (aw.workspaces.modify ti (fun _ => tws')).eraseIdx si } := by
  have hsi' : (aw.workspaces.modify ti (fun _ => tws'))[si]? = some sws := by
    simp [Ne.symm hne,hsi]
  obtain ⟨a,b,hl,-,-,he⟩ := workspaces_split hsi'
  have hsub := List.eraseIdx_sublist (aw.workspaces.modify ti (fun _ => tws')) si
  have htm := List.mem_of_getElem? hti
  have hperm : (((aw.workspaces.modify ti (fun _ => tws')).eraseIdx si).flatMap
      Workspace.identities).Perm aw.identities := by
    rw [List.perm_iff_count]
    intro y
    have h1 := count_flatMap_modify hti tws' y
    have h2 := hs.count_eq y
    have h3 := ht.count_eq y
    rw [hl] at h1
    rw [List.count_cons,List.count_nil] at h2
    rw [List.count_cons] at h3
    simp only [List.flatMap_append,List.flatMap_cons,List.count_append] at h1
    rw [he,List.flatMap_append,List.count_append,AppWindow.identities]
    omega
  have hmem : ∀ w ∈ (aw.workspaces.modify ti (fun _ => tws')).eraseIdx si,
      w = tws' ∨ w ∈ aw.workspaces := fun w hw => mem_modify_cases (hsub.subset hw)
  refine ⟨h.relist (.nil _) aw.currentPage ?_ ?_ ?_ ?_ hperm.subperm,
    fun y hy => hperm.mem_iff.mpr hy⟩
  · intro w hw
    rcases hmem w hw with rfl | hw
    exacts [htwf,h.ws w hw]
  · refine (hsub.map _).nodup ?_
    rw [map_id_modify hti htid]
    exact h.ids_nodup
  · intro w hw
    rcases hmem w hw with rfl | hw
    · rw [htid]; exact h.ids_lt tws htm
    · exact h.ids_lt w hw
  · intro w hw p hp
    rcases hmem w hw with rfl | hw
    · exact h.panes_lt tws htm p (htpanes p hp)
    · exact h.panes_lt w hw p hp

end Transfer

theorem kept_refocus (h : WindowInv aw) (i : ℕ) : Kept aw (aw.refocus i) := by
  unfold AppWindow.refocus
  split
  · rename_i p hp
    obtain ⟨ws,hi,hf⟩ := Option.bind_eq_some_iff.mp hp
    exact kept_setPaneActive h hi ((h.ws ws (List.mem_of_getElem? hi)).mem_of_focused hf)
  · exact .refl h

theorem WindowInv.erase (h : WindowInv aw) (i : ℕ) :
    WindowInv { aw with workspaces := aw.workspaces.eraseIdx i } := by
  have hs := List.eraseIdx_sublist aw.workspaces i
  refine h.relist (.nil _) aw.currentPage (fun w hw => h.ws w (hs.subset hw))
    ((hs.map _).nodup h.ids_nodup) (fun w hw => h.ids_lt w (hs.subset hw))
    (fun w hw => h.panes_lt w (hs.subset hw)) ?_
  exact (hs.flatMap _).subperm

theorem inv_removeWorkspaceAt (h : WindowInv aw) {i : ℕ} (hs : aw.removeWorkspaceAt i = some aw') :
    WindowInv aw' := by
  unfold AppWindow.removeWorkspaceAt at hs
  split at hs
  · cases hs; exact h.erase i
  · cases hs

/-- The window after the source pane has lost the tab: the pane goes when it is
empty, and the workspace with its last pane. -/
theorem kept_transfer (h : WindowInv aw) {si ti : ℕ} {sws tws sws₁ tws₁ : Workspace F}
    (hne : si ≠ ti) (hsi : aw.workspaces[si]? = some sws) (hti : aw.workspaces[ti]? = some tws)
    {source target : PaneId} {idx n : ℕ} {tab : Tab}
    (htake : AppWindow.takeTab sws source idx = some (tab,sws₁))
    (hput : AppWindow.putTab tws target n tab = some tws₁)
    (hs : (let aw := (aw.modifyWs si (fun _ => sws₁)).modifyWs ti (fun _ => tws₁)
      if (sws₁.panes.lookup source).any (fun pane => pane.tabs = []) then
        let aw := aw.removePaneFromSplit si source
        if (aw.workspaces[si]?.map (fun ws => ws.panes.keys)) = some [] then
          aw.removeWorkspaceAt si
        else some (aw.refocus si)
      else if ((sws₁.panes.lookup source).bind Pane.activePanel).isSome then some aw
      else none) = some aw') : Kept aw aw' := by
  have hsw := h.ws sws (List.mem_of_getElem? hsi)
  have htw := h.ws tws (List.mem_of_getElem? hti)
  obtain ⟨hid₁,-,hhole₁,hmem₁,hperm₁,pane,pane',hl,hl',-⟩ := takeTab_spec hsw htake
  obtain ⟨hid₂,-,hhole₂,hmem₂,hperm₂,hq,-,hne₂⟩ :=
    putTab_spec (p := target) ⟨htw.toWsShape,fun q x hx _ => htw.tabs q x hx⟩ hput
  have htinv : WsInv tws₁ := hhole₂.wsInv hne₂ ⟨target,(hmem₂ target).mpr hq⟩
  have htsub : ∀ p, p ∈ tws₁.panes → p ∈ tws.panes := fun p => (hmem₂ p).mp
  simp only at hs
  split at hs
  · rename_i hemp
    have hids : pane'.identities = [] := by
      rw [hl'] at hemp
      simp only [Option.any_some,decide_eq_true_eq] at hemp
      simp [Pane.identities,hemp]
    -- dropping the empty pane loses no identity
    have hdrop := paneIdentities_erase hl'
    rw [hids,List.nil_append] at hdrop
    generalize hw₂ : ({ sws₁ with splitTree := (sws₁.splitTree.remove source).2 }.removePane
      source : Workspace F) = sws₂
    have hpanes₂ : sws₂.panes = sws₁.panes.erase source := by rw [← hw₂]; rfl
    have hperm₂' : sws.identities.Perm (tab.identity :: sws₂.identities) := by
      refine hperm₁.trans (List.Perm.cons _ ?_)
      rw [Workspace.identities,Workspace.identities,hpanes₂]
      exact hdrop
    have haw₂ : (((aw.modifyWs si (fun _ => sws₁)).modifyWs ti
        (fun _ => tws₁)).removePaneFromSplit si source) =
        { aw with workspaces := replaceTwo aw.workspaces si ti sws₂ tws₁ } := by
      subst hw₂
      exact congrArg (fun l => { aw with workspaces := l }) (modify_replaceTwo hne _)
    rw [haw₂] at hs
    simp only [getElem?_replaceTwo_left hne hsi,Option.map_some,Option.some.injEq] at hs
    split at hs
    · rename_i hkeys
      have hnil : sws₂.identities = [] := by
        have hent : sws₂.panes.entries = [] := List.map_eq_nil_iff.mp hkeys
        simp [Workspace.identities,paneIdentities,HashMap.values,hent]
      rw [hnil] at hperm₂'
      unfold AppWindow.removeWorkspaceAt at hs
      split at hs
      · cases hs
        simp only [eraseIdx_replaceTwo hne]
        exact kept_two_erase h hne hsi hti hid₂ htsub hperm₂' hperm₂ htinv
      · cases hs
    · rename_i hkeys
      cases hs
      have hswf : WsInv sws₂ := by
        refine ⟨hw₂ ▸ hhole₁.shape.remove_pane source,fun q x hx => ?_,?_⟩
        · rw [hpanes₂,HashMap.lookup_erase_ite] at hx
          split at hx
          · cases hx
          · rename_i hqs; exact hhole₁.tabs q x hx hqs
        · exact List.exists_mem_of_ne_nil _ hkeys
      have hk := kept_two h hne hsi hti (show sws₂.id = sws.id from hw₂ ▸ hid₁) hid₂ (fun p hp => by
        rw [hpanes₂] at hp
        exact (hmem₁ p).mp (AList.mem_erase.mp hp).2) htsub hperm₂' hperm₂ hswf htinv
      exact hk.trans (kept_refocus hk.inv si)
  · rename_i hemp
    split at hs
    · cases hs
      refine kept_two h hne hsi hti hid₁ hid₂ (fun p => (hmem₁ p).mp) htsub hperm₁ hperm₂
        (hhole₁.wsInv (fun x hx he => hemp ?_) ⟨source,WsShape.mem_of_lookup hl'⟩) htinv
      rw [hx]
      simpa using he
    · cases hs

theorem kept_moveTabToWorkspace (h : WindowInv aw) (source : PaneId)
    (identity : TabDragIdentity) (targetWs : WorkspaceId) (widgets : Bool)
    (hs : aw.moveTabToWorkspace source identity targetWs widgets = some aw') : Kept aw aw' := by
  unfold AppWindow.moveTabToWorkspace at hs
  split at hs
  · rename_i si sws spane ti tws u hfs hft
    have hsi := (findWs_spec hfs).1
    have hti := (findWs_spec hft).1
    split at hs
    · cases hs; exact .refl h
    rename_i hne
    split at hs
    · cases hs; exact .refl h
    rename_i target _
    split at hs
    · cases hs; exact .refl h
    split at hs
    · cases hs; exact .refl h
    rename_i idx _
    split at hs
    · cases hs; exact .refl h
    obtain ⟨⟨tab,sws₁⟩,htake,hs⟩ := Option.bind_eq_some_iff.mp hs
    obtain ⟨tpane,-,hs⟩ := Option.bind_eq_some_iff.mp hs
    obtain ⟨tws₁,hput,hs⟩ := Option.bind_eq_some_iff.mp hs
    obtain ⟨aw₁,haw₁,hs⟩ := Option.bind_eq_some_iff.mp hs
    have hk := kept_transfer h hne hsi hti htake hput haw₁
    split at hs
    · cases hs
    rename_i ti' tws' u' hf
    split at hs
    · cases hs
    rename_i htarget
    cases hs
    have hpage : Kept aw₁ { aw₁ with currentPage := some ti' } :=
      ⟨hk.inv.view rfl rfl,List.Subset.refl _⟩
    exact (hk.trans hpage).trans (kept_setPaneActive hpage.inv (findWs_spec hf).1
      (HashMap.mem_of_not_isNone htarget))
  · cases hs; exact .refl h

/-! Closing panels. -/

theorem exists_other_pane {ws : Workspace F} {p : PaneId} (h : ¬ ws.panes.keys.length ≤ 1) :
    ∃ q ∈ ws.panes, q ≠ p := by
  by_contra hcon
  push Not at hcon
  have hsub : ws.panes.keys ⊆ [p] := fun q hq => List.mem_singleton.mpr (hcon q hq)
  exact h (List.Nodup.length_le_of_subset ws.panes.keys_nodup hsub)

theorem inv_removePaneFromSplit (h : WindowInv aw) {i : ℕ} {ws : Workspace F}
    (hi : aw.workspaces[i]? = some ws) {p q : PaneId} (hq : q ∈ ws.panes) (hne : q ≠ p) :
    WindowInv (aw.removePaneFromSplit i p) := by
  have hws := h.ws ws (List.mem_of_getElem? hi)
  refine h.replace hi (.nil _) (hws.remove_pane hq hne) rfl (fun r hr => .inl ?_) ?_
  · exact (AList.mem_erase.mp hr).2
  · rw [List.nil_append]
    show (paneIdentities (ws.panes.erase p)).Subperm (paneIdentities ws.panes)
    rcases hl : ws.panes.lookup p with _ | pane
    · rw [HashMap.erase_of_notMem hl]
    · exact (List.sublist_append_right _ _).subperm.trans (paneIdentities_erase hl).symm.subperm

theorem inv_closePanel (h : WindowInv aw) {i : ℕ} {ws : Workspace F}
    (hi : aw.workspaces[i]? = some ws) (p : PaneId) (f : Tab → Bool)
    (hs : aw.closePanel i ws p (fun pane => pane.removeWhere f) = some aw') : WindowInv aw' := by
  have hws := h.ws ws (List.mem_of_getElem? hi)
  unfold AppWindow.closePanel at hs
  simp only at hs
  split at hs
  · exact inv_removeWorkspaceAt h hs
  rename_i hlast
  split at hs
  · rename_i htabs
    obtain ⟨q,hq,hne⟩ := exists_other_pane (p := p) (fun hle => hlast ⟨htabs,hle⟩)
    cases hs
    exact (kept_refocus (inv_removePaneFromSplit h hi hq hne) i).inv
  · rename_i htabs
    cases hs
    rcases hl : ws.panes.lookup p with _ | pane
    · simp [hl] at htabs
    have h2 : 2 ≤ pane.tabs.length := by
      rw [hl] at htabs
      simp only [Option.map_some,Option.getD_some] at htabs
      omega
    obtain ⟨hid,hok,hsub⟩ := Pane.removeWhere_spec (hws.ok hl) h2 f
    refine h.replace hi (.nil _) (hws.modifyPane p (fun x hx _ => ?_)) rfl (fun r hr => .inl ?_) ?_
    · obtain rfl := Option.some.inj (hl.symm.trans hx)
      exact ⟨hid,hok⟩
    · exact HashMap.mem_modify.mp hr
    · rw [List.nil_append]
      show (paneIdentities (ws.panes.modify p _)).Subperm (paneIdentities ws.panes)
      rw [modify_of_lookup hl,paneIdentities_insert]
      exact (hsub.append (.refl _)).subperm.trans (paneIdentities_erase hl).symm.subperm

theorem inv_closeSurface (h : WindowInv aw) (s : SurfaceId)
    (hs : aw.closeSurface s = some aw') : WindowInv aw' := by
  unfold AppWindow.closeSurface at hs
  split at hs
  · cases hs; exact h
  · rename_i i ws p hf
    exact inv_closePanel h (findSurface_spec hf).1 p _ hs

theorem inv_closeBrowser (h : WindowInv aw) (b : BrowserPanelId)
    (hs : aw.closeBrowser b = some aw') : WindowInv aw' := by
  unfold AppWindow.closeBrowser at hs
  split at hs
  · cases hs; exact h
  · rename_i i ws p hf
    exact inv_closePanel h (findBrowser_spec hf).1 p _ hs

/-! Focus. -/

theorem kept_setFocusedSurface (h : WindowInv aw) (s : SurfaceId) :
    Kept aw (aw.setFocusedSurface s) := by
  unfold AppWindow.setFocusedSurface
  split
  · rename_i i ws p hf
    exact kept_setPaneActive h (findSurface_spec hf).1 (findSurface_spec hf).2
  · exact .refl h

theorem kept_setFocusedBrowser (h : WindowInv aw) (b : BrowserPanelId) :
    Kept aw (aw.setFocusedBrowser b) := by
  unfold AppWindow.setFocusedBrowser
  split
  · rename_i i ws p hf
    exact kept_setPaneActive h (findBrowser_spec hf).1 (findBrowser_spec hf).2
  · exact .refl h

theorem findPane_spec {p : PaneId} {i : ℕ} {ws : Workspace F} {pane : Pane}
    (h : aw.findWorkspaceWithPane p = some (i,ws,pane)) :
    aw.workspaces[i]? = some ws ∧ p ∈ ws.panes :=
  ⟨(findWs_spec h).1,WsShape.mem_of_lookup (findWs_spec h).2⟩

theorem kept_view (h : WindowInv aw) (hw : aw'.workspaces = aw.workspaces)
    (hi : aw'.ids = aw.ids) : Kept aw aw' :=
  ⟨h.view hw hi,by rw [AppWindow.identities,AppWindow.identities,hw]; exact List.Subset.refl _⟩

theorem kept_focusPaneById (h : WindowInv aw) (p : PaneId) : Kept aw (aw.focusPaneById p).2 := by
  unfold AppWindow.focusPaneById
  split
  · exact .refl h
  · rename_i i ws pane hf
    obtain ⟨hi,hp⟩ := findPane_spec hf
    simp only
    split
    · exact kept_setPaneActive h hi hp
    · have hk : Kept aw { aw with currentPage := some i } := kept_view h rfl rfl
      exact hk.trans (kept_setPaneActive hk.inv hi hp)

theorem kept_selectPaneTabGeneric (h : WindowInv aw) (p : PaneId) (idx : ℕ) :
    Kept aw (aw.selectPaneTabGeneric p idx) := by
  unfold AppWindow.selectPaneTabGeneric
  split
  · exact .refl h
  · rename_i i ws pane hf
    obtain ⟨hi,hp⟩ := findPane_spec hf
    have hk := kept_modifyPane h hi (.nil _) p hp (f := fun pane => pane.selectTab idx)
      (fun x _ hx => ⟨x.id_selectTab idx,Pane.ok_selectTab hx idx,by simp⟩)
    exact hk.trans (kept_setPaneActive hk.inv (getElem?_modifyWs hi _) (HashMap.mem_modify.mpr hp))

theorem kept_cyclePaneTab (h : WindowInv aw) (forward : Bool) :
    Kept aw (aw.cyclePaneTab forward) := by
  unfold AppWindow.cyclePaneTab
  split
  · exact .refl h
  rename_i i ws hc
  have hi := current_spec hc
  split
  · exact .refl h
  rename_i p hp
  refine kept_modifyPane h hi (.nil _) p ((h.ws ws (List.mem_of_getElem? hi)).mem_of_focused hp)
    (fun x _ hx => ?_)
  obtain ⟨hid,hok,he⟩ := Pane.cycleTab_spec hx forward
  exact ⟨hid,hok,by rw [he]; rfl⟩

theorem kept_currentTree (h : WindowInv aw) {f : SplitTree F → SplitTree F}
    (hf : ∀ t, WellFormed t → WellFormed (f t) ∧ (f t).panes = t.panes) :
    Kept aw (match aw.current with
      | none => aw
      | some (i,_) => aw.modifyWs i (fun ws => { ws with splitTree := f ws.splitTree })) := by
  split
  · exact .refl h
  · rename_i i ws hc
    have hi := current_spec hc
    have hws := h.ws ws (List.mem_of_getElem? hi)
    obtain ⟨hwf,hp⟩ := hf ws.splitTree hws.tree
    exact kept_samePanes h hi (hws.with_tree hwf (fun p => by rw [hp])) rfl rfl

theorem kept_navigateSplit (h : WindowInv aw) (forward : Bool) :
    Kept aw (aw.navigateSplit forward) :=
  kept_currentTree h (fun t ht => ⟨ht.navigate forward,WellFormed.panes_navigate t forward⟩)

section Ratios

variable [F64Ops F]

theorem kept_navigateDirection (h : WindowInv aw) (d : Direction) :
    Kept aw (aw.navigateDirection d) :=
  kept_currentTree h (fun _ ht => ⟨ht.navigateDirectional d,ht.panes_navigateDirectional d⟩)

theorem kept_equalizeSplits (h : WindowInv aw) : Kept aw aw.equalizeSplits :=
  kept_currentTree h (fun _ ht => ⟨ht.equalize,ht.panes_equalize⟩)

theorem kept_syncRatio (h : WindowInv aw) (id : WorkspaceId) (node : NodeId)
    (pos total : Int32) :
    Kept aw (aw.syncRatio id node pos total) := by
  unfold AppWindow.syncRatio
  split
  · exact .refl h
  · refine kept_modifyById h id (fun _ => rfl) (fun _ => rfl) (fun ws hws => ?_)
    refine hws.with_tree (hws.tree.setRatio node _) (fun p => ?_)
    rw [WellFormed.panes_setRatio hws.tree]

end Ratios

/-! Titles, directories and metadata. -/

@[simp] theorem updateTitleFromFocused_panes (ws : Workspace F) :
    ws.updateTitleFromFocused.panes = ws.panes ∧
      ws.updateTitleFromFocused.splitTree = ws.splitTree ∧
      ws.updateTitleFromFocused.id = ws.id := by
  unfold Workspace.updateTitleFromFocused
  split
  · exact ⟨rfl,rfl,rfl⟩
  · split
    · exact ⟨rfl,rfl,rfl⟩
    · simp only
      split_ifs <;> exact ⟨rfl,rfl,rfl⟩

theorem kept_updateWhere (h : WindowInv aw) {i : ℕ} {ws : Workspace F}
    (hi : aw.workspaces[i]? = some ws) {p : PaneId} (hp : p ∈ ws.panes) (f : Tab → Bool)
    {g : Tab → Tab} (hg : ∀ t, (g t).panel = t.panel) :
    Kept aw (aw.modifyWs i (fun ws => ws.modifyPane p (fun pane => pane.updateWhere f g))) := by
  refine kept_modifyPane h hi (.nil _) p hp (fun x _ hx => ?_)
  obtain ⟨hid,hok,he⟩ := Pane.updateWhere_spec hx f hg
  exact ⟨hid,hok,by rw [he]; rfl⟩

theorem kept_updateTitle (h : WindowInv aw) {i : ℕ} {ws : Workspace F}
    (hi : aw.workspaces[i]? = some ws) :
    Kept aw (aw.modifyWs i Workspace.updateTitleFromFocused) := by
  obtain ⟨hp,ht,hid⟩ := updateTitleFromFocused_panes ws
  exact kept_samePanes h hi ((h.ws ws (List.mem_of_getElem? hi)).congr hp ht) hid hp

theorem kept_updateWhere_title (h : WindowInv aw) {i : ℕ} {ws : Workspace F}
    (hi : aw.workspaces[i]? = some ws) {p : PaneId} (hp : p ∈ ws.panes) (f : Tab → Bool)
    {g : Tab → Tab} (hg : ∀ t, (g t).panel = t.panel) :
    Kept aw (aw.modifyWs i (fun ws =>
      (ws.modifyPane p (fun pane => pane.updateWhere f g)).updateTitleFromFocused)) := by
  have hk := kept_updateWhere h hi hp f hg
  have hk' := kept_updateTitle hk.inv (getElem?_modifyWs hi _)
  rw [modifyWs_modifyWs] at hk'
  exact hk.trans hk'

theorem panel_reportTitle (home : Option String) (title : String) (t : Tab) :
    (t.reportTitle home title).panel = t.panel := by
  unfold Tab.reportTitle
  split
  · rfl
  · split <;> rfl

theorem panel_reportDirectory (home : Option String) (dir : String) (t : Tab) :
    (t.reportDirectory home dir).panel = t.panel := by
  unfold Tab.reportDirectory
  split <;> rfl

theorem kept_onBrowserTitleChanged (h : WindowInv aw) (b : BrowserPanelId) (title : String) :
    Kept aw (aw.onBrowserTitleChanged b title) := by
  unfold AppWindow.onBrowserTitleChanged
  split
  · exact .refl h
  · rename_i i ws p hf
    obtain ⟨hi,hp⟩ := findBrowser_spec hf
    exact kept_updateWhere_title h hi hp _ (fun _ => rfl)

theorem kept_setSurfaceTitle (h : WindowInv aw) (home : Option String) (s : SurfaceId)
    (title : String) : Kept aw (aw.setSurfaceTitle home s title) := by
  unfold AppWindow.setSurfaceTitle
  split
  · exact .refl h
  · rename_i i ws p hf
    obtain ⟨hi,hp⟩ := findSurface_spec hf
    exact kept_updateWhere_title h hi hp _ (panel_reportTitle home title)

theorem kept_setSurfaceWorkingDirectory (h : WindowInv aw) (home : Option String)
    (s : SurfaceId) (dir : String) : Kept aw (aw.setSurfaceWorkingDirectory home s dir) := by
  unfold AppWindow.setSurfaceWorkingDirectory
  split
  · exact .refl h
  · rename_i i ws p hf
    obtain ⟨hi,hp⟩ := findSurface_spec hf
    exact kept_updateWhere h hi hp _ (panel_reportDirectory home dir)

theorem kept_renameTab (h : WindowInv aw) (p : PaneId) (idx : ℕ) (name : String) :
    Kept aw (aw.renameTab p idx name) := by
  unfold AppWindow.renameTab
  split
  · exact .refl h
  · rename_i i ws pane hf
    obtain ⟨hi,hp⟩ := findPane_spec hf
    refine kept_modifyPane h hi (.nil _) p hp (fun x _ hx => ⟨rfl,?_,?_⟩)
    · exact Pane.ok_of_sel (by simpa using hx.sel)
    · exact .of_eq (Pane.identities_modify x idx (fun _ => rfl))

theorem kept_perm (h : WindowInv aw) {l : List (Workspace F)} (hl : l.Perm aw.workspaces) :
    Kept aw { aw with workspaces := l } := by
  have hperm := hl.flatMap_right Workspace.identities
  refine ⟨h.relist (.nil _) aw.currentPage (fun w hw => h.ws w (hl.mem_iff.mp hw)) ?_
    (fun w hw => h.ids_lt w (hl.mem_iff.mp hw)) (fun w hw => h.panes_lt w (hl.mem_iff.mp hw))
    hperm.subperm,fun x hx => hperm.mem_iff.mpr hx⟩
  exact (hl.map _).nodup_iff.mpr h.ids_nodup

theorem kept_toggleWorkspacePinned (h : WindowInv aw) (id : WorkspaceId) :
    Kept aw (aw.toggleWorkspacePinned id) := by
  unfold AppWindow.toggleWorkspacePinned
  split
  · exact .refl h
  · rename_i i ws u hf
    have hi := (findWs_spec hf).1
    have hk : Kept aw (aw.modifyWs i (fun ws => { ws with pinned := !ws.pinned })) :=
      kept_samePanes h hi ((h.ws ws (List.mem_of_getElem? hi)).congr rfl rfl) rfl rfl
    exact hk.trans (kept_perm hk.inv (List.filter_append_perm _ _))

theorem kept_moveWorkspace (h : WindowInv aw) (source target : WorkspaceId) (before : Bool)
    (hs : aw.moveWorkspace source target before = some aw') : Kept aw aw' := by
  unfold AppWindow.moveWorkspace at hs
  split at hs
  · rename_i si sws u ti tws u' hfs hft
    split at hs
    · cases hs; exact .refl h
    obtain ⟨hle,hs⟩ := Option.ite_none_right_eq_some.mp hs
    cases hs
    obtain ⟨hlt,rfl⟩ := List.getElem?_eq_some_iff.mp (findWs_spec hfs).1
    exact kept_perm h ((List.perm_insertIdx _ _ hle).trans (List.getElem_cons_eraseIdx_perm hlt))
  · cases hs; exact .refl h

theorem kept_disconnectRemote (h : WindowInv aw) (id : Option WorkspaceId) (clear : Bool) :
    Kept aw (aw.disconnectRemote id clear) := by
  unfold AppWindow.disconnectRemote
  split
  · exact .refl h
  · refine kept_meta h _ (fun ws => ?_) (fun ws => ?_) (fun ws => ?_) <;>
      cases clear <;> rfl

end Limux
