import Limux.ProxyEdits

/-! Runs of the browser proxy: when every view is made for, and every browser moved to, a
workspace that agrees with the session, no browser takes the route of another workspace. -/
namespace Limux.Routed

variable {F : Type} [F64Ops F] {r r' : Routed F}

omit [F64Ops F] in
/-- The proxy a fitting view sets suits the browsers that are there, and its own workspace. -/
theorem fits_onRoute (h : r.Isolated) {ws : Workspace F} (hf : r.Fits ws) :
    r.window.OnRoute (createIn r.proxy ws) ∧ createIn r.proxy ws = ws.proxyEndpoint := by
  unfold Fits at hf
  unfold createIn
  split at hf
  · rename_i e he
    rw [he,Option.some_or]
    exact ⟨fun v hv b hb => (hf v hv b hb).symm,rfl⟩
  · rename_i he
    rw [he,Option.none_or]
    exact ⟨h,hf⟩

theorem isolated_of_onRoute {op : WindowOp F} (hs : r.step op = some r')
    (hp : r.proxyAfter op = r.proxy)
    (ho : ∀ aw, r.window.step op = some aw → aw.OnRoute r.proxy) : r'.Isolated := by
  obtain ⟨aw,haw,rfl⟩ := Option.map_eq_some_iff.mp hs
  have h := ho aw haw
  rw [← hp] at h
  exact h

theorem isolated_of_view {op : WindowOp F} {aw : AppWindow F} (hs : r.step op = some r')
    (hp : r.proxyAfter op = r.proxy) (hw : r.window.step op = some aw)
    (ho : aw.OnRoute r.proxy) : r'.Isolated :=
  isolated_of_onRoute hs hp (fun v hv => by
    rw [hw] at hv
    cases hv
    exact ho)

theorem isolated_splitBrowserInWorkspace (h : r.Isolated) {i : ℕ} {p : PaneId} {o : Orientation}
    {url : String} (hk : r.KeepsRoutes (.splitBrowserInWorkspace i p o url))
    (hs : r.step (.splitBrowserInWorkspace i p o url) = some r') : r'.Isolated := by
  obtain ⟨aw,haw,rfl⟩ := Option.map_eq_some_iff.mp hs
  have hi : i < r.window.workspaces.length := by
    simp only [AppWindow.step,AppWindow.splitBrowserInWorkspace] at haw
    split_ifs at haw with hi
    exact hi
  have hws := List.getElem?_eq_getElem hi
  obtain ⟨hall,heq⟩ := fits_onRoute h (hk _ hws)
  have hp : r.proxyAfter (.splitBrowserInWorkspace i p o url) =
      createIn r.proxy r.window.workspaces[i] := by
    simp only [proxyAfter,hws]
  have ho := hall.splitBrowserInWorkspace (fun ws hv => by
    rw [hws] at hv
    cases hv
    exact heq) haw
  rw [← hp] at ho
  exact ho

theorem isolated_splitFocusedBrowser (h : r.Isolated) {o : Orientation} {url : String}
    (hk : r.KeepsRoutes (.splitFocusedBrowser o url))
    (hs : r.step (.splitFocusedBrowser o url) = some r') : r'.Isolated := by
  rcases hc : r.window.current with _ | ⟨i,ws⟩
  · refine isolated_of_onRoute hs (by simp only [proxyAfter,hc]) (fun aw haw => ?_)
    exact AppWindow.OnRoute.splitFocusedBrowser h (fun i ws hi => by rw [hc] at hi; cases hi) haw
  by_cases hf : ws.focusedPane.isSome
  · obtain ⟨aw,haw,rfl⟩ := Option.map_eq_some_iff.mp hs
    obtain ⟨hall,heq⟩ := fits_onRoute h (hk i ws hc hf)
    have hp : r.proxyAfter (.splitFocusedBrowser o url) = createIn r.proxy ws := by
      simp only [proxyAfter,hc,hf,if_true]
    have ho := hall.splitFocusedBrowser (fun j v hj _ => by
      rw [hc] at hj
      cases hj
      exact heq) haw
    rw [← hp] at ho
    exact ho
  · refine isolated_of_onRoute hs (by simp only [proxyAfter,hc,if_neg hf]) (fun aw haw => ?_)
    refine AppWindow.OnRoute.splitFocusedBrowser h (fun j v hj hv => ?_) haw
    rw [hc] at hj
    cases hj
    exact absurd hv hf

theorem foldl_const {α β : Type} (l : List β) (a e : α) :
    l.foldl (fun _ _ => e) a = if l = [] then a else e := by
  induction l generalizing a with
  | nil => rfl
  | cons b l ih => rw [List.foldl_cons,ih]; split <;> simp

/-- The views of the workspace are set to the endpoint; a workspace without a view
leaves the session alone. -/
theorem isolated_updateProxyEndpoint (h : r.Isolated) {id : WorkspaceId}
    {e : Option ProxyEndpoint} (hk : r.KeepsRoutes (.updateProxyEndpoint id e))
    (hs : r.step (.updateProxyEndpoint id e) = some r') : r'.Isolated := by
  cases hs
  rcases hf : r.window.findWorkspaceById id with _ | ⟨i,ws,u⟩
  · have hw : r.window.updateProxyEndpoint id e = r.window := by
      simp only [AppWindow.updateProxyEndpoint,AppWindow.modifyById,hf]
    have hp : r.proxyAfter (.updateProxyEndpoint id e) = r.proxy := by simp only [proxyAfter,hf]
    intro v hv b hb
    simp only [hw] at hv
    simp only [hp]
    exact h v hv b hb
  have hi := (findWs_spec hf).1
  have hw : (r.window.updateProxyEndpoint id e).workspaces =
      r.window.workspaces.modify i (fun ws => { ws with proxyEndpoint := e }) := by
    simp only [AppWindow.updateProxyEndpoint,AppWindow.modifyById,hf,AppWindow.modifyWs]
  have hp : r.proxyAfter (.updateProxyEndpoint id e) =
      if ws.browserIds = [] then r.proxy else e := by
    simp only [proxyAfter,hf,foldl_const]
  intro v hv b hb
  simp only [hw] at hv
  simp only [hp]
  obtain ⟨j,hj⟩ := List.mem_iff_getElem?.mp hv
  rw [List.getElem?_modify] at hj
  by_cases hij : i = j
  · subst hij
    simp only [if_true,hi,Option.map_eq_map,Option.map_some,Option.some.injEq] at hj
    subst hj
    have hsh : b ∈ ws.browserIds := Workspace.mem_browserIds.mpr hb
    rw [if_neg (List.ne_nil_of_mem hsh)]
  · simp only [hij,if_false,Option.map_eq_map,Option.map_id'] at hj
    split
    · exact h v (List.mem_of_getElem? hj) b hb
    · rename_i hne
      obtain ⟨c,hc⟩ := List.exists_mem_of_ne_nil _ hne
      exact (hk i ws hf ⟨c,Workspace.mem_browserIds.mp hc⟩ j v hj (Ne.symm hij) b hb).symm

omit [F64Ops F] in
theorem onRoute_append {e : Option ProxyEndpoint} {aw aw' : AppWindow F} (h : aw.OnRoute e)
    {ws : Workspace F} (hw : aw'.workspaces = aw.workspaces ++ [ws]) (hws : ws.OnRoute e) :
    aw'.OnRoute e := by
  intro v hv
  rw [hw,List.mem_append,List.mem_singleton] at hv
  rcases hv with hv | rfl
  · exact h v hv
  · exact hws

omit [F64Ops F] in
theorem onRoute_fresh (e : Option ProxyEndpoint) (aw : AppWindow F) {ws : Workspace F}
    (hm : ws.panes = aw.freshWorkspace.panes) : ws.OnRoute e := by
  intro b hb
  have hb' : .browser b ∈ paneIdentities ((∅ : HashMap PaneId Pane).insert
      aw.ids.pane (Pane.newWithId aw.ids.pane aw.ids.surface)) := by
    rw [Workspace.Shows,Workspace.identities,hm] at hb
    exact hb
  rcases mem_paneIdentities_insert hb' with hb | hb
  · simp [Pane.newWithId,Pane.identities_single,panelDragIdentity] at hb
  · simp [paneIdentities,HashMap.values] at hb

theorem isolated_restore (h : r.Isolated) {ord : IterOrder NodeId} {snap : WorkspaceSnapshot F}
    {port : Option UInt16} {id token : String}
    (hk : r.KeepsRoutes (.restoreWorkspaceFromLayout ord snap port id token))
    (hs : r.step (.restoreWorkspaceFromLayout ord snap port id token) = some r') :
    r'.Isolated := by
  obtain ⟨t,ws,-,hb₀,he⟩ := restoredWorkspace_spec ord r.window snap port id token
  have hrest := buildLayout_rest ord snap.layout (emptyRestored r.window snap,
    { r.window.ids with workspace := r.window.ids.workspace+1 })
  rw [hb₀] at hrest
  have hroute : (AppWindow.restoredWorkspace ord r.window snap port id token).1.OnRoute
      r.proxy := by
    intro b hb
    rw [he]
    refine Eq.trans (hk (by_contra fun hno => ?_))
      (congrArg Workspace.proxyEndpoint hrest).symm
    rw [he] at hb
    have hshow := buildLayout_noBrowser ord b (Bool.eq_false_iff.mpr hno)
      (emptyRestored r.window snap,
        { r.window.ids with workspace := r.window.ids.workspace+1 }) (by rw [hb₀]; exact hb)
    simp [Workspace.Shows,Workspace.identities,emptyRestored,Workspace.new,paneIdentities,
      HashMap.values] at hshow
  refine isolated_of_onRoute hs rfl (fun aw haw => ?_)
  cases haw
  exact onRoute_append h rfl hroute

theorem isolated_step (h : r.Isolated) {op : WindowOp F} (hk : r.KeepsRoutes op)
    (hs : r.step op = some r') : r'.Isolated := by
  cases op with
  | splitBrowserInWorkspace i p o url => exact isolated_splitBrowserInWorkspace h hk hs
  | splitFocusedBrowser o url => exact isolated_splitFocusedBrowser h hk hs
  | updateProxyEndpoint id e => exact isolated_updateProxyEndpoint h hk hs
  | restoreWorkspaceFromLayout ord snap port id token => exact isolated_restore h hk hs
  | openBrowserPopup registered opener url =>
    exact isolated_of_onRoute hs rfl (fun aw haw => AppWindow.OnRoute.openBrowserPopup h hk haw)
  | moveTabToWorkspace source x targetWs widgets =>
    refine isolated_of_onRoute hs rfl (fun aw haw => ?_)
    exact AppWindow.OnRoute.moveTabToWorkspace h (fun b hb => by subst hb; exact hk) haw
  | newWorkspace =>
    refine isolated_of_onRoute hs rfl (fun aw haw => ?_)
    cases haw
    exact onRoute_append h rfl (onRoute_fresh _ _ rfl)
  | newRemoteWorkspace c port id token =>
    refine isolated_of_onRoute hs rfl (fun aw haw => ?_)
    cases haw
    exact onRoute_append h rfl (onRoute_fresh _ _ rfl)
  | removeWorkspaceAt i =>
    exact isolated_of_onRoute hs rfl (fun aw haw => AppWindow.OnRoute.removeWorkspaceAt h haw)
  | closeSurface s =>
    refine isolated_of_onRoute hs rfl (fun aw haw => ?_)
    simp only [AppWindow.step,AppWindow.closeSurface] at haw
    split at haw
    · cases haw; exact h
    · exact AppWindow.OnRoute.closePanel h (fun pane => pane.removeWhere_subset _) haw
  | closeBrowser b =>
    refine isolated_of_onRoute hs rfl (fun aw haw => ?_)
    simp only [AppWindow.step,AppWindow.closeBrowser] at haw
    split at haw
    · cases haw; exact h
    · exact AppWindow.OnRoute.closePanel h (fun pane => pane.removeWhere_subset _) haw
  | splitTabToPane source x o before widgets =>
    exact isolated_of_onRoute hs rfl (fun aw haw => AppWindow.OnRoute.splitTabToPane h haw)
  | splitTabToPaneTarget source x target o before widgets =>
    exact isolated_of_onRoute hs rfl (fun aw haw => AppWindow.OnRoute.splitTabToPaneTarget h haw)
  | moveTabToPane source x target insertion widgets =>
    exact isolated_of_onRoute hs rfl (fun aw haw => AppWindow.OnRoute.moveTabToPane h haw)
  | reorderTabInPane p x insertion widgets =>
    exact isolated_of_onRoute hs rfl (fun aw haw => AppWindow.OnRoute.reorderTabInPane h haw)
  | moveWorkspace source target before =>
    exact isolated_of_onRoute hs rfl (fun aw haw => AppWindow.OnRoute.moveWorkspace h haw)
  | newPaneTab => exact isolated_of_view hs rfl rfl (AppWindow.OnRoute.newPaneTab h)
  | splitFocused o => exact isolated_of_view hs rfl rfl (AppWindow.OnRoute.splitFocused h o)
  | movePane source target before o =>
    exact isolated_of_view hs rfl rfl (AppWindow.OnRoute.movePane h source target before o)
  | setFocusedSurface s =>
    exact isolated_of_view hs rfl rfl (AppWindow.OnRoute.setFocusedSurface h s)
  | setFocusedBrowser b =>
    exact isolated_of_view hs rfl rfl (AppWindow.OnRoute.setFocusedBrowser h b)
  | focusPaneById p => exact isolated_of_view hs rfl rfl (AppWindow.OnRoute.focusPaneById h p)
  | selectPaneTabGeneric p idx =>
    exact isolated_of_view hs rfl rfl (AppWindow.OnRoute.selectPaneTabGeneric h p idx)
  | cyclePaneTab forward =>
    exact isolated_of_view hs rfl rfl (AppWindow.OnRoute.cyclePaneTab h forward)
  | navigateSplit forward =>
    exact isolated_of_view hs rfl rfl
      (AppWindow.OnRoute.currentTree h (fun t => (t.navigate forward).2))
  | navigateDirection d =>
    exact isolated_of_view hs rfl rfl
      (AppWindow.OnRoute.currentTree h (fun t => (t.navigateDirectional d).2))
  | equalizeSplits =>
    exact isolated_of_view hs rfl rfl (AppWindow.OnRoute.currentTree h SplitTree.equalize)
  | syncRatio id node pos total =>
    exact isolated_of_view hs rfl rfl (AppWindow.OnRoute.syncRatio h id node pos total)
  | onBrowserTitleChanged b title =>
    exact isolated_of_view hs rfl rfl (AppWindow.OnRoute.onBrowserTitleChanged h b title)
  | setSurfaceTitle home s title =>
    exact isolated_of_view hs rfl rfl (AppWindow.OnRoute.setSurfaceTitle h home s title)
  | setSurfaceWorkingDirectory home s dir =>
    exact isolated_of_view hs rfl rfl (AppWindow.OnRoute.setSurfaceWorkingDirectory h home s dir)
  | renameTab p idx name =>
    exact isolated_of_view hs rfl rfl (AppWindow.OnRoute.renameTab h p idx name)
  | toggleWorkspacePinned id =>
    exact isolated_of_view hs rfl rfl (AppWindow.OnRoute.toggleWorkspacePinned h id)
  | disconnectRemote id clear =>
    exact isolated_of_view hs rfl rfl (AppWindow.OnRoute.disconnectRemote h id clear)
  | showPage page => exact isolated_of_view hs rfl rfl h
  | moveSidebar visible lastWidth position => exact isolated_of_view hs rfl rfl h
  | setWorkspaceStatus id _ | clearWorkspaceStatus id _ | addWorkspaceLog id _
  | clearWorkspaceLog id | setWorkspaceProgress id _ _ | clearWorkspaceProgress id
  | renameWorkspace id _ | setWorkspaceColor id _ | updateRemoteState id _ =>
    exact isolated_of_view hs rfl rfl
      (AppWindow.OnRoute.modifyById h id (fun _ => rfl) (fun _ => rfl))

/-- In a run whose steps all keep the routes apart, the route of every browser is that
of its workspace in every state. -/
theorem isolated_of_run (h : Run KeepsRoutes r) : r.Isolated := by
  induction h with
  | empty he =>
    intro ws hws
    simp [he] at hws
  | step op _ hk hs ih => exact isolated_step ih hk hs

def devbox : RemoteConfiguration := ⟨"dev@box",none,none,[],none,none,none,none,none⟩

def tunnel : ProxyEndpoint := ⟨"127.0.0.1",9050⟩

def steps (r : Routed F) : List (WindowOp F) → Option (Routed F)
  | [] => some r
  | op :: ops => (r.step op).bind (fun r => r.steps ops)

theorem Run.steps {ok : Routed F → WindowOp F → Prop} (h : Run ok r) {ops : List (WindowOp F)}
    (hok : ∀ r, ∀ op ∈ ops, ok r op) (hs : r.steps ops = some r') : Run ok r' := by
  induction ops generalizing r with
  | nil => cases hs; exact h
  | cons op ops ih =>
    obtain ⟨r₁,h₁,h₂⟩ := Option.bind_eq_some_iff.mp hs
    exact ih (.step op h (hok r op List.mem_cons_self) h₁)
      (fun r x hx => hok r x (List.mem_cons_of_mem op hx)) h₂

omit [F64Ops F] in
/-- Before the first browser, any workspace may get one. -/
theorem fits_of_noBrowser (h : ∀ ws ∈ r.window.workspaces, ws.browserIds = [])
    (hp : r.proxy = none) (ws : Workspace F) : r.Fits ws := by
  unfold Fits
  split
  · intro v hv b hb
    rw [← Workspace.mem_browserIds,h v hv] at hb
    exact absurd hb List.not_mem_nil
  · exact hp

def tunnelled : Routed ℚ :=
  ((⟨.start,none⟩ : Routed ℚ).steps [.newWorkspace,
    .newRemoteWorkspace devbox (some 7000) "r" "t",
    .updateProxyEndpoint 2 (some tunnel)]).getD ⟨.start,none⟩

theorem isolated_of_run_tunnelled :
    Run KeepsRoutes (⟨(tunnelled.window.splitFocusedBrowser .horizontal "about:blank").getD .start,
      some tunnel⟩ : Routed ℚ) ∧
    Isolated (⟨(tunnelled.window.splitFocusedBrowser .horizontal "about:blank").getD .start,
      some tunnel⟩ : Routed ℚ) := by
  have hempty : ∀ ws ∈ ((AppWindow.start.newWorkspace).newRemoteWorkspace devbox (some 7000)
      "r" "t").workspaces, ws.browserIds = [] := by decide
  have hrun : Run KeepsRoutes tunnelled := by
    refine .step (.updateProxyEndpoint 2 (some tunnel))
      (.step (.newRemoteWorkspace devbox (some 7000) "r" "t")
        (.step .newWorkspace (.empty (rfl : AppWindow.start.workspaces = [])) trivial rfl)
        trivial rfl) ?_ rfl
    rintro i ws hf ⟨b,hb⟩
    have hm := hempty ws (List.mem_of_getElem? (findWs_spec hf).1)
    rw [← Workspace.mem_browserIds,hm] at hb
    exact absurd hb List.not_mem_nil
  have h : Run KeepsRoutes (⟨(tunnelled.window.splitFocusedBrowser .horizontal
      "about:blank").getD .start,some tunnel⟩ : Routed ℚ) :=
    .step (.splitFocusedBrowser .horizontal "about:blank") hrun
      (fun _ ws _ _ => fits_of_noBrowser (by decide) rfl ws) rfl
  exact ⟨h,isolated_of_run h⟩

def crossing : List (WindowOp ℚ) :=
  [.newWorkspace,.splitFocusedBrowser .horizontal "about:blank",
    .newRemoteWorkspace devbox (some 7000) "r" "t",.updateProxyEndpoint 2 (some tunnel),
    .splitFocusedBrowser .horizontal "about:blank"]

def crossed : Routed ℚ := ((⟨.start,none⟩ : Routed ℚ).steps crossing).getD ⟨.start,none⟩

/-- A browser of a local workspace goes through the tunnel of a remote one as soon as the
remote workspace gets a browser. -/
theorem local_browser_tunnelled :
    ¬ ∀ r : Routed ℚ, Run (fun r op => op.Targeted r.window) r → r.Isolated := by
  intro hall
  have hrun : Run (fun r op => op.Targeted r.window) crossed := by
    refine Run.steps (.empty (rfl : AppWindow.start.workspaces = [])) (fun r op hop => ?_)
      (rfl : (⟨.start,none⟩ : Routed ℚ).steps crossing = some crossed)
    simp only [crossing,List.mem_cons,List.not_mem_nil,or_false] at hop
    rcases hop with rfl | rfl | rfl | rfl | rfl <;> trivial
  have hshow : ∃ ws ∈ crossed.window.workspaces,
      1 ∈ ws.browserIds ∧ ws.proxyEndpoint ≠ crossed.proxy := by
    decide
  obtain ⟨ws,hws,hb,hne⟩ := hshow
  exact hne (hall crossed hrun ws hws 1 (Workspace.mem_browserIds.mp hb)).symm

end Limux.Routed
