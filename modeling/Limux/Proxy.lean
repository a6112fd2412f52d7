import Limux.WindowEdits

/-! The network proxy of the browser panels (`browser.rs`): all web views share one network
session, and the session has one proxy setting, the last one set. -/
namespace Limux

variable {F : Type}

/-- Is the browser panel in a tab of the workspace? -/
def Workspace.Shows (ws : Workspace F) (b : BrowserPanelId) : Prop :=
  TabDragIdentity.browser b ∈ ws.identities

/-- The ids `update_proxy_endpoint` collects. -/
def Workspace.browserIds (ws : Workspace F) : List BrowserPanelId :=
  ws.panes.values.flatMap (fun pane => pane.tabs.filterMap Tab.browserId)

/-- The window with the proxy setting of the shared session; `none` is a direct route. -/
structure Routed (F : Type) where
  window : AppWindow F
  proxy : Option ProxyEndpoint

namespace Routed

/-- A web view that is made for a workspace sets the proxy of a remote one, and leaves the
session as it is otherwise. -/
def createIn (proxy : Option ProxyEndpoint) (ws : Workspace F) : Option ProxyEndpoint :=
  ws.proxyEndpoint.or proxy

/-- The session after an operation. A popup is made with the session of its opener. -/
def proxyAfter (r : Routed F) : WindowOp F → Option ProxyEndpoint
  | .splitBrowserInWorkspace i _ _ _ =>
    match r.window.workspaces[i]? with
    | some ws => createIn r.proxy ws
    | none => r.proxy
  | .splitFocusedBrowser _ _ =>
    match r.window.current with
    | some (_,ws) => if ws.focusedPane.isSome then createIn r.proxy ws else r.proxy
    | none => r.proxy
  | .updateProxyEndpoint id e =>
    match r.window.findWorkspaceById id with
    | some (_,ws,_) => ws.browserIds.foldl (fun _ _ => e) r.proxy
    | none => r.proxy
  | _ => r.proxy

def step [F64Ops F] (r : Routed F) (op : WindowOp F) : Option (Routed F) :=
  (r.window.step op).map (fun aw => ⟨aw,r.proxyAfter op⟩)

/-- States reached from an empty window and a session without proxy. -/
inductive Run [F64Ops F] (ok : Routed F → WindowOp F → Prop) : Routed F → Prop
  | empty {aw : AppWindow F} : aw.workspaces = [] → Run ok ⟨aw,none⟩
  | step {r r' : Routed F} (op : WindowOp F) :
      Run ok r → ok r op → r.step op = some r' → Run ok r'

/-- The route of every browser is that of its workspace. -/
def Isolated (r : Routed F) : Prop :=
  ∀ ws ∈ r.window.workspaces, ∀ b, ws.Shows b → r.proxy = ws.proxyEndpoint

def AllOn (r : Routed F) (e : Option ProxyEndpoint) : Prop :=
  ∀ ws ∈ r.window.workspaces, ∀ b, ws.Shows b → ws.proxyEndpoint = e

/-- A browser made for the workspace fits the others. -/
def Fits (r : Routed F) (ws : Workspace F) : Prop :=
  match ws.proxyEndpoint with
  | some e => r.AllOn (some e)
  | none => r.proxy = none

def hasBrowser : LayoutSnapshot F → Bool
  | .single tabs => tabs.any PaneTabSnapshot.isBrowser
  | .split _ _ a b => hasBrowser a || hasBrowser b

/-- The step leaves no browser with the route of another workspace. -/
def KeepsRoutes (r : Routed F) : WindowOp F → Prop
  | .splitBrowserInWorkspace i _ _ _ => ∀ ws, r.window.workspaces[i]? = some ws → r.Fits ws
  | .splitFocusedBrowser _ _ =>
    ∀ i ws, r.window.current = some (i,ws) → ws.focusedPane.isSome → r.Fits ws
  | .openBrowserPopup registered opener _ =>
    registered = true → r.window.findWorkspaceWithBrowser opener = none →
      ∀ ws, r.window.workspaces[r.window.currentPage.getD 0]? = some ws →
        ws.focusedPane.isSome → ws.proxyEndpoint = r.proxy
  | .updateProxyEndpoint id e =>
    ∀ i ws, r.window.findWorkspaceById id = some (i,ws,()) → (∃ b, ws.Shows b) →
      ∀ j v, r.window.workspaces[j]? = some v → j ≠ i → ∀ b, v.Shows b → v.proxyEndpoint = e
  | .moveTabToWorkspace source (.browser b) targetWs widgets =>
    widgets = true → ∀ i ws j v pane, r.window.findWorkspaceWithPane source = some (i,ws,pane) →
      (tabIndexForIdentity pane (.browser b)).isSome →
      r.window.findWorkspaceById targetWs = some (j,v,()) → i ≠ j → v.proxyEndpoint = r.proxy
  | .restoreWorkspaceFromLayout _ snap _ _ _ => hasBrowser snap.layout = true → r.proxy = none
  | _ => True

end Routed

end Limux
