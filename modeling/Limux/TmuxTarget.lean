import Limux.Lib.Number

/-! Targets of tmux commands: how `limuxd-remote` prints the ids of the host and how it
resolves a target (`tmux_compat.go`). A field that the host does not send, or not as a text,
reads as the empty text, a missing number as `-1`. -/
namespace Limux.Tmux

open Text

structure WorkspaceItem where
  id : Text
  ref : Text
  title : Text
  index : ℤ
  paneCount : ℤ

structure PaneItem where
  id : Text
  ref : Text
  index : ℤ

structure SurfaceItem where
  id : Text
  title : Text
  selected : Bool

/-- The answer to `surface.current`. -/
structure CurrentSurface where
  paneId : Option Text
  paneRef : Option Text
  surfaceId : Option Text

/-- What the host answers; an error is a text. -/
structure Host where
  workspaceList : Except Text (List WorkspaceItem)
  workspaceCurrent : Except Text (Option Text)
  workspaceLast : Except Text (Option Text)
  paneList : Text → Except Text (List PaneItem)
  surfaceCurrent : Text → Except Text CurrentSurface
  surfaceList : Text → Except Text (List SurfaceItem)
  paneSurfaces : Text → Text → Except Text (List SurfaceItem)

/-- `LIMUX_WORKSPACE_ID`, `TMUX_PANE` and `LIMUX_PANE_ID`, empty when they are not set. -/
structure Env where
  workspaceId : Text
  tmuxPane : Text
  paneId : Text

inductive Error
  | message (m : Text)
  | stackOverflow
  deriving DecidableEq

abbrev Result := Except Error

def fail {α : Type} (m : Text) : Result α := .error (.message m)

def call {α : Type} : Except Text α → Result α
  | .ok a => .ok a
  | .error e => fail e

def callerWorkspaceHandle (env : Env) : Text := trim env.workspaceId

def callerPaneHandle (env : Env) : Text :=
  match [env.tmuxPane,env.paneId].find? (fun v => trim v ≠ []) with
  | some v => (stripPrefix ['%'] (trim v)).getD (trim v)
  | none => []

def hexDigit (c : Char) : Bool :=
  ('0' ≤ c && c ≤ '9') || ('a' ≤ c && c ≤ 'f') || ('A' ≤ c && c ≤ 'F')

def isUUIDish (s : Text) : Bool :=
  s.length = 36 && s.zipIdx.all (fun x =>
    if x.2 = 8 ∨ x.2 = 13 ∨ x.2 = 18 ∨ x.2 = 23 then x.1 = '-' else hexDigit x.1)

def namedWorkspace (items : List WorkspaceItem) (raw : Text) : Option Text :=
  match items.find? (fun w => w.ref = raw ∧ w.id ≠ []) with
  | some w => some w.id
  | none => (items.find? (fun w => trim w.title = trim raw ∧ w.id ≠ [])).map WorkspaceItem.id

def lookupWorkspaceId (h : Host) (raw : Text) : Result Text :=
  match h.workspaceList with
  | .error e => fail e
  | .ok items =>
    match namedWorkspace items raw with
    | some id => .ok id
    | none => fail ("workspace not found: ".toList ++ raw)

/-- The workspace of the caller, or else the current one. -/
def defaultWorkspaceId (h : Host) (env : Env) : Result Text :=
  let caller := callerWorkspaceHandle env
  if caller ≠ [] then
    if isUUIDish caller then .ok caller
    -- the function calls itself with `current` again
    else if caller = "current".toList then .error .stackOverflow
    else lookupWorkspaceId h caller
  else
    match h.workspaceCurrent with
    | .error e => fail ("no workspace selected: ".toList ++ e)
    | .ok (some id) => .ok id
    | .ok none => fail "no workspace selected".toList

def resolveWorkspaceId (h : Host) (env : Env) (raw : Text) : Result Text :=
  if raw = [] ∨ raw = "current".toList then defaultWorkspaceId h env
  else if isUUIDish raw then .ok raw
  else lookupWorkspaceId h raw

def windowToken (raw : Text) : Text :=
  let token := match splitLast '.' raw with
    | some (before,_) => before
    | none => raw
  let token := match splitLast ':' token with
    | some (before,suffix) => if suffix ≠ [] then suffix else before
    | none => token
  (stripPrefix ['@'] token).getD token

def resolveWorkspaceTarget (h : Host) (env : Env) (raw : Text) : Result Text :=
  let raw := trim raw
  if raw = [] then
    let caller := callerWorkspaceHandle env
    if caller ≠ [] then resolveWorkspaceId h env caller else resolveWorkspaceId h env []
  else if raw = ['!'] ∨ raw = ['^'] ∨ raw = ['-'] then
    match h.workspaceLast with
    | .error e => fail ("previous workspace not found: ".toList ++ e)
    | .ok (some id) => .ok id
    | .ok none => fail "previous workspace not found".toList
  else resolveWorkspaceId h env (windowToken raw)

def paneSelector (raw : Text) : Text :=
  let raw := trim raw
  match stripPrefix ['%'] raw with
  | some s => s
  | none =>
    if "pane:".toList.isPrefixOf raw then raw
    else
      match splitLast '.' raw with
      | some (_,after) => after
      | none => []

def windowSelector (raw : Text) : Text :=
  let raw := trim raw
  if ['%'].isPrefixOf raw ∨ "pane:".toList.isPrefixOf raw then []
  else
    match splitLast '.' raw with
    | some (before,_) => before
    | none => raw

/-- The id of a listed pane that has the handle as its reference or its id. -/
def handledPane (panes : List PaneItem) (handle : Text) : Option Text :=
  (panes.find? (fun p => (p.ref = handle ∧ p.id ≠ []) ∨ p.id = handle)).map PaneItem.id

def canonicalPaneId (h : Host) (handle workspaceId : Text) : Result Text :=
  if isUUIDish handle then .ok handle
  else do
    let panes ← call (h.paneList workspaceId)
    match handledPane panes handle with
    | some id => .ok id
    | none => fail ("pane not found: ".toList ++ handle)

def focusedPaneId (h : Host) (workspaceId : Text) : Result Text := do
  let payload ← call (h.surfaceCurrent workspaceId)
  match payload.paneId,payload.paneRef with
  | some id,_ => .ok id
  | none,some ref => canonicalPaneId h ref workspaceId
  | none,none => fail "pane not found".toList

/-- Whether a workspace lists a pane with the handle as its id or its reference. -/
def listsPane (paneList : Text → Except Text (List PaneItem)) (handle : Text)
    (w : WorkspaceItem) : Bool :=
  w.id ≠ [] && match paneList w.id with
    | .ok panes => panes.any (fun p => p.id = handle || p.ref = handle)
    | .error _ => false

def workspaceIdForPaneHandle (h : Host) (handle : Text) : Result Text :=
  if !isUUIDish handle then fail "not a UUID".toList
  else do
    let workspaces ← call h.workspaceList
    match workspaces.find? (listsPane h.paneList handle) with
    | some w => .ok w.id
    | none => fail "pane not found in any workspace".toList

def paneWorkspace (h : Host) (env : Env) (paneSelector windowSelector : Text) : Result Text :=
  if windowSelector ≠ [] then resolveWorkspaceTarget h env windowSelector
  else if paneSelector ≠ [] then
    match workspaceIdForPaneHandle h paneSelector with
    | .ok id => .ok id
    | .error _ => resolveWorkspaceTarget h env []
  else resolveWorkspaceTarget h env []

/-- The workspace of the caller, empty if there is none. -/
def resolvedCallerWorkspaceId (h : Host) (env : Env) : Result Text :=
  let caller := callerWorkspaceHandle env
  if caller = [] then .ok []
  else
    match resolveWorkspaceId h env caller with
    | .error .stackOverflow => .error .stackOverflow
    | .error (.message _) => .ok []
    | .ok id => .ok id

def callerPane (h : Host) (env : Env) (workspaceId : Text) : Result Text := do
  let callerWs ← resolvedCallerWorkspaceId h env
  if callerWs = workspaceId ∧ callerPaneHandle env ≠ [] then
    match canonicalPaneId h (callerPaneHandle env) workspaceId with
    | .ok id => .ok id
    | .error _ => .ok []
  else .ok []

/-- The pane that is selected, or else the one of the caller, empty if there is none. -/
def selectedPane (h : Host) (env : Env) (selector workspaceId : Text) : Result Text :=
  if selector ≠ [] then canonicalPaneId h selector workspaceId
  else callerPane h env workspaceId

def orFocused (h : Host) (workspaceId paneId : Text) : Result Text :=
  if paneId = [] then focusedPaneId h workspaceId else .ok paneId

def resolvePaneTarget (h : Host) (env : Env) (raw : Text) : Result (Text × Text) := do
  let raw := trim raw
  let selector := paneSelector raw
  let workspaceId ← paneWorkspace h env selector (windowSelector raw)
  let paneId ← selectedPane h env selector workspaceId
  let paneId ← orFocused h workspaceId paneId
  .ok (workspaceId,paneId)

def selectedSurfaceId (h : Host) (workspaceId paneId : Text) : Result Text := do
  let surfaces ← call (h.paneSurfaces workspaceId paneId)
  match surfaces.find? (fun s => s.selected ∧ s.id ≠ []) with
  | some s => .ok s.id
  | none =>
    match surfaces.head?.filter (fun s => s.id ≠ []) with
    | some s => .ok s.id
    | none => fail "pane has no surface".toList

/-- The variables of a format. -/
structure FormatContext where
  sessionName : Text
  sessionId : Text
  windowId : Text
  windowUuid : Text
  windowActive : Text
  windowFlags : Text
  paneActive : Text
  windowIndex : Option Text
  windowName : Option Text
  windowPanes : Option Text
  paneId : Option Text
  paneUuid : Option Text
  paneIndex : Option Text
  surfaceId : Option Text
  paneTitle : Option Text

namespace FormatContext

def start (workspaceId : Text) : FormatContext :=
  { sessionName := "limux".toList
    sessionId := "$0".toList
    windowId := '@' :: workspaceId
    windowUuid := workspaceId
    windowActive := ['1']
    windowFlags := ['*']
    paneActive := ['1']
    windowIndex := none
    windowName := none
    windowPanes := none
    paneId := none
    paneUuid := none
    paneIndex := none
    surfaceId := none
    paneTitle := none }

def count (n : ℤ) : Option Text := if 0 ≤ n then some (ofInt n) else none

def titled (title : Text) : Option Text := if trim title ≠ [] then some (trim title) else none

def withWorkspace (ctx : FormatContext) (w : WorkspaceItem) : FormatContext :=
  { ctx with
    windowIndex := count w.index
    windowName := titled w.title
    windowPanes := count w.paneCount }

def withPane (ctx : FormatContext) (paneId : Text) (panes : Except Text (List PaneItem)) :
    FormatContext :=
  if paneId = [] then ctx
  else
    { ctx with
      paneId := some ('%' :: paneId)
      paneUuid := some paneId
      paneIndex := match panes with
        | .ok panes => (panes.find? (fun p => p.id = paneId)).bind (fun p => count p.index)
        | .error _ => none }

def withSurface (ctx : FormatContext) (surfaceId : Text)
    (surfaces : Except Text (List SurfaceItem)) : FormatContext :=
  if surfaceId = [] then ctx
  else
    let title := match surfaces with
      | .ok surfaces => (surfaces.find? (fun s => s.id = surfaceId)).bind (fun s => titled s.title)
      | .error _ => none
    { ctx with
      surfaceId := some surfaceId
      paneTitle := title
      windowName := ctx.windowName.or title }

end FormatContext

/-- The context as far as the list of the workspaces gives it. -/
def workspaceContext (h : Host) (id workspaceId : Text) : FormatContext :=
  match h.workspaceList with
  | .error _ => .start id
  | .ok items =>
    match items.find? (fun w => w.id = id ∨ w.ref = workspaceId) with
    | some w => (FormatContext.start id).withWorkspace w
    | none => .start id

/-- The context with the pane and the surface that were asked for, or the current ones. -/
def surfaceContext (h : Host) (id paneId surfaceId : Text) (current : CurrentSurface)
    (ctx : FormatContext) : FormatContext :=
  let pane := if paneId = [] then (current.paneId.or current.paneRef).getD [] else paneId
  let surface := if surfaceId = [] ∧ pane ≠ [] then
      match selectedSurfaceId h id pane with
      | .ok s => s
      | .error _ => []
    else surfaceId
  let surface := if surface = [] then current.surfaceId.getD [] else surface
  (ctx.withPane pane (h.paneList id)).withSurface surface (h.surfaceList id)

def formatContext (h : Host) (env : Env) (workspaceId paneId surfaceId : Text) :
    Result FormatContext :=
  match resolveWorkspaceId h env workspaceId with
  | .error e => .error e
  | .ok id =>
    let ctx := workspaceContext h id workspaceId
    match h.surfaceCurrent id with
    | .error _ => .ok ctx
    | .ok current => .ok (surfaceContext h id paneId surfaceId current ctx)

/-! The ids that a context prints. -/

/-- The context is about window `w` and pane `p`. -/
structure FormatContext.Prints (ctx : FormatContext) (w p : Text) : Prop where
  session : ctx.sessionName = "limux".toList
  window : ctx.windowId = '@' :: w
  pane : ctx.paneId = some ('%' :: p)

/-- What is printed of the session, the window and the pane. -/
structure FormatContext.Named (ctx : FormatContext) : Prop where
  session : ctx.sessionName = "limux".toList
  window : ctx.windowId = '@' :: ctx.windowUuid
  pane : ∀ p, ctx.paneUuid = some p → ctx.paneId = some ('%' :: p)

namespace FormatContext.Named

variable {ctx : FormatContext}

theorem start (id : Text) : (start id).Named := ⟨rfl,rfl,by simp [FormatContext.start]⟩

theorem withWorkspace (h : ctx.Named) (w : WorkspaceItem) : (ctx.withWorkspace w).Named :=
  ⟨h.session,h.window,h.pane⟩

theorem withPane (h : ctx.Named) (p : Text) (l : Except Text (List PaneItem)) :
    (ctx.withPane p l).Named := by
  unfold FormatContext.withPane
  split
  · exact h
  · refine ⟨h.session,h.window,fun q hq => ?_⟩
    cases hq
    rfl

theorem withSurface (h : ctx.Named) (s : Text) (l : Except Text (List SurfaceItem)) :
    (ctx.withSurface s l).Named := by
  unfold FormatContext.withSurface
  split
  · exact h
  · exact ⟨h.session,h.window,h.pane⟩

end FormatContext.Named

theorem named_workspaceContext (h : Host) (id ws : Text) : (workspaceContext h id ws).Named := by
  unfold workspaceContext
  split
  · exact .start id
  · split
    · exact (FormatContext.Named.start id).withWorkspace _
    · exact .start id

/-- Every context prints its window with `@` and its pane with `%` before the id. -/
theorem formatContext_prints {h : Host} {env : Env} {ws pane surface : Text}
    {ctx : FormatContext} (hctx : formatContext h env ws pane surface = .ok ctx) {p : Text}
    (hp : ctx.paneUuid = some p) : ctx.Prints ctx.windowUuid p := by
  have hnamed : ctx.Named := by
    unfold formatContext at hctx
    split at hctx
    · cases hctx
    · rename_i id _
      have hws := named_workspaceContext h id ws
      simp only at hctx
      split at hctx <;> cases hctx
      · exact hws
      · exact (hws.withPane _ _).withSurface _ _
  exact ⟨hnamed.session,hnamed.window,hnamed.pane p hp⟩

end Limux.Tmux
