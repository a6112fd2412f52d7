import Limux.Session
import Limux.Lib.Serde
import Mathlib.Algebra.Group.Nat.Defs

/-! The session file (`session::save` and `session::load`): the snapshot types with
their derived JSON forms. Writing and parsing JSON text is left to the library;
what it does with numbers and nesting is not: a float that is not finite is written
as null, and a document may only be nested so deep. -/
namespace Limux

open Serde

/-- The floats that can be written down. -/
class F64Finite (F : Type) extends F64Ops F where
  isFinite : F → Bool
  finite_lit : ∀ q : ℚ, 0 ≤ q → q ≤ 1 → isFinite (F64Ops.lit q)
  finite_share : ∀ n : ℕ, 0 < n → isFinite (F64Ops.div (F64Ops.lit 1) (F64Ops.ofUsize n))
  finite_div : ∀ a b : Int32, 0 < b →
    isFinite (F64Ops.div (F64Ops.ofInt a.toInt) (F64Ops.ofInt b.toInt))

open F64Finite (isFinite)

variable {F : Type} [F64Finite F]

namespace Session

def writeF64 (x : F) : Json F := if isFinite x then .num (.float x) else .null

/-- A derived `f64` field rejects null. -/
def readF64 : Json F → Option F
  | .num (.float x) => some x
  | .num (.int n) => some (F64Ops.ofInt n)
  | _ => none

def writeInt (n : ℤ) : Json F := .num (.int n)

def writeNat (n : ℕ) : Json F := .num (.int n)

def writeTab (t : PaneTabSnapshot) : Json F :=
  .obj [("working_directory",orNull text t.workingDirectory),("title",orNull text t.title),
    ("scrollback",orNull text t.scrollback),("panel_kind",orNull text t.panelKind),
    ("url",orNull text t.url)]

def readTab : ℕ → Json F → Option PaneTabSnapshot :=
  record (fun _ fields => do
    let workingDirectory ← optField "working_directory" string fields
    let title ← optField "title" string fields
    let scrollback ← optField "scrollback" string fields
    let panelKind ← optField "panel_kind" string fields
    let url ← optField "url" string fields
    return ⟨workingDirectory,title,scrollback,panelKind,url⟩)

def writeLayout : LayoutSnapshot F → Json F
  | .single tabs => .obj [("Single",.obj [("tabs",.arr (tabs.map writeTab))])]
  | .split o ratio first second => .obj [("Split",.obj [("orientation",text o),
      ("ratio",writeF64 ratio),("first",writeLayout first),("second",writeLayout second)])]

def readLayout : ℕ → Json F → Option (LayoutSnapshot F)
  | n+3, .obj [(variant,.obj fields)] =>
    if variant = "Single" then (field "tabs" (list readTab (n+1)) fields).map .single
    else if variant = "Split" then do
      let orientation ← field "orientation" string fields
      let ratio ← field "ratio" readF64 fields
      let first ← field "first" (readLayout (n+1)) fields
      let second ← field "second" (readLayout (n+1)) fields
      return .split orientation ratio first second
    else none
  | _, _ => none

def writeStatus (e : StatusEntrySnapshot) : Json F :=
  .obj [("key",text e.key),("value",text e.value),("icon",orNull text e.icon),
    ("color",orNull text e.color),("priority",writeInt e.priority)]

def readStatus : ℕ → Json F → Option StatusEntrySnapshot :=
  record (fun _ fields => do
    let key ← field "key" string fields
    let value ← field "value" string fields
    let icon ← optField "icon" string fields
    let color ← optField "color" string fields
    let priority ← field "priority" int fields
    return ⟨key,value,icon,color,priority⟩)

def writeLog (e : LogEntrySnapshot) : Json F :=
  .obj [("message",text e.message),("level",text e.level),("source",orNull text e.source)]

def readLog : ℕ → Json F → Option LogEntrySnapshot :=
  record (fun _ fields => do
    let message ← field "message" string fields
    let level ← field "level" string fields
    let source ← optField "source" string fields
    return ⟨message,level,source⟩)

def writeProgress (p : ProgressSnapshot F) : Json F :=
  .obj [("value",writeF64 p.value),("label",orNull text p.label)]

def readProgress : ℕ → Json F → Option (ProgressSnapshot F) :=
  record (fun _ fields => do
    let value ← field "value" readF64 fields
    let label ← optField "label" string fields
    return ⟨value,label⟩)

def writePort (p : UInt16) : Json F := writeNat p.toNat

/-- A `u16`. -/
def readPort (j : Json F) : Option UInt16 :=
  (nat j).bind (fun n => if n < 2^16 then some (.ofNat n) else none)

def writeRemote (c : RemoteConfiguration) : Json F :=
  .obj [("destination",text c.destination),("port",orNull writePort c.port),
    ("identity_file",orNull text c.identityFile),
    ("ssh_options",.arr (c.sshOptions.map text)),
    ("terminal_startup_command",orNull text c.terminalStartupCommand),
    ("relay_port",orNull writePort c.relayPort),("relay_id",orNull text c.relayId),
    ("relay_token",orNull text c.relayToken),
    ("local_socket_path",orNull text c.localSocketPath)]

def readRemote : ℕ → Json F → Option RemoteConfiguration :=
  record (fun n fields => do
    let destination ← field "destination" string fields
    let port ← optField "port" readPort fields
    let identityFile ← optField "identity_file" string fields
    let sshOptions ← fieldD "ssh_options" [] (list (fun _ => string) n) fields
    let terminalStartupCommand ← optField "terminal_startup_command" string fields
    let relayPort ← optField "relay_port" readPort fields
    let relayId ← optField "relay_id" string fields
    let relayToken ← optField "relay_token" string fields
    let localSocketPath ← optField "local_socket_path" string fields
    return ⟨destination,port,identityFile,sshOptions,terminalStartupCommand,relayPort,relayId,
      relayToken,localSocketPath⟩)

def writeWorkspace (w : WorkspaceSnapshot F) : Json F :=
  .obj [("title",text w.title),("custom_title",orNull text w.customTitle),
    ("working_directory",orNull text w.workingDirectory),("color",orNull text w.color),
    ("pinned",orNull .bool w.pinned),("layout",writeLayout w.layout),
    ("status_entries",orNull (fun l => .arr (l.map writeStatus)) w.statusEntries),
    ("log_entries",orNull (fun l => .arr (l.map writeLog)) w.logEntries),
    ("progress",orNull writeProgress w.progress),
    ("remote_config",orNull writeRemote w.remoteConfig)]

def readWorkspace : ℕ → Json F → Option (WorkspaceSnapshot F) :=
  record (fun n fields => do
    let title ← field "title" string fields
    let customTitle ← optField "custom_title" string fields
    let workingDirectory ← optField "working_directory" string fields
    let color ← optField "color" string fields
    let pinned ← optField "pinned" bool fields
    let layout ← field "layout" (readLayout n) fields
    let statusEntries ← optField "status_entries" (list readStatus n) fields
    let logEntries ← optField "log_entries" (list readLog n) fields
    let progress ← optField "progress" (readProgress n) fields
    let remoteConfig ← optField "remote_config" (readRemote n) fields
    return ⟨title,customTitle,workingDirectory,color,pinned,layout,statusEntries,logEntries,
      progress,remoteConfig⟩)

def writeSession (s : SessionSnapshot F) : Json F :=
  .obj [("version",writeNat s.version),("workspaces",.arr (s.workspaces.map writeWorkspace)),
    ("selected_workspace",orNull writeNat s.selectedWorkspace),
    ("sidebar_width",orNull writeInt s.sidebarWidth),
    ("sidebar_visible",orNull .bool s.sidebarVisible)]

def readSession : ℕ → Json F → Option (SessionSnapshot F) :=
  record (fun n fields => do
    let version ← field "version" nat fields
    let workspaces ← field "workspaces" (list readWorkspace n) fields
    let selectedWorkspace ← optField "selected_workspace" nat fields
    let sidebarWidth ← optField "sidebar_width" int fields
    let sidebarVisible ← optField "sidebar_visible" bool fields
    return ⟨version,workspaces,selectedWorkspace,sidebarWidth,sidebarVisible⟩)

def recursionLimit : ℕ := 128

/-- Write the session file. `mkdir` and `write` are the errors of the two system
calls; the result is the new file. -/
def save (mkdir write : Option String) (s : SessionSnapshot F) : Except String (Json F) :=
  match mkdir with
  | some e => .error ("mkdir: " ++ e)
  | none =>
    match write with
    | some e => .error ("write: " ++ e)
    | none => .ok (writeSession s)

def load (file : Option (Json F)) : Option (SessionSnapshot F) :=
  file.bind (readSession recursionLimit)

end Session

end Limux
