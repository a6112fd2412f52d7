import Limux.Lib.HashMap
import Limux.Lib.Serde
import Limux.SessionFile

/-! The settings (`app/src/settings.rs`): the data model with its derived JSON form, the
effective values, and the settings file. Writing and parsing JSON text is left to the library. -/

namespace HashMap

variable {K V : Type} [DecidableEq K]

/-- The entries inserted one after the other; the order is that of the last insertions. -/
def ofEntries (l : List (Σ _ : K,V)) : HashMap K V :=
  ⟨l.reverse.dedupKeys.reverse,
    (List.perm_nodupKeys (List.reverse_perm _)).mpr (List.nodupKeys_dedupKeys _)⟩

theorem dedupKeys_eq_self {l : List (Σ _ : K,V)} (h : l.NodupKeys) : l.dedupKeys = l := by
  induction l with
  | nil => rfl
  | cons e l ih =>
    obtain ⟨hnot,hrest⟩ := List.nodupKeys_cons.mp h
    rw [List.dedupKeys_cons,ih hrest,List.kinsert_def,List.kerase_of_notMem_keys hnot]

theorem ofEntries_entries (m : HashMap K V) : ofEntries m.entries = m := by
  apply AList.ext
  have hrev : m.entries.reverse.dedupKeys = m.entries.reverse :=
    dedupKeys_eq_self ((List.perm_nodupKeys (List.reverse_perm _)).mpr m.nodupKeys)
  calc (ofEntries m.entries).entries = m.entries.reverse.reverse :=
      congrArg List.reverse hrev
    _ = m.entries := List.reverse_reverse _

end HashMap

namespace Serde

variable {F V : Type}

def writeMap (w : V → Json F) (m : HashMap String V) : Json F :=
  .obj (m.entries.map (fun e => (e.1,w e.2)))

/-- Entering the object takes one level of depth; of a repeated key the last value counts. -/
def map (r : Json F → Option V) : ℕ → Json F → Option (HashMap String V)
  | _+2, .obj fields =>
    (fields.mapM (fun e => (r e.2).map (fun v => (⟨e.1,v⟩ : Σ _ : String,V)))).map
      HashMap.ofEntries
  | _, _ => none

theorem map_writeMap {w : V → Json F} {r : Json F → Option V} (h : ∀ v, r (w v) = some v) (n : ℕ)
    (m : HashMap String V) : map r (n+2) (writeMap w m) = some m := by
  have hread : (m.entries.map (fun e => (e.1,w e.2))).mapM
      (fun e => (r e.2).map (fun v => (⟨e.1,v⟩ : Σ _ : String,V))) = some m.entries :=
    mapM_map_eq_some.mpr (fun e _ => by simp [h])
  rw [writeMap,map,hread,Option.map_some,HashMap.ofEntries_entries]

/-- An integer of a type with the values from `lo` to `hi`. -/
def intIn (lo hi : ℤ) (j : Json F) : Option ℤ := (int j).filter (fun n => lo ≤ n ∧ n ≤ hi)

def u32 (j : Json F) : Option UInt32 :=
  (intIn 0 4294967295 j).map (fun n => UInt32.ofNat n.toNat)

def i32 (j : Json F) : Option Int32 := (intIn (-2147483648) 2147483647 j).map Int32.ofInt

def i64 (j : Json F) : Option Int64 :=
  (intIn (-9223372036854775808) 9223372036854775807 j).map Int64.ofInt

theorem u32_int (n : UInt32) : u32 (.num (.int n.toNat) : Json F) = some n := by
  have hn : (n.toNat : ℤ) ≤ 4294967295 :=
    Int.ofNat_le.mpr (Nat.le_of_lt_succ n.toNat_lt)
  simp [u32,intIn,int,Option.filter,hn]

theorem i32_int (n : Int32) : i32 (.num (.int n.toInt) : Json F) = some n := by
  have hlo : -2147483648 ≤ n.toInt := n.minValue_le_toInt
  have hhi : n.toInt ≤ 2147483647 := n.toInt_le
  simp [i32,intIn,int,Option.filter,hlo,hhi]

theorem i64_int (n : Int64) : i64 (.num (.int n.toInt) : Json F) = some n := by
  have hlo : -9223372036854775808 ≤ n.toInt := n.minValue_le_toInt
  have hhi : n.toInt ≤ 9223372036854775807 := n.toInt_le
  simp [i64,intIn,int,Option.filter,hlo,hhi]

end Serde

namespace Limux

structure GeneralSettings where
  defaultShell : Option Text
  workingDirectory : Option Text
  sessionRestore : Option Bool
  notificationsEnabled : Option Bool
  hideIntegratePrompt : Option Bool
  desktopIntegrated : Option Bool
  checkForUpdates : Option Bool
  updateCheckFrequency : Option Text
  skipUpdateVersion : Option Text
  lastUpdateCheck : Option Int64
  deriving DecidableEq

structure SidebarSettings where
  width : Option Int32
  visible : Option Bool
  deriving DecidableEq

/-- The order of the shortcuts stands for the iteration order of the map. -/
structure Settings where
  version : UInt32
  general : GeneralSettings
  sidebar : SidebarSettings
  shortcuts : HashMap String Text

namespace Settings

open Serde Session

def generalDefault : GeneralSettings :=
  ⟨none,none,none,none,none,none,none,none,none,none⟩

def sidebarDefault : SidebarSettings := ⟨none,none⟩

def default : Settings := ⟨1,generalDefault,sidebarDefault,∅⟩

/-! Effective values. -/

def checkForUpdates (s : Settings) : Bool := s.general.checkForUpdates.getD true

def updateCheckFrequency (s : Settings) : Text :=
  s.general.updateCheckFrequency.getD "daily".toList

variable {F : Type}

/-! The derived JSON form. A number that is missing in the file is 0, whatever the default
settings say. -/

def writeGeneral (g : GeneralSettings) : Json F :=
  .obj [("default_shell",orNull .str g.defaultShell),
    ("working_directory",orNull .str g.workingDirectory),
    ("session_restore",orNull .bool g.sessionRestore),
    ("notifications_enabled",orNull .bool g.notificationsEnabled),
    ("hide_integrate_prompt",orNull .bool g.hideIntegratePrompt),
    ("desktop_integrated",orNull .bool g.desktopIntegrated),
    ("check_for_updates",orNull .bool g.checkForUpdates),
    ("update_check_frequency",orNull .str g.updateCheckFrequency),
    ("skip_update_version",orNull .str g.skipUpdateVersion),
    ("last_update_check",orNull (fun n => .num (.int n.toInt)) g.lastUpdateCheck)]

def readGeneral : ℕ → Json F → Option GeneralSettings :=
  record (fun _ fields => do
    let defaultShell ← optField "default_shell" Json.asStr fields
    let workingDirectory ← optField "working_directory" Json.asStr fields
    let sessionRestore ← optField "session_restore" bool fields
    let notificationsEnabled ← optField "notifications_enabled" bool fields
    let hideIntegratePrompt ← optField "hide_integrate_prompt" bool fields
    let desktopIntegrated ← optField "desktop_integrated" bool fields
    let checkForUpdates ← optField "check_for_updates" bool fields
    let updateCheckFrequency ← optField "update_check_frequency" Json.asStr fields
    let skipUpdateVersion ← optField "skip_update_version" Json.asStr fields
    let lastUpdateCheck ← optField "last_update_check" i64 fields
    return ⟨defaultShell,workingDirectory,sessionRestore,notificationsEnabled,
      hideIntegratePrompt,desktopIntegrated,checkForUpdates,updateCheckFrequency,
      skipUpdateVersion,lastUpdateCheck⟩)

def writeSidebar (s : SidebarSettings) : Json F :=
  .obj [("width",orNull (fun n => .num (.int n.toInt)) s.width),
    ("visible",orNull .bool s.visible)]

def readSidebar : ℕ → Json F → Option SidebarSettings :=
  record (fun _ fields => do
    let width ← optField "width" i32 fields
    let visible ← optField "visible" bool fields
    return ⟨width,visible⟩)

def writeSettings (s : Settings) : Json F :=
  .obj [("version",.num (.int s.version.toNat)),("general",writeGeneral s.general),
    ("sidebar",writeSidebar s.sidebar),("shortcuts",writeMap .str s.shortcuts)]

def readSettings : ℕ → Json F → Option Settings :=
  record (fun n fields => do
    let version ← fieldD "version" 0 u32 fields
    let general ← fieldD "general" generalDefault (readGeneral n) fields
    let sidebar ← fieldD "sidebar" sidebarDefault (readSidebar n) fields
    let shortcuts ← fieldD "shortcuts" ∅ (map Json.asStr n) fields
    return ⟨version,general,sidebar,shortcuts⟩)

/-- `load`; the document of the file, if there is one that can be parsed. -/
def load (file : Option (Json F)) : Settings :=
  (file.bind (readSettings recursionLimit)).getD default

/-! What is written is read back. -/

theorem option_str (o : Option Text) :
    option Json.asStr (orNull .str o : Json F) = some o :=
  (option_orNull (fun _ => by simp)).mpr (fun _ _ => rfl)

theorem option_i64 (o : Option Int64) :
    option i64 (orNull (fun n => .num (.int n.toInt)) o : Json F) = some o :=
  (option_orNull (fun _ => by simp)).mpr (fun n _ => i64_int n)

theorem option_i32 (o : Option Int32) :
    option i32 (orNull (fun n => .num (.int n.toInt)) o : Json F) = some o :=
  (option_orNull (fun _ => by simp)).mpr (fun n _ => i32_int n)

theorem readGeneral_writeGeneral (n : ℕ) (g : GeneralSettings) :
    readGeneral (n+2) (writeGeneral g : Json F) = some g := by
  simp [readGeneral,writeGeneral,record,optField,fieldD,member,option_str,option_i64]

theorem readSidebar_writeSidebar (n : ℕ) (s : SidebarSettings) :
    readSidebar (n+2) (writeSidebar s : Json F) = some s := by
  simp [readSidebar,writeSidebar,record,optField,fieldD,member,option_i32]

theorem readSettings_writeSettings (n : ℕ) (s : Settings) :
    readSettings (n+3) (writeSettings s : Json F) = some s := by
  have hmap := map_writeMap (F := F) (w := Json.str) (r := Json.asStr) (fun _ => rfl) n s.shortcuts
  simp [readSettings,writeSettings,record,fieldD,member,u32_int,readGeneral_writeGeneral,
    readSidebar_writeSidebar,hmap]

/-- A start reads what was saved last. -/
theorem load_writeSettings (s : Settings) : load (some (writeSettings s : Json F)) = s := by
  rw [load,Option.bind_some,recursionLimit,readSettings_writeSettings 125 s,Option.getD_some]

end Settings

end Limux
