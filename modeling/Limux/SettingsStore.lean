import Limux.Settings
import Limux.Lib.Machine
import Limux.Lib.Number

/-! The settings file from start to start, and the update checks (`app/src/settings.rs`,
`update.rs`). `SETTINGS` is thread-local: the main thread reads the file into its own, and
the thread of a check has one that nobody has filled. -/
namespace Limux

/-- `X.Y.Z`. -/
structure Version where
  major : ℕ
  minor : ℕ
  patch : ℕ
  deriving DecidableEq, Repr

namespace Version

def parse (s : Text) : Option Version :=
  match ((Text.stripPrefix ['v'] s).getD s).splitOn '.' with
  | [major,minor,patch] => do
    let major ← Text.parseUnsigned 4294967296 major
    let minor ← Text.parseUnsigned 4294967296 minor
    let patch ← Text.parseUnsigned 4294967296 patch
    return ⟨major,minor,patch⟩
  | _ => none

/-- `partial_cmp` says greater. -/
def Newer (a b : Version) : Prop :=
  b.major < a.major ∨ b.major = a.major ∧
    (b.minor < a.minor ∨ b.minor = a.minor ∧ b.patch < a.patch)

instance (a b : Version) : Decidable (Newer a b) := inferInstanceAs (Decidable (_ ∨ _))

end Version

def dailySecs : ℤ := 24*60*60

def weeklySecs : ℤ := 7*dailySecs

def saturatingSub (a b : Int64) : ℤ :=
  max (-9223372036854775808) (min (a.toInt-b.toInt) 9223372036854775807)

/-- Seconds since the epoch `as i64`. -/
def timestamp (clock : ℕ) : Int64 := Int64.ofNat clock

def checkDue (s : Settings) (now : Int64) : Bool :=
  s.checkForUpdates && match s.general.lastUpdateCheck with
    | none => true
    | some last =>
      s.updateCheckFrequency = "startup".toList ||
        (if s.updateCheckFrequency = "weekly".toList then weeklySecs else dailySecs) ≤
          saturatingSub now last

structure LatestRelease where
  tagName : Text
  htmlUrl : Text

/-- What `fetch_latest` makes of the answer; `none` where it records nothing. -/
def latestRelease {F : Type} (body : Option (Json F)) : Option LatestRelease :=
  match body.bind (Json.getStr "tag_name"), body.bind (Json.getStr "html_url") with
  | some tagName, some htmlUrl =>
    if (Version.parse tagName).isSome then some ⟨tagName,htmlUrl⟩ else none
  | _, _ => none

/-- The answer is newer than `current`, and not the version to skip. -/
def offers (current : Text) (s : Settings) (r : LatestRelease) : Bool :=
  match Version.parse r.tagName, Version.parse current with
  | some latest, some current =>
    Version.Newer latest current && s.general.skipUpdateVersion ≠ some r.tagName
  | _, _ => false

inductive UpdateCheck
  /-- The timer of four seconds runs. -/
  | waiting
  | fetching
  | fetched (release : Option LatestRelease)
  | over

structure Process where
  /-- `SETTINGS` of the main thread. -/
  main : Settings
  check : UpdateCheck
  prompt : Option LatestRelease

structure SettingsStore (F : Type) where
  file : Option (Json F)
  process : Option Process
  clock : ℕ

/-- `written` says whether the file could be written. -/
inductive StoreEvent (F : Type)
  | start
  | exit
  | clock (now : ℕ)
  /-- The settings window and the first prompt. -/
  | update (s : Settings) (written : Bool)
  | maybeCheck (appimage : Bool)
  /-- The thread of the check is done; the answer that was parsed, if any. -/
  | fetched (body : Option (Json F)) (written : Bool)
  | poll
  /-- The buttons `Not now` and `Update`. -/
  | close
  | skip (written : Bool)

namespace SettingsStore

open Settings

variable {F : Type}

def save (d : SettingsStore F) (s : Settings) (written : Bool) : SettingsStore F :=
  if written then { d with file := some (writeSettings s) } else d

/-- The update of settings that are the default ones still. -/
def recordCheck (now : Int64) : Settings :=
  { Settings.default with general := { generalDefault with lastUpdateCheck := some now } }

def skipVersion (s : Settings) (tagName : Text) : Settings :=
  { s with general := { s.general with skipUpdateVersion := some tagName } }

variable (current : Text)

/-- One event; `none` where it cannot happen. -/
def step (d : SettingsStore F) : StoreEvent F → Option (SettingsStore F)
  | .start =>
    match d.process with
    | none => some { d with process := some ⟨load d.file,.waiting,none⟩ }
    | some _ => none
  | .exit =>
    match d.process with
    | some _ => some { d with process := none }
    | none => none
  | .clock now => some { d with clock := now }
  | .update s written =>
    match d.process with
    | some p => some { d.save s written with process := some { p with main := s } }
    | none => none
  | .maybeCheck appimage =>
    match d.process with
    | some ⟨main,.waiting,prompt⟩ =>
      let check := if appimage && checkDue main (timestamp d.clock) then .fetching else .over
      some { d with process := some ⟨main,check,prompt⟩ }
    | _ => none
  | .fetched body written =>
    match d.process with
    | some ⟨main,.fetching,prompt⟩ =>
      match latestRelease body with
      | some r => some { d.save (recordCheck (timestamp d.clock)) written with
          process := some ⟨main,.fetched (some r),prompt⟩ }
      | none => some { d with process := some ⟨main,.fetched none,prompt⟩ }
    | _ => none
  | .poll =>
    match d.process with
    | some ⟨main,.fetched release,_⟩ =>
      some { d with process := some ⟨main,.over,release.filter (offers current main)⟩ }
    | _ => none
  | .close =>
    match d.process with
    | some ⟨main,check,some _⟩ => some { d with process := some ⟨main,check,none⟩ }
    | _ => none
  | .skip written =>
    match d.process with
    | some ⟨main,check,some r⟩ =>
      some { d.save (skipVersion main r.tagName) written with
        process := some ⟨skipVersion main r.tagName,check,none⟩ }
    | _ => none

def next (d : SettingsStore F) : Settings := load d.file

/-- The next start reads what the main thread has. -/
def Kept (d : SettingsStore F) : Prop := ∀ p, d.process = some p → d.next = p.main

def recorded (d : SettingsStore F) : StoreEvent F → Option ℕ
  | .fetched body true => (latestRelease body).map (fun _ => d.clock)
  | _ => none

variable {current} {d d' : SettingsStore F}

@[simp] theorem next_save (d : SettingsStore F) (s : Settings) (written : Bool) :
    (d.save s written).next = if written then s else d.next := by
  cases written with
  | true => exact load_writeSettings s
  | false => rfl

@[simp] theorem clock_save (d : SettingsStore F) (s : Settings) (written : Bool) :
    (d.save s written).clock = d.clock := by
  cases written <;> rfl

theorem next_process (d : SettingsStore F) (p : Option Process) :
    { d with process := p }.next = d.next := rfl

end SettingsStore

end Limux
