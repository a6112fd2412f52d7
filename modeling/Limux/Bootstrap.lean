import Limux.Workspace
import Limux.Lib.Disk
import Limux.Lib.Machine

/-! The local cache of the daemon binary (`ensure_local_binary` of
`app/src/remote/bootstrap.rs`). Any number of calls for one platform and version share the
disk, and the curl and wget processes they start write on their own: a call that gives up
waiting leaves its process behind. -/
namespace Limux

structure ManifestEntry where
  goOs : String
  goArch : String
  downloadUrl : String
  sha256 : String
  deriving DecidableEq

structure DaemonManifest where
  entries : List ManifestEntry

def DaemonManifest.findEntry (m : DaemonManifest) (goOs goArch : String) : Option ManifestEntry :=
  m.entries.find? (fun e => e.goOs = goOs ∧ e.goArch = goArch)

inductive BootstrapError
  | downloadFailed (detail : String)
  | checksumMismatch
  | ioError (e : String)
  deriving DecidableEq

namespace Bootstrap

/-- The path in `LIMUX_REMOTE_DAEMON_BINARY` with what the disk says of it. -/
structure Override where
  path : String
  found : Bool
  mode : Except String ℕ

def Override.result (o : Override) : Except BootstrapError String :=
  if !o.found then
    .error (.downloadFailed ("LIMUX_REMOTE_DAEMON_BINARY path does not exist: " ++ o.path))
  else match o.mode with
    | .error e => .error (.ioError e)
    | .ok mode =>
      if mode &&& 0o111 = 0 then
        .error (.downloadFailed ("LIMUX_REMOTE_DAEMON_BINARY is not executable: " ++ o.path))
      else .ok o.path

/-- What the calls are about. `digest` is the SHA-256 in lower-case hexadecimal digits,
`manifest` the one of the version. -/
structure Env where
  override : Option Override
  cacheDir : String
  goOs : String
  goArch : String
  version : String
  manifest : DaemonManifest
  digest : List UInt8 → String

namespace Env

def cachedBinaryPath (env : Env) : String :=
  env.cacheDir ++ "/" ++ env.version ++ "/" ++ env.goOs ++ "-" ++ env.goArch ++ "/limuxd-remote"

def entry (env : Env) : Option ManifestEntry := env.manifest.findEntry env.goOs env.goArch

/-- The check of `verify_sha256`. -/
def matchesSha (env : Env) (data : List UInt8) (e : ManifestEntry) : Bool :=
  env.digest data = WorkspaceColor.toLowercase e.sha256

end Env

/-- The cached binary and the temporary name beside it, the same one for all calls. -/
inductive Name
  | cached | tmp
  deriving DecidableEq

inductive Tool
  | curl | wget
  deriving DecidableEq

/-- Where a call is. From the moment it has opened the temporary file for the check it goes
with that file. -/
inductive Phase
  | checking
  | loading
  | makingDir (e : ManifestEntry)
  | spawning (e : ManifestEntry) (tool : Tool)
  | waiting (e : ManifestEntry) (tool : Tool) (fetch : ℕ)
  | opening (e : ManifestEntry)
  | verifying (e : ManifestEntry) (file : ℕ) (data : List UInt8)
  | mismatched
  | verified (file : ℕ)
  | executable (file : ℕ)
  | done (r : Except BootstrapError String)

/-- A download process: the file it has opened, with its offset. -/
structure Fetch where
  dest : Option (ℕ × ℕ)
  running : Bool

structure State where
  disk : Disk Name
  modes : ℕ → ℕ
  calls : List Phase
  fetches : List Fetch

/-- A step of a call or of a download process. Errors of the system are arguments. -/
inductive Act
  | call
  | check (c : ℕ)
  | loadManifest (c : ℕ) (err : Option String)
  | createDirAll (c : ℕ) (err : Option String)
  | spawn (c : ℕ) (ok : Bool)
  | openDest (f : ℕ)
  | writeDest (f : ℕ) (piece : List UInt8)
  | exit (f : ℕ)
  | notice (c : ℕ)
  | giveUp (c : ℕ)
  | openTmp (c : ℕ) (err : Option String)
  | readTmp (c n : ℕ) (err : Option String)
  | discard (c : ℕ)
  | setPermissions (c : ℕ) (err : Option String)
  | rename (c : ℕ) (err : Option String)

def notFound : BootstrapError := .ioError "No such file or directory (os error 2)"

/-- A tool that cannot be run or has timed out: wget comes after curl. -/
def failed (e : ManifestEntry) : Tool → Phase
  | .curl => .spawning e .wget
  | .wget => .done (.error (.downloadFailed
      ("both curl and wget failed for " ++ e.downloadUrl)))

namespace State

def goto (s : State) (c : ℕ) (p : Phase) : State := { s with calls := s.calls.set c p }

/-- A system call of call `c`: its error ends the call. -/
def orFail (s : State) (c : ℕ) (err : Option String) (next : State) : State :=
  match err with
  | some e => s.goto c (.done (.error (.ioError e)))
  | none => next

def checkCache (env : Env) (s : State) (c : ℕ) : State :=
  match env.override with
  | some o => s.goto c (.done o.result)
  | none =>
    if (s.disk.names .cached).isSome then s.goto c (.done (.ok env.cachedBinaryPath))
    else s.goto c .loading

def loadManifest (env : Env) (s : State) (c : ℕ) : Option String → State
  | some detail => s.goto c (.done (.error (.downloadFailed detail)))
  | none =>
    match env.entry with
    | some e => s.goto c (.makingDir e)
    | none => s.goto c (.done (.error (.downloadFailed
        ("no manifest entry for " ++ env.goOs ++ "-" ++ env.goArch))))

def openTmp (s : State) (c : ℕ) (e : ManifestEntry) : State :=
  match s.disk.names .tmp with
  | some i => s.goto c (.verifying e i [])
  | none => s.goto c (.done (.error notFound))

def readTmp (env : Env) (s : State) (c n : ℕ) (e : ManifestEntry) (i : ℕ) (data : List UInt8) :
    State :=
  match s.disk.read i data.length n with
  | [] => if env.matchesSha data e then s.goto c (.verified i) else s.goto c .mismatched
  | piece => s.goto c (.verifying e i (data ++ piece))

/-- The permissions of whatever file has the temporary name. -/
def setPermissions (s : State) (c : ℕ) (file : ℕ) : State :=
  match s.disk.names .tmp with
  | some i => { s with modes := Function.update s.modes i 0o755 }.goto c (.executable file)
  | none => s.goto c (.done (.error notFound))

def moveIntoPlace (env : Env) (s : State) (c : ℕ) : State :=
  match s.disk.rename .tmp .cached with
  | some d => { s with disk := d }.goto c (.done (.ok env.cachedBinaryPath))
  | none => s.goto c (.done (.error notFound))

end State

def step (env : Env) (s : State) : Act → Option State
  | .call => some { s with calls := s.calls ++ [.checking] }
  | .check c =>
    match s.calls[c]? with
    | some .checking => some (s.checkCache env c)
    | _ => none
  | .loadManifest c err =>
    match s.calls[c]? with
    | some .loading => some (s.loadManifest env c err)
    | _ => none
  | .createDirAll c err =>
    match s.calls[c]? with
    | some (.makingDir e) => some (s.orFail c err (s.goto c (.spawning e .curl)))
    | _ => none
  | .spawn c ok =>
    match s.calls[c]? with
    | some (.spawning e tool) =>
      if ok then
        some ({ s with fetches := s.fetches ++ [Fetch.mk none true] }.goto c
          (.waiting e tool s.fetches.length))
      else some (s.goto c (failed e tool))
    | _ => none
  | .openDest f =>
    match s.fetches[f]? with
    | some ⟨none,true⟩ =>
      let (i,d) := s.disk.create .tmp
      some { s with disk := d, fetches := s.fetches.set f ⟨some (i,0),true⟩ }
    | _ => none
  | .writeDest f piece =>
    match s.fetches[f]? with
    | some ⟨some (i,offset),true⟩ => some { s with
        disk := s.disk.write i offset piece
        fetches := s.fetches.set f ⟨some (i,offset+piece.length),true⟩ }
    | _ => none
  | .exit f =>
    match s.fetches[f]? with
    | some ⟨dest,true⟩ => some { s with fetches := s.fetches.set f ⟨dest,false⟩ }
    | _ => none
  -- the exit status of the process is not looked at
  | .notice c =>
    match s.calls[c]? with
    | some (.waiting e _ f) =>
      match s.fetches[f]? with
      | some ⟨_,false⟩ => some (s.goto c (.opening e))
      | _ => none
    | _ => none
  | .giveUp c =>
    match s.calls[c]? with
    | some (.waiting e tool _) => some (s.goto c (failed e tool))
    | _ => none
  | .openTmp c err =>
    match s.calls[c]? with
    | some (.opening e) => some (s.orFail c err (s.openTmp c e))
    | _ => none
  | .readTmp c n err =>
    match s.calls[c]? with
    | some (.verifying e i data) =>
      if 0 < n then some (s.orFail c err (s.readTmp env c n e i data)) else none
    | _ => none
  | .discard c =>
    match s.calls[c]? with
    | some .mismatched => some ({ s with disk := s.disk.remove .tmp }.goto c
        (.done (.error .checksumMismatch)))
    | _ => none
  | .setPermissions c err =>
    match s.calls[c]? with
    | some (.verified i) => some (s.orFail c err (s.setPermissions c i))
    | _ => none
  | .rename c err =>
    match s.calls[c]? with
    | some (.executable _) => some (s.orFail c err (s.moveIntoPlace env c))
    | _ => none

end Bootstrap

end Limux
