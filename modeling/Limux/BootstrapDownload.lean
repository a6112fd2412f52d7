import Limux.Bootstrap
import Limux.Lib.Process
import Limux.Lib.Text
import Limux.Lib.Utf8

/-! One call of `ensure_local_binary` with the ends of the processes it runs
(`run_command`, `download_binary` and `load_manifest` of `app/src/remote/bootstrap.rs`). -/
namespace Limux.Bootstrap

/-- What becomes of a process within the timeout. -/
inductive Outcome
  | notSpawned (e : String)
  | timedOut
  | waitFailed (e : String)
  | exited (status : ExitStatus) (stdout stderr : List UInt8)
  deriving DecidableEq

structure SshOutput where
  stdout : Text
  stderr : Text
  status : ExitStatus

/-- The errors that `run_command` returns. -/
inductive CommandError
  | sshFailed (status : ExitStatus) (stderr : Text)
  | scpFailed (status : ExitStatus) (stderr : Text)
  | timeout (operation : String) (seconds : ℕ)
  | ioError (e : String)

/-- The exit status is looked at for `ssh` and `scp` only. -/
def runCommand (program : String) (seconds : ℕ) : Outcome → Except CommandError SshOutput
  | .notSpawned e => .error (.ioError e)
  | .timedOut => .error (.timeout program seconds)
  | .waitFailed e => .error (.ioError e)
  | .exited status stdout stderr =>
    if program = "ssh" ∧ ¬status.success then
      .error (.sshFailed status (Utf8.decodeLossy stderr))
    else if program = "scp" ∧ ¬status.success then
      .error (.scpFailed status (Utf8.decodeLossy stderr))
    else .ok ⟨Utf8.decodeLossy stdout,Utf8.decodeLossy stderr,status⟩

namespace Tool

def program : Tool → String
  | curl => "curl"
  | wget => "wget"

def args (url dest : String) : Tool → List String
  | curl => ["-fsSL","-o",dest,url]
  | wget => ["-q","-O",dest,url]

end Tool

/-- A process has been run, or the file of a path is made use of. -/
inductive Event
  | ran (tool : Tool) (args : List String) (outcome : Outcome)
  | used (path : String)
  deriving DecidableEq

def downloadBinary (ends : Tool → Outcome) (url dest : String) :
    Logged Event BootstrapError Unit :=
  let run (tool : Tool) := Event.ran tool (tool.args url dest) (ends tool)
  match runCommand Tool.curl.program 120 (ends .curl) with
  | .ok _ => ⟨[run .curl],.ok ()⟩
  | .error _ =>
    match runCommand Tool.wget.program 120 (ends .wget) with
    | .ok _ => ⟨[run .curl,run .wget],.ok ()⟩
    | .error _ => ⟨[run .curl,run .wget],
        .error (.downloadFailed ("both curl and wget failed for " ++ url))⟩

/-- What a call finds. `embedded` is the manifest of the build with its version, if there is one
and it can be parsed; the files are what reading the temporary files gives. -/
structure Call where
  override : Option Override
  cacheDir : String
  goOs : String
  goArch : String
  version : String
  cached : Bool
  embedded : Option (String × DaemonManifest)
  manifestFile : Except String Text
  parseManifest : Text → Except String DaemonManifest
  makeDirs : Except String Unit
  binaryFile : Except String (List UInt8)
  digest : List UInt8 → String
  setPermissions : Except String Unit
  rename : Except String Unit

/-- The two downloads of a call. -/
inductive Target
  | manifest | binary

namespace Call

variable (c : Call)

def env (m : DaemonManifest) : Env :=
  ⟨c.override,c.cacheDir,c.goOs,c.goArch,c.version,m,c.digest⟩

def path : String := (c.env ⟨[]⟩).cachedBinaryPath

def tmpPath : String := c.path ++ ".tmp"

def manifestUrl : String :=
  "https://github.com/RyantHults/limux/releases/download/limuxd-remote-v" ++ c.version ++
    "/limuxd-remote-manifest.json"

def manifestTmp : String := c.cacheDir ++ "/manifest-" ++ c.version ++ ".json.tmp"

/-- Make use of a file; `?` gives the error on. -/
def use {α : Type} (path : String) (r : Except String α) (err : String → BootstrapError) :
    Logged Event BootstrapError α := ⟨[.used path],r.mapError err⟩

def loadManifest (ends : Tool → Outcome) : Logged Event BootstrapError DaemonManifest :=
  match c.embedded.filter (fun e => e.1 = c.version) with
  | some (_,m) => pure m
  | none => do
    downloadBinary ends c.manifestUrl c.manifestTmp
    let data ← use c.manifestTmp c.manifestFile
      (fun e => .downloadFailed ("read manifest: " ++ e))
    -- the file is removed, whether that works or not
    ⟨[],(c.parseManifest data).mapError (fun e => .downloadFailed ("parse manifest: " ++ e))⟩

def verifySha256 (e : ManifestEntry) : Logged Event BootstrapError Unit := do
  let data ← use c.tmpPath c.binaryFile .ioError
  if (c.env ⟨[]⟩).matchesSha data e then pure () else ⟨[],.error .checksumMismatch⟩

def ensureLocalBinary (ends : Target → Tool → Outcome) : Logged Event BootstrapError String :=
  match c.override with
  | some o => ⟨[],o.result⟩
  | none =>
    if c.cached then pure c.path
    else do
      let manifest ← c.loadManifest (ends .manifest)
      match (c.env manifest).entry with
      | none => ⟨[],.error (.downloadFailed
          ("no manifest entry for " ++ c.goOs ++ "-" ++ c.goArch))⟩
      | some e =>
        ⟨[],c.makeDirs.mapError .ioError⟩
        downloadBinary (ends .binary) e.downloadUrl c.tmpPath
        c.verifySha256 e
        use c.tmpPath c.setPermissions .ioError
        use c.tmpPath c.rename .ioError
        pure c.path

end Call

namespace Outcome

def Succeeded : Outcome → Prop
  | exited status _ _ => status.success = true
  | _ => False

def Failed : Outcome → Prop
  | exited status _ _ => status.success = false
  | _ => False

instance : DecidablePred Succeeded
  | exited status _ _ => inferInstanceAs (Decidable (status.success = true))
  | notSpawned _ | timedOut | waitFailed _ => .isFalse id

end Outcome

namespace Event

def Uses : Event → String → Prop
  | used path, p => path = p
  | ran _ _ _, _ => False

/-- The process has ended well and its arguments name the file. -/
def Gives : Event → String → Prop
  | ran tool args outcome, p => outcome.Succeeded ∧ ∃ url, args = tool.args url p
  | used _, _ => False

end Event

/-- No file is made use of that no successful download before has written. -/
def Backed (log : List Event) : Prop := Logged.Backed Event.Uses Event.Gives [] log

/-- A download ends well only if one of the tools has, and wget is run when curl has not. -/
structure Reports (ends : Tool → Outcome) (d : Logged Event BootstrapError Unit) : Prop where
  ok : d.result = .ok () →
    ∃ tool args, .ran tool args (ends tool) ∈ d.log ∧ (ends tool).Succeeded
  tried : ¬(ends .curl).Succeeded → ∃ args, .ran .wget args (ends .wget) ∈ d.log

/-- No tool that is run ends with a status other than 0. -/
def Clean (ends : Tool → Outcome) : Prop :=
  ¬(ends .curl).Failed ∧ ((ends .curl).Succeeded ∨ ¬(ends .wget).Failed)

section Download

variable {ends : Tool → Outcome} {url dest : String} {c : Call} {seen : List Event}

theorem runCommand_ok {tool : Tool} {n : ℕ} {o : Outcome} :
    (∃ r, runCommand tool.program n o = .ok r) ↔ o.Succeeded ∨ o.Failed := by
  have hssh : tool.program ≠ "ssh" := by cases tool <;> decide
  have hscp : tool.program ≠ "scp" := by cases tool <;> decide
  cases o with
  | notSpawned e | timedOut | waitFailed e =>
    simp [runCommand,Outcome.Succeeded,Outcome.Failed]
  | exited status stdout stderr =>
    have hs : status.success = true ∨ status.success = false := by
      cases status.success <;> simp
    simp [runCommand,hssh,hscp,Outcome.Succeeded,Outcome.Failed,hs]

theorem runCommand_error {tool : Tool} {n : ℕ} {o : Outcome} {e : CommandError}
    (h : runCommand tool.program n o = .error e) : ¬o.Succeeded ∧ ¬o.Failed := by
  have hnot : ¬∃ r, runCommand tool.program n o = .ok r := by simp [h]
  rw [runCommand_ok,not_or] at hnot
  exact hnot

theorem not_failed_of_succeeded {o : Outcome} (h : o.Succeeded) : ¬o.Failed := by
  cases o with
  | exited status stdout stderr => simp [Outcome.Failed,show status.success = true from h]
  | notSpawned e | timedOut | waitFailed e => exact id

/-- The download does as it should just when no tool it runs ends with a status other than 0. -/
theorem reports_iff : Reports ends (downloadBinary ends url dest) ↔ Clean ends := by
  rw [downloadBinary]
  cases hcurl : runCommand Tool.curl.program 120 (ends .curl) with
  | ok r =>
    simp only
    constructor
    · intro h
      obtain ⟨tool,args,hran,hs⟩ := h.ok rfl
      cases List.mem_singleton.mp hran
      exact ⟨not_failed_of_succeeded hs,.inl hs⟩
    · rintro ⟨hfailed,-⟩
      have hs := (runCommand_ok.mp ⟨r,hcurl⟩).resolve_right hfailed
      exact ⟨fun _ => ⟨.curl,_,List.mem_singleton_self _,hs⟩,fun hnot => absurd hs hnot⟩
  | error e =>
    obtain ⟨hs,hfailed⟩ := runCommand_error hcurl
    cases hwget : runCommand Tool.wget.program 120 (ends .wget) with
    | ok r =>
      simp only
      constructor
      · intro h
        obtain ⟨tool,args,hran,hwin⟩ := h.ok rfl
        cases tool with
        | curl => exact absurd hwin hs
        | wget => exact ⟨hfailed,.inr (not_failed_of_succeeded hwin)⟩
      · rintro ⟨-,hclean⟩
        have hwin := (runCommand_ok.mp ⟨r,hwget⟩).resolve_right (hclean.resolve_left hs)
        exact ⟨fun _ => ⟨.wget,_,List.mem_cons_of_mem _ (List.mem_singleton_self _),hwin⟩,
          fun _ => ⟨_,List.mem_cons_of_mem _ (List.mem_singleton_self _)⟩⟩
    | error e' =>
      simp only
      constructor
      · intro _
        exact ⟨hfailed,.inr (runCommand_error hwget).2⟩
      · intro _
        exact ⟨nofun,fun _ => ⟨_,List.mem_cons_of_mem _ (List.mem_singleton_self _)⟩⟩

theorem mem_log_downloadBinary {e : Event} (h : e ∈ (downloadBinary ends url dest).log) :
    ∃ tool, e = .ran tool (tool.args url dest) (ends tool) := by
  rw [downloadBinary] at h
  cases hcurl : runCommand Tool.curl.program 120 (ends .curl) with
  | ok r =>
    rw [hcurl] at h
    exact ⟨.curl,List.mem_singleton.mp h⟩
  | error e' =>
    rw [hcurl] at h
    have hboth : e = .ran .curl (Tool.curl.args url dest) (ends .curl) ∨
        e = .ran .wget (Tool.wget.args url dest) (ends .wget) := by
      cases hwget : runCommand Tool.wget.program 120 (ends .wget) <;> simpa [hwget] using h
    rcases hboth with rfl | rfl
    · exact ⟨.curl,rfl⟩
    · exact ⟨.wget,rfl⟩

theorem backed_downloadBinary : Logged.Backed Event.Uses Event.Gives seen
    (downloadBinary ends url dest).log := by
  apply Logged.backed_of_not_uses
  intro e he p
  obtain ⟨tool,rfl⟩ := mem_log_downloadBinary he
  exact id

/-- A clean download that has ended well has written its file. -/
theorem gives_of_clean (h : Clean ends) (hok : (downloadBinary ends url dest).result = .ok ()) :
    ∃ e ∈ seen ++ (downloadBinary ends url dest).log, Event.Gives e dest := by
  obtain ⟨tool,args,hran,hs⟩ := (reports_iff.mpr h).ok hok
  obtain ⟨tool',heq⟩ := mem_log_downloadBinary hran
  cases heq
  exact ⟨_,List.mem_append_right _ hran,hs,url,rfl⟩

theorem backed_use {α : Type} {path : String} {r : Except String α} {err : String → BootstrapError}
    (h : ∃ e ∈ seen, Event.Gives e path) :
    Logged.Backed Event.Uses Event.Gives seen (Call.use path r err).log := by
  apply Logged.backed_singleton
  rintro p rfl
  exact h

theorem gives_mono {more : List Event} (h : ∃ e ∈ seen, Event.Gives e dest) :
    ∃ e ∈ seen ++ more, Event.Gives e dest := by
  obtain ⟨e,he,hgives⟩ := h
  exact ⟨e,List.mem_append_left _ he,hgives⟩

theorem backed_loadManifest (h : Clean ends) : Backed (c.loadManifest ends).log := by
  rw [Call.loadManifest]
  split
  · exact Logged.backed_nil
  · refine backed_downloadBinary.bind fun _ hok => ?_
    exact (backed_use (gives_of_clean h hok)).bind fun data _ => Logged.backed_nil

theorem backed_verifySha256 {e : ManifestEntry} (h : ∃ e ∈ seen, Event.Gives e c.tmpPath) :
    Logged.Backed Event.Uses Event.Gives seen (c.verifySha256 e).log := by
  refine (backed_use h).bind fun data _ => ?_
  split <;> exact Logged.backed_nil

theorem backed_ensureLocalBinary {ends : Target → Tool → Outcome}
    (h : ∀ target, Clean (ends target)) : Backed (c.ensureLocalBinary ends).log := by
  rw [Call.ensureLocalBinary]
  split
  · exact Logged.backed_nil
  · split_ifs
    · exact Logged.backed_nil
    · refine (backed_loadManifest (h .manifest)).bind fun m _ => ?_
      split
      · exact Logged.backed_nil
      · refine Logged.backed_nil.bind fun _ _ => ?_
        refine backed_downloadBinary.bind fun _ hok => ?_
        -- from here on the temporary file is a downloaded one
        apply Logged.Backed.bind (backed_verifySha256 (gives_of_clean (h .binary) hok))
        intro _ _
        apply Logged.Backed.bind (backed_use (gives_mono (gives_of_clean (h .binary) hok)))
        intro _ _
        apply Logged.Backed.bind
          (backed_use (gives_mono (gives_mono (gives_of_clean (h .binary) hok))))
        exact fun _ _ => Logged.backed_nil

/-- A call reports every failed download, and makes use of no file that no download has written,
just when no tool that is run ends with a status other than 0. -/
theorem downloads_reported_iff (ends : Target → Tool → Outcome) :
    ((∀ target url dest, Reports (ends target) (downloadBinary (ends target) url dest)) ∧
      ∀ c : Call, Backed (c.loadManifest (ends .manifest)).log ∧
        Backed (c.ensureLocalBinary ends).log) ↔
    ∀ target, Clean (ends target) := by
  constructor
  · rintro ⟨h,-⟩ target
    exact reports_iff.mp (h target "" "")
  · intro h
    exact ⟨fun target url dest => reports_iff.mpr (h target),
      fun c => ⟨backed_loadManifest (h .manifest),backed_ensureLocalBinary h⟩⟩

end Download

/-- The server answers 404, and curl ends with status 22. -/
def notFoundEnds : Tool → Outcome
  | .curl => .exited (.code 22) [] []
  | .wget => .exited (.code 0) [] []

/-- A call that finds nothing but an old file of the manifest's temporary name. -/
def staleCall : Call where
  override := none
  cacheDir := "/c"
  goOs := "linux"
  goArch := "amd64"
  version := "1"
  cached := false
  embedded := none
  manifestFile := .ok []
  parseManifest := fun _ => .ok ⟨[]⟩
  makeDirs := .ok ()
  binaryFile := .ok []
  digest := fun _ => ""
  setPermissions := .ok ()
  rename := .ok ()

/-- wget is not tried, and the call goes on with the old file. -/
theorem notFound_accepted :
    (downloadBinary notFoundEnds "u" "/d").result = .ok () ∧
    (downloadBinary notFoundEnds "u" "/d").log =
      [.ran .curl ["-fsSL","-o","/d","u"] (.exited (.code 22) [] [])] ∧
    ¬Reports notFoundEnds (downloadBinary notFoundEnds "u" "/d") ∧
    ¬Backed (staleCall.loadManifest notFoundEnds).log := by
  refine ⟨rfl,rfl,?_,?_⟩
  · rw [reports_iff]
    rintro ⟨hfailed,-⟩
    exact hfailed rfl
  · intro h
    obtain ⟨g,hg,hgives⟩ := h [.ran .curl (Tool.curl.args staleCall.manifestUrl
      staleCall.manifestTmp) (notFoundEnds .curl)] (.used staleCall.manifestTmp) [] rfl _ rfl
    cases List.mem_singleton.mp hg
    exact absurd hgives.1 (by decide)

end Limux.Bootstrap
