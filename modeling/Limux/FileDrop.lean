import Mathlib.Logic.Function.Basic
import Limux.RemoteArgs
import Limux.Lib.Process
import Limux.Lib.Utf8
import Limux.Lib.Words

/-! Files dropped on a remote terminal (`app/src/remote/file_drop.rs`). -/
namespace Limux

namespace FileDrop

/-- A dropped file is named by an absolute path of any bytes. -/
structure LocalPath where
  bytes : List UInt8
  absolute : bytes.head? = some 47

/-- What the slashes stand between, without empty names and `.`. -/
def components (p : LocalPath) : List (List UInt8) :=
  (p.bytes.splitOn 47).filter (fun c => c ≠ [] ∧ c ≠ [46])

/-- `Path::file_name`: the last component, unless it is `..`. -/
def fileName (p : LocalPath) : Option (List UInt8) :=
  (components p).getLast?.filter (fun c => c ≠ [46,46])

def filename (p : LocalPath) : Text := ((fileName p).bind Utf8.decode?).getD "file".toList

def toStringLossy (p : LocalPath) : String := String.ofList (Utf8.decodeLossy p.bytes)

def remoteDir (suffix : String) : String := "/tmp/limux-drop-" ++ suffix

def remotePath (suffix : String) (p : LocalPath) : String :=
  remoteDir suffix ++ "/" ++ String.ofList (filename p)

abbrev Files (P : Type) := P → Option (List UInt8)

/-- A program with its arguments: what it does to the remote host, and how it ends if it can be
run. -/
abbrev Tool := List String → Files String → Except String ExitStatus × Files String

def buildSshArgs (config : RemoteConfiguration) (command : String) : List String :=
  config.sshBatchArgs ++ [config.destination,command]

def scpArgs (config : RemoteConfiguration) (source path : String) : List String :=
  config.scpBaseArgs ++ [source,config.destination ++ ":" ++ path]

def uploadEach (scp : Tool) (config : RemoteConfiguration) (suffix : String)
    (remotePaths : List String) (remote : Files String) :
    List LocalPath → Except String (List String) × Files String
  | [] => (.ok remotePaths,remote)
  | p :: rest =>
    match scp (scpArgs config (toStringLossy p) (remotePath suffix p)) remote with
    | (.error e,remote') => (.error ("failed to run scp: " ++ e),remote')
    | (.ok status,remote') =>
      if status.success then
        uploadEach scp config suffix (remotePaths ++ [remotePath suffix p]) remote' rest
      else
        (.error ("scp failed for " ++ toStringLossy p ++ ": status " ++ status.display),remote')

/-- `suffix` is the random part of the name of the directory. -/
def uploadFiles (ssh scp : Tool) (config : RemoteConfiguration) (suffix : String)
    (remote : Files String) (localPaths : List LocalPath) :
    Except String (List String) × Files String :=
  if localPaths = [] then (.ok [],remote)
  else
    match ssh (buildSshArgs config ("mkdir -p '" ++ remoteDir suffix ++ "'")) remote with
    | (.error e,remote') => (.error ("failed to run ssh mkdir: " ++ e),remote')
    | (.ok status,remote') =>
      if status.success then uploadEach scp config suffix [] remote' localPaths
      else (.error ("ssh mkdir failed with status " ++ status.display),remote')

/-- What `scp` is there for: if it ends well, the remote path has the content of the local file
that its argument names, and nothing else has changed. -/
def Copies (scp : Tool) (config : RemoteConfiguration) (files : Files (List UInt8)) : Prop :=
  ∀ (source path : String) (remote remote' : Files String) (status : ExitStatus),
    source.toList.head? = some '/' → path.toList.head? = some '/' →
    scp (scpArgs config source path) remote = (.ok status,remote') → status.success = true →
    ∃ content, files (Utf8.encode source.toList) = some content ∧
      remote' = Function.update remote path (some content)

/-- One remote path for each local one, all different and with the content of the local file. -/
structure Delivered (files : Files (List UInt8)) (localPaths : List LocalPath)
    (remotePaths : List String) (remote : Files String) : Prop where
  length : remotePaths.length = localPaths.length
  different : remotePaths.Nodup
  content : ∀ p ∈ localPaths.zip remotePaths, ∃ content, files p.1.bytes = some content ∧
    remote p.2 = some content

/-- The file that `scp` is told to copy. -/
def sent (files : Files (List UInt8)) (p : LocalPath) : Option (List UInt8) :=
  files (Utf8.encode (toStringLossy p).toList)

section Upload

variable {ssh scp : Tool} {config : RemoteConfiguration} {suffix : String}
  {remote remote' : Files String} {files : Files (List UInt8)} {localPaths : List LocalPath}
  {remotePaths paths : List String} {p q : LocalPath}

theorem head_toStringLossy (p : LocalPath) : (toStringLossy p).toList.head? = some '/' := by
  obtain ⟨b,t⟩ := p
  cases b with
  | nil => cases t
  | cons x b =>
    cases t
    obtain ⟨t,ht⟩ := Utf8.decodeLossy_append ['/'] b
    have hslash : Utf8.encode ['/'] ++ b = 47 :: b := rfl
    rw [toStringLossy,String.toList_ofList]
    simp only
    rw [← hslash,ht]
    rfl

/-- A path in UTF-8 names itself. -/
theorem sent_of_decode (h : Utf8.decode? p.bytes ≠ none) : sent files p = files p.bytes := by
  obtain ⟨t,ht⟩ := Option.ne_none_iff_exists'.mp h
  have hp := Utf8.encode_of_decode? ht
  rw [sent,toStringLossy,String.toList_ofList,← hp,Utf8.decodeLossy_encode]

theorem head_remotePath : (remotePath suffix p).toList.head? = some '/' := by
  simp [remotePath,remoteDir,String.toList_append]

theorem injective_inRemoteDir (suffix : String) :
    Function.Injective (fun name : Text => remoteDir suffix ++ "/" ++ String.ofList name) := by
  intro a b h
  have htoList : (remoteDir suffix ++ "/").toList ++ a = (remoteDir suffix ++ "/").toList ++ b := by
    simpa [String.toList_append] using congrArg String.toList h
  exact List.append_cancel_left htoList

theorem nodup_remotePaths :
    (localPaths.map (remotePath suffix)).Nodup ↔ (localPaths.map filename).Nodup := by
  have hmap : localPaths.map (remotePath suffix) = (localPaths.map filename).map
      (fun name : Text => remoteDir suffix ++ "/" ++ String.ofList name) := by
    rw [List.map_map]
    rfl
  rw [hmap,List.nodup_map_iff (injective_inRemoteDir suffix)]

def afterAll (files : Files (List UInt8)) (suffix : String) (remote : Files String)
    (localPaths : List LocalPath) : Files String :=
  localPaths.foldl (fun r p => Function.update r (remotePath suffix p) (sent files p)) remote

theorem uploadEach_ok (hscp : Copies scp config files)
    (h : uploadEach scp config suffix remotePaths remote localPaths = (.ok paths,remote')) :
    paths = remotePaths ++ localPaths.map (remotePath suffix) ∧
      (∀ p ∈ localPaths, sent files p ≠ none) ∧
      remote' = afterAll files suffix remote localPaths := by
  induction localPaths generalizing remotePaths remote with
  | nil =>
    cases h
    simp [afterAll]
  | cons p rest ih =>
    rw [uploadEach] at h
    rcases hrun : scp (scpArgs config (toStringLossy p) (remotePath suffix p)) remote with
      ⟨e | status,r⟩
    · rw [hrun] at h
      cases h
    · rw [hrun] at h
      simp only at h
      by_cases hs : status.success = true
      · rw [if_pos hs] at h
        obtain ⟨content,hsent,rfl⟩ :=
          hscp _ _ _ _ _ (head_toStringLossy p) head_remotePath hrun hs
        obtain ⟨hpaths,hall,hremote⟩ := ih h
        have hp : sent files p = some content := hsent
        refine ⟨by rw [hpaths]; simp,?_,?_⟩
        · intro q hq
          rcases List.mem_cons.mp hq with rfl | hq
          · rw [hp]
            simp
          · exact hall q hq
        · rw [hremote,← hp]
          rfl
      · rw [if_neg hs] at h
        cases h

theorem uploadFiles_ok (hscp : Copies scp config files)
    (h : uploadFiles ssh scp config suffix remote localPaths = (.ok paths,remote')) :
    paths = localPaths.map (remotePath suffix) ∧ (∀ p ∈ localPaths, sent files p ≠ none) ∧
      ∃ r, remote' = afterAll files suffix r localPaths := by
  rw [uploadFiles] at h
  by_cases hnil : localPaths = []
  · rw [if_pos hnil] at h
    cases h
    rw [hnil]
    exact ⟨rfl,by simp,remote,rfl⟩
  · rw [if_neg hnil] at h
    rcases hrun : ssh (buildSshArgs config ("mkdir -p '" ++ remoteDir suffix ++ "'")) remote with
      ⟨e | status,r⟩
    · rw [hrun] at h
      cases h
    · rw [hrun] at h
      simp only at h
      by_cases hs : status.success = true
      · rw [if_pos hs] at h
        obtain ⟨hpaths,hall,hremote⟩ := uploadEach_ok hscp h
        exact ⟨hpaths,hall,r,hremote⟩
      · rw [if_neg hs] at h
        cases h

theorem afterAll_of_notMem {path : String} (h : path ∉ localPaths.map (remotePath suffix)) :
    afterAll files suffix remote localPaths path = remote path := by
  induction localPaths generalizing remote with
  | nil => rfl
  | cons p rest ih =>
    rw [List.map_cons,List.mem_cons,not_or] at h
    have hstep : afterAll files suffix remote (p :: rest) = afterAll files suffix
        (Function.update remote (remotePath suffix p) (sent files p)) rest := rfl
    rw [hstep,ih h.2,Function.update_of_ne h.1]

/-- A remote path that only one file was copied to has the content of that file. -/
theorem afterAll_of_nodup (h : (localPaths.map (remotePath suffix)).Nodup) (hp : p ∈ localPaths) :
    afterAll files suffix remote localPaths (remotePath suffix p) = sent files p := by
  induction localPaths generalizing remote with
  | nil => cases hp
  | cons q rest ih =>
    rw [List.map_cons,List.nodup_cons] at h
    have hstep : afterAll files suffix remote (q :: rest) = afterAll files suffix
        (Function.update remote (remotePath suffix q) (sent files q)) rest := rfl
    rw [hstep]
    rcases List.mem_cons.mp hp with rfl | hp
    · rw [afterAll_of_notMem h.1,Function.update_self]
    · exact ih h.2 hp

theorem mem_zip_remotePaths {e : LocalPath × String} :
    e ∈ localPaths.zip (localPaths.map (remotePath suffix)) ↔
      e.1 ∈ localPaths ∧ e.2 = remotePath suffix e.1 := by
  rw [← List.map_prod_left_eq_zip,List.mem_map]
  constructor
  · rintro ⟨p,hp,rfl⟩
    exact ⟨hp,rfl⟩
  · rintro ⟨hp,he⟩
    exact ⟨e.1,hp,Prod.ext rfl he.symm⟩

/-- What a successful upload has delivered. -/
theorem uploaded_delivered_iff (hscp : Copies scp config files)
    (h : uploadFiles ssh scp config suffix remote localPaths = (.ok paths,remote')) :
    Delivered files localPaths paths remote' ↔ (localPaths.map filename).Nodup ∧
      ∀ p ∈ localPaths, Utf8.decode? p.bytes = none → sent files p = files p.bytes := by
  obtain ⟨rfl,hsent,r,rfl⟩ := uploadFiles_ok hscp h
  constructor
  · intro hd
    refine ⟨nodup_remotePaths.mp hd.different,fun p hp _ => ?_⟩
    obtain ⟨content,hfile,hremote⟩ :=
      hd.content (p,remotePath suffix p) (mem_zip_remotePaths.mpr ⟨hp,rfl⟩)
    rw [afterAll_of_nodup hd.different hp] at hremote
    rw [hremote,hfile]
  · rintro ⟨hnodup,hfiles⟩
    refine ⟨by simp,nodup_remotePaths.mpr hnodup,fun e he => ?_⟩
    obtain ⟨hp,he⟩ := mem_zip_remotePaths.mp he
    have hfile : sent files e.1 = files e.1.bytes := by
      by_cases hutf : Utf8.decode? e.1.bytes = none
      · exact hfiles e.1 hp hutf
      · exact sent_of_decode hutf
    obtain ⟨content,hcontent⟩ := Option.ne_none_iff_exists'.mp (hsent e.1 hp)
    refine ⟨content,by rw [← hfile,hcontent],?_⟩
    rw [he,afterAll_of_nodup (nodup_remotePaths.mpr hnodup) hp,hcontent]

end Upload

/-- `scp` between two hosts whose files are given. -/
def copyTool (config : RemoteConfiguration) (files : Files (List UInt8)) : Tool :=
  fun args remote =>
    match args.drop config.scpBaseArgs.length with
    | [source,target] =>
      match Text.stripPrefix (config.destination ++ ":").toList target.toList,
          files (Utf8.encode source.toList) with
      | some path, some content =>
        (.ok (.code 0),Function.update remote (String.ofList path) (some content))
      | _, _ => (.ok (.code 1),remote)
    | _ => (.ok (.code 1),remote)

theorem copies_copyTool (config : RemoteConfiguration) (files : Files (List UInt8)) :
    Copies (copyTool config files) config files := by
  intro source path remote remote' status _ _ hrun hs
  have hdrop : (scpArgs config source path).drop config.scpBaseArgs.length =
      [source,config.destination ++ ":" ++ path] := List.drop_left
  have htarget : Text.stripPrefix (config.destination ++ ":").toList
      (config.destination ++ ":" ++ path).toList = some path.toList := by
    have happend : (config.destination ++ ":" ++ path).toList =
        (config.destination ++ ":").toList ++ path.toList := String.toList_append
    rw [happend]
    exact Text.stripPrefix_append _ _
  rw [copyTool,hdrop] at hrun
  simp only [htarget] at hrun
  cases hfile : files (Utf8.encode source.toList) with
  | none =>
    rw [hfile] at hrun
    cases hrun
    cases hs
  | some content =>
    rw [hfile] at hrun
    cases hrun
    exact ⟨content,rfl,by rw [String.ofList_toList]⟩

def dropConfig : RemoteConfiguration := ⟨"host",none,none,[],none,none,none,none,none⟩

def runsWell : Tool := fun _ remote => (.ok (.code 0),remote)

def xInA : LocalPath := ⟨Utf8.encode "/a/x".toList,rfl⟩

def xInB : LocalPath := ⟨Utf8.encode "/b/x".toList,rfl⟩

def twoFiles : Files (List UInt8) := fun path =>
  if path = xInA.bytes then some [1] else if path = xInB.bytes then some [2] else none

def yInB : LocalPath := ⟨Utf8.encode "/b/y".toList,rfl⟩

def threeFiles : Files (List UInt8) := fun path =>
  if path = yInB.bytes then some [3] else twoFiles path

theorem delivered_twoNames : ∃ remote,
    uploadFiles runsWell (copyTool dropConfig threeFiles) dropConfig "0f" (fun _ => none)
      [xInA,yInB] = (.ok ["/tmp/limux-drop-0f/x","/tmp/limux-drop-0f/y"],remote) ∧
    Delivered threeFiles [xInA,yInB] ["/tmp/limux-drop-0f/x","/tmp/limux-drop-0f/y"] remote := by
  obtain ⟨remote,hrun⟩ : ∃ remote, uploadFiles runsWell (copyTool dropConfig threeFiles)
      dropConfig "0f" (fun _ => none) [xInA,yInB] =
        (.ok ["/tmp/limux-drop-0f/x","/tmp/limux-drop-0f/y"],remote) := ⟨_,rfl⟩
  refine ⟨remote,hrun,(uploaded_delivered_iff (copies_copyTool dropConfig threeFiles) hrun).mpr
    ⟨by decide,fun p hp hno => ?_⟩⟩
  rcases List.mem_pair.mp hp with rfl | rfl
  · exact absurd hno (by decide)
  · exact absurd hno (by decide)

/-- Both files are uploaded to one path, which has the content of the second. -/
theorem dropped_overwrites : xInA.bytes ≠ xInB.bytes ∧ ∃ remote,
    uploadFiles runsWell (copyTool dropConfig twoFiles) dropConfig "0f" (fun _ => none)
      [xInA,xInB] = (.ok ["/tmp/limux-drop-0f/x","/tmp/limux-drop-0f/x"],remote) ∧
    remote "/tmp/limux-drop-0f/x" = some [2] ∧
    ¬Delivered twoFiles [xInA,xInB] ["/tmp/limux-drop-0f/x","/tmp/limux-drop-0f/x"] remote := by
  refine ⟨by decide,_,rfl,rfl,fun hd => ?_⟩
  exact absurd hd.different (by decide)

end FileDrop

end Limux
