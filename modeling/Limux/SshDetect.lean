import Limux.SshCommandLine
import Limux.Lib.Ranked
import Limux.Lib.Utf8

/-! The foreground `ssh` process of a terminal (`detect` in `app/src/remote/ssh_detect.rs`),
found by reading `/proc`. -/
namespace Limux.Ssh

open Text

/-- What reading `/proc/<pid>/stat` and `/proc/<pid>/cmdline` gives. -/
structure ProcFiles where
  stat : ℤ → Option (List UInt8)
  cmdline : ℤ → Option (List UInt8)

def u32 (n : ℕ) : ℕ := n % 2^32

/-- The number of `/dev/pts/N` or `/dev/ttyN`. -/
def ttyPathToNr (ttyPath : Text) : Option ℕ :=
  match stripPrefix "/dev/pts/".toList ttyPath with
  | some n => (parseUnsigned (2^32) n).map (fun n => u32 (u32 ((136+n/256)*256)+n%256))
  | none =>
    match stripPrefix "/dev/tty".toList ttyPath with
    | some n => (parseUnsigned (2^32) n).map (fun n => u32 (4*256+n))
    | none => none

/-- The name of a process, from its arguments, if it is a process of `ssh`. -/
def sshArgs (cmdline : List UInt8) : Option (List Text) :=
  let args := ((cmdline.splitOn 0).filter (fun s => s ≠ [])).map Utf8.decodeLossy
  match args with
  | [] => none
  | exe :: _ => if afterLast '/' exe = "ssh".toList then some args else none

def inForeground (targetTtyNr : ℕ) (fields : List Text) : Option Bool := do
  let pgrp ← fields[2]?.bind (parseSigned (2^31))
  let ttyNr ← fields[4]?.bind (parseUnsigned (2^32))
  let tpgid ← fields[5]?.bind (parseSigned (2^31))
  some (ttyNr = targetTtyNr && 0 < pgrp && 0 < tpgid && pgrp = tpgid)

/-- The arguments of a foreground `ssh` process on the terminal. -/
def checkPid (files : ProcFiles) (pid : ℤ) (targetTtyNr : ℕ) : Option (List Text) := do
  let stat ← (files.stat pid).bind Utf8.decode?
  if ')' ∉ stat then none
  else
    -- behind the last `)` and the blank after it
    let fields := words ((afterLast ')' stat).drop 1)
    if fields.length < 6 then none
    else do
      let foreground ← inForeground targetTtyNr fields
      if !foreground then none
      else do
        let cmdline ← files.cmdline pid
        if cmdline = [] then none else sshArgs cmdline

/-- The number in the name of an entry of `/proc`. -/
def pidOf (name : List UInt8) : Option ℤ := (Utf8.decode? name).bind (parseSigned (2^31))

/-- The loop over the entries. It leaves the function at the first name that is no number. -/
def candidates (files : ProcFiles) (ttyNr : ℕ) :
    List (List UInt8) → Option (List (ℤ × List Text))
  | [] => some []
  | name :: names =>
    match pidOf name with
    | none => none
    | some pid =>
      (candidates files ttyNr names).map (fun l =>
        ((checkPid files pid ttyNr).map (fun args => (pid,args))).toList ++ l)

/-- `none` stands for a `/proc` that cannot be listed. -/
def detect (files : ProcFiles) (listing : Option (List (List UInt8))) (ttyPath : Text) :
    Option DetectedSSHSession :=
  match ttyPathToNr ttyPath with
  | none => none
  | some ttyNr =>
    match listing with
    | none => none
    | some names =>
      match candidates files ttyNr names with
      | none => none
      | some l => Ranked.best Prod.fst (fun c => parseSshCommandLine c.2) l

/-! What is to be found. -/

/-- The number of a device in `/proc/<pid>/stat`, as Linux puts it together. -/
def encodeDev (major minor : ℕ) : ℕ := minor%256+major*256+minor/256*1048576

/-- A terminal: its path, and its number in `/proc`. Those of `/dev/pts/N` have the major number
136, virtual consoles 4, and both the minor number `N`. -/
structure Tty where
  path : Text
  nr : ℕ
  pts : ∀ n, path = "/dev/pts/".toList ++ ofNat n → nr = encodeDev 136 n
  console : ∀ n < 64, path = "/dev/tty".toList ++ ofNat n → nr = encodeDev 4 n

/-- `/dev/pts/N` with `N` below 256, or a virtual console. -/
def Tty.Low (tty : Tty) : Prop :=
  (∃ n < 256, tty.path = "/dev/pts/".toList ++ ofNat n) ∨
    ∃ n < 64, tty.path = "/dev/tty".toList ++ ofNat n

/-- The session of a process of a terminal: a foreground `ssh` process whose command line
parses. -/
def sessionOf (files : ProcFiles) (ttyNr : ℕ) (pid : ℤ) : Option DetectedSSHSession :=
  (checkPid files pid ttyNr).bind parseSshCommandLine

/-- The result is the session of the process with the greatest number that has one; it is
missing only if there is none. -/
def Finds (files : ProcFiles) (names : List (List UInt8)) (ttyNr : ℕ)
    (r : Option DetectedSSHSession) : Prop :=
  let pids := names.filterMap pidOf
  match r with
  | none => ∀ pid ∈ pids, sessionOf files ttyNr pid = none
  | some s => ∃ pid ∈ pids, sessionOf files ttyNr pid = some s ∧
      ∀ pid' ∈ pids, pid < pid' → sessionOf files ttyNr pid' = none

/-- The processes under the number that is made of the path have what is to be found. -/
def Alike (files : ProcFiles) (names : List (List UInt8)) (tty : Tty) : Prop :=
  ∃ nr r, ttyPathToNr tty.path = some nr ∧ Finds files names nr r ∧ Finds files names tty.nr r

/-- Every entry is a number. -/
def AllPids (names : List (List UInt8)) : Prop := ∀ name ∈ names, pidOf name ≠ none

instance (names : List (List UInt8)) : Decidable (AllPids names) :=
  List.decidableBAll (fun name => pidOf name ≠ none) names

/-- Every entry is a number, and so is the path, the right one; or nothing is there, and it is
not looked for. -/
def Reached (files : ProcFiles) (tty : Tty) (names : List (List UInt8)) : Prop :=
  AllPids names ∧ (tty.Low ∨ Alike files names tty) ∨
    (¬AllPids names ∨ ttyPathToNr tty.path = none) ∧ Finds files names tty.nr none

section Detect

variable {files : ProcFiles} {names names' : List (List UInt8)} {ttyPath : Text} {ttyNr : ℕ}
  {tty : Tty} {r r' : Option DetectedSSHSession}

theorem candidates_of_allPids (h : AllPids names) : candidates files ttyNr names =
    some ((names.filterMap pidOf).filterMap (fun pid =>
      (checkPid files pid ttyNr).map (fun args => (pid,args)))) := by
  induction names with
  | nil => rfl
  | cons name names ih =>
    have hrest := ih fun name hname => h name (List.mem_cons_of_mem _ hname)
    obtain ⟨pid,hpid⟩ := Option.ne_none_iff_exists'.mp (h name List.mem_cons_self)
    rw [candidates,hpid,List.filterMap_cons_some hpid]
    simp only [hrest,Option.map_some]
    cases hcheck : checkPid files pid ttyNr with
    | none => simp [hcheck]
    | some args => simp [hcheck]

theorem candidates_of_not_allPids (h : ¬AllPids names) : candidates files ttyNr names = none := by
  induction names with
  | nil => exact absurd (by simp [AllPids]) h
  | cons name names ih =>
    rw [candidates]
    cases hpid : pidOf name with
    | none => rfl
    | some pid =>
      have hrest : ¬AllPids names := fun hall => h fun n hn => by
        rcases List.mem_cons.mp hn with rfl | hn
        · simp [hpid]
        · exact hall n hn
      simp only [ih hrest,Option.map_none]

theorem detect_of_not_allPids (h : ¬AllPids names) :
    detect files (some names) ttyPath = none := by
  unfold detect
  cases ttyPathToNr ttyPath with
  | none => rfl
  | some ttyNr => simp only [candidates_of_not_allPids h]

/-- With numbers alone in `/proc` the search is right for the number that it is made with. -/
theorem finds_of_allPids (h : AllPids names) (hnr : ttyPathToNr ttyPath = some ttyNr) :
    Finds files names ttyNr (detect files (some names) ttyPath) := by
  unfold detect
  simp only [hnr,candidates_of_allPids h]
  have hmem : ∀ pid ∈ names.filterMap pidOf, ∀ args, checkPid files pid ttyNr = some args →
      (pid,args) ∈ (names.filterMap pidOf).filterMap (fun pid =>
        (checkPid files pid ttyNr).map (fun args => (pid,args))) := by
    intro pid hpid args hargs
    exact List.mem_filterMap.mpr ⟨pid,hpid,by rw [hargs]; rfl⟩
  generalize hl : (names.filterMap pidOf).filterMap (fun pid =>
    (checkPid files pid ttyNr).map (fun args => (pid,args))) = l at hmem ⊢
  cases hbest : Ranked.best Prod.fst (fun c : ℤ × List Text => parseSshCommandLine c.2) l with
  | none =>
    intro pid hpid
    rw [sessionOf]
    cases hargs : checkPid files pid ttyNr with
    | none => rfl
    | some args => exact (Ranked.best_eq_none _ _).mp hbest _ (hmem pid hpid args hargs)
  | some s =>
    obtain ⟨⟨pid,args⟩,hin,hparse,habove⟩ := Ranked.best_eq_some _ _ hbest
    rw [← hl,List.mem_filterMap] at hin
    obtain ⟨pid',hpid',hcheck⟩ := hin
    obtain ⟨args',hargs',heq⟩ := Option.map_eq_some_iff.mp hcheck
    obtain ⟨rfl,rfl⟩ := Prod.mk.inj heq
    refine ⟨pid',hpid',?_,fun pid'' hpid'' hlt => ?_⟩
    · rw [sessionOf,hargs']
      exact hparse
    · rw [sessionOf]
      cases hargs'' : checkPid files pid'' ttyNr with
      | none => rfl
      | some args'' => exact habove _ (hmem pid'' hpid'' args'' hargs'') hlt

theorem finds_unique (h : Finds files names ttyNr r) (h' : Finds files names' ttyNr r')
    (hpids : ∀ pid, pid ∈ names.filterMap pidOf ↔ pid ∈ names'.filterMap pidOf) : r = r' := by
  cases r with
  | none =>
    cases r' with
    | none => rfl
    | some s' =>
      obtain ⟨pid,hpid,hs,-⟩ := h'
      rw [h pid ((hpids pid).mpr hpid)] at hs
      cases hs
  | some s =>
    obtain ⟨pid,hpid,hs,habove⟩ := h
    cases r' with
    | none =>
      rw [h' pid ((hpids pid).mp hpid)] at hs
      cases hs
    | some s' =>
      obtain ⟨pid',hpid',hs',habove'⟩ := h'
      rcases lt_trichotomy pid pid' with hlt | rfl | hlt
      · rw [habove pid' ((hpids pid').mpr hpid') hlt] at hs'
        cases hs'
      · rw [← hs,← hs']
      · rw [habove' pid ((hpids pid).mp hpid) hlt] at hs
        cases hs

/-- On such a terminal the number that is made of the path is the right one. -/
theorem ttyPathToNr_of_low (h : tty.Low) : ttyPathToNr tty.path = some tty.nr := by
  rcases h with ⟨n,hn,hp⟩ | ⟨n,hn,hp⟩
  · have hparse : parseUnsigned (2^32) (ofNat n) = some n := parseUnsigned_ofNat (by omega)
    rw [tty.pts n hp,hp,ttyPathToNr,stripPrefix_append]
    simp only [hparse,Option.map_some,u32,encodeDev,Option.some.injEq]
    omega
  · have hparse : parseUnsigned (2^32) (ofNat n) = some n := parseUnsigned_ofNat (by omega)
    have hpts : stripPrefix "/dev/pts/".toList ("/dev/tty".toList ++ ofNat n) = none := rfl
    rw [tty.console n hn hp,hp,ttyPathToNr,hpts,stripPrefix_append]
    simp only [hparse,Option.map_some,u32,encodeDev,Option.some.injEq]
    omega

theorem finds_detect_iff : Finds files names tty.nr (detect files (some names) tty.path) ↔
    Reached files tty names := by
  unfold Reached
  by_cases hall : AllPids names
  · cases hnr : ttyPathToNr tty.path with
    | none =>
      have hdet : detect files (some names) tty.path = none := by simp only [detect,hnr]
      have hlow : ¬tty.Low := fun h => by
        rw [ttyPathToNr_of_low h] at hnr
        cases hnr
      have hsame : ¬Alike files names tty := by
        rintro ⟨nr,r,h,-⟩
        rw [hnr] at h
        cases h
      simp only [hdet,hlow,hsame,or_self,and_false,false_or,or_true,true_and]
    | some ttyNr =>
      have hfind : Finds files names ttyNr (detect files (some names) tty.path) :=
        finds_of_allPids hall hnr
      simp only [hall,true_and,not_true_eq_false,reduceCtorEq,or_self,false_and,or_false]
      constructor
      · exact fun h => .inr ⟨ttyNr,_,hnr,hfind,h⟩
      · rintro (hlow | ⟨nr,r,h,hr,hr'⟩)
        · cases hnr.symm.trans (ttyPathToNr_of_low hlow)
          exact hfind
        · cases hnr.symm.trans h
          rw [finds_unique hfind hr (fun _ => Iff.rfl)]
          exact hr'
  · simp only [detect_of_not_allPids hall,hall,false_and,not_false_eq_true,true_or,true_and,
      false_or]

/-- `/dev/pts/N`. -/
def Tty.pty (n : ℕ) : Tty where
  path := "/dev/pts/".toList ++ ofNat n
  nr := encodeDev 136 n
  pts := fun m h => by
    have hd := congrArg digits (List.append_cancel_left h)
    rw [digits_ofNat,digits_ofNat] at hd
    rw [Option.some.inj hd]
  console := fun m _ h => by
    have h5 := congrArg (fun s : Text => s[5]?) h
    simp at h5

/-- Process 7, `ssh host` in the foreground of `/dev/pts/5`. -/
def oneProcess : ProcFiles :=
  { stat := fun pid =>
      if pid = 7 then some (Utf8.encode "7 (ssh) S 1 7 7 34821 7 0".toList) else none
    cmdline := fun pid =>
      if pid = 7 then some (Utf8.encode ("ssh".toList ++ ['\x00'] ++ "host".toList)) else none }

theorem sessionOf_oneProcess : sessionOf oneProcess (Tty.pty 5).nr 7 =
    some ⟨"host".toList,none,none,[]⟩ := by decide +kernel

end Detect

end Limux.Ssh
