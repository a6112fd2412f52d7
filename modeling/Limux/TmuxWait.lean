import Mathlib.Tactic.NormNum
import Limux.TmuxGetopt
import Limux.Lib.Number

/-! `wait-for` (`tmuxWaitFor` in `tmux_compat.go`): what a command line asks for, and the runs of
waiters and signals that meet at files in `/tmp`. -/
namespace Limux.Tmux

/-- `Sscanf` of a number in white space; what starts with a minus is not positive. -/
structure FloatReader where
  read : Text → ℚ
  read_nil : read [] ≤ 0
  read_minus : ∀ s, read ('-' :: s) ≤ 0

/-- Letters, digits, `.`, `_` and `-` stay in the name of a file. -/
def sanitizeChar (c : Char) : Char :=
  if ('a' ≤ c ∧ c ≤ 'z') ∨ ('A' ≤ c ∧ c ≤ 'Z') ∨ ('0' ≤ c ∧ c ≤ '9') ∨ c = '.' ∨ c = '_' ∨ c = '-'
  then c else '_'

def waitForSignalPath (name : Text) : Text :=
  "/tmp/limux-wait-for-".toList ++ name.map sanitizeChar ++ ".sig".toList

theorem waitForSignalPath_eq_iff {m n : Text} :
    waitForSignalPath m = waitForSignalPath n ↔ m.map sanitizeChar = n.map sanitizeChar := by
  have h : ∀ l : Text, waitForSignalPath l =
      "/tmp/limux-wait-for-".toList ++ l.map sanitizeChar ++ ".sig".toList := fun _ => rfl
  rw [h,h,List.append_left_inj]
  exact List.append_right_inj _

inductive WaitFor
  | missingName
  | signal (name : Text)
  | wait (name : Text) (timeout : ℚ)
  deriving DecidableEq

/-- The first positional argument that does not start with a dash. -/
def waitName (p : Parsed) : Text :=
  (p.positional.find? (fun pos => !(['-'].isPrefixOf pos))).getD []

def waitTimeout (R : FloatReader) (p : Parsed) : ℚ :=
  let timeout := p.value "--timeout".toList
  if timeout ≠ [] ∧ 0 < R.read timeout then R.read timeout else 30

def waitFor (R : FloatReader) (args : List Text) : WaitFor :=
  let p := parseTmuxArgs .waitFor args
  if waitName p = [] then .missingName
  else if p.hasFlag "-S".toList then .signal (waitName p)
  else .wait (waitName p) (waitTimeout R p)

/-! The forms of the command. -/

/-- Where the timeout stands. -/
inductive Timeout
  | absent
  | before (t : Text)
  | after (t : Text)

namespace Timeout

def seconds (R : FloatReader) : Timeout → ℚ
  | absent => 30
  | before t => R.read t
  | after t => R.read t

/-- A timeout that is given is positive. -/
def Positive (R : FloatReader) (timeout : Timeout) : Prop := 0 < timeout.seconds R

end Timeout

def waitArgs (name : Text) : Timeout → List Text
  | .absent => [name]
  | .before t => ["--timeout".toList,t,name]
  | .after t => [name,"--timeout".toList,t]

def signalArgs (name : Text) : List Text := ["-S".toList,name]

/-- A name that can be told from an option. -/
def Named (name : Text) : Prop := name ≠ [] ∧ name.head? ≠ some '-'

instance (name : Text) : Decidable (Named name) := inferInstanceAs (Decidable (_ ∧ _))

/-- What the timeout must be for a command to be taken as it is meant. -/
def Timeout.Fits (R : FloatReader) (name : Text) : Timeout → Prop
  | .absent => True
  | .before t => t = name ∧ R.read t = 30
  | .after t => R.read t = 30

section Arguments

variable {R : FloatReader} {name t : Text}

theorem named_iff : Named name ↔ ∃ c s, name = c :: s ∧ c ≠ '-' := by
  cases name with
  | nil => simp [Named]
  | cons c s => simp [Named]

theorem Named.leaves (h : Named name) : Tables.waitFor.Leaves name := by
  obtain ⟨c,s,rfl,hc⟩ := named_iff.mp h
  exact ⟨by simp [hc],.inl (.inl (by simpa using hc))⟩

theorem Named.touched (h : Named name) : Tables.waitFor.touched name = [] := by
  obtain ⟨c,s,rfl,hc⟩ := named_iff.mp h
  exact if_pos (.inl (by simpa using hc))

theorem Named.not_dash (h : Named name) : ['-'].isPrefixOf name = false := by
  obtain ⟨c,s,rfl,hc⟩ := named_iff.mp h
  have hc' : '-' ≠ c := fun h => hc h.symm
  simp [List.isPrefixOf,hc']

/-- Only options of one letter get a value. -/
theorem options_scanCluster {T : Tables} {f : Text} (hf : ∀ c, f ≠ ['-',c]) (next : Option Text)
    (p : Parsed) (r : Bool) (cs : Text) :
    (scanCluster T next p r cs).parsed.options f = p.options f := by
  induction cs generalizing p r with
  | nil => rfl
  | cons c cs ih =>
    rw [scanCluster]
    split_ifs
    · exact ih _ _
    · exact Function.update_of_ne (hf c) _ _
    · cases next with
      | none => exact Function.update_of_ne (hf c) _ _
      | some v => exact Function.update_of_ne (hf c) _ _
    · rfl

theorem options_parseArg {T : Tables} {f : Text} (hf : ∀ c, f ≠ ['-',c]) (next : Option Text)
    (p : Parsed) (arg : Text) : (parseArg T next p arg).1.options f = p.options f := by
  rw [parseArg]
  split_ifs
  · rfl
  · rfl
  · have hscan := options_scanCluster (T := T) hf next p false arg.tail
    simp only
    split_ifs
    · exact hscan
    · exact hscan

theorem options_parseFrom {T : Tables} {f : Text} (hf : ∀ c, f ≠ ['-',c]) (p : Parsed)
    (skip : Bool) (args : List Text) : (parseFrom T p skip args).options f = p.options f := by
  induction args generalizing p skip with
  | nil => rfl
  | cons arg args ih =>
    rw [parseFrom]
    split_ifs
    · exact ih p false
    · rfl
    · exact (ih _ _).trans (options_parseArg hf _ p arg)

/-- No argument sets the value of `--timeout`, so the timeout is always the one by default. -/
theorem waitTimeout_eq (R : FloatReader) (args : List Text) :
    waitTimeout R (parseTmuxArgs .waitFor args) = 30 := by
  have hopt : (parseTmuxArgs .waitFor args).options "--timeout".toList = [] :=
    options_parseFrom (by simp) .empty false args
  have hval : (parseTmuxArgs .waitFor args).value "--timeout".toList = [] := by
    rw [Parsed.value,hopt]
    rfl
  rw [waitTimeout]
  simp only [hval]
  exact if_neg (fun h => h.1 rfl)

theorem named_waitName {p : Parsed} (h : waitName p ≠ []) : Named (waitName p) := by
  refine ⟨h,?_⟩
  unfold waitName at h ⊢
  cases hfind : p.positional.find? (fun pos => !(['-'].isPrefixOf pos)) with
  | none => simp [hfind] at h
  | some pos =>
    have hpos := List.find?_some hfind
    rw [Option.getD_some]
    rintro hd
    obtain ⟨s,rfl⟩ := List.head?_eq_some_iff.mp hd
    simp at hpos

/-- Whatever the arguments, a wait is for a name that is no option, with the timeout by
default. -/
theorem waitFor_wait {args : List Text} {timeout : ℚ}
    (h : waitFor R args = .wait name timeout) : Named name ∧ timeout = 30 := by
  rw [waitFor] at h
  split_ifs at h with hname hflag
  cases h
  exact ⟨named_waitName hname,waitTimeout_eq R args⟩

/-- Arguments none of which is an option. -/
theorem parse_of_leaves {args : List Text} (h : ∀ w ∈ args, Tables.waitFor.Leaves w)
    (ht : ∀ w ∈ args, Tables.waitFor.touched w = []) :
    parseTmuxArgs .waitFor args = { Parsed.empty with positional := args } := by
  have htouched : args.flatMap Tables.waitFor.touched = [] := List.flatMap_eq_nil_iff.mpr ht
  rw [parseTmuxArgs,parseFrom_all_leaves h,htouched]
  rfl

/-- The first of such arguments that is no option is waited for. -/
theorem waitFor_of_leaves {args : List Text} (h : ∀ w ∈ args, Tables.waitFor.Leaves w)
    (ht : ∀ w ∈ args, Tables.waitFor.touched w = [])
    (hn : args.find? (fun pos => !(['-'].isPrefixOf pos)) = some name) (hname : Named name) :
    waitFor R args = .wait name 30 := by
  have hw : waitName (parseTmuxArgs .waitFor args) = name := by
    rw [parse_of_leaves h ht,waitName,hn,Option.getD_some]
  have hflag : (parseTmuxArgs .waitFor args).hasFlag "-S".toList = false := by
    rw [parse_of_leaves h ht]
    rfl
  rw [waitFor]
  simp only [hw,hflag,waitTimeout_eq]
  rw [if_neg hname.1,if_neg (by simp)]

/-- A positive timeout can be told from an option. -/
theorem named_of_positive (h : 0 < R.read t) : Named t := by
  cases t with
  | nil => exact absurd h (Rat.not_lt.mpr R.read_nil)
  | cons c s =>
    refine named_iff.mpr ⟨c,s,rfl,?_⟩
    rintro rfl
    exact absurd h (Rat.not_lt.mpr (R.read_minus s))

theorem leaves_dashes : Tables.waitFor.Leaves "--timeout".toList ∧
    Tables.waitFor.touched "--timeout".toList = [] := by decide

/-- What a command waits for. -/
theorem waitFor_waitArgs {timeout : Timeout} (hpos : timeout.Positive R) (hname : Named name) :
    waitFor R (waitArgs name timeout) =
      .wait (match timeout with
        | .absent => name
        | .before t => t
        | .after _ => name) 30 := by
  cases timeout with
  | absent =>
    refine waitFor_of_leaves ?_ ?_ ?_ hname
    · simpa [waitArgs] using hname.leaves
    · simpa [waitArgs] using hname.touched
    · simp [waitArgs,hname.not_dash]
  | before t =>
    have ht := named_of_positive hpos
    refine waitFor_of_leaves ?_ ?_ ?_ ht
    · simpa [waitArgs] using ⟨leaves_dashes.1,ht.leaves,hname.leaves⟩
    · simpa [waitArgs] using ⟨leaves_dashes.2,ht.touched,hname.touched⟩
    · simp [waitArgs,ht.not_dash]
  | after t =>
    have ht := named_of_positive hpos
    refine waitFor_of_leaves ?_ ?_ ?_ hname
    · simpa [waitArgs] using ⟨hname.leaves,leaves_dashes.1,ht.leaves⟩
    · simpa [waitArgs] using ⟨hname.touched,leaves_dashes.2,ht.touched⟩
    · simp [waitArgs,hname.not_dash]

/-- A command is taken as it is meant just with a name that is no option and no timeout, or one
that makes no difference. -/
theorem waitFor_asked_iff {timeout : Timeout} (hpos : timeout.Positive R) :
    waitFor R (waitArgs name timeout) = .wait name (timeout.seconds R) ↔
      Named name ∧ timeout.Fits R name := by
  constructor
  · intro h
    obtain ⟨hname,hsec⟩ := waitFor_wait h
    refine ⟨hname,?_⟩
    rw [waitFor_waitArgs hpos hname] at h
    cases timeout with
    | absent => trivial
    | before t =>
      obtain ⟨ht,-⟩ := WaitFor.wait.inj h
      exact ⟨ht,hsec⟩
    | after t => exact hsec
  · rintro ⟨hname,hfits⟩
    rw [waitFor_waitArgs hpos hname]
    cases timeout with
    | absent => rfl
    | before t =>
      obtain ⟨rfl,ht⟩ := hfits
      exact congrArg _ ht.symm
    | after t => exact congrArg _ (Eq.symm hfits)

theorem waitFor_signalArgs (hname : Named name) :
    waitFor R (signalArgs name) = .signal name := by
  have hp : parseTmuxArgs .waitFor (signalArgs name) =
      { Parsed.empty.setFlag "-S".toList with positional := [name] } := by
    have hs : parseTmuxArgs .waitFor (signalArgs name) =
        parseFrom .waitFor (Parsed.empty.setFlag "-S".toList) false [name] := rfl
    have hl : ∀ w ∈ [name], Tables.waitFor.Leaves w := by simpa using hname.leaves
    rw [hs,parseFrom_all_leaves hl]
    simp [hname.touched,Parsed.setFlag,Parsed.empty]
  have hw : waitName (parseTmuxArgs .waitFor (signalArgs name)) = name := by
    rw [hp,waitName,List.find?_cons_of_pos (by simp [hname.not_dash]),Option.getD_some]
  have hflag : (parseTmuxArgs .waitFor (signalArgs name)).hasFlag "-S".toList = true := by
    rw [hp]
    simp [Parsed.hasFlag,Parsed.setFlag]
  rw [waitFor]
  simp only [hw,hflag]
  rw [if_neg hname.1,if_pos trivial]

end Arguments

/-! Runs of the commands. -/

/-- A `wait-for` that polls: the name it was asked to wait for, the file and the time it waits
until. -/
structure Waiter where
  asked : Text
  timeout : Timeout
  started : ℚ
  path : Text
  deadline : ℚ

structure WaitState where
  now : ℚ
  files : List Text
  waiting : List Waiter
  /-- The names of all commands so far, those that were signalled, and those of the waits that
  ended with success. -/
  names : List Text
  signalled : List Text
  released : List Text

inductive WaitEvent
  | signal (name : Text)
  | wait (name : Text) (timeout : Timeout)
  | poll (i : ℕ)
  | clock (now : ℚ)

namespace WaitState

def start : WaitState := ⟨0,[],[],[],[],[]⟩

variable (R : FloatReader) (s : WaitState)

def createFile (name : Text) : WaitState :=
  { s with files := waitForSignalPath name :: s.files }

/-- `wait-for -S name` is run. -/
def runSignal (name : Text) : WaitState :=
  let s := { s with names := name :: s.names, signalled := name :: s.signalled }
  match waitFor R (signalArgs name) with
  | .missingName => s
  | .signal m => s.createFile m
  | .wait m timeout =>
    { s with waiting := ⟨name,.absent,s.now,waitForSignalPath m,s.now+timeout⟩ :: s.waiting }

def runWait (name : Text) (timeout : Timeout) : WaitState :=
  let s := { s with names := name :: s.names }
  match waitFor R (waitArgs name timeout) with
  | .missingName => s
  | .signal m => { s.createFile m with released := name :: s.released }
  | .wait m seconds =>
    { s with waiting := ⟨name,timeout,s.now,waitForSignalPath m,s.now+seconds⟩ :: s.waiting }

/-- A waiter looks for its file; it removes the file and ends, or ends at its deadline. -/
def pollWaiter (i : ℕ) : WaitState :=
  match s.waiting[i]? with
  | none => s
  | some w =>
    if s.now < w.deadline then
      if w.path ∈ s.files then
        { s with
          files := s.files.filter (fun f => f ≠ w.path)
          waiting := s.waiting.eraseIdx i
          released := w.asked :: s.released }
      else s
    else { s with waiting := s.waiting.eraseIdx i }

def step : WaitEvent → WaitState
  | .signal name => s.runSignal R name
  | .wait name timeout => s.runWait R name timeout
  | .poll i => s.pollWaiter i
  | .clock now => { s with now := max s.now now }

def run (s : WaitState) (es : List WaitEvent) : WaitState := es.foldl (step R) s

/-- Every wait that ended with success was for a name that was signalled, and every wait that
goes on is for its own name and ends with its own timeout. -/
structure Kept : Prop where
  released : ∀ n ∈ s.released, n ∈ s.signalled
  waiting : ∀ w ∈ s.waiting,
    w.path = waitForSignalPath w.asked ∧ w.deadline = w.started+w.timeout.seconds R

/-- The name has no file in common with another name of the run. -/
def Apart (name : Text) : Prop :=
  ∀ m ∈ s.names, m.map sanitizeChar = name.map sanitizeChar → m = name

end WaitState

/-- A command whose name is no option and shares no file with another, and whose timeout makes
no difference. -/
def WaitEvent.Meets (R : FloatReader) (s : WaitState) : WaitEvent → Prop
  | .signal name => Named name ∧ s.Apart name
  | .wait name timeout =>
    timeout.Positive R ∧ Named name ∧ timeout.Fits R name ∧ s.Apart name
  | .poll _ => True
  | .clock _ => True

def AllMeet (R : FloatReader) : WaitState → List WaitEvent → Prop
  | _,[] => True
  | s,e :: es => e.Meets R s ∧ AllMeet R (s.step R e) es

namespace WaitState

variable {R : FloatReader} {s : WaitState} {name : Text} {timeout : Timeout}

/-- What holds of a run whose commands meet the condition. -/
structure Sound (R : FloatReader) (s : WaitState) : Prop extends Kept R s where
  apart : ∀ a ∈ s.names, s.Apart a
  files : ∀ f ∈ s.files, ∃ m ∈ s.signalled, f = waitForSignalPath m
  signalled : ∀ m ∈ s.signalled, m ∈ s.names
  asked : ∀ w ∈ s.waiting, w.asked ∈ s.names

theorem sound_start : start.Sound R :=
  { released := by simp [start]
    waiting := by simp [start]
    apart := by simp [start]
    files := by simp [start]
    signalled := by simp [start]
    asked := by simp [start] }

theorem apart_cons (h : ∀ a ∈ s.names, s.Apart a) (ha : s.Apart name) :
    ∀ a ∈ name :: s.names, ∀ m ∈ name :: s.names,
      m.map sanitizeChar = a.map sanitizeChar → m = a := by
  intro a hin m hm heq
  rcases List.mem_cons.mp hin with rfl | hold
  · rcases List.mem_cons.mp hm with rfl | hm
    · rfl
    · exact ha m hm heq
  · rcases List.mem_cons.mp hm with rfl | hm
    · exact (ha a hold heq.symm).symm
    · exact h a hold m hm heq

theorem Sound.runSignal (h : s.Sound R) (hname : Named name) (ha : s.Apart name) :
    (s.runSignal R name).Sound R := by
  rw [WaitState.runSignal,waitFor_signalArgs hname]
  exact
    { released := fun n hn => List.mem_cons_of_mem _ (h.released n hn)
      waiting := h.waiting
      apart := apart_cons h.apart ha
      files := by
        intro f hf
        rcases List.mem_cons.mp hf with rfl | hf
        · exact ⟨name,List.mem_cons_self,rfl⟩
        · obtain ⟨m,hm,rfl⟩ := h.files f hf
          exact ⟨m,List.mem_cons_of_mem _ hm,rfl⟩
      signalled := by
        intro m hm
        rcases List.mem_cons.mp hm with rfl | hm
        · exact List.mem_cons_self
        · exact List.mem_cons_of_mem _ (h.signalled m hm)
      asked := fun w hw => List.mem_cons_of_mem _ (h.asked w hw) }

theorem Sound.runWait (h : s.Sound R) (hpos : timeout.Positive R) (hname : Named name)
    (hfits : timeout.Fits R name) (ha : s.Apart name) : (s.runWait R name timeout).Sound R := by
  rw [WaitState.runWait,(waitFor_asked_iff hpos).mpr ⟨hname,hfits⟩]
  exact
    { released := h.released
      waiting := by
        intro w hw
        rcases List.mem_cons.mp hw with rfl | hw
        · exact ⟨rfl,rfl⟩
        · exact h.waiting w hw
      apart := apart_cons h.apart ha
      files := h.files
      signalled := fun m hm => List.mem_cons_of_mem _ (h.signalled m hm)
      asked := by
        intro w hw
        rcases List.mem_cons.mp hw with rfl | hw
        · exact List.mem_cons_self
        · exact List.mem_cons_of_mem _ (h.asked w hw) }

/-- A waiter that ends is gone from the list, whatever else happens to the files. -/
theorem Sound.leave (h : s.Sound R) {files released : List Text} {i : ℕ}
    (hf : ∀ f ∈ files, f ∈ s.files) (hr : ∀ n ∈ released, n ∈ s.signalled) :
    { s with
      files := files
      waiting := s.waiting.eraseIdx i
      released := released }.Sound R :=
  { released := hr
    waiting := fun w hw => h.waiting w (List.mem_of_mem_eraseIdx hw)
    apart := h.apart
    files := fun f hmem => h.files f (hf f hmem)
    signalled := h.signalled
    asked := fun w hw => h.asked w (List.mem_of_mem_eraseIdx hw) }

/-- The file a waiter finds is the one of its own name. -/
theorem Sound.pollWaiter (h : s.Sound R) (i : ℕ) : (s.pollWaiter i).Sound R := by
  unfold WaitState.pollWaiter
  cases hw : s.waiting[i]? with
  | none => exact h
  | some w =>
    have hmem : w ∈ s.waiting := List.mem_of_getElem? hw
    simp only
    split_ifs with htime hfile
    · refine h.leave (fun f hf => (List.mem_filter.mp hf).1) ?_
      intro n hn
      rcases List.mem_cons.mp hn with rfl | hn
      · obtain ⟨m,hm,hpath⟩ := h.files w.path hfile
        rw [(h.waiting w hmem).1,waitForSignalPath_eq_iff] at hpath
        rwa [h.apart m (h.signalled m hm) w.asked (h.asked w hmem) hpath]
      · exact h.released n hn
    · exact h
    · exact h.leave (fun f hf => hf) h.released

theorem Sound.step (h : s.Sound R) {e : WaitEvent} (he : e.Meets R s) : (s.step R e).Sound R := by
  cases e with
  | signal name => exact h.runSignal he.1 he.2
  | wait name timeout =>
    obtain ⟨hpos,hname,hfits,ha⟩ := he
    exact h.runWait hpos hname hfits ha
  | poll i => exact h.pollWaiter i
  | clock now =>
    exact
      { released := h.released
        waiting := h.waiting
        apart := h.apart
        files := h.files
        signalled := h.signalled
        asked := h.asked }

theorem Sound.run (h : s.Sound R) {es : List WaitEvent} (hes : AllMeet R s es) :
    (s.run R es).Sound R := by
  induction es generalizing s with
  | nil => exact h
  | cons e es ih => exact ih (h.step hes.1) hes.2

theorem signalled_step {n : Text} {e : WaitEvent} (h : n ∈ (s.step R e).signalled) :
    n ∈ s.signalled ∨ e = .signal n := by
  cases e with
  | signal name =>
    have hs : (s.runSignal R name).signalled = name :: s.signalled := by
      unfold WaitState.runSignal
      cases waitFor R (signalArgs name) <;> rfl
    rw [WaitState.step,hs] at h
    rcases List.mem_cons.mp h with rfl | h
    · exact .inr rfl
    · exact .inl h
  | wait name timeout =>
    have hs : (s.runWait R name timeout).signalled = s.signalled := by
      unfold WaitState.runWait
      cases waitFor R (waitArgs name timeout) <;> rfl
    exact .inl (hs ▸ h)
  | poll i =>
    have hs : (s.pollWaiter i).signalled = s.signalled := by
      unfold WaitState.pollWaiter
      split
      · rfl
      · split_ifs <;> rfl
    exact .inl (hs ▸ h)
  | clock now => exact .inl h

theorem signalled_run {n : Text} {es : List WaitEvent} (h : n ∈ (s.run R es).signalled) :
    n ∈ s.signalled ∨ .signal n ∈ es := by
  induction es generalizing s with
  | nil => exact .inl h
  | cons e es ih =>
    rcases ih h with h | h
    · rcases signalled_step h with h | rfl
      · exact .inl h
      · exact .inr List.mem_cons_self
    · exact .inr (List.mem_cons_of_mem _ h)

/-- A signal on one name releases a wait for another just when they share their file. -/
theorem released_by_signal {m : Text} (hm : Named m) (hname : Named name) :
    name ∈ (start.run R [.signal m,.wait name .absent,.poll 0]).released ↔
      m.map sanitizeChar = name.map sanitizeChar := by
  have hpos : Timeout.absent.Positive R := show (0 : ℚ) < 30 by norm_num
  have hwait := (waitFor_asked_iff hpos).mpr ⟨hname,trivial⟩
  have hrun : start.run R [.signal m,.wait name .absent,.poll 0] =
      ((start.runSignal R m).runWait R name .absent).pollWaiter 0 := rfl
  rw [← waitForSignalPath_eq_iff,hrun,WaitState.runSignal,waitFor_signalArgs hm,
    WaitState.runWait,hwait]
  have htime : (0 : ℚ) < 0+30 := by norm_num
  simp only [start,createFile,Timeout.seconds,WaitState.pollWaiter,List.getElem?_cons_zero,htime,
    if_true]
  by_cases hpath : waitForSignalPath m = waitForSignalPath name
  · simp [hpath]
  · have hpath' : ¬waitForSignalPath name = waitForSignalPath m := fun h => hpath h.symm
    simp [hpath,hpath']

end WaitState

/-- Which commands wait for the channel they name as long as they say, which runs of them keep
the channels apart, and which names do not. -/
theorem wait_channels (R : FloatReader) :
    (∀ (name : Text) (timeout : Timeout), timeout.Positive R →
      (waitFor R (waitArgs name timeout) = .wait name (timeout.seconds R) ↔
        Named name ∧ timeout.Fits R name)) ∧
    (∀ es, AllMeet R .start es → (WaitState.start.run R es).Kept R) ∧
    (∀ m name, Named m → Named name →
      (name ∈ (WaitState.start.run R [.signal m,.wait name .absent,.poll 0]).released ↔
        m.map sanitizeChar = name.map sanitizeChar)) :=
  ⟨fun _ _ hpos => waitFor_asked_iff hpos,
    fun _ hes => (WaitState.sound_start.run hes).toKept,
    fun _ _ hm hname => WaitState.released_by_signal hm hname⟩

def digitsReader : FloatReader :=
  { read := fun s => ((Text.digits s).getD 0 : ℕ)
    read_nil := by decide
    read_minus := by
      intro s
      have : Text.digits ('-' :: s) = none := if_neg (by simp)
      simp [this] }

/-- One of two waits is signalled. -/
def twoChannels : List WaitEvent :=
  [.wait "deploy".toList .absent,.signal "build".toList,.wait "build".toList .absent,.poll 0,
    .poll 1]

theorem wait_channels_build :
    waitFor digitsReader ["build".toList] = .wait "build".toList 30 ∧
    (WaitState.start.run digitsReader twoChannels).Kept digitsReader ∧
    "build".toList ∈ (WaitState.start.run digitsReader
      [.signal "build".toList,.wait "build".toList .absent,.poll 0]).released ∧
    "deploy".toList ∉ (WaitState.start.run digitsReader
      [.signal "build".toList,.wait "deploy".toList .absent,.poll 0]).released := by
  have hbuild : Named "build".toList := by decide
  have hdeploy : Named "deploy".toList := by decide
  have hpos : Timeout.absent.Positive digitsReader := show (0 : ℚ) < 30 by norm_num
  have hmeet : AllMeet digitsReader .start twoChannels := by
    refine ⟨⟨hpos,hdeploy,trivial,?_⟩,⟨hbuild,?_⟩,⟨hpos,hbuild,trivial,?_⟩,trivial,trivial,trivial⟩
    all_goals
      unfold WaitState.Apart
      decide
  obtain ⟨hasked,hruns,hpairs⟩ := wait_channels digitsReader
  exact ⟨(hasked "build".toList .absent hpos).mpr ⟨hbuild,trivial⟩,hruns _ hmeet,
    (hpairs _ _ hbuild hbuild).mpr rfl,
    fun h => absurd ((hpairs _ _ hbuild hdeploy).mp h) (by decide)⟩

/-- `wait-for --timeout 5 build` waits for the channel `5`, and a signal on `a_b` ends a wait
for `a/b`. -/
theorem wait_for_another_channel :
    waitFor digitsReader (waitArgs "build".toList (.before "5".toList)) = .wait "5".toList 30 ∧
    ¬(WaitState.start.run digitsReader
      [.signal "a_b".toList,.wait "a/b".toList .absent,.poll 0]).Kept digitsReader := by
  have hnamed : Named "build".toList ∧ Named "a_b".toList ∧ Named "a/b".toList := by decide
  have hpos : (Timeout.before "5".toList).Positive digitsReader :=
    show (0 : ℚ) < digitsReader.read "5".toList by decide
  refine ⟨waitFor_waitArgs hpos hnamed.1,fun hkept => ?_⟩
  have hreleased := (WaitState.released_by_signal (R := digitsReader) hnamed.2.1 hnamed.2.2).mpr
    (by decide)
  have hsignalled := hkept.released _ hreleased
  rcases WaitState.signalled_run hsignalled with h | h
  · simp [WaitState.start] at h
  · simp at h

end Limux.Tmux
