import Mathlib.Logic.Function.Basic
import Limux.Lib.Getopt
import Limux.Lib.Words

/-! Arguments of the tmux commands (`parseTmuxArgs` in `tmux_compat.go`). -/
namespace Limux.Tmux

/-- The value flags and the boolean flags of a command; `--` is none of them. -/
structure Tables where
  valueFlags : List Text
  boolFlags : List Text
  valueFlags_ends : "--".toList ∉ valueFlags := by decide
  boolFlags_ends : "--".toList ∉ boolFlags := by decide

def texts (l : List String) : List Text := l.map String.toList

namespace Tables

def newSession : Tables :=
  { valueFlags := texts ["-c","-F","-n","-s"], boolFlags := texts ["-A","-d","-P"] }

def newWindow : Tables :=
  { valueFlags := texts ["-c","-F","-n","-t"], boolFlags := texts ["-d","-P"] }

def splitWindow : Tables :=
  { valueFlags := texts ["-c","-F","-l","-t"], boolFlags := texts ["-P","-b","-d","-h","-v"] }

/-- Of `select-window`, `kill-window`, `kill-pane`, `rename-window`, `last-pane` and the
commands for sessions. -/
def target : Tables := { valueFlags := texts ["-t"], boolFlags := [] }

def selectPane : Tables := { valueFlags := texts ["-P","-T","-t"], boolFlags := [] }

def sendKeys : Tables := { valueFlags := texts ["-t"], boolFlags := texts ["-l"] }

def capturePane : Tables :=
  { valueFlags := texts ["-E","-S","-t"], boolFlags := texts ["-J","-N","-p"] }

def displayMessage : Tables := { valueFlags := texts ["-F","-t"], boolFlags := texts ["-p"] }

def list : Tables := { valueFlags := texts ["-F","-t"], boolFlags := [] }

def resizePane : Tables :=
  { valueFlags := texts ["-t","-x","-y"], boolFlags := texts ["-D","-L","-R","-U"] }

def waitFor : Tables := { valueFlags := texts ["--timeout"], boolFlags := texts ["-S"] }

def buffer : Tables := { valueFlags := texts ["-b"], boolFlags := [] }

/-- What a letter is as an option of `getopt`. -/
def kind (T : Tables) (c : Char) : Option Getopt.Kind :=
  if ['-',c] ∈ T.boolFlags then some .flag
  else if ['-',c] ∈ T.valueFlags then some .value
  else none

end Tables

structure Parsed where
  flags : Text → Bool
  options : Text → List Text
  positional : List Text

namespace Parsed

def empty : Parsed := ⟨fun _ => false,fun _ => [],[]⟩

def hasFlag (p : Parsed) (f : Text) : Bool := p.flags f

def value (p : Parsed) (f : Text) : Text := (p.options f).getLast?.getD []

def setFlag (p : Parsed) (f : Text) : Parsed := { p with flags := Function.update p.flags f true }

def addOption (p : Parsed) (f v : Text) : Parsed :=
  { p with options := Function.update p.options f (p.options f ++ [v]) }

def push (p : Parsed) (arg : Text) : Parsed := { p with positional := p.positional ++ [arg] }

end Parsed

/-- What came of a cluster: whether it took the next argument, and whether it was an option. -/
structure Scan where
  parsed : Parsed
  tookNext : Bool
  recognized : Bool

/-- The value of a flag at the end of a cluster, empty if there is no argument left. -/
def takeNext (p : Parsed) (flag : Text) : Option Text → Scan
  | some value => ⟨p.addOption flag value,true,true⟩
  | none => ⟨p.addOption flag [],false,true⟩

/-- The loop over a cluster. Its flags are set before it is known whether it is an option. -/
def scanCluster (T : Tables) (next : Option Text) (p : Parsed) (recognized : Bool) :
    Text → Scan
  | [] => ⟨p,false,recognized⟩
  | c :: cluster =>
    let flag := ['-',c]
    if flag ∈ T.boolFlags then scanCluster T next (p.setFlag flag) true cluster
    else if flag ∈ T.valueFlags then
      if cluster ≠ [] then ⟨p.addOption flag cluster,false,true⟩
      else takeNext p flag next
    else ⟨p,false,false⟩

/-- One argument before the terminator, and whether the next one belongs to it. -/
def parseArg (T : Tables) (next : Option Text) (p : Parsed) (arg : Text) : Parsed × Bool :=
  if ['-'].isPrefixOf arg = false ∨ arg = ['-'] then (p.push arg,false)
  else if ['-','-'].isPrefixOf arg then (p.push arg,false)
  else
    let s := scanCluster T next p false arg.tail
    (if s.recognized then s.parsed else s.parsed.push arg,s.tookNext)

/-- The loop over the arguments; the first one is left out if the one before took it. -/
def parseFrom (T : Tables) (p : Parsed) (skip : Bool) : List Text → Parsed
  | [] => p
  | arg :: args =>
    if skip then parseFrom T p false args
    else if arg = ['-','-'] then { p with positional := p.positional ++ args }
    else
      let r := parseArg T args.head? p arg
      parseFrom T r.1 r.2 args

def parseTmuxArgs (T : Tables) (args : List Text) : Parsed := parseFrom T .empty false args

example : (parseTmuxArgs .newWindow (texts ["-dP","-t","%abc","-n","x","shell"])).value "-t".toList
    = "%abc".toList := by decide

/-- `ToLower`, as far as it gives a letter that names of keys have. -/
def lowerKey (c : Char) : Char :=
  if c.toNat = 0x212a then 'k' else if c.toNat = 0x130 then 'i' else c.toLower

def specialKeyText (token : Text) : Text :=
  let key := String.ofList (token.map lowerKey)
  if key = "enter" ∨ key = "c-m" ∨ key = "kpenter" then ['\r']
  else if key = "tab" ∨ key = "c-i" then ['\t']
  else if key = "space" then [' ']
  else if key = "bspace" ∨ key = "backspace" then ['\x7f']
  else if key = "escape" ∨ key = "esc" ∨ key = "c-[" then ['\x1b']
  else if key = "c-c" then ['\x03']
  else if key = "c-d" then ['\x04']
  else if key = "c-z" then ['\x1a']
  else if key = "c-l" then ['\x0c']
  else []

/-- The text so far, and whether a space stands before the next token. -/
def sendToken (r : Text × Bool) (token : Text) : Text × Bool :=
  if specialKeyText token ≠ [] then (r.1 ++ specialKeyText token,false)
  else ((if r.2 then r.1 ++ [' '] else r.1) ++ token,true)

def sendKeysText (tokens : List Text) (literal : Bool) : Text :=
  if literal then [' '].intercalate tokens else (tokens.foldl sendToken ([],false)).1

def tmuxShellQuote (value : Text) : Text :=
  '\'' :: (value.flatMap (fun c => if c = '\'' then "'\"'\"'".toList else [c]) ++ ['\''])

def tmuxShellCommandText (positional : List Text) (cwd : Text) : Text :=
  let cwd := Text.trim cwd
  let cmd := Text.trim (Text.spaced positional)
  if cwd = [] ∧ cmd = [] then []
  else
    let pieces := (if cwd = [] then [] else ["cd -- ".toList ++ tmuxShellQuote cwd]) ++
      if cmd = [] then [] else [cmd]
    " && ".toList.intercalate pieces ++ ['\r']

def sendKeysInput (args : List Text) : Text :=
  let p := parseTmuxArgs .sendKeys args
  sendKeysText p.positional (p.hasFlag "-l".toList)

/-- What `split-window` types into the new pane. -/
def splitWindowInput (args : List Text) : Text :=
  let p := parseTmuxArgs .splitWindow args
  tmuxShellCommandText p.positional (p.value "-c".toList)

example : sendKeysText (texts ["ls","-la","Enter"]) false = "ls -la\r".toList := by decide

end Limux.Tmux
