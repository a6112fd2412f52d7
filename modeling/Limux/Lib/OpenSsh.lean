import Limux.Lib.Text

/-! Options on the command line of `ssh` and `scp`: keywords in any letter case, the value behind
`=` or blanks, and the first value of an option wins. -/

namespace OpenSsh

def isBlank (c : Char) : Bool := c = ' ' || c = '\t'

def endsKeyword (c : Char) : Bool := isBlank c || c = '='

def lower (s : Text) : Text := s.map Char.toLower

def keyword (o : Text) : Text := lower ((o.dropWhile isBlank).takeWhile (fun c => !endsKeyword c))

def skipEquals : Text → Text
  | '=' :: s => s
  | s => s

def value (o : Text) : Text :=
  (skipEquals (((o.dropWhile isBlank).dropWhile (fun c => !endsKeyword c)).dropWhile
    isBlank)).dropWhile isBlank

/-- An option with a keyword and a value. -/
def Accepted (o : Text) : Prop := keyword o ≠ [] ∧ value o ≠ []

instance (o : Text) : Decidable (Accepted o) := inferInstanceAs (Decidable (_ ∧ _))

def valueFor (key o : Text) : Option Text := if keyword o = lower key then some (value o) else none

def firstValue (key : Text) (os : List Text) : Option Text := os.findSome? (valueFor key)

theorem firstValue_append (key : Text) (os os' : List Text) :
    firstValue key (os ++ os') = (firstValue key os).or (firstValue key os') :=
  List.findSome?_append

theorem firstValue_cons (key o : Text) (os : List Text) :
    firstValue key (o :: os) = (valueFor key o).or (firstValue key os) := by
  rw [firstValue,List.findSome?_cons,firstValue]
  cases valueFor key o with
  | none => rfl
  | some v => rfl

/-- The flags of `ssh` and `scp` here that are followed by their value. -/
def takesValue (flag : Text) : Bool :=
  flag = "-o".toList || flag = "-p".toList || flag = "-P".toList || flag = "-i".toList

/-- The values of `-o` up to the first operand. -/
def optionValues : List Text → List Text
  | [] => []
  | [_] => []
  | flag :: v :: args =>
    if takesValue flag then
      (if flag = "-o".toList then [v] else []) ++ optionValues args
    else if flag.head? = some '-' then optionValues (v :: args)
    else []

theorem optionValues_option (v : Text) (args : List Text) :
    optionValues ("-o".toList :: v :: args) = v :: optionValues args := rfl

theorem optionValues_options (os args : List Text) :
    optionValues (os.flatMap (fun o => ["-o".toList,o]) ++ args) = os ++ optionValues args := by
  induction os with
  | nil => rfl
  | cons o os ih =>
    rw [List.flatMap_cons,List.append_assoc]
    exact (optionValues_option o _).trans (congrArg (o :: ·) ih)

/-- A flag that is not `-o` has no part in the options. -/
theorem optionValues_flag {flag : Text} (h : takesValue flag = true) (ho : flag ≠ "-o".toList)
    (v : Text) (args : List Text) : optionValues (flag :: v :: args) = optionValues args := by
  rw [optionValues,if_pos h,if_neg ho]
  rfl

def effective (key : Text) (args : List Text) : Option Text := firstValue key (optionValues args)

end OpenSsh
