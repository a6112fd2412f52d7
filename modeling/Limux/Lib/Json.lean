import Limux.Lib.Text

/-! JSON values, as the parsers deliver them: an integer that fits stays one, every
other number is floating point. -/

inductive JsonNumber (F : Type)
  | int (n : ℤ)
  | float (x : F)

/-- A value; the keys of an object are in order. -/
inductive Json (F : Type)
  | null
  | bool (b : Bool)
  | num (n : JsonNumber F)
  | str (s : Text)
  | arr (l : List (Json F))
  | obj (fields : List (String × Json F))

namespace Json

variable {F : Type}

def get (k : String) : Json F → Option (Json F)
  | obj fields => fields.lookup k
  | _ => none

def index (k : String) (j : Json F) : Json F := (j.get k).getD null

def asStr : Json F → Option Text
  | str s => some s
  | _ => none

def asU64 : Json F → Option ℕ
  | num (.int n) => if 0 ≤ n then some n.toNat else none
  | _ => none

def getStr (k : String) (j : Json F) : Option Text := (j.get k).bind asStr

end Json
