import Mathlib.Data.List.DropRight

/-! Texts as lists of characters, with the trimming and splitting functions of
the Rust string library. -/

abbrev Text := List Char

instance Text.instLawfulBEq : LawfulBEq Text := inferInstance

namespace Text

/-- Unicode `White_Space`. -/
def isWhitespace (c : Char) : Bool :=
  let n := c.toNat
  (9 ≤ n && n ≤ 13) || n = 32 || n = 0x85 || n = 0xa0 || n = 0x1680 ||
    (0x2000 ≤ n && n ≤ 0x200a) || n = 0x2028 || n = 0x2029 || n = 0x202f || n = 0x205f ||
    n = 0x3000

def trimStart (s : Text) : Text := s.dropWhile isWhitespace

def trimEnd (s : Text) : Text := s.rdropWhile isWhitespace

def trim (s : Text) : Text := trimEnd (trimStart s)

def stripPrefix (p s : Text) : Option Text :=
  if p.isPrefixOf s then some (s.drop p.length) else none

/-- The part after the last `c`, or everything. -/
def afterLast (c : Char) (s : Text) : Text := s.rtakeWhile (fun d => d ≠ c)

/-- Every `c` replaced. -/
def replace (c d : Char) (s : Text) : Text := s.map (fun x => if x = c then d else x)

theorem forall_of_all {P : Char → Prop} [DecidablePred P] {s : Text}
    (h : s.all (fun c => decide (P c)) = true) : ∀ c ∈ s, P c :=
  fun c hc => of_decide_eq_true (List.all_eq_true.mp h c hc)

end Text
