import Limux.Lib.Json
import Limux.Lib.Number
import Limux.Lib.Hex

/-! JSON values as texts without blanks between their parts; `showFloat` prints the floats. -/

namespace Json

def escape (c : Char) : Text :=
  if c = '"' then ['\\','"']
  else if c = '\\' then ['\\','\\']
  else if c = '\n' then ['\\','n']
  else if c = '\r' then ['\\','r']
  else if c = '\t' then ['\\','t']
  else if c.toNat = 8 then ['\\','b']
  else if c.toNat = 12 then ['\\','f']
  else if c.toNat < 32 then "\\u00".toList ++ Hex.encode [c.toNat.toUInt8]
  else [c]

def quote (s : Text) : Text := '"' :: (s.flatMap escape ++ ['"'])

variable {F : Type}

mutual

def compact (showFloat : F → Text) : Json F → Text
  | null => "null".toList
  | bool b => if b then "true".toList else "false".toList
  | num (.int n) => Text.ofInt n
  | num (.float x) => showFloat x
  | str s => quote s
  | arr l => '[' :: (compactItems showFloat l ++ [']'])
  | obj fields => '\x7b' :: (compactMembers showFloat fields ++ ['\x7d'])

def compactItems (showFloat : F → Text) : List (Json F) → Text
  | [] => []
  | j :: l => compact showFloat j ++ (if l = [] then [] else ',' :: compactItems showFloat l)

def compactMembers (showFloat : F → Text) : List (String × Json F) → Text
  | [] => []
  | (k,j) :: l => quote k.toList ++ ':' :: (compact showFloat j ++
      (if l = [] then [] else ',' :: compactMembers showFloat l))

end

/-! The text is one line. -/

theorem newline_notMem_escape (c : Char) : '\n' ∉ escape c := by
  unfold escape
  split_ifs with h₁ h₂ h₃
  · decide
  · decide
  · decide
  · decide
  · decide
  · decide
  · decide
  · intro h
    rcases List.mem_append.mp h with h | h
    · exact absurd h (by decide)
    · exact absurd (Hex.mem_alphabet h) (by decide)
  · intro h
    exact h₃ (List.mem_singleton.mp h).symm

theorem newline_notMem_quote (s : Text) : '\n' ∉ quote s := by
  intro h
  rcases List.mem_cons.mp h with h | h
  · exact absurd h (by decide)
  · rcases List.mem_append.mp h with h | h
    · obtain ⟨c,-,hc⟩ := List.mem_flatMap.mp h
      exact newline_notMem_escape c hc
    · exact absurd h (by decide)

theorem newline_notMem_ofInt (n : ℤ) : '\n' ∉ Text.ofInt n := by
  intro h
  exact absurd ((Text.word_ofInt n).2 _ h) (by decide)

variable {showFloat : F → Text}

mutual

theorem newline_notMem_compact (h : ∀ x, '\n' ∉ showFloat x) :
    ∀ j : Json F, '\n' ∉ compact showFloat j
  | null => (by decide : '\n' ∉ "null".toList)
  | bool true => (by decide : '\n' ∉ "true".toList)
  | bool false => (by decide : '\n' ∉ "false".toList)
  | num (.int n) => newline_notMem_ofInt n
  | num (.float x) => h x
  | str s => newline_notMem_quote s
  | arr l => by
    rw [compact]
    simpa using newline_notMem_items h l
  | obj fields => by
    rw [compact]
    simpa using newline_notMem_members h fields

theorem newline_notMem_items (h : ∀ x, '\n' ∉ showFloat x) :
    ∀ l : List (Json F), '\n' ∉ compactItems showFloat l
  | [] => List.not_mem_nil
  | j :: l => by
    have h₁ := newline_notMem_compact h j
    have h₂ := newline_notMem_items h l
    rw [compactItems]
    split <;> simp [h₁,h₂]

theorem newline_notMem_members (h : ∀ x, '\n' ∉ showFloat x) :
    ∀ l : List (String × Json F), '\n' ∉ compactMembers showFloat l
  | [] => List.not_mem_nil
  | (k,j) :: l => by
    have h₁ := newline_notMem_quote k.toList
    have h₂ := newline_notMem_compact h j
    have h₃ := newline_notMem_members h l
    rw [compactMembers]
    split <;> simp [h₁,h₂,h₃]

end

/-! The text with each item on a line of its own, two blanks deeper than what it stands in. -/

def lineBreak (depth : ℕ) : Text := '\n' :: List.replicate (2*depth) ' '

mutual

/-- `serde_json::to_string_pretty`. -/
def pretty (showFloat : F → Text) (depth : ℕ) : Json F → Text
  | null => "null".toList
  | bool b => if b then "true".toList else "false".toList
  | num (.int n) => Text.ofInt n
  | num (.float x) => showFloat x
  | str s => quote s
  | arr l => '[' :: (prettyItems showFloat (depth+1) l ++
      (if l = [] then [] else lineBreak depth) ++ [']'])
  | obj fields => '\x7b' :: (prettyMembers showFloat (depth+1) fields ++
      (if fields = [] then [] else lineBreak depth) ++ ['\x7d'])

def prettyItems (showFloat : F → Text) (depth : ℕ) : List (Json F) → Text
  | [] => []
  | j :: l => lineBreak depth ++ pretty showFloat depth j ++
      (if l = [] then [] else ',' :: prettyItems showFloat depth l)

def prettyMembers (showFloat : F → Text) (depth : ℕ) : List (String × Json F) → Text
  | [] => []
  | (k,j) :: l => lineBreak depth ++ quote k.toList ++ ':' :: ' ' :: pretty showFloat depth j ++
      (if l = [] then [] else ',' :: prettyMembers showFloat depth l)

end

end Json
