import Limux.Lib.Hex

/-! String literals and tuples of the GVariant text format. Every other value is read by a
parameter, which is given what is left of the text and leaves what follows the value. -/
namespace GVariant

/-- Within a literal, behind a backslash, and in a Unicode escape with so many digits to come. -/
inductive Mode
  | plain
  | escape
  | hex (left value : ℕ)

def nul : Char := Char.ofNat 0

/-- The character a backslash makes of `c`. -/
def unescape (c : Char) : Char :=
  if c = 'a' then Char.ofNat 7
  else if c = 'b' then Char.ofNat 8
  else if c = 't' then '\t'
  else if c = 'n' then '\n'
  else if c = 'v' then Char.ofNat 11
  else if c = 'f' then Char.ofNat 12
  else if c = 'r' then '\r'
  else c

def push (c : Char) (r : Option (Text × Text)) : Option (Text × Text) :=
  r.map (fun p => (c :: p.1,p.2))

/-- The character of a Unicode escape; zero is refused. -/
def scalar (n : ℕ) : Option Char :=
  if n ≠ 0 ∧ n.isValidChar then some (Char.ofNat n) else none

/-- The rest of a literal: what it stands for, and the text behind its end. -/
def literal (quote : Char) : Mode → Text → Option (Text × Text)
  | _, [] => none
  | .plain, c :: s =>
    if c = quote then some ([],s)
    else if c = nul then none
    else if c = '\\' then literal quote .escape s
    else push c (literal quote .plain s)
  | .escape, c :: s =>
    if c = nul then none
    else if c = 'u' then literal quote (.hex 4 0) s
    else if c = 'U' then literal quote (.hex 8 0) s
    else if c = '\n' then literal quote .plain s
    else push (unescape c) (literal quote .plain s)
  | .hex left value, c :: s =>
    match Hex.value c with
    | none => none
    | some d =>
      if left ≤ 1 then (scalar (16*value+d)).bind (fun x => push x (literal quote .plain s))
      else literal quote (.hex (left-1) (16*value+d)) s

inductive Value (V : Type)
  | string (s : Text)
  | other (v : V)
  deriving DecidableEq

/-- `g_ascii_isspace`. -/
def isSpace (c : Char) : Bool := c = ' ' || c = '\t' || c = '\n' || c = '\r' || c.toNat = 12

def skip (s : Text) : Text := s.dropWhile isSpace

section Tuple

variable {V : Type} (other : Text → Option (V × Text))

def value (s : Text) : Option (Value V × Text) :=
  match skip s with
  | '\'' :: r => (literal '\'' .plain r).map (fun p => (.string p.1,p.2))
  | '"' :: r => (literal '"' .plain r).map (fun p => (.string p.1,p.2))
  | r => (other r).map (fun p => (.other p.1,p.2))

def elements : ℕ → Text → Option (List (Value V) × Text)
  | 0, _ => none
  | n+1, s =>
    match value other s with
    | none => none
    | some (v,r) =>
      match skip r with
      | ')' :: r => some ([v],r)
      | ',' :: r => (elements n r).map (fun p => (v :: p.1,p.2))
      | _ => none

/-- A tuple: only behind its first element a comma may be the last. -/
def tuple (s : Text) : Option (List (Value V) × Text) :=
  match skip s with
  | '(' :: r =>
    match skip r with
    | ')' :: r => some ([],r)
    | r =>
      match value other r with
      | none => none
      | some (v,r) =>
        match skip r with
        | ',' :: r =>
          match skip r with
          | ')' :: r => some ([v],r)
          | r => (elements other r.length r).map (fun p => (v :: p.1,p.2))
        | _ => none
  | _ => none

def parseTuple (s : Text) : Option (List (Value V)) :=
  match tuple other s with
  | some (vs,r) => if skip r = [] then some vs else none
  | none => none

variable {other}

theorem skip_cons {c : Char} (h : isSpace c = false) (s : Text) : skip (c :: s) = c :: s := by
  rw [skip,List.dropWhile_cons,h]
  rfl

theorem tuple_first {c d : Char} {s r : Text} {v : Value V} (hc : isSpace c = false ∧ c ≠ ')')
    (hd : isSpace d = false ∧ d ≠ ')') (h : value other (c :: s) = some (v,',' :: ' ' :: d :: r)) :
    tuple other ('(' :: c :: s) =
      (elements other (r.length+1) (d :: r)).map (fun p => (v :: p.1,p.2)) := by
  have hs : skip (' ' :: d :: r) = d :: r := skip_cons hd.1 r
  rw [tuple,skip_cons (by decide)]
  simp only [skip_cons hc.1]
  split
  · rename_i he
    cases he
    exact absurd rfl hc.2
  · simp only [h,skip_cons (show isSpace ',' = false by decide),hs]
    split
    · rename_i he'
      cases he'
      exact absurd rfl hd.2
    · rfl

theorem elements_comma {n : ℕ} {s r : Text} {v : Value V} (h : value other s = some (v,',' :: r)) :
    elements other (n+1) s = (elements other n r).map (fun p => (v :: p.1,p.2)) := by
  rw [elements,h]
  rfl

theorem elements_close {n : ℕ} {s r : Text} {v : Value V} (h : value other s = some (v,')' :: r)) :
    elements other (n+1) s = some ([v],r) := by
  rw [elements,h]
  rfl

theorem elements_first {n : ℕ} {s r : Text} {vs : List (Value V)}
    (h : elements other n s = some (vs,r)) :
    ∃ v r', value other s = some (v,r') ∧ vs.head? = some v := by
  cases n with
  | zero => cases h
  | succ n =>
    rw [elements] at h
    cases hv : value other s with
    | none => rw [hv] at h; cases h
    | some p =>
      refine ⟨p.1,p.2,rfl,?_⟩
      rw [hv] at h
      dsimp only at h
      split at h
      · cases h
        rfl
      · obtain ⟨q,-,hq⟩ := Option.map_eq_some_iff.mp h
        cases hq
        rfl
      · cases h

end Tuple

/-! Text with its quotes escaped, and nothing else. -/

def escapeQuote (s : Text) : Text := s.flatMap (fun c => if c = '\'' then ['\\','\''] else [c])

theorem escapeQuote_cons_of_ne {c : Char} (h : c ≠ '\'') (s : Text) :
    escapeQuote (c :: s) = c :: escapeQuote s := by
  simp [escapeQuote,h]

theorem escapeQuote_quote (s : Text) :
    escapeQuote ('\'' :: s) = '\\' :: '\'' :: escapeQuote s := by
  simp [escapeQuote]

/-- A character that stands for itself in a literal, or does so behind a backslash. -/
def Literal (c : Char) : Prop := c ≠ '\\' ∧ c ≠ nul

instance (c : Char) : Decidable (Literal c) := inferInstanceAs (Decidable (_ ∧ _))

theorem literal_escaped_quote (s : Text) :
    literal '\'' .plain ('\\' :: '\'' :: s) = push '\'' (literal '\'' .plain s) := by
  simp [literal,unescape,nul]

theorem literal_cons {c : Char} (hq : c ≠ '\'') (h : Literal c) (s : Text) :
    literal '\'' .plain (c :: s) = push c (literal '\'' .plain s) := by
  rw [literal,if_neg hq,if_neg h.2,if_neg h.1]

theorem literal_backslash (s : Text) :
    literal '\'' .plain ('\\' :: s) = literal '\'' .escape s := rfl

theorem literal_nul (s : Text) : literal '\'' .plain (nul :: s) = none := rfl

/-- Without backslashes and NULs escaping the quotes is enough. -/
theorem literal_escapeQuote {s : Text} (h : ∀ c ∈ s, Literal c) (rest : Text) :
    literal '\'' .plain (escapeQuote s ++ '\'' :: rest) = some (s,rest) := by
  induction s with
  | nil => rfl
  | cons c s ih =>
    rw [List.forall_mem_cons] at h
    by_cases hq : c = '\''
    · subst hq
      rw [escapeQuote_quote,List.cons_append,List.cons_append,literal_escaped_quote,ih h.2]
      rfl
    · rw [escapeQuote_cons_of_ne hq,List.cons_append,literal_cons hq h.1,ih h.2]
      rfl

/-- After `s` a backslash waits for the next character. -/
def Hangs (m : Mode) (s : Text) : Prop := (s = [] ∧ m = .escape) ∨ s.getLast? = some '\\'

theorem Hangs.cons {m m' : Mode} {c : Char} {s : Text} (h : Hangs m' s)
    (hm : m' = .escape → c = '\\') : Hangs m (c :: s) := by
  rcases h with ⟨rfl,h⟩ | h
  · exact .inr (by rw [hm h]; rfl)
  · exact .inr (by rw [List.getLast?_cons,h]; rfl)

theorem push_eq_some {c : Char} {r : Option (Text × Text)} {t rest : Text}
    (h : push c r = some (t,rest)) : ∃ t', t = c :: t' ∧ r = some (t',rest) := by
  obtain ⟨⟨t',rest'⟩,hr,he⟩ := Option.map_eq_some_iff.mp h
  cases he
  exact ⟨t',rfl,hr⟩

/-- What a literal makes of `s` is no longer than `s`, unless the quote behind `s` is taken for
one of its characters and the literal goes on. -/
theorem literal_length {m : Mode} {s tail t rest : Text}
    (h : literal '\'' m (escapeQuote s ++ '\'' :: tail) = some (t,rest)) :
    t.length ≤ s.length ∨ Hangs m s ∧
      ∃ t₁ t₂, t = t₁ ++ t₂ ∧ literal '\'' .plain tail = some (t₂,rest) := by
  induction s generalizing m t with
  | nil =>
    cases m with
    | plain =>
      cases h
      exact .inl le_rfl
    | escape =>
      obtain ⟨t',rfl,ht⟩ := push_eq_some (c := '\'') (r := literal '\'' .plain tail) h
      exact .inr ⟨.inl ⟨rfl,rfl⟩,['\''],t',rfl,ht⟩
    | hex left value => cases h
  | cons c s ih =>
    -- One more character of `s` for one more of the result, or for none.
    have hpush : ∀ {x : Char} {t' : Text}, t = x :: t' →
        literal '\'' .plain (escapeQuote s ++ '\'' :: tail) = some (t',rest) →
        t.length ≤ (c :: s).length ∨ Hangs m (c :: s) ∧
          ∃ t₁ t₂, t = t₁ ++ t₂ ∧ literal '\'' .plain tail = some (t₂,rest) := by
      rintro x t' rfl ht
      rcases ih ht with hle | ⟨hh,t₁,t₂,rfl,ht₂⟩
      · exact .inl (Nat.succ_le_succ hle)
      · exact .inr ⟨hh.cons (by intro hm; cases hm),x :: t₁,t₂,rfl,ht₂⟩
    have hskip : ∀ {m' : Mode}, (m' = .escape → c = '\\') →
        literal '\'' m' (escapeQuote s ++ '\'' :: tail) = some (t,rest) →
        t.length ≤ (c :: s).length ∨ Hangs m (c :: s) ∧
          ∃ t₁ t₂, t = t₁ ++ t₂ ∧ literal '\'' .plain tail = some (t₂,rest) := by
      intro m' hm ht
      rcases ih ht with hle | ⟨hh,hrest⟩
      · exact .inl (Nat.le_succ_of_le hle)
      · exact .inr ⟨hh.cons hm,hrest⟩
    by_cases hq : c = '\''
    · subst hq
      rw [escapeQuote_quote,List.cons_append,List.cons_append] at h
      cases m with
      | plain =>
        rw [literal_escaped_quote] at h
        obtain ⟨t',ht,hr⟩ := push_eq_some h
        exact hpush ht hr
      | escape =>
        -- The backslash put in is escaped itself, and the quote ends the literal.
        cases h
        exact .inl (by simp)
      | hex left value => cases h
    · rw [escapeQuote_cons_of_ne hq,List.cons_append] at h
      cases m with
      | plain =>
        rw [literal,if_neg hq] at h
        split_ifs at h with h₁ h₂
        · exact hskip (fun _ => h₂) h
        · obtain ⟨t',ht,hr⟩ := push_eq_some h
          exact hpush ht hr
      | escape =>
        rw [literal] at h
        split_ifs at h
        · exact hskip (by intro hm; cases hm) h
        · exact hskip (by intro hm; cases hm) h
        · exact hskip (by intro hm; cases hm) h
        · obtain ⟨t',ht,hr⟩ := push_eq_some h
          exact hpush ht hr
      | hex left value =>
        rw [literal] at h
        split at h
        · cases h
        · split_ifs at h
          · obtain ⟨x,-,hx⟩ := Option.bind_eq_some_iff.mp h
            obtain ⟨t',ht,hr⟩ := push_eq_some hx
            exact hpush ht hr
          · exact hskip (by intro hm; cases hm) h

/-- A literal that goes on in `tail` does not end with a backslash. -/
def Closes (tail : Text) : Prop := ∀ t rest, literal '\'' .plain tail = some (t,rest) →
  ∃ c, t.getLast? = some c ∧ c ≠ '\\'

/-- Escaping the quotes alone carries the texts without backslashes and NULs, and no other. -/
theorem literal_escapeQuote_iff {tail : Text} (htail : Closes tail) (s : Text) :
    (∃ rest, literal '\'' .plain (escapeQuote s ++ '\'' :: tail) = some (s,rest)) ↔
      ∀ c ∈ s, Literal c := by
  refine ⟨?_,fun h => ⟨tail,literal_escapeQuote h tail⟩⟩
  rintro ⟨rest,h⟩
  induction s with
  | nil => exact fun c hc => absurd hc List.not_mem_nil
  | cons c s ih =>
    by_cases hq : c = '\''
    · subst hq
      rw [escapeQuote_quote,List.cons_append,List.cons_append,literal_escaped_quote] at h
      obtain ⟨t',ht,hr⟩ := push_eq_some h
      cases ht
      exact List.forall_mem_cons.mpr ⟨by decide,ih hr⟩
    · rw [escapeQuote_cons_of_ne hq,List.cons_append] at h
      by_cases hb : c = '\\'
      · subst hb
        rw [literal_backslash] at h
        rcases literal_length h with hle | ⟨hh,t₁,t₂,ht,ht₂⟩
        · exact absurd hle (by simp)
        · obtain ⟨x,hx,hne⟩ := htail t₂ rest ht₂
          have hlast : ('\\' :: s).getLast? = some '\\' := by
            rcases hh with ⟨rfl,-⟩ | hh
            · rfl
            · rw [List.getLast?_cons,hh]
              rfl
          rw [ht,List.getLast?_append,hx] at hlast
          exact absurd (Option.some.inj hlast) hne
      · by_cases hn : c = nul
        · subst hn
          rw [literal_nul] at h
          cases h
        · rw [literal_cons hq ⟨hb,hn⟩] at h
          obtain ⟨t',ht,hr⟩ := push_eq_some h
          cases ht
          exact List.forall_mem_cons.mpr ⟨⟨hb,hn⟩,ih hr⟩

end GVariant
