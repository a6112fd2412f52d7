import Limux.Lib.Words
import Mathlib.Algebra.GroupWithZero.Nat

/-! How a POSIX shell takes a command line apart: blanks between words, quotes and backslashes
removed. A text with an operator, a comment or an expansion is none that consists of words. -/

namespace Shell

/-- Outside quotes, behind a backslash, within single quotes, within double quotes, and behind a
backslash there. -/
inductive Mode
  | plain | escaped | single | double | doubleEscaped
  deriving DecidableEq

/-- The words so far, and the one that is being read. -/
structure Lexer where
  words : List Text
  cur : Option Text
  mode : Mode

namespace Lexer

def init : Lexer := ⟨[],none,.plain⟩

def push (l : Lexer) (s : Text) (mode : Mode) : Lexer :=
  { l with cur := some (l.cur.getD [] ++ s), mode := mode }

def finish (l : Lexer) : Lexer := ⟨l.words ++ l.cur.toList,none,.plain⟩

end Lexer

def isBlank (c : Char) : Bool := c = ' ' || c = '\t'

/-- Operators, line breaks, and what starts an expansion anywhere in a word. -/
def active : List Char := "|&;<>()\n$`*?[".toList

/-- What means something else at the start of a word only. -/
def activeFirst : List Char := "~#".toList

/-- What a backslash within double quotes escapes. -/
def escapable : List Char := "$`\"\\".toList

def plainStep (l : Lexer) (c : Char) : Option Lexer :=
  if isBlank c then some l.finish
  else if c = '\'' then some (l.push [] .single)
  else if c = '"' then some (l.push [] .double)
  else if c = '\\' then some { l with mode := .escaped }
  else if c ∈ active ∨ l.cur = none ∧ c ∈ activeFirst then none
  else some (l.push [c] .plain)

def step (l : Lexer) (c : Char) : Option Lexer :=
  match l.mode with
  | .plain => plainStep l c
  | .escaped => if c = '\n' then some { l with mode := .plain } else some (l.push [c] .plain)
  | .single => if c = '\'' then some { l with mode := .plain } else some (l.push [c] .single)
  | .double =>
    if c = '"' then some { l with mode := .plain }
    else if c = '\\' then some { l with mode := .doubleEscaped }
    else if c = '$' ∨ c = '`' then none
    else some (l.push [c] .double)
  | .doubleEscaped =>
    if c = '\n' then some { l with mode := .double }
    else if c ∈ escapable then some (l.push [c] .double)
    else some (l.push ['\\',c] .double)

def run (l : Lexer) (s : Text) : Option Lexer := s.foldlM step l

/-- The words of a command line that consists of words alone. -/
def split (s : Text) : Option (List Text) :=
  (run .init s).bind (fun l => if l.mode = .plain then some l.finish.words else none)

theorem run_cons (l : Lexer) (c : Char) (s : Text) :
    run l (c :: s) = (step l c).bind (fun l => run l s) := rfl

theorem run_append (l : Lexer) (s t : Text) :
    run l (s ++ t) = (run l s).bind (fun l => run l t) := List.foldlM_append

/-- A character that stands for itself outside quotes. -/
def Ordinary (c : Char) : Prop :=
  isBlank c = false ∧ c ≠ '\'' ∧ c ≠ '"' ∧ c ≠ '\\' ∧ c ∉ active

instance (c : Char) : Decidable (Ordinary c) := inferInstanceAs (Decidable (_ ∧ _))

/-- A word that stands for itself without quotes. -/
def Plain (w : Text) : Prop := w ≠ [] ∧ (∀ c ∈ w.head?, c ∉ activeFirst) ∧ ∀ c ∈ w, Ordinary c

instance (w : Text) : Decidable (Plain w) :=
  haveI : Decidable (∀ c ∈ w.head?, c ∉ activeFirst) := Option.decidableForallMem w.head?
  haveI : Decidable (∀ c ∈ w, Ordinary c) := List.decidableBAll Ordinary w
  inferInstanceAs (Decidable (_ ∧ _))

/-! Reading plain words. -/

theorem step_ordinary {l : Lexer} {c : Char} (hm : l.mode = .plain) (hc : Ordinary c)
    (hf : l.cur = none → c ∉ activeFirst) : step l c = some (l.push [c] .plain) := by
  obtain ⟨hb,h1,h2,h3,ha⟩ := hc
  have hno : ¬ (c ∈ active ∨ l.cur = none ∧ c ∈ activeFirst) := by
    rintro (h | ⟨hn,h⟩)
    · exact ha h
    · exact hf hn h
  unfold step plainStep
  rw [hm]
  simp only [hb,Bool.false_eq_true,if_false,h1,h2,h3,if_neg hno]

theorem step_blank {l : Lexer} {c : Char} (hm : l.mode = .plain) (hc : isBlank c = true) :
    step l c = some l.finish := by
  unfold step plainStep
  rw [hm]
  simp only [hc,if_true]

theorem run_ordinary {l : Lexer} {u w : Text} (hm : l.mode = .plain) (hu : l.cur = some u)
    (hw : ∀ c ∈ w, Ordinary c) : run l w = some ⟨l.words,some (u ++ w),.plain⟩ := by
  induction w generalizing l u with
  | nil =>
    obtain ⟨ws,cur,mode⟩ := l
    obtain rfl : mode = .plain := hm
    obtain rfl : cur = some u := hu
    rw [List.append_nil]
    rfl
  | cons c w ih =>
    rw [List.forall_mem_cons] at hw
    have hs := step_ordinary hm hw.1 (fun hn => by rw [hn] at hu; cases hu)
    have hcur : (l.push [c] .plain).cur = some (u ++ [c]) := by simp [Lexer.push,hu]
    rw [run_cons,hs,Option.bind_some,ih rfl hcur hw.2,List.append_assoc]
    rfl

theorem run_plain {ws : List Text} {w : Text} (hw : Plain w) :
    run ⟨ws,none,.plain⟩ w = some ⟨ws,some w,.plain⟩ := by
  obtain ⟨hne,hf,ho⟩ := hw
  obtain ⟨c,w,rfl⟩ := List.exists_cons_of_ne_nil hne
  rw [List.forall_mem_cons] at ho
  have hs := step_ordinary (l := ⟨ws,none,.plain⟩) rfl ho.1 (fun _ => hf c rfl)
  rw [run_cons,hs,Option.bind_some,run_ordinary (u := [c]) rfl rfl ho.2]
  rfl

/-- At the start of a word the text is read as the word. -/
def Spells (s w : Text) : Prop :=
  ∀ ws : List Text, run ⟨ws,none,.plain⟩ s = some ⟨ws,some w,.plain⟩

theorem spells_plain {w : Text} (hw : Plain w) : Spells w w := fun _ => run_plain hw

/-- Words that are spelled each in its way, with blanks between them. -/
theorem run_joined {f : Text → Text} {ws : List Text} (hne : ws ≠ [])
    (h : ∀ w ∈ ws, Spells (f w) w) (l : List Text) :
    ∃ l', run ⟨l,none,.plain⟩ (Text.spaced (ws.map f)) = some l' ∧ l'.mode = .plain ∧
      l'.words ++ l'.cur.toList = l ++ ws := by
  induction ws generalizing l with
  | nil => exact absurd rfl hne
  | cons w ws ih =>
    rw [List.forall_mem_cons] at h
    cases ws with
    | nil =>
      rw [List.map_singleton,Text.spaced_singleton,h.1]
      exact ⟨_,rfl,rfl,rfl⟩
    | cons v ws =>
      obtain ⟨l',hr,hm,hw⟩ := ih (List.cons_ne_nil _ _) h.2 (l ++ [w])
      rw [List.map_cons,List.map_cons,Text.spaced_cons_cons,run_append,h.1,Option.bind_some,
        run_cons,step_blank rfl rfl,Option.bind_some]
      exact ⟨l',hr,hm,hw.trans (List.append_assoc _ _ _)⟩

theorem run_spaced {ws : List Text} (hne : ws ≠ []) (h : ∀ w ∈ ws, Plain w) (l : List Text) :
    ∃ l', run ⟨l,none,.plain⟩ (Text.spaced ws) = some l' ∧ l'.mode = .plain ∧
      l'.words ++ l'.cur.toList = l ++ ws := by
  have hj := run_joined (f := id) hne (fun w hw => spells_plain (h w hw)) l
  rwa [List.map_id] at hj

theorem split_joined {f : Text → Text} {ws : List Text} (h : ∀ w ∈ ws, Spells (f w) w) :
    split (Text.spaced (ws.map f)) = some ws := by
  by_cases hne : ws = []
  · rw [hne]
    rfl
  · obtain ⟨l,hr,hm,hw⟩ := run_joined hne h []
    rw [split,Lexer.init,hr,Option.bind_some,if_pos hm]
    exact congrArg some hw

/-! Quoted words. -/

def quoteChar (c : Char) : Text := if c = '\'' then "'\\''".toList else [c]

/-- A word in single quotes; a quote within it ends them, stands escaped, and opens them again. -/
def quote (s : Text) : Text := '\'' :: (s.flatMap quoteChar ++ ['\''])

/-- Within single quotes `g c` is read as `c`. -/
def Carries (g : Char → Text) : Prop := ∀ (c : Char) (ws : List Text) (u : Text),
  run ⟨ws,some u,.single⟩ (g c) = some ⟨ws,some (u ++ [c]),.single⟩

namespace Carries

variable {g : Char → Text}

theorem of_quote {alt : Text} (h : ∀ (ws : List Text) (u : Text),
    run ⟨ws,some u,.single⟩ alt = some ⟨ws,some (u ++ ['\'']),.single⟩) :
    Carries (fun c => if c = '\'' then alt else [c]) := by
  intro c ws u
  by_cases hc : c = '\''
  · subst hc
    exact h ws u
  · simp only [if_neg hc]
    rw [run_cons,step]
    simp only [if_neg hc]
    rfl

theorem run_flatMap (h : Carries g) (ws : List Text) (u s : Text) :
    run ⟨ws,some u,.single⟩ (s.flatMap g) = some ⟨ws,some (u ++ s),.single⟩ := by
  induction s generalizing u with
  | nil =>
    rw [List.append_nil]
    rfl
  | cons c s ih =>
    rw [List.flatMap_cons,run_append,h,Option.bind_some,ih,List.append_assoc]
    rfl

/-- Outside quotes a quoted word is read as what it quotes. -/
theorem run_quoted (h : Carries g) {l : Lexer} (hm : l.mode = .plain) (s : Text) :
    run l ('\'' :: (s.flatMap g ++ ['\''])) =
      some ⟨l.words,some (l.cur.getD [] ++ s),.plain⟩ := by
  have hopen : step l '\'' = some ⟨l.words,some (l.cur.getD []),.single⟩ := by
    unfold step plainStep
    rw [hm]
    exact congrArg (fun u => some (⟨l.words,some u,.single⟩ : Lexer)) (List.append_nil _)
  rw [run_cons,hopen,Option.bind_some,run_append,h.run_flatMap]
  rfl

theorem spells (h : Carries g) (s : Text) : Spells ('\'' :: (s.flatMap g ++ ['\''])) s :=
  fun _ => h.run_quoted rfl s

end Carries

theorem carries_quoteChar : Carries quoteChar := .of_quote fun ws u => by
  change some (⟨ws,some (u ++ ['\''] ++ []),.single⟩ : Lexer) = _
  rw [List.append_nil]

theorem run_quote {l : Lexer} (hm : l.mode = .plain) (s : Text) :
    run l (quote s) = some ⟨l.words,some (l.cur.getD [] ++ s),.plain⟩ :=
  carries_quoteChar.run_quoted hm s

/-! Nothing but plain words is as long as what is read of it. -/

/-- What the words and their separators take at least. -/
def Lexer.weight (l : Lexer) : ℕ :=
  (l.words.map (fun w => w.length+1)).sum + (l.cur.elim 0 List.length) +
    if l.mode = .doubleEscaped then 1 else 0

theorem weight_push (l : Lexer) (s : Text) (mode : Mode) (h : mode ≠ .doubleEscaped) :
    (l.push s mode).weight + (if l.mode = .doubleEscaped then 1 else 0) = l.weight+s.length := by
  unfold Lexer.weight Lexer.push
  cases l.cur with
  | none => simp [h]; omega
  | some u => simp [h]; omega

theorem weight_finish (l : Lexer) : l.finish.weight ≤ l.weight+1 := by
  unfold Lexer.weight Lexer.finish
  cases l.cur with
  | none => simp; omega
  | some u => simp; omega

theorem weight_mode (l : Lexer) (mode : Mode) (h : mode ≠ .doubleEscaped) :
    ({ l with mode := mode } : Lexer).weight ≤ l.weight := by
  unfold Lexer.weight
  dsimp only
  rw [if_neg h]
  omega

theorem weight_push_le (l : Lexer) (c : Char) {mode : Mode} (h : mode ≠ .doubleEscaped) :
    (l.push [c] mode).weight ≤ l.weight+1 := by
  have hp := weight_push l [c] mode h
  rw [List.length_singleton] at hp
  omega

theorem weight_step {l l' : Lexer} {c : Char} (h : step l c = some l') :
    l'.weight ≤ l.weight+1 := by
  unfold step at h
  cases hm : l.mode with
  | plain =>
    simp only [hm,plainStep] at h
    split_ifs at h with h₁ h₂ h₃ h₄ h₅
    · cases h
      exact weight_finish l
    · cases h
      have hp := weight_push l [] .single (by decide)
      rw [List.length_nil] at hp
      omega
    · cases h
      have hp := weight_push l [] .double (by decide)
      rw [List.length_nil] at hp
      omega
    · cases h
      exact (weight_mode l _ (by decide)).trans (Nat.le_succ _)
    · cases h
      exact weight_push_le l c (by decide)
  | escaped =>
    simp only [hm] at h
    split_ifs at h with h₁
    · cases h
      exact (weight_mode l _ (by decide)).trans (Nat.le_succ _)
    · cases h
      exact weight_push_le l c (by decide)
  | single =>
    simp only [hm] at h
    split_ifs at h with h₁
    · cases h
      exact (weight_mode l _ (by decide)).trans (Nat.le_succ _)
    · cases h
      exact weight_push_le l c (by decide)
  | double =>
    simp only [hm] at h
    split_ifs at h with h₁ h₂ h₃
    · cases h
      exact (weight_mode l _ (by decide)).trans (Nat.le_succ _)
    · cases h
      unfold Lexer.weight
      dsimp only
      rw [if_pos rfl]
      omega
    · cases h
      exact weight_push_le l c (by decide)
  | doubleEscaped =>
    simp only [hm] at h
    split_ifs at h with h₁ h₂
    · cases h
      exact (weight_mode l _ (by decide)).trans (Nat.le_succ _)
    · cases h
      exact weight_push_le l c (by decide)
    · cases h
      have hp := weight_push l ['\\',c] .double (by decide)
      rw [if_pos hm] at hp
      exact le_of_eq (by simpa using hp)

theorem weight_run {l l' : Lexer} {s : Text} (h : run l s = some l') :
    l'.weight ≤ l.weight+s.length := by
  induction s generalizing l with
  | nil =>
    cases h
    exact le_rfl
  | cons c s ih =>
    rw [run_cons] at h
    obtain ⟨m,hs,hr⟩ := Option.bind_eq_some_iff.mp h
    have h₁ := weight_step hs
    have h₂ := ih hr
    rw [List.length_cons]
    omega

/-- Nothing but plain words so far. -/
structure Lexer.Sound (l : Lexer) : Prop where
  mode : l.mode = .plain
  words : ∀ w ∈ l.words, Plain w
  cur : ∀ w ∈ l.cur, Plain w

/-- A step that loses nothing reads an ordinary character or the end of a word. -/
theorem sound_step {l l' : Lexer} {c : Char} (hl : l.Sound) (h : step l c = some l')
    (hw : l.weight+1 ≤ l'.weight) : l'.Sound := by
  unfold step at h
  simp only [hl.mode,plainStep] at h
  split_ifs at h with h₁ h₂ h₃ h₄ h₅
  · cases h
    refine ⟨rfl,fun w hm => ?_,by rintro w ⟨⟩⟩
    rcases List.mem_append.mp hm with hm | hm
    · exact hl.words w hm
    · exact hl.cur w (Option.mem_toList.mp hm)
  · cases h
    have hp := weight_push l [] .single (by decide)
    rw [List.length_nil] at hp
    omega
  · cases h
    have hp := weight_push l [] .double (by decide)
    rw [List.length_nil] at hp
    omega
  · cases h
    have hp := weight_mode l .escaped (by decide)
    omega
  · cases h
    rw [not_or,not_and] at h₅
    have hc : Ordinary c := ⟨by simpa using h₁,h₂,h₃,h₄,h₅.1⟩
    refine ⟨rfl,hl.words,fun w hm => ?_⟩
    obtain rfl := Option.some.inj hm
    cases hcur : l.cur with
    | none => exact ⟨by simp,by simpa using h₅.2 hcur,by simpa using hc⟩
    | some u =>
      obtain ⟨hne,hf,ho⟩ := hl.cur u hcur
      obtain ⟨d,u,rfl⟩ := List.exists_cons_of_ne_nil hne
      refine ⟨by simp,by simpa using hf d rfl,fun d' hd => ?_⟩
      rcases List.mem_append.mp hd with hd | hd
      · exact ho d' hd
      · exact List.mem_singleton.mp hd ▸ hc

theorem sound_run {l l' : Lexer} {s : Text} (hl : l.Sound) (h : run l s = some l')
    (hw : l.weight+s.length ≤ l'.weight) : l'.Sound := by
  induction s generalizing l with
  | nil =>
    cases h
    exact hl
  | cons c s ih =>
    rw [run_cons] at h
    obtain ⟨m,hs,hr⟩ := Option.bind_eq_some_iff.mp h
    have h₁ := weight_step hs
    have h₂ := weight_run hr
    rw [List.length_cons] at hw
    exact ih (sound_step hl hs (by omega)) hr (by omega)

theorem length_spaced {ws : List Text} (h : ws ≠ []) :
    (Text.spaced ws).length+1 = (ws.map (fun w => w.length+1)).sum := by
  induction ws with
  | nil => exact absurd rfl h
  | cons w ws ih =>
    cases ws with
    | nil => simp
    | cons v ws =>
      have hi := ih (List.cons_ne_nil _ _)
      rw [Text.spaced_cons_cons,List.map_cons,List.sum_cons,← hi]
      simp
      omega

theorem sound_init : Lexer.init.Sound :=
  ⟨rfl,fun _ h => absurd h List.not_mem_nil,by rintro w ⟨⟩⟩

theorem weight_plain {l : Lexer} (h : l.mode = .plain) :
    l.weight = (l.words.map (fun w => w.length+1)).sum + l.cur.elim 0 List.length := by
  rw [Lexer.weight,h]
  rfl

/-- Words joined by blanks are read back exactly if all of them are plain. -/
theorem split_spaced_iff {ws : List Text} (hne : ws ≠ []) :
    split (Text.spaced ws) = some ws ↔ ∀ w ∈ ws, Plain w := by
  constructor
  · intro h
    obtain ⟨l,hr,hl⟩ := Option.bind_eq_some_iff.mp h
    split_ifs at hl with hm
    have hws : l.words ++ l.cur.toList = ws := Option.some.inj hl
    have hlen := length_spaced hne
    have hw := weight_run hr
    have hsum := weight_plain hm
    have hzero : Lexer.init.weight = 0 := rfl
    cases hcur : l.cur with
    | none =>
      rw [hcur,Option.toList_none,List.append_nil] at hws
      rw [hcur,Option.elim_none,hws] at hsum
      omega
    | some u =>
      rw [hcur,Option.toList_some] at hws
      rw [hcur,Option.elim_some] at hsum
      rw [← hws,List.map_append,List.sum_append,List.map_singleton,List.sum_singleton] at hlen
      have hsound := sound_run sound_init hr (by rw [hws] at hlen; omega)
      rw [← hws]
      intro w hm
      rcases List.mem_append.mp hm with hm | hm
      · exact hsound.words w hm
      · exact hsound.cur w (hcur ▸ List.mem_singleton.mp hm ▸ rfl)
  · intro h
    have hj := split_joined (f := id) (fun w hw => spells_plain (h w hw))
    rwa [List.map_id] at hj

/-- Read from anywhere but outside quotes, the quoted text is no text of words. -/
def Breaks (s : Text) : Prop := ∀ l : Lexer, l.mode ≠ .plain → run l (quote s) = none

/-- The same with a quoted word at the end. -/
theorem split_quoted_iff {ws : List Text} (hne : ws ≠ []) {s : Text} (hs : Breaks s) :
    split (Text.spaced ws ++ ' ' :: quote s) = some (ws ++ [s]) ↔ ∀ w ∈ ws, Plain w := by
  constructor
  · intro h
    obtain ⟨l,hr,hl⟩ := Option.bind_eq_some_iff.mp h
    split_ifs at hl with hm
    have hws : l.words ++ l.cur.toList = ws ++ [s] := Option.some.inj hl
    rw [show Text.spaced ws ++ ' ' :: quote s = (Text.spaced ws ++ [' ']) ++ quote s by simp,
      run_append] at hr
    obtain ⟨m,h₁,h₂⟩ := Option.bind_eq_some_iff.mp hr
    have hplain : m.mode = .plain := by
      by_contra hn
      rw [hs m hn] at h₂
      cases h₂
    rw [run_quote hplain] at h₂
    cases h₂
    obtain ⟨hwords,hlast⟩ := List.append_inj' hws rfl
    have hpend : (m.cur.getD []).length = 0 := by
      have he := congrArg List.length (List.singleton_inj.mp hlast)
      rw [List.length_append] at he
      omega
    have hlen := length_spaced hne
    have hsum := weight_plain hplain
    have hzero : Lexer.init.weight = 0 := rfl
    rw [show m.words = ws from hwords] at hsum
    have hsound := sound_run sound_init h₁ (by
      rw [List.length_append,List.length_singleton]
      omega)
    exact fun w hm => hsound.words w (hwords ▸ hm)
  · intro h
    obtain ⟨l,hr,hm,hw⟩ := run_spaced hne h []
    rw [split,Lexer.init,run_append,hr,Option.bind_some,run_cons,step_blank hm rfl,
      Option.bind_some,run_quote rfl,Option.bind_some,if_pos rfl]
    refine congrArg some ?_
    change l.words ++ l.cur.toList ++ [[] ++ s] = ws ++ [s]
    rw [hw]
    rfl

end Shell
