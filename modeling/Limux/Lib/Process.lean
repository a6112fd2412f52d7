import Mathlib.Logic.Basic
import Mathlib.Data.List.Basic

/-! Processes that a program runs one after the other: how they end, and what is logged on the
way to a result. -/

/-- How a process ended; a signal with its number and name. -/
inductive ExitStatus
  | code (n : ℕ)
  | signal (name : String)
  deriving DecidableEq

namespace ExitStatus

def success (s : ExitStatus) : Bool := s = .code 0

def display : ExitStatus → String
  | code n => "exit status: " ++ toString n
  | signal name => "signal: " ++ name

end ExitStatus

/-- A result or an error, and the events before it. -/
structure Logged (E ε α : Type) where
  log : List E
  result : Except ε α

namespace Logged

variable {E ε α β P : Type}

instance : Monad (Logged E ε) where
  pure a := ⟨[],.ok a⟩
  bind x f :=
    match x.result with
    | .ok a => ⟨x.log ++ (f a).log,(f a).result⟩
    | .error e => ⟨x.log,.error e⟩

theorem log_bind (x : Logged E ε α) (f : α → Logged E ε β) : (x >>= f).log =
    match x.result with
    | .ok a => x.log ++ (f a).log
    | .error _ => x.log := by
  simp only [bind]
  cases x.result <;> rfl

section Backed

variable (uses : E → P → Prop) (gives : E → P → Prop)

/-- Whatever an event uses has been given by an earlier one, which may be in `seen`. -/
def Backed (seen log : List E) : Prop :=
  ∀ before e after, log = before ++ e :: after → ∀ p, uses e p → ∃ g ∈ seen ++ before, gives g p

variable {uses gives} {seen log : List E}

theorem backed_of_not_uses (h : ∀ e ∈ log, ∀ p, ¬uses e p) : Backed uses gives seen log := by
  rintro before e after rfl p hp
  exact absurd hp (h e (by simp) p)

theorem backed_nil : Backed uses gives seen [] := backed_of_not_uses (by simp)

theorem backed_singleton {e : E} (h : ∀ p, uses e p → ∃ g ∈ seen, gives g p) :
    Backed uses gives seen [e] := by
  intro before e' after heq p hp
  obtain ⟨rfl,rfl,-⟩ : before = [] ∧ e = e' ∧ after = [] := by
    cases before with
    | nil => simpa using heq
    | cons x before => simp at heq
  simpa using h p hp

theorem Backed.append {more : List E} (h : Backed uses gives seen log)
    (hmore : Backed uses gives (seen ++ log) more) : Backed uses gives seen (log ++ more) := by
  intro before e after heq p hp
  rcases List.append_eq_append_iff.mp heq with ⟨l,rfl,hl⟩ | ⟨l,rfl,hl⟩
  · obtain ⟨g,hg,hgives⟩ := hmore l e after hl p hp
    exact ⟨g,by rwa [List.append_assoc] at hg,hgives⟩
  · cases l with
    | nil =>
      rw [List.nil_append] at hl
      obtain ⟨g,hg,hgives⟩ := hmore [] e after hl.symm p hp
      exact ⟨g,by simpa using hg,hgives⟩
    | cons x l =>
      obtain ⟨rfl,-⟩ := List.cons.inj hl
      exact h before e l rfl p hp

theorem Backed.bind {x : Logged E ε α} {f : α → Logged E ε β} (h : Backed uses gives seen x.log)
    (hf : ∀ a, x.result = .ok a → Backed uses gives (seen ++ x.log) (f a).log) :
    Backed uses gives seen (x >>= f).log := by
  rw [log_bind]
  cases hx : x.result with
  | ok a => exact h.append (hf a hx)
  | error e => exact h

end Backed

end Logged
