import Mathlib.Data.List.Infix

/-! Replacing what is found in a list, from left to right and without overlaps. -/

namespace Rewrite

variable {α : Type}

/-- `m` says how many items behind the first one belong to a match at the start of a list. The
number is how many are still to be left out. -/
def rewriteFrom (m : List α → Option ℕ) (new : List α) : ℕ → List α → List α
  | _, [] => []
  | k+1, _ :: s => rewriteFrom m new k s
  | 0, c :: s =>
    match m (c :: s) with
    | some n => new ++ rewriteFrom m new n s
    | none => c :: rewriteFrom m new 0 s

def rewrite (m : List α → Option ℕ) (new s : List α) : List α := rewriteFrom m new 0 s

variable {m : List α → Option ℕ} {new s : List α} {c : α} {n : ℕ}

theorem rewriteFrom_eq (k : ℕ) (s : List α) :
    rewriteFrom m new k s = rewrite m new (s.drop k) := by
  induction k generalizing s with
  | zero => rfl
  | succ k ih =>
    cases s with
    | nil => rfl
    | cons c s => exact ih s

@[simp] theorem rewrite_nil : rewrite m new [] = [] := rfl

theorem rewrite_of_some (h : m (c :: s) = some n) :
    rewrite m new (c :: s) = new ++ rewrite m new (s.drop n) := by
  rw [rewrite,rewriteFrom,h,← rewriteFrom_eq]

theorem rewrite_of_none (h : m (c :: s) = none) :
    rewrite m new (c :: s) = c :: rewrite m new s := by
  rw [rewrite,rewriteFrom,h]
  rfl

/-- A list that ends two lists ends the second or begins in the first. -/
theorem suffix_append {x y : List α} (h : y <:+ x ++ s) :
    y <:+ s ∨ ∃ z, z ≠ [] ∧ z <:+ x ∧ y = z ++ s := by
  obtain ⟨w,hw⟩ := h
  rcases List.append_eq_append_iff.mp hw with ⟨z,rfl,rfl⟩ | ⟨z,-,rfl⟩
  · by_cases hz : z = []
    · rw [hz]
      exact .inl (List.suffix_refl s)
    · exact .inr ⟨z,hz,List.suffix_append w z,rfl⟩
  · exact .inl (List.suffix_append z y)

/-- Where no match starts, nothing is replaced. -/
theorem rewrite_append (x : List α) (h : ∀ y, y ≠ [] → y <:+ x → m (y ++ s) = none) :
    rewrite m new (x ++ s) = x ++ rewrite m new s := by
  induction x with
  | nil => rfl
  | cons c x ih =>
    have hx := h (c :: x) (by simp) (List.suffix_refl _)
    rw [List.cons_append] at hx ⊢
    rw [rewrite_of_none hx,List.cons_append,ih]
    exact fun y hy hsuf => h y hy (hsuf.trans (List.suffix_cons c x))

end Rewrite
