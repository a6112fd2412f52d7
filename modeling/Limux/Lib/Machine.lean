import Mathlib.Data.List.Basic

/-! Machines given by a partial step function: runs as lists of actions, the states
they reach, and invariants of them. Processes are numbered by their place in a list. -/

namespace Machine

variable {S A : Type}

/-- States reached from `s₀` by steps that satisfy `ok`. -/
inductive Reach (step : S → A → Option S) (ok : S → A → Prop) (s₀ : S) : S → Prop
  | start : Reach step ok s₀ s₀
  | next {s s' : S} (a : A) : Reach step ok s₀ s → ok s a → step s a = some s' →
      Reach step ok s₀ s'

def anyStep : S → A → Prop := fun _ _ => True

/-- A run: the actions one after the other, each allowed by `ok`. -/
def run (step : S → A → Option S) (ok : S → A → Prop) [∀ s a, Decidable (ok s a)] (s : S)
    (acts : List A) : Option S :=
  acts.foldlM (fun s a => if ok s a then step s a else none) s

instance : ∀ (s : S) (a : A), Decidable (anyStep s a) := fun _ _ => .isTrue trivial

variable {step : S → A → Option S} {ok ok' : S → A → Prop} {s₀ s s' : S}

/-- An invariant of the steps holds wherever a run gets. -/
theorem Reach.inv {P : S → Prop} (h : Reach step ok s₀ s) (h₀ : P s₀)
    (hstep : ∀ s a s', P s → ok s a → step s a = some s' → P s') : P s := by
  induction h with
  | start => exact h₀
  | next a _ hok hs ih => exact hstep _ a _ ih hok hs

theorem Reach.mono (h : Reach step ok s₀ s) (hk : ∀ s a, ok s a → ok' s a) :
    Reach step ok' s₀ s := by
  induction h with
  | start => exact .start
  | next a _ hok hs ih => exact .next a ih (hk _ _ hok) hs

theorem Reach.trans (h : Reach step ok s₀ s) (h' : Reach step ok s s') : Reach step ok s₀ s' := by
  induction h' with
  | start => exact h
  | next a _ hok hs ih => exact .next a ih hok hs

theorem reach_of_run [∀ s a, Decidable (ok s a)] (acts : List A)
    (h : run step ok s₀ acts = some s) : Reach step ok s₀ s := by
  induction acts generalizing s₀ with
  | nil =>
    cases h
    exact .start
  | cons a acts ih =>
    rw [run,List.foldlM_cons] at h
    obtain ⟨s₁,h₁,h₂⟩ := Option.bind_eq_some_iff.mp h
    split at h₁
    · rename_i hok
      exact Reach.trans (.next a .start hok h₁) (ih h₂)
    · cases h₁

/-- A run that is looked at where it ends. -/
theorem reach_of_glance [∀ s a, Decidable (ok s a)] {O : Type} (glance : S → O) (acts : List A)
    {o : O} (h : (run step ok s₀ acts).map glance = some o) :
    ∃ s, Reach step ok s₀ s ∧ glance s = o := by
  obtain ⟨s,hs,ho⟩ := Option.map_eq_some_iff.mp h
  exact ⟨s,reach_of_run acts hs,ho⟩

/-- Steps that a measure pays for are no more than its first value. -/
theorem length_main_of_run [∀ s a, Decidable (ok s a)] {P : S → Prop} (measure : S → ℕ)
    (main : A → Bool) (hP : ∀ s a s', P s → step s a = some s' → P s')
    (hm : ∀ s a s', P s → step s a = some s' →
      measure s'+(if main a then 1 else 0) ≤ measure s)
    (acts : List A) (h₀ : P s₀) (h : run step ok s₀ acts = some s) :
    (acts.filter main).length+measure s ≤ measure s₀ := by
  induction acts generalizing s₀ with
  | nil =>
    cases h
    exact Nat.le_of_eq (Nat.zero_add _)
  | cons a acts ih =>
    rw [run,List.foldlM_cons] at h
    obtain ⟨s₁,h₁,h₂⟩ := Option.bind_eq_some_iff.mp h
    split at h₁
    · have hi := ih (hP _ _ _ h₀ h₁) h₂
      have hstep := hm _ _ _ h₀ h₁
      rw [List.filter_cons]
      split
      · rename_i ha
        rw [if_pos ha] at hstep
        rw [List.length_cons]
        omega
      · rename_i ha
        rw [if_neg ha] at hstep
        omega
    · cases h₁

/-! Tables of processes. -/

theorem getElem?_append_one {α : Type} {l : List α} {a x : α} {i : ℕ}
    (h : (l ++ [a])[i]? = some x) : l[i]? = some x ∨ i = l.length ∧ x = a := by
  rw [List.getElem?_append] at h
  split at h
  · exact .inl h
  · rw [List.getElem?_singleton] at h
    split at h
    · cases h
      exact .inr ⟨by omega,rfl⟩
    · cases h

theorem getElem?_modify_cases {α : Type} {l : List α} {f : α → α} {i j : ℕ} {y : α}
    (h : (l.modify i f)[j]? = some y) :
    ∃ x, l[j]? = some x ∧ (j = i ∧ y = f x ∨ j ≠ i ∧ y = x) := by
  rw [List.getElem?_modify] at h
  obtain ⟨x,hx,rfl⟩ := Option.map_eq_some_iff.mp h
  refine ⟨x,hx,?_⟩
  split
  · rename_i hij
    exact .inl ⟨hij.symm,rfl⟩
  · rename_i hij
    exact .inr ⟨fun he => hij he.symm,rfl⟩

theorem getElem?_set_cases {α : Type} {l : List α} {a x : α} {i j : ℕ}
    (h : (l.set i a)[j]? = some x) : j = i ∧ x = a ∨ j ≠ i ∧ l[j]? = some x := by
  rw [List.getElem?_set] at h
  split at h
  · rename_i hij
    split at h
    · cases h
      exact .inl ⟨hij.symm,rfl⟩
    · cases h
  · rename_i hij
    exact .inr ⟨fun he => hij he.symm,h⟩

theorem getElem?_set_self_of_some {α : Type} {l : List α} {a x : α} {i : ℕ}
    (h : l[i]? = some x) : (l.set i a)[i]? = some a :=
  List.getElem?_set_self (List.getElem?_eq_some_iff.mp h).1

theorem getElem?_append_of_eq_some {α : Type} {l m : List α} {i : ℕ} {x : α}
    (h : l[i]? = some x) : (l ++ m)[i]? = some x := by
  rw [List.getElem?_append_left (List.getElem?_eq_some_iff.mp h).1,h]

end Machine
