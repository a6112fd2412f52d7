import Mathlib.Data.List.Basic

/-! Separator-terminated records in a stream: the complete records of a prefix
and the unfinished rest, under appending more input. -/
namespace Lines

variable {α : Type} [DecidableEq α]

/-- Complete records (without their separator) and the unfinished rest. -/
def cut (sep : α) : List α → List (List α) × List α
  | [] => ([],[])
  | x :: xs =>
    let (ls,r) := cut sep xs
    if x = sep then ([] :: ls,r)
    else match ls with
      | [] => ([],x :: r)
      | l :: ls => ((x :: l) :: ls,r)

def complete (sep : α) (s : List α) : List (List α) := (cut sep s).1

def rest (sep : α) (s : List α) : List α := (cut sep s).2

def join (sep : α) (ls : List (List α)) : List α := ls.flatMap (fun l => l ++ [sep])

variable {sep : α}

theorem cut_eq (s : List α) : join sep (complete sep s) ++ rest sep s = s := by
  induction s with
  | nil => rfl
  | cons x xs ih =>
    unfold complete rest at ih ⊢
    rw [cut]
    rcases h : cut sep xs with ⟨ls,r⟩
    rw [h] at ih
    by_cases hx : x = sep
    · subst hx
      simp only [if_true]
      rw [← ih]
      simp [join]
    · simp only [if_neg hx]
      cases ls with
      | nil => rw [← ih]; simp [join]
      | cons l ls => rw [← ih]; simp [join]

/-- Neither the records nor the rest hold a separator. -/
theorem cut_clean (s : List α) :
    (∀ l ∈ complete sep s, sep ∉ l) ∧ sep ∉ rest sep s := by
  induction s with
  | nil => simp [complete,rest,cut]
  | cons x xs ih =>
    unfold complete rest at ih ⊢
    rw [cut]
    rcases h : cut sep xs with ⟨ls,r⟩
    rw [h] at ih
    by_cases hx : x = sep
    · simp only [if_pos hx,List.mem_cons,forall_eq_or_imp]
      exact ⟨⟨by simp,ih.1⟩,ih.2⟩
    · simp only [if_neg hx]
      cases ls with
      | nil => exact ⟨by simp,by simpa [Ne.symm hx] using ih.2⟩
      | cons l ls =>
        simp only [List.mem_cons,forall_eq_or_imp] at ih ⊢
        exact ⟨⟨by simpa [Ne.symm hx] using ih.1.1,ih.1.2⟩,ih.2⟩

theorem cut_of_notMem {s : List α} (h : sep ∉ s) : cut sep s = ([],s) := by
  induction s with
  | nil => rfl
  | cons x xs ih =>
    rw [List.mem_cons,not_or] at h
    rw [cut,ih h.2]
    simp [Ne.symm h.1]

theorem cut_line {l : List α} (h : sep ∉ l) (s : List α) :
    cut sep (l ++ sep :: s) = (l :: complete sep s,rest sep s) := by
  induction l with
  | nil => simp [cut,complete,rest]
  | cons x xs ih =>
    rw [List.mem_cons,not_or] at h
    rw [List.cons_append,cut,ih h.2]
    simp [Ne.symm h.1]

/-- Clean records are read back, whatever follows. -/
theorem cut_join {ls : List (List α)} (h : ∀ l ∈ ls, sep ∉ l) (s : List α) :
    cut sep (join sep ls ++ s) = (ls ++ complete sep s,rest sep s) := by
  induction ls with
  | nil => rfl
  | cons l ls ih =>
    have hs : join sep (l :: ls) ++ s = l ++ sep :: (join sep ls ++ s) := by simp [join]
    rw [hs,cut_line (h l (by simp)),complete,rest,ih (fun l' hl => h l' (by simp [hl]))]
    rfl

theorem complete_join {ls : List (List α)} (h : ∀ l ∈ ls, sep ∉ l) (s : List α) :
    complete sep (join sep ls ++ s) = ls ++ complete sep s := congrArg Prod.fst (cut_join h s)

theorem complete_eq_nil_iff (s : List α) : complete sep s = [] ↔ sep ∉ s := by
  constructor
  · intro h hm
    rw [← @cut_eq _ _ sep s,h] at hm
    exact (cut_clean s).2 (by simpa [join] using hm)
  · intro h
    rw [complete,cut_of_notMem h]

/-- Records survive an encoding that keeps the separator apart. -/
theorem complete_flatMap {β : Type} [DecidableEq β] {sep' : β} {f : α → List β}
    (hsep : f sep = [sep']) (hf : ∀ x, x ≠ sep → sep' ∉ f x) (s : List α) :
    complete sep' (s.flatMap f) = (complete sep s).map (fun l => l.flatMap f) := by
  have hclean : ∀ l : List α, sep ∉ l → sep' ∉ l.flatMap f := by
    intro l hl hm
    obtain ⟨x,hx,hxm⟩ := List.mem_flatMap.mp hm
    exact hf x (fun he => hl (he ▸ hx)) hxm
  have hjoin : ∀ ls : List (List α), (join sep ls).flatMap f =
      join sep' (ls.map (fun l => l.flatMap f)) := by
    intro ls
    induction ls with
    | nil => rfl
    | cons l ls ih =>
      simp only [join,List.flatMap_cons,List.flatMap_append,List.map_cons,List.flatMap_nil,
        hsep,List.append_nil] at ih ⊢
      rw [ih]
  conv_lhs => rw [← @cut_eq _ _ sep s]
  rw [List.flatMap_append,hjoin,complete_join,
    (complete_eq_nil_iff _).mpr (hclean _ (cut_clean s).2),List.append_nil]
  intro l hl
  obtain ⟨l',hl',rfl⟩ := List.mem_map.mp hl
  exact hclean l' ((cut_clean s).1 l' hl')

def first (sep : α) : List α → List α × List α
  | [] => ([],[])
  | x :: xs =>
    if x = sep then ([x],xs)
    else
      let (l,s) := first sep xs
      (x :: l,s)

def raw (sep : α) (s : List α) : List (List α) :=
  (complete sep s).map (· ++ [sep]) ++ if rest sep s = [] then [] else [rest sep s]

theorem first_append {l : List α} (h : sep ∉ l) (s : List α) :
    first sep (l ++ s) = (l ++ (first sep s).1,(first sep s).2) := by
  induction l with
  | nil => rfl
  | cons x xs ih =>
    rw [List.mem_cons,not_or] at h
    rw [List.cons_append,first,if_neg (Ne.symm h.1),ih h.2]
    rfl

theorem first_of_notMem {l : List α} (h : sep ∉ l) : first sep l = (l,[]) := by
  simpa [first] using first_append h []

theorem first_line {l : List α} (h : sep ∉ l) (s : List α) :
    first sep (l ++ sep :: s) = (l ++ [sep],s) := by
  rw [first_append h,first,if_pos rfl]

theorem raw_nil : raw sep ([] : List α) = [] := rfl

theorem raw_eq {s : List α} (h : s ≠ []) :
    raw sep s = (first sep s).1 :: raw sep (first sep s).2 := by
  by_cases hm : sep ∈ s
  · obtain ⟨l,t,rfl,hl⟩ := List.eq_append_cons_of_mem hm
    have hc : complete sep (l ++ sep :: t) = l :: complete sep t :=
      congrArg Prod.fst (cut_line hl t)
    have hr : rest sep (l ++ sep :: t) = rest sep t := by rw [rest,cut_line hl]
    rw [first_line hl,raw,hc,hr]
    rfl
  · rw [first_of_notMem hm]
    simp [raw,complete,rest,cut_of_notMem hm,h,cut]

theorem first_ne_nil {s : List α} (h : s ≠ []) : (first sep s).1 ≠ [] := by
  cases s with
  | nil => exact absurd rfl h
  | cons x xs =>
    rw [first]
    split
    · exact List.cons_ne_nil _ _
    · exact List.cons_ne_nil _ _

omit [DecidableEq α] in
theorem join_append (a b : List (List α)) : join sep (a ++ b) = join sep a ++ join sep b := by
  simp [join]

end Lines
