import Mathlib.Data.List.Basic
import Mathlib.Data.List.Induction

/-! Lists read by their first match: the first element with a property replaced, or a new one
behind the others, and what such lists tell after many replacements under many keys. -/
namespace FirstMatch

variable {α β : Type} {p q : α → Bool} {f : α → Option β} {a : α}

/-- `a` in the place of the first match, or at the end. -/
def put (p : α → Bool) (a : α) : List α → List α
  | [] => [a]
  | x :: l => if p x then a :: l else x :: put p a l

theorem put_ne_nil (p : α → Bool) (a : α) (l : List α) : put p a l ≠ [] := by
  cases l with
  | nil => simp [put]
  | cons x l =>
    rw [put]
    split <;> simp

theorem mem_put {x : α} {l : List α} (h : x ∈ put p a l) : x = a ∨ x ∈ l := by
  induction l with
  | nil => exact .inl (List.mem_singleton.mp h)
  | cons y l ih =>
    rw [put] at h
    split at h
    · obtain h | h := List.mem_cons.mp h
      · exact .inl h
      · exact .inr (List.mem_cons_of_mem _ h)
    · obtain rfl | h := List.mem_cons.mp h
      · exact .inr List.mem_cons_self
      · exact (ih h).imp_right (List.mem_cons_of_mem _)

theorem eraseP_put (ha : p a = true) (l : List α) : (put p a l).eraseP p = l.eraseP p := by
  induction l with
  | nil => simp [put,ha]
  | cons x l ih =>
    rw [put]
    split
    · rename_i hx
      simp [ha,hx]
    · rename_i hx
      rw [List.eraseP_cons_of_neg hx,List.eraseP_cons_of_neg hx,ih]

theorem findSome?_put (h : ∀ x, p x = false → f x = none) (l : List α) :
    (put p a l).findSome? f = (f a).or ((l.eraseP p).findSome? f) := by
  induction l with
  | nil => simp [put]
  | cons x l ih =>
    rw [put]
    split
    · rename_i hx
      rw [List.eraseP_cons_of_pos hx,List.findSome?_cons]
      cases f a <;> rfl
    · rename_i hx
      rw [List.eraseP_cons_of_neg hx,List.findSome?_cons,List.findSome?_cons,
        h x (Bool.eq_false_iff.mpr hx),ih]

theorem findSome?_filter_of_none {b : α → Bool} (h : ∀ x, b x = false → f x = none) (l : List α) :
    (l.filter b).findSome? f = l.findSome? f := by
  induction l with
  | nil => rfl
  | cons x l ih =>
    rw [List.filter_cons]
    split
    · rw [List.findSome?_cons,List.findSome?_cons,ih]
    · rename_i hx
      rw [List.findSome?_cons,h x (Bool.eq_false_iff.mpr hx),ih]

/-! Elements with another property. -/

theorem findSome?_put_of_none (ha : f a = none) (h : ∀ x, p x = true → f x = none) (l : List α) :
    (put p a l).findSome? f = l.findSome? f := by
  induction l with
  | nil => simp [put,ha]
  | cons x l ih =>
    rw [put]
    split
    · rename_i hx
      rw [List.findSome?_cons,List.findSome?_cons,ha,h x hx]
    · rw [List.findSome?_cons,List.findSome?_cons,ih]

theorem eraseP_put_of_disjoint (ha : q a = false) (h : ∀ x, p x = true → q x = false)
    (l : List α) : (put p a l).eraseP q = put p a (l.eraseP q) := by
  induction l with
  | nil => simp [put,ha]
  | cons x l ih =>
    rw [put]
    split
    · rename_i hx
      have hq : ¬ q x = true := Bool.eq_false_iff.mp (h x hx)
      rw [List.eraseP_cons_of_neg (Bool.eq_false_iff.mp ha),List.eraseP_cons_of_neg hq,put,
        if_pos hx]
    · rename_i hx
      by_cases hq : q x = true
      · rw [List.eraseP_cons_of_pos hq,List.eraseP_cons_of_pos hq]
      · rw [List.eraseP_cons_of_neg hq,List.eraseP_cons_of_neg hq,put,if_neg hx,ih]

theorem filter_put (ha : q a = false) (h : ∀ x, p x = true → q x = false) (l : List α) :
    (put p a l).filter q = l.filter q := by
  induction l with
  | nil => simp [put,ha]
  | cons x l ih =>
    rw [put]
    split
    · rename_i hx
      rw [List.filter_cons_of_neg (Bool.eq_false_iff.mp ha),
        List.filter_cons_of_neg (Bool.eq_false_iff.mp (h x hx))]
    · rw [List.filter_cons,List.filter_cons,ih]

/-- What is seen of the elements, where some are not seen at all. -/
theorem filter_map_put {γ : Type} {t : α → γ} {b : γ → Bool} {r : γ → Bool}
    (hp : ∀ x, p x = r (t x)) (hr : ∀ x, p x = true → b (t x) = true) (ha : b (t a) = true)
    (l : List α) :
    ((put p a l).map t).filter b = put r (t a) ((l.map t).filter b) := by
  induction l with
  | nil => simp [put,ha]
  | cons x l ih =>
    rw [put]
    split
    · rename_i hx
      rw [List.map_cons,List.map_cons,List.filter_cons_of_pos ha,
        List.filter_cons_of_pos (hr x hx),put,if_pos (hp x ▸ hx)]
    · rename_i hx
      rw [List.map_cons,List.map_cons,List.filter_cons,List.filter_cons,ih]
      split
      · rw [put,if_neg (hp x ▸ hx)]
      · rfl

/-! Many replacements, each under its key. -/

section Keys

variable {κ V : Type} {r : κ → α → Bool} {line : κ → V → α} {k : κ}

def puts (r : κ → α → Bool) (line : κ → V → α) (edits : List (κ × V)) (l : List α) : List α :=
  edits.foldl (fun l e => put (r e.1) (line e.1 e.2) l) l

/-- A key matches its own lines, and no line matches two keys. -/
structure Keyed (r : κ → α → Bool) (line : κ → V → α) : Prop where
  self : ∀ k v, r k (line k v) = true
  other : ∀ j k x, j ≠ k → r j x = true → r k x = false

theorem eraseP_puts (h : Keyed r line) (hf : ∀ x, r k x = false → f x = none)
    (edits : List (κ × V)) (l : List α) :
    ((puts r line edits l).eraseP (r k)).findSome? f = (l.eraseP (r k)).findSome? f := by
  induction edits using List.reverseRecOn with
  | nil => rfl
  | append_singleton edits e ih =>
    rw [puts,List.foldl_concat]
    by_cases he : e.1 = k
    · rw [he,eraseP_put (h.self k e.2)]
      exact ih
    · have hne := h.other _ k _ he (h.self e.1 e.2)
      rw [eraseP_put_of_disjoint hne (fun x hx => h.other _ k x he hx),
        findSome?_put_of_none (hf _ hne) (fun x hx => hf x (h.other _ k x he hx))]
      exact ih

/-- What matches no key that is used stays, in its order. -/
theorem filter_puts {edits : List (κ × V)} (h : Keyed r line)
    (hq : ∀ e ∈ edits, ∀ x, r e.1 x = true → q x = false) (l : List α) :
    (puts r line edits l).filter q = l.filter q := by
  induction edits using List.reverseRecOn with
  | nil => rfl
  | append_singleton edits e ih =>
    have hlast : e ∈ edits ++ [e] := List.mem_append_right _ (List.mem_singleton_self e)
    rw [puts,List.foldl_concat,
      filter_put (hq e hlast _ (h.self e.1 e.2)) (fun x hx => hq e hlast x hx)]
    exact ih (fun e' he' => hq e' (List.mem_append_left _ he'))

variable [DecidableEq κ]

def lastOf (k : κ) (edits : List (κ × V)) : Option V :=
  ((edits.filter (fun e => e.1 = k)).getLast?).map Prod.snd

theorem lastOf_concat (k : κ) (edits : List (κ × V)) (e : κ × V) :
    lastOf k (edits ++ [e]) = if e.1 = k then some e.2 else lastOf k edits := by
  rw [lastOf,List.filter_append]
  split
  · rename_i h
    simp [h]
  · rename_i h
    simp [h,lastOf]

/-- A key tells what was put last under it; without a value, or without a replacement, what
the list told behind its first match, or at all. -/
theorem findSome?_puts (h : Keyed r line) (hf : ∀ x, r k x = false → f x = none)
    (edits : List (κ × V)) (l : List α) :
    (puts r line edits l).findSome? f = (lastOf k edits).elim (l.findSome? f)
      (fun v => (f (line k v)).or ((l.eraseP (r k)).findSome? f)) := by
  induction edits using List.reverseRecOn with
  | nil => rfl
  | append_singleton edits e ih =>
    rw [puts,List.foldl_concat,lastOf_concat]
    by_cases he : e.1 = k
    · rw [if_pos he,he,findSome?_put hf,Option.elim_some]
      exact congrArg _ (eraseP_puts h hf edits l)
    · have hne := h.other _ k _ he (h.self e.1 e.2)
      rw [if_neg he,findSome?_put_of_none (hf _ hne)
        (fun x hx => hf x (h.other _ k x he hx))]
      exact ih

end Keys

end FirstMatch
