import Limux.Lib.Json

/-! Typed values in JSON documents, by the rules of derived readers: a reader is
given the nesting depth it has left, a record wants each member at most once, an
optional member may be missing or null, unknown members are skipped. -/

namespace Serde

variable {F α β : Type}

def text (s : String) : Json F := .str s.toList

def string : Json F → Option String
  | .str s => some (.ofList s)
  | _ => none

def bool : Json F → Option Bool
  | .bool b => some b
  | _ => none

def int : Json F → Option ℤ
  | .num (.int n) => some n
  | _ => none

def nat (j : Json F) : Option ℕ := j.asU64

/-- An array. Entering it takes one level of depth, and the last is not given out. -/
def list (r : ℕ → Json F → Option α) : ℕ → Json F → Option (List α)
  | n+2, .arr l => l.mapM (r (n+1))
  | _, _ => none

def record (f : ℕ → List (String × Json F) → Option α) : ℕ → Json F → Option α
  | n+2, .obj fields => f (n+1) fields
  | _, _ => none

def option (r : Json F → Option α) : Json F → Option (Option α)
  | .null => some none
  | j => (r j).map some

/-- The member `k`, if any; a key that occurs twice is an error. -/
def member (k : String) (fields : List (String × Json F)) : Option (Option (Json F)) :=
  match fields.filter (fun e => e.1 = k) with
  | [] => some none
  | [e] => some (some e.2)
  | _ => none

def field (k : String) (r : Json F → Option α) (fields : List (String × Json F)) : Option α :=
  (member k fields).bind (fun m => m.bind r)

def fieldD (k : String) (d : α) (r : Json F → Option α) (fields : List (String × Json F)) :
    Option α :=
  (member k fields).bind (fun m => m.elim (some d) r)

def optField (k : String) (r : Json F → Option α) (fields : List (String × Json F)) :
    Option (Option α) :=
  fieldD k none (option r) fields

/-- An optional value; `None` is written as null. -/
def orNull (w : α → Json F) (o : Option α) : Json F := (o.map w).getD .null

theorem mapM_map_eq_some {w : α → β} {r : β → Option α} {l : List α} :
    (l.map w).mapM r = some l ↔ ∀ x ∈ l, r (w x) = some x := by
  induction l with
  | nil => simp
  | cons x xs ih =>
    rw [List.map_cons,List.mapM_cons,List.forall_mem_cons,← ih]
    cases hx : r (w x) <;> cases hxs : (xs.map w).mapM r <;> simp

/-- A part of every member that is read back as it was. -/
theorem mapM_map_keeps {γ : Type} {w : α → β} {r : β → Option α} {f : α → γ} {l l' : List α}
    (h : (l.map w).mapM r = some l') (hf : ∀ x y, r (w x) = some y → f y = f x) :
    l'.map f = l.map f := by
  induction l generalizing l' with
  | nil =>
    cases h
    rfl
  | cons x xs ih =>
    rw [List.map_cons,List.mapM_cons] at h
    obtain ⟨y,hy,h⟩ := Option.bind_eq_some_iff.mp h
    obtain ⟨ys,hys,h⟩ := Option.bind_eq_some_iff.mp h
    cases h
    rw [List.map_cons,List.map_cons,hf x y hy,ih hys]

/-- A list is read back if its members are. -/
theorem list_arr {w : α → Json F} {r : ℕ → Json F → Option α} {n : ℕ} {l : List α} :
    list r (n+2) (.arr (l.map w)) = some l ↔ ∀ x ∈ l, r (n+1) (w x) = some x :=
  mapM_map_eq_some

/-- An optional value is read back if the value is. -/
theorem option_orNull {w : α → Json F} {r : Json F → Option α} (hw : ∀ x, w x ≠ .null)
    {o : Option α} : option r (orNull w o) = some o ↔ ∀ x ∈ o, r (w x) = some x := by
  cases o with
  | none => simp [orNull,option]
  | some x =>
    have hopt : option r (w x) = (r (w x)).map some := by
      unfold option
      split
      · rename_i h
        exact absurd h (hw x)
      · rfl
    simp [orNull,hopt]

@[simp] theorem string_text (s : String) : string (text s : Json F) = some s := by
  simp [string,text]

@[simp] theorem option_text (o : Option String) :
    option string (orNull text o : Json F) = some o :=
  (option_orNull (fun _ => by simp [text])).mpr (fun x _ => string_text x)

@[simp] theorem option_bool (o : Option Bool) : option bool (orNull .bool o : Json F) = some o :=
  (option_orNull (fun _ => by simp)).mpr (fun _ _ => rfl)

end Serde
