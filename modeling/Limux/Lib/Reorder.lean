import Mathlib.Data.List.Perm.Basic
import Mathlib.Data.List.Nodup
import Mathlib.Data.List.InsertIdx

/-! Bringing a list into a given order in place: element after element is taken out and
put back at its position. -/

namespace Reorder

variable {α : Type}

theorem insertIdx_append (l r : List α) (x : α) :
    (l ++ r).insertIdx l.length x = l ++ x :: r := by
  induction l with
  | nil => simp
  | cons y l ih => simp [ih]

theorem insertIdx_take {l : List α} {d : ℕ} (h : d ≤ l.length) (x : α) :
    l.insertIdx d x = l.take d ++ x :: l.drop d := by
  have ht := insertIdx_append (l.take d) (l.drop d) x
  rwa [List.take_append_drop,List.length_take_of_le h] at ht

/-- Elements other than the one that moves keep their order. -/
theorem filter_moved {q : α → Bool} {l : List α} {k d : ℕ} {x : α} (hk : l[k]? = some x)
    (hd : d ≤ (l.eraseIdx k).length) (hx : q x = false) :
    ((l.eraseIdx k).insertIdx d x).filter q = l.filter q := by
  obtain ⟨hlt,rfl⟩ := List.getElem?_eq_some_iff.mp hk
  have hl : l = l.take k ++ l[k] :: l.drop (k+1) := by
    rw [← List.drop_eq_getElem_cons hlt,List.take_append_drop]
  have hins : ((l.eraseIdx k).insertIdx d l[k]).filter q = (l.eraseIdx k).filter q := by
    rw [insertIdx_take hd,List.filter_append,List.filter_cons_of_neg (by simp [hx]),
      ← List.filter_append,List.take_append_drop]
  rw [hins,List.eraseIdx_eq_take_drop_succ,List.filter_append]
  conv_rhs => rw [hl]
  rw [List.filter_append,List.filter_cons_of_neg (by simp [hx])]

variable [DecidableEq α]

/-- Take `x` out and put it back at position `i`, or at the end if the list is shorter. -/
def moveTo (l : List α) (x : α) (i : ℕ) : List α :=
  (l.erase x).insertIdx (min i (l.erase x).length) x

/-- Move `x` to position `i` unless it is there, or nowhere. -/
def place (l : List α) (x : α) (i : ℕ) : List α :=
  match l.idxOf? x with
  | some j => if j ≠ i then moveTo l x i else l
  | none => l

/-- Place the elements of the target one after the other, from position `i` on. -/
def arrange (l : List α) (i : ℕ) (target : List α) : List α :=
  (target.zipIdx i).foldl (fun l e => place l e.1 e.2) l

@[simp] theorem arrange_nil (l : List α) (i : ℕ) : arrange l i [] = l := rfl

@[simp] theorem arrange_cons (l : List α) (i : ℕ) (x : α) (xs : List α) :
    arrange l i (x :: xs) = arrange (place l x i) (i+1) xs := rfl

theorem idxOf?_append_cons {l : List α} {x : α} (hx : x ∉ l) (r : List α) :
    (l ++ x :: r).idxOf? x = some l.length := by
  induction l with
  | nil => simp [List.idxOf?_cons]
  | cons y l ih =>
    rw [List.mem_cons,not_or] at hx
    simp [List.idxOf?_cons,Ne.symm hx.1,ih hx.2]

/-- With everything before position `i` in place, the next element gets its place. -/
theorem place_next {done rest : List α} {x : α} (hx : x ∈ rest) (hd : x ∉ done) :
    place (done ++ rest) x done.length = done ++ x :: rest.erase x := by
  obtain ⟨pre,post,rfl,hpre⟩ := List.eq_append_cons_of_mem hx
  have herase : (done ++ (pre ++ x :: post)).erase x = done ++ (pre ++ post) := by
    rw [List.erase_append_right _ hd,List.erase_append_right _ hpre,List.erase_cons_head]
  have hidx : (done ++ (pre ++ x :: post)).idxOf? x = some (done.length+pre.length) := by
    rw [← List.append_assoc,idxOf?_append_cons (by simp [hd,hpre]),List.length_append]
  rw [place,hidx,List.erase_append_right _ hpre,List.erase_cons_head]
  cases pre with
  | nil => simp
  | cons y pre =>
    have hmin : min done.length (done ++ (y :: pre ++ post)).length = done.length := by simp
    have hne : done.length+(y :: pre).length ≠ done.length := by simp
    simp only [if_pos hne]
    rw [moveTo,herase,hmin,insertIdx_append]

/-- The elements before `i` stay, the others take the order of the target. -/
theorem arrange_append {done rest target : List α} (hp : rest.Perm target)
    (hn : (done ++ target).Nodup) : arrange (done ++ rest) done.length target = done ++ target := by
  induction target generalizing done rest with
  | nil => rw [hp.eq_nil,arrange_nil]
  | cons x xs ih =>
    have hx : x ∈ rest := hp.mem_iff.mpr (by simp)
    have hd : x ∉ done := fun h => (List.disjoint_of_nodup_append hn) h (by simp)
    have hrest : (rest.erase x).Perm xs := by
      simpa using hp.erase x
    have hn' : (done ++ [x] ++ xs).Nodup := by simpa using hn
    rw [arrange_cons,place_next hx hd]
    simpa using ih hrest hn'

/-- Every order is reached. -/
theorem arrange_eq {l target : List α} (hp : l.Perm target) (hn : target.Nodup) :
    arrange l 0 target = target :=
  @arrange_append α _ [] l target hp hn

end Reorder
