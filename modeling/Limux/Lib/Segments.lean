import Mathlib.Data.List.Basic

/-! Bytes that arrive in segments: a read takes from the first segment with bytes in it,
and what reads hand out does not depend on how the bytes were cut. -/
namespace Segments

variable {α : Type}

/-- One read into a buffer of `n`; nothing at the end of the input. -/
def read (n : ℕ) : List (List α) → List α × List (List α)
  | [] => ([],[])
  | [] :: segs => read n segs
  | (x :: xs) :: segs => ((x :: xs).take n,(x :: xs).drop n :: segs)

/-- `read_exact`: `n` elements, or none where the input ends before. -/
def readExact : ℕ → List (List α) → Option (List α × List (List α))
  | 0, segs => some ([],segs)
  | _+1, [] => none
  | n+1, seg :: segs =>
    if n+1 ≤ seg.length then some (seg.take (n+1),seg.drop (n+1) :: segs)
    else (readExact (n+1-seg.length) segs).map (fun p => (seg ++ p.1,p.2))

theorem read_flatten (n : ℕ) (segs : List (List α)) :
    (read n segs).1 ++ (read n segs).2.flatten = segs.flatten := by
  induction segs with
  | nil => rfl
  | cons seg segs ih =>
    cases seg with
    | nil => simpa [read] using ih
    | cons x xs => simp only [read,List.flatten_cons,← List.append_assoc,List.take_append_drop]

theorem length_read_le (n : ℕ) (segs : List (List α)) : (read n segs).1.length ≤ n := by
  induction segs with
  | nil => simp [read]
  | cons seg segs ih =>
    cases seg with
    | nil => exact ih
    | cons x xs => exact List.length_take_le n (x :: xs)

/-- A read brings nothing only at the end. -/
theorem read_eq_nil_iff {n : ℕ} (hn : 0 < n) (segs : List (List α)) :
    (read n segs).1 = [] ↔ segs.flatten = [] := by
  induction segs with
  | nil => simp [read]
  | cons seg segs ih =>
    cases seg with
    | nil => simpa [read] using ih
    | cons x xs =>
      obtain ⟨m,rfl⟩ : ∃ m, n = m+1 := ⟨n-1,by omega⟩
      simp [read]

theorem readExact_append (a : List α) : ∀ (segs : List (List α)) (b : List α),
    segs.flatten = a ++ b →
      ∃ rest, readExact a.length segs = some (a,rest) ∧ rest.flatten = b := by
  intro segs
  induction segs generalizing a with
  | nil =>
    intro b h
    obtain ⟨rfl,rfl⟩ := List.append_eq_nil_iff.mp h.symm
    exact ⟨[],rfl,rfl⟩
  | cons seg segs ih =>
    intro b h
    rw [List.flatten_cons] at h
    cases a with
    | nil => exact ⟨_,rfl,h⟩
    | cons x xs =>
      by_cases hl : (x :: xs).length ≤ seg.length
      · -- The segment holds all that is asked for.
        obtain ⟨c,rfl⟩ : x :: xs <+: seg := by
          apply List.prefix_of_prefix_length_le _ (List.prefix_append seg segs.flatten) hl
          rw [h]
          exact List.prefix_append _ _
        have hc : c ++ segs.flatten = b := by simpa using h
        refine ⟨c :: segs,?_,by simpa using hc⟩
        have hle : xs.length+1 ≤ ((x :: xs) ++ c).length := hl
        rw [List.length_cons,readExact,if_pos hle]
        simp
      · obtain ⟨c,hc⟩ : seg <+: x :: xs := by
          apply List.prefix_of_prefix_length_le _ (List.prefix_append (x :: xs) b) (by omega)
          rw [← h]
          exact List.prefix_append _ _
        have hf : segs.flatten = c ++ b := by
          rw [← hc,List.append_assoc] at h
          exact List.append_cancel_left h
        obtain ⟨rest,hr,hrest⟩ := ih c b hf
        have hlen : xs.length+1-seg.length = c.length := by
          have := congrArg List.length hc
          simp only [List.length_append,List.length_cons] at this
          omega
        refine ⟨rest,?_,hrest⟩
        have hle : ¬ xs.length+1 ≤ seg.length := hl
        rw [List.length_cons,readExact,if_neg hle,hlen,hr]
        simp [hc]

end Segments
