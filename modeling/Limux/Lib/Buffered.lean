import Mathlib.Data.List.Basic

/-! A buffered reader over a source that delivers its input in pieces of any sizes: what is
read up to a separator, as far as the buffer holds it. -/
namespace Buffered

variable {α : Type}

/-- Why a slice ends. -/
inductive Stop
  | separator
  | full
  | ended
  deriving DecidableEq

structure Reader (α : Type) where
  /-- Read from the source, not handed out. -/
  pending : List α
  /-- What the source delivers, one piece a read. -/
  pieces : List (List α)
  /-- The source reports its end together with its last piece. -/
  eager : Bool
  /-- The end was reported. -/
  ended : Bool

namespace Reader

def init (pieces : List (List α)) (eager : Bool) : Reader α := ⟨[],pieces,eager,false⟩

def rest (r : Reader α) : List α := r.pending ++ r.pieces.flatten

/-- One read of the source, of what fits into the buffer. -/
def fill (size : ℕ) (r : Reader α) : Reader α :=
  match r.pieces with
  | [] => { r with ended := true }
  | p :: ps =>
    let room := size-r.pending.length
    if p.length ≤ room then
      { r with pending := r.pending ++ p, pieces := ps, ended := r.eager && ps.isEmpty }
    else { r with pending := r.pending ++ p.take room, pieces := p.drop room :: ps }

def sliceLoop [DecidableEq α] (sep : α) (size : ℕ) : ℕ → Reader α → (List α × Stop) × Reader α
  | 0, r => ((r.pending,.ended),r)
  | n+1, r =>
    if sep ∈ r.pending then
      let k := r.pending.idxOf sep+1
      ((r.pending.take k,.separator),{ r with pending := r.pending.drop k })
    else if r.ended then ((r.pending,.ended),{ r with pending := [], ended := false })
    else if size ≤ r.pending.length then ((r.pending,.full),{ r with pending := [] })
    else sliceLoop sep size n (r.fill size)

/-- Everything up to the separator; less where the buffer is full or the input ends. -/
def readSlice [DecidableEq α] (sep : α) (size : ℕ) (r : Reader α) : (List α × Stop) × Reader α :=
  sliceLoop sep size (r.pieces.length+2) r

/-- The buffer holds what is pending, the source delivers something with every read, and an
end is one. -/
structure Ok (size : ℕ) (r : Reader α) : Prop where
  fits : r.pending.length ≤ size
  delivers : ∀ p ∈ r.pieces, p ≠ []
  exhausted : r.ended = true → r.pieces = []

/-- A slice of `input` that leaves the rest of it. -/
inductive Sliced (sep : α) (size : ℕ) : List α → List α × Stop → List α → Prop
  | separator {l : List α} (s : List α) (h : sep ∉ l) :
      Sliced sep size (l ++ sep :: s) (l ++ [sep],.separator) s
  | full {l : List α} (s : List α) (h : sep ∉ l) (hl : l.length = size) :
      Sliced sep size (l ++ s) (l,.full) s
  | ended {l : List α} (h : sep ∉ l) : Sliced sep size l (l,.ended) []

variable {size : ℕ} {r : Reader α}

theorem ok_init {pieces : List (List α)} (h : ∀ p ∈ pieces, p ≠ []) (eager : Bool) :
    (init pieces eager).Ok size := ⟨Nat.zero_le _,h,fun h => by cases h⟩

theorem rest_fill (size : ℕ) (r : Reader α) : (r.fill size).rest = r.rest := by
  unfold fill
  split
  · rfl
  · rename_i p ps hp
    dsimp only
    split
    · simp [rest,hp]
    · have hp' := List.take_append_drop (size-r.pending.length) p
      simp only [rest,hp,List.flatten_cons,List.append_assoc]
      rw [← List.append_assoc (List.take _ p),hp']

theorem ok_fill (h : r.Ok size) (hended : r.ended = false) : (r.fill size).Ok size := by
  unfold fill
  split
  · rename_i hp
    exact ⟨h.fits,h.delivers,fun _ => hp⟩
  · rename_i p ps hp
    have hd : ∀ q ∈ ps, q ≠ [] := fun q hq => h.delivers q (hp ▸ List.mem_cons_of_mem p hq)
    have hfits := h.fits
    dsimp only
    split
    · refine ⟨by simp only [List.length_append]; omega,hd,fun he => ?_⟩
      simpa using (Bool.and_eq_true_iff.mp he).2
    · refine ⟨by simp only [List.length_append,List.length_take]; omega,fun q hq => ?_,
        fun he => ?_⟩
      · rcases List.mem_cons.mp hq with rfl | hq
        · intro hnil
          have := List.drop_eq_nil_iff.mp hnil
          omega
        · exact hd q hq
      · rw [hended] at he
        cases he

def reads (size : ℕ) (r : Reader α) : ℕ :=
  if r.ended = true ∨ size ≤ r.pending.length then 0 else r.pieces.length+1

theorem reads_fill (hended : r.ended = false) (hroom : r.pending.length < size) :
    (r.fill size).reads size < r.reads size := by
  have hr : r.reads size = r.pieces.length+1 := by
    unfold reads
    rw [if_neg]
    simp [hended,hroom]
  rw [hr]
  unfold fill
  split
  · simp [reads]
  · rename_i p ps hp
    dsimp only
    split
    · unfold reads
      rw [hp]
      split
      · exact Nat.succ_pos _
      · simp
    · unfold reads
      rw [if_pos]
      · exact Nat.succ_pos _
      · refine .inr ?_
        simp only [List.length_append,List.length_take]
        omega

variable [DecidableEq α] {sep : α}

theorem sliced_loop (h : r.Ok size) (n : ℕ) (hn : r.reads size < n) :
    Sliced sep size r.rest (sliceLoop sep size n r).1 (sliceLoop sep size n r).2.rest ∧
      (sliceLoop sep size n r).2.Ok size := by
  induction n generalizing r with
  | zero => exact absurd hn (Nat.not_lt_zero _)
  | succ n ih =>
    rw [sliceLoop]
    split
    · rename_i hm
      obtain ⟨l,s,hl,hs⟩ := List.eq_append_cons_of_mem hm
      have hk : r.pending.idxOf sep = l.length := by
        rw [hl,List.idxOf_append_of_notMem hs,List.idxOf_cons_self,Nat.add_zero]
      have hlen : (l ++ [sep]).length = l.length+1 := List.length_append
      have hl' : r.pending = (l ++ [sep]) ++ s := by simp [hl]
      have htake : r.pending.take (l.length+1) = l ++ [sep] := by
        rw [hl',← hlen,List.take_left]
      have hdrop : r.pending.drop (l.length+1) = s := by
        rw [hl',← hlen,List.drop_left]
      dsimp only
      rw [hk,htake,hdrop]
      refine ⟨?_,⟨?_,h.delivers,h.exhausted⟩⟩
      · have hr : r.rest = l ++ sep :: (s ++ r.pieces.flatten) := by simp [rest,hl]
        rw [hr]
        exact .separator _ hs
      · have := h.fits
        simp only [hl,List.length_append,List.length_cons] at this
        show s.length ≤ size
        omega
    · rename_i hm
      split
      · rename_i he
        refine ⟨?_,⟨Nat.zero_le _,h.delivers,fun he' => by cases he'⟩⟩
        have hr : r.rest = r.pending := by simp [rest,h.exhausted he]
        have hr' : ({ r with pending := [], ended := false } : Reader α).rest = [] := by
          simp [rest,h.exhausted he]
        rw [hr,hr']
        exact .ended hm
      · rename_i he
        have hended : r.ended = false := by simpa using he
        split
        · rename_i hf
          exact ⟨.full _ hm (Nat.le_antisymm h.fits hf),⟨Nat.zero_le _,h.delivers,h.exhausted⟩⟩
        · rename_i hf
          have := reads_fill hended (Nat.lt_of_not_le hf)
          have hi := ih (ok_fill h hended) (by omega)
          rw [rest_fill] at hi
          exact hi

theorem sliced (h : r.Ok size) :
    Sliced sep size r.rest (r.readSlice sep size).1 (r.readSlice sep size).2.rest ∧
      (r.readSlice sep size).2.Ok size := by
  refine sliced_loop h _ ?_
  unfold reads
  split
  · exact Nat.succ_pos _
  · exact Nat.lt_succ_self _

end Reader

end Buffered
