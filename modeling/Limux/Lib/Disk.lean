import Mathlib.Logic.Function.Basic
import Mathlib.Data.Nat.Basic

/-! Files as the processes of a system share them. A name refers to a file and may be moved
to another one; whoever has a file open keeps it. Reads and writes go piece by piece. -/

/-- The file each name refers to, the bytes of the files, and the next new file. -/
structure Disk (N : Type) where
  names : N → Option ℕ
  bytes : ℕ → List UInt8
  next : ℕ

namespace Disk

variable {N : Type}

/-- Write `piece` at an offset; a gap behind the end is filled with zeros. -/
def overwrite (l : List UInt8) (offset : ℕ) (piece : List UInt8) : List UInt8 :=
  (l ++ List.replicate (offset-l.length) 0).take offset ++ piece ++ l.drop (offset+piece.length)

def write (d : Disk N) (i offset : ℕ) (piece : List UInt8) : Disk N :=
  { d with bytes := Function.update d.bytes i (overwrite (d.bytes i) offset piece) }

/-- At most `n` bytes from an offset on. -/
def read (d : Disk N) (i offset n : ℕ) : List UInt8 := ((d.bytes i).drop offset).take n

def content (d : Disk N) (n : N) : Option (List UInt8) := (d.names n).map d.bytes

/-- New files are new, and no two names refer to one file. -/
structure Sound (d : Disk N) : Prop where
  lt : ∀ n i, d.names n = some i → i < d.next
  inj : ∀ n m i, d.names n = some i → d.names m = some i → n = m

theorem read_take (d : Disk N) (i : ℕ) (offset n : ℕ) :
    (d.bytes i).take offset ++ d.read i offset n = (d.bytes i).take (offset+n) := by
  rw [read,List.take_add]

theorem bytes_write_end {d : Disk N} {i : ℕ} {l : List UInt8} (h : d.bytes i = l)
    (piece : List UInt8) : (d.write i l.length piece).bytes i = l ++ piece := by
  have hb : (d.write i l.length piece).bytes i = overwrite l l.length piece := by
    simp only [write,Function.update_self,h]
  rw [hb,overwrite]
  simp

theorem read_eq_nil {d : Disk N} {i offset n : ℕ} (hn : 0 < n) (h : d.read i offset n = []) :
    (d.bytes i).take offset = d.bytes i := by
  rw [read,List.take_eq_nil_iff,List.drop_eq_nil_iff] at h
  rcases h with h | h
  · omega
  · exact List.take_of_length_le h

theorem bytes_write_of_ne {d : Disk N} {i j : ℕ} (h : j ≠ i) (offset : ℕ) (piece : List UInt8) :
    (d.write i offset piece).bytes j = d.bytes j := Function.update_of_ne h _ _

namespace Sound

variable {d d' : Disk N}

theorem write (h : d.Sound) (i offset : ℕ) (piece : List UInt8) :
    (d.write i offset piece).Sound := ⟨h.lt,h.inj⟩

/-- One name gets a file that no other name keeps. -/
theorem relabel (h : d.Sound) {m : N} {i : ℕ} (hi : i < d'.next) (hle : d.next ≤ d'.next)
    (hget : ∀ k j, d'.names k = some j → k = m ∧ j = i ∨ d.names k = some j ∧ j ≠ i) :
    d'.Sound := by
  refine ⟨fun k j hk => ?_,fun k k' j hk hk' => ?_⟩
  · rcases hget k j hk with ⟨-,rfl⟩ | ⟨hk,-⟩
    · exact hi
    · exact Nat.lt_of_lt_of_le (h.lt k j hk) hle
  · rcases hget k j hk with ⟨rfl,rfl⟩ | ⟨hk,hj⟩ <;> rcases hget k' j hk' with ⟨rfl,he⟩ | ⟨hk',hj'⟩
    · rfl
    · exact absurd rfl hj'
    · exact absurd he hj
    · exact h.inj k k' j hk hk'

end Sound

variable [DecidableEq N]

def create (d : Disk N) (n : N) : ℕ × Disk N :=
  match d.names n with
  | some i => (i,{ d with bytes := Function.update d.bytes i [] })
  | none => (d.next,⟨Function.update d.names n (some d.next),
      Function.update d.bytes d.next [],d.next+1⟩)

def rename (d : Disk N) (n m : N) : Option (Disk N) :=
  (d.names n).map (fun i =>
    { d with names := Function.update (Function.update d.names m (some i)) n none })

def remove (d : Disk N) (n : N) : Disk N := { d with names := Function.update d.names n none }

theorem bytes_create_of_ne {d : Disk N} {n : N} {j : ℕ} (h : j ≠ (d.create n).1) :
    (d.create n).2.bytes j = d.bytes j := by
  unfold create at h ⊢
  split <;> simp_all [Function.update_of_ne]

theorem bytes_create_self (d : Disk N) (n : N) : (d.create n).2.bytes (d.create n).1 = [] := by
  unfold create
  split <;> exact Function.update_self _ _ _

theorem names_create_self (d : Disk N) (n : N) :
    (d.create n).2.names n = some (d.create n).1 := by
  unfold create
  split
  · assumption
  · exact Function.update_self _ _ _

theorem names_create_of_ne {d : Disk N} {n m : N} (h : m ≠ n) :
    (d.create n).2.names m = d.names m := by
  unfold create
  split
  · rfl
  · exact Function.update_of_ne h _ _

theorem names_rename {d d' : Disk N} {n m : N} (h : d.rename n m = some d') {k : N} {j : ℕ}
    (hk : d'.names k = some j) : k ≠ n ∧ (k = m ∧ d.names n = some j ∨ d.names k = some j) := by
  obtain ⟨i,hi,rfl⟩ := Option.map_eq_some_iff.mp h
  have hkn : k ≠ n := by
    rintro rfl
    simp at hk
  refine ⟨hkn,?_⟩
  by_cases hkm : k = m
  · subst hkm
    simp only [Function.update_of_ne hkn,Function.update_self] at hk
    exact .inl ⟨rfl,hi.trans hk⟩
  · simp only [Function.update_of_ne hkn,Function.update_of_ne hkm] at hk
    exact .inr hk

theorem bytes_rename {d d' : Disk N} {n m : N} (h : d.rename n m = some d') :
    d'.bytes = d.bytes ∧ d'.next = d.next := by
  obtain ⟨i,hi,rfl⟩ := Option.map_eq_some_iff.mp h
  exact ⟨rfl,rfl⟩

theorem names_remove_of_ne {d : Disk N} {n m : N} (h : m ≠ n) :
    (d.remove n).names m = d.names m := Function.update_of_ne h _ _

theorem names_remove {d : Disk N} {n k : N} {j : ℕ} (hk : (d.remove n).names k = some j) :
    k ≠ n ∧ d.names k = some j := by
  have hkn : k ≠ n := by
    rintro rfl
    simp [remove] at hk
  simp only [remove,Function.update_of_ne hkn] at hk
  exact ⟨hkn,hk⟩

namespace Sound

variable {d d' : Disk N}

theorem create (h : d.Sound) (n : N) : (d.create n).2.Sound := by
  unfold Disk.create
  split
  · exact ⟨h.lt,h.inj⟩
  · refine h.relabel (m := n) (i := d.next) (Nat.lt_succ_self _) (Nat.le_succ _) (fun k j hk => ?_)
    by_cases hkn : k = n
    · subst hkn
      simp only [Function.update_self] at hk
      cases hk
      exact .inl ⟨rfl,rfl⟩
    · simp only [Function.update_of_ne hkn] at hk
      exact .inr ⟨hk,Nat.ne_of_lt (h.lt k j hk)⟩

theorem rename (h : d.Sound) {n m : N} (hr : d.rename n m = some d') : d'.Sound := by
  obtain ⟨i,hi,-⟩ := Option.map_eq_some_iff.mp hr
  have hlt := h.lt n i hi
  rw [← (bytes_rename hr).2] at hlt
  refine h.relabel (m := m) hlt (Nat.le_of_eq (bytes_rename hr).2.symm) (fun k j hk => ?_)
  obtain ⟨hkn,⟨rfl,hj⟩ | hk⟩ := names_rename hr hk
  · exact .inl ⟨rfl,Option.some.inj (hj.symm.trans hi)⟩
  · refine .inr ⟨hk,?_⟩
    rintro rfl
    exact hkn (h.inj k n j hk hi)

theorem remove (h : d.Sound) (n : N) : (d.remove n).Sound :=
  ⟨fun k j hk => h.lt k j (names_remove hk).2,fun k k' j hk hk' =>
    h.inj k k' j (names_remove hk).2 (names_remove hk').2⟩

theorem ne_create (h : d.Sound) {n m : N} (hne : m ≠ n) {j : ℕ} (hj : d.names m = some j) :
    j ≠ (d.create n).1 := by
  unfold Disk.create
  split
  · rename_i i hi
    rintro rfl
    exact hne (h.inj m n _ hj hi)
  · exact Nat.ne_of_lt (h.lt m j hj)

end Sound

end Disk
