import Mathlib.Data.List.Nodup
import Mathlib.Data.List.Perm.Subperm
import Mathlib.Logic.Relation

/-! The worklist that puts the children of its last element in its place and keeps no record of
what it has visited. Where no node has two parents it ends exactly if the root is not among its
own descendants, and then it has found each of them once. -/
namespace Worklist

variable {V : Type} (kids : V → List V)

def Child (x y : V) : Prop := y ∈ kids x

/-- So many rounds at most; the last element of the worklist comes first. -/
def run : ℕ → List V → List V → Option (List V)
  | 0, _, _ => none
  | _+1, found, [] => some found
  | n+1, found, x :: stack => run n (found ++ kids x) ((kids x).reverse ++ stack)

/-- No node has two parents, or is twice a child of one. -/
structure Forest : Prop where
  nodup : ∀ x, (kids x).Nodup
  unique : ∀ {x x' y}, y ∈ kids x → y ∈ kids x' → x = x'

/-- What has been found and what is still to be done. -/
structure Sweep (root : V) (found stack : List V) : Prop where
  nodup : found.Nodup
  stack_nodup : stack.Nodup
  stack_found : ∀ x ∈ stack, x ∈ found
  root_found : root ∈ found
  reached : ∀ x ∈ found, Relation.ReflTransGen (Child kids) root x
  /-- The children of a node come in when it has its turn. -/
  turn : ∀ x ∈ found, ∀ y ∈ kids x, y ∈ found ↔ x ∉ stack
  parent : ∀ y ∈ found, y = root ∨ ∃ x ∈ found, x ∉ stack ∧ y ∈ kids x

variable {kids} {root : V} {found stack : List V}

/-- What the worklist gets through has no cycle below it. -/
theorem not_transGen_of_run {n : ℕ} {r : List V} (h : run kids n found stack = some r) :
    ∀ x ∈ stack, ¬Relation.TransGen (Child kids) x x := by
  induction n generalizing found stack with
  | zero => cases h
  | succ n ih =>
    cases stack with
    | nil => exact fun x hx => absurd hx List.not_mem_nil
    | cons x stack =>
      have hrest := ih h
      intro y hy hcycle
      rcases List.mem_cons.mp hy with rfl | hy
      · -- The cycle goes through a child, and the child is still to be done.
        obtain ⟨c,hc,hback⟩ := Relation.TransGen.head'_iff.mp hcycle
        exact hrest c (List.mem_append_left _ (List.mem_reverse.mpr hc))
          (Relation.TransGen.tail' hback hc)
      · exact hrest y (List.mem_append_right _ hy) hcycle

namespace Sweep

theorem start (hroot : ¬Relation.TransGen (Child kids) root root) :
    Sweep kids root [root] [root] where
  nodup := List.nodup_singleton _
  stack_nodup := List.nodup_singleton _
  stack_found x hx := hx
  root_found := List.mem_singleton_self _
  reached x hx := by
    rw [List.mem_singleton.mp hx]
  turn x hx y hy := by
    obtain rfl := List.mem_singleton.mp hx
    refine iff_of_false (fun hm => hroot ?_) (fun hn => hn (List.mem_singleton_self _))
    rw [List.mem_singleton.mp hm] at hy
    exact .single hy
  parent y hy := .inl (List.mem_singleton.mp hy)

variable {x : V}

theorem notMem_of_child (h : Sweep kids root found (x :: stack)) {y : V} (hy : y ∈ kids x) :
    y ∉ found := fun hm =>
  (h.turn x (h.stack_found x List.mem_cons_self) y hy).mp hm List.mem_cons_self

/-- A node that is found has found its parent before it. -/
theorem parent_found (hf : Forest kids) (hroot : ¬Relation.TransGen (Child kids) root root)
    (h : Sweep kids root found stack) {p y : V} (hp : Relation.ReflTransGen (Child kids) root p)
    (hy : y ∈ kids p) (hm : y ∈ found) : p ∈ found ∧ p ∉ stack := by
  rcases h.parent y hm with rfl | ⟨z,hz,hns,hyz⟩
  · exact absurd (Relation.TransGen.tail' hp hy) hroot
  · rw [hf.unique hy hyz]
    exact ⟨hz,hns⟩

theorem next (hf : Forest kids) (hroot : ¬Relation.TransGen (Child kids) root root)
    (h : Sweep kids root found (x :: stack)) :
    Sweep kids root (found ++ kids x) ((kids x).reverse ++ stack) := by
  have hx : x ∈ found := h.stack_found x List.mem_cons_self
  have hxs : x ∉ stack := (List.nodup_cons.mp h.stack_nodup).1
  have hreached : ∀ y ∈ found ++ kids x, Relation.ReflTransGen (Child kids) root y := by
    intro y hy
    rcases List.mem_append.mp hy with hy | hy
    · exact h.reached y hy
    · exact (h.reached x hx).tail hy
  have hsf : ∀ y ∈ stack, y ∈ found := fun y hy => h.stack_found y (List.mem_cons_of_mem _ hy)
  refine ⟨?_,?_,?_,?_,hreached,?_,?_⟩
  · exact List.nodup_append'.mpr ⟨h.nodup,hf.nodup x,fun y hy hc => h.notMem_of_child hc hy⟩
  · refine List.nodup_append'.mpr ⟨List.nodup_reverse.mpr (hf.nodup x),
      (List.nodup_cons.mp h.stack_nodup).2,fun y hy hs => ?_⟩
    exact h.notMem_of_child (List.mem_reverse.mp hy) (hsf y hs)
  · intro y hy
    rcases List.mem_append.mp hy with hy | hy
    · exact List.mem_append_right _ (List.mem_reverse.mp hy)
    · exact List.mem_append_left _ (hsf y hy)
  · exact List.mem_append_left _ h.root_found
  · intro y hy z hz
    rw [List.mem_append,List.mem_append,List.mem_reverse]
    rcases List.mem_append.mp hy with hy | hy
    · have hyk : y ∉ kids x := fun hc => h.notMem_of_child hc hy
      by_cases hyx : y = x
      · subst hyx
        exact iff_of_true (.inr hz) (not_or.mpr ⟨hyk,hxs⟩)
      · have hzk : z ∉ kids x := fun hc => hyx (hf.unique hz hc)
        rw [or_iff_left hzk,or_iff_right hyk,h.turn y hy z hz,List.mem_cons,or_iff_right hyx]
    · refine iff_of_false ?_ (fun hn => hn (.inl hy))
      rintro (hm | hm)
      · exact h.notMem_of_child hy
          (h.parent_found hf hroot (hreached y (List.mem_append_right _ hy)) hz hm).1
      · rw [hf.unique hz hm] at hy
        exact h.notMem_of_child hy hx
  · intro y hy
    rcases List.mem_append.mp hy with hy | hy
    · rcases h.parent y hy with he | ⟨p,hp,hps,hyp⟩
      · exact .inl he
      · refine .inr ⟨p,List.mem_append_left _ hp,fun hs => ?_,hyp⟩
        rcases List.mem_append.mp hs with hs | hs
        · exact h.notMem_of_child (List.mem_reverse.mp hs) hp
        · exact hps (List.mem_cons_of_mem _ hs)
    · refine .inr ⟨x,List.mem_append_left _ hx,fun hs => ?_,hy⟩
      rcases List.mem_append.mp hs with hs | hs
      · exact h.notMem_of_child (List.mem_reverse.mp hs) hx
      · exact hxs hs

/-- When nothing is left to be done, every descendant has been found. -/
theorem mem_iff (h : Sweep kids root found []) (y : V) :
    y ∈ found ↔ Relation.ReflTransGen (Child kids) root y := by
  refine ⟨h.reached y,fun hy => ?_⟩
  induction hy with
  | refl => exact h.root_found
  | tail _ hc ih => exact (h.turn _ ih _ hc).mpr List.not_mem_nil

/-- Every round takes a node off that does not come back. -/
theorem ends (hf : Forest kids) (hroot : ¬Relation.TransGen (Child kids) root root)
    {nodes : List V} (hnodes : ∀ x y, y ∈ kids x → y ∈ nodes) {n : ℕ}
    (h : Sweep kids root found stack) (hn : nodes.length+1+stack.length < n+found.length) :
    ∃ r, run kids n found stack = some r ∧ Sweep kids root r [] := by
  induction n generalizing found stack with
  | zero =>
    have hsub : found ⊆ root :: nodes := fun y hy => by
      rcases h.parent y hy with rfl | ⟨x,-,-,hxy⟩
      · exact List.mem_cons_self
      · exact List.mem_cons_of_mem _ (hnodes x y hxy)
    have hle := (h.nodup.subperm hsub).length_le
    rw [List.length_cons] at hle
    omega
  | succ n ih =>
    cases stack with
    | nil => exact ⟨found,rfl,h⟩
    | cons x stack =>
      refine ih (h.next hf hroot) ?_
      simp only [List.length_append,List.length_reverse,List.length_cons] at hn ⊢
      omega

end Sweep

/-- It ends with every descendant found once, exactly where the root is none of them. -/
theorem run_iff (hf : Forest kids) {nodes : List V} (hnodes : ∀ x y, y ∈ kids x → y ∈ nodes)
    (root : V) :
    (∃ n r, run kids n [root] [root] = some r ∧ r.Nodup ∧
      ∀ y, y ∈ r ↔ Relation.ReflTransGen (Child kids) root y) ↔
      ¬Relation.TransGen (Child kids) root root := by
  constructor
  · rintro ⟨n,r,h,-,-⟩
    exact not_transGen_of_run h root (List.mem_singleton_self _)
  · intro hroot
    obtain ⟨r,hr,hs⟩ := (Sweep.start hroot).ends hf hroot hnodes (n := nodes.length+2) (by simp)
    exact ⟨_,r,hr,hs.nodup,hs.mem_iff⟩

end Worklist
