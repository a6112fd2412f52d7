import Mathlib.Order.Defs.LinearOrder
import Mathlib.Data.List.Sort

/-! The first hit of a search that goes through a list from the greatest key down. -/

namespace Ranked

variable {α β κ : Type} [LinearOrder κ] (key : α → κ) (f : α → Option β)

def descending (l : List α) : List α := l.mergeSort (fun a b => decide (key b ≤ key a))

/-- Sort by descending key, stably, and take the first hit. -/
def best (l : List α) : Option β := (descending key l).findSome? f

theorem mem_descending {a : α} {l : List α} : a ∈ descending key l ↔ a ∈ l := List.mem_mergeSort

theorem pairwise_descending (l : List α) :
    (descending key l).Pairwise (fun a b => key b ≤ key a) := by
  have htrans : ∀ a b c : α, decide (key b ≤ key a) = true → decide (key c ≤ key b) = true →
      decide (key c ≤ key a) = true := by
    intro a b c hab hbc
    rw [decide_eq_true_eq] at hab hbc ⊢
    exact hbc.trans hab
  have htotal : ∀ a b : α, (decide (key b ≤ key a) || decide (key a ≤ key b)) = true := by
    intro a b
    rw [Bool.or_eq_true,decide_eq_true_eq,decide_eq_true_eq]
    exact le_total _ _
  exact (List.pairwise_mergeSort htrans htotal l).imp fun h => of_decide_eq_true h

theorem best_eq_none {l : List α} : best key f l = none ↔ ∀ a ∈ l, f a = none := by
  simp only [best,List.findSome?_eq_none_iff,mem_descending]

/-- The hit has a key above which there is none. -/
theorem best_eq_some {l : List α} {b : β} (h : best key f l = some b) :
    ∃ a ∈ l, f a = some b ∧ ∀ c ∈ l, key a < key c → f c = none := by
  obtain ⟨above,a,below,hl,ha,habove⟩ := List.findSome?_eq_some_iff.mp h
  have hpair := pairwise_descending key l
  rw [hl,List.pairwise_append,List.pairwise_cons] at hpair
  refine ⟨a,?_,ha,fun c hc hlt => ?_⟩
  · rw [← mem_descending key,hl]
    simp
  · rw [← mem_descending key,hl,List.mem_append,List.mem_cons] at hc
    rcases hc with hc | rfl | hc
    · exact habove c hc
    · exact absurd hlt (lt_irrefl _)
    · exact absurd (hpair.2.1.1 c hc) (not_le.mpr hlt)

end Ranked
