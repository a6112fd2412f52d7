import Mathlib.Data.Nat.Log
import Mathlib.Algebra.Order.Ring.Int

/-! Integers as 64-bit floating-point numbers: the nearest one that has at most 53 significant
bits, the even one of two. -/
namespace Binary64

/-- The nearest multiple of `u`, ties to the even multiple. -/
def nearestMultiple (u n : ℕ) : ℕ :=
  if 2*(n % u) < u ∨ 2*(n % u) = u ∧ n / u % 2 = 0 then n / u * u else (n / u+1) * u

/-- The distance of the floats with as many bits as `n`. -/
def ulp (n : ℕ) : ℕ := 2^(n.log2-52)

def round (n : ℕ) : ℕ := nearestMultiple (ulp n) n

/-- The float of an integer, unless it is beyond the greatest one. -/
def ofInt (n : ℤ) : Option ℤ :=
  if round n.natAbs < 2^1024 then some (n.sign * round n.natAbs) else none

/-- As a signed 64-bit integer; what becomes of a value out of range is up to `convert`. -/
def toInt64 (convert : ℤ → ℤ) (x : ℤ) : ℤ := if -2^63 ≤ x ∧ x < 2^63 then x else convert x

theorem nearestMultiple_one (n : ℕ) : nearestMultiple 1 n = n := by
  simp [nearestMultiple,Nat.mod_one]

theorem ulp_of_lt {n : ℕ} (h : n < 2^53) : ulp n = 1 := by
  have hl : n.log2 ≤ 52 := by
    rcases Nat.eq_zero_or_pos n with rfl | hn
    · decide
    · exact Nat.le_of_lt_succ ((Nat.log2_lt hn.ne').mpr h)
  rw [ulp,Nat.sub_eq_zero_of_le hl,pow_zero]

theorem round_of_le {n : ℕ} (h : n ≤ 2^53) : round n = n := by
  rcases h.lt_or_eq with hlt | rfl
  · rw [round,ulp_of_lt hlt,nearestMultiple_one]
  · decide +kernel

theorem ofInt_of_natAbs_le {n : ℤ} (h : n.natAbs ≤ 2^53) : ofInt n = some n := by
  have hpow : ∀ k : ℕ, 53 < k → n.natAbs < 2^k :=
    fun k hk => h.trans_lt (Nat.pow_lt_pow_right (by decide) hk)
  have hlt : n.natAbs < 2^1024 := hpow 1024 (by decide)
  rw [ofInt,round_of_le h,if_pos hlt,Int.sign_mul_natAbs]

theorem toInt64_of_natAbs_le {n : ℤ} (convert : ℤ → ℤ) (h : n.natAbs ≤ 2^53) :
    toInt64 convert n = n := if_pos (by omega)

end Binary64
