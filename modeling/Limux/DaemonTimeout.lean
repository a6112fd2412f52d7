import Limux.Daemon
import Limux.Lib.Binary64

/-! The `timeout_ms` of the daemon's requests (`getIntParam`, `handleProxyOpen` and
`handleProxyWrite` in `main.go`), from the number in the request to the duration. Every number
of a request is a float; `convert` is what the machine makes of one that no `int` holds. -/
namespace Limux.Timeout

variable (convert : ℤ → ℤ)

/-- `getIntParam` of a request in which `n` stands for the timeout. -/
def intParam (n : ℤ) : Option ℤ :=
  (Binary64.ofInt n).bind (fun x => RpcRequest.getIntParam
    (fun x => some (Binary64.toInt64 convert x)) [("timeout_ms",.num (.float x))] "timeout_ms")

/-- `time.Duration(timeoutMs) * time.Millisecond`, in nanoseconds. -/
def duration (timeoutMs : ℤ) : ℤ := (timeoutMs*1000000).bmod (2^64)

/-- The duration given to `DialTimeout`. -/
def dialTimeout (param : Option ℤ) : ℤ :=
  duration ((param.filter (fun parsed => 0 ≤ parsed)).getD 10000)

def writeTimeout (param : Option ℤ) : Option ℤ :=
  let timeoutMs := param.getD 8000
  if 0 < timeoutMs then some (duration timeoutMs) else none

/-- The numbers from `-low` to `high` are taken as they are, and give durations that are not
negative and grow with them. -/
structure Faithful (low high : ℕ) : Prop where
  int : ∀ n k : ℤ, -(low : ℤ) ≤ n → n ≤ high → intParam convert n = some k → k = n
  dial : ∀ m n : ℤ, 0 ≤ m → m ≤ n → n ≤ high → (intParam convert m).isSome →
    (intParam convert n).isSome → 0 ≤ dialTimeout (intParam convert m) ∧
      dialTimeout (intParam convert m) ≤ dialTimeout (intParam convert n)
  write : ∀ m n d d' : ℤ, -(low : ℤ) ≤ m → m ≤ n → n ≤ high → (intParam convert m).isSome →
    (intParam convert n).isSome → writeTimeout (intParam convert m) = some d →
      writeTimeout (intParam convert n) = some d' → 0 ≤ d ∧ d ≤ d'

variable {convert} {n : ℤ}

theorem intParam_of_natAbs_le (h : n.natAbs ≤ 2^53) : intParam convert n = some n := by
  rw [intParam,Binary64.ofInt_of_natAbs_le h,Option.bind_some]
  exact congrArg some (Binary64.toInt64_of_natAbs_le convert h)

/-- Up to the greatest number of milliseconds nothing wraps. -/
theorem duration_of_le (h₀ : 0 ≤ n) (h : n ≤ 9223372036854) : duration n = n*1000000 :=
  Int.bmod_eq_of_le (by omega) (by omega)

theorem dialTimeout_some (h₀ : 0 ≤ n) : dialTimeout (some n) = duration n := by
  simp [dialTimeout,Option.filter,h₀]

theorem writeTimeout_some {d : ℤ} (h : writeTimeout (some n) = some d) :
    0 < n ∧ d = duration n := by
  obtain ⟨hn,hd⟩ := Option.ite_none_right_eq_some.mp h
  exact ⟨hn,(Option.some.inj hd).symm⟩

theorem faithful_of_le {low high : ℕ} (hlow : low ≤ 2^53) (hhigh : high ≤ 9223372036854) :
    Faithful convert low high := by
  have hint : ∀ n : ℤ, -(low : ℤ) ≤ n → n ≤ high → intParam convert n = some n :=
    fun n hl hh => intParam_of_natAbs_le (by omega)
  refine ⟨fun n k hl hh hk => ?_,fun m n h₀ hmn hh _ _ => ?_,
    fun m n d d' hl hmn hh _ _ hd hd' => ?_⟩
  · rw [hint n hl hh] at hk
    exact (Option.some.inj hk).symm
  · rw [hint m (by omega) (by omega),hint n (by omega) hh,dialTimeout_some h₀,
      dialTimeout_some (by omega),duration_of_le h₀ (by omega),duration_of_le (by omega) (by omega)]
    omega
  · rw [hint m hl (by omega)] at hd
    rw [hint n (by omega) hh] at hd'
    obtain ⟨hm,rfl⟩ := writeTimeout_some hd
    obtain ⟨hn,rfl⟩ := writeTimeout_some hd'
    rw [duration_of_le hm.le (by omega),duration_of_le hn.le (by omega)]
    omega

theorem duration_wraps : dialTimeout (intParam convert 9223372036855) < 0 := by
  have hn : intParam convert 9223372036855 = some 9223372036855 :=
    intParam_of_natAbs_le (by decide)
  rw [hn]
  decide +kernel

theorem intParam_rounds : intParam convert (-(2^53+1)) = some (-2^53) := by
  have hr : Binary64.ofInt (-(2^53+1)) = some (-2^53) := by decide +kernel
  rw [intParam,hr,Option.bind_some]
  exact congrArg some (Binary64.toInt64_of_natAbs_le convert (by decide))

/-- Timeouts are taken as they are, and do not wrap, exactly within these bounds. -/
theorem timeouts_faithful_iff (convert : ℤ → ℤ) (low high : ℕ) :
    Faithful convert low high ↔ low ≤ 2^53 ∧ high ≤ 9223372036854 := by
  refine ⟨fun h => ⟨?_,?_⟩,fun h => faithful_of_le h.1 h.2⟩
  · by_contra hlow
    have := h.int (-(2^53+1)) (-2^53) (by omega) (by omega) intParam_rounds
    omega
  · by_contra hhigh
    have hsome : (intParam convert 9223372036855).isSome := by
      rw [intParam_of_natAbs_le (by decide)]
      rfl
    have := (h.dial 9223372036855 9223372036855 (by omega) le_rfl (by omega) hsome hsome).1
    exact absurd duration_wraps (not_lt.mpr this)

/-- A timeout of `9223372036855` milliseconds is over before it begins, and `2^53+1` is not the
number that was sent. -/
theorem timeouts_wrap : ¬(∀ low high, Faithful id low high) ∧
    dialTimeout (intParam id 9223372036855) = -9223372036854551616 ∧
    intParam id (2^53+1) = some (2^53) := by
  have hd : dialTimeout (intParam id 9223372036855) = -9223372036854551616 := by decide +kernel
  refine ⟨fun h => ?_,hd,by decide +kernel⟩
  have := ((h 0 9223372036855).dial 9223372036855 9223372036855 (by omega) le_rfl (by omega)
    (by decide +kernel) (by decide +kernel)).1
  rw [hd] at this
  omega

end Limux.Timeout
