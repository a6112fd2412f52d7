import Limux.Lib.Machine
import Mathlib.Data.List.Perm.Basic

/-! Wakeups of the main loop (`app/src/app.rs`). Threads of Ghostty call `wakeup_cb`, which
schedules one `tick` at a time; a tick clears the flag and calls `ghostty_app_tick`. The steps
of the threads and of the main loop are interleaved; each atomic operation is one step. -/
namespace Limux.Tick

open Machine

/-- A thread in `wakeup_cb`: before the exchange, or behind one that succeeded. -/
inductive Phase
  | called
  | won
  deriving DecidableEq

structure Waker where
  /-- The number of calls that began before. -/
  call : ℕ
  phase : Phase
  deriving DecidableEq

inductive Ticking
  | no
  | entered
  /-- The flag is cleared, and `ghostty_app_tick` runs. -/
  | ticking
  deriving DecidableEq

structure TickState where
  tickPending : Bool
  /-- Idle callbacks that run `tick`. -/
  queued : ℕ
  wakers : List Waker
  ticking : Ticking
  /-- Calls of `wakeup_cb` so far, and how many of them there were when a tick last cleared the
  flag. -/
  calls : ℕ
  cleared : ℕ
  deriving DecidableEq

inductive TickEvent
  /-- A thread, or a callback in the tick itself, calls `wakeup_cb`. -/
  | wakeup
  | compareExchange (i : ℕ)
  | idleAddOnce (i : ℕ)
  | tick
  | clear
  /-- `ghostty_app_tick` returns. -/
  | finish
  deriving DecidableEq

def start : TickState := ⟨false,0,[],.no,0,0⟩

def step (s : TickState) : TickEvent → Option TickState
  | .wakeup => some { s with wakers := s.wakers ++ [⟨s.calls,.called⟩], calls := s.calls+1 }
  | .compareExchange i =>
    match s.wakers[i]? with
    | some ⟨call,.called⟩ =>
      if s.tickPending then some { s with wakers := s.wakers.eraseIdx i }
      else some { s with tickPending := true, wakers := s.wakers.set i ⟨call,.won⟩ }
    | _ => none
  | .idleAddOnce i =>
    match s.wakers[i]? with
    | some ⟨_,.won⟩ => some { s with queued := s.queued+1, wakers := s.wakers.eraseIdx i }
    | _ => none
  | .tick =>
    match s.queued, s.ticking with
    | n+1, .no => some { s with queued := n, ticking := .entered }
    | _, _ => none
  | .clear =>
    match s.ticking with
    | .entered => some { s with tickPending := false, ticking := .ticking, cleared := s.calls }
    | _ => none
  | .finish =>
    match s.ticking with
    | .ticking => some { s with ticking := .no }
    | _ => none

def winners (l : List Waker) : ℕ := l.countP (fun w => w.phase = .won)

def callers (l : List Waker) : ℕ := l.countP (fun w => w.phase = .called)

/-- Callbacks that are to be scheduled, are scheduled, or have yet to clear the flag. -/
def TickState.ahead (s : TickState) : ℕ :=
  winners s.wakers+s.queued+(if s.ticking = .entered then 1 else 0)

/-- A call that no tick has followed: its thread is before the exchange, or a tick that has not
cleared the flag yet is on its way. -/
def TickState.Awaited (s : TickState) (call : ℕ) : Prop :=
  (⟨call,.called⟩ : Waker) ∈ s.wakers ∨ s.ahead = 1

structure TickInv (s : TickState) : Prop where
  /-- The flag stands for one callback. -/
  one : s.ahead = if s.tickPending then 1 else 0
  late : ∀ call < s.calls, s.cleared ≤ call →
    s.tickPending = true ∨ (⟨call,.called⟩ : Waker) ∈ s.wakers
  cleared : s.cleared ≤ s.calls

/-- Steps that are left, each thread and each callback with its own. -/
def TickState.weight (s : TickState) : ℕ :=
  5*callers s.wakers+4*winners s.wakers+3*s.queued+
    (match s.ticking with
    | .no => 0
    | .entered => 2
    | .ticking => 1)

variable {s s' : TickState}

theorem countP_eraseIdx {l : List Waker} {i : ℕ} {w : Waker} (p : Waker → Bool)
    (h : l[i]? = some w) : l.countP p = (l.eraseIdx i).countP p+(if p w then 1 else 0) := by
  obtain ⟨hi,rfl⟩ := List.getElem?_eq_some_iff.mp h
  rw [← (List.getElem_cons_eraseIdx_perm hi).countP_eq,List.countP_cons]

theorem eraseIdx_called {l : List Waker} {i : ℕ} {call : ℕ} (h : l[i]? = some ⟨call,.called⟩) :
    winners l = winners (l.eraseIdx i) ∧ callers l = callers (l.eraseIdx i)+1 :=
  ⟨countP_eraseIdx _ h,countP_eraseIdx _ h⟩

theorem eraseIdx_won {l : List Waker} {i : ℕ} {call : ℕ} (h : l[i]? = some ⟨call,.won⟩) :
    winners l = winners (l.eraseIdx i)+1 ∧ callers l = callers (l.eraseIdx i) :=
  ⟨countP_eraseIdx _ h,countP_eraseIdx _ h⟩

theorem set_won {l : List Waker} {i : ℕ} {call : ℕ} (h : l[i]? = some ⟨call,.called⟩) :
    winners (l.set i ⟨call,.won⟩) = winners l+1 ∧
      callers l = callers (l.set i ⟨call,.won⟩)+1 := by
  have hpos := (eraseIdx_called h).2
  obtain ⟨hi,hget⟩ := List.getElem?_eq_some_iff.mp h
  constructor
  · rw [winners,winners,List.countP_set hi,hget]
    simp
  · have hset : callers (l.set i ⟨call,.won⟩) = callers l-1 := by
      rw [callers,callers,List.countP_set hi,hget]
      simp
    omega

theorem tickInv_step (h : TickInv s) {e : TickEvent} (hs : step s e = some s') : TickInv s' := by
  have hone := h.one
  unfold TickState.ahead at hone
  cases e with
  | wakeup =>
    cases hs
    refine ⟨?_,fun call hc hle => ?_,Nat.le_succ_of_le h.cleared⟩
    · rw [TickState.ahead,← hone,winners,List.countP_append]
      rfl
    · rcases Nat.lt_succ_iff_lt_or_eq.mp hc with hc | rfl
      · exact (h.late call hc hle).imp_right (List.mem_append_left _)
      · exact .inr (List.mem_append_right _ (List.mem_singleton_self _))
  | compareExchange i =>
    simp only [step] at hs
    split at hs
    · rename_i call hi
      split at hs
      · rename_i hp
        cases hs
        refine ⟨?_,fun _ _ _ => .inl hp,h.cleared⟩
        rw [TickState.ahead,← hone,(eraseIdx_called hi).1]
      · rename_i hp
        cases hs
        refine ⟨?_,fun _ _ _ => .inl rfl,h.cleared⟩
        rw [if_neg hp] at hone
        rw [TickState.ahead,(set_won hi).1,if_pos rfl]
        dsimp only
        omega
    · cases hs
  | idleAddOnce i =>
    simp only [step] at hs
    split at hs
    · rename_i call hi
      cases hs
      have hcount := (eraseIdx_won hi).1
      have hpos : s.tickPending = true := by
        by_contra hp
        rw [if_neg hp] at hone
        omega
      refine ⟨?_,fun _ _ _ => .inl hpos,h.cleared⟩
      rw [TickState.ahead,← hone,hcount]
      dsimp only
      omega
    · cases hs
  | tick =>
    simp only [step] at hs
    split at hs
    · rename_i n hq ht
      cases hs
      rw [hq,ht,if_neg (by decide)] at hone
      refine ⟨?_,h.late,h.cleared⟩
      rw [TickState.ahead,← hone,if_pos rfl]
      rfl
    · cases hs
  | clear =>
    simp only [step] at hs
    split at hs
    · rename_i ht
      cases hs
      rw [ht,if_pos rfl] at hone
      refine ⟨?_,fun call hc hle => absurd hc (Nat.not_lt.mpr hle),Nat.le_refl _⟩
      have hle : (if s.tickPending then 1 else 0) ≤ 1 := by split <;> omega
      have hnone : winners s.wakers+s.queued = 0 := by omega
      exact hnone
    · cases hs
  | finish =>
    simp only [step] at hs
    split at hs
    · rename_i ht
      cases hs
      rw [ht,if_neg (by decide)] at hone
      exact ⟨hone,h.late,h.cleared⟩
    · cases hs

theorem tickInv_of_reach (h : Reach step anyStep start s) : TickInv s := by
  refine h.inv ⟨rfl,fun call hc => ?_,Nat.le_refl _⟩ (fun _ _ _ hi _ hs => tickInv_step hi hs)
  exact absurd hc (Nat.not_lt_zero _)

theorem awaited_of_late (h : TickInv s) {call : ℕ} (hc : call < s.calls)
    (hle : s.cleared ≤ call) : s.Awaited call := by
  rcases h.late call hc hle with hp | hw
  · exact .inr (by rw [h.one,if_pos hp])
  · exact .inl hw

/-- As long as a call waits, a thread or the main loop can go on. -/
theorem enabled_of_awaited {call : ℕ} (h : s.Awaited call) :
    ∃ e, e ≠ .wakeup ∧ (step s e).isSome := by
  rcases h with hw | ha
  · obtain ⟨i,hi⟩ := List.getElem?_of_mem hw
    refine ⟨.compareExchange i,by simp,?_⟩
    simp only [step,hi]
    split <;> rfl
  · unfold TickState.ahead at ha
    cases ht : s.ticking with
    | entered => exact ⟨.clear,by simp,by simp [step,ht]⟩
    | ticking => exact ⟨.finish,by simp,by simp [step,ht]⟩
    | no =>
      rw [ht,if_neg (by decide)] at ha
      cases hq : s.queued with
      | succ n => exact ⟨.tick,by simp,by simp [step,hq,ht]⟩
      | zero =>
        rw [hq] at ha
        obtain ⟨⟨call,phase⟩,hw,hp⟩ := List.countP_pos_iff.mp (show 0 < winners s.wakers by omega)
        obtain ⟨i,hi⟩ := List.getElem?_of_mem hw
        have hphase : phase = .won := of_decide_eq_true hp
        subst hphase
        exact ⟨.idleAddOnce i,by simp,by simp [step,hi]⟩

/-- Every step but a new call brings it nearer to its end. -/
theorem weight_step {e : TickEvent} (he : e ≠ .wakeup) (hs : step s e = some s') :
    s'.weight < s.weight := by
  unfold TickState.weight
  cases e with
  | wakeup => exact absurd rfl he
  | compareExchange i =>
    simp only [step] at hs
    split at hs
    · rename_i call hi
      split at hs
      · cases hs
        obtain ⟨hw,hc⟩ := eraseIdx_called hi
        dsimp only
        omega
      · cases hs
        obtain ⟨hw,hc⟩ := set_won hi
        dsimp only
        omega
    · cases hs
  | idleAddOnce i =>
    simp only [step] at hs
    split at hs
    · rename_i call hi
      cases hs
      obtain ⟨hw,hc⟩ := eraseIdx_won hi
      dsimp only
      omega
    · cases hs
  | tick =>
    simp only [step] at hs
    split at hs
    · rename_i n hq ht
      cases hs
      simp only [hq,ht]
      omega
    · cases hs
  | clear | finish =>
    simp only [step] at hs
    split at hs
    · rename_i ht
      cases hs
      simp only [ht]
      omega
    · cases hs

/-- However the threads and the main loop are interleaved: no more than one tick is scheduled at
a time; a call that no tick has followed is still before its exchange or a tick that will clear
the flag is on its way, and somebody can go on, each step but a new call being one of finitely
many; and when no thread is in `wakeup_cb` and no tick is scheduled or runs, a tick has cleared
the flag after every call. -/
theorem wakeups_served (h : Reach step anyStep start s) :
    s.queued ≤ 1 ∧
    (∀ call < s.calls, s.cleared ≤ call →
      s.Awaited call ∧ ∃ e, e ≠ .wakeup ∧ (step s e).isSome) ∧
    (∀ e s', e ≠ .wakeup → step s e = some s' → s'.weight < s.weight) ∧
    (s.wakers = [] → s.queued = 0 → s.ticking = .no → s.cleared = s.calls) := by
  have hinv := tickInv_of_reach h
  refine ⟨?_,fun call hc hle => ?_,fun e s' he hs => weight_step he hs,fun hw hq ht => ?_⟩
  · have hone := hinv.one
    unfold TickState.ahead at hone
    have hle : (if s.tickPending then 1 else 0) ≤ 1 := by split <;> omega
    omega
  · have ha := awaited_of_late hinv hc hle
    exact ⟨ha,enabled_of_awaited ha⟩
  · by_contra hne
    have hlt : s.cleared < s.calls := Nat.lt_of_le_of_ne hinv.cleared hne
    rcases awaited_of_late hinv hlt (Nat.le_refl _) with hm | ha
    · rw [hw] at hm
      cases hm
    · rw [TickState.ahead,hw,hq,ht] at ha
      cases ha

/-- Two threads call; the second finds the flag set, and a third call comes during the tick. -/
def threeCalls : List TickEvent :=
  [.wakeup,.wakeup,.compareExchange 0,.compareExchange 1,.idleAddOnce 0,.tick,.clear,.wakeup,
    .compareExchange 0,.idleAddOnce 0]

def lastTick : List TickEvent := [.finish,.tick,.clear,.finish]

theorem wakeups_served_threeCalls :
    run step anyStep start threeCalls = some ⟨true,1,[],.ticking,3,2⟩ ∧
      TickState.Awaited ⟨true,1,[],.ticking,3,2⟩ 2 ∧
      ∃ s, run step anyStep start (threeCalls ++ lastTick) = some s ∧ s.calls = 3 ∧
        s.cleared = s.calls := by
  have hr : Reach step anyStep start ⟨true,1,[],.ticking,3,2⟩ := reach_of_run threeCalls rfl
  have hr' : Reach step anyStep start ⟨false,0,[],.no,3,3⟩ :=
    reach_of_run (threeCalls ++ lastTick) rfl
  refine ⟨rfl,((wakeups_served hr).2.1 2 (by decide) (by decide)).1,_,rfl,rfl,?_⟩
  exact (wakeups_served hr').2.2.2 rfl rfl rfl

end Limux.Tick
