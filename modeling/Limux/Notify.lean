import Limux.Workspace
import Mathlib.Algebra.Group.Int.Defs
import Mathlib.Algebra.Group.Nat.Defs
import Mathlib.Data.List.Induction

/-! Desktop notifications for bells (`app/src/notify.rs`): the two rate limiters
over any history of bells, switches and focus changes. A reading of `Instant::now`
is an integer, in nanoseconds. -/
namespace Limux.Notify

def fromSecs (secs : ℕ) : ℤ := 10^9*secs

/-- `now.duration_since(earlier).as_secs()`: nothing before `earlier`, whole seconds. -/
def elapsedSecs (now earlier : ℤ) : ℕ := (now-earlier).toNat / 10^9

def perWorkspaceCooldownSecs : ℕ := 5

def globalMaxBurst : ℕ := 3

def globalBurstWindowSecs : ℕ := 10

/-- The thread-locals of the module. -/
structure Notifier where
  windowActive : Bool
  enabled : Bool
  lastNotify : HashMap WorkspaceId ℤ
  recent : List ℤ

def Notifier.initial : Notifier := ⟨true,true,∅,[]⟩

/-- What is handed to `send_dbus_notification`, when and for which workspace. -/
structure Sent where
  time : ℤ
  workspace : WorkspaceId
  summary : String
  body : String
  deriving DecidableEq, Repr

def bellSummary (title : String) : String := "Bell in " ++ title

def bellBody (title : String) : String := "Terminal bell in workspace \"" ++ title ++ "\""

def throttled (s : Notifier) (now : ℤ) (id : WorkspaceId) : Bool :=
  match s.lastNotify.lookup id with
  | some last => elapsedSecs now last < perWorkspaceCooldownSecs
  | none => false

/-- `retain` of the burst limiter. -/
def retained (s : Notifier) (now : ℤ) : List ℤ :=
  s.recent.filter (fun t => now - fromSecs globalBurstWindowSecs < t)

def sendBellNotification (s : Notifier) (now : ℤ) (title : String) (id : WorkspaceId) :
    Notifier × Option Sent :=
  if !s.enabled then (s,none)
  else if s.windowActive then (s,none)
  else if throttled s now id then (s,none)
  else
    let recent := retained s now
    if globalMaxBurst ≤ recent.length then ({ s with recent := recent },none)
    else ({ s with lastNotify := s.lastNotify.insert id now, recent := recent ++ [now] },
      some ⟨now,id,bellSummary title,bellBody title⟩)

inductive Event
  | bell (now : ℤ) (title : String) (id : WorkspaceId)
  | enable
  | disable
  | setWindowActive (active : Bool)

/-- One event: the new thread-locals, and the notification it sends. -/
def step (s : Notifier) : Event → Notifier × Option Sent
  | .bell now title id => sendBellNotification s now title id
  | .enable => ({ s with enabled := true },none)
  | .disable => ({ s with enabled := false },none)
  | .setWindowActive active => ({ s with windowActive := active },none)

def run (events : List Event) : Notifier × List Sent :=
  events.foldl (fun s e => ((step s.1 e).1,s.2 ++ (step s.1 e).2.toList)) (.initial,[])

def bellTime : Event → Option ℤ
  | .bell now _ _ => some now
  | _ => none

def bellTimes (events : List Event) : List ℤ := events.filterMap bellTime

theorem run_snoc (events : List Event) (e : Event) : run (events ++ [e]) =
    ((step (run events).1 e).1,(run events).2 ++ (step (run events).1 e).2.toList) := by
  rw [run,List.foldl_append]
  rfl

theorem elapsedSecs_lt {now earlier : ℤ} (h : earlier ≤ now) (secs : ℕ) :
    elapsedSecs now earlier < secs ↔ now < earlier + fromSecs secs := by
  rw [elapsedSecs,fromSecs,Nat.div_lt_iff_lt_mul (by decide)]
  omega

/-- What a bell can do, with the limiter that decides it. -/
theorem sendBellNotification_cases (s : Notifier) (now : ℤ) (title : String)
    (id : WorkspaceId) :
    ((s.enabled = false ∨ s.windowActive = true ∨ throttled s now id = true) ∧
      sendBellNotification s now title id = (s,none)) ∨
    (s.enabled = true ∧ s.windowActive = false ∧ throttled s now id = false ∧
      globalMaxBurst ≤ (retained s now).length ∧
      sendBellNotification s now title id = ({ s with recent := retained s now },none)) ∨
    (s.enabled = true ∧ s.windowActive = false ∧ throttled s now id = false ∧
      (retained s now).length < globalMaxBurst ∧
      sendBellNotification s now title id =
        ({ s with lastNotify := s.lastNotify.insert id now, recent := retained s now ++ [now] },
          some ⟨now,id,bellSummary title,bellBody title⟩)) := by
  cases he : s.enabled with
  | false => exact .inl ⟨.inl rfl,by simp [sendBellNotification,he]⟩
  | true =>
    cases hw : s.windowActive with
    | true => exact .inl ⟨.inr (.inl rfl),by simp [sendBellNotification,he,hw]⟩
    | false =>
      cases ht : throttled s now id with
      | true => exact .inl ⟨.inr (.inr rfl),by simp [sendBellNotification,he,hw,ht]⟩
      | false =>
        by_cases hb : globalMaxBurst ≤ (retained s now).length
        · exact .inr (.inl ⟨rfl,rfl,rfl,hb,by simp [sendBellNotification,he,hw,ht,hb]⟩)
        · refine .inr (.inr ⟨rfl,rfl,rfl,Nat.lt_of_not_le hb,?_⟩)
          simp [sendBellNotification,he,hw,ht,hb]

/-- The notifications in the half-open window of `globalBurstWindowSecs` from `a` on. -/
def within (a : ℤ) (sent : List Sent) : List Sent :=
  sent.filter (fun n => a ≤ n.time ∧ n.time < a + fromSecs globalBurstWindowSecs)

/-- Sent to the same workspace, `n` comes at least the cooldown after `m`. -/
def Apart (m n : Sent) : Prop :=
  m.workspace = n.workspace → m.time + fromSecs perWorkspaceCooldownSecs ≤ n.time

/-- The limiters against what has been sent, after bells at `times`. -/
structure Books (times : List ℤ) (s : Notifier) (sent : List Sent) : Prop where
  time_mem : ∀ n ∈ sent, n.time ∈ times
  last : ∀ n ∈ sent, ∃ t, s.lastNotify.lookup n.workspace = some t ∧ n.time ≤ t
  of_last : ∀ id t, s.lastNotify.lookup id = some t → ∃ n ∈ sent, n.workspace = id ∧ n.time = t
  recent : ∀ now, (∀ t ∈ times, t ≤ now) → retained s now =
    (sent.map Sent.time).filter (fun t => now - fromSecs globalBurstWindowSecs < t)
  burst : ∀ a, (within a sent).length ≤ globalMaxBurst
  apart : sent.Pairwise Apart

namespace Books

variable {times : List ℤ} {s s' : Notifier} {sent : List Sent} {now : ℤ}

theorem initial : Books [] .initial [] where
  time_mem := by simp
  last := by simp
  of_last id t h := by cases h
  recent now _ := rfl
  burst a := Nat.zero_le _
  apart := .nil

theorem congr (h : Books times s sent) (hl : s'.lastNotify = s.lastNotify)
    (hr : s'.recent = s.recent) : Books times s' sent where
  time_mem := h.time_mem
  last := hl ▸ h.last
  of_last := hl ▸ h.of_last
  recent now hnow := by rw [← h.recent now hnow,retained,retained,hr]
  burst := h.burst
  apart := h.apart

/-- The limiters forget what a later bell no longer counts. -/
theorem retained_retained {later : ℤ} (h : now ≤ later) :
    retained { s with recent := retained s now } later = retained s later := by
  simp only [retained,List.filter_filter]
  refine List.filter_congr fun t _ => ?_
  simp only [Bool.and_eq_decide,decide_eq_decide,decide_eq_true_eq]
  omega

theorem throttled_iff (h : Books times s sent) (hnow : ∀ t ∈ times, t ≤ now)
    (id : WorkspaceId) : throttled s now id = true ↔
      ∃ n ∈ sent, n.workspace = id ∧ now < n.time + fromSecs perWorkspaceCooldownSecs := by
  rw [throttled]
  cases hl : s.lastNotify.lookup id with
  | none =>
    refine ⟨fun hf => by simp at hf,fun ⟨n,hn,hid,_⟩ => ?_⟩
    obtain ⟨t,ht,-⟩ := h.last n hn
    rw [hid,hl] at ht
    cases ht
  | some last =>
    obtain ⟨m,hm,hmid,hmt⟩ := h.of_last id last hl
    have hle : last ≤ now := hmt ▸ hnow _ (h.time_mem m hm)
    rw [decide_eq_true_iff,elapsedSecs_lt hle]
    constructor
    · exact fun hlt => ⟨m,hm,hmid,hmt ▸ hlt⟩
    · rintro ⟨n,hn,hid,hlt⟩
      obtain ⟨t,ht,hnt⟩ := h.last n hn
      rw [hid,hl] at ht
      cases ht
      omega

theorem length_retained (h : Books times s sent) (hnow : ∀ t ∈ times, t ≤ now) :
    (retained s now).length =
      (sent.filter (fun n => now - fromSecs globalBurstWindowSecs < n.time)).length := by
  rw [h.recent now hnow,List.filter_map,List.length_map]
  rfl

/-- Nothing in a window that holds `now` was sent before the limiter's cutoff. -/
theorem within_le_retained (h : Books times s sent) (hnow : ∀ t ∈ times, t ≤ now) {a : ℤ}
    (ha : now < a + fromSecs globalBurstWindowSecs) :
    (within a sent).length ≤ (retained s now).length := by
  rw [h.length_retained hnow]
  refine (List.monotone_filter_right _ fun n hn => ?_).length_le
  simp only [decide_eq_true_eq] at hn ⊢
  omega

theorem later (h : Books times s sent) (more : List ℤ) : Books (times ++ more) s sent where
  time_mem n hn := List.mem_append_left _ (h.time_mem n hn)
  last := h.last
  of_last := h.of_last
  recent now hnow := h.recent now fun t ht => hnow t (List.mem_append_left _ ht)
  burst := h.burst
  apart := h.apart

theorem prune (h : Books times s sent) : Books (times ++ [now])
    { s with recent := retained s now } sent where
  time_mem := (h.later [now]).time_mem
  last := h.last
  of_last := h.of_last
  recent later hlater := by
    rw [retained_retained (hlater now (by simp))]
    exact (h.later [now]).recent later hlater
  burst := h.burst
  apart := h.apart

theorem send (h : Books times s sent) (hnow : ∀ t ∈ times, t ≤ now) {id : WorkspaceId}
    (ht : throttled s now id = false) (hb : (retained s now).length < globalMaxBurst)
    (summary body : String) : Books (times ++ [now])
      { s with lastNotify := s.lastNotify.insert id now, recent := retained s now ++ [now] }
      (sent ++ [⟨now,id,summary,body⟩]) where
  time_mem n hn := by
    rcases List.mem_append.mp hn with hn | hn
    · exact List.mem_append_left _ (h.time_mem n hn)
    · rw [List.mem_singleton.mp hn]
      simp
  last n hn := by
    simp only [HashMap.lookup_insert_ite]
    rcases List.mem_append.mp hn with hn | hn
    · by_cases hid : n.workspace = id
      · exact ⟨now,by simp [hid],hnow _ (h.time_mem n hn)⟩
      · simpa only [if_neg hid] using h.last n hn
    · rw [List.mem_singleton.mp hn]
      exact ⟨now,by simp,Int.le_refl now⟩
  of_last j t hj := by
    simp only [HashMap.lookup_insert_ite] at hj
    by_cases hid : j = id
    · rw [if_pos hid] at hj
      exact ⟨_,List.mem_append_right _ (List.mem_singleton_self _),hid.symm,Option.some.inj hj⟩
    · rw [if_neg hid] at hj
      obtain ⟨n,hn,hn'⟩ := h.of_last j t hj
      exact ⟨n,List.mem_append_left _ hn,hn'⟩
  recent later hlater := by
    have hle : now ≤ later := hlater now (by simp)
    have hold := h.recent later fun t ht => hlater t (List.mem_append_left _ ht)
    rw [← retained_retained hle] at hold
    rw [List.map_append,List.filter_append,← hold]
    simp [retained]
  burst a := by
    rw [within,List.filter_append]
    by_cases ha : a ≤ now ∧ now < a + fromSecs globalBurstWindowSecs
    · have hle := h.within_le_retained hnow ha.2
      rw [List.filter_cons_of_pos (by simpa using ha),List.length_append]
      simp only [within] at hle
      simp only [List.filter_nil,List.length_singleton]
      omega
    · rw [List.filter_cons_of_neg (by simpa using ha),List.filter_nil,List.append_nil]
      exact h.burst a
  apart := by
    refine List.pairwise_append.mpr ⟨h.apart,List.pairwise_singleton _ _,fun m hm n hn hid => ?_⟩
    rw [List.mem_singleton.mp hn] at hid ⊢
    by_contra hlt
    have := (h.throttled_iff hnow id).mpr ⟨m,hm,hid,Int.not_le.mp hlt⟩
    rw [ht] at this
    cases this

theorem bell (h : Books times s sent) (hnow : ∀ t ∈ times, t ≤ now) (title : String)
    (id : WorkspaceId) : Books (times ++ [now]) (sendBellNotification s now title id).1
      (sent ++ (sendBellNotification s now title id).2.toList) := by
  rcases sendBellNotification_cases s now title id with
    ⟨-,he⟩ | ⟨-,-,-,-,he⟩ | ⟨-,-,ht,hb,he⟩
  · rw [he]
    simpa using h.later [now]
  · rw [he]
    simpa using h.prune
  · rw [he]
    exact h.send hnow ht hb _ _

theorem event (h : Books times s sent) (e : Event) (hnow : ∀ now, bellTime e = some now →
    ∀ t ∈ times, t ≤ now) : Books (times ++ (bellTime e).toList) (step s e).1
      (sent ++ (step s e).2.toList) := by
  cases e with
  | bell now title id => exact h.bell (hnow now rfl) title id
  | enable =>
    have h' : Books times { s with enabled := true } sent := h.congr rfl rfl
    simpa [bellTime,step] using h'
  | disable =>
    have h' : Books times { s with enabled := false } sent := h.congr rfl rfl
    simpa [bellTime,step] using h'
  | setWindowActive active =>
    have h' : Books times { s with windowActive := active } sent := h.congr rfl rfl
    simpa [bellTime,step] using h'

end Books

theorem run_books (events : List Event) (h : (bellTimes events).Pairwise (· ≤ ·)) :
    Books (bellTimes events) (run events).1 (run events).2 := by
  induction events using List.reverseRecOn with
  | nil => exact .initial
  | append_singleton events e ih =>
    have he : bellTimes (events ++ [e]) = bellTimes events ++ (bellTime e).toList := by
      rw [bellTimes,List.filterMap_append]
      cases hb : bellTime e <;> simp [bellTimes,hb]
    rw [he] at h ⊢
    rw [run_snoc]
    obtain ⟨hold,-,hcross⟩ := List.pairwise_append.mp h
    exact (ih hold).event e fun now hb t ht => hcross t ht now (by simp [hb])

/-- Why a bell is not announced. -/
inductive Quiet (s : Notifier) (sent : List Sent) (now : ℤ) (id : WorkspaceId) : Prop
  | disabled (h : s.enabled = false)
  | active (h : s.windowActive = true)
  | cooldown (n : Sent) (hn : n ∈ sent) (hid : n.workspace = id)
      (h : now < n.time + fromSecs perWorkspaceCooldownSecs)
  | burst (a : ℤ) (ha : a ≤ now) (hnow : now < a + fromSecs globalBurstWindowSecs)
      (h : globalMaxBurst ≤ (within a sent).length)

theorem sendBellNotification_none_iff {times : List ℤ} {s : Notifier} {sent : List Sent}
    {now : ℤ} (h : Books times s sent) (hnow : ∀ t ∈ times, t ≤ now) (title : String)
    (id : WorkspaceId) : (sendBellNotification s now title id).2 = none ↔
      Quiet s sent now id := by
  have hwithin : within (now - fromSecs globalBurstWindowSecs + 1) sent =
      sent.filter (fun n => now - fromSecs globalBurstWindowSecs < n.time) := by
    refine List.filter_congr fun n hn => ?_
    have := hnow _ (h.time_mem n hn)
    rw [decide_eq_decide]
    omega
  rcases sendBellNotification_cases s now title id with
    ⟨hq,he⟩ | ⟨-,-,-,hb,he⟩ | ⟨hen,hw,ht,hb,he⟩
  · rw [he]
    refine iff_of_true rfl ?_
    rcases hq with hq | hq | hq
    · exact .disabled hq
    · exact .active hq
    · obtain ⟨n,hn,hid,hlt⟩ := (h.throttled_iff hnow id).mp hq
      exact .cooldown n hn hid hlt
  · rw [he]
    refine iff_of_true rfl (.burst (now - fromSecs globalBurstWindowSecs + 1) ?_ (by omega) ?_)
    · simp only [fromSecs,globalBurstWindowSecs]
      omega
    · rwa [hwithin,← h.length_retained hnow]
  · rw [he]
    refine iff_of_false (by simp) fun hq => ?_
    cases hq with
    | disabled hd => simp [hen] at hd
    | active hd => simp [hw] at hd
    | cooldown n hn hid hlt =>
      have := (h.throttled_iff hnow id).mpr ⟨n,hn,hid,hlt⟩
      simp [ht] at this
    | burst a ha hlt hfull =>
      have := h.within_le_retained hnow hlt
      omega

/-- Three notifications at most in ten seconds, five seconds between two of a workspace, and
a bell is announced unless one of the two limits, a switch or the focus is against it. -/
theorem bells_limited (events : List Event) (h : (bellTimes events).Pairwise (· ≤ ·)) :
    (∀ a, (within a (run events).2).length ≤ globalMaxBurst) ∧ (run events).2.Pairwise Apart ∧
    ∀ before now title id after, events = before ++ .bell now title id :: after →
      ((step (run before).1 (.bell now title id)).2 = none ↔
        Quiet (run before).1 (run before).2 now id) := by
  refine ⟨(run_books events h).burst,(run_books events h).apart,?_⟩
  rintro before now title id after rfl
  rw [bellTimes,List.filterMap_append] at h
  obtain ⟨hold,-,hcross⟩ := List.pairwise_append.mp h
  exact sendBellNotification_none_iff (run_books before hold)
    (fun t ht => hcross t ht now (by simp [bellTime])) title id

/-- Four workspaces ring within four seconds while the window is in the background. -/
def storm : List Event :=
  [.setWindowActive false,.bell 0 "a" 1,.bell (fromSecs 1) "b" 2,.bell (fromSecs 2) "c" 3]

theorem bells_limited_storm :
    Quiet (run storm).1 (run storm).2 (fromSecs 3) 4 ∧
      (run (storm ++ [.bell (fromSecs 3) "d" 4])).2.length = 3 :=
  ⟨((bells_limited (storm ++ [.bell (fromSecs 3) "d" 4]) (by decide)).2.2 storm (fromSecs 3) "d" 4
    [] rfl).mp (by decide),by decide⟩

end Limux.Notify
