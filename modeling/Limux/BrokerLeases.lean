import Limux.BrokerRun

/-! Entries and leases of the broker in any order of steps: the count of an entry is that
of its live leases, its tunnel is there as a whole, and what callbacks are told is stored. -/
namespace Limux

open Machine

namespace Broker

/-- Tunnel, client and endpoint are all there, or none is. -/
def Entry.Whole (e : Entry) : Prop :=
  (e.tunnel.isSome ∧ e.rpc.isSome ∧ e.endpoint.isSome) ∨
    (e.tunnel = none ∧ e.rpc = none ∧ e.endpoint = none)

structure Leased (s : Broker) : Prop where
  numbered : Numbered s
  count : ∀ key, (s.entries.lookup key).map Entry.subscriberCount =
    if s.live key = [] then none else some (s.live key).length
  whole : ∀ key e, s.entries.lookup key = some e → e.Whole

theorem leased_init : Leased init :=
  ⟨⟨List.nodup_nil,fun _ h => absurd h List.not_mem_nil⟩,fun _ => rfl,fun _ _ h => by cases h⟩

theorem Leased.lookup {s : Broker} (h : Leased s) {key : String} {e : Entry}
    (hl : s.entries.lookup key = some e) :
    e.subscriberCount = (s.live key).length ∧ s.live key ≠ [] := by
  have hc := h.count key
  rw [hl] at hc
  split at hc
  · cases hc
  · exact ⟨Option.some.inj hc,‹_›⟩

theorem Leased.lookup_isSome {s : Broker} (h : Leased s) (key : String) :
    (s.entries.lookup key).isSome ↔ s.live key ≠ [] := by
  have hc := congrArg Option.isSome (h.count key)
  rw [Option.isSome_map] at hc
  rw [hc]
  split
  · simp [*]
  · simp [*]

theorem leased_acquire {s : Broker} (h : Leased s) (key : String) : Leased (s.acquire key) := by
  refine ⟨numbered_acquire h.numbered key,fun k => ?_,fun k e hk => ?_⟩
  · rw [live_acquire]
    cases hl : s.entries.lookup key with
    | none =>
      have hlive : s.live key = [] := by
        by_contra hne
        have hs := (h.lookup_isSome key).mpr hne
        rw [hl] at hs
        cases hs
      simp only [acquire,hl,HashMap.lookup_insert_ite]
      split
      · simp [hlive]
      · exact h.count k
    | some e =>
      simp only [acquire,hl,HashMap.lookup_insert_ite]
      split
      · simp [(h.lookup hl).1]
      · exact h.count k
  · cases hl : s.entries.lookup key with
    | none =>
      simp only [acquire,hl,HashMap.lookup_insert_ite] at hk
      split at hk
      · cases hk
        exact .inr ⟨rfl,rfl,rfl⟩
      · exact h.whole k e hk
    | some e' =>
      simp only [acquire,hl,HashMap.lookup_insert_ite] at hk
      split at hk
      · cases hk
        exact h.whole key e' hl
      · exact h.whole k e hk

theorem entries_dropLease {s : Broker} (h : Leased s) {id : LeaseId} {key : String}
    (hm : (id,key) ∈ s.leases) :
    ∃ e, s.entries.lookup key = some e ∧
      ((s.live key).length = 1 ∧ (s.dropLease id key).entries = s.entries.erase key ∨
      (s.live key).length ≠ 1 ∧ (s.dropLease id key).entries = s.entries.insert key { e with
        subscriberCount := (s.live key).length-1, callbacks := e.callbacks.dropLast }) := by
  have hne : s.live key ≠ [] := List.ne_nil_of_mem (mem_live.mpr hm)
  obtain ⟨e,hl⟩ := Option.isSome_iff_exists.mp ((h.lookup_isSome key).mpr hne)
  have hpos : 0 < (s.live key).length := List.length_pos_iff.mpr hne
  have hn := (h.lookup hl).1
  refine ⟨e,hl,?_⟩
  by_cases h1 : (s.live key).length = 1
  · exact .inl ⟨h1,by simp [dropLease,release,hl,hn,h1]⟩
  · have h2 : ¬ (s.live key).length-1 = 0 := by omega
    exact .inr ⟨h1,by simp [dropLease,release,hl,hn,h2]⟩

theorem leased_dropLease {s : Broker} (h : Leased s) {id : LeaseId} {key : String}
    (hm : (id,key) ∈ s.leases) : Leased (s.dropLease id key) := by
  obtain ⟨e,hl,he⟩ := entries_dropLease h hm
  have hid : id ∈ s.live key := mem_live.mpr hm
  have hlen : ((s.live key).erase id).length = (s.live key).length-1 :=
    List.length_erase_of_mem hid
  refine ⟨⟨?_,fun l hl => ?_⟩,fun k => ?_,fun k e' hk => ?_⟩
  · rw [dropLease_leases]
    exact h.numbered.1.sublist (List.erase_sublist.map _)
  · rw [dropLease_leases] at hl
    rw [dropLease_nextLease]
    exact h.numbered.2 l (List.mem_of_mem_erase hl)
  · rw [live_dropLease h.numbered.1]
    rcases he with ⟨h1,he⟩ | ⟨h1,he⟩
    · rw [he,HashMap.lookup_erase_ite]
      split
      · rw [if_pos (List.length_eq_zero_iff.mp (by omega))]
        rfl
      · exact h.count k
    · rw [he,HashMap.lookup_insert_ite]
      split
      · rw [if_neg,hlen]
        · rfl
        · intro hnil
          rw [hnil] at hlen
          have hpos := List.length_pos_of_mem hid
          simp only [List.length_nil] at hlen
          omega
      · exact h.count k
  · rcases he with ⟨h1,he⟩ | ⟨h1,he⟩
    · rw [he,HashMap.lookup_erase_ite] at hk
      split at hk
      · cases hk
      · exact h.whole k e' hk
    · rw [he,HashMap.lookup_insert_ite] at hk
      split at hk
      · cases hk
        exact h.whole key e hl
      · exact h.whole k e' hk

theorem whole_task_step {s s' : Broker} (h : Leased s) {a : Act} {t : ℕ} (ha : a.task = some t)
    (hs : s.step a = some s') {key : String} {e : Entry} (hk : s'.entries.lookup key = some e) :
    e.Whole := by
  cases a with
  | acquire key => cases ha
  | drop id => cases ha
  | connected t ep =>
    obtain ⟨x,-,rfl⟩ := Option.map_eq_some_iff.mp hs
    cases hl : s.entries.lookup x.key with
    | none =>
      simp only [hl] at hk
      exact h.whole key e hk
    | some e' =>
      simp only [hl,HashMap.lookup_insert_ite] at hk
      split at hk
      · cases hk
        exact .inl ⟨rfl,rfl,rfl⟩
      · exact h.whole key e hk
  | restart t =>
    obtain ⟨x,-,rfl⟩ := Option.map_eq_some_iff.mp hs
    cases hl : s.entries.lookup x.key with
    | none =>
      simp only [hl] at hk
      exact h.whole key e hk
    | some e' =>
      simp only [hl,HashMap.lookup_insert_ite] at hk
      split at hk
      · cases hk
        exact .inr ⟨rfl,rfl,rfl⟩
      · exact h.whole key e hk
  | failed t detail =>
    obtain ⟨x,-,rfl⟩ := Option.map_eq_some_iff.mp hs
    cases hl : s.entries.lookup x.key with
    | none | some =>
      simp only [hl] at hk
      exact h.whole key e hk
  | wake t | poll t ok | cancel t =>
    obtain ⟨x,-,rfl⟩ := Option.map_eq_some_iff.mp hs
    exact h.whole key e hk

theorem leased_step {s s' : Broker} {a : Act} (h : Leased s) (hs : s.step a = some s') :
    Leased s' := by
  cases ha : a.task with
  | some t =>
    obtain ⟨hl,hn,he,-⟩ := task_step ha hs
    refine ⟨⟨?_,?_⟩,fun key => ?_,fun key e hk => whole_task_step h ha hs hk⟩
    · rw [hl]
      exact h.numbered.1
    · rw [hl,hn]
      exact h.numbered.2
    · have hb := congrArg (Option.map Prod.snd) (he key)
      simp only [Option.map_map] at hb
      rw [live_congr hl]
      exact hb.trans (h.count key)
  | none =>
    cases a with
    | acquire key =>
      cases hs
      exact leased_acquire h key
    | drop id =>
      obtain ⟨⟨i,key⟩,hf,rfl⟩ := Option.map_eq_some_iff.mp hs
      have hid : i = id := by simpa using List.find?_some hf
      subst hid
      exact leased_dropLease h (List.mem_of_find?_eq_some hf)
    | _ => cases ha

/-- A callback that is told of an endpoint is one of an entry that holds it. -/
def Reports (s s' : Broker) : Prop :=
  ∃ new, s'.notified = s.notified ++ new ∧ ∀ id ep, (id,.ready ep) ∈ new →
    ∃ key e, s'.entries.lookup key = some e ∧ id ∈ e.callbacks ∧ e.endpoint = some ep

theorem reports_none {s s' : Broker} (h : s'.notified = s.notified) : Reports s s' :=
  ⟨[],by simpa using h,by simp⟩

theorem step_reports {s s' : Broker} {a : Act} (hs : s.step a = some s') : Reports s s' := by
  cases a with
  | acquire key =>
    cases hs
    cases hl : s.entries.lookup key with
    | none =>
      refine ⟨[(s.nextLease,.connecting)],by simp only [acquire,hl],fun id ep hm => ?_⟩
      simp at hm
    | some e =>
      refine ⟨[(s.nextLease,e.endpoint.elim .connecting .ready)],by simp only [acquire,hl],
        fun id ep hm => ?_⟩
      obtain ⟨rfl,hep⟩ := Prod.mk.inj (List.mem_singleton.mp hm)
      refine ⟨key,_,by simp only [acquire,hl]; exact AList.lookup_insert _,by simp,?_⟩
      cases he : e.endpoint with
      | none =>
        rw [he] at hep
        cases hep
      | some ep' =>
        rw [he] at hep
        cases hep
        rfl
  | drop id =>
    obtain ⟨l,-,rfl⟩ := Option.map_eq_some_iff.mp hs
    exact reports_none (dropLease_notified ..)
  | connected t ep =>
    obtain ⟨x,-,rfl⟩ := Option.map_eq_some_iff.mp hs
    cases hl : s.entries.lookup x.key with
    | none => exact reports_none rfl
    | some e =>
      refine ⟨_,rfl,fun id ep' hm => ?_⟩
      obtain ⟨id',hid,he⟩ := List.mem_map.mp hm
      cases he
      exact ⟨x.key,_,AList.lookup_insert _,hid,rfl⟩
  | failed t detail =>
    obtain ⟨x,-,rfl⟩ := Option.map_eq_some_iff.mp hs
    cases hl : s.entries.lookup x.key with
    | none => exact reports_none rfl
    | some e =>
      refine ⟨_,rfl,fun id ep' hm => ?_⟩
      obtain ⟨id',-,he⟩ := List.mem_map.mp hm
      cases he
  | restart t =>
    obtain ⟨x,-,rfl⟩ := Option.map_eq_some_iff.mp hs
    cases hl : s.entries.lookup x.key with
    | none => exact reports_none rfl
    | some e =>
      refine ⟨_,rfl,fun id ep' hm => ?_⟩
      obtain ⟨id',-,he⟩ := List.mem_map.mp hm
      cases he
  | wake t | poll t ok | cancel t =>
    obtain ⟨x,-,rfl⟩ := Option.map_eq_some_iff.mp hs
    exact reports_none rfl

/-- In any order of acquires, drops and task steps: a key has an entry while it has a live
lease, with their number as its count; its tunnel, client and endpoint come and go together;
callbacks are told of the endpoint that is stored. -/
theorem leases_counted {s : Broker} (h : Reach step anyStep init s) :
    (∀ key, (s.entries.lookup key).isSome ↔ ∃ id, (id,key) ∈ s.leases) ∧
    (∀ key e, s.entries.lookup key = some e →
      e.subscriberCount = (s.live key).length ∧ e.Whole) ∧
    ∀ a s', s.step a = some s' → Reports s s' := by
  have hl : Leased s := h.inv leased_init (fun _ _ _ h _ hs => leased_step h hs)
  refine ⟨fun key => ?_,fun key e he => ⟨(hl.lookup he).1,hl.whole key e he⟩,
    fun a s' hs => step_reports hs⟩
  rw [hl.lookup_isSome,List.ne_nil_iff_exists_cons]
  constructor
  · rintro ⟨id,ids,he⟩
    exact ⟨id,mem_live.mp (he ▸ List.mem_cons_self)⟩
  · rintro ⟨id,hm⟩
    exact List.ne_nil_iff_exists_cons.mp (List.ne_nil_of_mem (mem_live.mpr hm))

/-- A key is given up while its task connects, and taken again. -/
def retakenActs : List Act :=
  [.acquire "dev",.drop 0,.acquire "dev",.connected 0 ⟨"127.0.0.1",40000⟩,.acquire "dev",
    .connected 1 ⟨"127.0.0.1",40001⟩]

theorem leases_counted_retaken : ∃ s, run step anyStep init retakenActs = some s ∧
    s.live "dev" = [1,2] ∧ (s.entries.lookup "dev").isSome = true := by
  refine ⟨_,rfl,rfl,?_⟩
  exact ((leases_counted (reach_of_run retakenActs rfl)).1 "dev").mpr ⟨1,by decide⟩

end Broker

end Limux
