import Limux.Broker

/-! Runs of the broker: leases dropped in the reverse order of their acquires keep the
callbacks of an entry and its live leases the same. -/
namespace Limux

open Machine

namespace Broker

/-- The live leases of a key, oldest first. -/
def live (s : Broker) (key : String) : List LeaseId :=
  (s.leases.filter (fun l => l.2 = key)).map Prod.fst

def callbacksOf (s : Broker) (key : String) : List LeaseId :=
  ((s.entries.lookup key).map Entry.callbacks).getD []

/-- The callbacks held for each key are those of its live leases. -/
def Exact (s : Broker) : Prop := ∀ key, (s.callbacksOf key).Perm (s.live key)

/-- A lease is dropped only while no newer one of its key is live. -/
def Lifo (s : Broker) : Act → Prop
  | .drop id => ∀ key, (id,key) ∈ s.leases → (s.live key).getLast? = some id
  | _ => True

def Act.task : Act → Option ℕ
  | .connected t _ | .failed t _ | .wake t | .poll t _ | .restart t | .cancel t => some t
  | .acquire _ | .drop _ => none

/-- What an entry says of its subscribers. -/
def Entry.books (e : Entry) : List LeaseId × ℕ := (e.callbacks,e.subscriberCount)

/-- Entries and leases agree. -/
structure Books (s : Broker) : Prop where
  nodup : (s.leases.map Prod.fst).Nodup
  fresh : ∀ l ∈ s.leases, l.1 < s.nextLease
  entry : ∀ key, (s.entries.lookup key).map Entry.books =
    if s.live key = [] then none else some (s.live key,(s.live key).length)

theorem Books.lookup {s : Broker} (h : Books s) {key : String} {e : Entry}
    (hl : s.entries.lookup key = some e) :
    e.callbacks = s.live key ∧ e.subscriberCount = (s.live key).length ∧ s.live key ≠ [] := by
  have he := h.entry key
  rw [hl] at he
  split at he
  · cases he
  · rename_i hne
    obtain ⟨h1,h2⟩ := Prod.mk.inj (Option.some.inj he)
    exact ⟨h1,h2,hne⟩

theorem Books.lookup_none {s : Broker} (h : Books s) {key : String}
    (hl : s.entries.lookup key = none) : s.live key = [] := by
  have he := h.entry key
  rw [hl] at he
  split at he
  · assumption
  · cases he

theorem Books.exact {s : Broker} (h : Books s) : Exact s := by
  intro key
  rw [callbacksOf]
  cases hl : s.entries.lookup key with
  | none => rw [h.lookup_none hl]; rfl
  | some e => exact .of_eq (h.lookup hl).1

/-- Steps of a task leave leases and callbacks alone; they call the callbacks of one
key, or none. -/
theorem task_step {s s' : Broker} {a : Act} {t : ℕ} (ha : a.task = some t)
    (hs : s.step a = some s') :
    s'.leases = s.leases ∧ s'.nextLease = s.nextLease ∧
    (∀ key, (s'.entries.lookup key).map Entry.books = (s.entries.lookup key).map Entry.books) ∧
    (s'.notified = s.notified ∨ ∃ x st, s.tasks[t]? = some x ∧
      s'.notified = s.notified ++ (s.callbacksOf x.key).map (fun id => (id,st))) := by
  have hentry : ∀ (k : String) (e e' : Entry), s.entries.lookup k = some e → e'.books = e.books →
      ∀ key, ((s.entries.insert k e').lookup key).map Entry.books =
        (s.entries.lookup key).map Entry.books := by
    intro k e e' hl hb key
    rw [HashMap.lookup_insert_ite]
    split
    · rename_i hk
      rw [hk,hl,Option.map_some,Option.map_some,hb]
    · rfl
  have htask : ∀ {p : TaskPhase} {x : Task}, s.task? t p = some x → s.tasks[t]? = some x :=
    fun h => (Option.filter_eq_some_iff.mp h).1
  cases a with
  | acquire key => cases ha
  | drop id => cases ha
  | connected t ep =>
    cases ha
    obtain ⟨x,hx,rfl⟩ := Option.map_eq_some_iff.mp hs
    cases hl : s.entries.lookup x.key with
    | none => exact ⟨rfl,rfl,fun _ => rfl,.inl rfl⟩
    | some e =>
      refine ⟨rfl,rfl,hentry _ e _ hl rfl,.inr ⟨x,.ready ep,htask hx,?_⟩⟩
      rw [callbacksOf,hl]
      rfl
  | failed t detail =>
    cases ha
    obtain ⟨x,hx,rfl⟩ := Option.map_eq_some_iff.mp hs
    cases hl : s.entries.lookup x.key with
    | none => exact ⟨rfl,rfl,fun _ => rfl,.inl rfl⟩
    | some e =>
      refine ⟨rfl,rfl,fun _ => rfl,.inr ⟨x,.error detail,htask hx,?_⟩⟩
      rw [callbacksOf,hl]
      rfl
  | wake t =>
    cases ha
    obtain ⟨x,hx,rfl⟩ := Option.map_eq_some_iff.mp hs
    exact ⟨rfl,rfl,fun _ => rfl,.inl rfl⟩
  | poll t ok =>
    cases ha
    obtain ⟨x,hx,rfl⟩ := Option.map_eq_some_iff.mp hs
    exact ⟨rfl,rfl,fun _ => rfl,.inl rfl⟩
  | restart t =>
    cases ha
    obtain ⟨x,hx,rfl⟩ := Option.map_eq_some_iff.mp hs
    cases hl : s.entries.lookup x.key with
    | none => exact ⟨rfl,rfl,fun _ => rfl,.inl rfl⟩
    | some e =>
      refine ⟨rfl,rfl,hentry _ e _ hl rfl,.inr ⟨x,.connecting,htask hx,?_⟩⟩
      rw [callbacksOf,hl]
      rfl
  | cancel t =>
    cases ha
    obtain ⟨x,hx,rfl⟩ := Option.map_eq_some_iff.mp hs
    exact ⟨rfl,rfl,fun _ => rfl,.inl rfl⟩

theorem live_congr {s s' : Broker} (h : s'.leases = s.leases) (key : String) :
    s'.live key = s.live key := by
  rw [live,h,live]

theorem acquire_leases (s : Broker) (key : String) :
    (s.acquire key).leases = s.leases ++ [(s.nextLease,key)] := by
  unfold acquire
  dsimp only
  split <;> rfl

theorem acquire_nextLease (s : Broker) (key : String) :
    (s.acquire key).nextLease = s.nextLease+1 := by
  unfold acquire
  dsimp only
  split <;> rfl

theorem live_acquire (s : Broker) (key k : String) : (s.acquire key).live k =
    if k = key then s.live key ++ [s.nextLease] else s.live k := by
  rw [live,acquire_leases,List.filter_append]
  by_cases hk : k = key
  · subst hk
    simp [live]
  · simp [live,hk,Ne.symm hk]

/-- Leases have numbers of their own, below the next one. -/
def Numbered (s : Broker) : Prop :=
  (s.leases.map Prod.fst).Nodup ∧ ∀ l ∈ s.leases, l.1 < s.nextLease

theorem numbered_acquire {s : Broker} (h : Numbered s) (key : String) :
    Numbered (s.acquire key) := by
  obtain ⟨hn,hf⟩ := h
  refine ⟨?_,fun l hl => ?_⟩
  · rw [acquire_leases,List.map_append,List.nodup_append]
    refine ⟨hn,by simp,?_⟩
    rintro x hx y hy rfl
    obtain ⟨l,hl,rfl⟩ := List.mem_map.mp hx
    simp only [List.map_cons,List.map_nil,List.mem_singleton] at hy
    exact (hf l hl).ne hy
  · rw [acquire_leases,List.mem_append,List.mem_singleton] at hl
    rw [acquire_nextLease]
    rcases hl with hl | rfl
    · exact Nat.lt_succ_of_lt (hf l hl)
    · exact Nat.lt_succ_self _

theorem books_acquire {s : Broker} (h : Books s) (key : String) : Books (s.acquire key) := by
  obtain ⟨hn,hf⟩ := numbered_acquire ⟨h.nodup,h.fresh⟩ key
  refine ⟨hn,hf,fun k => ?_⟩
  · rw [live_acquire]
    cases hl : s.entries.lookup key with
    | none =>
      simp only [acquire,hl,HashMap.lookup_insert_ite]
      split
      · rw [h.lookup_none hl]
        simp [Entry.books]
      · exact h.entry k
    | some e =>
      obtain ⟨hc,hn,-⟩ := h.lookup hl
      simp only [acquire,hl,HashMap.lookup_insert_ite]
      split
      · simp [Entry.books,hc,hn]
      · exact h.entry k

theorem find_lease {s : Broker} (h : (s.leases.map Prod.fst).Nodup) {id : LeaseId} {key : String}
    (hm : (id,key) ∈ s.leases) : s.leases.find? (fun l => l.1 = id) = some (id,key) := by
  cases hf : s.leases.find? (fun l => l.1 = id) with
  | none => simpa using List.find?_eq_none.mp hf _ hm
  | some l =>
    have hid : l.1 = id := by simpa using List.find?_some hf
    exact congrArg some (List.inj_on_of_nodup_map h (List.mem_of_find?_eq_some hf) hm hid)

theorem dropLease_leases (s : Broker) (id : LeaseId) (key : String) :
    (s.dropLease id key).leases = s.leases.erase (id,key) := by
  unfold dropLease release abort
  split
  · split
    · dsimp only
      split <;> rfl
    · rfl
  · rfl

theorem dropLease_nextLease (s : Broker) (id : LeaseId) (key : String) :
    (s.dropLease id key).nextLease = s.nextLease := by
  unfold dropLease release abort
  split
  · split
    · dsimp only
      split <;> rfl
    · rfl
  · rfl

theorem dropLease_notified (s : Broker) (id : LeaseId) (key : String) :
    (s.dropLease id key).notified = s.notified := by
  unfold dropLease release abort
  split
  · split
    · dsimp only
      split <;> rfl
    · rfl
  · rfl

theorem nodup_live {s : Broker} (h : (s.leases.map Prod.fst).Nodup) (key : String) :
    (s.live key).Nodup :=
  h.sublist (List.filter_sublist.map _)

theorem mem_live {s : Broker} {id : LeaseId} {key : String} :
    id ∈ s.live key ↔ (id,key) ∈ s.leases := by
  simp [live]

theorem live_dropLease {s : Broker} (h : (s.leases.map Prod.fst).Nodup) (id : LeaseId) (key k : String) :
    (s.dropLease id key).live k = if k = key then (s.live key).erase id else s.live k := by
  rw [live,dropLease_leases,(List.Nodup.of_map _ h).erase_eq_filter,List.filter_filter]
  split
  · rename_i hk
    subst hk
    rw [(nodup_live h k).erase_eq_filter,live,List.filter_map,List.filter_filter]
    congr 1
    apply List.filter_congr
    rintro ⟨i,j⟩ -
    by_cases hj : j = k
    · rw [Bool.eq_iff_iff]
      simp [hj]
    · simp [hj]
  · rename_i hk
    rw [live]
    congr 1
    apply List.filter_congr
    rintro ⟨i,j⟩ -
    by_cases hj : j = k
    · simp [hj,hk]
    · simp [hj]

theorem callbacks_dropLease {s : Broker} (h : Books s) {id : LeaseId} {key : String}
    (hm : (id,key) ∈ s.leases) (k : String) :
    ((s.dropLease id key).entries.lookup k).map Entry.books =
      if k = key then
        if (s.live key).length = 1 then none
        else some ((s.live key).dropLast,(s.live key).length-1)
      else (s.entries.lookup k).map Entry.books := by
  have hne : s.live key ≠ [] := List.ne_nil_of_mem (mem_live.mpr hm)
  obtain ⟨e,hl⟩ : ∃ e, s.entries.lookup key = some e := by
    cases hl : s.entries.lookup key with
    | none => exact absurd (h.lookup_none hl) hne
    | some e => exact ⟨e,rfl⟩
  obtain ⟨hc,hn,-⟩ := h.lookup hl
  have hpos : 0 < (s.live key).length := List.length_pos_iff.mpr hne
  by_cases h1 : (s.live key).length = 1
  · have : (s.dropLease id key).entries = s.entries.erase key := by
      simp [dropLease,release,hl,hn,h1]
    rw [this,HashMap.lookup_erase_ite,if_pos h1]
    split <;> rfl
  · have : (s.dropLease id key).entries = s.entries.insert key { e with
        subscriberCount := e.subscriberCount-1, callbacks := e.callbacks.dropLast } := by
      have h2 : ¬ e.subscriberCount-1 = 0 := by omega
      simp [dropLease,release,hl,h2]
    rw [this,HashMap.lookup_insert_ite,if_neg h1]
    split
    · simp [Entry.books,hc,hn]
    · rfl

theorem erase_of_getLast {l : List LeaseId} (hd : l.Nodup) {id : LeaseId}
    (hl : l.getLast? = some id) : l.erase id = l.dropLast := by
  obtain ⟨a,rfl⟩ := List.getLast?_eq_some_iff.mp hl
  have hn : id ∉ a := by
    intro hm
    exact (List.nodup_append.mp hd).2.2 id hm id (List.mem_singleton_self id) rfl
  rw [List.erase_append_right _ hn]
  simp

theorem books_dropLease {s : Broker} (h : Books s) {id : LeaseId} {key : String}
    (hm : (id,key) ∈ s.leases) (hlast : (s.live key).getLast? = some id) :
    Books (s.dropLease id key) := by
  refine ⟨?_,?_,fun k => ?_⟩
  · rw [dropLease_leases]
    exact h.nodup.sublist (List.erase_sublist.map _)
  · rw [dropLease_leases,dropLease_nextLease]
    exact fun l hl => h.fresh l (List.mem_of_mem_erase hl)
  · rw [callbacks_dropLease h hm,live_dropLease h.nodup]
    split
    · rw [erase_of_getLast (nodup_live h.nodup key) hlast]
      have hpos : 0 < (s.live key).length :=
        List.length_pos_iff.mpr (List.ne_nil_of_mem (mem_live.mpr hm))
      have hnil : (s.live key).dropLast = [] ↔ (s.live key).length = 1 := by
        rw [← List.length_eq_zero_iff,List.length_dropLast]
        omega
      simp only [hnil,List.length_dropLast]
    · exact h.entry k

/-- Dropping a lease that is not the newest one keeps the wrong callback. -/
theorem not_exact_dropLease {s : Broker} (h : Books s) {id : LeaseId} {key : String}
    (hm : (id,key) ∈ s.leases) (hlast : (s.live key).getLast? ≠ some id) :
    ¬ Exact (s.dropLease id key) := by
  intro hex
  have hid : id ∈ s.live key := mem_live.mpr hm
  have hn1 : (s.live key).length ≠ 1 := by
    intro h1
    obtain ⟨x,hx⟩ := List.length_eq_one_iff.mp h1
    rw [hx] at hid hlast
    exact hlast (congrArg some (List.mem_singleton.mp hid).symm)
  have hcb : (s.dropLease id key).callbacksOf key = (s.live key).dropLast := by
    have hk := callbacks_dropLease h hm key
    rw [if_pos rfl,if_neg hn1] at hk
    obtain ⟨e,he,hb⟩ := Option.map_eq_some_iff.mp hk
    rw [callbacksOf,he]
    exact (Prod.mk.inj hb).1
  have hmem : id ∈ (s.live key).dropLast := by
    rw [← List.dropLast_append_getLast (List.ne_nil_of_mem hid),List.mem_append,
      List.mem_singleton] at hid
    rcases hid with hid | hid
    · exact hid
    · exact absurd (hid ▸ List.getLast?_eq_some_getLast _) hlast
  have hperm := hex key
  rw [hcb,live_dropLease h.nodup,if_pos rfl] at hperm
  exact (nodup_live h.nodup key).not_mem_erase (hperm.subset hmem)

theorem step_books {s s' : Broker} {a : Act} (h : Books s) (hok : Lifo s a)
    (hs : s.step a = some s') : Books s' := by
  cases ha : a.task with
  | some t =>
    obtain ⟨hl,hn,he,-⟩ := task_step ha hs
    refine ⟨?_,?_,fun key => ?_⟩
    · rw [hl]
      exact h.nodup
    · rw [hl,hn]
      exact h.fresh
    · rw [he,live_congr hl]
      exact h.entry key
  | none =>
    cases a with
    | acquire key =>
      cases hs
      exact books_acquire h key
    | drop id =>
      obtain ⟨⟨i,key⟩,hf,rfl⟩ := Option.map_eq_some_iff.mp hs
      have hid : i = id := by simpa using List.find?_some hf
      subst hid
      have hm := List.mem_of_find?_eq_some hf
      exact books_dropLease h hm (hok key hm)
    | _ => cases ha

theorem books_init : Books init :=
  ⟨List.nodup_nil,fun _ h => absurd h List.not_mem_nil,fun _ => rfl⟩

theorem books_reach {s : Broker} (h : Reach step Lifo init s) : Books s :=
  h.inv books_init (fun _ _ _ hb hok hs => step_books hb hok hs)

/-- The tunnel state a step of a task makes known, with the key it is for. -/
def stateChange (s : Broker) : Act → Option (String × ProxyState)
  | .connected t ep => s.tasks[t]?.map (fun x => (x.key,.ready ep))
  | .failed t detail => s.tasks[t]?.map (fun x => (x.key,.error detail))
  | .restart t => s.tasks[t]?.map (fun x => (x.key,.connecting))
  | _ => none

/-- A step calls callbacks of live leases only, and on a change of a tunnel those of
all its leases. -/
def Notifies (s : Broker) (a : Act) (s' : Broker) : Prop :=
  ∃ new, s'.notified = s.notified ++ new ∧ (∀ n ∈ new, n.1 ∈ s'.leases.map Prod.fst) ∧
    ∀ key st, s.stateChange a = some (key,st) → ∀ id ∈ s'.live key, (id,st) ∈ new

theorem mem_leases_of_live {s : Broker} {id : LeaseId} {key : String} (h : id ∈ s.live key) :
    id ∈ s.leases.map Prod.fst :=
  List.mem_map_of_mem (mem_live.mp h)

theorem notifies_all {s s' : Broker} {a : Act} {x : Task} {st : ProxyState} {e : Entry}
    (h : Books s) (hl : s'.leases = s.leases) (hc : s.stateChange a = some (x.key,st))
    (he : s.entries.lookup x.key = some e)
    (hn : s'.notified = s.notified ++ e.callbacks.map (fun id => (id,st))) :
    Notifies s a s' := by
  rw [(h.lookup he).1] at hn
  refine ⟨_,hn,?_,?_⟩
  · rintro n hm
    obtain ⟨id,hid,rfl⟩ := List.mem_map.mp hm
    rw [hl]
    exact mem_leases_of_live hid
  · intro key st' hk id hid
    rw [hc] at hk
    obtain ⟨rfl,rfl⟩ := Prod.mk.inj (Option.some.inj hk)
    rw [live_congr hl] at hid
    exact List.mem_map_of_mem hid

theorem notifies_none {s s' : Broker} {a : Act} (h : Books s) (hl : s'.leases = s.leases)
    (hc : ∀ key st, s.stateChange a = some (key,st) → s.entries.lookup key = none)
    (hn : s'.notified = s.notified) : Notifies s a s' := by
  refine ⟨[],by simpa using hn,by simp,fun key st hk id hid => ?_⟩
  rw [live_congr hl,h.lookup_none (hc key st hk)] at hid
  cases hid

theorem step_notifies {s s' : Broker} {a : Act} (h : Books s) (hs : s.step a = some s') :
    Notifies s a s' := by
  have htask : ∀ {t : ℕ} {p : TaskPhase} {x : Task}, s.task? t p = some x →
      s.tasks[t]? = some x :=
    fun h => (Option.filter_eq_some_iff.mp h).1
  cases a with
  | acquire key =>
    cases hs
    have hlast : s.nextLease ∈ (s.acquire key).leases.map Prod.fst := by
      unfold acquire
      dsimp only
      split <;> simp
    obtain ⟨st,hn⟩ : ∃ st, (s.acquire key).notified = s.notified ++ [(s.nextLease,st)] := by
      unfold acquire
      dsimp only
      split <;> exact ⟨_,rfl⟩
    refine ⟨_,hn,?_,fun _ _ hk => by cases hk⟩
    intro n hm
    rw [List.mem_singleton.mp hm]
    exact hlast
  | drop id =>
    obtain ⟨l,-,rfl⟩ := Option.map_eq_some_iff.mp hs
    refine ⟨[],?_,by simp,fun _ _ hk => by cases hk⟩
    rw [dropLease_notified,List.append_nil]
  | connected t ep =>
    obtain ⟨x,hx,rfl⟩ := Option.map_eq_some_iff.mp hs
    have hc : s.stateChange (.connected t ep) = some (x.key,.ready ep) := by
      rw [stateChange,htask hx,Option.map_some]
    cases he : s.entries.lookup x.key with
    | none =>
      refine notifies_none h rfl (fun key st hk => ?_) rfl
      rw [hc] at hk
      cases hk
      exact he
    | some e => exact notifies_all h rfl hc he rfl
  | failed t detail =>
    obtain ⟨x,hx,rfl⟩ := Option.map_eq_some_iff.mp hs
    have hc : s.stateChange (.failed t detail) = some (x.key,.error detail) := by
      rw [stateChange,htask hx,Option.map_some]
    cases he : s.entries.lookup x.key with
    | none =>
      refine notifies_none h rfl (fun key st hk => ?_) rfl
      rw [hc] at hk
      cases hk
      exact he
    | some e => exact notifies_all h rfl hc he rfl
  | wake t =>
    obtain ⟨x,-,rfl⟩ := Option.map_eq_some_iff.mp hs
    exact notifies_none h rfl (fun _ _ hk => by cases hk) rfl
  | poll t ok =>
    obtain ⟨x,-,rfl⟩ := Option.map_eq_some_iff.mp hs
    exact notifies_none h rfl (fun _ _ hk => by cases hk) rfl
  | restart t =>
    obtain ⟨x,hx,rfl⟩ := Option.map_eq_some_iff.mp hs
    have hc : s.stateChange (.restart t) = some (x.key,.connecting) := by
      rw [stateChange,htask hx,Option.map_some]
    cases he : s.entries.lookup x.key with
    | none =>
      refine notifies_none h rfl (fun key st hk => ?_) rfl
      rw [hc] at hk
      cases hk
      exact he
    | some e => exact notifies_all h rfl hc he rfl
  | cancel t =>
    obtain ⟨x,-,rfl⟩ := Option.map_eq_some_iff.mp hs
    exact notifies_none h rfl (fun _ _ hk => by cases hk) rfl

/-- While leases of a key are dropped newest first, each key has the callbacks of its
live leases, and every step notifies them; the first drop in another order breaks it. -/
theorem callbacks_exact {s : Broker} (h : Reach step Lifo init s) :
    Exact s ∧ ∀ a s', s.step a = some s' → Notifies s a s' ∧ (Exact s' ↔ Lifo s a) := by
  have hb := books_reach h
  refine ⟨hb.exact,fun a s' hs => ⟨step_notifies hb hs,?_,?_⟩⟩
  · intro hex
    cases a with
    | drop id =>
      intro key hm
      by_contra hlast
      rw [step,find_lease hb.nodup hm] at hs
      cases hs
      exact not_exact_dropLease hb hm hlast hex
    | _ => trivial
  · intro hok
    exact (step_books hb hok hs).exact

instance (s : Broker) (a : Act) : Decidable (Lifo s a) :=
  match a with
  | .drop id => decidable_of_iff (∀ l ∈ s.leases, l.1 = id → (s.live l.2).getLast? = some id)
      ⟨fun h key hm => h (id,key) hm rfl,fun h l hm hid => h l.2 (hid ▸ hm)⟩
  | .acquire _ | .connected _ _ | .failed _ _ | .wake _ | .poll _ _ | .restart _ | .cancel _ =>
    .isTrue trivial

/-- Two workspaces of one host and one of another, the newer one of the host closed. -/
def orderlyActs : List Act :=
  [.acquire "dev",.acquire "build",.acquire "dev",.connected 0 ⟨"127.0.0.1",40000⟩,.drop 2]

theorem callbacks_exact_orderly : ∃ s, run step Lifo init orderlyActs = some s ∧
    s.live "dev" = [0] ∧ Exact s := by
  refine ⟨_,rfl,rfl,?_⟩
  exact (callbacks_exact (reach_of_run orderlyActs rfl)).1

/-- The older of two workspaces of one host is closed: its callback is called when the
tunnel is up, the one of the open workspace is not. -/
theorem older_lease_keeps_callback : ∃ s s', Reach step anyStep init s ∧
    s.live "dev" = [1] ∧ s.callbacksOf "dev" = [0] ∧ ¬ Exact s ∧
    s.step (.connected 0 ⟨"127.0.0.1",40000⟩) = some s' ∧
    s'.notified = s.notified ++ [(0,.ready ⟨"127.0.0.1",40000⟩)] := by
  refine ⟨_,_,reach_of_run [.acquire "dev",.acquire "dev",.drop 0] rfl,rfl,rfl,?_,
    rfl,rfl⟩
  intro h
  exact absurd (h "dev") (by decide)

end Broker

end Limux
