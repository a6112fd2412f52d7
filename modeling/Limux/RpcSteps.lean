import Limux.Rpc

/-! The steps of the RPC client as a relation, and what they do to the calls. -/
namespace Limux

open Machine

namespace Rpc

variable {F : Type}

/-- One step, with what enables it. -/
inductive Step (env : RpcEnv F) (s : Rpc F) : Act F → Rpc F → Prop
  | call (method : Text) (params : Json F) : Step env s (.call method params) { s with
      nextId := s.nextId+1
      calls := s.calls ++
        [⟨s.nextId,env.render (request s.nextId method params) ++ [10],.registering,none⟩] }
  | register {k : CallIx} {x : Call F} (hx : s.calls[k]? = some x) (hp : x.phase = .registering) :
      Step env s (.register k)
        { s.setPhase k .locking with pending := s.pending.insert x.id k }
  | lock {k : CallIx} {x : Call F} (hx : s.calls[k]? = some x) (hp : x.phase = .locking)
      (hl : s.stdin = none) :
      Step env s (.lock k) { s.setPhase k (.writing x.line) with stdin := some k }
  | write {k : CallIx} {x : Call F} {rest : List UInt8} {n : ℕ} (hx : s.calls[k]? = some x)
      (hp : x.phase = .writing rest) (hb : s.broken = false) (hn : 0 < n) (hr : n ≤ rest.length) :
      Step env s (.write k n)
        { s.setPhase k (.writing (rest.drop n)) with wire := s.wire ++ rest.take n }
  | flush {k : CallIx} {x : Call F} (hx : s.calls[k]? = some x) (hp : x.phase = .writing []) :
      Step env s (.flush k) ((s.setPhase k .awaiting).unlock k)
  | fail {k : CallIx} {x : Call F} {rest : List UInt8} (hx : s.calls[k]? = some x)
      (hp : x.phase = .writing rest) (hr : rest ≠ []) (hb : s.broken = true) :
      Step env s (.fail k) ((s.setPhase k (.returned (.error .io))).unlock k)
  | finish {k : CallIx} {x : Call F} {r : Reply F} (hx : s.calls[k]? = some x)
      (hp : x.phase = .awaiting) (hr : x.reply = some r) :
      Step env s (.finish k) (s.setPhase k (.returned r.result))
  | timeout {k : CallIx} {x : Call F} (hx : s.calls[k]? = some x) (hp : x.phase = .awaiting)
      (hr : x.reply = none) : Step env s (.timeout k) (s.setPhase k .expiring)
  | expire {k : CallIx} {x : Call F} (hx : s.calls[k]? = some x) (hp : x.phase = .expiring) :
      Step env s (.expire k)
        { s.setPhase k (.returned (.error .timeout)) with pending := s.pending.erase x.id }
  | drop {k : CallIx} {x : Call F} (hx : s.calls[k]? = some x) (hr : ∀ r, x.phase ≠ .returned r)
      (hd : x.phase ≠ .dropped) : Step env s (.drop k) ((s.setPhase k .dropped).unlock k)
  | breakPipe : Step env s .breakPipe { s with broken := true }
  | receive {line : Text} (hr : s.reader = .reading) : Step env s (.receive line) { s with
      received := s.received ++ [line]
      reader := .routing s.received.length (Incoming.ofLine env line) }
  | route {n : ℕ} {m : Incoming F} (hr : s.reader = .routing n m) :
      Step env s .route { s.deliver n m with reader := .reading }
  | eof (hr : s.reader = .reading) : Step env s .eof { s with reader := .draining }
  | drain (hr : s.reader = .draining) :
      Step env s .drain { s.drainPending with reader := .stopped }
  | subscribe (stream : Text) : Step env s (.subscribe stream) { s with
      subscriptions := s.subscriptions.insert stream s.channels.length
      channels := s.channels ++ [[]] }
  | unsubscribe (stream : Text) : Step env s (.unsubscribe stream)
      { s with subscriptions := s.subscriptions.erase stream }

variable {env : RpcEnv F} {s s' : Rpc F}

theorem step_sound {a : Act F} (hs : step env s a = some s') : Step env s a s' := by
  cases a with
  | call method params => cases hs; exact .call method params
  | register k =>
    obtain ⟨x,hx,hs⟩ := Option.bind_eq_some_iff.mp hs
    split at hs
    · rename_i hp
      cases hs
      exact .register hx hp
    · cases hs
  | lock k =>
    obtain ⟨x,hx,hs⟩ := Option.bind_eq_some_iff.mp hs
    split at hs
    · rename_i hp hl
      cases hs
      exact .lock hx hp hl
    · cases hs
  | write k n =>
    obtain ⟨x,hx,hs⟩ := Option.bind_eq_some_iff.mp hs
    split at hs
    · rename_i rest hp
      obtain ⟨⟨hb,hn,hr⟩,hs⟩ := Option.ite_none_right_eq_some.mp hs
      cases hs
      exact .write hx hp (by simpa using hb) hn hr
    · cases hs
  | flush k =>
    obtain ⟨x,hx,hs⟩ := Option.bind_eq_some_iff.mp hs
    split at hs
    · rename_i hp
      cases hs
      exact .flush hx hp
    · cases hs
  | fail k =>
    obtain ⟨x,hx,hs⟩ := Option.bind_eq_some_iff.mp hs
    split at hs
    · rename_i hp
      obtain ⟨hb,hs⟩ := Option.ite_none_right_eq_some.mp hs
      cases hs
      exact .fail hx hp (by simp) hb
    · cases hs
  | finish k =>
    obtain ⟨x,hx,hs⟩ := Option.bind_eq_some_iff.mp hs
    split at hs
    · rename_i r hp hr
      cases hs
      exact .finish hx hp hr
    · cases hs
  | timeout k =>
    obtain ⟨x,hx,hs⟩ := Option.bind_eq_some_iff.mp hs
    split at hs
    · rename_i hp hr
      cases hs
      exact .timeout hx hp hr
    · cases hs
  | expire k =>
    obtain ⟨x,hx,hs⟩ := Option.bind_eq_some_iff.mp hs
    split at hs
    · rename_i hp
      cases hs
      exact .expire hx hp
    · cases hs
  | drop k =>
    obtain ⟨x,hx,hs⟩ := Option.bind_eq_some_iff.mp hs
    split at hs
    · cases hs
    · cases hs
    · rename_i hr hd
      cases hs
      exact .drop hx hr hd
  | breakPipe => cases hs; exact .breakPipe
  | receive line =>
    simp only [step] at hs
    split at hs
    · rename_i hr
      cases hs
      exact .receive hr
    · cases hs
  | route =>
    simp only [step] at hs
    split at hs
    · rename_i hr
      cases hs
      exact .route hr
    · cases hs
  | eof =>
    simp only [step] at hs
    split at hs
    · rename_i hr
      cases hs
      exact .eof hr
    · cases hs
  | drain =>
    simp only [step] at hs
    split at hs
    · rename_i hr
      cases hs
      exact .drain hr
    · cases hs
  | subscribe stream => cases hs; exact .subscribe stream
  | unsubscribe stream => cases hs; exact .unsubscribe stream

/-! Calls after the pieces of a step. -/

theorem unlock_calls (s : Rpc F) (k : CallIx) : (s.unlock k).calls = s.calls := by
  unfold unlock
  split <;> rfl

theorem unlock_pending (s : Rpc F) (k : CallIx) : (s.unlock k).pending = s.pending := by
  unfold unlock
  split <;> rfl

theorem unlock_wire (s : Rpc F) (k : CallIx) :
    (s.unlock k).wire = s.wire ∧ (s.unlock k).broken = s.broken := by
  unfold unlock
  split <;> exact ⟨rfl,rfl⟩

theorem unlock_reader (s : Rpc F) (k : CallIx) :
    (s.unlock k).reader = s.reader ∧ (s.unlock k).received = s.received ∧
    (s.unlock k).subscriptions = s.subscriptions ∧ (s.unlock k).nextId = s.nextId := by
  unfold unlock
  split <;> exact ⟨rfl,rfl,rfl,rfl⟩

inductive Moves (s : Rpc F) : Act F → CallIx → Call F → CallPhase F → Prop
  | register {k : CallIx} {x : Call F} (hp : x.phase = .registering) :
      Moves s (.register k) k x .locking
  | lock {k : CallIx} {x : Call F} (hp : x.phase = .locking) (hl : s.stdin = none) :
      Moves s (.lock k) k x (.writing x.line)
  | write {k : CallIx} {x : Call F} {rest : List UInt8} {n : ℕ} (hp : x.phase = .writing rest)
      (hb : s.broken = false) (hn : 0 < n) (hr : n ≤ rest.length) :
      Moves s (.write k n) k x (.writing (rest.drop n))
  | flush {k : CallIx} {x : Call F} (hp : x.phase = .writing []) : Moves s (.flush k) k x .awaiting
  | fail {k : CallIx} {x : Call F} {rest : List UInt8} (hp : x.phase = .writing rest)
      (hr : rest ≠ []) (hb : s.broken = true) : Moves s (.fail k) k x (.returned (.error .io))
  | finish {k : CallIx} {x : Call F} {r : Reply F} (hp : x.phase = .awaiting)
      (hr : x.reply = some r) : Moves s (.finish k) k x (.returned r.result)
  | timeout {k : CallIx} {x : Call F} (hp : x.phase = .awaiting) (hr : x.reply = none) :
      Moves s (.timeout k) k x .expiring
  | expire {k : CallIx} {x : Call F} (hp : x.phase = .expiring) :
      Moves s (.expire k) k x (.returned (.error .timeout))
  | drop {k : CallIx} {x : Call F} (hr : ∀ r, x.phase ≠ .returned r) (hd : x.phase ≠ .dropped) :
      Moves s (.drop k) k x .dropped

/-- Replies that the reader sends to a call. -/
inductive Sends (s : Rpc F) : Act F → CallIx → Reply F → Prop
  | route {n id : ℕ} {result : RpcResult F} {k : CallIx}
      (hr : s.reader = .routing n (.response id result)) (hp : s.pending.lookup id = some k) :
      Sends s .route k ⟨result,some n⟩
  | drain {id : ℕ} {k : CallIx} (hr : s.reader = .draining) (hp : s.pending.lookup id = some k) :
      Sends s .drain k ⟨.error (.processDied "SSH process exited"),none⟩

/-- What a step does to a call: it is new, moves on, is sent a reply, or stays as it is. -/
inductive CallStep (env : RpcEnv F) (s : Rpc F) (a : Act F) (k : CallIx) : Call F → Prop
  | new {method : Text} {params : Json F} (ha : a = .call method params)
      (hk : k = s.calls.length) : CallStep env s a k
        ⟨s.nextId,env.render (request s.nextId method params) ++ [10],.registering,none⟩
  | same {x : Call F} (hx : s.calls[k]? = some x) : CallStep env s a k x
  | move {x : Call F} {p : CallPhase F} (hx : s.calls[k]? = some x) (hm : Moves s a k x p) :
      CallStep env s a k { x with phase := p }
  | send {x : Call F} {r : Reply F} (hx : s.calls[k]? = some x) (hm : Sends s a k r) :
      CallStep env s a k { x with reply := some r }

theorem callStep_setPhase {a : Act F} {k j : CallIx} {x x' : Call F} {p : CallPhase F}
    (hx : s.calls[k]? = some x) (hm : Moves s a k x p)
    (h : (s.setPhase k p).calls[j]? = some x') : CallStep env s a j x' := by
  obtain ⟨y,hy,⟨rfl,rfl⟩ | ⟨-,rfl⟩⟩ := getElem?_modify_cases h
  · rw [hx] at hy
    cases hy
    exact .move hx hm
  · exact .same hy

theorem step_call {a : Act F} (hs : Step env s a s') {k : CallIx} {x' : Call F}
    (h : s'.calls[k]? = some x') : CallStep env s a k x' := by
  cases hs with
  | call method params =>
    rcases getElem?_append_one h with h | ⟨hk,rfl⟩
    · exact .same h
    · exact .new rfl hk
  | register hx hp => exact callStep_setPhase hx (.register hp) h
  | lock hx hp hl => exact callStep_setPhase hx (.lock hp hl) h
  | write hx hp hb hn hr => exact callStep_setPhase hx (.write hp hb hn hr) h
  | flush hx hp =>
    rw [unlock_calls] at h
    exact callStep_setPhase hx (.flush hp) h
  | fail hx hp hr hb =>
    rw [unlock_calls] at h
    exact callStep_setPhase hx (.fail hp hr hb) h
  | finish hx hp hr => exact callStep_setPhase hx (.finish hp hr) h
  | timeout hx hp hr => exact callStep_setPhase hx (.timeout hp hr) h
  | expire hx hp => exact callStep_setPhase hx (.expire hp) h
  | drop hx hr hd =>
    rw [unlock_calls] at h
    exact callStep_setPhase hx (.drop hr hd) h
  | route hr =>
    rename_i n m
    cases m with
    | skip => exact .same h
    | event e =>
      simp only [deliver] at h
      split at h <;> exact .same h
    | response id result =>
      simp only [deliver] at h
      split at h
      · rename_i j hj
        obtain ⟨y,hy,⟨rfl,rfl⟩ | ⟨-,rfl⟩⟩ := getElem?_modify_cases h
        · exact .send hy (.route hr hj)
        · exact .same hy
      · exact .same h
  | drain hr =>
    rw [drainPending,List.getElem?_mapIdx] at h
    obtain ⟨y,hy,rfl⟩ := Option.map_eq_some_iff.mp h
    split
    · rename_i hk
      obtain ⟨id,hid⟩ := HashMap.mem_values.mp hk
      exact .send hy (.drain hr hid)
    · exact .same hy
  | breakPipe | receive hr | eof hr | subscribe stream | unsubscribe stream => exact .same h

/-- Calls and ids are counted together; no call is lost. -/
theorem step_sizes {a : Act F} (hs : Step env s a s') :
    (s'.nextId = s.nextId+1 ∧ s'.calls.length = s.calls.length+1) ∨
    (s'.nextId = s.nextId ∧ s'.calls.length = s.calls.length) := by
  cases hs with
  | call method params => exact .inl ⟨rfl,by simp⟩
  | flush hx hp | fail hx hp hr hb | drop hx hr hd =>
    rw [unlock_calls,(unlock_reader _ _).2.2.2]
    exact .inr ⟨rfl,List.length_modify ..⟩
  | register hx hp | lock hx hp hl | write hx hp hb hn hr | finish hx hp hr | timeout hx hp hr
  | expire hx hp => exact .inr ⟨rfl,List.length_modify ..⟩
  | route hr =>
    rename_i n m
    cases m with
    | skip => exact .inr ⟨rfl,rfl⟩
    | event e =>
      simp only [deliver]
      split <;> exact .inr ⟨rfl,rfl⟩
    | response id result =>
      simp only [deliver]
      split
      · exact .inr ⟨rfl,List.length_modify ..⟩
      · exact .inr ⟨rfl,rfl⟩
  | drain hr => exact .inr ⟨rfl,List.length_mapIdx⟩
  | breakPipe | receive hr | eof hr | subscribe stream | unsubscribe stream =>
    exact .inr ⟨rfl,rfl⟩

theorem step_calls {a : Act F} (hs : Step env s a s') {k : CallIx} {x : Call F}
    (hx : s.calls[k]? = some x) : ∃ x', s'.calls[k]? = some x' := by
  have hlt := (List.getElem?_eq_some_iff.mp hx).1
  rcases step_sizes hs with ⟨-,h⟩ | ⟨-,h⟩
  · exact ⟨_,List.getElem?_eq_getElem (by rw [h]; exact Nat.lt_succ_of_lt hlt)⟩
  · exact ⟨_,List.getElem?_eq_getElem (by rw [h]; exact hlt)⟩

end Rpc

end Limux
