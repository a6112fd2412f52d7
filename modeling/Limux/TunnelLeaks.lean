import Limux.DaemonOnce
import Limux.TunnelDownload

/-! What a connection leaves behind when it returns: its stream at the daemon, its
subscription at the client. -/
namespace Limux

open Machine

namespace Tunnel

variable {F : Type} {trunc : F → Option ℤ} {t t' : Tunnel F}

/-- `proxy.close` of the stream is sent. -/
def CloseSent (t : Tunnel F) (k : ℕ) (st : Text) : Prop :=
  ∃ c ∈ t.sent, t.calls[c]? = some (closeCall k st)

def Closed (t : Tunnel F) (k : ℕ) (st : Text) : Prop :=
  t.CloseSent k st ∧ t.subscriptions.lookup st = none

/-- It got as far as the bridge. -/
def Connection.reachedBridge (x : Connection F) : Prop :=
  x.subscribeOk = some true ∧ x.replyOk = some true

def Leaving (t : Tunnel F) (k : ℕ) (x : Connection F) : Prop :=
  match x.phase with
  | .opening _ | .opened _ | .subscribing _ _ | .returned none =>
    x.subscribeOk = none ∧ x.replyOk = none
  | .replying _ => x.subscribeOk = some true ∧ x.replyOk = none
  | .bridging _ _ => x.reachedBridge
  | .closing st c => x.reachedBridge ∧ t.calls[c]? = some (closeCall k st)
  | .unsubscribing st => x.reachedBridge ∧ (t.alive = true → t.CloseSent k st)
  | .returned (some st) =>
    x.reachedBridge ∧ (t.alive = true → t.CloseSent k st) ∧ t.subscriptions.lookup st = none ∨
      ¬ x.reachedBridge ∧ t.subscriptions.lookup st = some k

theorem CloseSent.mono {k : ℕ} {st : Text} (h : t.CloseSent k st) (hs : t.sent ⊆ t'.sent)
    {l : List (Call F)} (hc : t'.calls = t.calls ++ l) : t'.CloseSent k st := by
  obtain ⟨c,hm,hy⟩ := h
  exact ⟨c,hs hm,hc ▸ getElem?_append_of_eq_some hy⟩

theorem Leaving.mono {k : ℕ} {x : Connection F} (h : t.Leaving k x) (hs : t.sent ⊆ t'.sent)
    {l : List (Call F)} (hc : t'.calls = t.calls ++ l) (ha : t'.alive = true → t.alive = true)
    (hsub : ∀ st, x.phase = .returned (some st) →
      t'.subscriptions.lookup st = t.subscriptions.lookup st) : t'.Leaving k x := by
  unfold Leaving at h ⊢
  split <;> rename_i hp
  · simpa only [hp] using h
  · simpa only [hp] using h
  · simpa only [hp] using h
  · simpa only [hp] using h
  · simpa only [hp] using h
  · simpa only [hp] using h
  · simp only [hp] at h
    exact ⟨h.1,hc ▸ getElem?_append_of_eq_some h.2⟩
  · simp only [hp] at h
    exact ⟨h.1,fun hal => (h.2 (ha hal)).mono hs hc⟩
  · simp only [hp] at h
    rw [hsub _ hp]
    rcases h with ⟨hb,hsent,hl⟩ | h
    · exact .inl ⟨hb,fun hal => (hsent (ha hal)).mono hs hc,hl⟩
    · exact .inr h

/-- The phase and the flags are all it depends on. -/
theorem Leaving.congr {k : ℕ} {x x' : Connection F} (h : t.Leaving k x)
    (hp : x'.phase = x.phase) (hs : x'.subscribeOk = x.subscribeOk)
    (hr : x'.replyOk = x.replyOk) : t.Leaving k x' := by
  unfold Leaving Connection.reachedBridge at h ⊢
  rwa [hp,hs,hr]

structure Leaves (t : Tunnel F) : Prop where
  once : Daemon.Once t.daemon
  nodup : t.sent.Nodup
  calls : ∀ c ∈ t.sent, ∃ y, t.calls[c]? = some y
  read : ∀ c, requestId c ∈ t.daemon.ids → c ∈ t.sent.take t.served
  replied : ∀ c, (t.replies c).isSome → t.alive = true → c ∈ t.sent
  leaving : ∀ (k : ℕ) (x : Connection F), t.connections[k]? = some x → t.Leaving k x

namespace Leaves

theorem init : Leaves (Tunnel.init : Tunnel F) := by
  refine ⟨.init,?_,?_,?_,?_,?_⟩ <;> simp [Tunnel.init,Daemon.init,Daemon.ids]

theorem client (h : Leaves t) {l : List (Call F)} (hd : t'.daemon = t.daemon)
    (hv : t'.served = t.served) (hc : t'.calls = t.calls ++ l) (hs : t'.sent = t.sent)
    (hr : ∀ c, (t'.replies c).isSome → t'.alive = true → (t.replies c).isSome ∨ c ∈ t.sent)
    (ha : t'.alive = true → t.alive = true)
    (hconn : ∀ (k : ℕ) (x : Connection F), t'.connections[k]? = some x → t'.Leaving k x) :
    Leaves t' := by
  refine ⟨hd ▸ h.once,hs ▸ h.nodup,fun c hm => ?_,fun c hm => ?_,fun c hsome hal => ?_,hconn⟩
  · obtain ⟨y,hy⟩ := h.calls c (hs ▸ hm)
    exact ⟨y,hc ▸ getElem?_append_of_eq_some hy⟩
  · rw [hs,hv]
    exact h.read c (hd ▸ hm)
  · rw [hs]
    rcases hr c hsome hal with hsome | hm
    · exact h.replied c hsome (ha hal)
    · exact hm

theorem same (h : Leaves t) {l : List (Call F)} (hd : t'.daemon = t.daemon)
    (hv : t'.served = t.served) (hc : t'.calls = t.calls ++ l) (hs : t'.sent = t.sent)
    (hr : ∀ c, (t'.replies c).isSome → t'.alive = true → (t.replies c).isSome ∨ c ∈ t.sent)
    (ha : t'.alive = true → t.alive = true) (hconn : t'.connections = t.connections)
    (hsub : t'.subscriptions = t.subscriptions) : Leaves t' :=
  h.client hd hv hc hs hr ha (fun k x hx => (h.leaving k x (hconn ▸ hx)).mono (by rw [hs]; simp) hc ha
    (fun _ _ => by rw [hsub]))

theorem daemon (h : Leaves t) (ht : Talk t) {a : Daemon.Act F} {d : Daemon F} {n : ℕ}
    (hs : Daemon.step trunc t.daemon a = some d) (hn : t.served ≤ n)
    (hr : d.requests = t.daemon.requests ∨ ∃ (c : CallIx) (x : Call F),
      d.requests = t.daemon.requests ++ [x.request c] ∧ t.sent[t.served]? = some c ∧ t.served < n) :
    Leaves { t with daemon := d, served := n } := by
  have hfresh : ∀ c, t.sent[t.served]? = some c → (requestId c : Json F) ∉ t.daemon.ids := by
    intro c hc hm
    obtain ⟨i,hi⟩ := List.mem_iff_getElem?.mp (h.read c hm)
    rw [List.getElem?_take] at hi
    split at hi
    · rename_i hlt
      have hsi : i < t.sent.length := (List.getElem?_eq_some_iff.mp hi).1
      exact absurd ((List.getElem?_inj hsi h.nodup).mp (hi.trans hc.symm)) (by omega)
    · cases hi
  refine ⟨?_,h.nodup,h.calls,fun c hm => ?_,h.replied,fun k x hx => ?_⟩
  · refine h.once.effect ht.whole.asked (Daemon.effect_of_step hs) (fun req hreq => ?_)
    rcases hr with hr | ⟨c,x,hr,hc,-⟩
    · rw [hr] at hreq
      simp at hreq
    · rw [hr] at hreq
      cases List.append_cancel_left hreq
      exact ⟨by simp [Call.request,requestId],hfresh c hc⟩
  · have hle : t.sent.take t.served ⊆ t.sent.take n := (List.take_subset_take_left _ hn)
    rcases hr with hr | ⟨c',x,hr,hc,hlt⟩
    · have hids : d.ids = t.daemon.ids := congrArg (List.map RpcRequest.id) hr
      exact hle (h.read c (hids ▸ hm))
    · have hids : d.ids = t.daemon.ids ++ [requestId c'] := by
        rw [Daemon.ids,hr,List.map_append]
        rfl
      change requestId c ∈ d.ids at hm
      rw [hids] at hm
      rcases List.mem_append.mp hm with hm | hm
      · exact hle (h.read c hm)
      · cases requestId_inj (List.mem_singleton.mp hm)
        exact List.mem_iff_getElem?.mpr ⟨t.served,by rwa [List.getElem?_take_of_lt hlt]⟩
  · exact (h.leaving k x hx).mono (fun _ h => h) (List.append_nil _).symm (fun h => h)
      (fun _ _ => rfl)

theorem isSome_setReply {c d : CallIx} {r : RpcResult F} (h : ((t.setReply c r).replies d).isSome) :
    (t.replies d).isSome ∨ d = c := by
  simp only [setReply,Option.isSome_or,Bool.or_eq_true] at h
  refine h.imp id (fun h => ?_)
  split at h
  · assumption
  · cases h

/-- A connection after a step of its own. -/
theorem leaving_of_turn {k : ℕ} {x x' : Connection F} {a : Act F} {y : Option (Call F)}
    {subs : HashMap Text ℕ} (h : Leaves t) (w : Wires t) (hx : t.connections[k]? = some x)
    (hturn : Turn t k x a y subs x') : (t.turn k y subs x').Leaving k x' := by
  have hl := h.leaving k x hx
  cases hturn with
  | opened hp | notOpened hp | subscribe hp => simpa only [Leaving,hp] using hl
  | subscribed hp =>
    simp only [Leaving,hp] at hl
    exact ⟨rfl,hl.2⟩
  | @refused stream c e hp hr =>
    refine .inr ⟨fun hb => by simp [Connection.reachedBridge] at hb,?_⟩
    exact w.kept k x stream hx (by rw [hp]; rfl)
  | replied hp =>
    simp only [Leaving,hp] at hl
    exact ⟨hl.1,rfl⟩
  | @unreplied stream hp =>
    refine .inr ⟨fun hb => by simp [Connection.reachedBridge] at hb,?_⟩
    exact w.kept k x stream hx (by rw [hp]; rfl)
  | upload hp | uploaded hp =>
    simp only [Leaving,hp] at hl
    exact hl
  | chunk hp | ignored hp | download hp =>
    simp only [Leaving,hp] at hl ⊢
    exact hl
  | @close a stream es he =>
    have hb : x.reachedBridge := by
      cases he with
      | uploadFailed hp | localEnd hp | downloadFailed hp | ended hp | channelClosed hp =>
        simpa only [Leaving,hp] using hl
    exact ⟨hb,List.getElem?_concat_length⟩
  | @closed stream c r hp hr =>
    simp only [Leaving,hp] at hl
    exact ⟨hl.1,fun hal => ⟨c,h.replied c (by rw [hr]; rfl) hal,hl.2⟩⟩
  | unsubscribed hp =>
    simp only [Leaving,hp] at hl
    exact .inl ⟨hl.1,hl.2,by simp [turn]⟩

/-- The subscription of another connection is left alone. -/
theorem lookup_of_turn {k : ℕ} {x x' : Connection F} {a : Act F} {y : Option (Call F)}
    {subs : HashMap Text ℕ} (hturn : Turn t k x a y subs x') {st : Text}
    (hst : x.phase.stream ≠ some st) : subs.lookup st = t.subscriptions.lookup st := by
  cases hturn with
  | subscribe hp =>
    rw [HashMap.lookup_insert_ite,if_neg]
    rintro rfl
    exact hst (by rw [hp]; rfl)
  | unsubscribed hp =>
    rw [HashMap.lookup_erase_ite,if_neg]
    rintro rfl
    exact hst (by rw [hp]; rfl)
  | _ => rfl

theorem turn {k : ℕ} {x x' : Connection F} {a : Act F} {y : Option (Call F)}
    {subs : HashMap Text ℕ} (h : Leaves t) (ht : Talk t) (w : Wires t)
    (hx : t.connections[k]? = some x) (hturn : Turn t k x a y subs x') :
    Leaves (t.turn k y subs x') := by
  have hpl : (t.place y).served = t.served ∧ (t.place y).sent = t.sent ∧
      (t.place y).replies = t.replies ∧ (t.place y).alive = t.alive := by
    cases y <;> exact ⟨rfl,rfl,rfl,rfl⟩
  refine h.client (daemon_place t y) hpl.1 (calls_place t y) hpl.2.1
    (fun c hc _ => .inl (hpl.2.2.1 ▸ hc)) (fun hal => hpl.2.2.2 ▸ hal) (fun j z hz => ?_)
  rcases getElem?_set_cases hz with ⟨rfl,rfl⟩ | ⟨hj,hz⟩
  · exact h.leaving_of_turn w hx hturn
  · refine (h.leaving j z hz).mono (fun c hm => ?_) (calls_place t y) (fun hal => hpl.2.2.2 ▸ hal)
      (fun st hp => lookup_of_turn hturn (fun hxs => hj ?_))
    · exact hpl.2.1.symm ▸ hm
    · exact w.stream_inj ht hz hx (by rw [hp]; rfl) hxs

theorem route (h : Leaves t) (ht : Talk t) {f : Frame F} (hf : f ∈ t.daemon.out) :
    Leaves (t.deliver (Incoming.ofObject f.toJson)) := by
  have hnil : t.calls = t.calls ++ [] := (List.append_nil _).symm
  cases f with
  | event e =>
    rw [Frame.incoming_event,deliver]
    split
    · refine h.client rfl rfl hnil rfl (fun c hc _ => .inl hc) (fun h => h) (fun j z hz => ?_)
      obtain ⟨x,hx,⟨-,rfl⟩ | ⟨-,rfl⟩⟩ := getElem?_modify_cases hz
      · exact ((h.leaving j x hx).mono (fun _ h => h) hnil (fun h => h) (fun _ _ => rfl)).congr rfl rfl rfl
      · exact (h.leaving j z hx).mono (fun _ h => h) hnil (fun h => h) (fun _ _ => rfl)
    · exact h
  | response resp =>
    obtain ⟨id,result⟩ := resp
    rcases ht.whole.asked.out _ hf with rfl | ⟨req,hreq,rfl,-⟩
    · rw [Frame.incoming_refused]
      exact h
    · obtain ⟨c,x,hx,rfl⟩ := ht.requests req hreq
      have hm : c ∈ t.sent := List.mem_of_mem_take (h.read c (List.mem_map.mpr ⟨_,hreq,rfl⟩))
      have hin := Frame.incoming_response c result
      change Leaves (t.deliver (Incoming.ofObject (Frame.response ⟨requestId c,result⟩).toJson))
      rw [requestId,hin,deliver]
      split
      · rename_i c' hl
        cases Nat.succ.inj (ht.pending _ _ hl)
        refine h.same rfl rfl hnil rfl (fun d hd _ => ?_) (fun h => h) rfl rfl
        exact (isSome_setReply hd).imp id (by rintro rfl; exact hm)
      · exact h

theorem step (h : Leaves t) (ht : Talk t) (w : Wires t) {a : Act F} (hs : Step trunc t a t') :
    Leaves t' := by
  have hnil : t.calls = t.calls ++ [] := (List.append_nil _).symm
  cases hs with
  | serve ha hc hx hd =>
    exact h.daemon ht hd (Nat.le_succ _)
      (.inr ⟨_,_,Daemon.requests_of_request hd,hc,Nat.lt_succ_self _⟩)
  | lose hc hd => exact h.daemon ht hd (Nat.le_succ _) (.inl (Daemon.inputs_of_step hd (by simp)).1)
  | @daemon b d ho hd =>
    refine h.daemon (n := t.served) ht hd le_rfl (.inl (Daemon.inputs_of_step hd ?_).1)
    rintro req rfl
    cases ho
  | connect host port =>
    refine h.client rfl rfl rfl rfl (fun c hc _ => .inl hc) (fun h => h) (fun j z hz => ?_)
    rcases getElem?_append_one hz with hz | ⟨rfl,rfl⟩
    · exact (h.leaving j z hz).mono (fun _ h => h) rfl (fun h => h) (fun _ _ => rfl)
    · exact ⟨rfl,rfl⟩
  | foreign => exact h.same rfl rfl rfl rfl (fun c hc _ => .inl hc) (fun h => h) rfl rfl
  | @send c hc hn hr =>
    have hcall : ∃ y, t.calls[c]? = some y := by
      unfold current at hc
      split at hc
      · exact ⟨_,‹_›⟩
      · exact ⟨_,‹_›⟩
      · cases hc
    refine ⟨h.once,?_,fun d hd => ?_,fun d hd => ?_,fun d hd hal => ?_,fun k x hx => ?_⟩
    · exact List.nodup_append.mpr ⟨h.nodup,by simp,by rintro d hd e he rfl; exact hn (List.mem_singleton.mp he ▸ hd)⟩
    · rcases List.mem_append.mp hd with hd | hd
      · exact h.calls d hd
      · cases List.mem_singleton.mp hd
        exact hcall
    · have hm := h.read d hd
      rw [List.take_append]
      exact List.mem_append_left _ hm
    · exact List.mem_append_left _ (h.replied d hd hal)
    · exact (h.leaving k x hx).mono (List.subset_append_left _ _) hnil (fun h => h) (fun _ _ => rfl)
  | sendFailed hc ha =>
    refine h.same rfl rfl hnil rfl (fun d _ hal => ?_) (fun h => h) rfl rfl
    exact absurd (ha.symm.trans hal) (by simp)
  | timeout hc hm hr =>
    refine h.same rfl rfl hnil rfl (fun d hd _ => ?_) (fun h => h) rfl rfl
    exact (isSome_setReply hd).imp id (by rintro rfl; exact hm)
  | turn ha hx hturn => exact h.turn ht w hx hturn
  | route hst hf =>
    have hr := h.route ht (List.mem_of_getElem? hf)
    exact hr.same rfl rfl (List.append_nil _).symm rfl (fun c hc _ => .inl hc) (fun h => h) rfl rfl
  | die => exact h.same rfl rfl hnil rfl (fun c hc _ => .inl hc) (fun h => by cases h) rfl rfl
  | eof ha =>
    refine h.same rfl rfl hnil rfl (fun d _ hal => ?_) (fun h => h) rfl rfl
    exact absurd (ha.symm.trans hal) (by simp)

end Leaves

def isRequest (c : CallIx) : Json F → Bool
  | .num (.int n) => n = c+1
  | _ => false

theorem isRequest_iff {c : CallIx} {id : Json F} : isRequest c id = true ↔ id = requestId c := by
  unfold isRequest
  split
  · simp [requestId]
  · rename_i hn
    simp only [Bool.false_eq_true,false_iff]
    rintro rfl
    exact hn _ rfl

/-- A call that is given up has not opened a stream, or left one open that it was to close. -/
def givenUp (t : Tunnel F) (c : CallIx) (y : Call F) : Bool :=
  if y.method = "proxy.open" then t.daemon.opened.all (fun x => !isRequest c x.1)
  else if y.method = "proxy.close" then
    (RpcRequest.getStringParam y.params "stream_id").all (fun st =>
      (t.daemon.streams.lookup st).isNone)
  else true

/-- Steps by which no stream is left behind. -/
def tidy (t : Tunnel F) : Act F → Bool
  | .reply _ ok => ok
  | .resume k =>
    match t.connections[k]?.map Connection.phase with
    | some (.subscribing _ c) => (t.replies c).all (fun r => r.toOption.isSome)
    | _ => true
  | .timeout c => t.calls[c]?.all (t.givenUp c)
  | .daemon .register =>
    match t.daemon.loop with
    | .dialed id =>
      (List.range t.calls.length).all (fun c => !isRequest c id || (t.replies c).isNone)
    | _ => true
  | .die => false
  | _ => true

/-- A connection that has not returned, with its stream or about to get it. -/
def Running (t : Tunnel F) (st : Text) : Prop :=
  ∃ (k : ℕ) (x : Connection F), t.connections[k]? = some x ∧
    ((∃ c, x.phase = .opening c ∧ (requestId c,st) ∈ t.daemon.opened) ∨
      x.phase.stream = some st ∧ ∀ s, x.phase ≠ .returned s)

/-- What became of a call of `proxy.open`. -/
def Fate (t : Tunnel F) (c : CallIx) (k : ℕ) : Prop :=
  ∃ x : Connection F, t.connections[k]? = some x ∧ (x.phase = .opening c ∨ ∃ r, t.replies c = some r ∧
    ∀ v st, r = .ok v → v.getStr "stream_id" = some st → x.phase.stream = some st)

structure Tidy (t : Tunnel F) : Prop where
  alive : t.alive = true
  reached : ∀ (k : ℕ) (x : Connection F) (st : Text), t.connections[k]? = some x →
    x.phase = .returned (some st) → x.reachedBridge
  fate : ∀ (c : CallIx) (y : Call F), t.calls[c]? = some y → y.method = "proxy.open" →
    ∃ k, y.owner = some k ∧ t.Fate c k
  refused : ∀ c e, t.replies c = some (.error e) → ∀ st, (requestId c,st) ∉ t.daemon.opened
  handled : ∀ (k : ℕ) (x : Connection F) (st : Text) (c : CallIx), t.connections[k]? = some x →
    x.phase = .closing st c → t.daemon.Handled (requestId c) → t.daemon.streams.lookup st = none
  shut : ∀ (k : ℕ) (x : Connection F) (st : Text) (c : CallIx), t.connections[k]? = some x →
    x.phase = .closing st c → (t.replies c).isSome → t.daemon.streams.lookup st = none
  gone : ∀ (k : ℕ) (x : Connection F) (st : Text), t.connections[k]? = some x →
    x.phase = .unsubscribing st ∨ x.phase = .returned (some st) →
    t.daemon.streams.lookup st = none

/-- All that holds in a run. -/
structure Known (t : Tunnel F) : Prop extends Sane t where
  leaves : Leaves t

theorem known_init : Known (init : Tunnel F) := ⟨sane_init,.init⟩

theorem Known.step (h : Known t) {a : Act F} (hs : step trunc t a = some t') : Known t' :=
  ⟨h.toSane.step hs,h.leaves.step h.talk h.wires (step_sound hs)⟩

/-- A stream was opened by a call of `proxy.open`. -/
theorem open_of_opened (h : Talk t) {id : Json F} {st : Text} (ho : (id,st) ∈ t.daemon.opened) :
    ∃ (c : CallIx) (y : Call F), id = requestId c ∧ t.calls[c]? = some y ∧
      y.method = "proxy.open" := by
  obtain ⟨req,hr,rfl,hm⟩ := h.whole.asked.opened _ ho
  obtain ⟨c,y,hy,rfl⟩ := h.requests req hr
  exact ⟨c,y,rfl,hy,String.ext hm⟩

theorem opened_of_stream (w : Wires t) {k : ℕ} {x : Connection F} {st : Text}
    (hx : t.connections[k]? = some x) (hst : x.phase.stream = some st) :
    ∃ id, (id,st) ∈ t.daemon.opened := by
  obtain ⟨c,-,-,-,ho⟩ := w.stream k x st hx hst
  exact ⟨_,ho⟩

namespace Tidy

theorem init : Tidy (Tunnel.init : Tunnel F) := by
  refine ⟨rfl,?_,?_,?_,?_,?_,?_⟩ <;> simp [Tunnel.init,Daemon.init]

theorem daemon (h : Tidy t) (hk : Known t) {a : Daemon.Act F} {d : Daemon F} {n : ℕ}
    (hs : Daemon.step trunc t.daemon a = some d)
    (hreg : a = .register → tidy t (.daemon .register) = true) :
    Tidy { t with daemon := d, served := n } := by
  have htab := hk.talk.whole.table
  have hgone : ∀ {k : ℕ} {x : Connection F} {st : Text}, t.connections[k]? = some x →
      x.phase.stream = some st → t.daemon.streams.lookup st = none →
      d.streams.lookup st = none := fun hx hst hl =>
    Daemon.lookup_none_of_effect htab (Daemon.effect_of_step hs)
      (opened_of_stream hk.wires hx hst) hl
  refine ⟨h.alive,h.reached,h.fate,fun c e hr st ho => ?_,fun k x st c hx hp hh => ?_,
    fun k x st c hx hp hr => ?_,fun k x st hx hp => ?_⟩
  · change (requestId c,st) ∈ d.opened at ho
    rcases Daemon.opened_of_step hs with heq | ⟨id,st',rfl,hl,heq⟩
    · exact h.refused c e hr st (heq ▸ ho)
    · rw [heq] at ho
      rcases List.mem_append.mp ho with ho | ho
      · exact h.refused c e hr st ho
      · cases List.mem_singleton.mp ho
        -- the call waits for this answer
        have hwait := hreg rfl
        have hat : t.daemon.AtWork (.dialed (requestId c)) := hl ▸ hk.talk.whole.asked.loop
        obtain ⟨req,hreq,hid,-⟩ := hat
        obtain ⟨c',y,hy,rfl⟩ := hk.talk.requests req hreq
        cases requestId_inj hid
        simp only [tidy,hl,List.all_eq_true,List.mem_range] at hwait
        have := hwait c (List.getElem?_eq_some_iff.mp hy).1
        rw [isRequest_iff.mpr rfl,hr] at this
        cases this
  · refine Daemon.shut_of_step hk.talk.whole.asked htab (by simp [requestId])
      (opened_of_stream hk.wires hx (by rw [hp]; rfl)) (fun req hreq hid => ?_)
      (h.handled k x st c hx hp) hs hh
    obtain ⟨c',y,hy,rfl⟩ := hk.talk.requests req hreq
    cases requestId_inj hid
    have hl := hk.leaves.leaving k x hx
    simp only [Leaving,hp] at hl
    cases hl.2.symm.trans hy
    obtain ⟨c',y,hy',hyo,ho⟩ := hk.wires.stream k x st hx (by rw [hp]; rfl)
    refine ⟨by simp [Call.request,closeCall],?_⟩
    have hne : st ≠ [] := by
      obtain ⟨i,hi⟩ := List.mem_iff_getElem?.mp ho
      rw [show st = _ from htab.ids i _ hi]
      simp [Daemon.streamID]
    simp [RpcRequest.requireString,RpcRequest.getStringParam,Call.request,closeCall,Json.asStr,hne]
  · exact hgone hx (by rw [hp]; rfl) (h.shut k x st c hx hp hr)
  · exact hgone hx (by rcases hp with hp | hp <;> rw [hp] <;> rfl) (h.gone k x st hx hp)

theorem of_eq (h : Tidy t) (hd : t'.daemon = t.daemon) (ha : t'.alive = t.alive)
    (hc : t'.calls = t.calls) (hr : t'.replies = t.replies)
    (hconn : t'.connections = t.connections) : Tidy t' := by
  refine ⟨ha ▸ h.alive,hconn ▸ h.reached,?_,?_,?_,?_,?_⟩
  · simp only [Fate,hc,hr,hconn]
    exact h.fate
  · rw [hd,hr]
    exact h.refused
  · rw [hd,hconn]
    exact h.handled
  · rw [hd,hr,hconn]
    exact h.shut
  · rw [hd,hconn]
    exact h.gone

theorem queued (h : Tidy t) {k : ℕ} {f : Connection F → Connection F}
    (hp : ∀ x, (f x).phase = x.phase) (hs : ∀ x, (f x).subscribeOk = x.subscribeOk)
    (hr : ∀ x, (f x).replyOk = x.replyOk) :
    Tidy { t with connections := t.connections.modify k f } := by
  have hback : ∀ {j : ℕ} {z : Connection F}, (t.connections.modify k f)[j]? = some z →
      ∃ x, t.connections[j]? = some x ∧ x.phase = z.phase ∧ (x.reachedBridge → z.reachedBridge) := by
    intro j z hz
    obtain ⟨x,hx,⟨-,rfl⟩ | ⟨-,rfl⟩⟩ := getElem?_modify_cases hz
    · exact ⟨x,hx,(hp x).symm,fun hb => ⟨(hs x).trans hb.1,(hr x).trans hb.2⟩⟩
    · exact ⟨z,hx,rfl,fun h => h⟩
  refine ⟨h.alive,fun j z st hz hq => ?_,fun c y hy hm => ?_,h.refused,fun j z st c hz hq => ?_,
    fun j z st c hz hq => ?_,fun j z st hz hq => ?_⟩
  · obtain ⟨x,hx,hxp,hb⟩ := hback hz
    exact hb (h.reached j x st hx (hxp.trans hq))
  · obtain ⟨j,hj,x,hx,hf⟩ := h.fate c y hy hm
    have hg : (t.connections.modify k f)[j]? = some (if k = j then f x else x) := by
      rw [List.getElem?_modify,hx]
      rfl
    refine ⟨j,hj,_,hg,?_⟩
    have he : (if k = j then f x else x).phase = x.phase := by
      split
      · exact hp x
      · rfl
    rwa [he]
  · obtain ⟨x,hx,hxp,-⟩ := hback hz
    exact h.handled j x st c hx (hxp.trans hq)
  · obtain ⟨x,hx,hxp,-⟩ := hback hz
    exact h.shut j x st c hx (hxp.trans hq)
  · obtain ⟨x,hx,hxp,-⟩ := hback hz
    exact h.gone j x st hx (by rwa [hxp])

theorem setReply (h : Tidy t) {c : CallIx} {r : RpcResult F}
    (he : ∀ e, r = .error e → ∀ st, (requestId c,st) ∉ t.daemon.opened)
    (hs : ∀ (k : ℕ) (x : Connection F) (st : Text), t.connections[k]? = some x →
      x.phase = .closing st c → t.daemon.streams.lookup st = none) : Tidy (t.setReply c r) := by
  refine ⟨h.alive,h.reached,fun d y hy hm => ?_,fun d e hd st => ?_,h.handled,
    fun k x st d hx hp hd => ?_,h.gone⟩
  · obtain ⟨k,hk,x,hx,hf⟩ := h.fate d y hy hm
    refine ⟨k,hk,x,hx,hf.imp_right ?_⟩
    rintro ⟨r',hr',hf⟩
    exact ⟨r',by simp [Tunnel.setReply,hr'],hf⟩
  · simp only [Tunnel.setReply] at hd
    rcases Option.or_eq_some_iff.mp hd with hd | ⟨-,hd⟩
    · exact h.refused d e hd st
    · split at hd
      · rename_i hdc
        cases hd
        exact hdc ▸ he e rfl st
      · cases hd
  · rcases Leaves.isSome_setReply hd with hd | rfl
    · exact h.shut k x st d hx hp hd
    · exact hs k x st hx hp

/-- Only requests of calls are handled. -/
theorem not_handled (hk : Known t) : ¬ t.daemon.Handled (requestId t.calls.length) := by
  intro hh
  have hm := hk.leaves.once.mem_of_handled (by simp [requestId]) hh
  obtain ⟨req,hreq,hid⟩ := List.mem_map.mp hm
  obtain ⟨c,y,hy,rfl⟩ := hk.talk.requests req hreq
  cases requestId_inj hid
  exact absurd (List.getElem?_eq_some_iff.mp hy).1 (lt_irrefl _)

theorem no_reply (h : Tidy t) (hk : Known t) : ¬ (t.replies t.calls.length).isSome := by
  intro hr
  obtain ⟨y,hy⟩ := hk.leaves.calls _ (hk.leaves.replied _ hr h.alive)
  exact absurd (List.getElem?_eq_some_iff.mp hy).1 (lt_irrefl _)

theorem stream_of_turn {k : ℕ} {x x' : Connection F} {a : Act F} {y : Option (Call F)}
    {subs : HashMap Text ℕ} (hturn : Turn t k x a y subs x') {st : Text}
    (hst : x.phase.stream = some st) : x'.phase.stream = some st := by
  cases hturn with
  | close he =>
    cases he with
    | uploadFailed hp | localEnd hp | downloadFailed hp | ended hp | channelClosed hp =>
      rw [hp] at hst
      exact hst
  | chunk hp | ignored hp | download hp => exact hst
  | opened hp =>
    rw [hp] at hst
    cases hst
  | notOpened hp | subscribe hp | subscribed hp | refused hp | replied hp
  | unreplied hp | upload hp | uploaded hp | closed hp | unsubscribed hp =>
    rw [hp] at hst
    exact hst

theorem method_of_turn {k : ℕ} {x x' : Connection F} {a : Act F} {y : Option (Call F)}
    {subs : HashMap Text ℕ} (hturn : Turn t k x a y subs x') {z : Call F} (hz : z ∈ y) :
    z.method ≠ "proxy.open" := by
  cases hturn with
  | subscribe | upload | close =>
    cases hz
    simp [subscribeCall,closeCall]
  | _ => cases hz

/-- What the other connections and their calls keep. -/
theorem fate_of_turn (h : Tidy t) {k : ℕ} {x x' : Connection F} {a : Act F}
    {y : Option (Call F)} {subs : HashMap Text ℕ} (hx : t.connections[k]? = some x)
    (hturn : Turn t k x a y subs x') (c : CallIx) (z : Call F)
    (hz : (t.place y).calls[c]? = some z) (hm : z.method = "proxy.open") :
    ∃ j, z.owner = some j ∧ (t.turn k y subs x').Fate c j := by
  have hrep : (t.turn k y subs x').replies = t.replies := by cases y <;> rfl
  rw [calls_place,List.getElem?_append] at hz
  split at hz
  · obtain ⟨j,hj,w,hw,hf⟩ := h.fate c z hz hm
    refine ⟨j,hj,?_⟩
    by_cases hjk : j = k
    · subst hjk
      cases hx.symm.trans hw
      refine ⟨x',getElem?_set_self_of_some hx,?_⟩
      rw [hrep]
      rcases hf with hp | ⟨r,hr,hf⟩
      · cases hturn with
        | @opened c' v stream hp' hr hv =>
          cases hp.symm.trans hp'
          refine .inr ⟨_,hr,fun w st hok hst => ?_⟩
          cases hok
          cases hv.symm.trans hst
          rfl
        | @notOpened c' r hp' hr hv =>
          cases hp.symm.trans hp'
          exact .inr ⟨r,hr,fun w st hok hst => (hv w st hok hst).elim⟩
        | close he =>
          cases he with
          | uploadFailed hp' | localEnd hp' | downloadFailed hp' | ended hp' | channelClosed hp' =>
            cases hp.symm.trans hp'
        | subscribe hp' | subscribed hp' | refused hp' | replied hp' | unreplied hp' | upload hp'
        | uploaded hp' | chunk hp' | ignored hp' | download hp' | closed hp' | unsubscribed hp' =>
          cases hp.symm.trans hp'
      · exact .inr ⟨r,hr,fun v st hok hst => stream_of_turn hturn (hf v st hok hst)⟩
    · refine ⟨w,?_,?_⟩
      · change (t.connections.set k x')[j]? = some w
        rwa [List.getElem?_set_ne (fun he => hjk he.symm)]
      · rwa [hrep]
  · exact (method_of_turn hturn (Option.mem_toList.mp (List.mem_of_getElem? hz)) hm).elim

theorem turn (h : Tidy t) (hk : Known t) {k : ℕ} {x x' : Connection F} {a : Act F}
    {y : Option (Call F)} {subs : HashMap Text ℕ} (ha : a.connection = some k)
    (htidy : tidy t a = true) (hx : t.connections[k]? = some x)
    (hturn : Turn t k x a y subs x') : Tidy (t.turn k y subs x') := by
  have hd : (t.turn k y subs x').daemon = t.daemon := daemon_place t y
  have hrep : (t.turn k y subs x').replies = t.replies := by cases y <;> rfl
  have hal : (t.turn k y subs x').alive = t.alive := by cases y <;> rfl
  refine ⟨hal ▸ h.alive,fun j z st hz hp => ?_,h.fate_of_turn hx hturn,?_,
    fun j z st c hz hp hh => ?_,fun j z st c hz hp hr => ?_,fun j z st hz hp => ?_⟩
  · rcases getElem?_set_cases hz with ⟨rfl,rfl⟩ | ⟨-,hz⟩
    · have hl := hk.leaves.leaving _ x hx
      cases hturn with
      | unsubscribed hq =>
        simp only [Leaving,hq] at hl
        exact hl.1
      | @refused stream c e hq hr => simp [tidy,hx,hq,hr,Except.toOption] at htidy
      | unreplied => cases htidy
      | chunk hq | ignored hq | download hq => simp [hq] at hp
      | _ => cases hp
    · exact h.reached j z st hz hp
  · rw [hd,hrep]
    exact h.refused
  · rw [hd] at hh ⊢
    rcases getElem?_set_cases hz with ⟨rfl,rfl⟩ | ⟨-,hz⟩
    · cases hturn with
      | close =>
        cases hp
        exact (not_handled hk hh).elim
      | chunk hq | ignored hq | download hq => simp [hq] at hp
      | _ => cases hp
    · exact h.handled j z st c hz hp hh
  · rw [hd]
    rw [hrep] at hr
    rcases getElem?_set_cases hz with ⟨rfl,rfl⟩ | ⟨-,hz⟩
    · cases hturn with
      | close =>
        cases hp
        exact (h.no_reply hk hr).elim
      | chunk hq | ignored hq | download hq => simp [hq] at hp
      | _ => cases hp
    · exact h.shut j z st c hz hp hr
  · rw [hd]
    rcases getElem?_set_cases hz with ⟨rfl,rfl⟩ | ⟨-,hz⟩
    · cases hturn with
      | @closed stream c r hq hr =>
        rcases hp with hp | hp <;> cases hp
        exact h.shut _ x st c hx hq (by rw [hr]; rfl)
      | unsubscribed hq =>
        rcases hp with hp | hp <;> cases hp
        exact h.gone _ x st hx (.inl hq)
      | @refused stream c e hq hr => simp [tidy,hx,hq,hr,Except.toOption] at htidy
      | unreplied => cases htidy
      | chunk hq | ignored hq | download hq => simp [hq] at hp
      | _ => rcases hp with hp | hp <;> cases hp
    · exact h.gone j z st hz hp

theorem route (h : Tidy t) (hk : Known t) {f : Frame F} (hf : f ∈ t.daemon.out) :
    Tidy (t.deliver (Incoming.ofObject f.toJson)) := by
  cases f with
  | event e =>
    rw [Frame.incoming_event,deliver]
    split
    · exact h.queued (fun _ => rfl) (fun _ => rfl) (fun _ => rfl)
    · exact h
  | response resp =>
    obtain ⟨id,result⟩ := resp
    rcases hk.talk.whole.asked.out _ hf with rfl | ⟨req,hreq,rfl,-⟩
    · rw [Frame.incoming_refused]
      exact h
    · obtain ⟨c,x,hx,rfl⟩ := hk.talk.requests req hreq
      have hin := Frame.incoming_response c result
      change Tidy (t.deliver (Incoming.ofObject (Frame.response ⟨requestId c,result⟩).toJson))
      rw [requestId,hin,deliver]
      split
      · rename_i c' hl
        cases Nat.succ.inj (hk.talk.pending _ _ hl)
        have hs : Tidy (t.setReply c (Frame.resultOf result)) := by
          refine h.setReply (fun e he => ?_) (fun k x st hx hp => ?_)
          · cases result with
            | ok v => cases he
            | error e => exact (hk.leaves.once.out _ hf (by simp [Call.request,requestId])).2.2 e rfl
          · exact h.handled k x st c hx hp ⟨_,rfl,.inr hf⟩
        exact hs.of_eq rfl rfl rfl rfl rfl
      · exact h

theorem timeout (h : Tidy t) (hk : Known t) {c : CallIx} {y : Call F} {e : RpcError}
    (hy : t.calls[c]? = some y) (hg : t.givenUp c y = true) : Tidy (t.setReply c (.error e)) := by
  refine h.setReply (fun e' _ st ho => ?_) (fun k x st hx hp => ?_)
  · obtain ⟨c',z,hid,hz,hm⟩ := open_of_opened hk.talk ho
    cases requestId_inj hid
    cases hy.symm.trans hz
    simp only [givenUp,hm,if_true,List.all_eq_true] at hg
    have := hg _ ho
    rw [isRequest_iff.mpr rfl] at this
    cases this
  · have hl := hk.leaves.leaving k x hx
    simp only [Leaving,hp] at hl
    cases hl.2.symm.trans hy
    simpa [givenUp,closeCall,RpcRequest.getStringParam,Json.asStr,List.lookup_cons] using hg

theorem step (h : Tidy t) (hk : Known t) {a : Act F} (ha : tidy t a = true)
    (hs : Step trunc t a t') : Tidy t' := by
  cases hs with
  | serve hal hc hx hd => exact h.daemon hk hd (fun h => by cases h)
  | lose hc hd => exact h.daemon hk hd (fun h => by cases h)
  | @daemon b d ho hd =>
    refine h.daemon (n := t.served) hk hd ?_
    rintro rfl
    exact ha
  | connect host port =>
    refine ⟨h.alive,fun j z st hz hp => ?_,fun c y hy hm => ?_,h.refused,fun j z st c hz hp => ?_,
      fun j z st c hz hp => ?_,fun j z st hz hp => ?_⟩
    · rcases getElem?_append_one hz with hz | ⟨-,rfl⟩
      · exact h.reached j z st hz hp
      · cases hp
    · rcases getElem?_append_one hy with hy | ⟨rfl,rfl⟩
      · obtain ⟨k,hk,x,hx,hf⟩ := h.fate c y hy hm
        exact ⟨k,hk,x,getElem?_append_of_eq_some hx,hf⟩
      · exact ⟨_,rfl,_,List.getElem?_concat_length,.inl rfl⟩
    · rcases getElem?_append_one hz with hz | ⟨-,rfl⟩
      · exact h.handled j z st c hz hp
      · cases hp
    · rcases getElem?_append_one hz with hz | ⟨-,rfl⟩
      · exact h.shut j z st c hz hp
      · cases hp
    · rcases getElem?_append_one hz with hz | ⟨-,rfl⟩
      · exact h.gone j z st hz hp
      · rcases hp with hp | hp <;> cases hp
  | foreign hop hsub =>
    refine ⟨h.alive,h.reached,fun c y hy hm => ?_,h.refused,h.handled,h.shut,h.gone⟩
    rcases getElem?_append_one hy with hy | ⟨-,rfl⟩
    · exact h.fate c y hy hm
    · exact (hop hm).elim
  | send => exact h.of_eq rfl rfl rfl rfl rfl
  | sendFailed hc hal => exact absurd (hal.symm.trans h.alive) (by simp)
  | @timeout c hc hm hr =>
    obtain ⟨y,hy⟩ := hk.leaves.calls c hm
    have hg : t.givenUp c y = true := by simpa [tidy,hy] using ha
    exact (h.timeout hk hy hg).of_eq rfl rfl rfl rfl rfl
  | turn hak hx hturn => exact h.turn hk hak ha hx hturn
  | route hst hf => exact (h.route hk (List.mem_of_getElem? hf)).of_eq rfl rfl rfl rfl rfl
  | die => cases ha
  | eof hal => exact absurd (hal.symm.trans h.alive) (by simp)

/-- The tables hold streams of running connections only. -/
theorem running_of_subscribed (h : Tidy t) (hk : Known t) {st : Text} {k : ℕ}
    (hl : t.subscriptions.lookup st = some k) : Running t st := by
  obtain ⟨x,hx,hst,-⟩ := hk.wires.subs st k hl
  refine ⟨k,x,hx,.inr ⟨hst,fun s hp => ?_⟩⟩
  rw [hp] at hst
  cases hst
  have hleft := hk.leaves.leaving k x hx
  simp only [Leaving,hp] at hleft
  rcases hleft with ⟨-,-,hn⟩ | ⟨hn,-⟩
  · rw [hl] at hn
    cases hn
  · exact hn (h.reached k x st hx hp)

theorem running_of_stream (h : Tidy t) (hk : Known t) {st : Text} {state : Daemon.StreamState}
    (hs : t.daemon.streams.lookup st = some state) : Running t st := by
  obtain ⟨id,hi⟩ := hk.talk.whole.table.conns st state hs
  have ho := List.mem_of_getElem? hi
  obtain ⟨c,y,rfl,hy,hm⟩ := open_of_opened hk.talk ho
  obtain ⟨k,hyk,x,hx,hf⟩ := h.fate c y hy hm
  rcases hf with hp | ⟨r,hr,hf⟩
  · exact ⟨k,x,hx,.inl ⟨c,hp,ho⟩⟩
  · cases r with
    | error e => exact (h.refused c e hr st ho).elim
    | ok v =>
      obtain ⟨z,hz,hg⟩ := hk.talk.replies c v hr
      cases hy.symm.trans hz
      obtain ⟨st',rfl,ho'⟩ := hg.1 (congrArg String.toList hm)
      have he : st' = st :=
        congrArg Prod.snd (List.inj_on_of_nodup_map hk.leaves.once.nodup ho' ho rfl)
      subst he
      have hst : x.phase.stream = some st' := hf _ _ rfl rfl
      refine ⟨k,x,hx,.inr ⟨hst,fun s hp => ?_⟩⟩
      rw [hp] at hst
      cases hst
      rw [h.gone k x st' hx (.inr hp)] at hs
      cases hs

end Tidy

theorem known_of_reach {ok : Tunnel F → Act F → Prop} (h : Reach (step trunc) ok init t) :
    Known t :=
  h.inv known_init (fun _ _ _ h _ hs => h.step hs)

theorem tidy_of_reach (h : Reach (step trunc) (fun t a => tidy t a = true) init t) :
    Known t ∧ Tidy t := by
  refine Reach.inv (P := fun t => Known t ∧ Tidy t) h ⟨known_init,.init⟩ ?_
  rintro t a t' ⟨hk,ht⟩ ha hs
  exact ⟨hk.step hs,ht.step hk ha (step_sound hs)⟩

theorem closed_iff (h : Known t) (hal : t.alive = true) {k : ℕ} {x : Connection F} {st : Text}
    (hx : t.connections[k]? = some x) (hp : x.phase = .returned (some st)) :
    t.Closed k st ↔ x.reachedBridge := by
  have hl := h.leaves.leaving k x hx
  simp only [Leaving,hp] at hl
  constructor
  · rintro ⟨-,hn⟩
    rcases hl with ⟨hb,-⟩ | ⟨-,hs⟩
    · exact hb
    · rw [hn] at hs
      cases hs
  · intro hb
    rcases hl with ⟨-,hsent,hn⟩ | ⟨hnb,-⟩
    · exact ⟨hsent hal,hn⟩
    · exact (hnb hb).elim

/-- A connection that returns has closed its stream exactly when `proxy.stream.subscribe` and
the success reply went well. Where they always do, and no call is given up before its time,
both tables hold the streams of running connections only. -/
theorem streams_closed (trunc : F → Option ℤ) :
    (∀ t : Tunnel F, Reach (step trunc) anyStep init t → t.alive = true →
      ∀ (k : ℕ) (x : Connection F) (st : Text), t.connections[k]? = some x →
        x.phase = .returned (some st) → (t.Closed k st ↔ x.reachedBridge)) ∧
    ∀ t : Tunnel F, Reach (step trunc) (fun t a => tidy t a = true) init t →
      (∀ (k : ℕ) (x : Connection F) (st : Text), t.connections[k]? = some x →
        x.phase = .returned (some st) → t.Closed k st) ∧
      (∀ st, (t.subscriptions.lookup st).isSome → Running t st) ∧
      ∀ st, (t.daemon.streams.lookup st).isSome → Running t st := by
  refine ⟨fun t h hal k x st hx hp => closed_iff (known_of_reach h) hal hx hp,fun t h => ?_⟩
  obtain ⟨hk,ht⟩ := tidy_of_reach h
  refine ⟨fun k x st hx hp => ?_,fun st hs => ?_,fun st hs => ?_⟩
  · exact (closed_iff hk ht.alive hx hp).mpr (ht.reached k x st hx hp)
  · obtain ⟨k,hl⟩ := Option.isSome_iff_exists.mp hs
    exact ht.running_of_subscribed hk hl
  · obtain ⟨state,hl⟩ := Option.isSome_iff_exists.mp hs
    exact ht.running_of_stream hk hl

/-- The local client ends, and the connection cleans up. -/
def wholeSession : List (Act ℕ) :=
  bridge ++ [.localEnd 0,.send 2,.serve,.daemon (.handle (.ok .null)),.daemon .close,
    .daemon .respond,.route,.resume 0,.unsubscribe 0]

theorem streams_closed_session :
    ∃ (t : Tunnel ℕ) (x : Connection ℕ),
      Reach (step (fun _ => none)) (fun t a => tidy t a = true) init t ∧
      t.connections[0]? = some x ∧ x.phase = .returned (some "s-1".toList) ∧
      t.Closed 0 "s-1".toList ∧ ∀ st, (t.daemon.streams.lookup st).isSome → Running t st := by
  obtain ⟨t,hr,hg⟩ : ∃ t, Reach (step (fun _ => none)) (fun t a => tidy t a = true) init t ∧
      glance t = ⟨some (.returned (some "s-1".toList),[],some true),[("s-1".toList,[])]⟩ :=
    reach_of_glance glance wholeSession (by decide +kernel)
  obtain ⟨x,hx,hp,-,-⟩ := connection_of_glance hg
  obtain ⟨hc,-,hs⟩ := (streams_closed (fun _ => none)).2 t hr
  exact ⟨t,x,hr,hx,hp,hc 0 x _ hx hp,hs⟩

/-- The client hangs up before it gets the success reply. -/
def hungUp : List (Act ℕ) := bridge.dropLast ++ [.reply 0 false]

/-- The first connection and who is subscribed to its stream. -/
def leftBehind (t : Tunnel ℕ) : Bool :=
  t.alive && (t.connections[0]?.map Connection.phase = some (.returned (some "s-1".toList))) &&
    (t.subscriptions.lookup "s-1".toList = some 0) && (t.daemon.streams.lookup "s-1".toList).isSome

theorem hang_up_leaves_stream :
    ¬ ∀ (t : Tunnel ℕ), Reach (step (fun _ => none)) anyStep init t → t.alive = true →
      ∀ (k : ℕ) (x : Connection ℕ) (st : Text), t.connections[k]? = some x →
        x.phase = .returned (some st) → t.Closed k st := by
  intro h
  obtain ⟨t,hr,hg⟩ : ∃ t, Reach (step (fun _ => none)) anyStep init t ∧ leftBehind t = true :=
    reach_of_glance leftBehind hungUp (by decide +kernel)
  simp only [leftBehind,Bool.and_eq_true,decide_eq_true_eq] at hg
  obtain ⟨⟨⟨hal,hx⟩,hl⟩,-⟩ := hg
  obtain ⟨x,hx,hp⟩ := Option.map_eq_some_iff.mp hx
  have hc := (h t hr hal 0 x _ hx hp).2
  rw [hl] at hc
  cases hc

end Tunnel

end Limux
