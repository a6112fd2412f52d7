import Limux.DaemonAnswers
import Limux.TunnelSteps

/-! What is said between the client and the daemon: requests are calls, replies are the
daemon's answers to them. -/
namespace Limux

open Machine

namespace Daemon

variable {F : Type} {trunc : F → Option ℤ} {s s' : Daemon F}

/-- All that holds of the daemon in every state. -/
structure Whole (s : Daemon F) : Prop extends Inv s where
  asked : Asked s
  accounts : Accounts s

theorem whole_init : Whole (init : Daemon F) := ⟨inv_init,.init,.init⟩

theorem Whole.step (h : Whole s) {a : Act F} (hs : step trunc s a = some s') : Whole s' :=
  ⟨inv_of_step h.toInv hs,h.asked.step hs,h.accounts.effect h.toInv (effect_of_step hs)⟩

theorem grows_of_step {a : Act F} (hs : step trunc s a = some s') : Grows s s' := by
  have he := effect_of_step hs
  generalize a.pump = i at he
  cases he with
  | moved | removed | marked | closed | responded | closedAll | closedNext | ended | broke =>
    exact ⟨fun _ h => h,fun _ h => h,fun _ h => h⟩
  | asked => exact ⟨fun _ h => List.mem_append_left _ h,fun _ h => h,fun _ h => h⟩
  | opened => exact ⟨fun _ h => h,fun _ h => List.mem_append_left _ h,fun _ h => h⟩
  | spawned =>
    refine ⟨fun _ h => h,fun _ h => h,fun stream h => ?_⟩
    rw [pumped,List.map_append]
    exact List.mem_append_left _ h
  | pumped | emitted | dropped | closedPump =>
    refine ⟨fun _ h => h,fun _ h => h,fun stream h => ?_⟩
    rw [pumped_modify]
    · exact h
    · rfl
    · intro p
      rfl

theorem out_of_step {a : Act F} (hs : step trunc s a = some s') : ∃ l, s'.out = s.out ++ l := by
  have he := effect_of_step hs
  generalize a.pump = i at he
  cases he with
  | responded | emitted => exact ⟨_,rfl⟩
  | _ => exact ⟨[],(List.append_nil _).symm⟩

theorem inputs_handleRequest (s : Daemon F) (req : RpcRequest F)
    (other : Except RpcFault (Json F)) :
    (s.handleRequest trunc req other).requests = s.requests ∧
      (s.handleRequest trunc req other).broken = s.broken := by
  unfold handleRequest handleProxyOpen handleProxyClose handleProxyWrite
    handleProxyStreamSubscribe
  repeat' split
  all_goals exact ⟨rfl,rfl⟩

/-- Requests and the loss of stdout come only from outside. -/
theorem inputs_of_step {a : Act F} (hs : step trunc s a = some s') (ha : ∀ req, a ≠ .request req) :
    s'.requests = s.requests ∧ (a ≠ .breakOutput → s'.broken = s.broken) := by
  unfold step at hs
  split at hs
  · obtain ⟨p,hp,hs⟩ := Option.bind_eq_some_iff.mp hs
    have hf := pumpFrame_of_stepPump hs
    exact ⟨hf.requests,fun _ => hf.broken⟩
  · cases a with
    | request req => exact (ha req rfl).elim
    | handle other =>
      simp only [stepLoop] at hs
      split at hs
      · cases hs
        exact ⟨(inputs_handleRequest ..).1,fun _ => (inputs_handleRequest ..).2⟩
      · cases hs
    | dial err =>
      simp only [stepLoop] at hs
      split at hs
      · cases hs
        cases err <;> exact ⟨rfl,fun _ => rfl⟩
      · cases hs
    | write n err | finishWrite =>
      simp only [stepLoop] at hs
      split at hs
      · obtain ⟨-,hs⟩ := Option.ite_none_right_eq_some.mp hs
        cases hs
        exact ⟨rfl,fun _ => rfl⟩
      · cases hs
    | respond =>
      simp only [stepLoop] at hs
      split at hs
      · cases hs
        unfold writeResponse
        split <;> exact ⟨rfl,fun _ => rfl⟩
      · cases hs
    | closeNext =>
      simp only [stepLoop] at hs
      split at hs
      · cases hs
        exact ⟨rfl,fun _ => rfl⟩
      · cases hs
        exact ⟨rfl,fun _ => rfl⟩
      · cases hs
    | register | refuse | deadline | close | spawn | hangUp | closeAll =>
      simp only [stepLoop] at hs
      split at hs
      · cases hs
        exact ⟨rfl,fun _ => rfl⟩
      · cases hs
    | breakOutput =>
      cases hs
      exact ⟨rfl,fun h => (h rfl).elim⟩
    | read | panic | emit | terminate | drop | closePump => cases hs

theorem requests_of_request {req : RpcRequest F} (hs : step trunc s (.request req) = some s') :
    s'.requests = s.requests ++ [req] := by
  simp only [step,Act.pump,stepLoop] at hs
  split at hs
  · cases hs
    rfl
  · cases hs

end Daemon

namespace Frame

variable {F : Type}

def toStream (e : RpcEvent) : StreamEvent F := ⟨e.streamId,e.event.toList,(Frame.event e).toJson⟩

theorem incoming_event (e : RpcEvent) :
    Incoming.ofObject (Frame.event e : Frame F).toJson = .event (toStream e) := by
  have hid : (Frame.event e : Frame F).toJson.get "id" = none := by
    simp only [toJson,Json.get,omitEmpty,List.append_assoc]
    split <;> split <;> split <;> rfl
  have hst : ((Frame.event e : Frame F).toJson.getStr "stream_id").getD [] = e.streamId := by
    simp only [toJson,Json.getStr,Json.get,omitEmpty,List.append_assoc]
    split
    · rename_i h
      rw [h]
      split <;> split <;> rfl
    · rfl
  have hev : (Frame.event e : Frame F).toJson.getStr "event" = some e.event.toList := rfl
  simp only [Incoming.ofObject,hid,hev,Option.bind_none,hst]
  rfl

def resultOf : Except RpcFault (Json F) → RpcResult F
  | .ok v => .ok v
  | .error e => .error (.remote e.message)

theorem incoming_response (c : ℕ) (result : Except RpcFault (Json F)) :
    Incoming.ofObject (Frame.response ⟨.num (.int (c+1)),result⟩).toJson =
      .response (c+1) (resultOf result) := by
  cases result <;> rfl

theorem incoming_refused (result : Except RpcFault (Json F)) :
    Incoming.ofObject (Frame.response ⟨.null,result⟩).toJson = .skip := by
  cases result <;> rfl

end Frame

namespace Tunnel

variable {F : Type} {trunc : F → Option ℤ} {t t' : Tunnel F}

theorem requestId_inj {c d : CallIx} (h : (requestId c : Json F) = requestId d) : c = d := by
  have hz : (c : ℤ) = (d : ℤ) := by simpa [requestId] using h
  exact Int.ofNat.inj hz

theorem calls_place (t : Tunnel F) (y : Option (Call F)) :
    (t.place y).calls = t.calls ++ y.toList := by
  cases y with
  | none => exact (List.append_nil _).symm
  | some y => rfl

theorem daemon_place (t : Tunnel F) (y : Option (Call F)) : (t.place y).daemon = t.daemon := by
  cases y <;> rfl

/-- Requests come from calls; a reply is the daemon's answer to its call. -/
structure Talk (t : Tunnel F) : Prop where
  whole : Daemon.Whole t.daemon
  requests : ∀ req ∈ t.daemon.requests, ∃ (c : CallIx) (x : Call F),
    t.calls[c]? = some x ∧ req = x.request c
  pending : ∀ id c, t.pending.lookup id = some c → id = c+1
  replies : ∀ c v, t.replies c = some (.ok v) → ∃ x, t.calls[c]? = some x ∧
    t.daemon.Grants (x.request c) v

namespace Talk

theorem init : Talk (Tunnel.init : Tunnel F) :=
  ⟨Daemon.whole_init,by simp [Tunnel.init,Daemon.init],by simp [Tunnel.init],by simp [Tunnel.init]⟩

theorem daemon (h : Talk t) {a : Daemon.Act F} {d : Daemon F} {n : ℕ}
    (hs : Daemon.step trunc t.daemon a = some d)
    (hr : ∀ req ∈ d.requests, req ∈ t.daemon.requests ∨ ∃ (c : CallIx) (x : Call F),
      t.calls[c]? = some x ∧ req = x.request c) :
    Talk { t with daemon := d, served := n } := by
  refine ⟨h.whole.step hs,fun req hm => ?_,h.pending,fun c v hv => ?_⟩
  · rcases hr req hm with hm | hm
    · exact h.requests req hm
    · exact hm
  · obtain ⟨x,hx,hg⟩ := h.replies c v hv
    exact ⟨x,hx,hg.mono (Daemon.grows_of_step hs)⟩

theorem client (h : Talk t) {l : List (Call F)} (hd : t'.daemon = t.daemon)
    (hc : t'.calls = t.calls ++ l)
    (hp : ∀ id c, t'.pending.lookup id = some c → t.pending.lookup id = some c ∨ id = c+1)
    (hr : ∀ c v, t'.replies c = some (.ok v) → t.replies c = some (.ok v)) : Talk t' := by
  refine ⟨hd ▸ h.whole,fun req hm => ?_,fun id c hl => ?_,fun c v hv => ?_⟩
  · obtain ⟨c,x,hx,heq⟩ := h.requests req (hd ▸ hm)
    exact ⟨c,x,hc ▸ getElem?_append_of_eq_some hx,heq⟩
  · rcases hp id c hl with hl | heq
    · exact h.pending id c hl
    · exact heq
  · obtain ⟨x,hx,hg⟩ := h.replies c v (hr c v hv)
    rw [hc,hd]
    exact ⟨x,getElem?_append_of_eq_some hx,hg⟩

theorem call (h : Talk t) (owner : Option ℕ) (method : String) (params : List (String × Json F)) :
    Talk (t.call owner method params) := by
  refine h.client rfl rfl (fun id c hl => ?_) (fun _ _ h => h)
  simp only [Tunnel.call,HashMap.lookup_insert_ite] at hl
  split at hl
  · rename_i hid
    cases hl
    exact .inr hid
  · exact .inl hl

theorem place (h : Talk t) (y : Option (Call F)) : Talk (t.place y) := by
  cases y with
  | none => exact h
  | some y => exact h.call _ _ _

theorem setReply_error (h : Talk t) (c : CallIx) (e : RpcError) : Talk (t.setReply c (.error e)) := by
  refine h.client rfl (List.append_nil _).symm (fun _ _ h => .inl h) (fun d v hv => ?_)
  simp only [setReply] at hv
  rcases Option.or_eq_some_iff.mp hv with hv | ⟨-,hv⟩
  · exact hv
  · split at hv <;> cases hv

theorem erase_pending (h : Talk t) (id : ℕ) : Talk { t with pending := t.pending.erase id } := by
  refine h.client rfl (List.append_nil _).symm (fun id c hl => .inl ?_) (fun _ _ h => h)
  simp only [HashMap.lookup_erase_ite] at hl
  split at hl
  · cases hl
  · exact hl

theorem drain (h : Talk t) : Talk t.drainPending := by
  refine h.client rfl (List.append_nil _).symm (fun _ _ h => by simp [drainPending] at h)
    (fun d v hv => ?_)
  simp only [drainPending] at hv
  rcases Option.or_eq_some_iff.mp hv with hv | ⟨-,hv⟩
  · exact hv
  · split at hv <;> cases hv

/-- What the reader task makes of a frame. -/
theorem incoming (h : Talk t) {f : Frame F} (hf : f ∈ t.daemon.out) :
    (∃ e, f = .event e ∧ Incoming.ofObject f.toJson = .event (Frame.toStream e)) ∨
    Incoming.ofObject f.toJson = .skip ∨
    ∃ (c : CallIx) (x : Call F) (r : RpcResult F), t.calls[c]? = some x ∧
      Incoming.ofObject f.toJson = .response (c+1) r ∧
      ∀ v, r = .ok v → t.daemon.Grants (x.request c) v := by
  cases f with
  | event e => exact .inl ⟨e,rfl,Frame.incoming_event e⟩
  | response resp =>
    obtain ⟨id,result⟩ := resp
    rcases h.whole.asked.out _ hf with rfl | ⟨req,hreq,rfl,hg⟩
    · exact .inr (.inl (Frame.incoming_refused result))
    · obtain ⟨c,x,hx,rfl⟩ := h.requests req hreq
      refine .inr (.inr ⟨c,x,_,hx,Frame.incoming_response c result,fun v hv => hg v ?_⟩)
      cases result with
      | ok w =>
        cases hv
        rfl
      | error e => cases hv

theorem route (h : Talk t) {f : Frame F} (hf : f ∈ t.daemon.out) :
    Talk (t.deliver (Incoming.ofObject f.toJson)) := by
  rcases h.incoming hf with ⟨e,-,he⟩ | he | ⟨c,x,r,hx,he,hg⟩
  · rw [he,deliver]
    split
    · exact ⟨h.whole,h.requests,h.pending,h.replies⟩
    · exact h
  · rw [he]
    exact h
  · rw [he,deliver]
    split
    · rename_i c' hl
      cases Nat.succ.inj (h.pending _ _ hl)
      refine Talk.erase_pending (t := t.setReply c r) ⟨h.whole,h.requests,h.pending,fun d v hv => ?_⟩ _
      simp only [setReply] at hv
      rcases Option.or_eq_some_iff.mp hv with hv | ⟨-,hv⟩
      · exact h.replies d v hv
      · split at hv
        · rename_i hd
          cases hv
          exact ⟨x,hd ▸ hx,hd ▸ hg v rfl⟩
        · cases hv
    · exact h

theorem step (h : Talk t) {a : Act F} (hs : Step trunc t a t') : Talk t' := by
  cases hs with
  | serve ha hc hx hd =>
    refine h.daemon hd (fun req hm => ?_)
    rw [Daemon.requests_of_request hd,List.mem_append,List.mem_singleton] at hm
    rcases hm with hm | rfl
    · exact .inl hm
    · exact .inr ⟨_,_,hx,rfl⟩
  | lose hc hd =>
    refine h.daemon hd (fun req hm => .inl ?_)
    rwa [(Daemon.inputs_of_step hd (fun _ h => by cases h)).1] at hm
  | @daemon a d ho hd =>
    refine h.daemon hd (fun req hm => .inl ?_)
    rwa [(Daemon.inputs_of_step hd (fun req h => by rw [h] at ho; cases ho)).1] at hm
  | connect host port =>
    obtain ⟨h₁,h₂,h₃,h₄⟩ := h.call (some t.connections.length) "proxy.open"
      [("host",.str host),("port",.num (.int port))]
    exact ⟨h₁,h₂,h₃,h₄⟩
  | foreign => exact h.call _ _ _
  | send => exact ⟨h.whole,h.requests,h.pending,h.replies⟩
  | sendFailed => exact h.setReply_error _ _
  | timeout => exact (h.setReply_error _ _).erase_pending _
  | @turn a k x x' y subs ha hx ht =>
    obtain ⟨h₁,h₂,h₃,h₄⟩ := h.place y
    exact ⟨h₁,h₂,h₃,h₄⟩
  | route hst hf =>
    obtain ⟨h₁,h₂,h₃,h₄⟩ := h.route (List.mem_of_getElem? hf)
    exact ⟨h₁,h₂,h₃,h₄⟩
  | die => exact ⟨h.whole,h.requests,h.pending,h.replies⟩
  | eof =>
    obtain ⟨h₁,h₂,h₃,h₄⟩ := h.drain
    exact ⟨h₁,h₂,h₃,h₄⟩

end Talk

def Phase.stream : Phase → Option Text
  | .opened st | .subscribing st _ | .replying st | .bridging st _ | .closing st _
  | .unsubscribing st => some st
  | .returned st => st
  | .opening _ => none

/-- The stream that a running connection has subscribed to. -/
def Phase.kept : Phase → Option Text
  | .subscribing st _ | .replying st | .bridging st _ | .closing st _ | .unsubscribing st => some st
  | _ => none

theorem Phase.stream_of_kept {p : Phase} {st : Text} (h : p.kept = some st) :
    p.stream = some st ∧ p ≠ .opened st := by
  cases p <;> simp_all [kept,stream]

/-- Whose stream is whose. -/
structure Wires (t : Tunnel F) : Prop where
  opening : ∀ (k : ℕ) (x : Connection F) (c : CallIx), t.connections[k]? = some x →
    x.phase = .opening c → ∃ y, t.calls[c]? = some y ∧ y.owner = some k ∧ y.method = "proxy.open"
  stream : ∀ (k : ℕ) (x : Connection F) (st : Text), t.connections[k]? = some x →
    x.phase.stream = some st → ∃ (c : CallIx) (y : Call F), t.calls[c]? = some y ∧ y.owner = some k ∧ (requestId c,st) ∈ t.daemon.opened
  subscribing : ∀ (k : ℕ) (x : Connection F) (st : Text) (c : CallIx),
    t.connections[k]? = some x → x.phase = .subscribing st c → t.calls[c]? = some (subscribeCall k st)
  subscribed : ∀ (c : CallIx) (y : Call F), t.calls[c]? = some y →
    y.method = "proxy.stream.subscribe" →
      ∃ (k : ℕ) (st : Text) (x : Connection F), y = subscribeCall k st ∧
      t.connections[k]? = some x ∧ x.phase.stream = some st ∧ x.phase ≠ .opened st
  kept : ∀ (k : ℕ) (x : Connection F) (st : Text), t.connections[k]? = some x →
    x.phase.kept = some st → t.subscriptions.lookup st = some k
  subs : ∀ st k, t.subscriptions.lookup st = some k → ∃ x, t.connections[k]? = some x ∧
    x.phase.stream = some st ∧ x.phase ≠ .opened st

namespace Wires

theorem init : Wires (Tunnel.init : Tunnel F) := by
  constructor <;> simp [Tunnel.init]

/-- A stream belongs to one connection. -/
theorem stream_inj (w : Wires t) (h : Talk t) {j k : ℕ} {x y : Connection F} {st : Text}
    (hx : t.connections[j]? = some x) (hy : t.connections[k]? = some y)
    (hxs : x.phase.stream = some st) (hys : y.phase.stream = some st) : j = k := by
  obtain ⟨c,z,hz,hzo,hc⟩ := w.stream j x st hx hxs
  obtain ⟨d,z',hz',hzo',hd⟩ := w.stream k y st hy hys
  have he := List.inj_on_of_nodup_map h.whole.table.opened_nodup hc hd rfl
  have hcd := requestId_inj (congrArg Prod.fst he)
  subst hcd
  cases hz.symm.trans hz'
  exact Option.some.inj (hzo.symm.trans hzo')

theorem of_le (w : Wires t) {l : List (Call F)} (hc : t'.calls = t.calls ++ l)
    (hl : ∀ y ∈ l, y.method ≠ "proxy.stream.subscribe")
    (hconn : ∀ (k : ℕ) (x' : Connection F), t'.connections[k]? = some x' →
      ∃ x, t.connections[k]? = some x ∧ x'.phase = x.phase)
    (hconn' : ∀ (k : ℕ) (x : Connection F), t.connections[k]? = some x →
      ∃ x', t'.connections[k]? = some x' ∧ x'.phase = x.phase)
    (hs : t'.subscriptions = t.subscriptions) (ho : t.daemon.opened ⊆ t'.daemon.opened) :
    Wires t' := by
  refine ⟨fun k x c hx hp => ?_,fun k x st hx hp => ?_,fun k x st c hx hp => ?_,
    fun c y hy hm => ?_,fun k x st hx hp => ?_,fun st k hl => ?_⟩
  · obtain ⟨x₀,hx₀,he⟩ := hconn k x hx
    obtain ⟨y,hy,hyo⟩ := w.opening k x₀ c hx₀ (he ▸ hp)
    exact ⟨y,hc ▸ getElem?_append_of_eq_some hy,hyo⟩
  · obtain ⟨x₀,hx₀,he⟩ := hconn k x hx
    obtain ⟨c,y,hy,hyo,hm⟩ := w.stream k x₀ st hx₀ (he ▸ hp)
    exact ⟨c,y,hc ▸ getElem?_append_of_eq_some hy,hyo,ho hm⟩
  · obtain ⟨x₀,hx₀,he⟩ := hconn k x hx
    rw [hc]
    exact getElem?_append_of_eq_some (w.subscribing k x₀ st c hx₀ (he ▸ hp))
  · rw [hc,List.getElem?_append] at hy
    split at hy
    · obtain ⟨k,st,x,hy,hx,hst,hne⟩ := w.subscribed c y hy hm
      obtain ⟨x',hx',he⟩ := hconn' k x hx
      exact ⟨k,st,x',hy,hx',by rwa [he],by rwa [he]⟩
    · exact (hl y (List.mem_of_getElem? hy) hm).elim
  · obtain ⟨x₀,hx₀,he⟩ := hconn k x hx
    rw [hs]
    exact w.kept k x₀ st hx₀ (he ▸ hp)
  · obtain ⟨x,hx,hst,hne⟩ := w.subs st k (hs ▸ hl)
    obtain ⟨x',hx',he⟩ := hconn' k x hx
    exact ⟨x',hx',by rwa [he],by rwa [he]⟩

variable {k : ℕ} {x x' : Connection F} {y : Option (Call F)} {subs : HashMap Text ℕ}

theorem advance (w : Wires t) (hx : t.connections[k]? = some x)
    (hy : ∀ z ∈ y, z.method ≠ "proxy.stream.subscribe")
    (hst : x'.phase.stream = x.phase.stream)
    (hk : ∀ st, x'.phase.kept = some st → x.phase.kept = some st)
    (hop : ∀ c, x'.phase = .opening c → x.phase = .opening c)
    (hsub : ∀ st c, x'.phase = .subscribing st c → x.phase = .subscribing st c)
    (hne : ∀ st, x'.phase = .opened st → x.phase = .opened st) :
    Wires (t.turn k y t.subscriptions x') := by
  have hself : (t.connections.set k x')[k]? = some x' := getElem?_set_self_of_some hx
  have hother : ∀ {j : ℕ} {z : Connection F}, j ≠ k → t.connections[j]? = some z →
      (t.connections.set k x')[j]? = some z := fun hj hz => by
    rwa [List.getElem?_set_ne (fun he => hj he.symm)]
  have hback : ∀ {j : ℕ} {z : Connection F}, (t.connections.set k x')[j]? = some z →
      j = k ∧ z = x' ∨ t.connections[j]? = some z := fun hz =>
    (getElem?_set_cases hz).imp id And.right
  have hin : ∀ {st : Text} {j : ℕ}, (∃ z, t.connections[j]? = some z ∧ z.phase.stream = some st ∧
      z.phase ≠ .opened st) → ∃ z, (t.connections.set k x')[j]? = some z ∧
      z.phase.stream = some st ∧ z.phase ≠ .opened st := by
    rintro st j ⟨z,hz,hzs,hzn⟩
    by_cases hj : j = k
    · subst hj
      cases hx.symm.trans hz
      exact ⟨x',hself,hst.trans hzs,fun he => hzn (hne _ he)⟩
    · exact ⟨z,hother hj hz,hzs,hzn⟩
  refine ⟨fun j z c hz hp => ?_,fun j z st hz hp => ?_,fun j z st c hz hp => ?_,
    fun c z hz hm => ?_,fun j z st hz hp => ?_,fun st j hl => hin (w.subs st j hl)⟩
  · have hw : ∃ y, t.calls[c]? = some y ∧ y.owner = some j ∧ y.method = "proxy.open" := by
      rcases hback hz with ⟨rfl,rfl⟩ | hz
      · exact w.opening _ x c hx (hop c hp)
      · exact w.opening _ z c hz hp
    obtain ⟨y',hy',ho⟩ := hw
    exact ⟨y',(calls_place t y).symm ▸ getElem?_append_of_eq_some hy',ho⟩
  · have hw : ∃ (c : CallIx) (y : Call F), t.calls[c]? = some y ∧ y.owner = some j ∧
        (requestId c,st) ∈ t.daemon.opened := by
      rcases hback hz with ⟨rfl,rfl⟩ | hz
      · exact w.stream _ x st hx (hst ▸ hp)
      · exact w.stream _ z st hz hp
    obtain ⟨c,y',hy',ho⟩ := hw
    exact ⟨c,y',(calls_place t y).symm ▸ getElem?_append_of_eq_some hy',
      (daemon_place t y).symm ▸ ho⟩
  · have hw : t.calls[c]? = some (subscribeCall j st) := by
      rcases hback hz with ⟨rfl,rfl⟩ | hz
      · exact w.subscribing _ x st c hx (hsub st c hp)
      · exact w.subscribing _ z st c hz hp
    exact (calls_place t y).symm ▸ getElem?_append_of_eq_some hw
  · have hz' : (t.calls ++ y.toList)[c]? = some z := calls_place t y ▸ hz
    rw [List.getElem?_append] at hz'
    split at hz'
    · obtain ⟨j,st,x₀,he,hc⟩ := w.subscribed c z hz' hm
      obtain ⟨x₁,hc⟩ := hin ⟨x₀,hc⟩
      exact ⟨j,st,x₁,he,hc⟩
    · exact (hy z (Option.mem_toList.mp (List.mem_of_getElem? hz')) hm).elim
  · rcases hback hz with ⟨rfl,rfl⟩ | hz
    · exact w.kept _ x st hx (hk st hp)
    · exact w.kept j z st hz hp

theorem opened (w : Wires t) (h : Talk t) (hx : t.connections[k]? = some x) {c : CallIx}
    {v : Json F} {stream : Text} (hp : x.phase = .opening c) (hr : t.replies c = some (.ok v))
    (hv : v.getStr "stream_id" = some stream) :
    Wires (t.turn k none t.subscriptions { x with phase := .opened stream }) := by
  obtain ⟨y,hy,hyo,hm⟩ := w.opening k x c hx hp
  have ho : (requestId c,stream) ∈ t.daemon.opened := by
    obtain ⟨z,hz,hg⟩ := h.replies c v hr
    cases hy.symm.trans hz
    obtain ⟨stream',rfl,ho⟩ := hg.1 (congrArg String.toList hm)
    cases hv
    exact ho
  have hother : ∀ {j : ℕ} {z : Connection F} {st : Text}, t.connections[j]? = some z →
      z.phase.stream = some st → j ≠ k := by
    rintro j z st hz hst rfl
    cases hx.symm.trans hz
    rw [hp] at hst
    cases hst
  have hset : ∀ {j : ℕ} {z : Connection F}, j ≠ k → t.connections[j]? = some z →
      (t.connections.set k { x with phase := .opened stream })[j]? = some z := fun hj hz => by
    rwa [List.getElem?_set_ne (fun he => hj he.symm)]
  refine ⟨fun j z d hz hq => ?_,fun j z st hz hst => ?_,fun j z st d hz hq => ?_,
    fun d z hz hm => ?_,fun j z st hz hk => ?_,fun st j hl => ?_⟩
  · rcases getElem?_set_cases hz with ⟨rfl,rfl⟩ | ⟨-,hz⟩
    · cases hq
    · exact w.opening j z d hz hq
  · rcases getElem?_set_cases hz with ⟨rfl,rfl⟩ | ⟨-,hz⟩
    · cases hst
      exact ⟨c,y,hy,hyo,ho⟩
    · exact w.stream j z st hz hst
  · rcases getElem?_set_cases hz with ⟨rfl,rfl⟩ | ⟨-,hz⟩
    · cases hq
    · exact w.subscribing j z st d hz hq
  · obtain ⟨j,st,z',he,hz',hst,hne⟩ := w.subscribed d z hz hm
    exact ⟨j,st,z',he,hset (hother hz' hst) hz',hst,hne⟩
  · rcases getElem?_set_cases hz with ⟨rfl,rfl⟩ | ⟨-,hz⟩
    · cases hk
    · exact w.kept j z st hz hk
  · obtain ⟨z,hz,hst,hne⟩ := w.subs st j hl
    exact ⟨z,hset (hother hz hst) hz,hst,hne⟩

theorem subscribe (w : Wires t) (h : Talk t) (hx : t.connections[k]? = some x) {stream : Text}
    (hp : x.phase = .opened stream) :
    Wires (t.turn k (some (subscribeCall k stream)) (t.subscriptions.insert stream k)
      { x with phase := .subscribing stream t.calls.length }) := by
  have hxs : x.phase.stream = some stream := by rw [hp]; rfl
  have hother : ∀ {j : ℕ} {z : Connection F} {st : Text}, t.connections[j]? = some z →
      z.phase.stream = some st → z.phase ≠ .opened st → j ≠ k := by
    rintro j z st hz hst hne rfl
    cases hx.symm.trans hz
    cases hxs.symm.trans hst
    exact hne hp
  have hset : ∀ {j : ℕ} {z : Connection F}, j ≠ k → t.connections[j]? = some z →
      (t.connections.set k { x with phase := .subscribing stream t.calls.length })[j]? = some z :=
    fun hj hz => by rwa [List.getElem?_set_ne (fun he => hj he.symm)]
  have hself : (t.connections.set k { x with phase := .subscribing stream t.calls.length })[k]? =
      some { x with phase := .subscribing stream t.calls.length } := getElem?_set_self_of_some hx
  refine ⟨fun j z c hz hq => ?_,fun j z st hz hst => ?_,fun j z st c hz hq => ?_,
    fun c z hz hm => ?_,fun j z st hz hk => ?_,fun st j hl => ?_⟩
  · rcases getElem?_set_cases hz with ⟨rfl,rfl⟩ | ⟨-,hz⟩
    · cases hq
    · obtain ⟨y,hy,ho⟩ := w.opening j z c hz hq
      exact ⟨y,getElem?_append_of_eq_some hy,ho⟩
  · have hw : ∃ (c : CallIx) (y : Call F), t.calls[c]? = some y ∧ y.owner = some j ∧
        (requestId c,st) ∈ t.daemon.opened := by
      rcases getElem?_set_cases hz with ⟨rfl,rfl⟩ | ⟨-,hz⟩
      · exact w.stream _ x st hx (hxs.trans hst)
      · exact w.stream j z st hz hst
    obtain ⟨c,y,hy,ho⟩ := hw
    exact ⟨c,y,getElem?_append_of_eq_some hy,ho⟩
  · rcases getElem?_set_cases hz with ⟨rfl,rfl⟩ | ⟨-,hz⟩
    · cases hq
      exact List.getElem?_concat_length
    · exact getElem?_append_of_eq_some (w.subscribing j z st c hz hq)
  · rcases getElem?_append_one hz with hz | ⟨-,rfl⟩
    · obtain ⟨j,st,z',he,hz',hst,hne⟩ := w.subscribed c z hz hm
      exact ⟨j,st,z',he,hset (hother hz' hst hne) hz',hst,hne⟩
    · exact ⟨k,stream,_,rfl,hself,rfl,by simp⟩
  · simp only [turn,HashMap.lookup_insert_ite]
    rcases getElem?_set_cases hz with ⟨rfl,rfl⟩ | ⟨hj,hz'⟩
    · cases hk
      exact if_pos rfl
    · have hzs := (Phase.stream_of_kept hk).1
      rw [if_neg]
      · exact w.kept j z st hz' hk
      · rintro rfl
        exact hj (w.stream_inj h hz' hx hzs hxs)
  · simp only [turn,HashMap.lookup_insert_ite] at hl
    split at hl
    · rename_i he
      cases hl
      exact ⟨_,hself,by rw [he]; rfl,by simp⟩
    · obtain ⟨z,hz,hst,hne⟩ := w.subs st j hl
      exact ⟨z,hset (hother hz hst hne) hz,hst,hne⟩

theorem unsubscribed (w : Wires t) (h : Talk t) (hx : t.connections[k]? = some x) {stream : Text}
    (hp : x.phase = .unsubscribing stream) :
    Wires (t.turn k none (t.subscriptions.erase stream)
      { x with phase := .returned (some stream) }) := by
  have hxs : x.phase.stream = some stream := by rw [hp]; rfl
  have ha : Wires (t.turn k none t.subscriptions { x with phase := .returned (some stream) }) :=
    w.advance hx (by simp) hxs.symm (by simp [Phase.kept]) (by simp) (by simp) (by simp)
  refine ⟨ha.opening,ha.stream,ha.subscribing,ha.subscribed,fun j z st hz hk => ?_,
    fun st j hl => ha.subs st j ?_⟩
  · have hl := ha.kept j z st hz hk
    simp only [turn,HashMap.lookup_erase_ite]
    rw [if_neg]
    · exact hl
    · rintro rfl
      have hzs := (Phase.stream_of_kept hk).1
      rcases getElem?_set_cases hz with ⟨rfl,rfl⟩ | ⟨hj,hz'⟩
      · cases hk
      · exact hj (w.stream_inj h hz' hx hzs hxs)
  · simp only [turn,HashMap.lookup_erase_ite] at hl
    split at hl
    · cases hl
    · exact hl

theorem turn (w : Wires t) (h : Talk t) {a : Act F} (hx : t.connections[k]? = some x)
    (ht : Turn t k x a y subs x') : Wires (t.turn k y subs x') := by
  cases ht with
  | opened hp hr hv => exact w.opened h hx hp hr hv
  | subscribe hp => exact w.subscribe h hx hp
  | unsubscribed hp => exact w.unsubscribed h hx hp
  | notOpened hp | subscribed hp | refused hp | replied hp | unreplied hp | uploaded hp
  | closed hp =>
    refine w.advance hx (by simp) ?_ ?_ ?_ ?_ ?_
    all_goals simp [hp,Phase.stream,Phase.kept]
  | upload hp =>
    refine w.advance hx (by simp) ?_ ?_ ?_ ?_ ?_
    all_goals simp [hp,Phase.stream,Phase.kept]
  | chunk | ignored | download =>
    exact w.advance hx (by simp) rfl (fun _ h => h) (fun _ h => h) (fun _ _ h => h) (fun _ h => h)
  | @close a stream es he =>
    have hp : x.phase.stream = some stream ∧ x.phase.kept = some stream := by
      cases he with
      | uploadFailed hp | localEnd hp | downloadFailed hp | ended hp | channelClosed hp =>
        rw [hp]
        exact ⟨rfl,rfl⟩
    exact w.advance hx (by simp [closeCall]) hp.1.symm (fun st hk => hp.2.trans hk) (by simp)
      (by simp) (by simp)

theorem of_eq (w : Wires t) {l : List (Call F)} (hc : t'.calls = t.calls ++ l)
    (hl : ∀ y ∈ l, y.method ≠ "proxy.stream.subscribe")
    (hconn : t'.connections = t.connections) (hs : t'.subscriptions = t.subscriptions)
    (ho : t.daemon.opened ⊆ t'.daemon.opened) : Wires t' :=
  w.of_le hc hl (fun _ x' hx => ⟨x',hconn ▸ hx,rfl⟩) (fun _ x hx => ⟨x,hconn ▸ hx,rfl⟩) hs ho

theorem connect (w : Wires t) (host : Text) (port : ℕ) :
    Wires { t.call (some t.connections.length) "proxy.open"
        [("host",.str host),("port",.num (.int port))] with
      connections := t.connections ++ [⟨.opening t.calls.length,[],[],[],none,none⟩] } := by
  have hin : ∀ {st : Text} {j : ℕ}, (∃ z, t.connections[j]? = some z ∧ z.phase.stream = some st ∧
      z.phase ≠ .opened st) → ∃ z, (t.connections ++
        [(⟨.opening t.calls.length,[],[],[],none,none⟩ : Connection F)])[j]? = some z ∧
      z.phase.stream = some st ∧ z.phase ≠ .opened st := by
    rintro st j ⟨z,hz,h⟩
    exact ⟨z,getElem?_append_of_eq_some hz,h⟩
  refine ⟨fun j z c hz hq => ?_,fun j z st hz hst => ?_,fun j z st c hz hq => ?_,
    fun c z hz hm => ?_,fun j z st hz hk => ?_,fun st j hl => hin (w.subs st j hl)⟩
  · rcases getElem?_append_one hz with hz | ⟨rfl,rfl⟩
    · obtain ⟨y,hy,ho⟩ := w.opening j z c hz hq
      exact ⟨y,getElem?_append_of_eq_some hy,ho⟩
    · cases hq
      exact ⟨_,List.getElem?_concat_length,rfl,rfl⟩
  · rcases getElem?_append_one hz with hz | ⟨rfl,rfl⟩
    · obtain ⟨c,y,hy,ho⟩ := w.stream j z st hz hst
      exact ⟨c,y,getElem?_append_of_eq_some hy,ho⟩
    · cases hst
  · rcases getElem?_append_one hz with hz | ⟨rfl,rfl⟩
    · exact getElem?_append_of_eq_some (w.subscribing j z st c hz hq)
    · cases hq
  · rcases getElem?_append_one hz with hz | ⟨rfl,rfl⟩
    · obtain ⟨j,st,z',he,h⟩ := w.subscribed c z hz hm
      obtain ⟨z'',h⟩ := hin ⟨z',h⟩
      exact ⟨j,st,z'',he,h⟩
    · exact absurd hm (by simp)
  · rcases getElem?_append_one hz with hz | ⟨rfl,rfl⟩
    · exact w.kept j z st hz hk
    · cases hk

theorem deliver (w : Wires t) (m : Incoming F) : Wires (t.deliver m) := by
  have hnil : t.calls = t.calls ++ [] := (List.append_nil _).symm
  cases m with
  | skip => exact w
  | response id r =>
    rw [Tunnel.deliver]
    split
    · exact w.of_eq hnil (by simp) rfl rfl (fun _ h => h)
    · exact w
  | event e =>
    rw [Tunnel.deliver]
    split
    · refine w.of_le hnil (by simp) (fun j z hz => ?_) (fun j z hz => ?_) rfl (fun _ h => h)
      · obtain ⟨z₀,hz₀,⟨-,rfl⟩ | ⟨-,rfl⟩⟩ := getElem?_modify_cases hz
        · exact ⟨z₀,hz₀,rfl⟩
        · exact ⟨z,hz₀,rfl⟩
      · simp only [List.getElem?_modify,hz]
        exact ⟨_,rfl,by split <;> rfl⟩
    · exact w

theorem step (w : Wires t) (h : Talk t) {a : Act F} (hs : Step trunc t a t') : Wires t' := by
  have hnil : t.calls = t.calls ++ [] := (List.append_nil _).symm
  cases hs with
  | serve ha hc hx hd => exact w.of_eq hnil (by simp) rfl rfl (Daemon.grows_of_step hd).opened
  | lose hc hd => exact w.of_eq hnil (by simp) rfl rfl (Daemon.grows_of_step hd).opened
  | daemon ho hd => exact w.of_eq hnil (by simp) rfl rfl (Daemon.grows_of_step hd).opened
  | connect host port => exact w.connect host port
  | foreign ho hs => exact w.of_eq rfl (by simpa using hs) rfl rfl (fun _ h => h)
  | send | sendFailed | timeout | die | eof => exact w.of_eq hnil (by simp) rfl rfl (fun _ h => h)
  | turn ha hx ht => exact w.turn h hx ht
  | @route f hst hf =>
    have hw := w.deliver (Incoming.ofObject f.toJson)
    exact ⟨hw.opening,hw.stream,hw.subscribing,hw.subscribed,hw.kept,hw.subs⟩

end Wires

end Tunnel

end Limux
