import Limux.Tunnel

/-! The steps of the tunnel as a relation. -/
namespace Limux

open Machine

namespace Tunnel

variable {F : Type}

def closeCall (k : ℕ) (stream : Text) : Call F :=
  ⟨some k,"proxy.close",[("stream_id",.str stream)]⟩

def subscribeCall (k : ℕ) (stream : Text) : Call F :=
  ⟨some k,"proxy.stream.subscribe",[("stream_id",.str stream)]⟩

/-- Why `select!` ends, and what is left in the channel then. -/
inductive Ends (t : Tunnel F) (k : ℕ) (x : Connection F) (stream : Text) :
    Act F → List (StreamEvent F) → Prop
  | uploadFailed {c : CallIx} {e : RpcError} (hp : x.phase = .bridging stream (some c))
      (hr : t.replies c = some (.error e)) : Ends t k x stream (.resume k) x.channel
  | localEnd (hp : x.phase = .bridging stream none) : Ends t k x stream (.localEnd k) x.channel
  | downloadFailed {u : Option CallIx} (hp : x.phase = .bridging stream u) (hw : x.writing ≠ []) :
      Ends t k x stream (.downloadFailed k) x.channel
  | ended {u : Option CallIx} {e : StreamEvent F} {es : List (StreamEvent F)}
      (hp : x.phase = .bridging stream u) (hw : x.writing = []) (hc : x.channel = e :: es)
      (hd : e.event ≠ "proxy.stream.data".toList)
      (he : e.event = "proxy.stream.eof".toList ∨ e.event = "proxy.stream.close".toList) :
      Ends t k x stream (.receive k) es
  | channelClosed {u : Option CallIx} (hp : x.phase = .bridging stream u) (hw : x.writing = [])
      (hc : x.channel = []) (hs : t.subscriptions.lookup stream ≠ some k) :
      Ends t k x stream (.receive k) x.channel

/-- A step of a connection: the call that it makes, the subscriptions and the connection
after it. -/
inductive Turn (t : Tunnel F) (k : ℕ) (x : Connection F) :
    Act F → Option (Call F) → HashMap Text ℕ → Connection F → Prop
  | opened {c : CallIx} {v : Json F} {stream : Text} (hp : x.phase = .opening c)
      (hr : t.replies c = some (.ok v)) (hv : v.getStr "stream_id" = some stream) :
      Turn t k x (.resume k) none t.subscriptions { x with phase := .opened stream }
  | notOpened {c : CallIx} {r : RpcResult F} (hp : x.phase = .opening c)
      (hr : t.replies c = some r) (hv : ∀ v st, r = .ok v → v.getStr "stream_id" ≠ some st) :
      Turn t k x (.resume k) none t.subscriptions { x with phase := .returned none }
  | subscribe {stream : Text} (hp : x.phase = .opened stream) :
      Turn t k x (.subscribe k) (some (subscribeCall k stream)) (t.subscriptions.insert stream k)
        { x with phase := .subscribing stream t.calls.length }
  | subscribed {stream : Text} {c : CallIx} {v : Json F} (hp : x.phase = .subscribing stream c)
      (hr : t.replies c = some (.ok v)) :
      Turn t k x (.resume k) none t.subscriptions
        { x with phase := .replying stream, subscribeOk := some true }
  | refused {stream : Text} {c : CallIx} {e : RpcError} (hp : x.phase = .subscribing stream c)
      (hr : t.replies c = some (.error e)) :
      Turn t k x (.resume k) none t.subscriptions
        { x with phase := .returned (some stream), subscribeOk := some false }
  | replied {stream : Text} (hp : x.phase = .replying stream) :
      Turn t k x (.reply k true) none t.subscriptions
        { x with phase := .bridging stream none, replyOk := some true }
  | unreplied {stream : Text} (hp : x.phase = .replying stream) :
      Turn t k x (.reply k false) none t.subscriptions
        { x with phase := .returned (some stream), replyOk := some false }
  | upload {stream : Text} {data : List UInt8} (hp : x.phase = .bridging stream none) :
      Turn t k x (.upload k data) (some ⟨some k,"proxy.write",
          [("data_base64",.str (Base64.encode data)),("stream_id",.str stream)]⟩) t.subscriptions
        { x with phase := .bridging stream (some t.calls.length) }
  | uploaded {stream : Text} {c : CallIx} {v : Json F} (hp : x.phase = .bridging stream (some c))
      (hr : t.replies c = some (.ok v)) :
      Turn t k x (.resume k) none t.subscriptions { x with phase := .bridging stream none }
  | chunk {stream : Text} {u : Option CallIx} {e : StreamEvent F} {es : List (StreamEvent F)}
      (hp : x.phase = .bridging stream u) (hw : x.writing = []) (hc : x.channel = e :: es)
      (he : e.event = "proxy.stream.data".toList) :
      Turn t k x (.receive k) none t.subscriptions
        { x with channel := es, writing := payload e }
  | ignored {stream : Text} {u : Option CallIx} {e : StreamEvent F} {es : List (StreamEvent F)}
      (hp : x.phase = .bridging stream u) (hw : x.writing = []) (hc : x.channel = e :: es)
      (hd : e.event ≠ "proxy.stream.data".toList) (he : e.event ≠ "proxy.stream.eof".toList)
      (hcl : e.event ≠ "proxy.stream.close".toList) :
      Turn t k x (.receive k) none t.subscriptions { x with channel := es }
  | download {stream : Text} {u : Option CallIx} {n : ℕ} (hp : x.phase = .bridging stream u) :
      Turn t k x (.download k n) none t.subscriptions
        { x with writing := x.writing.drop n, written := x.written ++ x.writing.take n }
  | close {a : Act F} {stream : Text} {es : List (StreamEvent F)} (he : Ends t k x stream a es) :
      Turn t k x a (some (closeCall k stream)) t.subscriptions
        { x with channel := es, phase := .closing stream t.calls.length }
  | closed {stream : Text} {c : CallIx} {r : RpcResult F} (hp : x.phase = .closing stream c)
      (hr : t.replies c = some r) :
      Turn t k x (.resume k) none t.subscriptions { x with phase := .unsubscribing stream }
  | unsubscribed {stream : Text} (hp : x.phase = .unsubscribing stream) :
      Turn t k x (.unsubscribe k) none (t.subscriptions.erase stream)
        { x with phase := .returned (some stream) }

/-- The state after a step of a connection. -/
def place (t : Tunnel F) : Option (Call F) → Tunnel F
  | none => t
  | some y => t.call y.owner y.method y.params

def turn (t : Tunnel F) (k : ℕ) (y : Option (Call F)) (subs : HashMap Text ℕ) (x : Connection F) :
    Tunnel F :=
  { t.place y with connections := t.connections.set k x, subscriptions := subs }

variable {trunc : F → Option ℤ} {t t' : Tunnel F}

theorem turn_of_step {k : ℕ} {x : Connection F} {a : Act F} (ha : a.connection = some k)
    (hs : t.stepConnection k x a = some t') :
    ∃ y subs x', Turn t k x a y subs x' ∧ t' = t.turn k y subs x' := by
  cases a with
  | resume k' =>
    cases ha
    simp only [stepConnection,Option.bind_eq_bind,Option.bind_eq_some_iff] at hs
    obtain ⟨c,hc,r,hr,hs⟩ := hs
    cases hs
    cases hp : x.phase with
    | opening c' =>
      cases hp ▸ hc
      cases r with
      | error e => exact ⟨_,_,_,.notOpened hp hr (by simp),by simp only [resume,hp]; rfl⟩
      | ok v =>
        cases hv : v.getStr "stream_id" with
        | none =>
          refine ⟨_,_,_,.notOpened hp hr (fun w st hw => ?_),by simp only [resume,hp,hv]; rfl⟩
          cases hw
          simp [hv]
        | some stream => exact ⟨_,_,_,.opened hp hr hv,by simp only [resume,hp,hv]; rfl⟩
    | subscribing stream c' =>
      cases hp ▸ hc
      cases r with
      | error e => exact ⟨_,_,_,.refused hp hr,by simp only [resume,hp]; rfl⟩
      | ok v => exact ⟨_,_,_,.subscribed hp hr,by simp only [resume,hp]; rfl⟩
    | bridging stream u =>
      cases hp ▸ hc
      cases r with
      | error e => exact ⟨_,_,_,.close (.uploadFailed hp hr),by simp only [resume,hp]; rfl⟩
      | ok v => exact ⟨_,_,_,.uploaded hp hr,by simp only [resume,hp]; rfl⟩
    | closing stream c' =>
      cases hp ▸ hc
      exact ⟨_,_,_,.closed hp hr,by simp only [resume,hp]; rfl⟩
    | opened | replying | unsubscribing | returned =>
      rw [hp] at hc
      cases hc
  | subscribe k' =>
    cases ha
    simp only [stepConnection] at hs
    split at hs
    · cases hs
      exact ⟨_,_,_,.subscribe ‹_›,rfl⟩
    · cases hs
  | reply k' ok =>
    cases ha
    simp only [stepConnection] at hs
    split at hs
    · cases hs
      cases ok with
      | true => exact ⟨_,_,_,.replied ‹_›,rfl⟩
      | false => exact ⟨_,_,_,.unreplied ‹_›,rfl⟩
    · cases hs
  | upload k' data =>
    cases ha
    simp only [stepConnection] at hs
    split at hs
    · obtain ⟨-,hs⟩ := Option.ite_none_right_eq_some.mp hs
      cases hs
      exact ⟨_,_,_,.upload ‹_›,rfl⟩
    · cases hs
  | localEnd k' =>
    cases ha
    simp only [stepConnection] at hs
    split at hs
    · cases hs
      exact ⟨_,_,_,.close (.localEnd ‹_›),rfl⟩
    · cases hs
  | receive k' =>
    cases ha
    simp only [stepConnection] at hs
    split at hs
    · rename_i stream u hp hw
      unfold receive at hs
      split at hs
      · rename_i e es hc
        split at hs
        · cases hs
          exact ⟨_,_,_,.chunk hp hw hc ‹_›,rfl⟩
        · split at hs
          · cases hs
            exact ⟨_,_,_,.close (.ended hp hw hc ‹_› ‹_›),rfl⟩
          · rename_i hn
            cases hs
            exact ⟨_,_,_,.ignored hp hw hc ‹_› (fun h => hn (.inl h)) (fun h => hn (.inr h)),rfl⟩
      · rename_i hc
        split at hs
        · cases hs
        · cases hs
          exact ⟨_,_,_,.close (.channelClosed hp hw hc ‹_›),rfl⟩
    · cases hs
  | download k' n =>
    cases ha
    simp only [stepConnection] at hs
    split at hs
    · obtain ⟨-,hs⟩ := Option.ite_none_right_eq_some.mp hs
      cases hs
      exact ⟨_,_,_,.download ‹_›,rfl⟩
    · cases hs
  | downloadFailed k' =>
    cases ha
    simp only [stepConnection] at hs
    split at hs
    · obtain ⟨hw,hs⟩ := Option.ite_none_left_eq_some.mp hs
      cases hs
      exact ⟨_,_,_,.close (.downloadFailed ‹_› hw),rfl⟩
    · cases hs
  | unsubscribe k' =>
    cases ha
    simp only [stepConnection] at hs
    split at hs
    · cases hs
      exact ⟨_,_,_,.unsubscribed ‹_›,rfl⟩
    · cases hs
  | _ => cases ha

/-- One step, with what enables it. -/
inductive Step (trunc : F → Option ℤ) (t : Tunnel F) : Act F → Tunnel F → Prop
  | serve {c : CallIx} {x : Call F} {d : Daemon F} (ha : t.alive = true)
      (hc : t.sent[t.served]? = some c) (hx : t.calls[c]? = some x)
      (hd : Daemon.step trunc t.daemon (.request (x.request c)) = some d) :
      Step trunc t .serve { t with daemon := d, served := t.served+1 }
  | lose {message : Text} {c : CallIx} {d : Daemon F} (hc : t.sent[t.served]? = some c)
      (hd : Daemon.step trunc t.daemon (.refuse message) = some d) :
      Step trunc t (.lose message) { t with daemon := d, served := t.served+1 }
  | daemon {a : Daemon.Act F} {d : Daemon F} (ho : t.ownStep a = true)
      (hd : Daemon.step trunc t.daemon a = some d) : Step trunc t (.daemon a) { t with daemon := d }
  | connect (host : Text) (port : ℕ) : Step trunc t (.connect host port)
      { t.call (some t.connections.length) "proxy.open"
          [("host",.str host),("port",.num (.int port))] with
        connections := t.connections ++ [⟨.opening t.calls.length,[],[],[],none,none⟩] }
  | foreign {method : String} {params : List (String × Json F)} (ho : method ≠ "proxy.open")
      (hs : method ≠ "proxy.stream.subscribe") :
      Step trunc t (.foreign method params) (t.call none method params)
  | send {c : CallIx} (hc : t.current c = true) (hn : c ∉ t.sent) (hr : t.replies c = none) :
      Step trunc t (.send c) { t with sent := t.sent ++ [c] }
  | sendFailed {c : CallIx} (hc : t.current c = true) (ha : t.alive = false) :
      Step trunc t (.sendFailed c) (t.setReply c (.error .io))
  | timeout {c : CallIx} (hc : t.current c = true) (hm : c ∈ t.sent) (hr : t.replies c = none) :
      Step trunc t (.timeout c)
        { t.setReply c (.error .timeout) with pending := t.pending.erase (c+1) }
  | turn {a : Act F} {k : ℕ} {x x' : Connection F} {y : Option (Call F)} {subs : HashMap Text ℕ}
      (ha : a.connection = some k) (hx : t.connections[k]? = some x)
      (ht : Turn t k x a y subs x') : Step trunc t a (t.turn k y subs x')
  | route {f : Frame F} (hst : t.stopped = false) (hf : t.daemon.out[t.read]? = some f) :
      Step trunc t .route { t.deliver (Incoming.ofObject f.toJson) with read := t.read+1 }
  | die : Step trunc t .die { t with alive := false }
  | eof (ha : t.alive = false) : Step trunc t .eof { t.drainPending with stopped := true }

theorem step_sound {a : Act F} (hs : step trunc t a = some t') : Step trunc t a t' := by
  unfold step at hs
  split at hs
  · rename_i k ha
    obtain ⟨x,hx,hs⟩ := Option.bind_eq_some_iff.mp hs
    obtain ⟨y,subs,x',ht,rfl⟩ := turn_of_step ha hs
    exact .turn ha hx ht
  · cases a with
    | serve =>
      simp only [stepShared,take,Option.bind_eq_bind,Option.bind_eq_some_iff] at hs
      obtain ⟨c,hc,x,hx,hs⟩ := hs
      obtain ⟨ha,hs⟩ := Option.ite_none_right_eq_some.mp hs
      obtain ⟨d,hd,rfl⟩ := Option.map_eq_some_iff.mp hs
      exact .serve ha hc hx hd
    | lose message =>
      simp only [stepShared,take,Option.bind_eq_some_iff] at hs
      obtain ⟨c,hc,hs⟩ := hs
      obtain ⟨-,hs⟩ := Option.ite_none_right_eq_some.mp hs
      obtain ⟨d,hd,rfl⟩ := Option.map_eq_some_iff.mp hs
      exact .lose hc hd
    | daemon a =>
      obtain ⟨ho,hs⟩ := Option.ite_none_right_eq_some.mp hs
      obtain ⟨d,hd,rfl⟩ := Option.map_eq_some_iff.mp hs
      exact .daemon ho hd
    | connect host port =>
      cases hs
      exact .connect host port
    | foreign method params =>
      obtain ⟨hn,hs⟩ := Option.ite_none_left_eq_some.mp hs
      cases hs
      exact .foreign (fun h => hn (.inl h)) (fun h => hn (.inr h))
    | send c =>
      obtain ⟨⟨hc,hn,hr⟩,hs⟩ := Option.ite_none_right_eq_some.mp hs
      cases hs
      exact .send hc hn (by simpa using hr)
    | sendFailed c =>
      obtain ⟨⟨hc,-,ha⟩,hs⟩ := Option.ite_none_right_eq_some.mp hs
      cases hs
      exact .sendFailed hc (by simpa using ha)
    | timeout c =>
      obtain ⟨⟨hc,hm,hr⟩,hs⟩ := Option.ite_none_right_eq_some.mp hs
      cases hs
      exact .timeout hc hm (by simpa using hr)
    | route =>
      obtain ⟨hst,hs⟩ := Option.ite_none_left_eq_some.mp hs
      obtain ⟨f,hf,rfl⟩ := Option.map_eq_some_iff.mp hs
      exact .route (by simpa using hst) hf
    | die =>
      cases hs
      exact .die
    | eof =>
      obtain ⟨hn,hs⟩ := Option.ite_none_left_eq_some.mp hs
      cases hs
      exact .eof (by simpa using fun h => hn (.inl h))
    | resume | subscribe | reply | upload | localEnd | receive | download | downloadFailed
    | unsubscribe => cases hs

end Tunnel

end Limux
