import Limux.Daemon
import Limux.Rpc

/-! The proxy tunnel end to end: connections bridged by `handle_connection`
(`app/src/remote/proxy_tunnel.rs`), the RPC client they share, the daemon. Calls go by
whole messages here: a request line is written at once, and a line that a dropped call
tore is one the daemon refuses. -/
namespace Limux

namespace Tunnel

abbrev CallIx := ℕ

structure Call (F : Type) where
  /-- The connection that made it, if it was one. -/
  owner : Option ℕ
  method : String
  params : List (String × Json F)

/-- Where a connection is in `handle_connection`, from `proxy.open` on: in its calls, before
`rpc.subscribe`, before the success reply, in `select!` with the `proxy.write` of the one
direction, before `rpc.unsubscribe`. -/
inductive Phase
  | opening (c : CallIx)
  | opened (stream : Text)
  | subscribing (stream : Text) (c : CallIx)
  | replying (stream : Text)
  | bridging (stream : Text) (upload : Option CallIx)
  | closing (stream : Text) (c : CallIx)
  | unsubscribing (stream : Text)
  | returned (stream : Option Text)
  deriving DecidableEq

structure Connection (F : Type) where
  phase : Phase
  /-- Events that wait in `event_rx`. -/
  channel : List (StreamEvent F)
  /-- What `write_all` has still to write of a chunk. -/
  writing : List UInt8
  /-- Bytes the client got after the success reply. -/
  written : List UInt8
  /-- How `proxy.stream.subscribe` and the success reply went. -/
  subscribeOk : Option Bool
  replyOk : Option Bool

end Tunnel

open Tunnel

structure Tunnel (F : Type) where
  daemon : Daemon F
  /-- Calls so far; the id of a request is the place of its call, from 1 on. -/
  calls : List (Call F)
  /-- What the oneshot channel of a call was sent. -/
  replies : CallIx → Option (RpcResult F)
  pending : HashMap ℕ CallIx
  subscriptions : HashMap Text ℕ
  connections : List (Connection F)
  /-- Requests written to stdin, and how many of them the daemon has read. -/
  sent : List CallIx
  served : ℕ
  /-- Frames the reader task has read. -/
  read : ℕ
  stopped : Bool
  /-- The ssh connection is there. -/
  alive : Bool

namespace Tunnel

variable {F : Type}

def init : Tunnel F := ⟨.init,[],fun _ => none,∅,∅,[],[],0,0,false,true⟩

def requestId (c : CallIx) : Json F := .num (.int (c+1))

def Call.request (x : Call F) (c : CallIx) : RpcRequest F := ⟨requestId c,x.method.toList,x.params⟩

/-- `rpc.call`, up to the line that it writes. -/
def call (t : Tunnel F) (owner : Option ℕ) (method : String) (params : List (String × Json F)) :
    Tunnel F :=
  { t with
    calls := t.calls ++ [⟨owner,method,params⟩]
    pending := t.pending.insert (t.calls.length+1) t.calls.length }

def setConnection (t : Tunnel F) (k : ℕ) (x : Connection F) : Tunnel F :=
  { t with connections := t.connections.set k x }

def goto (t : Tunnel F) (k : ℕ) (x : Connection F) (p : Phase) : Tunnel F :=
  t.setConnection k { x with phase := p }

def setReply (t : Tunnel F) (c : CallIx) (r : RpcResult F) : Tunnel F :=
  { t with replies := fun d => (t.replies d).or (if d = c then some r else none) }

/-- The cleanup after `select!`. -/
def close (t : Tunnel F) (k : ℕ) (x : Connection F) (stream : Text) : Tunnel F :=
  (t.call (some k) "proxy.close" [("stream_id",.str stream)]).goto k x (.closing stream t.calls.length)

def resume (t : Tunnel F) (k : ℕ) (x : Connection F) (r : RpcResult F) : Tunnel F :=
  match x.phase with
  | .opening _ =>
    match r with
    | .ok v =>
      match v.getStr "stream_id" with
      | some stream => t.goto k x (.opened stream)
      | none => t.goto k x (.returned none)
    | .error _ => t.goto k x (.returned none)
  | .subscribing stream _ =>
    match r with
    | .ok _ => t.setConnection k { x with phase := .replying stream, subscribeOk := some true }
    | .error _ =>
      t.setConnection k { x with phase := .returned (some stream), subscribeOk := some false }
  | .bridging stream _ =>
    match r with
    | .ok _ => t.goto k x (.bridging stream none)
    | .error _ => t.close k x stream
  | .closing stream _ => t.goto k x (.unsubscribing stream)
  | _ => t

def Phase.call : Phase → Option CallIx
  | .opening c | .subscribing _ c | .closing _ c => some c
  | .bridging _ upload => upload
  | _ => none

/-- The call was not dropped with the direction that made it. -/
def current (t : Tunnel F) (c : CallIx) : Bool :=
  match t.calls[c]? with
  | some ⟨some k,_,_⟩ => (t.connections[k]?.bind (fun x => x.phase.call)) = some c
  | some ⟨none,_,_⟩ => true
  | none => false

def payload (e : StreamEvent F) : List UInt8 :=
  ((e.data.getStr "data_base64").bind (Base64.decode true)).getD []

/-- One turn of `remote_to_local`. The channel is closed when nothing sends to it. -/
def receive (t : Tunnel F) (k : ℕ) (x : Connection F) (stream : Text) : Option (Tunnel F) :=
  match x.channel with
  | e :: channel =>
    if e.event = "proxy.stream.data".toList then
      some (t.setConnection k { x with channel := channel, writing := payload e })
    else if e.event = "proxy.stream.eof".toList ∨ e.event = "proxy.stream.close".toList then
      some (t.close k { x with channel := channel } stream)
    else some (t.setConnection k { x with channel := channel })
  | [] => if t.subscriptions.lookup stream = some k then none else some (t.close k x stream)

def deliver (t : Tunnel F) : Incoming F → Tunnel F
  | .skip => t
  | .response id r =>
    match t.pending.lookup id with
    | some c => { t.setReply c r with pending := t.pending.erase id }
    | none => t
  | .event e =>
    match t.subscriptions.lookup e.streamId with
    | some k => { t with connections := t.connections.modify k (fun x =>
        { x with channel := x.channel ++ [e] }) }
    | none => t

def drainPending (t : Tunnel F) : Tunnel F :=
  { t with
    replies := fun c => (t.replies c).or (if c ∈ t.pending.values then
      some (.error (.processDied "SSH process exited")) else none)
    pending := ∅ }

inductive Act (F : Type)
  /-- The daemon reads a request, or refuses a line; any other step of it. -/
  | serve
  | lose (message : Text)
  | daemon (a : Daemon.Act F)
  /-- A handshake is over. -/
  | connect (host : Text) (port : ℕ)
  /-- A call of anyone else. -/
  | foreign (method : String) (params : List (String × Json F))
  | send (c : CallIx)
  | sendFailed (c : CallIx)
  | timeout (c : CallIx)
  | resume (k : ℕ)
  | subscribe (k : ℕ)
  | reply (k : ℕ) (ok : Bool)
  /-- The local client sends data or ends; it takes bytes or fails. -/
  | upload (k : ℕ) (data : List UInt8)
  | localEnd (k : ℕ)
  | receive (k : ℕ)
  | download (k : ℕ) (n : ℕ)
  | downloadFailed (k : ℕ)
  | unsubscribe (k : ℕ)
  | route
  | die
  | eof

/-- Steps of the daemon that are its own. It loses its input and output only with the
connection. -/
def ownStep (t : Tunnel F) : Daemon.Act F → Bool
  | .request _ | .refuse _ => false
  | .hangUp | .breakOutput => !t.alive
  | _ => true

/-- The daemon reads the next request; none gets through to it any more once the
connection is lost. -/
def take (trunc : F → Option ℤ) (t : Tunnel F) (a : Daemon.Act F) : Option (Tunnel F) :=
  if t.alive then
    (Daemon.step trunc t.daemon a).map (fun d => { t with daemon := d, served := t.served+1 })
  else none

def stepConnection (t : Tunnel F) (k : ℕ) (x : Connection F) : Act F → Option (Tunnel F)
  | .resume _ => do
    let c ← x.phase.call
    let r ← t.replies c
    some (t.resume k x r)
  | .subscribe _ =>
    match x.phase with
    | .opened stream =>
      let t' := t.call (some k) "proxy.stream.subscribe" [("stream_id",.str stream)]
      some { t'.goto k x (.subscribing stream t.calls.length) with
        subscriptions := t.subscriptions.insert stream k }
    | _ => none
  | .reply _ ok =>
    match x.phase with
    | .replying stream => some (t.setConnection k { x with
        phase := if ok then .bridging stream none else .returned (some stream)
        replyOk := some ok })
    | _ => none
  | .upload _ data =>
    match x.phase with
    | .bridging stream none =>
      if 0 < data.length ∧ data.length ≤ 16384 then
        let params := [("data_base64",.str (Base64.encode data)),("stream_id",.str stream)]
        some ((t.call (some k) "proxy.write" params).goto k x
          (.bridging stream (some t.calls.length)))
      else none
    | _ => none
  | .localEnd _ =>
    match x.phase with
    | .bridging stream none => some (t.close k x stream)
    | _ => none
  | .receive _ =>
    match x.phase, x.writing with
    | .bridging stream _, [] => t.receive k x stream
    | _, _ => none
  | .download _ n =>
    match x.phase with
    | .bridging _ _ =>
      if 0 < n ∧ n ≤ x.writing.length then
        some (t.setConnection k { x with
          writing := x.writing.drop n, written := x.written ++ x.writing.take n })
      else none
    | _ => none
  | .downloadFailed _ =>
    match x.phase with
    | .bridging stream _ => if x.writing = [] then none else some (t.close k x stream)
    | _ => none
  | .unsubscribe _ =>
    match x.phase with
    | .unsubscribing stream => some { t.goto k x (.returned (some stream)) with
        subscriptions := t.subscriptions.erase stream }
    | _ => none
  | _ => none

def Act.connection : Act F → Option ℕ
  | .resume k | .subscribe k | .reply k _ | .upload k _ | .localEnd k | .receive k | .download k _
  | .downloadFailed k | .unsubscribe k => some k
  | _ => none

def stepShared (trunc : F → Option ℤ) (t : Tunnel F) : Act F → Option (Tunnel F)
  | .serve => do
    let c ← t.sent[t.served]?
    let x ← t.calls[c]?
    t.take trunc (.request (x.request c))
  | .lose message => t.sent[t.served]?.bind (fun _ => t.take trunc (.refuse message))
  | .daemon a =>
    if t.ownStep a then (Daemon.step trunc t.daemon a).map (fun d => { t with daemon := d }) else none
  | .connect host port =>
    let params := [("host",.str host),("port",.num (.int port))]
    some { t.call (some t.connections.length) "proxy.open" params with
      connections := t.connections ++ [⟨.opening t.calls.length,[],[],[],none,none⟩] }
  | .foreign method params =>
    if method = "proxy.open" ∨ method = "proxy.stream.subscribe" then none
    else some (t.call none method params)
  | .send c =>
    if t.current c ∧ c ∉ t.sent ∧ (t.replies c).isNone then some { t with sent := t.sent ++ [c] }
    else none
  | .sendFailed c =>
    if t.current c ∧ c ∉ t.sent ∧ ¬ t.alive then some (t.setReply c (.error .io)) else none
  | .timeout c =>
    if t.current c ∧ c ∈ t.sent ∧ (t.replies c).isNone then
      some { t.setReply c (.error .timeout) with pending := t.pending.erase (c+1) }
    else none
  | .route =>
    if t.stopped then none
    else t.daemon.out[t.read]?.map (fun f =>
      { t.deliver (Incoming.ofObject f.toJson) with read := t.read+1 })
  | .die => some { t with alive := false }
  | .eof => if t.alive ∨ t.stopped then none else some { t.drainPending with stopped := true }
  | _ => none

def step (trunc : F → Option ℤ) (t : Tunnel F) (a : Act F) : Option (Tunnel F) :=
  match a.connection with
  | some k => t.connections[k]?.bind (fun x => t.stepConnection k x a)
  | none => t.stepShared trunc a

end Tunnel

end Limux
