import Limux.Lib.Machine
import Limux.Lib.HashMap
import Limux.Lib.Json
import Limux.Lib.Lines

/-! The RPC client over the stdio of an ssh process (`app/src/remote/rpc.rs`): calls that
share one stdin, the pending map, the subscriptions, and the reader task. A step is what
a task does between two awaits; a call future may be dropped at each of them. -/
namespace Limux

/-- `serde_json` on both sides. Its compact output has no line break. -/
structure RpcEnv (F : Type) where
  parse : Text → Option (Json F)
  render : Json F → List UInt8
  render_clean : ∀ j, 10 ∉ render j

inductive RpcError
  | processDied (s : String)
  | timeout
  | remote (s : Text)
  | io
  deriving DecidableEq, Repr

abbrev RpcResult (F : Type) := Except RpcError (Json F)

structure StreamEvent (F : Type) where
  streamId : Text
  event : Text
  data : Json F

inductive Incoming (F : Type)
  | skip
  | response (id : ℕ) (result : RpcResult F)
  | event (e : StreamEvent F)

namespace Incoming

variable {F : Type}

def resultOf (obj : Json F) : RpcResult F :=
  match obj.get "error" with
  | some err => .error (.remote ((err.getStr "message").getD "unknown error".toList))
  | none => .ok ((obj.get "result").getD .null)

/-- A member `id` makes a line a response, a member `event` an event. -/
def ofObject (obj : Json F) : Incoming F :=
  match (obj.get "id").bind Json.asU64 with
  | some id => .response id (resultOf obj)
  | none =>
    match obj.getStr "event" with
    | some name => .event ⟨(obj.getStr "stream_id").getD [],name,obj⟩
    | none => .skip

def ofLine (env : RpcEnv F) (line : Text) : Incoming F :=
  let trimmed := Text.trim line
  if trimmed = [] then .skip else (env.parse trimmed).elim .skip ofObject

end Incoming

namespace Rpc

abbrev CallIx := ℕ
abbrev ChannelIx := ℕ

/-- What a oneshot channel was sent, with the number of the line it came in; none if
the reader sent it at the end of its input. -/
structure Reply (F : Type) where
  result : RpcResult F
  line : Option ℕ

/-- Where a call waits: for the pending map, for stdin, for the pipe to take the rest
of its line, for the reply, for the pending map after its time is up. -/
inductive CallPhase (F : Type)
  | registering
  | locking
  | writing (rest : List UInt8)
  | awaiting
  | expiring
  | returned (r : RpcResult F)
  | dropped

structure Call (F : Type) where
  id : ℕ
  line : List UInt8
  phase : CallPhase F
  reply : Option (Reply F)

/-- The reader task: in `read_line`, before the lock that a line needs, before the lock
of the drain, ended. -/
inductive Reader (F : Type)
  | reading
  | routing (n : ℕ) (m : Incoming F)
  | draining
  | stopped

end Rpc

open Rpc

structure Rpc (F : Type) where
  nextId : ℕ
  calls : List (Call F)
  /-- Ids with the call that waits for the reply. -/
  pending : HashMap ℕ CallIx
  /-- Holder of the stdin lock. -/
  stdin : Option CallIx
  /-- Bytes the pipe has taken. -/
  wire : List UInt8
  /-- The other end of the pipe is closed; a write fails. -/
  broken : Bool
  reader : Reader F
  /-- Lines read so far. -/
  received : List Text
  subscriptions : HashMap Text ChannelIx
  /-- Events sent on each channel. -/
  channels : List (List (StreamEvent F))

namespace Rpc

variable {F : Type}

def init : Rpc F := ⟨1,[],∅,none,[],false,.reading,[],∅,[]⟩

def request (id : ℕ) (method : Text) (params : Json F) : Json F :=
  .obj [("id",.num (.int id)),("jsonrpc",.str "2.0".toList),("method",.str method),
    ("params",params)]

inductive Act (F : Type)
  | call (method : Text) (params : Json F)
  | register (k : CallIx)
  | lock (k : CallIx)
  /-- The pipe takes some bytes of the line, `write_all` is done, or the write fails. -/
  | write (k : CallIx) (n : ℕ)
  | flush (k : CallIx)
  | fail (k : CallIx)
  | finish (k : CallIx)
  | timeout (k : CallIx)
  | expire (k : CallIx)
  | drop (k : CallIx)
  | breakPipe
  | receive (line : Text)
  | route
  | eof
  | drain
  | subscribe (stream : Text)
  | unsubscribe (stream : Text)

def setPhase (s : Rpc F) (k : CallIx) (p : CallPhase F) : Rpc F :=
  { s with calls := s.calls.modify k (fun x => { x with phase := p }) }

/-- `tx.send`; nobody may be listening any more. -/
def send (s : Rpc F) (k : CallIx) (r : Reply F) : Rpc F :=
  { s with calls := s.calls.modify k (fun x => { x with reply := some r }) }

def unlock (s : Rpc F) (k : CallIx) : Rpc F :=
  if s.stdin = some k then { s with stdin := none } else s

/-- What the reader does with the lock of the map it needs. -/
def deliver (s : Rpc F) (n : ℕ) : Incoming F → Rpc F
  | .skip => s
  | .response id result =>
    match s.pending.lookup id with
    | some k => { s.send k ⟨result,some n⟩ with pending := s.pending.erase id }
    | none => s
  | .event e =>
    match s.subscriptions.lookup e.streamId with
    | some c => { s with channels := s.channels.modify c (· ++ [e]) }
    | none => s

/-- Every pending call is told that the process died. -/
def drainPending (s : Rpc F) : Rpc F :=
  { s with
    calls := s.calls.mapIdx (fun k x =>
      if k ∈ s.pending.values then
        { x with reply := some ⟨.error (.processDied "SSH process exited"),none⟩ } else x)
    pending := ∅ }

def step (env : RpcEnv F) (s : Rpc F) : Act F → Option (Rpc F)
  | .call method params => some { s with
      nextId := s.nextId+1
      calls := s.calls ++
        [⟨s.nextId,env.render (request s.nextId method params) ++ [10],.registering,none⟩] }
  | .register k => s.calls[k]?.bind (fun x =>
      match x.phase with
      | .registering => some { s.setPhase k .locking with pending := s.pending.insert x.id k }
      | _ => none)
  | .lock k => s.calls[k]?.bind (fun x =>
      match x.phase, s.stdin with
      | .locking, none => some { s.setPhase k (.writing x.line) with stdin := some k }
      | _, _ => none)
  | .write k n => s.calls[k]?.bind (fun x =>
      match x.phase with
      | .writing rest =>
        if ¬ s.broken ∧ 0 < n ∧ n ≤ rest.length then
          some { s.setPhase k (.writing (rest.drop n)) with wire := s.wire ++ rest.take n }
        else none
      | _ => none)
  | .flush k => s.calls[k]?.bind (fun x =>
      match x.phase with
      | .writing [] => some ((s.setPhase k .awaiting).unlock k)
      | _ => none)
  | .fail k => s.calls[k]?.bind (fun x =>
      match x.phase with
      | .writing (_ :: _) =>
        if s.broken then some ((s.setPhase k (.returned (.error .io))).unlock k) else none
      | _ => none)
  | .finish k => s.calls[k]?.bind (fun x =>
      match x.phase, x.reply with
      | .awaiting, some r => some (s.setPhase k (.returned r.result))
      | _, _ => none)
  | .timeout k => s.calls[k]?.bind (fun x =>
      match x.phase, x.reply with
      | .awaiting, none => some (s.setPhase k .expiring)
      | _, _ => none)
  | .expire k => s.calls[k]?.bind (fun x =>
      match x.phase with
      | .expiring => some { s.setPhase k (.returned (.error .timeout)) with
          pending := s.pending.erase x.id }
      | _ => none)
  | .drop k => s.calls[k]?.bind (fun x =>
      match x.phase with
      | .returned _ | .dropped => none
      | _ => some ((s.setPhase k .dropped).unlock k))
  | .breakPipe => some { s with broken := true }
  | .receive line =>
    match s.reader with
    | .reading => some { s with
        received := s.received ++ [line]
        reader := .routing s.received.length (Incoming.ofLine env line) }
    | _ => none
  | .route =>
    match s.reader with
    | .routing n m => some { s.deliver n m with reader := .reading }
    | _ => none
  | .eof =>
    match s.reader with
    | .reading => some { s with reader := .draining }
    | _ => none
  | .drain =>
    match s.reader with
    | .draining => some { s.drainPending with reader := .stopped }
    | _ => none
  | .subscribe stream => some { s with
      subscriptions := s.subscriptions.insert stream s.channels.length
      channels := s.channels ++ [[]] }
  | .unsubscribe stream => some { s with subscriptions := s.subscriptions.erase stream }

end Rpc

end Limux
