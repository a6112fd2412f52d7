import Limux.Lib.Machine
import Limux.Lib.HashMap
import Limux.Lib.Json
import Limux.Lib.Base64
import Limux.Lib.Number

/-! The proxy streams of the remote daemon (`daemon/remote/cmd/limuxd-remote/main.go`): the
request loop, the table `streams`, and a pump goroutine for each subscribed stream. A step
is what a goroutine does between two points where others can come in: a lock, a frame
written, a call on a connection. -/
namespace Limux

structure RpcRequest (F : Type) where
  id : Json F
  method : Text
  params : List (String × Json F)

structure RpcFault where
  code : String
  message : Text

structure RpcResponse (F : Type) where
  id : Json F
  result : Except RpcFault (Json F)

structure RpcEvent where
  event : String
  streamId : Text
  dataBase64 : Text
  error : Text
  deriving DecidableEq

inductive Frame (F : Type)
  | response (r : RpcResponse F)
  | event (e : RpcEvent)

namespace Frame

variable {F : Type}

def omitEmpty (k : String) (v : Text) : List (String × Json F) :=
  if v = [] then [] else [(k,.str v)]

/-- What `json.Marshal` makes of a frame. -/
def toJson : Frame F → Json F
  | response r => .obj ((match r.id with
      | .null => []
      | id => [("id",id)]) ++
      match r.result with
      | .ok result => [("ok",.bool true),("result",result)]
      | .error e => [("ok",.bool false),
          ("error",.obj [("code",.str e.code.toList),("message",.str e.message)])])
  | event e => .obj (("event",.str e.event.toList) :: omitEmpty "stream_id" e.streamId ++
      omitEmpty "data_base64" e.dataBase64 ++ omitEmpty "error" e.error)

end Frame

namespace RpcRequest

variable {F : Type}

def getStringParam (params : List (String × Json F)) (key : String) : Option Text :=
  (params.lookup key).bind Json.asStr

/-- A number that is an integer; `trunc` says which floats are. -/
def getIntParam (trunc : F → Option ℤ) (params : List (String × Json F)) (key : String) :
    Option ℤ :=
  match params.lookup key with
  | some (.num (.int n)) => some n
  | some (.num (.float x)) => trunc x
  | _ => none

def requireString (req : RpcRequest F) (key : String) : Option Text :=
  (getStringParam req.params key).filter (· ≠ [])

end RpcRequest

namespace RpcResponse

variable {F : Type}

def fault (id : Json F) (code : String) (message : Text) : RpcResponse F :=
  ⟨id,.error ⟨code,message⟩⟩

def success (id : Json F) (fields : List (String × Json F)) : RpcResponse F :=
  ⟨id,.ok (.obj fields)⟩

end RpcResponse

namespace RpcEvent

def data (stream : Text) (d : List UInt8) : RpcEvent :=
  ⟨"proxy.stream.data",stream,Base64.encode d,[]⟩

def eof (stream : Text) : RpcEvent := ⟨"proxy.stream.eof",stream,[],[]⟩

def failure (stream error : Text) : RpcEvent := ⟨"proxy.stream.error",stream,[],error⟩

/-- The last event of a stream: its end, or an error. -/
def ending (stream : Text) : Option Text → RpcEvent
  | none => eof stream
  | some error => failure stream error

def bytes (e : RpcEvent) : List UInt8 :=
  if e.event = "proxy.stream.data" then (Base64.decode true e.dataBase64).getD [] else []

def kind (stream : Text) (e : RpcEvent) : Prop :=
  (∃ d, e = data stream d) ∨ ∃ error, e = ending stream error

def terminal (e : RpcEvent) : Prop :=
  e.event = "proxy.stream.eof" ∨ e.event = "proxy.stream.error"

end RpcEvent

namespace Daemon

/-- A connection goes by the number of streams opened before it. -/
abbrev ConnIx := ℕ

structure StreamState where
  conn : ConnIx
  readerStarted : Bool
  deriving DecidableEq

inductive ReadError
  | eof
  | closed
  | other (message : Text)
  deriving DecidableEq

/-- Where a pump is: in `Read`, back from it, before a terminal event, before and in the
two halves of `dropStream`. -/
inductive PumpPhase
  | reading
  | got (data : List UInt8) (err : Option ReadError)
  | ending (error : Option Text)
  | dropping
  | closing (conn : ConnIx)
  | done
  deriving DecidableEq

structure Pump where
  stream : Text
  conn : ConnIx
  phase : PumpPhase
  /-- Bytes read so far. -/
  received : List UInt8

/-- Who removes a stream and closes its connection. -/
inductive Party
  | requestLoop
  | pump (k : ℕ)
  deriving DecidableEq

/-- Where the request loop is. -/
inductive Loop (F : Type)
  | reading
  | handling (req : RpcRequest F)
  | dialing (id : Json F) (host : Text) (port : ℤ)
  | dialed (id : Json F)
  | closing (conn : ConnIx) (resp : RpcResponse F)
  | writing (id : Json F) (conn : ConnIx) (payload : List UInt8) (total : ℕ)
  | spawning (stream : Text) (conn : ConnIx) (resp : RpcResponse F)
  | responding (resp : RpcResponse F)
  | returning
  | closingAll (conns : List ConnIx)
  | ended

end Daemon

open Daemon

structure Daemon (F : Type) where
  nextStreamID : ℕ
  streams : HashMap Text StreamState
  loop : Loop F
  pumps : List Pump
  /-- Frames written to stdout. -/
  out : List (Frame F)
  /-- Stdout takes nothing more. -/
  broken : Bool
  /-- Requests read so far. -/
  requests : List (RpcRequest F)
  /-- Streams opened so far, with the id of the request. -/
  opened : List (Json F × Text)
  removed : List (Party × Text × ConnIx)
  closes : List (Party × ConnIx)

namespace Daemon

variable {F : Type}

def init : Daemon F := ⟨1,∅,.reading,[],[],false,[],[],[],[]⟩

def streamID (n : ℕ) : Text := "s-".toList ++ Text.ofNat n

def goto (s : Daemon F) (l : Loop F) : Daemon F := { s with loop := l }

def answer (s : Daemon F) (resp : RpcResponse F) : Daemon F := s.goto (.responding resp)

def handleProxyOpen (trunc : F → Option ℤ) (s : Daemon F) (req : RpcRequest F) : Daemon F :=
  match req.requireString "host" with
  | none => s.answer (.fault req.id "invalid_params" "proxy.open requires host".toList)
  | some host =>
    match (RpcRequest.getIntParam trunc req.params "port").filter
        (fun port => 0 < port ∧ port ≤ 65535) with
    | none => s.answer (.fault req.id "invalid_params"
        "proxy.open requires port in range 1-65535".toList)
    | some port => s.goto (.dialing req.id host port)

def addStream (s : Daemon F) (id : Json F) : Daemon F :=
  let stream := streamID s.nextStreamID
  { s.answer (.success id [("stream_id",.str stream)]) with
    nextStreamID := s.nextStreamID+1
    streams := s.streams.insert stream ⟨s.opened.length,false⟩
    opened := s.opened ++ [(id,stream)] }

def closedResponse (id : Json F) : RpcResponse F := .success id [("closed",.bool true)]

def handleProxyClose (s : Daemon F) (req : RpcRequest F) : Daemon F :=
  match req.requireString "stream_id" with
  | none => s.answer (.fault req.id "invalid_params" "proxy.close requires stream_id".toList)
  | some stream =>
    match s.streams.lookup stream with
    | none => s.answer (closedResponse req.id)
    | some state =>
      { s.goto (.closing state.conn (closedResponse req.id)) with
        streams := s.streams.erase stream
        removed := s.removed ++ [(.requestLoop,stream,state.conn)] }

/-- `base64.StdEncoding.DecodeString`: line breaks are skipped, trailing bits ignored. -/
def decodeString (text : Text) : Option (List UInt8) :=
  Base64.decode false (text.filter (fun c => c ≠ '\n' ∧ c ≠ '\r'))

def handleProxyWrite (s : Daemon F) (req : RpcRequest F) : Daemon F :=
  match req.requireString "stream_id" with
  | none => s.answer (.fault req.id "invalid_params" "proxy.write requires stream_id".toList)
  | some stream =>
    match RpcRequest.getStringParam req.params "data_base64" with
    | none => s.answer (.fault req.id "invalid_params" "proxy.write requires data_base64".toList)
    | some text =>
      match decodeString text with
      | none => s.answer (.fault req.id "invalid_params" "data_base64 must be valid base64".toList)
      | some payload =>
        match s.streams.lookup stream with
        | none => s.answer (.fault req.id "not_found" "stream not found".toList)
        | some state => s.goto (.writing req.id state.conn payload 0)

def subscribedResponse (id : Json F) (already : Bool) : RpcResponse F :=
  .success id [("already_subscribed",.bool already),("subscribed",.bool true)]

def handleProxyStreamSubscribe (s : Daemon F) (req : RpcRequest F) : Daemon F :=
  match req.requireString "stream_id" with
  | none => s.answer (.fault req.id "invalid_params"
      "proxy.stream.subscribe requires stream_id".toList)
  | some stream =>
    match s.streams.lookup stream with
    | none => s.answer (.fault req.id "not_found" "stream not found".toList)
    | some state =>
      if state.readerStarted then s.answer (subscribedResponse req.id true)
      else
        { s.goto (.spawning stream state.conn (subscribedResponse req.id false)) with
          streams := s.streams.insert stream { state with readerStarted := true } }

/-- The handler of a request; `other` is what one that has nothing to do with streams
answers. -/
def handleRequest (trunc : F → Option ℤ) (s : Daemon F) (req : RpcRequest F)
    (other : Except RpcFault (Json F)) : Daemon F :=
  if req.method = [] then s.answer (.fault req.id "invalid_request" "method is required".toList)
  else if req.method = "proxy.open".toList then s.handleProxyOpen trunc req
  else if req.method = "proxy.close".toList then s.handleProxyClose req
  else if req.method = "proxy.write".toList then s.handleProxyWrite req
  else if req.method = "proxy.stream.subscribe".toList then s.handleProxyStreamSubscribe req
  else s.answer ⟨req.id,other⟩

/-- One turn of the write loop: the connection took `n` bytes. -/
def wrote (id : Json F) (conn : ConnIx) (payload : List UInt8) (total n : ℕ) :
    Option Text → Loop F
  | some message => .responding (.fault id "stream_error" message)
  | none =>
    if n = 0 then .responding (.fault id "stream_error" "write made no progress".toList)
    else .writing id conn payload (total+n)

def writeEvent (s : Daemon F) (e : RpcEvent) : Daemon F :=
  if s.broken then s else { s with out := s.out ++ [.event e] }

def writeResponse (s : Daemon F) (resp : RpcResponse F) : Daemon F :=
  if s.broken then s.goto .returning
  else { s.goto .reading with out := s.out ++ [.response resp] }

def closeAll (s : Daemon F) : Daemon F :=
  let entries := s.streams.entries.map (fun e => (Party.requestLoop,e.1,e.2.conn))
  { s.goto (.closingAll (entries.map (fun e => e.2.2))) with
    streams := ∅
    removed := s.removed ++ entries }

def closeConn (s : Daemon F) (p : Party) (conn : ConnIx) : Daemon F :=
  { s with closes := s.closes ++ [(p,conn)] }

def setPump (s : Daemon F) (k : ℕ) (phase : PumpPhase) : Daemon F :=
  { s with pumps := s.pumps.modify k (fun p => { p with phase := phase }) }

/-- Where a pump goes when the data of a read is written. -/
def afterRead (data : List UInt8) : Option ReadError → PumpPhase
  | none => if data = [] then .ending (some "read made no progress".toList) else .reading
  | some .eof => .ending none
  | some .closed => .dropping
  | some (.other message) => .ending (some message)

/-- The locked half of `dropStream`. -/
def dropStream (s : Daemon F) (k : ℕ) (stream : Text) : Daemon F :=
  match s.streams.lookup stream with
  | some state =>
    { s.setPump k (.closing state.conn) with
      streams := s.streams.erase stream
      removed := s.removed ++ [(.pump k,stream,state.conn)] }
  | none => s.setPump k .done

inductive Act (F : Type)
  | request (req : RpcRequest F)
  /-- A frame that is too long or not a request. -/
  | refuse (message : Text)
  | handle (other : Except RpcFault (Json F))
  | dial (err : Option Text)
  | register
  /-- `SetWriteDeadline` fails. -/
  | deadline (message : Text)
  | write (n : ℕ) (err : Option Text)
  | finishWrite
  | close
  | spawn
  | respond
  | hangUp
  | closeAll
  | closeNext
  | breakOutput
  /-- Steps of a pump. -/
  | read (k : ℕ) (data : List UInt8) (err : Option ReadError)
  | panic (k : ℕ) (message : Text)
  | emit (k : ℕ)
  | terminate (k : ℕ)
  | drop (k : ℕ)
  | closePump (k : ℕ)

def pump? (s : Daemon F) (k : ℕ) : Option Pump :=
  match s.loop with
  | .ended => none
  | _ => s.pumps[k]?

def stepPump (s : Daemon F) (k : ℕ) (p : Pump) : Act F → Option (Daemon F)
  | .read _ data err =>
    match p.phase with
    | .reading =>
      if data.length ≤ 32768 then
        some { s with pumps := s.pumps.modify k (fun p =>
          { p with phase := .got data err, received := p.received ++ data }) }
      else none
    | _ => none
  | .panic _ message =>
    match p.phase with
    | .reading => some (s.setPump k (.ending (some ("stream panic: ".toList ++ message))))
    | _ => none
  | .emit _ =>
    match p.phase with
    | .got data err =>
      some ((if data = [] then s else s.writeEvent (.data p.stream data)).setPump k
        (afterRead data err))
    | _ => none
  | .terminate _ =>
    match p.phase with
    | .ending error => some ((s.writeEvent (.ending p.stream error)).setPump k .dropping)
    | _ => none
  | .drop _ =>
    match p.phase with
    | .dropping => some (s.dropStream k p.stream)
    | _ => none
  | .closePump _ =>
    match p.phase with
    | .closing conn => some ((s.closeConn (.pump k) conn).setPump k .done)
    | _ => none
  | _ => none

def stepLoop (trunc : F → Option ℤ) (s : Daemon F) : Act F → Option (Daemon F)
  | .request req =>
    match s.loop with
    | .reading => some { s.goto (.handling req) with requests := s.requests ++ [req] }
    | _ => none
  | .refuse message =>
    match s.loop with
    | .reading => some (s.answer (.fault .null "invalid_request" message))
    | _ => none
  | .handle other =>
    match s.loop with
    | .handling req => some (s.handleRequest trunc req other)
    | _ => none
  | .dial err =>
    match s.loop with
    | .dialing id _ _ => some (match err with
        | none => s.goto (.dialed id)
        | some message => s.answer (.fault id "open_failed" message))
    | _ => none
  | .register =>
    match s.loop with
    | .dialed id => some (s.addStream id)
    | _ => none
  | .deadline message =>
    match s.loop with
    | .writing id _ _ 0 => some (s.answer (.fault id "stream_error" message))
    | _ => none
  | .write n err =>
    match s.loop with
    | .writing id conn payload total =>
      if total < payload.length ∧ total+n ≤ payload.length then
        some (s.goto (wrote id conn payload total n err))
      else none
    | _ => none
  | .finishWrite =>
    match s.loop with
    | .writing id _ payload total =>
      if payload.length ≤ total then
        some (s.answer (.success id [("written",.num (.int total))]))
      else none
    | _ => none
  | .close =>
    match s.loop with
    | .closing conn resp => some ((s.closeConn .requestLoop conn).answer resp)
    | _ => none
  | .spawn =>
    match s.loop with
    | .spawning stream conn resp =>
      some { s.answer resp with pumps := s.pumps ++ [⟨stream,conn,.reading,[]⟩] }
    | _ => none
  | .respond =>
    match s.loop with
    | .responding resp => some (s.writeResponse resp)
    | _ => none
  | .hangUp =>
    match s.loop with
    | .reading => some (s.goto .returning)
    | _ => none
  | .closeAll =>
    match s.loop with
    | .returning => some s.closeAll
    | _ => none
  | .closeNext =>
    match s.loop with
    | .closingAll (conn :: conns) =>
      some ((s.closeConn .requestLoop conn).goto (.closingAll conns))
    | .closingAll [] => some (s.goto .ended)
    | _ => none
  | .breakOutput => some { s with broken := true }
  | _ => none

def Act.pump : Act F → Option ℕ
  | .read k _ _ | .panic k _ | .emit k | .terminate k | .drop k | .closePump k => some k
  | _ => none

def step (trunc : F → Option ℤ) (s : Daemon F) (a : Act F) : Option (Daemon F) :=
  match a.pump with
  | some k => (s.pump? k).bind (fun p => s.stepPump k p a)
  | none => s.stepLoop trunc a

end Daemon

end Limux
