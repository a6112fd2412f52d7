import Limux.DaemonSession
import Limux.Lib.Buffered
import Limux.Lib.Lines

/-! The request loop of the remote daemon on a byte stream (`runStdioServer` and
`readRPCFrame` in `daemon/remote/cmd/limuxd-remote/main.go`): frames out of a buffered
stdin, each handled before the next is read. -/
namespace Limux

open Buffered

namespace Daemon

variable {F : Type}

def newline : UInt8 := 10

def carriageReturn : UInt8 := 13

/-- Bytes that the reader on stdin buffers. -/
def bufferSize : ℕ := 64*1024

def maxRPCFrameBytes : ℕ := 4*1024*1024

/-- What `readRPCFrame` returns. -/
inductive FrameRead
  | ended
  | oversized
  | frame (line : List UInt8)
  deriving DecidableEq

/-- At most as many turns as given. -/
def discardUntilNewline : ℕ → Reader UInt8 → Reader UInt8
  | 0, r => r
  | n+1, r =>
    match r.readSlice newline bufferSize with
    | ((_,.full),r) => discardUntilNewline n r
    | (_,r) => r

/-- The loop of `readRPCFrame`, again with its turns. -/
def frameLoop (maxBytes : ℕ) : ℕ → List UInt8 → Reader UInt8 → FrameRead × Reader UInt8
  | 0, _, r => (.ended,r)
  | n+1, frame, r =>
    let ((chunk,stop),r) := r.readSlice newline bufferSize
    if maxBytes < frame.length+chunk.length then
      (.oversized,if stop = .full then discardUntilNewline (r.rest.length+1) r else r)
    else
      let frame := frame ++ chunk
      match stop with
      | .separator => (.frame frame,r)
      | .full => frameLoop maxBytes n frame r
      | .ended => (if frame = [] then .ended else .frame frame,r)

/-- Each turn but the last takes a whole buffer. -/
def readRPCFrame (r : Reader UInt8) (maxBytes : ℕ) : FrameRead × Reader UInt8 :=
  frameLoop maxBytes (r.rest.length+1) [] r

/-- `bytes.TrimSuffix` of one byte. -/
def trimSuffix (b : UInt8) (line : List UInt8) : List UInt8 :=
  if line.getLast? = some b then line.dropLast else line

def trimLine (line : List UInt8) : List UInt8 :=
  trimSuffix carriageReturn (trimSuffix newline line)

/-- What the daemon takes from its libraries: floats that are integers, the JSON parser,
the verb `%q`, and the version it was built as. -/
structure Host (F : Type) where
  trunc : F → Option ℤ
  parse : List UInt8 → Option (RpcRequest F)
  quote : Text → Text
  version : Text

def capabilities : List String :=
  ["session.basic","session.resize.min","proxy.http_connect","proxy.socks5","proxy.stream",
    "proxy.stream.push"]

def answerOther (host : Host F) (now : Text) (s : Sessions) (req : RpcRequest F) :
    Sessions × Except RpcFault (Json F) :=
  if req.method = "hello".toList then
    (s,.ok (.obj [("capabilities",.arr (capabilities.map (fun c => .str c.toList))),
      ("name",.str "limuxd-remote".toList),("version",.str host.version)]))
  else if req.method = "ping".toList then (s,.ok (.obj [("pong",.bool true)]))
  else
    match s.handleRequest host.trunc now req with
    | some (s,resp) => (s,resp.result)
    | none => (s,.error ⟨"method_not_found","unknown method ".toList ++ host.quote req.method⟩)

structure Server (F : Type) where
  daemon : Daemon F
  sessions : Sessions
  input : Reader UInt8

namespace Server

def init (pieces : List (List UInt8)) (eager : Bool) : Server F :=
  ⟨Daemon.init,.init,.init pieces eager⟩

def oversized : Text := "request frame exceeds maximum size".toList

def invalidJSON : Text := "invalid JSON request".toList

/-- Steps of the loop on stdin, and those of the daemon that it leaves alone. -/
inductive Act (F : Type)
  | read
  | handle (now : Text)
  | run (a : Daemon.Act F)

/-- Not a step that the loop on stdin decides, nor one that stdout refuses. -/
def passes : Daemon.Act F → Bool
  | .request _ | .refuse _ | .handle _ | .hangUp | .breakOutput => false
  | _ => true

def readFrame (host : Host F) (s : Server F) : Option (Server F) :=
  let (read,input) := readRPCFrame s.input maxRPCFrameBytes
  let go (a : Daemon.Act F) : Option (Server F) :=
    (Daemon.step host.trunc s.daemon a).map (fun d => { s with daemon := d, input := input })
  match read with
  | .ended => go .hangUp
  | .oversized => go (.refuse oversized)
  | .frame line =>
    if trimLine line = [] then some { s with input := input }
    else
      match host.parse (trimLine line) with
      | none => go (.refuse invalidJSON)
      | some req => go (.request req)

def step (host : Host F) (s : Server F) : Act F → Option (Server F)
  | .read =>
    match s.daemon.loop with
    | .reading => s.readFrame host
    | _ => none
  | .handle now =>
    match s.daemon.loop with
    | .handling req =>
      let (sessions,result) := answerOther host now s.sessions req
      (Daemon.step host.trunc s.daemon (.handle result)).map (fun d =>
        { s with daemon := d, sessions := sessions })
    | _ => none
  | .run a =>
    if passes a then
      (Daemon.step host.trunc s.daemon a).map (fun d => { s with daemon := d })
    else none

end Server

end Daemon

end Limux
