import Limux.Lib.Lines
import Limux.Lib.Utf8
import Limux.Lib.Text
import Mathlib.Algebra.Group.Nat.Defs
import Mathlib.Logic.Relation

/-! One connection of the control socket (`handle_client` in `app/src/socket.rs`):
the client that writes command lines and shuts its side down, the kernel buffer
between them, and the callback that drains the socket and then serves the
buffered lines. `handle` is `handle_command` on the state of the application. -/
namespace Limux

/-- The callback between two reads. -/
inductive ConnPhase
  | idle
  | draining
  /-- The source was removed and the stream dropped (`ControlFlow::Break`). -/
  | closed
  deriving DecidableEq, Repr

structure Conn (σ : Type) where
  /-- What the client is still going to write. -/
  unsent : List UInt8
  /-- Written by the client, not yet read by the server. -/
  inflight : List UInt8
  /-- The client closed or half-closed its write side. -/
  shut : Bool
  buf : List UInt8
  phase : ConnPhase
  app : σ
  /-- Arguments of the `handle_command` calls so far. -/
  executed : List String
  /-- What went back to the client. -/
  out : List UInt8

/-- What can happen next; `rooms i` is what the peer's buffer takes of the `i`-th
response written in this callback before the write would block. -/
inductive ConnEvent
  | send (n : ℕ)
  | shutdown
  | callback
  | read (n : ℕ)
  | wouldBlock (rooms : ℕ → ℕ)
  | eof

namespace Conn

variable {σ : Type}

def newline : UInt8 := 10

/-- `String::from_utf8_lossy(line)` and `trim`. -/
def lineCommand (line : List UInt8) : String := .ofList (Text.trim (Utf8.decodeLossy line))

def frame (response : String) : List UInt8 :=
  if "OK+".toList.isPrefixOf response.toList then Utf8.encode response.toList
  else Utf8.encode (response.toList ++ ['\n'])

/-- Serve lines one after the other. A response that meets a full buffer is cut
off, the error is ignored. -/
def serveLines (handle : σ → String → String × σ) (rooms : ℕ → ℕ) :
    ℕ → List (List UInt8) → Conn σ → Conn σ
  | _, [], c => c
  | i, l :: ls, c =>
    let cmd := lineCommand l
    let r := handle c.app cmd
    serveLines handle rooms (i+1) ls { c with
      app := r.2
      executed := c.executed ++ [cmd]
      out := c.out ++ (frame r.1).take (rooms i) }

/-- Buffered bytes beyond this end the connection. -/
def bufferLimit : ℕ := 2^20

def step (handle : σ → String → String × σ) (c : Conn σ) : ConnEvent → Option (Conn σ)
  | .send n =>
    if c.shut = false ∧ c.phase ≠ .closed ∧ 0 < n ∧ n ≤ c.unsent.length then
      some { c with unsent := c.unsent.drop n, inflight := c.inflight ++ c.unsent.take n }
    else none
  | .shutdown => if c.shut = false ∧ c.unsent = [] then some { c with shut := true } else none
  | .callback =>
    if c.phase = .idle ∧ (c.inflight ≠ [] ∨ c.shut = true) then
      some { c with phase := .draining }
    else none
  | .read n =>
    if c.phase = .draining ∧ 0 < n ∧ n ≤ 4096 ∧ n ≤ c.inflight.length then
      let c := { c with buf := c.buf ++ c.inflight.take n, inflight := c.inflight.drop n }
      some (if bufferLimit < c.buf.length then { c with phase := .closed } else c)
    else none
  | .wouldBlock rooms =>
    if c.phase = .draining ∧ c.inflight = [] ∧ c.shut = false then
      some { serveLines handle rooms 0 (Lines.complete newline c.buf) c with
        buf := Lines.rest newline c.buf
        phase := .idle }
    else none
  | .eof =>
    if c.phase = .draining ∧ c.inflight = [] ∧ c.shut = true then
      some { c with phase := .closed }
    else none

/-- A fresh connection whose client is going to write `bytes`. -/
def start (app : σ) (bytes : List UInt8) : Conn σ := ⟨bytes,[],false,[],.idle,app,[],[]⟩

def commands (bytes : List UInt8) : List String :=
  (Lines.complete newline bytes).map lineCommand

def replies (handle : σ → String → String × σ) : σ → List String → List String × σ
  | app, [] => ([],app)
  | app, cmd :: cmds =>
    let r := handle app cmd
    let rs := replies handle r.2 cmds
    (r.1 :: rs.1,rs.2)

end Conn

end Limux
