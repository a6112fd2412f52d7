import Limux.Command
import Limux.Socket

/-! Responses of the control socket on their way back: what `handle_client` writes of one,
and what `send_command` in `cli/src/socket.rs` reads. -/
namespace Limux

open Text

/-- A response as the CLI understands it. -/
inductive Answer
  /-- `OK` -/
  | bare
  /-- `OK` and data on the same line. -/
  | data (payload : Text)
  /-- `OK+<len>` and data of that length. -/
  | block (payload : Text)
  | error (message : Text)

namespace Answer

def text : Answer → Text
  | bare => "OK".toList
  | data p => "OK ".toList ++ p
  | block p => "OK+".toList ++ (ofNat (Utf8.encode p).length ++ '\n' :: p)
  | error m => "ERROR: ".toList ++ m

/-- What `send_command` is to return. -/
def meant : Answer → Except Text Text
  | bare => .ok []
  | data p | block p => .ok p
  | error m => .error m

end Answer

namespace Conn

/-- The result for a line that is not length-prefixed. -/
def interpret (line : Text) : Except Text Text :=
  match stripPrefix "OK".toList line with
  | some data => .ok (trimStart data)
  | none =>
    match stripPrefix "ERROR: ".toList line with
    | some msg => .error msg
    | none => .error ("Unexpected response: ".toList ++ line)

/-- `send_command` on what it receives until it stalls; `io` is the text of an I/O error. The
result, and what is left unread. -/
def readResponse (eof : Bool) (io : Text) (bytes : List UInt8) :
    Except Text Text × List UInt8 :=
  let (line,rest) := Lines.first newline bytes
  if newline ∉ line ∧ eof = false then (.error ("Failed to read response: ".toList ++ io),rest)
  else
    match Utf8.decode? line with
    | none => (.error ("Failed to read response: ".toList ++ io),rest)
    | some line =>
      let line := trimEnd line
      match stripPrefix "OK+".toList line with
      | none => (interpret line,rest)
      | some lenStr =>
        match parseUnsigned (2^64) lenStr with
        | none => (.error ("Invalid length in response: ".toList ++ lenStr),rest)
        | some len =>
          if len ≤ rest.length then (.ok (Utf8.decodeLossy (rest.take len)),rest.drop len)
          else (.error ("Failed to read response body: ".toList ++ io),[])

end Conn

end Limux
