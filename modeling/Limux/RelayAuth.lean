import Limux.Relay
import Limux.Lib.Hex
import Limux.Lib.Machine

/-! The handshake of the relay: `handle_connection` in `app/src/remote/relay.rs`, and
`authenticateRelayConn` in `daemon/remote/cmd/limuxd-remote/cli.go` on the other end of two
byte streams that deliver in pieces of any sizes. -/
namespace Limux

open Text

namespace RelayAuth

/-- HMAC-SHA256 as a keyed function. -/
abbrev Hmac := List UInt8 → List UInt8 → Vector UInt8 32

def newline : UInt8 := 10

def randomHex (buf : List UInt8) : Text := Hex.encode buf

/-- What `generate_relay_id` and `generate_relay_token` made. -/
structure Credentials where
  idBytes : Vector UInt8 16
  tokenBytes : Vector UInt8 32

namespace Credentials

def relayId (c : Credentials) : Text := randomHex c.idBytes.toList

def relayToken (c : Credentials) : Text := randomHex c.tokenBytes.toList

end Credentials

section Rust

/-- `u8::from_str_radix` on two characters; a sign may take the place of a digit. -/
def fromStrRadix (a b : Char) : Option UInt8 :=
  if a = '+' then (Hex.value b).map .ofNat
  else do
    let x ← Hex.value a
    let y ← Hex.value b
    some (.ofNat (x*16+y))

/-- Pairs that are no number are left out; an odd length panics. -/
def hexDecode : Text → Option (List UInt8)
  | [] => some []
  | [_] => none
  | a :: b :: l => (hexDecode l).map (fun m => (fromStrRadix a b).toList ++ m)

def hexEncode (bytes : List UInt8) : Text := Hex.encode bytes

def constantTimeEq (a b : List UInt8) : Bool :=
  if a.length ≠ b.length then false
  else (a.zip b).foldl (fun diff p => diff ||| (p.1 ^^^ p.2)) (0 : UInt8) == 0

structure RelayServer where
  relayId : Text
  relayToken : List UInt8

def RelayServer.start (relayId relayTokenHex : Text) : Option RelayServer :=
  (hexDecode relayTokenHex).map (fun token => ⟨relayId,token⟩)

def challenge (relayId nonce : Text) : Text :=
  "\x7b\"protocol\":\"limux-relay-auth\",\"version\":1,\"relay_id\":\"".toList ++ relayId ++
    "\",\"nonce\":\"".toList ++ nonce ++ "\"\x7d".toList

def rejected : Text := "\x7b\"ok\":false\x7d".toList

def accepted : Text := "\x7b\"ok\":true\x7d".toList

def lineBytes (line : Text) : List UInt8 := Utf8.encode (line ++ ['\n'])

def macMessage (relayId nonce : Text) : Text :=
  "relay_id=".toList ++ relayId ++ "\nnonce=".toList ++ nonce ++ "\nversion=1".toList

inductive ServerPhase
  | start
  | awaitResponse
  | refusing
  | accepting
  | awaitCommand
  | forwarding (cmd : Text)
  | closed

structure ServerConn where
  phase : ServerPhase
  nonce : Text
  /-- Arrived, not read as a line yet. -/
  buf : List UInt8
  /-- The other side has ended its stream. -/
  shut : Bool
  sent : List UInt8
  /-- Everything that arrived. -/
  received : List UInt8
  /-- The line read after the handshake. -/
  commandLine : Option Text
  /-- Lines put on the control socket. -/
  forwarded : List Text

namespace ServerConn

variable {F : Type}

def init (nonce : Text) : ServerConn := ⟨.start,nonce,[],false,[],[],none,[]⟩

def checkResponse (hmac : Hmac) (parse : Text → Option (Json F)) (server : RelayServer)
    (nonce responseLine : Text) : ServerPhase :=
  match parse (trim responseLine) with
  | none => .closed
  | some response =>
    let clientRelayId := (response.index "relay_id").asStr.getD []
    let clientMacHex := (response.index "mac").asStr.getD []
    if clientRelayId ≠ server.relayId then .refusing
    else
      let mac := hmac server.relayToken (Utf8.encode (macMessage server.relayId nonce))
      let expectedHex := hexEncode mac.toList
      if constantTimeEq (Utf8.encode clientMacHex) (Utf8.encode expectedHex) then .accepting
      else .refusing

/-- The command line becomes a line for the control socket. -/
def checkCommand (parse : Text → Option (Json F)) (cmdLine : Text) : ServerPhase :=
  let cmd := trim cmdLine
  if cmd = [] then .closed else .forwarding (Relay.translateV2ToV1 parse cmd).1

inductive Act
  | greet
  | arrive (bytes : List UInt8)
  | shut
  | readLine
  | refuse
  | accept
  | forward (reply : List UInt8)
  /-- A timeout, or an error of the stream. -/
  | abort

def write (c : ServerConn) (bytes : List UInt8) (phase : ServerPhase) : ServerConn :=
  { c with sent := c.sent ++ bytes, phase := phase }

/-- A line is there once it has its line break, or the stream has ended. -/
def step (hmac : Hmac) (parse : Text → Option (Json F)) (server : RelayServer)
    (c : ServerConn) : Act → Option ServerConn
  | .greet =>
    match c.phase with
    | .start => some (c.write (lineBytes (challenge server.relayId c.nonce)) .awaitResponse)
    | _ => none
  | .arrive bytes =>
    if c.shut then none
    else some { c with buf := c.buf ++ bytes, received := c.received ++ bytes }
  | .shut => some { c with shut := true }
  | .readLine =>
    if newline ∈ c.buf ∨ c.shut = true then
      let (line,rest) := Lines.first newline c.buf
      match c.phase, Utf8.decode? line with
      | .awaitResponse, some text =>
        some { c with buf := rest, phase := checkResponse hmac parse server c.nonce text }
      | .awaitCommand, some text =>
        some { c with buf := rest, commandLine := some text, phase := checkCommand parse text }
      | .awaitResponse, none | .awaitCommand, none => some { c with buf := rest, phase := .closed }
      | _, _ => none
    else none
  | .refuse =>
    match c.phase with
    | .refusing => some (c.write (lineBytes rejected) .closed)
    | _ => none
  | .accept =>
    match c.phase with
    | .accepting => some (c.write (lineBytes accepted) .awaitCommand)
    | _ => none
  | .forward reply =>
    match c.phase with
    | .forwarding cmd => some { c.write reply .closed with forwarded := c.forwarded ++ [cmd] }
    | _ => none
  | .abort => some { c with phase := .closed }

end ServerConn

end Rust

section Go

variable {F : Type}

/-- `relayAuthState`. -/
structure AuthState where
  relayID : Text
  relayToken : Text

def computeRelayMAC (hmac : Hmac) (token : List UInt8) (relayID nonce : Text) (version : ℤ) :
    Vector UInt8 32 :=
  hmac token (Utf8.encode ("relay_id=".toList ++ relayID ++ "\nnonce=".toList ++ nonce ++
    "\nversion=".toList ++ ofInt version))

/-- The members that `json.Unmarshal` finds for a struct. -/
def goFields : Json F → Option (List (String × Json F))
  | .obj fields => some fields
  | .null => some []
  | _ => none

/-- A string member; it is empty where it is missing. -/
def goString (fields : List (String × Json F)) (key : String) : Option Text :=
  match fields.lookup key with
  | none | some .null => some []
  | some (.str s) => some s
  | _ => none

def goInt (fields : List (String × Json F)) (key : String) : Option ℤ :=
  match fields.lookup key with
  | none | some .null => some 0
  | some (.num (.int n)) => some n
  | _ => none

def goBool (fields : List (String × Json F)) (key : String) : Option Bool :=
  match fields.lookup key with
  | none | some .null => some false
  | some (.bool b) => some b
  | _ => none

/-- What `json.Marshal` makes of the response; a map has its keys in order. -/
def response (relayID mac : Text) : Text :=
  "\x7b\"mac\":\"".toList ++ mac ++ "\",\"relay_id\":\"".toList ++ relayID ++ "\"\x7d".toList

def answer (hmac : Hmac) (unmarshal : List UInt8 → Option (Json F)) (auth : AuthState)
    (line : List UInt8) : Option Text := do
  let fields ← (unmarshal line).bind goFields
  let protocol ← goString fields "protocol"
  let version ← goInt fields "version"
  let relayID ← goString fields "relay_id"
  let nonce ← goString fields "nonce"
  if protocol ≠ "limux-relay-auth".toList ∨ version ≠ 1 ∨ relayID ≠ auth.relayID ∨ nonce = [] then
    none
  else
    let tokenBytes ← Hex.decode auth.relayToken
    let mac := computeRelayMAC hmac tokenBytes auth.relayID nonce version
    return response auth.relayID (Hex.encode mac.toList)

def resultOK (unmarshal : List UInt8 → Option (Json F)) (line : List UInt8) : Bool :=
  (((unmarshal line).bind goFields).bind (goBool · "ok")).getD false

inductive ClientPhase
  | awaitChallenge
  | awaitResult
  | authenticated
  | sent
  | failed

structure RelayClient where
  phase : ClientPhase
  /-- Read into the buffer of the handshake. -/
  buf : List UInt8
  /-- What was in it when the handshake was over. -/
  dropped : List UInt8

end Go

/-- Both ends up to the command, and the bytes on their way. -/
structure Exchange where
  server : ServerConn
  client : RelayClient
  toServer : List UInt8
  toClient : List UInt8

namespace Exchange

variable {F : Type}

def init (nonce : Text) : Exchange := ⟨.init nonce,⟨.awaitChallenge,[],[]⟩,[],[]⟩

/-- What the two ends are given. -/
structure Setup (F : Type) where
  hmac : Hmac
  /-- `serde_json::from_str`. -/
  parse : Text → Option (Json F)
  /-- `json.Unmarshal`. -/
  unmarshal : List UInt8 → Option (Json F)
  server : RelayServer
  auth : AuthState
  /-- The command that is sent after the handshake. -/
  command : Text

inductive Act
  | greet
  | readLine
  | refuse
  | accept
  | toServer (n : ℕ)
  | toClient (n : ℕ)
  | client

/-- The server's own steps; what it writes is on its way. -/
def serve (u : Setup F) (x : Exchange) (a : ServerConn.Act) : Option Exchange :=
  (x.server.step u.hmac u.parse u.server a).map (fun s =>
    { x with server := s, toClient := x.toClient ++ s.sent.drop x.server.sent.length })

def clientLine (u : Setup F) (x : Exchange) : Option Exchange :=
  if newline ∈ x.client.buf then
    let (line,rest) := Lines.first newline x.client.buf
    match x.client.phase with
    | .awaitChallenge =>
      match answer u.hmac u.unmarshal u.auth line with
      | none => some { x with client := ⟨.failed,rest,x.client.dropped⟩ }
      | some payload => some { x with
          client := ⟨.awaitResult,rest,x.client.dropped⟩
          toServer := x.toServer ++ lineBytes payload }
    | .awaitResult =>
      if resultOK u.unmarshal line then some { x with client := ⟨.authenticated,[],rest⟩ }
      else some { x with client := ⟨.failed,rest,x.client.dropped⟩ }
    | _ => none
  else none

def step (u : Setup F) (x : Exchange) : Act → Option Exchange
  | .greet => x.serve u .greet
  | .readLine => x.serve u .readLine
  | .refuse => x.serve u .refuse
  | .accept => x.serve u .accept
  | .toServer n =>
    if 0 < n ∧ n ≤ x.toServer.length then
      (x.server.step u.hmac u.parse u.server (.arrive (x.toServer.take n))).map (fun s =>
        { x with server := s, toServer := x.toServer.drop n })
    else none
  | .toClient n =>
    if 0 < n ∧ n ≤ x.toClient.length then
      some { x with
        client := { x.client with buf := x.client.buf ++ x.toClient.take n }
        toClient := x.toClient.drop n }
    else none
  | .client =>
    match x.client.phase with
    | .authenticated => some { x with
        client := { x.client with phase := .sent }
        toServer := x.toServer ++ lineBytes u.command }
    | _ => x.clientLine u

end Exchange

end RelayAuth

end Limux
