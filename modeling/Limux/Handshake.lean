import Limux.Lib.Address
import Limux.Lib.Segments
import Limux.Lib.Utf8

/-! What the proxy tunnel reads of a new connection: the protocol from the first byte, then
the handshake, up to the host and the port for `proxy.open`
(`app/src/remote/proxy_tunnel.rs`). -/
namespace Limux

open Text

/-- A socket: what arrives, one list a segment, and what was written. -/
structure TcpStream where
  incoming : List (List UInt8)
  outgoing : List UInt8

abbrev Handshake : Type → Type := ExceptT Text (StateM TcpStream)

namespace Handshake

variable {α : Type}

def run (x : Handshake α) (s : TcpStream) : Except Text α × TcpStream := (ExceptT.run x).run s

def fail (message : Text) : Handshake α := throw message

def ensure (p : Prop) [Decidable p] (message : Text) : Handshake Unit :=
  if p then pure () else fail message

def readExact (n : ℕ) : Handshake (List UInt8) := fun s =>
  match Segments.readExact n s.incoming with
  | some (bytes,incoming) => (.ok bytes,{ s with incoming := incoming })
  | none => (.error "early eof".toList,{ s with incoming := [] })

def writeAll (bytes : List UInt8) : Handshake Unit := fun s =>
  (.ok (),{ s with outgoing := s.outgoing ++ bytes })

def peek (s : TcpStream) : UInt8 := s.incoming.flatten.headD 0

/-- `u16::from_be_bytes`. -/
def bigEndian (hi lo : UInt8) : ℕ := hi.toNat*256+lo.toNat

/-! ## SOCKS5 -/

def groups (addr : List UInt8) : List ℕ :=
  (List.range 8).map (fun i => bigEndian (addr.getD (i*2) 0) (addr.getD (i*2+1) 0))

def readHost (atyp : UInt8) : Handshake Text :=
  if atyp = 1 then do
    let addr ← readExact 4
    pure (Address.dotted (addr.map UInt8.toNat))
  else if atyp = 3 then do
    let len ← readExact 1
    let domain ← readExact (len.headD 0).toNat
    match Utf8.decode? domain with
    | some host => pure host
    | none => fail "invalid utf-8 sequence".toList
  else if atyp = 4 then do
    let addr ← readExact 16
    pure (Address.colonHex (groups addr))
  else fail "unsupported SOCKS5 address type".toList

def ensureConnect (command : UInt8) : Handshake Unit :=
  if command = 1 then pure ()
  else do
    writeAll [5,7,0,1,0,0,0,0,0,0]
    fail "unsupported SOCKS5 command".toList

def socks5Handshake : Handshake (Text × ℕ) := do
  let header ← readExact 2
  ensure (header.getD 0 0 = 5) "not SOCKS5".toList
  let _ ← readExact (header.getD 1 0).toNat
  writeAll [5,0]
  let request ← readExact 4
  ensureConnect (request.getD 1 0)
  let host ← readHost (request.getD 3 0)
  let port ← readExact 2
  pure (host,bigEndian (port.getD 0 0) (port.getD 1 0))

/-! ## HTTP CONNECT -/

/-- `b"\r\n\r\n"`. -/
def headerEnd : List UInt8 := [13,10,13,10]

/-- Byte by byte; the fuel is never used up, as more than 8192 bytes are refused. -/
def readHeader : ℕ → List UInt8 → Handshake (List UInt8)
  | 0, buf => pure buf
  | fuel+1, buf => do
    let byte ← readExact 1
    let buf := buf ++ byte
    if headerEnd <:+ buf then pure buf
    else if 8192 < buf.length then fail "HTTP CONNECT request too large".toList
    else readHeader fuel buf

def firstLine (s : Text) : Text :=
  match splitOnce '\n' s with
  | some (l,_) => if l.getLast? = some '\r' then l.dropLast else l
  | none => s

/-- Host and port of `CONNECT host:port HTTP/1.x`. -/
def parseAuthority (authority : Text) : Except Text (Text × ℕ) :=
  match splitLast ':' authority with
  | some (host,port) =>
    match parseUnsigned 65536 port with
    | some port => .ok (host,port)
    | none => .error ("invalid port in CONNECT: ".toList ++ authority)
  | none => .ok (authority,443)

def parseRequest (request : Text) : Except Text (Text × ℕ) :=
  match words (firstLine request) with
  | method :: authority :: _ =>
    if method.map Char.toLower = "connect".toList then parseAuthority authority
    else .error ("not an HTTP CONNECT request: ".toList ++ firstLine request)
  | _ => .error ("not an HTTP CONNECT request: ".toList ++ firstLine request)

def httpConnectHandshake : Handshake (Text × ℕ) := do
  let buf ← readHeader 8193 []
  match parseRequest (Utf8.decodeLossy buf) with
  | .ok target => pure target
  | .error message => fail message

/-- `handle_connection`, up to `proxy.open`. -/
def handshake : Handshake (Text × ℕ) := fun s =>
  if peek s = 5 then run socks5Handshake s else run httpConnectHandshake s

/-! ## What the steps do -/

variable {β : Type} {s s' : TcpStream}

theorem bind_ok {x : Handshake α} {f : α → Handshake β} {a : α} (h : run x s = (.ok a,s')) :
    run (x >>= f) s = run (f a) s' := by
  simp only [run,ExceptT.run,StateT.run] at h ⊢
  simp only [bind,ExceptT.bind,ExceptT.mk,StateT.bind,h]
  rfl

@[simp] theorem run_pure (a : α) : run (pure a) s = (.ok a,s) := rfl

theorem ensure_ok {p : Prop} [Decidable p] {message : Text} (h : p) :
    run (ensure p message) s = (.ok (),s) := by
  rw [ensure,if_pos h]
  rfl

theorem run_writeAll (bytes : List UInt8) :
    run (writeAll bytes) s = (.ok (),⟨s.incoming,s.outgoing ++ bytes⟩) := rfl

/-- What is there is read, and the rest is left, wherever the segments end. -/
theorem readExact_ok {a b : List UInt8} {n : ℕ} {incoming : List (List UInt8)}
    (hn : a.length = n) (h : incoming.flatten = a ++ b) :
    ∃ rest, rest.flatten = b ∧
      ∀ out, run (readExact n) ⟨incoming,out⟩ = (.ok a,⟨rest,out⟩) := by
  obtain ⟨rest,hr,hb⟩ := Segments.readExact_append a incoming b h
  refine ⟨rest,hb,fun out => ?_⟩
  show readExact n ⟨incoming,out⟩ = _
  rw [readExact,← hn,hr]

end Handshake

end Limux
