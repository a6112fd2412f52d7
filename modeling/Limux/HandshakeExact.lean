import Limux.Handshake
import Limux.Lib.Block

/-! A handshake reads exactly the request: for any segments, host and port are those of the
request, and what is left on the socket is the payload behind it. -/
namespace Limux

open Text

/-- DST.ADDR of a SOCKS5 request. -/
inductive SocksAddress
  | ipv4 (addr : List UInt8) (full : addr.length = 4)
  | domain (name : Text) (short : (Utf8.encode name).length < 256)
  | ipv6 (addr : List UInt8) (full : addr.length = 16)

/-- What a SOCKS5 client sends for a CONNECT. -/
structure SocksRequest where
  methods : List UInt8
  few : methods.length < 256
  address : SocksAddress
  port : ℕ
  small : port < 65536

/-- What an HTTP client sends for a CONNECT. -/
structure ConnectRequest where
  method : Text
  connect : method.map Char.toLower = "connect".toList
  host : Text
  solid : Word host
  /-- The port as it is written. -/
  digits : Text
  port : ℕ
  read : Text.digits digits = some port
  small : port < 65536
  version : Text
  plain : Word version
  /-- The header fields, without their line ends. -/
  fields : List (List UInt8)
  lines : ∀ l ∈ fields, l ≠ [] ∧ 10 ∉ l

namespace SocksAddress

def atyp : SocksAddress → UInt8
  | ipv4 .. => 1
  | domain .. => 3
  | ipv6 .. => 4

def wire : SocksAddress → List UInt8
  | ipv4 addr _ | ipv6 addr _ => addr
  | domain name _ => UInt8.ofNat (Utf8.encode name).length :: Utf8.encode name

def host : SocksAddress → Text
  | ipv4 addr _ => Address.dotted (addr.map UInt8.toNat)
  | domain name _ => name
  | ipv6 addr _ => Address.colonHex (Handshake.groups addr)

end SocksAddress

namespace SocksRequest

def greeting (r : SocksRequest) : List UInt8 := [5,UInt8.ofNat r.methods.length]

def header (r : SocksRequest) : List UInt8 := [5,1,0,r.address.atyp]

def portBytes (r : SocksRequest) : List UInt8 :=
  [UInt8.ofNat (r.port/256),UInt8.ofNat (r.port%256)]

def wire (r : SocksRequest) : List UInt8 :=
  r.greeting ++ (r.methods ++ (r.header ++ (r.address.wire ++ r.portBytes)))

end SocksRequest

namespace ConnectRequest

def authority (r : ConnectRequest) : Text := r.host ++ ':' :: r.digits

def requestLine (r : ConnectRequest) : Text := spaced [r.method,r.authority,r.version]

def wire (r : ConnectRequest) : List UInt8 :=
  Block.block 13 10 (Utf8.encode r.requestLine :: r.fields)

end ConnectRequest

/-- A well-formed request of either protocol. -/
inductive ProxyRequest
  | socks (r : SocksRequest)
  | connect (r : ConnectRequest) (fits : r.wire.length ≤ 8192)

namespace ProxyRequest

def wire : ProxyRequest → List UInt8
  | socks r => r.wire
  | connect r _ => r.wire

def host : ProxyRequest → Text
  | socks r => r.address.host
  | connect r _ => r.host

def port : ProxyRequest → ℕ
  | socks r => r.port
  | connect r _ => r.port

end ProxyRequest

namespace Handshake

variable {incoming : List (List UInt8)} {payload : List UInt8}

theorem toNat_ofNat {n : ℕ} (h : n < 256) : (UInt8.ofNat n).toNat = n := by
  rw [UInt8.toNat_ofNat',Nat.mod_eq_of_lt h]

theorem bigEndian_split {n : ℕ} (h : n < 65536) :
    bigEndian (UInt8.ofNat (n/256)) (UInt8.ofNat (n%256)) = n := by
  rw [bigEndian,toNat_ofNat (by omega),toNat_ofNat (by omega)]
  omega

theorem readHost_exact (a : SocksAddress) (h : incoming.flatten = a.wire ++ payload) :
    ∃ rest, rest.flatten = payload ∧
      ∀ out, run (readHost a.atyp) ⟨incoming,out⟩ = (.ok a.host,⟨rest,out⟩) := by
  cases a with
  | ipv4 addr full =>
    obtain ⟨rest,hr,h₁⟩ := readExact_ok full h
    exact ⟨rest,hr,fun out => bind_ok (h₁ out)⟩
  | ipv6 addr full =>
    obtain ⟨rest,hr,h₁⟩ := readExact_ok full h
    exact ⟨rest,hr,fun out => bind_ok (h₁ out)⟩
  | domain name short =>
    obtain ⟨rest,hr,h₁⟩ := readExact_ok (a := [UInt8.ofNat (Utf8.encode name).length])
      (n := 1) rfl h
    obtain ⟨rest,hr,h₂⟩ := readExact_ok (toNat_ofNat short).symm hr
    refine ⟨rest,hr,fun out => (bind_ok (h₁ out)).trans ((bind_ok (h₂ out)).trans ?_)⟩
    simp only [Utf8.decode?_encode]
    rfl

theorem socks5Handshake_exact (r : SocksRequest) (h : incoming.flatten = r.wire ++ payload) :
    ∃ rest, rest.flatten = payload ∧ ∀ out, run socks5Handshake ⟨incoming,out⟩ =
      (.ok (r.address.host,r.port),⟨rest,out ++ [5,0]⟩) := by
  simp only [SocksRequest.wire,List.append_assoc] at h
  obtain ⟨rest,hr,h₁⟩ := readExact_ok (n := 2) rfl h
  obtain ⟨rest,hr,h₂⟩ := readExact_ok (n := (r.greeting.getD 1 0).toNat)
    (toNat_ofNat r.few).symm hr
  obtain ⟨rest,hr,h₃⟩ := readExact_ok (n := 4) rfl hr
  obtain ⟨rest,hr,h₄⟩ := readHost_exact r.address hr
  obtain ⟨rest,hr,h₅⟩ := readExact_ok (n := 2) rfl hr
  refine ⟨rest,hr,fun out => ?_⟩
  have hv : ∀ s, run (ensure (r.greeting.getD 0 0 = 5) "not SOCKS5".toList) s = (.ok (),s) :=
    fun _ => ensure_ok rfl
  have hc : ∀ s, run (ensureConnect (r.header.getD 1 0)) s = (.ok (),s) := fun _ => rfl
  have ha : r.header.getD 3 0 = r.address.atyp := rfl
  rw [socks5Handshake,bind_ok (h₁ _),bind_ok (hv _),bind_ok (h₂ _),
    bind_ok (run_writeAll [5,0]),bind_ok (h₃ _),bind_ok (hc _),ha,bind_ok (h₄ _),bind_ok (h₅ _),
    run_pure]
  exact congrArg (fun p => (Except.ok (r.address.host,p),_)) (bigEndian_split r.small)

/-- The loop stops where the header ends first. -/
theorem readHeader_exact {header buf : List UInt8} {fuel : ℕ}
    (hfirst : ∀ p q, header = p ++ q → headerEnd <:+ buf ++ p → q = [])
    (hend : headerEnd <:+ buf ++ header) (hne : header ≠ [])
    (hlen : buf.length+header.length ≤ 8192) (hfuel : header.length ≤ fuel)
    (h : incoming.flatten = header ++ payload) :
    ∃ rest, rest.flatten = payload ∧ ∀ out, run (readHeader fuel buf) ⟨incoming,out⟩ =
      (.ok (buf ++ header),⟨rest,out⟩) := by
  induction header generalizing buf fuel incoming with
  | nil => exact absurd rfl hne
  | cons c header ih =>
    obtain ⟨fuel,rfl⟩ : ∃ n, fuel = n+1 := ⟨fuel-1,by simp at hfuel; omega⟩
    obtain ⟨rest,hr,h₁⟩ := readExact_ok (a := [c]) (n := 1) rfl h
    by_cases hc : headerEnd <:+ buf ++ [c]
    · have hq := hfirst [c] header rfl hc
      refine ⟨rest,by rwa [hq] at hr,fun out => ?_⟩
      rw [readHeader,bind_ok (h₁ out),if_pos hc,hq]
      rfl
    · have hb : buf ++ c :: header = buf ++ [c] ++ header := by simp
      have hne' : header ≠ [] := by
        rintro rfl
        exact hc hend
      simp only [List.length_cons] at hlen hfuel
      obtain ⟨rest',hr',h₂⟩ := ih
        (fun p q hpq he => hfirst (c :: p) q (by rw [hpq]; rfl) (by simpa using he))
        (hb ▸ hend) hne' (by simp; omega) (show header.length ≤ fuel by omega) hr
      refine ⟨rest',hr',fun out => ?_⟩
      have hl : ¬ 8192 < (buf ++ [c]).length := by
        rw [List.length_append,List.length_singleton]
        omega
      rw [readHeader,bind_ok (h₁ out),if_neg hc,if_neg hl,h₂,hb]

end Handshake

namespace ConnectRequest

open Handshake

variable (r : ConnectRequest)

theorem toLower_of_not_upper {c : Char} (h : ¬ (c.val ≥ 'A'.val ∧ c.val ≤ 'Z'.val)) :
    c.toLower = c := dif_neg h

theorem val_toLower_of_upper {c : Char} (h : c.val ≥ 'A'.val ∧ c.val ≤ 'Z'.val) :
    c.toLower.val = c.val+32 := congrArg Char.val (dif_pos h)

theorem toLower_of_whitespace {c : Char} (h : isWhitespace c = true) : c.toLower = c := by
  apply toLower_of_not_upper
  simp only [isWhitespace,Bool.or_eq_true,Bool.and_eq_true,decide_eq_true_eq] at h
  rintro ⟨h₁,h₂⟩
  have h₁ : 65 ≤ c.toNat := h₁
  have h₂ : c.toNat ≤ 90 := h₂
  omega

theorem word_method : Word r.method := by
  constructor
  · intro hn
    have := r.connect
    rw [hn] at this
    cases this
  · intro c hc
    by_contra hw
    have hw : isWhitespace c = true := by simpa using hw
    have hm : c ∈ "connect".toList := by
      rw [← r.connect,← toLower_of_whitespace hw]
      exact List.mem_map_of_mem hc
    have hall : "connect".toList.all (fun d => !isWhitespace d) = true := by decide +kernel
    have hn := List.all_eq_true.mp hall c hm
    rw [hw] at hn
    cases hn

theorem head_method : ∃ c m, r.method = c :: m ∧ (c = 'C' ∨ c = 'c') := by
  obtain ⟨c,m,hm⟩ := List.exists_cons_of_ne_nil r.word_method.1
  refine ⟨c,m,hm,?_⟩
  have hc := r.connect
  rw [hm,List.map_cons] at hc
  have hl : c.toLower = 'c' := (List.cons.inj hc).1
  by_cases hu : c.val ≥ 'A'.val ∧ c.val ≤ 'Z'.val
  · left
    have hv : c.val+32 = 99 := (val_toLower_of_upper hu).symm.trans (congrArg Char.val hl)
    exact Char.ext ((UInt32.add_left_inj 32).mp (hv.trans (show 99 = 67+32 by decide)))
  · right
    rwa [toLower_of_not_upper hu] at hl

theorem head_wire (payload : List UInt8) : (r.wire ++ payload).headD 0 ≠ 5 := by
  obtain ⟨c,m,hm,hc⟩ := r.head_method
  have hu : ∃ b bs, String.utf8EncodeChar c = b :: bs ∧ b ≠ 5 := by
    rcases hc with rfl | rfl
    · exact ⟨67,[],rfl,by decide⟩
    · exact ⟨99,[],rfl,by decide⟩
  obtain ⟨b,bs,hb,hne⟩ := hu
  simpa [wire,Block.block,requestLine,spaced_cons_cons,hm,Utf8.encode_cons,hb] using hne

theorem word_authority : Word r.authority := by
  refine ⟨by simp [authority],fun c hc => ?_⟩
  rcases List.mem_append.mp hc with hc | hc
  · exact r.solid.2 c hc
  · rcases List.mem_cons.mp hc with rfl | hc
    · rfl
    · exact isWhitespace_of_isDigit ((of_digits r.read).2 c hc)

theorem words_requestLine : words r.requestLine = [r.method,r.authority,r.version] := by
  apply words_spaced
  intro w hw
  simp only [List.mem_cons,List.not_mem_nil,or_false] at hw
  rcases hw with rfl | rfl | rfl
  · exact r.word_method
  · exact r.word_authority
  · exact r.plain

theorem newline_notMem_requestLine : '\n' ∉ r.requestLine := by
  have hw : ∀ w ∈ [r.method,r.authority,r.version], '\n' ∉ w := by
    intro w hw hn
    have hword := word_of_mem (r.words_requestLine ▸ hw)
    exact absurd (hword.2 _ hn) (by decide)
  intro hn
  simp only [requestLine,spaced_cons_cons,spaced_singleton,List.mem_append,List.mem_cons] at hn
  simp only [List.mem_cons,List.not_mem_nil,or_false,forall_eq_or_imp,forall_eq] at hw
  rcases hn with hn | hn | hn | hn | hn
  · exact hw.1 hn
  · exact absurd hn (by decide)
  · exact hw.2.1 hn
  · exact absurd hn (by decide)
  · exact hw.2.2 hn

theorem parseAuthority_authority : parseAuthority r.authority = .ok (r.host,r.port) := by
  have hc : ':' ∉ r.digits := fun hm => absurd ((of_digits r.read).2 _ hm) (by decide)
  simp only [parseAuthority,authority,splitLast_append hc,
    parseUnsigned_of_digits 65536 r.read,if_pos r.small]

/-- The first line of what the header decodes to is the request line. -/
theorem firstLine_wire : firstLine (Utf8.decodeLossy r.wire) = r.requestLine := by
  have hw : ∃ more, r.wire = Utf8.encode (r.requestLine ++ ['\r','\n']) ++ more := by
    refine ⟨Block.block 13 10 r.fields,?_⟩
    rw [wire,Utf8.encode_append]
    simp only [Block.block,List.flatMap_cons,List.append_assoc]
    rfl
  obtain ⟨more,hw⟩ := hw
  obtain ⟨t,ht⟩ := Utf8.decodeLossy_append (r.requestLine ++ ['\r','\n']) more
  have hs : r.requestLine ++ ['\r','\n'] ++ t = (r.requestLine ++ ['\r']) ++ '\n' :: t := by simp
  have hn : '\n' ∉ r.requestLine ++ ['\r'] := by
    simpa using r.newline_notMem_requestLine
  rw [hw,ht,hs]
  simp only [firstLine,splitOnce_append hn]
  simp

theorem parseRequest_wire : parseRequest (Utf8.decodeLossy r.wire) = .ok (r.host,r.port) := by
  simp only [parseRequest,r.firstLine_wire,r.words_requestLine,if_pos r.connect,
    r.parseAuthority_authority]

end ConnectRequest

namespace Handshake

variable {incoming : List (List UInt8)} {payload : List UInt8}

theorem httpConnectHandshake_exact (r : ConnectRequest) (fits : r.wire.length ≤ 8192)
    (h : incoming.flatten = r.wire ++ payload) :
    ∃ rest, rest.flatten = payload ∧ ∀ out, run httpConnectHandshake ⟨incoming,out⟩ =
      (.ok (r.host,r.port),⟨rest,out⟩) := by
  have hls : ∀ l ∈ Utf8.encode r.requestLine :: r.fields, l ≠ [] ∧ 10 ∉ l := by
    intro l hl
    rcases List.mem_cons.mp hl with rfl | hl
    · refine ⟨?_,fun hm => r.newline_notMem_requestLine (Utf8.newline_mem_encode.mp hm)⟩
      intro hn
      have := Utf8.length_le_encode r.requestLine
      rw [hn] at this
      simp [ConnectRequest.requestLine,spaced_cons_cons] at this
    · exact r.lines l hl
  have hfirst : ∀ p q, r.wire = p ++ q → headerEnd <:+ [] ++ p → q = [] :=
    fun p q hpq he => Block.eq_nil_of_blank (by decide) hls he hpq
  have hend : headerEnd <:+ [] ++ r.wire := Block.blank_suffix (by simp)
  have hne : r.wire ≠ [] := by simp [ConnectRequest.wire,Block.block]
  obtain ⟨rest,hr,h₁⟩ := readHeader_exact hfirst hend hne (by simpa using fits)
    (show r.wire.length ≤ 8193 by omega) h
  refine ⟨rest,hr,fun out => ?_⟩
  rw [httpConnectHandshake,bind_ok (h₁ out)]
  simp only [List.nil_append,r.parseRequest_wire]
  rfl

theorem run_handshake (s : TcpStream) : run handshake s =
    if peek s = 5 then run socks5Handshake s else run httpConnectHandshake s := rfl

/-- The first byte tells the protocols apart. -/
theorem handshake_exact (r : ProxyRequest) {s : TcpStream}
    (h : s.incoming.flatten = r.wire ++ payload) :
    ∃ rest out, rest.flatten = payload ∧
      run handshake s = (.ok (r.host,r.port),⟨rest,out⟩) := by
  cases r with
  | socks r =>
    obtain ⟨rest,hr,h₁⟩ := socks5Handshake_exact r h
    have hp : peek s = 5 := by
      rw [peek,h]
      rfl
    exact ⟨rest,_,hr,(run_handshake s).trans ((if_pos hp).trans (h₁ s.outgoing))⟩
  | connect r fits =>
    obtain ⟨rest,hr,h₁⟩ := httpConnectHandshake_exact r fits h
    have hp : peek s ≠ 5 := by
      rw [peek,h]
      exact r.head_wire payload
    exact ⟨rest,_,hr,(run_handshake s).trans ((if_neg hp).trans (h₁ s.outgoing))⟩

end Handshake

end Limux
