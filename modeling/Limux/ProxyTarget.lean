import Limux.ProxyBridge

/-! The address that the daemon dials for a request of either protocol. -/
namespace Limux

open Text Address

/-- What a client asks the proxy for. -/
structure ProxyTarget where
  host : Address.Host
  port : ℕ
  valid : match host with
    | .ipv4 octets => octets.length = 4 ∧ ∀ n ∈ octets, n < 256
    | .ipv6 groups => groups.length = 8 ∧ ∀ n ∈ groups, n < 65536
    | .name name => isName name = true ∧ (Utf8.encode name).length < 256
  positive : 0 < port
  small : port < 65536

def SocksAddress.denoted : SocksAddress → Address.Host
  | ipv4 addr _ => .ipv4 (addr.map UInt8.toNat)
  | domain name _ => .name name
  | ipv6 addr _ => .ipv6 (Handshake.groups addr)

def SocksRequest.Asks (r : SocksRequest) (t : ProxyTarget) : Prop :=
  r.address.denoted = t.host ∧ r.port = t.port

/-- The authority form: an IPv6 address has brackets around any of its texts. -/
def ConnectRequest.Asks (r : ConnectRequest) (t : ProxyTarget) : Prop :=
  r.port = t.port ∧
    match t.host with
    | .ipv4 octets => r.host = dotted octets
    | .ipv6 groups => ∃ literal, r.host = '[' :: literal ++ [']'] ∧
        denoteHost literal = some (.ipv6 groups)
    | .name name => r.host = name

def ProxyTarget.IsIpv6 (t : ProxyTarget) : Prop := ∃ groups, t.host = .ipv6 groups

def Daemon.dialAddress (host : Text) (port : ℤ) : Text := joinHostPort host (ofInt port)

/-- From the bytes of a connection to the address that the daemon dials for it: the handshake,
the parameters of `proxy.open`, the request loop. -/
def proxyDial {F : Type} (trunc : F → Option ℤ) (d : Daemon F) (k : ℕ) (c : Tunnel.CallIx)
    (s : TcpStream) : Option Text :=
  match (Handshake.run Handshake.handshake s).1 with
  | .error _ => none
  | .ok (host,port) =>
    match (d.handleProxyOpen trunc ((Tunnel.openCall k host port).request c)).loop with
    | .dialing _ host port => some (Daemon.dialAddress host port)
    | _ => none

section

variable {F : Type} {trunc : F → Option ℤ} {d : Daemon F} {k : ℕ} {c : Tunnel.CallIx}
  {s : TcpStream} {payload : List UInt8} {t : ProxyTarget}

theorem proxyDial_eq (r : ProxyRequest) (h : s.incoming.flatten = r.wire ++ payload)
    (hne : r.host ≠ []) (hpos : 0 < r.port) (hlt : r.port < 65536) :
    proxyDial trunc d k c s = some (joinHostPort r.host (ofNat r.port)) := by
  obtain ⟨rest,out,-,hrun⟩ := Handshake.handshake_exact r h
  have hh : ((Tunnel.openCall k r.host r.port : Tunnel.Call F).request c).requireString "host" =
      some r.host := by
    show Option.filter _ (some r.host) = _
    simp [Option.filter_some,hne]
  have hp : (RpcRequest.getIntParam trunc
      ((Tunnel.openCall k r.host r.port : Tunnel.Call F).request c).params "port").filter
      (fun port => 0 < port ∧ port ≤ 65535) = some (r.port : ℤ) := by
    show Option.filter _ (some (r.port : ℤ)) = _
    rw [Option.filter_some,if_pos]
    simp only [decide_eq_true_eq]
    omega
  simp only [proxyDial,hrun,Daemon.handleProxyOpen,hh,hp]
  rfl

namespace ProxyTarget

theorem brackets_notMem_name {name : Text} (h : isName name = true) : '[' ∉ name ∧ ']' ∉ name := by
  simp only [isName,Bool.and_eq_true,List.all_eq_true] at h
  exact ⟨fun hm => by simpa using h.1.2 _ hm,fun hm => by simpa using h.1.2 _ hm⟩

theorem brackets_notMem_dotted {octets : List ℕ} : '[' ∉ dotted octets ∧ ']' ∉ dotted octets := by
  constructor
  all_goals
    intro hm
    rcases mem_dotted hm with hm | hm
    · exact absurd hm (by decide)
    · exact absurd hm (by decide)

theorem brackets_notMem_colonHex {groups : List ℕ} :
    '[' ∉ colonHex groups ∧ ']' ∉ colonHex groups :=
  ⟨fun hm => (mem_colonHex hm).1 rfl,fun hm => (mem_colonHex hm).2 rfl⟩

/-- A text of the target without brackets, joined with the port, is an address of it. -/
theorem dials (r : ProxyRequest) (h : s.incoming.flatten = r.wire ++ payload)
    (hp : r.port = t.port) (hb : '[' ∉ r.host ∧ ']' ∉ r.host)
    (hd : denoteHost r.host = some t.host) :
    ∃ a, proxyDial trunc d k c s = some a ∧ denote a = some (t.host,t.port) := by
  have hne : r.host ≠ [] := by
    intro hn
    rw [hn] at hd
    cases hd
  refine ⟨_,proxyDial_eq r h hne (hp ▸ t.positive) (hp ▸ t.small),?_⟩
  rw [hp,denote_joinHostPort hb.1 hb.2 t.positive t.small,hd]
  rfl

theorem bigEndian_lt (a b : UInt8) : Handshake.bigEndian a b < 65536 := by
  have ha := a.toNat_lt
  have hb := b.toNat_lt
  rw [Handshake.bigEndian]
  omega

theorem length_groups (addr : List UInt8) : (Handshake.groups addr).length = 8 := by
  simp [Handshake.groups]

theorem groups_lt {addr : List UInt8} {n : ℕ} (h : n ∈ Handshake.groups addr) : n < 65536 := by
  obtain ⟨i,-,rfl⟩ := List.mem_map.mp h
  exact bigEndian_lt _ _

/-- A SOCKS5 request is dialed at what it asks for, whatever that is. -/
theorem socks_dials (r : SocksRequest) (hr : r.Asks t)
    (h : s.incoming.flatten = r.wire ++ payload) :
    ∃ a, proxyDial trunc d k c s = some a ∧ denote a = some (t.host,t.port) := by
  obtain ⟨ha,hp⟩ := hr
  have hv := t.valid
  apply dials (.socks r) h hp
  · show '[' ∉ r.address.host ∧ ']' ∉ r.address.host
    cases hra : r.address with
    | ipv4 addr full => exact brackets_notMem_dotted
    | ipv6 addr full => exact brackets_notMem_colonHex
    | domain name short =>
      rw [hra] at ha
      rw [← ha] at hv
      exact brackets_notMem_name hv.1
  · show denoteHost r.address.host = some t.host
    rw [← ha] at hv ⊢
    cases hra : r.address with
    | ipv4 addr full =>
      refine denoteHost_dotted (by simpa using full) (fun n hn => ?_)
      obtain ⟨b,-,rfl⟩ := List.mem_map.mp hn
      exact b.toNat_lt
    | ipv6 addr full => exact denoteHost_colonHex (length_groups addr) (fun _ => groups_lt)
    | domain name short =>
      rw [hra] at hv
      exact denoteHost_name hv.1

/-- An HTTP request is dialed at what it asks for when that is no IPv6 address. -/
theorem connect_dials (r : ConnectRequest) (fits : r.wire.length ≤ 8192) (hr : r.Asks t)
    (h : s.incoming.flatten = r.wire ++ payload) (hn : ¬ t.IsIpv6) :
    ∃ a, proxyDial trunc d k c s = some a ∧ denote a = some (t.host,t.port) := by
  obtain ⟨hp,hr⟩ := hr
  have hv := t.valid
  apply dials (.connect r fits) h hp
  · show '[' ∉ r.host ∧ ']' ∉ r.host
    cases ht : t.host with
    | ipv4 octets =>
      rw [ht] at hr
      exact hr ▸ brackets_notMem_dotted
    | ipv6 groups => exact absurd ⟨groups,ht⟩ hn
    | name name =>
      rw [ht] at hr hv
      exact hr ▸ brackets_notMem_name hv.1
  · show denoteHost r.host = some t.host
    cases ht : t.host with
    | ipv4 octets =>
      rw [ht] at hr hv
      exact hr ▸ denoteHost_dotted hv.1 hv.2
    | ipv6 groups => exact absurd ⟨groups,ht⟩ hn
    | name name =>
      rw [ht] at hr hv
      rw [hr,denoteHost_name hv.1]

theorem colon_mem_literal {literal : Text} {groups : List ℕ}
    (h : denoteHost literal = some (.ipv6 groups)) : ':' ∈ literal := by
  by_contra hm
  rw [denoteHost,if_neg hm] at h
  rcases Option.or_eq_some_iff.mp h with h | ⟨-,h⟩
  · obtain ⟨l,-,hl⟩ := Option.map_eq_some_iff.mp h
    cases hl
  · obtain ⟨-,h⟩ := Option.ite_none_right_eq_some.mp h
    cases h

/-- For an IPv6 address the brackets of the request stay, and Go adds its own. -/
theorem connect_malformed (trunc : F → Option ℤ) (d : Daemon F) (k : ℕ) (c : Tunnel.CallIx)
    (r : ConnectRequest) (fits : r.wire.length ≤ 8192) (hr : r.Asks t)
    (h : s.incoming.flatten = r.wire ++ payload) (hn : t.IsIpv6) :
    ∃ a, proxyDial trunc d k c s = some a ∧ denote a = none := by
  obtain ⟨hp,hr⟩ := hr
  obtain ⟨groups,ht⟩ := hn
  rw [ht] at hr
  obtain ⟨literal,hh,hd⟩ := hr
  have hne : r.host ≠ [] := by simp [hh]
  have hp : (ProxyRequest.connect r fits).port = t.port := hp
  refine ⟨_,proxyDial_eq (.connect r fits) h hne (hp ▸ t.positive) (hp ▸ t.small),?_⟩
  show denote (joinHostPort r.host (ofNat r.port)) = none
  rw [hh]
  apply denote_bracketed (colon_mem_literal hd)
  exact fun hm => absurd (isDigit_of_mem_ofNat hm) (by decide)

/-- Requests of both protocols for one target, however they come in: the addresses dialed for
them are well formed and both stand for the target exactly when it is no IPv6 address. -/
theorem same_target_iff (trunc : F → Option ℤ) (d : Daemon F) (t : ProxyTarget)
    {socks : SocksRequest} {connect : ConnectRequest} (fits : connect.wire.length ≤ 8192)
    (hsocks : socks.Asks t) (hconnect : connect.Asks t) {s s' : TcpStream}
    {payload payload' : List UInt8} (hs : s.incoming.flatten = socks.wire ++ payload)
    (hs' : s'.incoming.flatten = connect.wire ++ payload') (k k' : ℕ) (c c' : Tunnel.CallIx) :
    (∃ a a', proxyDial trunc d k c s = some a ∧ proxyDial trunc d k' c' s' = some a' ∧
      denote a = some (t.host,t.port) ∧ denote a' = some (t.host,t.port)) ↔ ¬ t.IsIpv6 := by
  constructor
  · rintro ⟨a,a',-,ha',-,hd'⟩ hn
    obtain ⟨b,hb,hd⟩ := connect_malformed trunc d k' c' connect fits hconnect hs' hn
    rw [ha'] at hb
    rw [← Option.some.inj hb,hd'] at hd
    cases hd
  · intro hn
    obtain ⟨a,ha,hd⟩ := socks_dials socks hsocks hs
    obtain ⟨a',ha',hd'⟩ := connect_dials connect fits hconnect hs' hn
    exact ⟨a,a',ha,ha',hd,hd'⟩

def connectRequest (host : Text) (h : Word host) : ConnectRequest where
  method := "CONNECT".toList
  connect := by decide
  host := host
  solid := h
  digits := "443".toList
  port := 443
  read := by decide
  small := by decide
  version := "HTTP/1.1".toList
  plain := by decide
  fields := [[88,58,49]]
  lines := by decide

def gate : ProxyTarget := ⟨.name "gate".toList,443,by decide,by decide,by decide⟩

theorem same_target_gate :
    ∃ a a', proxyDial (fun _ => none) (.init : Daemon ℕ) 0 0 ⟨[[5,0,5,1,0,3,4,103,97,116,101,1,187]],[]⟩ =
        some a ∧
      proxyDial (fun _ => none) (.init : Daemon ℕ) 1 1
        ⟨[(connectRequest "gate".toList (by decide)).wire],[]⟩ = some a' ∧
      denote a = some (.name "gate".toList,443) ∧ denote a' = some (.name "gate".toList,443) := by
  have hn : ¬ gate.IsIpv6 := by
    rintro ⟨groups,h⟩
    cases h
  let socks : SocksRequest :=
    ⟨[],by decide,.domain "gate".toList (by decide),443,by decide⟩
  let connect := connectRequest "gate".toList (by decide)
  have hsocks : socks.Asks gate := ⟨rfl,rfl⟩
  have hconnect : connect.Asks gate := ⟨rfl,rfl⟩
  have hs : [[5,0,5,1,0,3,4,103,97,116,101,1,187]].flatten = socks.wire ++ [] := by decide
  have hs' : [connect.wire].flatten = connect.wire ++ [] := by simp
  exact (same_target_iff (fun _ => none) .init gate (by decide) hsocks hconnect
    (show (⟨_,[]⟩ : TcpStream).incoming.flatten = _ from hs)
    (show (⟨_,[]⟩ : TcpStream).incoming.flatten = _ from hs') 0 1 0 1).mpr hn

/-- The loopback address: dialed as `[0:0:0:0:0:0:0:1]:443` and as `[[::1]]:443`. -/
theorem loopback_malformed :
    ¬ ∀ (t : ProxyTarget) (socks : SocksRequest) (connect : ConnectRequest) (s s' : TcpStream),
      connect.wire.length ≤ 8192 → socks.Asks t → connect.Asks t →
      s.incoming.flatten = socks.wire → s'.incoming.flatten = connect.wire →
      ∃ a a', proxyDial (fun _ => none) (.init : Daemon ℕ) 0 0 s = some a ∧
        proxyDial (fun _ => none) (.init : Daemon ℕ) 1 1 s' = some a' ∧
        denote a = some (t.host,t.port) ∧ denote a' = some (t.host,t.port) := by
  intro h
  have hl : denoteHost "::1".toList = some (.ipv6 [0,0,0,0,0,0,0,1]) := by decide
  let t : ProxyTarget := ⟨.ipv6 [0,0,0,0,0,0,0,1],443,by decide,by decide,by decide⟩
  let socks : SocksRequest :=
    ⟨[],by decide,.ipv6 [0,0,0,0,0,0,0,0,0,0,0,0,0,0,0,1] rfl,443,by decide⟩
  let connect := connectRequest "[::1]".toList (by decide)
  obtain ⟨a,a',-,ha',-,hd'⟩ := h t socks connect ⟨[socks.wire],[]⟩ ⟨[connect.wire],[]⟩
    (by decide) ⟨by decide,rfl⟩ ⟨rfl,_,rfl,hl⟩ (by simp) (by simp)
  have hs : [connect.wire].flatten = connect.wire ++ [] := by simp
  obtain ⟨b,hb,hd⟩ := connect_malformed (fun _ => none) (.init : Daemon ℕ) 1 1 (t := t) connect
    (by decide) ⟨rfl,_,rfl,hl⟩ (s := ⟨_,[]⟩) hs ⟨_,rfl⟩
  rw [ha'] at hb
  rw [← Option.some.inj hb,hd'] at hd
  cases hd

end ProxyTarget

end

end Limux
