import Limux.HandshakeExact
import Limux.TunnelDownload

/-! The tunnel with the sockets of its connections: the handshake of a connection, the
`proxy.open` for what it asks, and the `proxy.write` calls with what the socket has after it. -/
namespace Limux

open Machine

structure ProxyBridge (F : Type) where
  tunnel : Tunnel F
  /-- By the order in which the handshakes end. -/
  sockets : ℕ → TcpStream

namespace ProxyBridge

open Tunnel

variable {F : Type}

def init (sockets : ℕ → TcpStream) : ProxyBridge F := ⟨.init,sockets⟩

/-- A handshake that ends well, and a chunk for `proxy.write`, come from the socket. -/
def step (trunc : F → Option ℤ) (b : ProxyBridge F) : Act F → Option (ProxyBridge F)
  | .connect host port =>
    let k := b.tunnel.connections.length
    match Handshake.run Handshake.handshake (b.sockets k) with
    | (.ok (host',port'),s) =>
      if host = host' ∧ port = port' then
        (Tunnel.step trunc b.tunnel (.connect host port)).map
          (fun t => ⟨t,Function.update b.sockets k s⟩)
      else none
    | (.error _,_) => none
  | .upload k data =>
    let (chunk,rest) := Segments.read 16384 (b.sockets k).incoming
    if data = chunk then
      (Tunnel.step trunc b.tunnel (.upload k data)).map
        (fun t => ⟨t,Function.update b.sockets k ⟨rest,(b.sockets k).outgoing⟩⟩)
    else none
  | a => (Tunnel.step trunc b.tunnel a).map (fun t => ⟨t,b.sockets⟩)

end ProxyBridge

namespace Tunnel

variable {F : Type}

def openCall (k : ℕ) (host : Text) (port : ℕ) : Call F :=
  ⟨some k,"proxy.open",[("host",.str host),("port",.num (.int port))]⟩

def writeCall (k : ℕ) (stream : Text) (data : List UInt8) : Call F :=
  ⟨some k,"proxy.write",[("data_base64",.str (Base64.encode data)),("stream_id",.str stream)]⟩

/-- The calls of a method that a connection made, in their order. -/
def callsOf (t : Tunnel F) (k : ℕ) (method : String) : List (Call F) :=
  t.calls.filter (fun c => c.owner = some k ∧ c.method = method)

/-- What the daemon reads of a `proxy.write`. -/
def Call.carried (c : Call F) : List UInt8 :=
  ((RpcRequest.getStringParam c.params "data_base64").bind Daemon.decodeString).getD []

/-- The bytes of the `proxy.write` calls of a connection. -/
def carried (t : Tunnel F) (k : ℕ) : List UInt8 := (t.callsOf k "proxy.write").flatMap Call.carried

variable {trunc : F → Option ℤ} {t t' : Tunnel F}

theorem decodeString_encode (l : List UInt8) : Daemon.decodeString (Base64.encode l) = some l := by
  have hf : (Base64.encode l).filter (fun c => c ≠ '\n' ∧ c ≠ '\r') = Base64.encode l := by
    rw [List.filter_eq_self]
    intro c hc
    rcases Base64.mem_encode hc with rfl | hc
    · rfl
    · have hall : Base64.alphabet.all (fun c => c ≠ '\n' ∧ c ≠ '\r') = true := by decide +kernel
      exact List.all_eq_true.mp hall c hc
  rw [Daemon.decodeString,hf,Base64.decode_encode]

@[simp] theorem carried_writeCall (k : ℕ) (stream : Text) (data : List UInt8) :
    (writeCall k stream data : Call F).carried = data := by
  have hp : RpcRequest.getStringParam (writeCall k stream data : Call F).params "data_base64" =
      some (Base64.encode data) := rfl
  rw [Call.carried,hp,Option.bind_some,decodeString_encode]
  rfl

theorem calls_deliver (t : Tunnel F) (m : Incoming F) : (t.deliver m).calls = t.calls := by
  cases m with
  | skip => rfl
  | response id r | event e =>
    rw [deliver]
    split <;> rfl

theorem length_deliver (t : Tunnel F) (m : Incoming F) :
    (t.deliver m).connections.length = t.connections.length := by
  cases m with
  | skip => rfl
  | response id r =>
    rw [deliver]
    split <;> rfl
  | event e =>
    rw [deliver]
    split
    · exact List.length_modify _ _ _
    · rfl

/-- The calls that a step makes, as far as they open or write a stream for a connection. -/
inductive Makes (t : Tunnel F) : Act F → List (Call F) → ℕ → Prop
  | connect (host : Text) (port : ℕ) :
      Makes t (.connect host port) [openCall t.connections.length host port]
        (t.connections.length+1)
  | upload (k : ℕ) (stream : Text) (data : List UInt8) (hk : k < t.connections.length) :
      Makes t (.upload k data) [writeCall k stream data] t.connections.length
  | other {a : Act F} {l : List (Call F)} (ha : ∀ host port, a ≠ .connect host port)
      (hu : ∀ k data, a ≠ .upload k data)
      (hl : ∀ c ∈ l, c.owner = none ∨ c.method = "proxy.close" ∨
        c.method = "proxy.stream.subscribe") :
      Makes t a l t.connections.length

theorem makes_of_turn {k : ℕ} {x x' : Connection F} {a : Act F} {y : Option (Call F)}
    {subs : HashMap Text ℕ} (hx : t.connections[k]? = some x) (ht : Turn t k x a y subs x') :
    Makes t a y.toList t.connections.length := by
  cases ht with
  | upload hp => exact .upload k _ _ (List.getElem?_eq_some_iff.mp hx).1
  | subscribe => exact .other (by simp) (by simp) (by simp [subscribeCall])
  | close he => cases he <;> exact .other (by simp) (by simp) (by simp [closeCall])
  | _ => exact .other (by simp) (by simp) (by simp)

theorem makes_of_step {a : Act F} (hs : Step trunc t a t') :
    ∃ l, t'.calls = t.calls ++ l ∧ Makes t a l t'.connections.length := by
  cases hs with
  | connect host port => exact ⟨_,rfl,by simpa using .connect host port⟩
  | foreign ho hn => exact ⟨_,rfl,.other (by simp) (by simp) (by simp)⟩
  | turn ha hx ht =>
    refine ⟨_,calls_place t _,?_⟩
    simpa [turn] using makes_of_turn hx ht
  | route hst hf =>
    refine ⟨[],(calls_deliver t _).trans (List.append_nil _).symm,?_⟩
    simpa [length_deliver] using .other (by simp) (by simp) (by simp)
  | _ => exact ⟨[],(List.append_nil _).symm,.other (by simp) (by simp) (by simp)⟩

theorem callsOf_append {l : List (Call F)} (h : t'.calls = t.calls ++ l) (k : ℕ) (m : String) :
    t'.callsOf k m = t.callsOf k m ++ l.filter (fun c => c.owner = some k ∧ c.method = m) := by
  rw [callsOf,h,List.filter_append]
  rfl

end Tunnel

namespace ProxyBridge

open Tunnel

variable {F : Type} {trunc : F → Option ℤ} {b b' : ProxyBridge F} {sockets : ℕ → TcpStream}

theorem step_cases {a : Act F} (h : step trunc b a = some b') :
    ∃ t, Tunnel.step trunc b.tunnel a = some t ∧
      ((∃ host port s, a = .connect host port ∧
          Handshake.run Handshake.handshake (b.sockets b.tunnel.connections.length) =
            (.ok (host,port),s) ∧
          b' = ⟨t,Function.update b.sockets b.tunnel.connections.length s⟩) ∨
        (∃ k, a = .upload k (Segments.read 16384 (b.sockets k).incoming).1 ∧
          b' = ⟨t,Function.update b.sockets k
            ⟨(Segments.read 16384 (b.sockets k).incoming).2,(b.sockets k).outgoing⟩⟩) ∨
        ((∀ host port, a ≠ .connect host port) ∧ (∀ k data, a ≠ .upload k data) ∧
          b' = ⟨t,b.sockets⟩)) := by
  cases a with
  | connect host port =>
    simp only [step] at h
    split at h
    · rename_i host' port' s hs
      obtain ⟨⟨hh,hp⟩,h'⟩ := Option.ite_none_right_eq_some.mp h
      obtain ⟨t,ht,rfl⟩ := Option.map_eq_some_iff.mp h'
      exact ⟨t,ht,.inl ⟨host,port,s,rfl,by rw [hs,hh,hp],rfl⟩⟩
    · cases h
  | upload k data =>
    simp only [step] at h
    obtain ⟨hd,h'⟩ := Option.ite_none_right_eq_some.mp h
    obtain ⟨t,ht,rfl⟩ := Option.map_eq_some_iff.mp h'
    exact ⟨t,ht,.inr (.inl ⟨k,by rw [hd],rfl⟩)⟩
  | _ =>
    simp only [step] at h
    obtain ⟨t,ht,rfl⟩ := Option.map_eq_some_iff.mp h
    exact ⟨t,ht,.inr (.inr ⟨by simp,by simp,rfl⟩)⟩

/-- What a connection asked for has been opened, once; what has been written to it and what
its socket still has are what the handshake left. -/
def Serves (sockets : ℕ → TcpStream) (b : ProxyBridge F) (k : ℕ) : Prop :=
  ∃ host port s, Handshake.run Handshake.handshake (sockets k) = (.ok (host,port),s) ∧
    b.tunnel.callsOf k "proxy.open" = [openCall k host port] ∧
    b.tunnel.carried k ++ (b.sockets k).incoming.flatten = s.incoming.flatten

/-- Nothing has happened for a connection to come. -/
structure Untouched (sockets : ℕ → TcpStream) (b : ProxyBridge F) (k : ℕ) : Prop where
  socket : b.sockets k = sockets k
  opens : b.tunnel.callsOf k "proxy.open" = []
  writes : b.tunnel.callsOf k "proxy.write" = []

structure Carries (sockets : ℕ → TcpStream) (b : ProxyBridge F) : Prop where
  there : ∀ k < b.tunnel.connections.length, Serves sockets b k
  yet : ∀ k, b.tunnel.connections.length ≤ k → Untouched sockets b k

/-- A step that is none of the connection's. -/
structure Leaves (b b' : ProxyBridge F) (k : ℕ) : Prop where
  socket : b'.sockets k = b.sockets k
  opens : b'.tunnel.callsOf k "proxy.open" = b.tunnel.callsOf k "proxy.open"
  writes : b'.tunnel.callsOf k "proxy.write" = b.tunnel.callsOf k "proxy.write"

theorem Leaves.serves {k : ℕ} (h : Leaves b b' k) (hs : Serves sockets b k) :
    Serves sockets b' k := by
  obtain ⟨host,port,s,hrun,ho,hc⟩ := hs
  refine ⟨host,port,s,hrun,h.opens.trans ho,?_⟩
  rw [h.socket,carried,h.writes]
  exact hc

theorem Leaves.untouched {k : ℕ} (h : Leaves b b' k) (hu : Untouched sockets b k) :
    Untouched sockets b' k :=
  ⟨h.socket.trans hu.socket,h.opens.trans hu.opens,h.writes.trans hu.writes⟩

theorem carries_init (sockets : ℕ → TcpStream) : Carries sockets (init sockets : ProxyBridge F) :=
  ⟨fun _ hk => absurd hk (Nat.not_lt_zero _),fun _ _ => ⟨rfl,rfl,rfl⟩⟩

/-- Calls that are not the connection's, or of other methods. -/
theorem leaves_of_calls {t : Tunnel F} {s : ℕ → TcpStream} {l : List (Call F)} {k : ℕ}
    (hcalls : t.calls = b.tunnel.calls ++ l) (hs : s k = b.sockets k)
    (hl : ∀ c ∈ l, c.owner = some k → c.method ≠ "proxy.open" ∧ c.method ≠ "proxy.write") :
    Leaves b ⟨t,s⟩ k := by
  have hnone : ∀ m, m = "proxy.open" ∨ m = "proxy.write" →
      l.filter (fun c => c.owner = some k ∧ c.method = m) = [] := by
    intro m hm
    rw [List.filter_eq_nil_iff]
    intro c hc
    rw [decide_eq_true_eq]
    rintro ⟨ho,rfl⟩
    exact hm.elim (hl c hc ho).1 (hl c hc ho).2
  refine ⟨hs,?_,?_⟩
  · rw [callsOf_append hcalls,hnone _ (.inl rfl),List.append_nil]
  · rw [callsOf_append hcalls,hnone _ (.inr rfl),List.append_nil]

theorem Carries.connect (h : Carries sockets b) {host : Text} {port : ℕ} {s : TcpStream}
    {t : Tunnel F}
    (hrun : Handshake.run Handshake.handshake (b.sockets b.tunnel.connections.length) =
      (.ok (host,port),s))
    (hcalls : t.calls = b.tunnel.calls ++ [openCall b.tunnel.connections.length host port])
    (hlen : t.connections.length = b.tunnel.connections.length+1) :
    Carries sockets ⟨t,Function.update b.sockets b.tunnel.connections.length s⟩ := by
  have hleaves : ∀ k, k ≠ b.tunnel.connections.length →
      Leaves b ⟨t,Function.update b.sockets b.tunnel.connections.length s⟩ k := by
    intro k hk
    apply leaves_of_calls hcalls (Function.update_of_ne hk _ _)
    intro c hc ho
    rw [List.mem_singleton.mp hc] at ho
    exact absurd (Option.some.inj ho).symm hk
  constructor
  · intro k hk
    by_cases hn : k = b.tunnel.connections.length
    · subst hn
      have hu := h.yet _ (Nat.le_refl _)
      refine ⟨host,port,s,hu.socket ▸ hrun,?_,?_⟩
      · simp [callsOf_append hcalls,hu.opens,openCall]
      · simp [carried,callsOf_append hcalls,hu.writes,openCall]
    · simp only [hlen] at hk
      exact (hleaves k hn).serves (h.there k (by omega))
  · intro k hk
    simp only [hlen] at hk
    exact (hleaves k (by omega)).untouched (h.yet k (by omega))

theorem Carries.upload (h : Carries sockets b) {k : ℕ} {stream : Text} {t : Tunnel F}
    (hk : k < b.tunnel.connections.length)
    (hcalls : t.calls = b.tunnel.calls ++
      [writeCall k stream (Segments.read 16384 (b.sockets k).incoming).1])
    (hlen : t.connections.length = b.tunnel.connections.length) :
    Carries sockets ⟨t,Function.update b.sockets k
      ⟨(Segments.read 16384 (b.sockets k).incoming).2,(b.sockets k).outgoing⟩⟩ := by
  have hleaves : ∀ j, j ≠ k → Leaves b ⟨t,Function.update b.sockets k
      ⟨(Segments.read 16384 (b.sockets k).incoming).2,(b.sockets k).outgoing⟩⟩ j := by
    intro j hj
    apply leaves_of_calls hcalls (Function.update_of_ne hj _ _)
    intro c hc ho
    rw [List.mem_singleton.mp hc] at ho
    exact absurd (Option.some.inj ho).symm hj
  constructor
  · intro j hj
    by_cases hn : j = k
    · subst hn
      obtain ⟨host,port,s,hrun,ho,hc⟩ := h.there j hk
      refine ⟨host,port,s,hrun,?_,?_⟩
      · simp [callsOf_append hcalls,ho,writeCall]
      · have hw : t.carried j = b.tunnel.carried j ++
            (Segments.read 16384 (b.sockets j).incoming).1 := by
          have hf : [writeCall j stream (Segments.read 16384 (b.sockets j).incoming).1].filter
              (fun c : Call F => c.owner = some j ∧ c.method = "proxy.write") =
              [writeCall j stream (Segments.read 16384 (b.sockets j).incoming).1] := by
            simp [writeCall]
          rw [carried,callsOf_append hcalls,hf,List.flatMap_append,List.flatMap_singleton,
            carried_writeCall]
          rfl
        simp only [hw,Function.update_self,List.append_assoc,Segments.read_flatten,hc]
    · exact (hleaves j hn).serves (h.there j (hlen ▸ hj))
  · intro j hj
    simp only [hlen] at hj
    exact (hleaves j (by omega)).untouched (h.yet j hj)

theorem Carries.step {a : Act F} (h : Carries sockets b) (hs : step trunc b a = some b') :
    Carries sockets b' := by
  obtain ⟨t,ht,hb⟩ := step_cases hs
  obtain ⟨l,hl,hm⟩ := makes_of_step (step_sound ht)
  generalize hn : t.connections.length = n at hm
  rcases hb with ⟨host,port,s,rfl,hrun,rfl⟩ | ⟨k,rfl,rfl⟩ | ⟨hc,hu,rfl⟩
  · cases hm with
    | connect => exact h.connect hrun hl hn
    | other hc _ _ => exact absurd rfl (hc host port)
  · cases hm with
    | upload k stream data hk => exact h.upload hk hl hn
    | other _ hu _ => exact absurd rfl (hu k _)
  · cases hm with
    | connect host port => exact absurd rfl (hc host port)
    | upload k stream data hk => exact absurd rfl (hu k data)
    | other _ _ hl' =>
      have hleaves : ∀ k, Leaves b ⟨t,b.sockets⟩ k := by
        intro k
        apply leaves_of_calls hl rfl
        intro c hc ho
        rcases hl' c hc with hc | hc | hc
        · rw [hc] at ho
          cases ho
        · exact ⟨by simp [hc],by simp [hc]⟩
        · exact ⟨by simp [hc],by simp [hc]⟩
      exact ⟨fun k hk => (hleaves k).serves (h.there k (hn ▸ hk)),
        fun k hk => (hleaves k).untouched (h.yet k (hn ▸ hk))⟩

theorem carries_of_reach (h : Reach (step trunc) anyStep (init sockets) b) : Carries sockets b :=
  h.inv (carries_init sockets) fun _ _ _ hc _ hs => hc.step hs

/-- A chunk that has arrived goes out with the next `proxy.write`. -/
theorem upload_writes {k : ℕ} {x : Connection F} {stream : Text} {chunk : List UInt8}
    {rest : List (List UInt8)} (hx : b.tunnel.connections[k]? = some x)
    (hp : x.phase = .bridging stream none)
    (hread : Segments.read 16384 (b.sockets k).incoming = (chunk,rest))
    (hne : (b.sockets k).incoming.flatten ≠ []) :
    chunk ≠ [] ∧ ∃ b', step trunc b (.upload k chunk) = some b' ∧
      b'.tunnel.callsOf k "proxy.write" =
        b.tunnel.callsOf k "proxy.write" ++ [writeCall k stream chunk] ∧
      b'.tunnel.carried k = b.tunnel.carried k ++ chunk ∧ (b'.sockets k).incoming = rest := by
  have hnil : chunk ≠ [] := fun hn =>
    hne ((Segments.read_eq_nil_iff (Nat.succ_pos 16383) _).mp (by rw [hread]; exact hn))
  have hlen : chunk.length ≤ 16384 := by
    have hle := Segments.length_read_le 16384 (b.sockets k).incoming
    rwa [hread] at hle
  have hstep : ∃ t, Tunnel.step trunc b.tunnel (.upload k chunk) = some t ∧
      t.calls = b.tunnel.calls ++ [writeCall k stream chunk] := by
    simp only [Tunnel.step,Act.connection,hx,Option.bind_some,stepConnection,hp,
      List.length_pos_iff.mpr hnil,hlen,and_self,if_true]
    exact ⟨_,rfl,rfl⟩
  obtain ⟨t,ht,hcalls⟩ := hstep
  have hwrite : t.callsOf k "proxy.write" =
      b.tunnel.callsOf k "proxy.write" ++ [writeCall k stream chunk] := by
    rw [callsOf_append hcalls]
    simp [writeCall]
  refine ⟨hnil,⟨t,Function.update b.sockets k ⟨rest,(b.sockets k).outgoing⟩⟩,?_,hwrite,?_,?_⟩
  · simp only [step,hread,if_true,ht,Option.map_some]
  · rw [carried,hwrite,List.flatMap_append,List.flatMap_singleton,carried_writeCall]
    rfl
  · simp only [Function.update_self]

def socksRequest : SocksRequest := ⟨[0],by decide,.domain "h".toList (by decide),80,by decide⟩

def pipelined : TcpStream := ⟨[[5,1,0,5,1,0,3,1,104,0],[80,104],[],[105,33]],[]⟩

end ProxyBridge

end Limux
