import Limux.RelayAuth
import Limux.Lib.Words

/-! The handshake in all its runs: the two ends agree however their bytes are delivered, and
no other client gets anything forwarded. -/
namespace Limux

open Text Machine

namespace RelayAuth

theorem constantTimeEq_fold (l : List (UInt8 × UInt8)) (d : UInt8) :
    l.foldl (fun diff p => diff ||| (p.1 ^^^ p.2)) d = 0 ↔ d = 0 ∧ ∀ p ∈ l, p.1 = p.2 := by
  induction l generalizing d with
  | nil => simp
  | cons p l ih =>
    rw [List.foldl_cons,ih,UInt8.or_eq_zero_iff,UInt8.xor_eq_zero_iff,List.forall_mem_cons,
      and_assoc]

theorem constantTimeEq_iff (a b : List UInt8) : constantTimeEq a b = true ↔ a = b := by
  unfold constantTimeEq
  split
  · rename_i hne
    exact ⟨fun h => (by cases h),fun h => absurd (congrArg List.length h) hne⟩
  · rename_i hlen
    rw [not_not] at hlen
    rw [beq_iff_eq,constantTimeEq_fold]
    constructor
    · rintro ⟨-,h⟩
      induction a generalizing b with
      | nil => exact (List.eq_nil_of_length_eq_zero hlen.symm).symm
      | cons x a ih =>
        cases b with
        | nil => cases hlen
        | cons y b =>
          rw [List.zip_cons_cons,List.forall_mem_cons] at h
          rw [show x = y from h.1,ih b (Nat.succ.inj hlen) h.2]
    · rintro rfl
      refine ⟨rfl,fun p hp => ?_⟩
      obtain ⟨i,hi,he⟩ := List.mem_iff_getElem.mp hp
      rw [List.getElem_zip] at he
      rw [← he]

theorem fromStrRadix_digits (b : UInt8) :
    fromStrRadix (Hex.digit (b.toNat/16)) (Hex.digit (b.toNat%16)) = some b := by
  have hb := b.toNat_lt
  have hplus : Hex.digit (b.toNat/16) ≠ '+' := fun he => by
    have := Hex.digit_mem (b.toNat/16) (by omega)
    rw [he] at this
    exact absurd this (by decide)
  rw [fromStrRadix,if_neg hplus,Hex.value_digit _ (by omega),Hex.value_digit _ (by omega)]
  simp only [Option.bind_eq_bind,Option.bind_some,Hex.ofNat_halves]

/-- Both languages read a token that was generated alike. -/
theorem hexDecode_encode (l : List UInt8) : hexDecode (Hex.encode l) = some l := by
  induction l with
  | nil => rfl
  | cons b l ih =>
    rw [Hex.encode_cons,hexDecode,ih,fromStrRadix_digits]
    rfl

theorem start_eq (c : Credentials) :
    RelayServer.start c.relayId c.relayToken = some ⟨c.relayId,c.tokenBytes.toList⟩ := by
  rw [RelayServer.start,Credentials.relayToken,randomHex,hexDecode_encode]
  rfl

theorem relayId_ne_nil (c : Credentials) : c.relayId ≠ [] :=
  Hex.encode_ne_nil (fun h => by
    have := c.idBytes.length_toList
    rw [h] at this
    cases this)

/-! What the server asks of a client. -/

/-- The response was accepted. -/
def ServerPhase.trusting : ServerPhase → Bool
  | .accepting | .awaitCommand | .forwarding _ => true
  | _ => false

/-- The response is still to come. -/
def ServerPhase.fresh : ServerPhase → Bool
  | .start | .awaitResponse => true
  | _ => false

variable {F : Type}

/-- The line carries the relay id and the MAC of the nonce. -/
def Carries (hmac : Hmac) (parse : Text → Option (Json F)) (server : RelayServer) (nonce : Text)
    (line : List UInt8) : Prop :=
  ∃ text response, Utf8.encode text = line ∧ parse (trim text) = some response ∧
    response.getStr "relay_id" = some server.relayId ∧
    response.getStr "mac" = some (hexEncode
      (hmac server.relayToken (Utf8.encode (macMessage server.relayId nonce))).toList)

namespace ServerConn

variable {hmac : Hmac} {parse : Text → Option (Json F)} {server : RelayServer}

theorem asStr_index (j : Json F) (key : String) : (j.index key).asStr = j.getStr key := by
  unfold Json.index Json.getStr
  cases j.get key with
  | none => rfl
  | some v => rfl

theorem eq_some_of_getD {o : Option Text} {t : Text} (h : o.getD [] = t) (ht : t ≠ []) :
    o = some t := by
  cases o with
  | none => exact absurd h.symm ht
  | some s => exact congrArg some h

theorem encode_injective {s t : Text} (h : Utf8.encode s = Utf8.encode t) : s = t := by
  rw [← Utf8.decodeLossy_encode s,h,Utf8.decodeLossy_encode]

theorem mac_ne_nil (token message : List UInt8) : hexEncode (hmac token message).toList ≠ [] :=
  Hex.encode_ne_nil (fun h => by
    have := (hmac token message).length_toList
    rw [h] at this
    cases this)

/-- Only a line that carries everything is accepted. -/
theorem carries_of_accepting {nonce text : Text} (hid : server.relayId ≠ [])
    (h : checkResponse hmac parse server nonce text = .accepting) :
    Carries hmac parse server nonce (Utf8.encode text) := by
  unfold checkResponse at h
  split at h
  · cases h
  · rename_i response hp
    dsimp only at h
    split at h
    · cases h
    · rename_i hr
      rw [not_not,asStr_index] at hr
      split at h
      · rename_i hm
        rw [constantTimeEq_iff,asStr_index] at hm
        exact ⟨text,response,rfl,hp,eq_some_of_getD hr hid,
          eq_some_of_getD (encode_injective hm) (mac_ne_nil _ _)⟩
      · cases h

/-- The line that a client answers with, as far as it is decided. -/
def Decided (c : ServerConn) : Prop := newline ∈ c.received ∨ c.shut = true

structure Guarded (hmac : Hmac) (parse : Text → Option (Json F)) (server : RelayServer)
    (nonce : Text) (c : ServerConn) : Prop where
  asked : c.nonce = nonce
  unread : c.phase.fresh → c.buf = c.received
  carried : c.phase.trusting ∨ c.forwarded ≠ [] → c.Decided ∧
    Carries hmac parse server nonce (Lines.first newline c.received).1

theorem guarded_init (nonce : Text) : Guarded hmac parse server nonce (init nonce) :=
  ⟨rfl,fun _ => rfl,fun h => by simp [init,ServerPhase.trusting] at h⟩

theorem first_append_of_mem {l : List UInt8} (h : newline ∈ l) (m : List UInt8) :
    (Lines.first newline (l ++ m)).1 = (Lines.first newline l).1 := by
  obtain ⟨a,b,rfl,ha⟩ := List.eq_append_cons_of_mem h
  rw [List.append_assoc,List.cons_append,Lines.first_line ha,Lines.first_line ha]

variable {nonce : Text} {c c' : ServerConn}

/-- A step after which no response is awaited, and that accepts none, keeps what was
decided. -/
theorem Guarded.keep (h : Guarded hmac parse server nonce c) (hn : c'.nonce = c.nonce)
    (hr : c'.received = c.received) (hs : c'.shut = c.shut) (hp : c'.phase.fresh = false)
    (ht : c'.phase.trusting ∨ c'.forwarded ≠ [] → c.phase.trusting ∨ c.forwarded ≠ []) :
    Guarded hmac parse server nonce c' := by
  have hfresh : ¬ c'.phase.fresh = true := by simp [hp]
  refine ⟨hn.trans h.asked,fun hf => absurd hf hfresh,fun hp' => ?_⟩
  rw [Decided,hr,hs]
  exact h.carried (ht hp')

theorem Guarded.readLine (hid : server.relayId ≠ []) (h : Guarded hmac parse server nonce c)
    (hs : step hmac parse server c .readLine = some c') : Guarded hmac parse server nonce c' := by
  simp only [step] at hs
  split at hs
  · rename_i hline
    split at hs
    · rename_i text hph hd
      cases hs
      have hf : c.phase.fresh = true := by rw [hph]; rfl
      have hb := h.unread hf
      cases hcheck : checkResponse hmac parse server c.nonce text with
      | accepting =>
        have hc := carries_of_accepting hid hcheck
        rw [Utf8.encode_of_decode? hd,hb,h.asked] at hc
        exact ⟨h.asked,fun hf => (by cases hf),fun _ => ⟨hb ▸ hline,hc⟩⟩
      | refusing | closed =>
        exact h.keep rfl rfl rfl rfl (fun ht => .inr (ht.resolve_left (by simp [ServerPhase.trusting])))
      | start | awaitResponse | awaitCommand | forwarding =>
        unfold checkResponse at hcheck
        split at hcheck
        · cases hcheck
        · dsimp only at hcheck
          split at hcheck
          · cases hcheck
          · split at hcheck <;> cases hcheck
    · rename_i text hph hd
      cases hs
      refine h.keep rfl rfl rfl ?_ (fun _ => .inl (by rw [hph]; rfl))
      unfold checkCommand
      dsimp only
      split
      · rfl
      · rfl
    · cases hs
      exact h.keep rfl rfl rfl rfl (fun ht => .inr (ht.resolve_left (by simp [ServerPhase.trusting])))
    · cases hs
      exact h.keep rfl rfl rfl rfl (fun ht => .inr (ht.resolve_left (by simp [ServerPhase.trusting])))
    · cases hs
  · cases hs

theorem Guarded.step (hid : server.relayId ≠ []) {a : Act} (h : Guarded hmac parse server nonce c)
    (hs : step hmac parse server c a = some c') : Guarded hmac parse server nonce c' := by
  cases a with
  | greet =>
    simp only [ServerConn.step] at hs
    split at hs
    · rename_i hph
      cases hs
      have hf : c.phase.fresh = true := by rw [hph]; rfl
      refine ⟨h.asked,fun _ => h.unread hf,fun ht => ?_⟩
      exact h.carried (.inr (ht.resolve_left (by simp [write,ServerPhase.trusting])))
    · cases hs
  | arrive bytes =>
    obtain ⟨hshut,hs⟩ := Option.ite_none_left_eq_some.mp hs
    cases hs
    refine ⟨h.asked,fun hf => by rw [h.unread hf],fun ht => ?_⟩
    obtain ⟨hd,hc⟩ := h.carried ht
    have hm := hd.resolve_right hshut
    refine ⟨.inl (List.mem_append_left _ hm),?_⟩
    dsimp only
    rw [first_append_of_mem hm]
    exact hc
  | shut =>
    cases hs
    exact ⟨h.asked,h.unread,fun ht => ⟨.inr rfl,(h.carried ht).2⟩⟩
  | readLine => exact h.readLine hid hs
  | refuse =>
    simp only [ServerConn.step] at hs
    split at hs
    · cases hs
      exact h.keep rfl rfl rfl rfl (fun ht =>
        .inr (ht.resolve_left (by simp [write,ServerPhase.trusting])))
    · cases hs
  | accept =>
    simp only [ServerConn.step] at hs
    split at hs
    · rename_i hph
      cases hs
      exact h.keep rfl rfl rfl rfl (fun _ => .inl (by rw [hph]; rfl))
    · cases hs
  | forward reply =>
    simp only [ServerConn.step] at hs
    split at hs
    · rename_i hph
      cases hs
      exact h.keep rfl rfl rfl rfl (fun _ => .inl (by rw [hph]; rfl))
    · cases hs
  | abort =>
    cases hs
    exact h.keep rfl rfl rfl rfl (fun ht => .inr (ht.resolve_left (by simp [ServerPhase.trusting])))

end ServerConn

end RelayAuth

end Limux
