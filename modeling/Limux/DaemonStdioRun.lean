import Limux.DaemonStdio
import Limux.DaemonSteps

/-! Framing of the requests on stdin: whatever the reads deliver, each line that is not blank
is answered once, in order, and the loop comes to its end. -/
namespace Limux

open Buffered Machine

namespace Daemon

/-! The frames are the lines of the input. -/

def FrameRead.ofLine (maxBytes : ℕ) (line : List UInt8) : FrameRead :=
  if line = [] then .ended else if maxBytes < line.length then .oversized else .frame line

theorem ofLine_of_lt {maxBytes : ℕ} {line : List UInt8} (h : maxBytes < line.length) :
    FrameRead.ofLine maxBytes line = .oversized := by
  rw [FrameRead.ofLine,if_neg (List.ne_nil_of_length_pos (by omega)),if_pos h]

theorem ofLine_of_le {maxBytes : ℕ} {line : List UInt8} (h : ¬ maxBytes < line.length)
    (hne : line ≠ []) : FrameRead.ofLine maxBytes line = .frame line := by
  rw [FrameRead.ofLine,if_neg hne,if_neg h]

theorem rest_discard {r : Reader UInt8} (h : r.Ok bufferSize) (n : ℕ) (hn : r.rest.length < n) :
    (discardUntilNewline n r).rest = (Lines.first newline r.rest).2 ∧
      (discardUntilNewline n r).Ok bufferSize := by
  induction n generalizing r with
  | zero => exact absurd hn (Nat.not_lt_zero _)
  | succ n ih =>
    obtain ⟨hs,hok⟩ :
        Reader.Sliced newline bufferSize r.rest (r.readSlice newline bufferSize).1 _ ∧ _ :=
      Reader.sliced h
    rw [discardUntilNewline]
    generalize r.readSlice newline bufferSize = res at hs hok ⊢
    obtain ⟨⟨chunk,stop⟩,r'⟩ := res
    generalize hr : r.rest = input at hs hn ⊢
    generalize hr' : r'.rest = left at hs
    cases hs with
    | separator s hm =>
      rw [Lines.first_line hm]
      exact ⟨hr',hok⟩
    | full s hm hl =>
      have hlt : r'.rest.length < n := by
        rw [hr']
        simp only [List.length_append,hl,bufferSize] at hn
        omega
      rw [Lines.first_append hm,← hr']
      exact ih hok hlt
    | ended hm =>
      rw [Lines.first_of_notMem hm]
      exact ⟨hr',hok⟩

theorem frameLoop_eq {maxBytes : ℕ} {r : Reader UInt8} (h : r.Ok bufferSize) (n : ℕ)
    (hn : r.rest.length < n) {frame : List UInt8} (hf : frame.length ≤ maxBytes) :
    (frameLoop maxBytes n frame r).1 =
        .ofLine maxBytes (frame ++ (Lines.first newline r.rest).1) ∧
      (frameLoop maxBytes n frame r).2.rest = (Lines.first newline r.rest).2 ∧
      (frameLoop maxBytes n frame r).2.Ok bufferSize := by
  induction n generalizing r frame with
  | zero => exact absurd hn (Nat.not_lt_zero _)
  | succ n ih =>
    obtain ⟨hs,hok⟩ :
        Reader.Sliced newline bufferSize r.rest (r.readSlice newline bufferSize).1 _ ∧ _ :=
      Reader.sliced h
    rw [frameLoop]
    generalize r.readSlice newline bufferSize = res at hs hok ⊢
    obtain ⟨⟨chunk,stop⟩,r'⟩ := res
    generalize hr : r.rest = input at hs hn ⊢
    generalize hr' : r'.rest = left at hs
    dsimp only at hs ⊢
    cases hs with
    | separator s hm =>
      rw [Lines.first_line hm]
      rw [← List.length_append]
      split
      · rename_i hlt
        exact ⟨(ofLine_of_lt hlt).symm,hr',hok⟩
      · rename_i hle
        exact ⟨(ofLine_of_le hle (by simp)).symm,hr',hok⟩
    | full s hm hl =>
      have hrest : r'.rest.length < n := by
        rw [hr']
        simp only [List.length_append,hl,bufferSize] at hn
        omega
      rw [Lines.first_append hm,← List.append_assoc]
      split
      · rename_i hlt
        have hd := rest_discard hok (r'.rest.length+1) (Nat.lt_succ_self _)
        rw [hr'] at hd
        refine ⟨(ofLine_of_lt ?_).symm,?_⟩
        · simp only [List.length_append]
          omega
        · rw [if_pos rfl,hr']
          exact hd
      · rename_i hle
        rw [← List.length_append,Nat.not_lt] at hle
        rw [← hr']
        exact ih hok hrest hle
    | ended hm =>
      rw [Lines.first_of_notMem hm,← List.length_append]
      split
      · rename_i hlt
        exact ⟨(ofLine_of_lt hlt).symm,hr',hok⟩
      · rename_i hle
        refine ⟨?_,hr',hok⟩
        dsimp only
        by_cases hnil : frame ++ chunk = []
        · rw [if_pos hnil,FrameRead.ofLine,if_pos hnil]
        · rw [if_neg hnil,ofLine_of_le hle hnil]

/-- A frame is a line, however it was delivered. -/
theorem readRPCFrame_eq {r : Reader UInt8} (h : r.Ok bufferSize) (maxBytes : ℕ) :
    (readRPCFrame r maxBytes).1 = .ofLine maxBytes (Lines.first newline r.rest).1 ∧
      (readRPCFrame r maxBytes).2.rest = (Lines.first newline r.rest).2 ∧
      (readRPCFrame r maxBytes).2.Ok bufferSize :=
  frameLoop_eq h _ (Nat.lt_succ_self _) (Nat.zero_le _)

/-! What the loop owes. -/

variable {F : Type}

/-- What a line asks for, if it is not blank. -/
inductive Ask (F : Type)
  | refused (message : Text)
  | request (req : RpcRequest F)

def ask? (host : Host F) (line : List UInt8) : Option (Ask F) :=
  if maxRPCFrameBytes < line.length then some (.refused Server.oversized)
  else if trimLine line = [] then none
  else
    match host.parse (trimLine line) with
    | none => some (.refused Server.invalidJSON)
    | some req => some (.request req)

def asks (host : Host F) (input : List UInt8) : List (Ask F) :=
  (Lines.raw newline input).filterMap (ask? host)

def responses (out : List (Frame F)) : List (RpcResponse F) :=
  out.filterMap (fun
    | .response r => some r
    | .event _ => none)

theorem responses_append (l m : List (Frame F)) :
    responses (l ++ m) = responses l ++ responses m := List.filterMap_append

def Loop.over : Loop F → Bool
  | .returning | .closingAll _ | .ended => true
  | _ => false

def payloadSize (req : RpcRequest F) : ℕ :=
  (((RpcRequest.getStringParam req.params "data_base64").bind decodeString).getD []).length

/-- Steps that the loop may take before it is back or has returned. -/
def Loop.weight : Loop F → ℕ
  | .reading => 3
  | .handling req => 9+payloadSize req
  | .dialing _ _ _ => 8
  | .dialed _ => 7
  | .writing _ _ payload total => 5+(payload.length-total)
  | .closing _ _ | .spawning _ _ _ => 5
  | .responding _ => 4
  | .returning => 2
  | .closingAll conns => conns.length+1
  | .ended => 0

def weight (d : Daemon F) : ℕ := d.loop.weight+d.streams.entries.length

/-- The daemon stays with the request `id`, and comes closer to its response. -/
structure Stays (d d' : Daemon F) (id : Json F) : Prop where
  work : d'.loop.work = some id
  out : d'.out = d.out
  broken : d'.broken = d.broken
  lighter : d'.weight < d.weight

variable {trunc : F → Option ℤ} {d d' : Daemon F}

theorem length_erase_le {V : Type} (m : HashMap Text V) (k : Text) :
    (m.erase k).entries.length ≤ m.entries.length := (List.kerase_sublist k _).length_le

theorem length_insert_le {V : Type} (m : HashMap Text V) (k : Text) (v : V) :
    (m.insert k v).entries.length ≤ m.entries.length+1 := by
  rw [AList.entries_insert,List.length_cons]
  exact Nat.succ_le_succ (length_erase_le m k)

theorem pump_frame {k : ℕ} (h : Effect d (some k) d') :
    d'.loop = d.loop ∧ responses d'.out = responses d.out ∧ d'.broken = d.broken ∧
      d'.weight ≤ d.weight := by
  cases h with
  | pumped | closedPump => exact ⟨rfl,rfl,rfl,Nat.le_refl _⟩
  | emitted =>
    refine ⟨rfl,?_,rfl,Nat.le_refl _⟩
    exact (responses_append _ _).trans (List.append_nil _)
  | dropped => exact ⟨rfl,rfl,rfl,Nat.add_le_add_left (length_erase_le _ _) _⟩

theorem stays_goto {l : Loop F} {id : Json F} (hw : l.work = some id)
    (hl : l.weight < d.loop.weight) : Stays d (d.goto l) id :=
  ⟨hw,rfl,rfl,Nat.add_lt_add_right hl _⟩

theorem stays_handleRequest {req : RpcRequest F} {other : Except RpcFault (Json F)}
    (hl : d.loop = .handling req) : Stays d (d.handleRequest trunc req other) req.id := by
  have ha : ∀ resp : RpcResponse F, resp.id = req.id → Stays d (d.answer resp) req.id :=
    fun resp hid => stays_goto (congrArg some hid) (by simp only [hl,Loop.weight]; omega)
  unfold handleRequest
  split
  · exact ha _ rfl
  split
  · unfold handleProxyOpen
    split
    · exact ha _ rfl
    · split
      · exact ha _ rfl
      · exact stays_goto rfl (by simp only [hl,Loop.weight]; omega)
  split
  · unfold handleProxyClose
    split
    · exact ha _ rfl
    · rename_i stream _
      split
      · exact ha _ rfl
      · refine ⟨rfl,rfl,rfl,?_⟩
        have := length_erase_le d.streams stream
        simp only [weight,hl,Loop.weight,goto]
        omega
  split
  · unfold handleProxyWrite
    split
    · exact ha _ rfl
    · split
      · exact ha _ rfl
      · rename_i text htext
        split
        · exact ha _ rfl
        · rename_i payload hp
          split
          · exact ha _ rfl
          · have hsize : payloadSize req = payload.length := by simp [payloadSize,htext,hp]
            exact stays_goto rfl (by simp only [hl,hsize,Loop.weight]; omega)
  split
  · unfold handleProxyStreamSubscribe
    split
    · exact ha _ rfl
    · rename_i stream _
      split
      · exact ha _ rfl
      · rename_i state _
        split
        · exact ha _ rfl
        · refine ⟨rfl,rfl,rfl,?_⟩
          have := length_insert_le d.streams stream { state with readerStarted := true }
          simp only [weight,hl,Loop.weight,goto]
          omega
  · exact ha _ rfl

def works : Act F → Bool
  | .dial _ | .register | .deadline _ | .write _ _ | .finishWrite | .close | .spawn => true
  | _ => false

theorem stays_wrote {id : Json F} {conn : ConnIx} {payload : List UInt8} {total n : ℕ}
    (hl : d.loop = .writing id conn payload total) (hn : total < payload.length)
    (err : Option Text) : Stays d (d.goto (wrote id conn payload total n err)) id := by
  cases err with
  | some message => exact stays_goto rfl (by simp only [hl,wrote,Loop.weight]; omega)
  | none =>
    rw [wrote]
    split
    · exact stays_goto rfl (by simp only [hl,Loop.weight]; omega)
    · exact stays_goto rfl (by simp only [hl,Loop.weight]; omega)

theorem stays_stepLoop {a : Act F} (ha : works a) (hs : d.stepLoop trunc a = some d') :
    ∃ id, d.loop.work = some id ∧ (∀ resp, d.loop ≠ .responding resp) ∧ Stays d d' id := by
  cases a with
  | dial err =>
    simp only [stepLoop] at hs
    split at hs
    · rename_i hl
      cases hs
      cases err with
      | none => exact ⟨_,by rw [hl]; rfl,by simp [hl],stays_goto rfl (by simp [hl,Loop.weight])⟩
      | some message => exact ⟨_,by rw [hl]; rfl,by simp [hl],stays_goto rfl (by simp [hl,Loop.weight])⟩
    · cases hs
  | register =>
    simp only [stepLoop] at hs
    split at hs
    · rename_i id hl
      cases hs
      refine ⟨_,by rw [hl]; rfl,by simp [hl],rfl,rfl,rfl,?_⟩
      have := length_insert_le d.streams (streamID d.nextStreamID) ⟨d.opened.length,false⟩
      simp only [weight,addStream,answer,goto,hl,Loop.weight]
      omega
    · cases hs
  | deadline message =>
    simp only [stepLoop] at hs
    split at hs
    · rename_i hl
      cases hs
      exact ⟨_,by rw [hl]; rfl,by simp [hl],stays_goto rfl (by simp only [hl,Loop.weight]; omega)⟩
    · cases hs
  | write n err =>
    simp only [stepLoop] at hs
    split at hs
    · rename_i hl
      obtain ⟨hn,hs⟩ := Option.ite_none_right_eq_some.mp hs
      cases hs
      exact ⟨_,by rw [hl]; rfl,by simp [hl],stays_wrote hl hn.1 err⟩
    · cases hs
  | finishWrite =>
    simp only [stepLoop] at hs
    split at hs
    · rename_i hl
      obtain ⟨hn,hs⟩ := Option.ite_none_right_eq_some.mp hs
      cases hs
      exact ⟨_,by rw [hl]; rfl,by simp [hl],stays_goto rfl (by simp only [hl,Loop.weight]; omega)⟩
    · cases hs
  | close =>
    simp only [stepLoop] at hs
    split at hs
    · rename_i hl
      cases hs
      exact ⟨_,by rw [hl]; rfl,by simp [hl],rfl,rfl,rfl,by simp [weight,hl,Loop.weight,closeConn,answer,goto]⟩
    · cases hs
  | spawn =>
    simp only [stepLoop] at hs
    split at hs
    · rename_i hl
      cases hs
      exact ⟨_,by rw [hl]; rfl,by simp [hl],rfl,rfl,rfl,by simp [weight,hl,Loop.weight,answer,goto]⟩
    · cases hs
  | _ => cases ha

end Daemon

end Limux
