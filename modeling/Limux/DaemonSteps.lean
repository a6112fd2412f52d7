import Limux.Daemon

/-! The steps of the daemon by their effect on the streams. -/
namespace Limux

open Machine

namespace Daemon

variable {F : Type}

/-- The request loop owes no close and no pump. -/
def Loop.quiet : Loop F → Bool
  | .closing _ _ | .spawning _ _ _ | .closingAll _ => false
  | _ => true

def Loop.work : Loop F → Option (Json F)
  | .handling req => some req.id
  | .dialing id _ _ | .dialed id | .writing id _ _ _ => some id
  | .closing _ r | .spawning _ _ r | .responding r => some r.id
  | _ => none

/-- The loop goes on with the same request, not answered yet, or with one without an id. -/
def Loop.Continues (l l' : Loop F) : Prop :=
  ∀ id, l'.work = some id → id = .null ∨ l.work = some id ∧ ∀ r, l ≠ .responding r

/-- The pump writes no event any more. -/
def PumpPhase.over : PumpPhase → Bool
  | .dropping | .closing _ | .done => true
  | _ => false

def PumpPhase.closes : PumpPhase → Option ConnIx
  | .closing c => some c
  | _ => none

/-- Data that was read and is not written yet. -/
def PumpPhase.pending : PumpPhase → List UInt8
  | .got data _ => data
  | _ => []

/-- What a step does, of the request loop or of a pump. -/
inductive Effect (s : Daemon F) : Option ℕ → Daemon F → Prop
  | moved {l : Loop F} (hq : s.loop.quiet) (hl : l.quiet) (hw : s.loop.Continues l) :
      Effect s none (s.goto l)
  | asked {req : RpcRequest F} (hl : s.loop = .reading) :
      Effect s none { s.goto (.handling req) with requests := s.requests ++ [req] }
  | opened {id : Json F} (hl : s.loop = .dialed id) : Effect s none (s.addStream id)
  | removed {stream : Text} {state : StreamState} {resp : RpcResponse F} (hq : s.loop.quiet)
      (h : s.streams.lookup stream = some state)
      (hw : s.loop.Continues (.closing state.conn resp)) :
      Effect s none { s.goto (.closing state.conn resp) with
        streams := s.streams.erase stream
        removed := s.removed ++ [(.requestLoop,stream,state.conn)] }
  | marked {stream : Text} {state : StreamState} {resp : RpcResponse F} (hq : s.loop.quiet)
      (h : s.streams.lookup stream = some state) (hr : state.readerStarted = false)
      (hw : s.loop.Continues (.spawning stream state.conn resp)) :
      Effect s none { s.goto (.spawning stream state.conn resp) with
        streams := s.streams.insert stream { state with readerStarted := true } }
  | closed {conn : ConnIx} {resp : RpcResponse F} (hl : s.loop = .closing conn resp) :
      Effect s none ((s.closeConn .requestLoop conn).answer resp)
  | spawned {stream : Text} {conn : ConnIx} {resp : RpcResponse F}
      (hl : s.loop = .spawning stream conn resp) :
      Effect s none { s.answer resp with pumps := s.pumps ++ [⟨stream,conn,.reading,[]⟩] }
  | responded {resp : RpcResponse F} (hl : s.loop = .responding resp) (hb : s.broken = false) :
      Effect s none { s.goto .reading with out := s.out ++ [.response resp] }
  | closedAll (hl : s.loop = .returning) : Effect s none s.closeAll
  | closedNext {conn : ConnIx} {conns : List ConnIx} (hl : s.loop = .closingAll (conn :: conns)) :
      Effect s none ((s.closeConn .requestLoop conn).goto (.closingAll conns))
  | ended (hl : s.loop = .closingAll []) : Effect s none (s.goto .ended)
  | broke : Effect s none { s with broken := true }
  | pumped {k : ℕ} {p : Pump} {ph : PumpPhase} (data : List UInt8) (hp : s.pumps[k]? = some p)
      (ho : p.phase.over → ph.over) (hc : p.phase.closes = none) (hc' : ph.closes = none)
      (hd : s.broken = false → ph.pending = p.phase.pending ++ data) :
      Effect s (some k) { s with pumps := s.pumps.modify k (fun p =>
        { p with phase := ph, received := p.received ++ data }) }
  | emitted {k : ℕ} {p : Pump} {ph : PumpPhase} {e : RpcEvent} (hp : s.pumps[k]? = some p)
      (he : e.streamId = p.stream) (hk : e.kind p.stream) (ho : p.phase.over = false)
      (ht : e.terminal → ph.over) (hc : p.phase.closes = none) (hc' : ph.closes = none)
      (hd : p.phase.pending = e.bytes ++ ph.pending) :
      Effect s (some k) { s.setPump k ph with out := s.out ++ [.event e] }
  | dropped {k : ℕ} {p : Pump} {state : StreamState} (hp : s.pumps[k]? = some p)
      (hd : p.phase = .dropping) (h : s.streams.lookup p.stream = some state) :
      Effect s (some k) { s.setPump k (.closing state.conn) with
        streams := s.streams.erase p.stream
        removed := s.removed ++ [(.pump k,p.stream,state.conn)] }
  | closedPump {k : ℕ} {p : Pump} {conn : ConnIx} (hp : s.pumps[k]? = some p)
      (hd : p.phase = .closing conn) :
      Effect s (some k) ((s.closeConn (.pump k) conn).setPump k .done)

variable {trunc : F → Option ℤ} {s s' : Daemon F}

theorem setPump_eq (s : Daemon F) (k : ℕ) (ph : PumpPhase) :
    s.setPump k ph = { s with pumps := s.pumps.modify k (fun p =>
      { p with phase := ph, received := p.received ++ [] }) } := by
  simp [setPump]

theorem Effect.phase {k : ℕ} {p : Pump} {ph : PumpPhase} (hp : s.pumps[k]? = some p)
    (ho : p.phase.over → ph.over) (hc : p.phase.closes = none) (hc' : ph.closes = none)
    (hd : s.broken = false → ph.pending = p.phase.pending) :
    Effect s (some k) (s.setPump k ph) := by
  rw [setPump_eq]
  exact .pumped [] hp ho hc hc' (by simpa using hd)

theorem streamId_ending (stream : Text) (error : Option Text) :
    (RpcEvent.ending stream error).streamId = stream := by
  cases error <;> rfl

theorem streamId_of_kind {stream : Text} {e : RpcEvent} (h : e.kind stream) :
    e.streamId = stream := by
  rcases h with ⟨d,rfl⟩ | ⟨error,rfl⟩
  · rfl
  · exact streamId_ending _ _

theorem Effect.event {k : ℕ} {p : Pump} {ph : PumpPhase} {e : RpcEvent}
    (hp : s.pumps[k]? = some p) (hk : e.kind p.stream) (ho : p.phase.over = false)
    (ht : e.terminal → ph.over) (hc : p.phase.closes = none) (hc' : ph.closes = none)
    (hd : p.phase.pending = e.bytes ++ ph.pending) :
    Effect s (some k) ((s.writeEvent e).setPump k ph) := by
  unfold writeEvent
  split
  · rename_i hb
    exact .phase hp (by simp [ho]) hc hc' (by simp [hb])
  · exact .emitted hp (streamId_of_kind hk) hk ho ht hc hc' hd

theorem pump?_eq_some {k : ℕ} {p : Pump} (h : s.pump? k = some p) : s.pumps[k]? = some p := by
  unfold pump? at h
  split at h
  · cases h
  · exact h

theorem closes_afterRead (data : List UInt8) (err : Option ReadError) :
    (afterRead data err).closes = none := by
  cases err with
  | none =>
    rw [afterRead]
    split <;> rfl
  | some e => cases e <;> rfl

theorem pending_afterRead (data : List UInt8) (err : Option ReadError) :
    (afterRead data err).pending = [] := by
  cases err with
  | none =>
    rw [afterRead]
    split <;> rfl
  | some e => cases e <;> rfl

theorem bytes_data (stream : Text) (data : List UInt8) :
    (RpcEvent.data stream data).bytes = data := by
  simp [RpcEvent.bytes,RpcEvent.data,Base64.decode_encode]

theorem bytes_ending (stream : Text) (error : Option Text) :
    (RpcEvent.ending stream error).bytes = [] := by
  cases error <;> simp [RpcEvent.bytes,RpcEvent.ending,RpcEvent.eof,RpcEvent.failure]

theorem not_terminal_data (stream : Text) (data : List UInt8) :
    ¬ (RpcEvent.data stream data).terminal := by
  rintro (h | h) <;> simp [RpcEvent.data] at h

theorem effect_of_stepPump {k : ℕ} {p : Pump} {a : Act F} (hp : s.pumps[k]? = some p)
    (hs : s.stepPump k p a = some s') : Effect s (some k) s' := by
  unfold stepPump at hs
  split at hs
  · split at hs
    · rename_i hph
      obtain ⟨-,hs⟩ := Option.ite_none_right_eq_some.mp hs
      cases hs
      exact .pumped _ hp (by simp [hph,PumpPhase.over]) (by simp [hph,PumpPhase.closes]) rfl
        (by simp [hph,PumpPhase.pending])
    · cases hs
  · split at hs
    · rename_i hph
      cases hs
      exact .phase hp (by simp [hph,PumpPhase.over]) (by simp [hph,PumpPhase.closes]) rfl
        (by simp [hph,PumpPhase.pending])
    · cases hs
  · split at hs
    · rename_i data err hph
      cases hs
      have hpd : p.phase.pending = data := by rw [hph]; rfl
      have ho : p.phase.over = false := by simp [hph,PumpPhase.over]
      have hc : p.phase.closes = none := by simp [hph,PumpPhase.closes]
      split
      · rename_i hnil
        exact .phase hp (by simp [ho]) hc (closes_afterRead ..)
          (fun _ => by rw [hpd,hnil,pending_afterRead])
      · exact .event hp (.inl ⟨data,rfl⟩) ho (fun h => (not_terminal_data _ _ h).elim) hc (closes_afterRead ..)
          (by rw [hpd,bytes_data,pending_afterRead,List.append_nil])
    · cases hs
  · split at hs
    · rename_i error hph
      cases hs
      exact .event hp (.inr ⟨error,rfl⟩) (by simp [hph,PumpPhase.over]) (fun _ => rfl)
        (by simp [hph,PumpPhase.closes]) rfl (by simp [hph,PumpPhase.pending,bytes_ending])
    · cases hs
  · split at hs
    · rename_i hph
      cases hs
      unfold dropStream
      split
      · rename_i state h
        exact .dropped hp hph h
      · exact .phase hp (fun _ => rfl) (by simp [hph,PumpPhase.closes]) rfl
          (by simp [hph,PumpPhase.pending])
    · cases hs
  · split at hs
    · rename_i conn hph
      cases hs
      exact .closedPump hp hph
    · cases hs
  · cases hs

theorem effect_handleRequest {req : RpcRequest F} {other : Except RpcFault (Json F)}
    (hl : s.loop = .handling req) : Effect s none (s.handleRequest trunc req other) := by
  have hq : s.loop.quiet := by rw [hl]; rfl
  have hw : ∀ {l : Loop F}, l.work = some req.id → s.loop.Continues l := fun hl' id hid =>
    .inr ⟨by rw [hl]; exact hl'.symm.trans hid,by simp [hl]⟩
  have hm : ∀ resp, resp.id = req.id → Effect s none (s.answer resp) := fun resp hid =>
    .moved hq rfl (hw (congrArg some hid))
  unfold handleRequest
  split
  · exact hm _ rfl
  split
  · unfold handleProxyOpen
    split
    · exact hm _ rfl
    · split
      · exact hm _ rfl
      · exact .moved hq rfl (hw rfl)
  split
  · unfold handleProxyClose
    split
    · exact hm _ rfl
    · split
      · exact hm _ rfl
      · exact .removed hq ‹_› (hw rfl)
  split
  · unfold handleProxyWrite
    split
    · exact hm _ rfl
    · split
      · exact hm _ rfl
      · split
        · exact hm _ rfl
        · split
          · exact hm _ rfl
          · exact .moved hq rfl (hw rfl)
  split
  · unfold handleProxyStreamSubscribe
    split
    · exact hm _ rfl
    · split
      · exact hm _ rfl
      · split
        · exact hm _ rfl
        · rename_i hr
          exact .marked hq ‹_› (by simpa using hr) (hw rfl)
  · exact hm _ rfl

theorem quiet_wrote (id : Json F) (conn : ConnIx) (payload : List UInt8) (total n : ℕ)
    (err : Option Text) : (wrote id conn payload total n err).quiet := by
  cases err with
  | some m => rfl
  | none =>
    rw [wrote]
    split <;> rfl

theorem work_wrote (id : Json F) (conn : ConnIx) (payload : List UInt8) (total n : ℕ)
    (err : Option Text) : (wrote id conn payload total n err).work = some id := by
  cases err with
  | some m => rfl
  | none =>
    rw [wrote]
    split <;> rfl

theorem effect_of_stepLoop {a : Act F} (hs : s.stepLoop trunc a = some s') : Effect s none s' := by
  have hm : ∀ {l l' : Loop F}, s.loop = l → l.quiet → l'.quiet → l.Continues l' →
      Effect s none (s.goto l') := fun hl hq hq' hw => .moved (hl ▸ hq) hq' (hl ▸ hw)
  have hsame : ∀ {l l' : Loop F} {id : Json F}, l.work = some id → (∀ r, l ≠ .responding r) →
      l'.work = some id → l.Continues l' := fun hl hn hl' id' hid =>
    .inr ⟨hl.trans (hl'.symm.trans hid),hn⟩
  cases a with
  | request req =>
    simp only [stepLoop] at hs
    split at hs
    · cases hs
      exact .asked ‹_›
    · cases hs
  | refuse message =>
    simp only [stepLoop] at hs
    split at hs
    · cases hs
      exact hm ‹_› rfl rfl (fun id hid => .inl (Option.some.inj hid).symm)
    · cases hs
  | hangUp =>
    simp only [stepLoop] at hs
    split at hs
    · cases hs
      exact hm ‹_› rfl rfl (fun id hid => by cases hid)
    · cases hs
  | handle other =>
    simp only [stepLoop] at hs
    split at hs
    · cases hs
      exact effect_handleRequest ‹_›
    · cases hs
  | dial err =>
    simp only [stepLoop] at hs
    split at hs
    · cases hs
      cases err <;> exact hm ‹_› rfl rfl (hsame rfl (by simp) rfl)
    · cases hs
  | register =>
    simp only [stepLoop] at hs
    split at hs
    · cases hs
      exact .opened ‹_›
    · cases hs
  | deadline message =>
    simp only [stepLoop] at hs
    split at hs
    · cases hs
      exact hm ‹_› rfl rfl (hsame rfl (by simp) rfl)
    · cases hs
  | write n err =>
    simp only [stepLoop] at hs
    split at hs
    · obtain ⟨-,hs⟩ := Option.ite_none_right_eq_some.mp hs
      cases hs
      exact hm ‹_› rfl (quiet_wrote ..) (hsame rfl (by simp) (work_wrote ..))
    · cases hs
  | finishWrite =>
    simp only [stepLoop] at hs
    split at hs
    · obtain ⟨-,hs⟩ := Option.ite_none_right_eq_some.mp hs
      cases hs
      exact hm ‹_› rfl rfl (hsame rfl (by simp) rfl)
    · cases hs
  | close =>
    simp only [stepLoop] at hs
    split at hs
    · cases hs
      exact .closed ‹_›
    · cases hs
  | spawn =>
    simp only [stepLoop] at hs
    split at hs
    · cases hs
      exact .spawned ‹_›
    · cases hs
  | respond =>
    simp only [stepLoop] at hs
    split at hs
    · cases hs
      unfold writeResponse
      split
      · exact hm ‹_› rfl rfl (fun id hid => by cases hid)
      · exact .responded ‹_› (by simpa using ‹¬ s.broken = true›)
    · cases hs
  | closeAll =>
    simp only [stepLoop] at hs
    split at hs
    · cases hs
      exact .closedAll ‹_›
    · cases hs
  | closeNext =>
    simp only [stepLoop] at hs
    split at hs
    · cases hs
      exact .closedNext ‹_›
    · cases hs
      exact .ended ‹_›
    · cases hs
  | breakOutput =>
    cases hs
    exact .broke
  | read | panic | emit | terminate | drop | closePump => cases hs

theorem effect_of_step {a : Act F} (hs : step trunc s a = some s') : Effect s a.pump s' := by
  unfold step at hs
  split at hs
  · rename_i k hk
    obtain ⟨p,hp,hs⟩ := Option.bind_eq_some_iff.mp hs
    exact hk ▸ effect_of_stepPump (pump?_eq_some hp) hs
  · rename_i hk
    exact hk ▸ effect_of_stepLoop hs

end Daemon

end Limux
