import Limux.DaemonStreams

/-! The life cycle of the daemon's streams, for every order of requests and pump steps. -/
namespace Limux

open Machine

namespace Daemon

variable {F : Type} {trunc : F → Option ℤ} {s s' : Daemon F}

/-- Frames in the order of two events: none of a stream after its last one. -/
def Follows (f g : Frame F) : Prop :=
  ∀ e e', f = .event e → g = .event e' → e.terminal → e'.streamId ≠ e.streamId

/-- Events come from the pump of their stream; after a terminal one it writes no more. -/
structure Events (s : Daemon F) : Prop where
  pump : ∀ e, .event e ∈ s.out → ∃ (k : ℕ) (p : Pump), s.pumps[k]? = some p ∧
    p.stream = e.streamId ∧ (e.terminal → p.phase.over)
  kind : ∀ e, .event e ∈ s.out → e.kind e.streamId
  last : s.out.Pairwise Follows

namespace Events

theorem init : Events (Daemon.init : Daemon F) :=
  ⟨by simp [Daemon.init],by simp [Daemon.init],List.Pairwise.nil⟩

theorem of_modify (h : Events s) {k : ℕ} {p : Pump} {f : Pump → Pump} (hp : s.pumps[k]? = some p)
    (hl : s'.pumps = s.pumps.modify k f) (hf : (f p).stream = p.stream)
    (ho : p.phase.over → (f p).phase.over) (hout : s'.out = s.out) : Events s' := by
  refine ⟨fun e he => ?_,by rw [hout]; exact h.kind,by rw [hout]; exact h.last⟩
  obtain ⟨j,q,hq,hst,hov⟩ := h.pump e (hout ▸ he)
  by_cases hj : k = j
  · subst hj
    cases hp.symm.trans hq
    refine ⟨k,f p,?_,hf.trans hst,fun ht => ho (hov ht)⟩
    rw [hl,List.getElem?_modify,hp]
    simp
  · refine ⟨j,q,?_,hst,hov⟩
    rw [hl,List.getElem?_modify,hq]
    simp [hj]

theorem of_append (h : Events s) {l : List Pump} (hl : s'.pumps = s.pumps ++ l)
    (hout : s'.out = s.out) : Events s' := by
  refine ⟨fun e he => ?_,by rw [hout]; exact h.kind,by rw [hout]; exact h.last⟩
  obtain ⟨k,p,hp,hst,hov⟩ := h.pump e (hout ▸ he)
  exact ⟨k,p,by rw [hl,List.getElem?_append_left (List.getElem?_eq_some_iff.mp hp).1,hp],hst,hov⟩

/-- A pump that may still write has written no terminal event. -/
theorem no_terminal (h : Events s) (hpu : Pumps s) {k : ℕ} {p : Pump} {e : RpcEvent}
    (hp : s.pumps[k]? = some p) (ho : p.phase.over = false) (he : .event e ∈ s.out)
    (ht : e.terminal) : e.streamId ≠ p.stream := by
  intro hst
  obtain ⟨j,q,hq,hqs,hqo⟩ := h.pump e he
  have hpq : q = p := List.inj_on_of_nodup_map hpu.once (List.mem_of_getElem? hq)
    (List.mem_of_getElem? hp) (hqs.trans hst)
  rw [hpq,ho] at hqo
  cases hqo ht

theorem effect (h : Events s) (hpu : Pumps s) {i : Option ℕ} (he : Effect s i s') : Events s' := by
  cases he with
  | moved | asked | opened | removed | marked | closed | closedNext | closedAll | ended | broke =>
    exact ⟨h.pump,h.kind,h.last⟩
  | spawned => exact h.of_append rfl rfl
  | pumped data hp ho => exact h.of_modify hp rfl rfl ho rfl
  | dropped hp hd => exact h.of_modify hp rfl rfl (fun _ => rfl) rfl
  | closedPump hp hd => exact h.of_modify hp rfl rfl (fun _ => rfl) rfl
  | @responded resp hl hb =>
    refine ⟨fun e he => h.pump e ?_,fun e he => h.kind e ?_,?_⟩
    · simpa using he
    · simpa using he
    · refine List.pairwise_append.mpr ⟨h.last,List.pairwise_singleton _ _,fun f hf g hg => ?_⟩
      rw [List.mem_singleton] at hg
      subst hg
      intro e e' _ he'
      cases he'
  | @emitted k p ph e hp hst hk ho ht hc hc' hd =>
    refine ⟨fun e' he' => ?_,fun e' he' => ?_,?_⟩
    · have hm : Events (s.setPump k ph) :=
        h.of_modify hp rfl rfl (fun h => by rw [ho] at h; cases h) rfl
      rcases List.mem_append.mp he' with he' | he'
      · exact hm.pump e' he'
      · cases List.mem_singleton.mp he'
        refine ⟨k,{ p with phase := ph },?_,hst.symm,ht⟩
        simp [setPump,hp]
    · rcases List.mem_append.mp he' with he' | he'
      · exact h.kind e' he'
      · cases List.mem_singleton.mp he'
        rwa [hst]
    · refine List.pairwise_append.mpr ⟨h.last,List.pairwise_singleton _ _,fun f hf g hg => ?_⟩
      rw [List.mem_singleton] at hg
      subst hg
      intro e₁ e₂ h₁ h₂ ht₁
      cases h₂
      subst h₁
      rw [hst]
      exact (h.no_terminal hpu hp ho hf ht₁).symm

end Events

/-- What a step of a pump leaves as it was. -/
structure PumpFrame (s s' : Daemon F) (p : Pump) : Prop where
  loop : s'.loop = s.loop
  requests : s'.requests = s.requests
  opened : s'.opened = s.opened
  broken : s'.broken = s.broken
  streams : s'.streams = s.streams ∨ s'.streams = s.streams.erase p.stream
  responses : ∀ r, .response r ∈ s'.out → .response r ∈ s.out
  pumped : s'.pumped = s.pumped

theorem pumpFrame_of_modify {k : ℕ} {p : Pump} {f : Pump → Pump}
    (hf : ∀ p, (f p).stream = p.stream) :
    PumpFrame s { s with pumps := s.pumps.modify k f } p :=
  ⟨rfl,rfl,rfl,rfl,.inl rfl,fun _ h => h,map_stream_modify _ _ _ hf⟩

theorem pumpFrame_writeEvent {k : ℕ} {p : Pump} {e : RpcEvent} {ph : PumpPhase} :
    PumpFrame s ((s.writeEvent e).setPump k ph) p := by
  have hm : (s.pumps.modify k (fun p => { p with phase := ph })).map Pump.stream =
      s.pumps.map Pump.stream := map_stream_modify _ _ _ (fun _ => rfl)
  unfold writeEvent
  split
  · exact ⟨rfl,rfl,rfl,rfl,.inl rfl,fun _ h => h,hm⟩
  · refine ⟨rfl,rfl,rfl,rfl,.inl rfl,fun r h => ?_,hm⟩
    simpa [setPump] using h

theorem pumpFrame_of_stepPump {k : ℕ} {p : Pump} {a : Act F} (hs : s.stepPump k p a = some s') :
    PumpFrame s s' p := by
  have hm : ∀ ph, (s.pumps.modify k (fun p => { p with phase := ph })).map Pump.stream =
      s.pumps.map Pump.stream := fun ph => map_stream_modify _ _ _ (fun _ => rfl)
  unfold stepPump at hs
  split at hs
  · split at hs
    · obtain ⟨-,hs⟩ := Option.ite_none_right_eq_some.mp hs
      cases hs
      exact pumpFrame_of_modify (fun _ => rfl)
    · cases hs
  · split at hs
    · cases hs
      exact pumpFrame_of_modify (fun _ => rfl)
    · cases hs
  · split at hs
    · cases hs
      split
      · exact pumpFrame_of_modify (fun _ => rfl)
      · exact pumpFrame_writeEvent
    · cases hs
  · split at hs
    · cases hs
      exact pumpFrame_writeEvent
    · cases hs
  · split at hs
    · cases hs
      unfold dropStream
      split
      · exact ⟨rfl,rfl,rfl,rfl,.inr rfl,fun _ h => h,hm _⟩
      · exact pumpFrame_of_modify (fun _ => rfl)
    · cases hs
  · split at hs
    · cases hs
      exact ⟨rfl,rfl,rfl,rfl,.inl rfl,fun _ h => h,hm _⟩
    · cases hs
  · cases hs

def subject (s : Daemon F) (a : Act F) : Option Text :=
  match a.pump, a, s.loop with
  | some k, _, _ => s.pumps[k]?.map Pump.stream
  | none, .handle _, .handling req => req.requireString "stream_id"
  | none, .register, _ => some (streamID s.nextStreamID)
  | _, _, _ => none

theorem handleRequest_frame {req : RpcRequest F} {other : Except RpcFault (Json F)} {t : Text}
    (ht : req.requireString "stream_id" ≠ some t) :
    (s.handleRequest trunc req other).streams.lookup t = s.streams.lookup t := by
  have hne : ∀ {stream : Text}, req.requireString "stream_id" = some stream → t ≠ stream :=
    fun h he => ht (he ▸ h)
  unfold handleRequest
  split
  · rfl
  split
  · unfold handleProxyOpen
    split
    · rfl
    · split <;> rfl
  split
  · unfold handleProxyClose
    split
    · rfl
    · rename_i stream h
      split
      · rfl
      · exact AList.lookup_erase_ne (hne h)
  split
  · unfold handleProxyWrite
    split
    · rfl
    · split
      · rfl
      · split
        · rfl
        · split <;> rfl
  split
  · unfold handleProxyStreamSubscribe
    split
    · rfl
    · rename_i stream h
      split
      · rfl
      · split
        · rfl
        · exact AList.lookup_insert_ne (hne h)
  · rfl

theorem lookup_of_ne_subject {a : Act F} {t : Text} (hs : step trunc s a = some s')
    (ha : a ≠ .closeAll) (ht : s.subject a ≠ some t) :
    s'.streams.lookup t = s.streams.lookup t := by
  unfold step at hs
  split at hs
  · rename_i k hk
    obtain ⟨p,hp,hs⟩ := Option.bind_eq_some_iff.mp hs
    have hne : t ≠ p.stream := by
      rintro rfl
      simp [subject,hk,pump?_eq_some hp] at ht
    rcases (pumpFrame_of_stepPump hs).streams with h | h
    · rw [h]
    · rw [h,AList.lookup_erase_ne hne]
  · cases a with
    | handle other =>
      simp only [stepLoop] at hs
      split at hs
      · rename_i req hl
        cases hs
        exact handleRequest_frame (by simpa [subject,Act.pump,hl] using ht)
      · cases hs
    | register =>
      simp only [stepLoop] at hs
      split at hs
      · cases hs
        exact AList.lookup_insert_ne (fun he => ht (by simp [subject,Act.pump,he]))
      · cases hs
    | closeAll => exact (ha rfl).elim
    | dial err =>
      simp only [stepLoop] at hs
      split at hs
      · cases hs
        cases err <;> rfl
      · cases hs
    | write n err | finishWrite =>
      simp only [stepLoop] at hs
      split at hs
      · obtain ⟨-,hs⟩ := Option.ite_none_right_eq_some.mp hs
        cases hs
        rfl
      · cases hs
    | respond =>
      simp only [stepLoop] at hs
      split at hs
      · cases hs
        unfold writeResponse
        split <;> rfl
      · cases hs
    | closeNext =>
      simp only [stepLoop] at hs
      split at hs
      · cases hs
        rfl
      · cases hs
        rfl
      · cases hs
    | request | refuse | deadline | close | spawn | hangUp =>
      simp only [stepLoop] at hs
      split at hs
      · cases hs
        rfl
      · cases hs
    | breakOutput =>
      cases hs
      rfl
    | read | panic | emit | terminate | drop | closePump => cases hs

/-- A `proxy.close` of the stream was handled and its answer is still to be written. -/
def Answering (s : Daemon F) (stream : Text) (id : Json F) : Prop :=
  s.streams.lookup stream = none ∧ (s.loop = .responding (closedResponse id) ∨
    ∃ c, s.loop = .closing c (closedResponse id))

theorem answering_of_handle {req : RpcRequest F} {other : Except RpcFault (Json F)} {stream : Text}
    (hl : s.loop = .handling req) (hm : req.method = "proxy.close".toList)
    (hr : req.requireString "stream_id" = some stream)
    (hs : step trunc s (.handle other) = some s') : s'.Answering stream req.id := by
  simp only [step,Act.pump,stepLoop,hl] at hs
  cases hs
  have hh : s.handleRequest trunc req other = s.handleProxyClose req := by
    simp [handleRequest,hm]
  rw [hh]
  simp only [handleProxyClose,hr]
  split
  · rename_i hno
    exact ⟨hno,.inl rfl⟩
  · rename_i state hst
    exact ⟨AList.lookup_erase _ _,.inr ⟨state.conn,rfl⟩⟩

theorem answering_step {a : Act F} {stream : Text} {id : Json F} (h : s.Answering stream id)
    (hs : step trunc s a = some s') :
    s'.Answering stream id ∨ s'.streams.lookup stream = none ∧
      s' = s.writeResponse (closedResponse id) := by
  obtain ⟨hno,hl⟩ := h
  unfold step at hs
  split at hs
  · obtain ⟨p,hp,hs⟩ := Option.bind_eq_some_iff.mp hs
    have hf := pumpFrame_of_stepPump hs
    refine .inl ⟨?_,by rwa [hf.loop]⟩
    rcases hf.streams with hst | hst
    · rw [hst,hno]
    · rw [hst,HashMap.lookup_erase_ite,hno]
      split <;> rfl
  · rcases hl with hl | ⟨c,hl⟩
    · cases a <;> simp only [stepLoop,hl] at hs <;> cases hs
      · refine .inr ⟨?_,rfl⟩
        unfold writeResponse
        split <;> exact hno
      · exact .inl ⟨hno,.inl rfl⟩
    · cases a <;> simp only [stepLoop,hl] at hs <;> cases hs
      · exact .inl ⟨hno,.inl rfl⟩
      · exact .inl ⟨hno,.inr ⟨c,rfl⟩⟩

theorem answering_enabled {stream : Text} {id : Json F} (h : s.Answering stream id) :
    ∃ s', step trunc s .respond = some s' ∨ step trunc s .close = some s' := by
  rcases h.2 with hl | ⟨c,hl⟩
  · exact ⟨s.writeResponse (closedResponse id),.inl (by simp only [step,Act.pump,stepLoop,hl])⟩
  · exact ⟨(s.closeConn .requestLoop c).answer (closedResponse id),
      .inr (by simp only [step,Act.pump,stepLoop,hl])⟩

/-- A stream that was opened is in the table with its connection, or someone removed it. -/
def Kept (s : Daemon F) : Prop :=
  ∀ (c : ConnIx) (id : Json F) (stream : Text), s.opened[c]? = some (id,stream) →
    (∃ state, s.streams.lookup stream = some state ∧ state.conn = c) ∨
      ∃ p, (p,stream,c) ∈ s.removed

theorem kept_remove {stream : Text} {state : StreamState} {p : Party} (h : Kept s)
    (hs : s.streams.lookup stream = some state) (ho : s'.opened = s.opened)
    (hst : s'.streams = s.streams.erase stream)
    (hr : s'.removed = s.removed ++ [(p,stream,state.conn)]) : Kept s' := by
  intro c id stream' hop
  rw [hst,hr,HashMap.lookup_erase_ite]
  rcases h c id stream' (ho ▸ hop) with ⟨state',hl,hc⟩ | ⟨q,hq⟩
  · split
    · rename_i he
      subst he
      cases hs.symm.trans hl
      exact .inr ⟨p,List.mem_append_right _ (by rw [hc]; exact List.mem_singleton_self _)⟩
    · exact .inl ⟨state',hl,hc⟩
  · exact .inr ⟨q,List.mem_append_left _ hq⟩

theorem kept_effect (h : Kept s) (ht : Table s) {i : Option ℕ} (he : Effect s i s') : Kept s' := by
  cases he with
  | removed hq hs => exact kept_remove h hs rfl rfl rfl
  | dropped hp hd hs => exact kept_remove h hs rfl rfl rfl
  | @opened id hl =>
    intro c id' stream hop
    simp only [addStream,HashMap.lookup_insert_ite]
    rcases getElem?_append_one hop with hop | ⟨rfl,he⟩
    · have hne : ¬ stream = streamID s.nextStreamID := fun he => ht.fresh (he ▸ hop)
      rw [if_neg hne]
      exact h c id' stream hop
    · cases he
      exact .inl ⟨⟨s.opened.length,false⟩,if_pos rfl,rfl⟩
  | @marked stream state resp hq hs hr hw =>
    intro c id stream' hop
    simp only [HashMap.lookup_insert_ite]
    rcases h c id stream' hop with ⟨state',hl,hc⟩ | hr'
    · split
      · rename_i he
        subst he
        cases hs.symm.trans hl
        exact .inl ⟨{ state with readerStarted := true },rfl,hc⟩
      · exact .inl ⟨state',hl,hc⟩
    · exact .inr hr'
  | closedAll hl =>
    intro c id stream hop
    rcases h c id stream hop with ⟨state,hl,rfl⟩ | ⟨q,hq⟩
    · refine .inr ⟨.requestLoop,List.mem_append_right _ ?_⟩
      exact List.mem_map.mpr ⟨⟨stream,state⟩,AList.mem_lookup_iff.mp hl,rfl⟩
    · exact .inr ⟨q,List.mem_append_left _ hq⟩
  | _ => exact h

/-- Ids are not used again; one pump and one removal for a stream; the connection of a
removed stream is closed once, by who removed it; no event follows the last one. -/
structure LifeCycle (s : Daemon F) : Prop where
  ids : (s.opened.map Prod.snd).Nodup
  opened : ∀ stream state, s.streams.lookup stream = some state →
    ∃ id, s.opened[state.conn]? = some (id,stream)
  pumps : s.pumped.Nodup
  removed : (s.removed.map (fun r => r.2.1)).Nodup
  absent : ∀ r ∈ s.removed, (∃ id, s.opened[r.2.2]? = some (id,r.2.1)) ∧
    s.streams.lookup r.2.1 = none
  kept : Kept s
  closes : (s.closes.map Prod.snd).Nodup
  remover : ∀ p c, (p,c) ∈ s.closes → ∃ stream, (p,stream,c) ∈ s.removed
  closed : ∀ p stream c, (p,stream,c) ∈ s.removed → (p,c) ∈ s.closes ∨ s.Owes p c
  last : s.out.Pairwise Follows

/-- All invariants. -/
structure Inv (s : Daemon F) : Prop where
  table : Table s
  pumps : Pumps s
  closing : Closing s
  events : Events s
  kept : Kept s

theorem inv_of_step {a : Act F} (h : Inv s) (hs : step trunc s a = some s') : Inv s' := by
  have he := effect_of_step hs
  exact ⟨h.table.effect he,h.pumps.effect h.table he,h.closing.effect h.table he,
    h.events.effect h.pumps he,kept_effect h.kept h.table he⟩

theorem inv_init : Inv (init : Daemon F) :=
  ⟨.init,.init,.init,.init,fun _ _ _ h => by simp [init] at h⟩

theorem inv_of_reach (h : Reach (step trunc) anyStep init s) : Inv s :=
  h.inv inv_init (fun _ _ _ h _ hs => inv_of_step h hs)

/-! Who owes a close makes it. -/

/-- The party whose step it is; the output breaks by itself. -/
def Act.party : Act F → Option Party
  | .breakOutput => none
  | a => some ((a.pump.map Party.pump).getD .requestLoop)

/-- Closes that a party makes before that of `c`. -/
def before (s : Daemon F) : Party → ConnIx → ℕ
  | .requestLoop, c => s.loop.owes.idxOf c
  | .pump _, _ => 0

/-- A party that owes a close can go on; its next step makes the close or the one before
it, and the steps of the others leave that to it. -/
structure Pays (trunc : F → Option ℤ) (s : Daemon F) (p : Party) (c : ConnIx) : Prop where
  able : s.loop ≠ .ended → ∃ a, a.party = some p ∧ (step trunc s a).isSome
  own : ∀ a s', a.party = some p → step trunc s a = some s' →
    s.before p c = 0 ∧ s'.closes = s.closes ++ [(p,c)] ∨
      s'.Owes p c ∧ s'.before p c+1 = s.before p c
  others : ∀ a s', a.party ≠ some p → step trunc s a = some s' →
    s'.Owes p c ∧ s'.before p c = s.before p c

theorem party_of_pump {a : Act F} {k : ℕ} (h : a.pump = some k) : a.party = some (.pump k) := by
  cases a with
  | breakOutput => cases h
  | _ => simp [Act.party,h]

theorem party_of_loop {a : Act F} (h : a.pump = none) (hb : a ≠ .breakOutput) :
    a.party = some .requestLoop := by
  cases a with
  | breakOutput => exact absurd rfl hb
  | _ => simp [Act.party,h]

theorem pumps_of_effect {j k : ℕ} (hjk : j ≠ k) (h : Effect s (some j) s') :
    s'.pumps[k]? = s.pumps[k]? := by
  have hm : ∀ f : Pump → Pump, (s.pumps.modify j f)[k]? = s.pumps[k]? := fun f => by
    rw [List.getElem?_modify]
    simp [hjk]
  cases h with
  | _ => exact hm _

theorem pumps_of_stepLoop {a : Act F} {k : ℕ} {p : Pump} (hp : s.pumps[k]? = some p)
    (hs : s.stepLoop trunc a = some s') : s'.pumps[k]? = some p := by
  have he := effect_of_stepLoop hs
  cases he with
  | spawned => exact getElem?_append_of_eq_some hp
  | _ => exact hp

theorem pays_pump {k : ℕ} {c : ConnIx} (h : s.Owes (.pump k) c) : Pays trunc s (.pump k) c := by
  obtain ⟨p,hp,hc⟩ := h
  have hph : p.phase = .closing c := by
    cases hphase : p.phase with
    | closing c' =>
      rw [hphase] at hc
      exact congrArg PumpPhase.closing (Option.some.inj hc)
    | _ =>
      rw [hphase] at hc
      cases hc
  refine ⟨fun hl => ?_,fun a s' ha hs => .inl ⟨rfl,?_⟩,fun a s' ha hs => ⟨?_,rfl⟩⟩
  · have hk : s.pump? k = some p := by
      unfold pump?
      split
      · exact absurd ‹_› hl
      · exact hp
    exact ⟨.closePump k,rfl,by simp [step,Act.pump,hk,stepPump,hph]⟩
  · have hk : a.pump = some k := by
      cases hpump : a.pump with
      | none =>
        cases a <;> simp [Act.party,hpump] at ha
      | some j =>
        rw [party_of_pump hpump] at ha
        cases ha
        rfl
    simp only [step,hk] at hs
    obtain ⟨q,hq,hs⟩ := Option.bind_eq_some_iff.mp hs
    cases (pump?_eq_some hq).symm.trans hp
    cases a <;> simp only [stepPump,hph] at hs <;> cases hs
    cases hk
    rfl
  · cases hpump : a.pump with
    | none =>
      simp only [step,hpump] at hs
      exact ⟨p,pumps_of_stepLoop hp hs,hc⟩
    | some j =>
      have hjk : j ≠ k := fun he => ha (by rw [party_of_pump hpump,he])
      simp only [step,hpump] at hs
      obtain ⟨q,hq,hs⟩ := Option.bind_eq_some_iff.mp hs
      have he := effect_of_stepPump (pump?_eq_some hq) hs
      exact ⟨p,(pumps_of_effect hjk he).trans hp,hc⟩

theorem pays_requestLoop {c : ConnIx} (h : s.Owes .requestLoop c) :
    Pays trunc s .requestLoop c := by
  refine ⟨fun _ => ?_,fun a s' ha hs => ?_,fun a s' ha hs => ?_⟩
  · cases hl : s.loop with
    | closing conn resp => exact ⟨.close,rfl,by simp [step,Act.pump,stepLoop,hl]⟩
    | closingAll conns =>
      cases conns with
      | nil => simp [Owes,hl,Loop.owes] at h
      | cons conn conns => exact ⟨.closeNext,rfl,by simp [step,Act.pump,stepLoop,hl]⟩
    | _ => simp [Owes,hl,Loop.owes] at h
  · have hk : a.pump = none := by
      cases hpump : a.pump with
      | none => rfl
      | some j =>
        rw [party_of_pump hpump] at ha
        cases ha
    simp only [step,hk] at hs
    cases hl : s.loop with
    | closing conn resp =>
      have hc : c = conn := by simpa [Owes,hl,Loop.owes] using h
      subst hc
      cases a with
      | breakOutput => cases ha
      | close =>
        simp only [stepLoop,hl] at hs
        cases hs
        exact .inl ⟨by simp [before,hl,Loop.owes],rfl⟩
      | _ =>
        simp only [stepLoop,hl] at hs
        cases hs
    | closingAll conns =>
      have hc : c ∈ conns := by simpa [Owes,hl,Loop.owes] using h
      cases conns with
      | nil => cases hc
      | cons conn conns =>
        cases a with
        | breakOutput => cases ha
        | closeNext =>
          simp only [stepLoop,hl] at hs
          cases hs
          by_cases hcc : conn = c
          · subst hcc
            exact .inl ⟨by simp [before,hl,Loop.owes],rfl⟩
          · refine .inr ⟨(List.mem_cons.mp hc).resolve_left (Ne.symm hcc),?_⟩
            simp [before,hl,Loop.owes,goto,List.idxOf_cons_ne _ hcc]
        | _ =>
          simp only [stepLoop,hl] at hs
          cases hs
    | _ => simp [Owes,hl,Loop.owes] at h
  · have hloop : s'.loop = s.loop := by
      cases hpump : a.pump with
      | none =>
        by_cases hb : a = .breakOutput
        · subst hb
          cases hs
          rfl
        · exact absurd (party_of_loop hpump hb) ha
      | some j =>
        simp only [step,hpump] at hs
        obtain ⟨q,-,hs⟩ := Option.bind_eq_some_iff.mp hs
        exact (pumpFrame_of_stepPump hs).loop
    exact ⟨by rw [Owes,hloop]; exact h,by rw [before,before,hloop]⟩

theorem pays {p : Party} {c : ConnIx} (h : s.Owes p c) : Pays trunc s p c := by
  cases p with
  | requestLoop => exact pays_requestLoop h
  | pump k => exact pays_pump h

theorem closes_of_effect {i : Option ℕ} (h : Effect s i s') : s.closes <+: s'.closes := by
  cases h with
  | closed | closedNext | closedPump => exact List.prefix_append _ _
  | _ => exact List.prefix_refl _

theorem closes_of_reach (h : Reach (step trunc) anyStep s s') : s.closes <+: s'.closes :=
  h.inv (List.prefix_refl _) (fun _ _ _ hp _ hs =>
    List.IsPrefix.trans hp (closes_of_effect (effect_of_step hs)))

/-- A debt is paid by as many steps of its party as there are closes before it, and one. -/
theorem closed_of_run {p : Party} {c : ConnIx} (acts : List (Act F)) (h : s.Owes p c)
    (hrun : run (step trunc) anyStep s acts = some s')
    (hn : s.before p c < acts.countP (fun a => a.party = some p)) : (p,c) ∈ s'.closes := by
  induction acts generalizing s with
  | nil => exact absurd hn (Nat.not_lt_zero _)
  | cons a acts ih =>
    rw [run,List.foldlM_cons,if_pos (show anyStep s a from trivial)] at hrun
    obtain ⟨s₁,h₁,h₂⟩ := Option.bind_eq_some_iff.mp hrun
    have hp : Pays trunc s p c := pays h
    by_cases ha : a.party = some p
    · rw [List.countP_cons_of_pos (by simpa using ha)] at hn
      rcases hp.own a s₁ ha h₁ with ⟨-,hc⟩ | ⟨ho,hb⟩
      · have hpre := closes_of_reach (reach_of_run acts h₂)
        exact hpre.mem (by rw [hc]; exact List.mem_append_right _ (List.mem_singleton_self _))
      · exact ih ho h₂ (by omega)
    · rw [List.countP_cons_of_neg (by simpa using ha)] at hn
      obtain ⟨ho,hb⟩ := hp.others a s₁ ha h₁
      exact ih ho h₂ (by omega)

/-- Wherever requests and pumps get, in any order: the life cycle of every stream, the
closes that are owed, the answers to `proxy.close`, and no step that touches the entry of
another stream. -/
theorem stream_life_cycle (h : Reach (step trunc) anyStep init s) :
    LifeCycle s ∧
    (∀ p c, s.Owes p c → Pays trunc s p c ∧
      ∀ acts s', run (step trunc) anyStep s acts = some s' →
        s.before p c < acts.countP (fun a => a.party = some p) → (p,c) ∈ s'.closes) ∧
    (∀ req other stream s', s.loop = .handling req → req.method = "proxy.close".toList →
      req.requireString "stream_id" = some stream → step trunc s (.handle other) = some s' →
      s'.Answering stream req.id) ∧
    (∀ stream id, s.Answering stream id →
      (∃ s', step trunc s .respond = some s' ∨ step trunc s .close = some s') ∧
      ∀ a s', step trunc s a = some s' → s'.Answering stream id ∨
        s'.streams.lookup stream = none ∧ s' = s.writeResponse (closedResponse id)) ∧
    ∀ a t s', step trunc s a = some s' → a ≠ .closeAll → s.subject a ≠ some t →
      s'.streams.lookup t = s.streams.lookup t := by
  have hi := inv_of_reach h
  refine ⟨⟨hi.table.opened_nodup,hi.table.conns,hi.pumps.once,hi.table.once,hi.table.gone,
    hi.kept,hi.closing.once,hi.closing.remover,hi.closing.closed,hi.events.last⟩,?_,?_,?_,?_⟩
  · intro p c ho
    exact ⟨pays ho,fun acts s' hrun hn => closed_of_run acts ho hrun hn⟩
  · intro req other stream s' hl hm hr hs
    exact answering_of_handle hl hm hr hs
  · intro stream id ha
    exact ⟨answering_enabled ha,fun a s' hs => answering_step ha hs⟩
  · intro a t s' hs ha ht
    exact lookup_of_ne_subject hs ha ht

def plainRequest (id : ℕ) (method : String) (params : List (String × Json ℕ)) : RpcRequest ℕ :=
  ⟨.num (.int id),method.toList,params⟩

def opening (id : ℕ) : List (Act ℕ) :=
  [.request (plainRequest id "proxy.open" [("host",.str "h".toList),("port",.num (.int 80))]),
    .handle (.ok .null),.dial none,.register,.respond]

def onStream (id : ℕ) (method : String) (stream : String) : List (Act ℕ) :=
  [.request (plainRequest id method [("stream_id",.str stream.toList)]),.handle (.ok .null)]

/-- Four streams. `proxy.close` comes for the first while its pump is about to report the
end of its connection; the pump of the second removes it, and before it closes its
connection, stdin ends with two streams in the table. -/
def closeRace : List (Act ℕ) :=
  opening 1 ++ opening 2 ++ opening 3 ++ opening 4 ++
    onStream 5 "proxy.stream.subscribe" "s-1" ++ [.spawn,.respond] ++
    onStream 6 "proxy.stream.subscribe" "s-2" ++ [.spawn,.respond] ++
    onStream 7 "proxy.stream.subscribe" "s-1" ++ [.respond,.read 0 [104,105] (some .eof),.emit 0] ++
    onStream 8 "proxy.close" "s-1" ++ [.terminate 0,.drop 0,.close,.respond,
      .read 1 [] (some .eof),.emit 1,.terminate 1,.drop 1,.hangUp,.closeAll]

theorem stream_life_cycle_closeRace :
    ∃ s, run (step (fun _ => none)) anyStep (init : Daemon ℕ) closeRace = some s ∧
      s.closes = [(.requestLoop,0)] ∧ s.pumped = ["s-1".toList,"s-2".toList] ∧ LifeCycle s ∧
      (s.Owes (.pump 1) 1 ∧ Pays (fun _ => none) s (.pump 1) 1) ∧
      (s.Owes .requestLoop 2 ∧ Pays (fun _ => none) s .requestLoop 2) ∧
      ∃ s', run (step (fun _ => none)) anyStep s [.closeNext,.closePump 1,.closeNext] = some s' ∧
        s'.closes = [(.requestLoop,0),(.requestLoop,3),(.pump 1,1),(.requestLoop,2)] := by
  refine ⟨_,rfl,rfl,rfl,?_⟩
  have hr : Reach (step (fun _ => none)) anyStep (init : Daemon ℕ) _ := reach_of_run closeRace rfl
  have h := stream_life_cycle hr
  refine ⟨h.1,⟨⟨_,rfl,rfl⟩,(h.2.1 (.pump 1) 1 ⟨_,rfl,rfl⟩).1⟩,?_,_,rfl,rfl⟩
  have hl : (2 : ConnIx) ∈ [3,2] := by decide
  exact ⟨hl,(h.2.1 .requestLoop 2 hl).1⟩

end Daemon

end Limux
