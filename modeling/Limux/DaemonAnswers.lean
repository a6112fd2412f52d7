import Limux.DaemonRun

/-! What the daemon writes: answers to requests it has read, and the bytes its pumps
have read. -/
namespace Limux

open Machine

namespace Daemon

variable {F : Type} {trunc : F → Option ℤ} {s s' : Daemon F}

/-- What a successful answer says: the stream that was opened, a stream that has a pump. -/
def Grants (s : Daemon F) (req : RpcRequest F) (v : Json F) : Prop :=
  (req.method = "proxy.open".toList →
    ∃ stream, v = .obj [("stream_id",.str stream)] ∧ (req.id,stream) ∈ s.opened) ∧
  (req.method = "proxy.stream.subscribe".toList →
    ∃ stream ∈ s.pumped, req.requireString "stream_id" = some stream)

def Answers (s : Daemon F) (r : RpcResponse F) : Prop :=
  r.id = .null ∨ ∃ req ∈ s.requests, r.id = req.id ∧ ∀ v, r.result = .ok v → s.Grants req v

/-- The request loop is at work for a request it has read. -/
def AtWork (s : Daemon F) : Loop F → Prop
  | .handling req => req ∈ s.requests
  | .dialing id _ _ | .dialed id =>
    ∃ req ∈ s.requests, id = req.id ∧ req.method = "proxy.open".toList
  | .writing id _ _ _ => ∃ req ∈ s.requests, id = req.id ∧ req.method = "proxy.write".toList
  | .spawning stream _ r => ∃ req ∈ s.requests, r.id = req.id ∧
      req.method = "proxy.stream.subscribe".toList ∧ req.requireString "stream_id" = some stream
  | .closing _ r | .responding r => s.Answers r
  | _ => True

structure Asked (s : Daemon F) : Prop where
  loop : s.AtWork s.loop
  out : ∀ r, .response r ∈ s.out → s.Answers r
  pumps : ∀ stream ∈ s.pumped, ∃ req ∈ s.requests,
    req.method = "proxy.stream.subscribe".toList ∧ req.requireString "stream_id" = some stream
  marked : ∀ stream state, s.streams.lookup stream = some state → state.readerStarted = true →
    stream ∈ s.pumped ∨ ∃ c r, s.loop = .spawning stream c r
  opened : ∀ x ∈ s.opened, ∃ req ∈ s.requests, x.1 = req.id ∧ req.method = "proxy.open".toList

/-- Logs only grow. -/
structure Grows (s s' : Daemon F) : Prop where
  requests : s.requests ⊆ s'.requests
  opened : s.opened ⊆ s'.opened
  pumped : s.pumped ⊆ s'.pumped

theorem Grants.mono (hg : Grows s s') {req : RpcRequest F} {v : Json F} (h : s.Grants req v) :
    s'.Grants req v := by
  refine ⟨fun hm => ?_,fun hm => ?_⟩
  · obtain ⟨stream,hv,ho⟩ := h.1 hm
    exact ⟨stream,hv,hg.opened ho⟩
  · obtain ⟨stream,hp,hr⟩ := h.2 hm
    exact ⟨stream,hg.pumped hp,hr⟩

theorem Answers.mono (hg : Grows s s') {r : RpcResponse F} (h : s.Answers r) : s'.Answers r := by
  rcases h with h | ⟨req,hr,hid,hv⟩
  · exact .inl h
  · exact .inr ⟨req,hg.requests hr,hid,fun v hok => (hv v hok).mono hg⟩

theorem AtWork.mono (hg : Grows s s') {l : Loop F} (h : s.AtWork l) : s'.AtWork l := by
  cases l with
  | handling => exact hg.requests h
  | dialing | dialed | writing | spawning =>
    obtain ⟨req,hr,h⟩ := h
    exact ⟨req,hg.requests hr,h⟩
  | closing | responding => exact Answers.mono hg h
  | reading | returning | closingAll | ended => trivial

namespace Asked

theorem init : Asked (Daemon.init : Daemon F) :=
  ⟨trivial,by simp [Daemon.init],by simp [Daemon.init,pumped],by simp [Daemon.init],
    by simp [Daemon.init]⟩

theorem move (h : Asked s) {l : Loop F} (hl : s.AtWork l)
    (hn : ∀ stream c r, s.loop ≠ .spawning stream c r) : Asked (s.goto l) := by
  refine ⟨hl.mono ⟨fun _ h => h,fun _ h => h,fun _ h => h⟩,h.out,h.pumps,?_,h.opened⟩
  intro stream state hs hr
  rcases h.marked stream state hs hr with hp | ⟨c,r,hsp⟩
  · exact .inl hp
  · exact (hn _ _ _ hsp).elim

theorem answers_fault {req : RpcRequest F} (hr : req ∈ s.requests) (code : String)
    (message : Text) : s.Answers (.fault req.id code message) :=
  .inr ⟨req,hr,rfl,fun v hv => by cases hv⟩

theorem answers_other {req : RpcRequest F} (hr : req ∈ s.requests) {resp : RpcResponse F}
    (hid : resp.id = req.id) (ho : req.method ≠ "proxy.open".toList)
    (hs : req.method ≠ "proxy.stream.subscribe".toList) : s.Answers resp :=
  .inr ⟨req,hr,hid,fun _ _ => ⟨fun h => (ho h).elim,fun h => (hs h).elim⟩⟩

theorem handleProxyOpen (h : Asked s) {req : RpcRequest F} (hl : s.loop = .handling req)
    (hm : req.method = "proxy.open".toList) : Asked (s.handleProxyOpen trunc req) := by
  have hr : req ∈ s.requests := by simpa [AtWork,hl] using h.loop
  have hn : ∀ stream c r, s.loop ≠ .spawning stream c r := by simp [hl]
  unfold Daemon.handleProxyOpen
  split
  · exact h.move (answers_fault hr _ _) hn
  · split
    · exact h.move (answers_fault hr _ _) hn
    · exact h.move ⟨req,hr,rfl,hm⟩ hn

theorem handleProxyClose (h : Asked s) {req : RpcRequest F} (hl : s.loop = .handling req)
    (hm : req.method = "proxy.close".toList) : Asked (s.handleProxyClose req) := by
  have hr : req ∈ s.requests := by simpa [AtWork,hl] using h.loop
  have hn : ∀ stream c r, s.loop ≠ .spawning stream c r := by simp [hl]
  have ha : s.Answers (closedResponse req.id) :=
    answers_other hr rfl (by rw [hm]; decide) (by rw [hm]; decide)
  unfold Daemon.handleProxyClose
  split
  · exact h.move (answers_fault hr _ _) hn
  · split
    · exact h.move ha hn
    · rename_i state hs
      refine ⟨ha.mono ⟨fun _ h => h,fun _ h => h,fun _ h => h⟩,h.out,h.pumps,?_,h.opened⟩
      intro stream' state' hs' hr'
      simp only [HashMap.lookup_erase_ite] at hs'
      split at hs'
      · cases hs'
      · rcases h.marked stream' state' hs' hr' with hp | ⟨c,r,hsp⟩
        · exact .inl hp
        · exact (hn _ _ _ hsp).elim

theorem handleProxyWrite (h : Asked s) {req : RpcRequest F} (hl : s.loop = .handling req)
    (hm : req.method = "proxy.write".toList) : Asked (s.handleProxyWrite req) := by
  have hr : req ∈ s.requests := by simpa [AtWork,hl] using h.loop
  have hn : ∀ stream c r, s.loop ≠ .spawning stream c r := by simp [hl]
  have hf : ∀ code message, Asked (s.answer (.fault req.id code message)) :=
    fun code message => h.move (answers_fault hr code message) hn
  unfold Daemon.handleProxyWrite
  split
  · exact hf _ _
  · split
    · exact hf _ _
    · split
      · exact hf _ _
      · split
        · exact hf _ _
        · exact h.move ⟨req,hr,rfl,hm⟩ hn

theorem handleProxyStreamSubscribe (h : Asked s) {req : RpcRequest F} (hl : s.loop = .handling req)
    (hm : req.method = "proxy.stream.subscribe".toList) :
    Asked (s.handleProxyStreamSubscribe req) := by
  have hr : req ∈ s.requests := by simpa [AtWork,hl] using h.loop
  have hn : ∀ stream c r, s.loop ≠ .spawning stream c r := by simp [hl]
  unfold Daemon.handleProxyStreamSubscribe
  split
  · exact h.move (answers_fault hr _ _) hn
  · rename_i stream hst
    split
    · exact h.move (answers_fault hr _ _) hn
    · rename_i state hs
      split
      · rename_i hmark
        have hp : stream ∈ s.pumped := by
          rcases h.marked stream state hs hmark with hp | ⟨c,r,hsp⟩
          · exact hp
          · exact (hn _ _ _ hsp).elim
        refine h.move (.inr ⟨req,hr,rfl,fun v _ => ⟨fun ho => ?_,fun _ => ⟨stream,hp,hst⟩⟩⟩) hn
        rw [hm] at ho
        exact absurd ho (by decide)
      · refine ⟨⟨req,hr,rfl,hm,hst⟩,h.out,h.pumps,?_,h.opened⟩
        intro stream' state' hs' hr'
        simp only [HashMap.lookup_insert_ite] at hs'
        split at hs'
        · rename_i heq
          exact .inr ⟨state.conn,_,by rw [heq]; rfl⟩
        · rcases h.marked stream' state' hs' hr' with hp | ⟨c,r,hsp⟩
          · exact .inl hp
          · exact (hn _ _ _ hsp).elim

theorem handleRequest (h : Asked s) {req : RpcRequest F} {other : Except RpcFault (Json F)}
    (hl : s.loop = .handling req) : Asked (s.handleRequest trunc req other) := by
  have hr : req ∈ s.requests := by simpa [AtWork,hl] using h.loop
  have hn : ∀ stream c r, s.loop ≠ .spawning stream c r := by simp [hl]
  unfold Daemon.handleRequest
  split
  · exact h.move (answers_fault hr _ _) hn
  split
  · exact h.handleProxyOpen hl ‹_›
  split
  · exact h.handleProxyClose hl ‹_›
  split
  · exact h.handleProxyWrite hl ‹_›
  split
  · exact h.handleProxyStreamSubscribe hl ‹_›
  · exact h.move (answers_other hr rfl ‹_› ‹_›) hn

/-- Frames, requests and pumps stay; streams may go. -/
theorem of_le (h : Asked s) (hl : s'.AtWork s'.loop) (hreq : s'.requests = s.requests)
    (ho : s'.opened = s.opened) (hp : s'.pumped = s.pumped)
    (hout : ∀ r, .response r ∈ s'.out → .response r ∈ s.out)
    (hs : ∀ stream state, s'.streams.lookup stream = some state →
      s.streams.lookup stream = some state)
    (hn : ∀ stream c r, s.loop = .spawning stream c r → s'.loop = .spawning stream c r) :
    Asked s' := by
  have hg : Grows s s' := ⟨fun _ h => hreq ▸ h,fun _ h => ho ▸ h,fun _ h => hp ▸ h⟩
  refine ⟨hl,fun r hr => (h.out r (hout r hr)).mono hg,?_,?_,?_⟩
  · rw [hp,hreq]
    exact h.pumps
  · intro stream state hst hr
    rcases h.marked stream state (hs _ _ hst) hr with hm | ⟨c,r,hsp⟩
    · exact .inl (hp ▸ hm)
    · exact .inr ⟨c,r,hn _ _ _ hsp⟩
  · rw [ho,hreq]
    exact h.opened

theorem stepPump (h : Asked s) {k : ℕ} {p : Pump} {a : Act F} (hs : s.stepPump k p a = some s') :
    Asked s' := by
  have hf := pumpFrame_of_stepPump hs
  have hg : Grows s s' :=
    ⟨fun _ h => hf.requests ▸ h,fun _ h => hf.opened ▸ h,fun _ h => hf.pumped ▸ h⟩
  refine h.of_le ?_ hf.requests hf.opened hf.pumped hf.responses (fun stream state hl => ?_)
    (fun _ _ _ hl => hf.loop ▸ hl)
  · rw [hf.loop]
    exact h.loop.mono hg
  · rcases hf.streams with hst | hst
    · rwa [hst] at hl
    · rw [hst,HashMap.lookup_erase_ite] at hl
      split at hl
      · cases hl
      · exact hl

theorem request (h : Asked s) {req : RpcRequest F} (hl : s.loop = .reading) :
    Asked { s.goto (.handling req) with requests := s.requests ++ [req] } := by
  have hg : Grows s { s.goto (.handling req) with requests := s.requests ++ [req] } :=
    ⟨fun _ h => List.mem_append_left _ h,fun _ h => h,fun _ h => h⟩
  refine ⟨List.mem_append_right _ (List.mem_singleton_self _),fun r hr => (h.out r hr).mono hg,
    fun stream hp => ?_,fun stream state hs hr => ?_,fun x hx => ?_⟩
  · obtain ⟨req',hr,hq⟩ := h.pumps stream hp
    exact ⟨req',hg.requests hr,hq⟩
  · rcases h.marked stream state hs hr with hp | ⟨c,r,hsp⟩
    · exact .inl hp
    · rw [hl] at hsp
      cases hsp
  · obtain ⟨req',hr,hq⟩ := h.opened x hx
    exact ⟨req',hg.requests hr,hq⟩

theorem addStream (h : Asked s) {id : Json F} (hl : s.loop = .dialed id) :
    Asked (s.addStream id) := by
  obtain ⟨req,hr,hid,hm⟩ : ∃ req ∈ s.requests, id = req.id ∧ req.method = "proxy.open".toList := by
    simpa [AtWork,hl] using h.loop
  have hg : Grows s (s.addStream id) :=
    ⟨fun _ h => h,fun _ h => List.mem_append_left _ h,fun _ h => h⟩
  refine ⟨.inr ⟨req,hr,hid,fun v hv => ?_⟩,fun r hr => (h.out r hr).mono hg,h.pumps,
    fun stream state hs hmark => ?_,fun x hx => ?_⟩
  · cases hv
    refine ⟨fun _ => ⟨streamID s.nextStreamID,rfl,?_⟩,fun hsub => ?_⟩
    · rw [← hid]
      exact List.mem_append_right _ (List.mem_singleton_self _)
    · rw [hm] at hsub
      exact absurd hsub (by decide)
  · simp only [Daemon.addStream,HashMap.lookup_insert_ite] at hs
    split at hs
    · cases hs
      cases hmark
    · rcases h.marked stream state hs hmark with hp | ⟨c,r,hsp⟩
      · exact .inl hp
      · rw [hl] at hsp
        cases hsp
  · rcases List.mem_append.mp hx with hx | hx
    · exact h.opened x hx
    · cases List.mem_singleton.mp hx
      exact ⟨req,hr,hid,hm⟩

theorem spawn (h : Asked s) {stream : Text} {conn : ConnIx} {resp : RpcResponse F}
    (hl : s.loop = .spawning stream conn resp) :
    Asked { s.answer resp with pumps := s.pumps ++ [⟨stream,conn,.reading,[]⟩] } := by
  obtain ⟨req,hr,hid,hm,hst⟩ : ∃ req ∈ s.requests, resp.id = req.id ∧
      req.method = "proxy.stream.subscribe".toList ∧ req.requireString "stream_id" = some stream := by
    simpa [AtWork,hl] using h.loop
  have hp : ∀ stream', stream' ∈ ({ s.answer resp with
      pumps := s.pumps ++ [⟨stream,conn,.reading,[]⟩] } : Daemon F).pumped ↔
      stream' ∈ s.pumped ∨ stream' = stream := by simp [pumped]
  have hg : Grows s { s.answer resp with pumps := s.pumps ++ [⟨stream,conn,.reading,[]⟩] } :=
    ⟨fun _ h => h,fun _ h => h,fun stream' h => (hp stream').mpr (.inl h)⟩
  refine ⟨.inr ⟨req,hr,hid,fun v _ => ⟨fun ho => ?_,fun _ => ⟨stream,(hp _).mpr (.inr rfl),hst⟩⟩⟩,
    fun r hr => (h.out r hr).mono hg,fun stream' hmem => ?_,fun stream' state hs hmark => ?_,h.opened⟩
  · rw [hm] at ho
    exact absurd ho (by decide)
  · rcases (hp stream').mp hmem with hmem | rfl
    · exact h.pumps stream' hmem
    · exact ⟨req,hr,hm,hst⟩
  · refine .inl ((hp stream').mpr ?_)
    rcases h.marked stream' state hs hmark with hmem | ⟨c,r,hsp⟩
    · exact .inl hmem
    · rw [hl] at hsp
      cases hsp
      exact .inr rfl

theorem respond (h : Asked s) {resp : RpcResponse F} (hl : s.loop = .responding resp) :
    Asked (s.writeResponse resp) := by
  have ha : s.Answers resp := by simpa [AtWork,hl] using h.loop
  have hn : ∀ stream c r, s.loop ≠ .spawning stream c r := by simp [hl]
  unfold writeResponse
  split
  · exact h.move trivial hn
  · have hm := h.move (l := .reading) trivial hn
    refine ⟨trivial,fun r hr => ?_,hm.pumps,hm.marked,hm.opened⟩
    rcases List.mem_append.mp hr with hr | hr
    · exact h.out r hr
    · cases List.mem_singleton.mp hr
      exact ha

theorem closeAll (h : Asked s) : Asked s.closeAll := by
  refine ⟨trivial,h.out,h.pumps,fun stream state hs => ?_,h.opened⟩
  simp [Daemon.closeAll] at hs

theorem wrote (h : Asked s) {id : Json F} {conn : ConnIx} {payload : List UInt8} {total : ℕ}
    (hl : s.loop = .writing id conn payload total) (n : ℕ) (err : Option Text) :
    Asked (s.goto (Daemon.wrote id conn payload total n err)) := by
  have hw : s.AtWork (.writing id conn payload total) := hl ▸ h.loop
  obtain ⟨req,hr,rfl,hm⟩ := hw
  refine h.move ?_ (by simp [hl])
  cases err with
  | some message => exact answers_fault hr _ _
  | none =>
    rw [Daemon.wrote]
    split
    · exact answers_fault hr _ _
    · exact ⟨req,hr,rfl,hm⟩

theorem stepLoop (h : Asked s) {a : Act F} (hs : s.stepLoop trunc a = some s') : Asked s' := by
  cases a with
  | request req =>
    simp only [Daemon.stepLoop] at hs
    split at hs
    · cases hs
      exact h.request ‹_›
    · cases hs
  | refuse message =>
    simp only [Daemon.stepLoop] at hs
    split at hs
    · rename_i hl
      cases hs
      exact h.move (.inl rfl) (by simp [hl])
    · cases hs
  | handle other =>
    simp only [Daemon.stepLoop] at hs
    split at hs
    · cases hs
      exact h.handleRequest ‹_›
    · cases hs
  | dial err =>
    simp only [Daemon.stepLoop] at hs
    split at hs
    · rename_i id host port hl
      have hw : s.AtWork (.dialing id host port) := hl ▸ h.loop
      cases hs
      cases err with
      | none => exact h.move hw (by simp [hl])
      | some message =>
        obtain ⟨req,hr,rfl,hm⟩ := hw
        exact h.move (answers_fault hr _ _) (by simp [hl])
    · cases hs
  | register =>
    simp only [Daemon.stepLoop] at hs
    split at hs
    · cases hs
      exact h.addStream ‹_›
    · cases hs
  | deadline message =>
    simp only [Daemon.stepLoop] at hs
    split at hs
    · rename_i id conn payload hl
      have hw : s.AtWork (.writing id conn payload 0) := hl ▸ h.loop
      obtain ⟨req,hr,rfl,hm⟩ := hw
      cases hs
      exact h.move (answers_fault hr _ _) (by simp [hl])
    · cases hs
  | write n err =>
    simp only [Daemon.stepLoop] at hs
    split at hs
    · obtain ⟨-,hs⟩ := Option.ite_none_right_eq_some.mp hs
      cases hs
      exact h.wrote ‹_› n err
    · cases hs
  | finishWrite =>
    simp only [Daemon.stepLoop] at hs
    split at hs
    · rename_i id conn payload total hl
      have hw : s.AtWork (.writing id conn payload total) := hl ▸ h.loop
      obtain ⟨req,hr,rfl,hm⟩ := hw
      obtain ⟨-,hs⟩ := Option.ite_none_right_eq_some.mp hs
      cases hs
      refine h.move (answers_other hr rfl ?_ ?_) (by simp [hl])
      all_goals rw [hm]; decide
    · cases hs
  | close =>
    simp only [Daemon.stepLoop] at hs
    split at hs
    · rename_i conn resp hl
      have hw : s.AtWork (.closing conn resp) := hl ▸ h.loop
      cases hs
      exact h.of_le hw rfl rfl rfl (fun _ h => h) (fun _ _ h => h) (by simp [hl])
    · cases hs
  | spawn =>
    simp only [Daemon.stepLoop] at hs
    split at hs
    · cases hs
      exact h.spawn ‹_›
    · cases hs
  | respond =>
    simp only [Daemon.stepLoop] at hs
    split at hs
    · cases hs
      exact h.respond ‹_›
    · cases hs
  | hangUp =>
    simp only [Daemon.stepLoop] at hs
    split at hs
    · rename_i hl
      cases hs
      exact h.move trivial (by simp [hl])
    · cases hs
  | closeAll =>
    simp only [Daemon.stepLoop] at hs
    split at hs
    · cases hs
      exact h.closeAll
    · cases hs
  | closeNext =>
    simp only [Daemon.stepLoop] at hs
    split at hs
    · rename_i hl
      cases hs
      exact h.of_le trivial rfl rfl rfl (fun _ h => h) (fun _ _ h => h) (by simp [hl])
    · rename_i hl
      cases hs
      exact h.move trivial (by simp [hl])
    · cases hs
  | breakOutput =>
    cases hs
    exact h.of_le (h.loop.mono ⟨fun _ h => h,fun _ h => h,fun _ h => h⟩) rfl rfl rfl
      (fun _ h => h) (fun _ _ h => h) (fun _ _ _ h => h)
  | read | panic | emit | terminate | drop | closePump => cases hs

theorem step {a : Act F} (h : Asked s) (hs : step trunc s a = some s') : Asked s' := by
  unfold Daemon.step at hs
  split at hs
  · obtain ⟨p,hp,hs⟩ := Option.bind_eq_some_iff.mp hs
    exact h.stepPump hs
  · exact h.stepLoop hs

end Asked

def eventsOf (stream : Text) (out : List (Frame F)) : List RpcEvent :=
  out.filterMap (fun
    | .event e => if e.streamId = stream then some e else none
    | .response _ => none)

theorem eventsOf_append (stream : Text) (l m : List (Frame F)) :
    eventsOf stream (l ++ m) = eventsOf stream l ++ eventsOf stream m :=
  List.filterMap_append

theorem mem_eventsOf {stream : Text} {out : List (Frame F)} {e : RpcEvent} :
    e ∈ eventsOf stream out ↔ .event e ∈ out ∧ e.streamId = stream := by
  rw [eventsOf,List.mem_filterMap]
  constructor
  · rintro ⟨f,hf,h⟩
    cases f with
    | response r => cases h
    | event e' =>
      obtain ⟨hst,he⟩ := Option.ite_none_right_eq_some.mp h
      cases he
      exact ⟨hf,hst⟩
  · rintro ⟨hm,hst⟩
    exact ⟨.event e,hm,if_pos hst⟩

theorem eventsOf_eq_nil (h : Events s) {stream : Text} (hn : stream ∉ s.pumped) :
    eventsOf stream s.out = [] := by
  rw [List.eq_nil_iff_forall_not_mem]
  intro e he
  obtain ⟨hm,rfl⟩ := mem_eventsOf.mp he
  obtain ⟨k,p,hp,hst,-⟩ := h.pump e hm
  exact hn (List.mem_map.mpr ⟨p,List.mem_of_getElem? hp,hst⟩)

theorem Pumps.index_eq (h : Pumps s) {i j : ℕ} {p q : Pump} (hp : s.pumps[i]? = some p)
    (hq : s.pumps[j]? = some q) (hst : p.stream = q.stream) : i = j := by
  have hi : i < s.pumped.length := by simpa [pumped] using (List.getElem?_eq_some_iff.mp hp).1
  refine (List.getElem?_inj hi h.once).mp ?_
  simp [pumped,hp,hq,hst]

/-- What a pump has read is in its data events, up to the data it has still to write. -/
def Accounts (s : Daemon F) : Prop :=
  s.broken = false → ∀ p ∈ s.pumps,
    p.received = (eventsOf p.stream s.out).flatMap RpcEvent.bytes ++ p.phase.pending

namespace Accounts

theorem init : Accounts (Daemon.init : Daemon F) := fun _ p hp => by cases hp

theorem of_modify (h : Accounts s) {k : ℕ} {p : Pump} {f : Pump → Pump}
    (hp : s.pumps[k]? = some p) (hl : s'.pumps = s.pumps.modify k f)
    (hout : s'.out = s.out) (hb : s'.broken = s.broken) (hst : (f p).stream = p.stream)
    (hr : s.broken = false → p.received = (eventsOf p.stream s.out).flatMap RpcEvent.bytes ++
      p.phase.pending → (f p).received = (eventsOf p.stream s.out).flatMap RpcEvent.bytes ++
      (f p).phase.pending) : Accounts s' := by
  intro hb' q hq
  rw [hb] at hb'
  obtain ⟨j,hj⟩ := List.mem_iff_getElem?.mp hq
  rw [hl] at hj
  rw [hout]
  obtain ⟨x,hx,⟨rfl,rfl⟩ | ⟨-,rfl⟩⟩ := getElem?_modify_cases hj
  · cases hp.symm.trans hx
    rw [hst]
    exact hr hb' (h hb' p (List.mem_of_getElem? hp))
  · exact h hb' q (List.mem_of_getElem? hx)

theorem effect (h : Accounts s) (hi : Inv s) {i : Option ℕ} (he : Effect s i s') :
    Accounts s' := by
  cases he with
  | moved | asked | opened | removed | marked | closed | closedNext | closedAll | ended => exact h
  | broke =>
    intro hb
    cases hb
  | @responded resp hl hb =>
    intro hb' p hp
    have hn : eventsOf p.stream [Frame.response resp] = [] := rfl
    simp only [eventsOf_append,hn,List.append_nil]
    exact h hb p hp
  | @spawned stream conn resp hl =>
    intro hb p hp
    rcases List.mem_append.mp hp with hp | hp
    · exact h hb p hp
    · cases List.mem_singleton.mp hp
      have hn := eventsOf_eq_nil hi.events (hi.pumps.spawning _ _ _ hl).2.1
      show [] = _
      simp [answer,goto,hn,PumpPhase.pending]
  | pumped data hp ho hc hc' hd =>
    refine h.of_modify hp rfl rfl rfl rfl (fun hb hr => ?_)
    simp only [hr,hd hb,List.append_assoc]
  | @dropped k p state hp hd hs =>
    refine h.of_modify hp rfl rfl rfl rfl (fun hb hr => ?_)
    simpa [hd,PumpPhase.pending] using hr
  | @closedPump k p conn hp hd =>
    refine h.of_modify hp rfl rfl rfl rfl (fun hb hr => ?_)
    simpa [hd,PumpPhase.pending] using hr
  | @emitted k p ph e hp hst hk ho ht hc hc' hd =>
    intro hb q hq
    obtain ⟨j,hj⟩ := List.mem_iff_getElem?.mp hq
    obtain ⟨x,hx,⟨rfl,rfl⟩ | ⟨hne,rfl⟩⟩ := getElem?_modify_cases hj
    · cases hp.symm.trans hx
      have he : eventsOf p.stream [(.event e : Frame F)] = [e] := by simp [eventsOf,hst]
      have hr := h hb p (List.mem_of_getElem? hp)
      simp only [eventsOf_append,he,List.flatMap_append,List.flatMap_singleton]
      rw [hr,hd,List.append_assoc]
    · have he : eventsOf q.stream [(.event e : Frame F)] = [] := by
        have hno : p.stream ≠ q.stream := fun heq => hne (hi.pumps.index_eq hx hp heq.symm)
        simp [eventsOf,hst,hno]
      simp only [eventsOf_append,he,List.append_nil]
      exact h hb q (List.mem_of_getElem? hx)

end Accounts

end Daemon

end Limux
