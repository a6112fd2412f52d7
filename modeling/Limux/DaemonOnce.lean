import Limux.DaemonAnswers

/-! Requests with ids of their own: each is handled once and opens one stream at most. -/
namespace Limux

open Machine

namespace Daemon

variable {F : Type} {trunc : F → Option ℤ} {s s' : Daemon F}

def ids (s : Daemon F) : List (Json F) := s.requests.map RpcRequest.id

/-- The request with this id is not handled, or it is and its answer is a success. -/
def Opens (s : Daemon F) (id : Json F) : Prop :=
  (∀ st, (id,st) ∉ s.opened) ∨ ∃ v, s.loop = .responding ⟨id,.ok v⟩

structure Once (s : Daemon F) : Prop where
  nonnull : ∀ req ∈ s.requests, req.id ≠ .null
  nodup : (s.opened.map Prod.fst).Nodup
  known : ∀ x ∈ s.opened, x.1 ∈ s.ids
  work : ∀ id, id ≠ .null → s.loop.work = some id → id ∈ s.ids ∧ s.Opens id
  out : ∀ r, .response r ∈ s.out → r.id ≠ .null → r.id ∈ s.ids ∧ s.loop.work ≠ some r.id ∧
    ∀ e, r.result = .error e → ∀ st, (r.id,st) ∉ s.opened

namespace Once

theorem init : Once (Daemon.init : Daemon F) := by
  constructor <;> simp [Daemon.init,Loop.work]

theorem keep (h : Once s) (hreq : s'.requests = s.requests) (hop : s'.opened = s.opened)
    (hout : s'.out = s.out) (hw : s.loop.Continues s'.loop) : Once s' := by
  have hids : s'.ids = s.ids := congrArg (List.map RpcRequest.id) hreq
  refine ⟨by rw [hreq]; exact h.nonnull,by rw [hop]; exact h.nodup,?_,fun id hn hid => ?_,
    fun r hr hn => ?_⟩
  · rw [hop,hids]
    exact h.known
  · rcases hw id hid with he | ⟨hid,hne⟩
    · exact (hn he).elim
    · obtain ⟨hm,ho | ⟨v,ho⟩⟩ := h.work id hn hid
      · exact ⟨hids ▸ hm,.inl (hop ▸ ho)⟩
      · exact (hne _ ho).elim
  · obtain ⟨hm,hne,he⟩ := h.out r (hout ▸ hr) hn
    refine ⟨hids ▸ hm,fun hid => ?_,hop ▸ he⟩
    rcases hw _ hid with he | ⟨hid,-⟩
    · exact hn he
    · exact hne hid

theorem idle (h : Once s) (hreq : s'.requests = s.requests) (hop : s'.opened = s.opened)
    (hout : s'.out = s.out) (hw : s'.loop.work = none) : Once s' :=
  h.keep hreq hop hout (fun id hid => by rw [hw] at hid; cases hid)

theorem of_eq (h : Once s) (hreq : s'.requests = s.requests) (hop : s'.opened = s.opened)
    (hout : ∀ r, .response r ∈ s'.out → .response r ∈ s.out) (hl : s'.loop = s.loop) : Once s' := by
  have hids : s'.ids = s.ids := congrArg (List.map RpcRequest.id) hreq
  refine ⟨by rw [hreq]; exact h.nonnull,by rw [hop]; exact h.nodup,by rw [hop,hids]; exact h.known,
    fun id hn hid => ?_,fun r hr hn => ?_⟩
  · obtain ⟨hm,ho⟩ := h.work id hn (hl ▸ hid)
    exact ⟨hids ▸ hm,by rwa [Opens,hop,hl]⟩
  · obtain ⟨hm,hne,he⟩ := h.out r (hout r hr) hn
    exact ⟨hids ▸ hm,by rwa [hl],hop ▸ he⟩

theorem ask (h : Once s) {req : RpcRequest F} (hn : req.id ≠ .null) (hf : req.id ∉ s.ids) :
    Once { s.goto (.handling req) with requests := s.requests ++ [req] } := by
  have hids : ∀ {id : Json F}, id ∈ s.ids →
      id ∈ ids { s.goto (.handling req) with requests := s.requests ++ [req] } := fun hm => by
    rw [ids,List.map_append]
    exact List.mem_append_left _ hm
  refine ⟨fun r hr => ?_,h.nodup,fun x hx => hids (h.known x hx),fun id _ hid => ?_,
    fun r hr hrn => ?_⟩
  · rcases List.mem_append.mp hr with hr | hr
    · exact h.nonnull r hr
    · exact (List.mem_singleton.mp hr) ▸ hn
  · cases Option.some.inj hid
    exact ⟨by simp [ids],.inl (fun st hm => hf (h.known _ hm))⟩
  · obtain ⟨hm,-,he⟩ := h.out r hr hrn
    refine ⟨hids hm,fun hid => ?_,he⟩
    exact hf ((Option.some.inj hid : req.id = r.id) ▸ hm)

theorem register (h : Once s) (ha : Asked s) {id : Json F} (hl : s.loop = .dialed id) :
    Once (s.addStream id) := by
  have hw : s.loop.work = some id := by rw [hl]; rfl
  obtain ⟨req,hreq,rfl,-⟩ : s.AtWork (.dialed id) := hl ▸ ha.loop
  have hn := h.nonnull req hreq
  obtain ⟨hm,ho⟩ := h.work _ hn hw
  have ho : ∀ st, (req.id,st) ∉ s.opened := by
    rcases ho with ho | ⟨v,ho⟩
    · exact ho
    · rw [hl] at ho
      cases ho
  refine ⟨h.nonnull,?_,fun x hx => ?_,fun id _ hid => ?_,fun r hr hrn => ?_⟩
  · change ((s.opened ++ [(req.id,streamID s.nextStreamID)]).map Prod.fst).Nodup
    rw [List.map_append,List.nodup_append]
    refine ⟨h.nodup,by simp,?_⟩
    rintro a hx b hy rfl
    cases List.mem_singleton.mp hy
    obtain ⟨⟨id',st⟩,hx,he⟩ := List.mem_map.mp hx
    cases he
    exact ho st hx
  · rcases List.mem_append.mp hx with hx | hx
    · exact h.known x hx
    · cases List.mem_singleton.mp hx
      exact hm
  · cases hid
    exact ⟨hm,.inr ⟨_,rfl⟩⟩
  · obtain ⟨hm,hne,he⟩ := h.out r hr hrn
    have hne' : req.id ≠ r.id := fun heq => hne (heq ▸ hw)
    refine ⟨hm,fun hid => hne' (Option.some.inj hid),fun e hre st hx => ?_⟩
    rcases List.mem_append.mp hx with hx | hx
    · exact he e hre st hx
    · exact hne' (congrArg Prod.fst (List.mem_singleton.mp hx)).symm

theorem respond (h : Once s) {resp : RpcResponse F} (hl : s.loop = .responding resp) :
    Once { s.goto .reading with out := s.out ++ [.response resp] } := by
  refine ⟨h.nonnull,h.nodup,h.known,fun id _ hid => (by cases hid),fun r hr hn => ?_⟩
  rcases List.mem_append.mp hr with hr | hr
  · obtain ⟨hm,-,he⟩ := h.out r hr hn
    exact ⟨hm,by simp [goto,Loop.work],he⟩
  · cases List.mem_singleton.mp hr
    obtain ⟨hm,ho⟩ := h.work resp.id hn (by rw [hl]; rfl)
    refine ⟨hm,by simp [goto,Loop.work],fun e he st hx => ?_⟩
    rcases ho with ho | ⟨v,ho⟩
    · exact ho st hx
    · have hok : resp.result = .ok v :=
        congrArg RpcResponse.result (Loop.responding.inj (hl.symm.trans ho))
      rw [hok] at he
      cases he

theorem effect (h : Once s) (ha : Asked s) {i : Option ℕ} (he : Effect s i s')
    (hf : ∀ req, s'.requests = s.requests ++ [req] → req.id ≠ .null ∧ req.id ∉ s.ids) :
    Once s' := by
  cases he with
  | moved hq hl hw => exact h.keep rfl rfl rfl hw
  | removed hq hs hw => exact h.keep rfl rfl rfl hw
  | marked hq hs hr hw => exact h.keep rfl rfl rfl hw
  | @asked req hl => exact h.ask (hf req rfl).1 (hf req rfl).2
  | opened hl => exact h.register ha hl
  | closed hl | spawned hl =>
    exact h.keep rfl rfl rfl (fun id hid => .inr ⟨by rw [hl]; exact hid,by simp [hl]⟩)
  | responded hl hb => exact h.respond hl
  | closedAll | closedNext | ended => exact h.idle rfl rfl rfl rfl
  | broke | pumped | dropped | closedPump => exact h.of_eq rfl rfl (fun _ hr => hr) rfl
  | emitted => exact h.of_eq rfl rfl (fun _ hr => by simpa using hr) rfl

end Once

theorem opened_of_step {a : Act F} (hs : step trunc s a = some s') : s'.opened = s.opened ∨
    ∃ id st, a = .register ∧ s.loop = .dialed id ∧ s'.opened = s.opened ++ [(id,st)] := by
  have he := effect_of_step hs
  generalize hi : a.pump = i at he
  cases he with
  | @opened id hl =>
    refine .inr ⟨id,_,?_,hl,rfl⟩
    cases a with
    | register => rfl
    | breakOutput =>
      have hop : s.opened = s.opened ++ [(id,streamID s.nextStreamID)] :=
        congrArg Daemon.opened (Option.some.inj hs)
      simp at hop
    | read | panic | emit | terminate | drop | closePump => cases hi
    | _ => simp [step,Act.pump,stepLoop,hl] at hs
  | _ => exact .inl rfl

def Loop.reply : Loop F → Option (RpcResponse F)
  | .closing _ r | .responding r => some r
  | _ => none

def Handled (s : Daemon F) (id : Json F) : Prop :=
  ∃ r : RpcResponse F, r.id = id ∧ (s.loop.reply = some r ∨ .response r ∈ s.out)

theorem lookup_none_of_effect (ht : Table s) {i : Option ℕ} (he : Effect s i s') {st : Text}
    (ho : ∃ id, (id,st) ∈ s.opened) (h : s.streams.lookup st = none) :
    s'.streams.lookup st = none := by
  obtain ⟨id',ho⟩ := ho
  cases he with
  | opened hl =>
    simp only [addStream,HashMap.lookup_insert_ite]
    rw [if_neg]
    · exact h
    · rintro rfl
      obtain ⟨i,hi⟩ := List.mem_iff_getElem?.mp ho
      exact ht.fresh hi
  | removed | dropped =>
    simp only [HashMap.lookup_erase_ite]
    split
    · rfl
    · exact h
  | marked hq hs =>
    simp only [HashMap.lookup_insert_ite]
    rw [if_neg]
    · exact h
    · rintro rfl
      rw [h] at hs
      cases hs
  | closedAll => rfl
  | _ => exact h

theorem Once.mem_of_handled (h : Once s) {id : Json F} (hn : id ≠ .null) (hh : s.Handled id) :
    id ∈ s.ids := by
  obtain ⟨r,rfl,hr | hr⟩ := hh
  · have hw : s.loop.work = some r.id := by
      cases hl : s.loop <;> simp_all [Loop.reply,Loop.work]
    exact (h.work _ hn hw).1
  · exact (h.out r hr hn).1

theorem handled_of_effect {i : Option ℕ} (he : Effect s i s') {id : Json F} (hn : id ≠ .null)
    (h : s'.Handled id) : s.Handled id ∨ s.loop.work = some id ∧ s.loop.reply = none ∧ i = none := by
  obtain ⟨r,rfl,hr⟩ := h
  have hgo : ∀ {l : Loop F}, s.loop.Continues l → (l.reply = some r ∨ .response r ∈ s.out) →
      s.Handled r.id ∨ s.loop.work = some r.id ∧ s.loop.reply = none := fun {l} hc hr => by
    rcases hr with hr | hr
    · have hw : l.work = some r.id := by
        cases l <;> simp_all [Loop.reply,Loop.work]
      rcases hc _ hw with hnull | ⟨hw,-⟩
      · exact (hn hnull).elim
      · cases hrep : s.loop.reply with
        | none => exact .inr ⟨hw,rfl⟩
        | some r' =>
          refine .inl ⟨r',?_,.inl hrep⟩
          cases hl : s.loop <;> simp_all [Loop.reply,Loop.work]
    · exact .inl ⟨r,rfl,.inr hr⟩
  have hsame : ∀ {l : Loop F}, l.reply = s.loop.reply → (l.reply = some r ∨ .response r ∈ s.out) →
      s.Handled r.id := fun hl hr => ⟨r,rfl,hr.imp hl.symm.trans id⟩
  have hidle : ∀ {l : Loop F}, l.reply = none → (l.reply = some r ∨ .response r ∈ s.out) →
      s.Handled r.id := fun hl hr => ⟨r,rfl,.inr (hr.resolve_left (by simp [hl]))⟩
  cases he with
  | moved hq hl hw => exact (hgo hw hr).imp id (fun h => ⟨h.1,h.2,rfl⟩)
  | removed hq hs hw => exact (hgo hw hr).imp id (fun h => ⟨h.1,h.2,rfl⟩)
  | marked hq hs hread hw => exact (hgo hw hr).imp id (fun h => ⟨h.1,h.2,rfl⟩)
  | spawned hl =>
    refine (hgo ?_ hr).imp id (fun h => ⟨h.1,h.2,rfl⟩)
    exact fun id hid => .inr ⟨by rw [hl]; exact hid,by simp [hl]⟩
  | opened hl =>
    refine (hgo ?_ hr).imp id (fun h => ⟨h.1,h.2,rfl⟩)
    exact fun id hid => .inr ⟨by rw [hl]; exact hid,by simp [hl]⟩
  | closed hl => exact .inl (hsame (by rw [hl]; rfl) hr)
  | asked => exact .inl (hidle rfl hr)
  | closedAll => exact .inl (hidle rfl hr)
  | closedNext => exact .inl (hidle rfl hr)
  | ended => exact .inl (hidle rfl hr)
  | @responded resp hl hb =>
    refine .inl ⟨r,rfl,?_⟩
    rcases hr with hr | hr
    · cases hr
    · rcases List.mem_append.mp hr with hr | hr
      · exact .inr hr
      · cases List.mem_singleton.mp hr
        exact .inl (by rw [hl]; rfl)
  | broke => exact .inl ⟨r,rfl,hr⟩
  | pumped => exact .inl ⟨r,rfl,hr⟩
  | dropped => exact .inl ⟨r,rfl,hr⟩
  | closedPump => exact .inl ⟨r,rfl,hr⟩
  | emitted => exact .inl ⟨r,rfl,hr.imp id (fun hr => by simpa using hr)⟩

theorem lookup_none_of_close {req : RpcRequest F} {other : Except RpcFault (Json F)} {st : Text}
    (hm : req.method = "proxy.close".toList) (hst : req.requireString "stream_id" = some st) :
    (s.handleRequest trunc req other).streams.lookup st = none := by
  have hclose : s.handleRequest trunc req other = s.handleProxyClose req := by
    simp [handleRequest,hm]
  rw [hclose,handleProxyClose,hst]
  split
  · cases ‹_›
  · rename_i stream heq
    cases heq
    split
    · assumption
    · simp only [HashMap.lookup_erase_ite,if_true]

/-- When a request to close a stream is answered the stream is gone. -/
theorem shut_of_step (ha : Asked s) (ht : Table s) {a : Act F} {id : Json F} {st : Text}
    (hn : id ≠ .null) (ho : ∃ id, (id,st) ∈ s.opened)
    (hreq : ∀ req ∈ s.requests, req.id = id →
      req.method = "proxy.close".toList ∧ req.requireString "stream_id" = some st)
    (h : s.Handled id → s.streams.lookup st = none) (hs : step trunc s a = some s')
    (hh : s'.Handled id) : s'.streams.lookup st = none := by
  have he := effect_of_step hs
  rcases handled_of_effect he hn hh with hh | ⟨hw,hrep,hpump⟩
  · exact lookup_none_of_effect ht he ho (h hh)
  have hat := ha.loop
  cases hl : s.loop with
  | handling req =>
    cases hl ▸ hw
    obtain ⟨hm,hst⟩ := hreq req (by rw [hl] at hat; exact hat) rfl
    simp only [step,hpump] at hs
    cases a with
    | handle other =>
      simp only [stepLoop,hl] at hs
      cases hs
      exact lookup_none_of_close hm hst
    | breakOutput =>
      cases hs
      obtain ⟨r,hid,hr⟩ := hh
      exact lookup_none_of_effect ht he ho (h ⟨r,hid,hr⟩)
    | _ => simp [stepLoop,hl] at hs
  | dialing id' | dialed id' | writing id' =>
    cases hl ▸ hw
    rw [hl] at hat
    obtain ⟨req,hr,rfl,hm⟩ := hat
    exact absurd (hm.symm.trans (hreq req hr rfl).1) (by decide)
  | spawning stream conn r =>
    cases hl ▸ hw
    rw [hl] at hat
    obtain ⟨req,hr,hid,hm,-⟩ := hat
    exact absurd (hm.symm.trans (hreq req hr hid.symm).1) (by decide)
  | closing | responding =>
    rw [hl] at hrep
    cases hrep
  | _ =>
    rw [hl] at hw
    cases hw

end Daemon

end Limux
