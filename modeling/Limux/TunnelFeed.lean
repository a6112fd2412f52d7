import Limux.TunnelTalk

/-! The way of the downloaded bytes: from a pump through stdout, the reader task and the
channel of a connection to its local client. -/
namespace Limux

open Machine

namespace Daemon

variable {F : Type} {trunc : F → Option ℤ} {s s' : Daemon F}

/-- Nothing of a stream comes after its last event. -/
theorem eventsOf_terminal (h : Events s) {stream : Text} {e : RpcEvent} {l m : List RpcEvent}
    (he : eventsOf stream s.out = l ++ e :: m) (ht : e.terminal) : m = [] := by
  have hp : (eventsOf stream s.out).Pairwise (fun e e' => e.terminal → e'.streamId ≠ e.streamId) := by
    refine List.Pairwise.filterMap _ (fun f g hfg e he e' he' => ?_) h.last
    cases f with
    | response r => cases he
    | event e₀ =>
      cases g with
      | response r => cases he'
      | event e₁ =>
        obtain ⟨-,h₀⟩ := Option.ite_none_right_eq_some.mp he
        obtain ⟨-,h₁⟩ := Option.ite_none_right_eq_some.mp he'
        cases h₀
        cases h₁
        exact hfg _ _ rfl rfl
  have hst : ∀ e' ∈ eventsOf stream s.out, e'.streamId = stream := fun e' he' =>
    (mem_eventsOf.mp he').2
  rw [he] at hp hst
  rw [List.eq_nil_iff_forall_not_mem]
  intro e' he'
  have hlast := (List.pairwise_cons.mp (List.pairwise_append.mp hp).2.1).1 e' he' ht
  exact hlast ((hst e' (by simp [he'])).trans (hst e (by simp)).symm)

end Daemon

namespace Tunnel

variable {F : Type} {trunc : F → Option ℤ} {t t' : Tunnel F}

theorem getStr_data (e : RpcEvent) :
    (Frame.event e : Frame F).toJson.getStr "data_base64" =
      if e.dataBase64 = [] then none else some e.dataBase64 := by
  simp only [Frame.toJson,Json.getStr,Json.get,Frame.omitEmpty,List.append_assoc]
  by_cases hd : e.dataBase64 = []
  · rw [if_pos hd,if_pos hd]
    split <;> split <;> rfl
  · rw [if_neg hd,if_neg hd]
    split <;> rfl

/-- The client decodes what the pump encoded. -/
theorem payload_toStream {stream : Text} {e : RpcEvent} (h : e.kind stream) :
    payload (Frame.toStream e : StreamEvent F) = e.bytes := by
  rcases h with ⟨d,rfl⟩ | ⟨error,rfl⟩
  · rw [payload,Frame.toStream,getStr_data,Daemon.bytes_data]
    have hd := Base64.decode_encode true d
    by_cases hn : Base64.encode d = []
    · rw [hn] at hd
      rw [if_pos (show (RpcEvent.data stream d).dataBase64 = [] from hn)]
      exact Option.some.inj hd
    · rw [if_neg (show (RpcEvent.data stream d).dataBase64 ≠ [] from hn)]
      exact congrArg (Option.getD · []) hd
  · rw [payload,Frame.toStream,getStr_data,Daemon.bytes_ending]
    cases error <;> rfl

theorem bytes_of_not_data {e : RpcEvent} (h : e.event ≠ "proxy.stream.data") : e.bytes = [] :=
  if_neg h

/-- Phases in which the channel of a connection is filled and read. -/
def Phase.feeds : Phase → Option Text
  | .subscribing st _ | .replying st | .bridging st _ => some st
  | _ => none

/-- The events that the reader task has seen: consumed ones, whose bytes the client has or
is about to get, and queued ones. -/
def Feed (t : Tunnel F) (st : Text) (x : Connection F) : Prop :=
  ∃ consumed queue, Daemon.eventsOf st (t.daemon.out.take t.read) = consumed ++ queue ∧
    x.channel = queue.map Frame.toStream ∧
    consumed.flatMap RpcEvent.bytes = x.written ++ x.writing ∧
    ∀ e ∈ consumed, e.event ≠ "proxy.stream.eof"

/-- A connection that has not subscribed yet has got nothing. -/
def Connection.Empty (x : Connection F) : Prop := x.channel = [] ∧ x.writing = [] ∧ x.written = []

structure Feeds (t : Tunnel F) : Prop where
  read : t.read ≤ t.daemon.out.length
  feed : ∀ (k : ℕ) (x : Connection F) (st : Text), t.connections[k]? = some x →
    x.phase.feeds = some st → Feed t st x
  empty : ∀ (k : ℕ) (x : Connection F), t.connections[k]? = some x →
    (∃ c, x.phase = .opening c) ∨ (∃ st, x.phase = .opened st) → x.Empty

theorem Phase.kept_of_feeds {p : Phase} {st : Text} (h : p.feeds = some st) : p.kept = some st := by
  cases p <;> simp_all [feeds,kept]

/-- A connection without a subscription has no pump. -/
theorem not_pumped (h : Talk t) (w : Wires t) {k : ℕ} {x : Connection F} {st : Text}
    (hx : t.connections[k]? = some x) (hp : x.phase = .opened st) : st ∉ t.daemon.pumped := by
  intro hm
  obtain ⟨req,hr,hmeth,hst⟩ := h.whole.asked.pumps st hm
  obtain ⟨c,y,hy,rfl⟩ := h.requests req hr
  have hmeth' : y.method = "proxy.stream.subscribe" := String.ext hmeth
  obtain ⟨j,st',z,rfl,hz,hzs,hzn⟩ := w.subscribed c y hy hmeth'
  have he : st' = st := by
    have hs := (Option.filter_eq_some_iff.mp hst).1
    exact Option.some.inj hs
  subst he
  have hj := w.stream_inj h hz hx hzs (by rw [hp]; rfl)
  subst hj
  cases hx.symm.trans hz
  exact hzn hp

namespace Feeds

theorem init : Feeds (Tunnel.init : Tunnel F) := by
  constructor <;> simp [Tunnel.init,Daemon.init]

theorem of_eq (h : Feeds t) {l : List (Frame F)} (hout : t'.daemon.out = t.daemon.out ++ l)
    (hr : t'.read = t.read) (hc : t'.connections = t.connections) : Feeds t' := by
  refine ⟨?_,fun k x st hx hp => ?_,fun k x hx hp => h.empty k x (hc ▸ hx) hp⟩
  · rw [hr,hout,List.length_append]
    exact Nat.le_add_right_of_le h.read
  · have hf := h.feed k x st (hc ▸ hx) hp
    rwa [Feed,hr,hout,List.take_append_of_le_length h.read]

theorem eventsOf_event (st : Text) (e : RpcEvent) :
    Daemon.eventsOf st [(.event e : Frame F)] = if e.streamId = st then [e] else [] := by
  by_cases he : e.streamId = st
  · simp [Daemon.eventsOf,he]
  · simp [Daemon.eventsOf,he]

theorem feed_of_other {st : Text} {x : Connection F} {f : Frame F} (h : Feed t st x)
    (hf : t.daemon.out[t.read]? = some f) (he : Daemon.eventsOf st [f] = [])
    (hout : t'.daemon = t.daemon) (hr : t'.read = t.read+1) : Feed t' st x := by
  rw [Feed,hout,hr,List.take_add_one,hf,Option.toList_some,Daemon.eventsOf_append,he,
    List.append_nil]
  exact h

theorem feed_of_event {st : Text} {x : Connection F} {e : RpcEvent} (h : Feed t st x)
    (hf : t.daemon.out[t.read]? = some (.event e)) (he : e.streamId = st)
    (hout : t'.daemon = t.daemon) (hr : t'.read = t.read+1) :
    Feed t' st { x with channel := x.channel ++ [Frame.toStream e] } := by
  obtain ⟨consumed,queue,hq,hc,hb,hn⟩ := h
  refine ⟨consumed,queue ++ [e],?_,by simp [hc],hb,hn⟩
  rw [hout,hr,List.take_add_one,hf,Option.toList_some,Daemon.eventsOf_append,eventsOf_event,if_pos he,
    hq,List.append_assoc]

theorem connections_deliver (m : Incoming F) {k : ℕ} {x' : Connection F}
    (hx : (t.deliver m).connections[k]? = some x') :
    ∃ x, t.connections[k]? = some x ∧ (x' = x ∨ ∃ e, m = .event e ∧
      t.subscriptions.lookup e.streamId = some k ∧
      x' = { x with channel := x.channel ++ [e] }) := by
  cases m with
  | skip => exact ⟨x',hx,.inl rfl⟩
  | response id r =>
    rw [deliver] at hx
    split at hx
    · exact ⟨x',hx,.inl rfl⟩
    · exact ⟨x',hx,.inl rfl⟩
  | event e =>
    rw [deliver] at hx
    split at hx
    · rename_i j hl
      obtain ⟨x₀,hx₀,⟨rfl,rfl⟩ | ⟨-,rfl⟩⟩ := getElem?_modify_cases hx
      · exact ⟨x₀,hx₀,.inr ⟨e,rfl,hl,rfl⟩⟩
      · exact ⟨x',hx₀,.inl rfl⟩
    · exact ⟨x',hx,.inl rfl⟩

/-- A subscribed connection gets every event of its stream. -/
theorem deliver_event {k : ℕ} {x x' : Connection F} {e : StreamEvent F}
    (hx : t.connections[k]? = some x) (hl : t.subscriptions.lookup e.streamId = some k)
    (hx' : (t.deliver (.event e)).connections[k]? = some x') :
    x' = { x with channel := x.channel ++ [e] } := by
  simp only [deliver,hl,List.getElem?_modify,hx] at hx'
  simpa using hx'.symm

theorem daemon_deliver (m : Incoming F) : (t.deliver m).daemon = t.daemon := by
  cases m with
  | skip => rfl
  | response id r =>
    rw [deliver]
    split <;> rfl
  | event e =>
    rw [deliver]
    split <;> rfl

theorem route (h : Feeds t) (ht : Talk t) (w : Wires t) {f : Frame F}
    (hf : t.daemon.out[t.read]? = some f) :
    Feeds { t.deliver (Incoming.ofObject f.toJson) with read := t.read+1 } := by
  have hd := daemon_deliver (t := t) (Incoming.ofObject f.toJson)
  have hev : ∀ {e : StreamEvent F}, Incoming.ofObject f.toJson = .event e →
      ∃ e₀, f = .event e₀ ∧ e = Frame.toStream e₀ := by
    intro e he
    rcases ht.incoming (List.mem_of_getElem? hf) with ⟨e₀,rfl,he₀⟩ | he₀ | ⟨c,y,r,-,he₀,-⟩
    · rw [he₀] at he
      cases he
      exact ⟨e₀,rfl,rfl⟩
    · rw [he₀] at he
      cases he
    · rw [he₀] at he
      cases he
  refine ⟨?_,fun k x' st hx' hp => ?_,fun k x' hx' hp => ?_⟩
  · rw [hd]
    exact (List.getElem?_eq_some_iff.mp hf).1
  · obtain ⟨x,hx,hc⟩ := connections_deliver _ hx'
    have hph : x'.phase = x.phase := by
      rcases hc with rfl | ⟨e,-,-,rfl⟩ <;> rfl
    have hp' : x.phase.feeds = some st := hph ▸ hp
    have hk := w.kept k x st hx (Phase.kept_of_feeds hp')
    have hfeed := h.feed k x st hx hp'
    by_cases hst : ∃ e, f = .event e ∧ e.streamId = st
    · obtain ⟨e,rfl,rfl⟩ := hst
      rw [Frame.incoming_event] at hx'
      rw [deliver_event hx hk hx']
      exact feed_of_event hfeed hf rfl hd rfl
    · have hno : Daemon.eventsOf st [f] = [] := by
        cases f with
        | response r => rfl
        | event e => rw [eventsOf_event,if_neg (fun he => hst ⟨e,rfl,he⟩)]
      rcases hc with rfl | ⟨e,he,hl,rfl⟩
      · exact feed_of_other hfeed hf hno hd rfl
      · obtain ⟨e₀,rfl,rfl⟩ := hev he
        obtain ⟨z,hz,hzs,-⟩ := w.subs _ _ hl
        cases hx.symm.trans hz
        have hxs := (Phase.stream_of_kept (Phase.kept_of_feeds hp')).1
        exact (hst ⟨e₀,rfl,Option.some.inj (hzs.symm.trans hxs)⟩).elim
  · obtain ⟨x,hx,rfl | ⟨e,-,hl,rfl⟩⟩ := connections_deliver _ hx'
    · exact h.empty k x' hx hp
    · obtain ⟨z,hz,hzs,hzn⟩ := w.subs _ _ hl
      cases hx.symm.trans hz
      rcases hp with ⟨c,hp⟩ | ⟨st,hp⟩
      · change x.phase = _ at hp
        rw [hp] at hzs
        cases hzs
      · change x.phase = _ at hp
        rw [hp] at hzs
        cases hzs
        exact (hzn hp).elim

theorem feed_of_turn {k : ℕ} {x x' : Connection F} {a : Act F} {y : Option (Call F)}
    {subs : HashMap Text ℕ} (h : Feeds t) (ht : Talk t) (w : Wires t)
    (hx : t.connections[k]? = some x) (hturn : Turn t k x a y subs x') {st : Text}
    (hp : x'.phase.feeds = some st) : Feed t st x' := by
  have hsame : ∀ {u : Option CallIx}, x.phase = .bridging st u → Feed t st x := fun hp =>
    h.feed k x st hx (by rw [hp]; rfl)
  have hkind : ∀ {e : RpcEvent} {l m : List RpcEvent},
      Daemon.eventsOf st (t.daemon.out.take t.read) = l ++ e :: m → e.kind e.streamId := by
    intro e l m he
    have hm : e ∈ Daemon.eventsOf st (t.daemon.out.take t.read) := by simp [he]
    exact ht.whole.events.kind e (List.mem_of_mem_take (Daemon.mem_eventsOf.mp hm).1)
  cases hturn with
  | opened hq | notOpened hq | refused hq | unreplied hq | close hq | closed hq | unsubscribed hq =>
    cases hp
  | subscribe hq =>
    cases hp
    obtain ⟨hc,hw,hwr⟩ := h.empty k x hx (.inr ⟨st,hq⟩)
    have hno := Daemon.eventsOf_eq_nil ht.whole.events (not_pumped ht w hx hq)
    refine ⟨[],[],?_,hc,by simp [hw,hwr],by simp⟩
    rw [← List.take_append_drop t.read t.daemon.out,Daemon.eventsOf_append] at hno
    exact (List.append_eq_nil_iff.mp hno).1
  | subscribed hq | replied hq =>
    cases hp
    exact h.feed k x st hx (by rw [hq]; rfl)
  | upload hq | uploaded hq =>
    cases hp
    exact hsame hq
  | @chunk stream u e es hq hw hc he =>
    rw [hq] at hp
    cases hp
    obtain ⟨consumed,queue,hev,hch,hb,hn⟩ := hsame hq
    rw [hc] at hch
    cases queue with
    | nil => cases hch
    | cons e₀ queue =>
      cases hch
      refine ⟨consumed ++ [e₀],queue,by rw [hev,List.append_assoc]; rfl,rfl,?_,fun e' he' => ?_⟩
      · rw [List.flatMap_append,hb,hw,List.append_nil,List.flatMap_singleton,
          payload_toStream (hkind hev)]
      · rcases List.mem_append.mp he' with he' | he'
        · exact hn e' he'
        · cases List.mem_singleton.mp he'
          have hdata : e₀.event = "proxy.stream.data" := String.ext he
          rw [hdata]
          decide
  | @ignored stream u e es hq hw hc hd heof hcl =>
    rw [hq] at hp
    cases hp
    obtain ⟨consumed,queue,hev,hch,hb,hn⟩ := hsame hq
    rw [hc] at hch
    cases queue with
    | nil => cases hch
    | cons e₀ queue =>
      cases hch
      refine ⟨consumed ++ [e₀],queue,by rw [hev,List.append_assoc]; rfl,rfl,?_,fun e' he' => ?_⟩
      · have hdata : e₀.event ≠ "proxy.stream.data" := fun he => hd (congrArg String.toList he)
        rw [List.flatMap_append,hb,List.flatMap_singleton,bytes_of_not_data hdata,List.append_nil]
      · rcases List.mem_append.mp he' with he' | he'
        · exact hn e' he'
        · cases List.mem_singleton.mp he'
          exact fun he => heof (congrArg String.toList he)
  | @download stream u n hq =>
    rw [hq] at hp
    cases hp
    obtain ⟨consumed,queue,hev,hch,hb,hn⟩ := hsame hq
    exact ⟨consumed,queue,hev,hch,by rw [hb,List.append_assoc,List.take_append_drop],hn⟩

theorem turn {k : ℕ} {x x' : Connection F} {a : Act F} {y : Option (Call F)}
    {subs : HashMap Text ℕ} (h : Feeds t) (ht : Talk t) (w : Wires t)
    (hx : t.connections[k]? = some x) (hturn : Turn t k x a y subs x') :
    Feeds (t.turn k y subs x') := by
  have hd : (t.place y).daemon = t.daemon := daemon_place t y
  have hr : (t.place y).read = t.read := by cases y <;> rfl
  refine ⟨?_,fun j z st hz hp => ?_,fun j z hz hp => ?_⟩
  · change (t.place y).read ≤ (t.place y).daemon.out.length
    rw [hd,hr]
    exact h.read
  · have hf : Feed t st z := by
      rcases getElem?_set_cases hz with ⟨rfl,rfl⟩ | ⟨-,hz⟩
      · exact h.feed_of_turn ht w hx hturn hp
      · exact h.feed j z st hz hp
    change Feed { t.place y with connections := _, subscriptions := _ } st z
    simpa only [Feed,hd,hr] using hf
  · rcases getElem?_set_cases hz with ⟨rfl,rfl⟩ | ⟨-,hz⟩
    · cases hturn with
      | opened hq => exact h.empty _ x hx (.inl ⟨_,hq⟩)
      | chunk hq | ignored hq | download hq => simp [hq] at hp
      | _ => simp at hp
    · exact h.empty j z hz hp

theorem step (h : Feeds t) (ht : Talk t) (w : Wires t) {a : Act F} (hs : Step trunc t a t') :
    Feeds t' := by
  have hnil : t.daemon.out = t.daemon.out ++ [] := (List.append_nil _).symm
  cases hs with
  | serve ha hc hx hd =>
    obtain ⟨l,hl⟩ := Daemon.out_of_step hd
    exact h.of_eq hl rfl rfl
  | lose hc hd =>
    obtain ⟨l,hl⟩ := Daemon.out_of_step hd
    exact h.of_eq hl rfl rfl
  | daemon ho hd =>
    obtain ⟨l,hl⟩ := Daemon.out_of_step hd
    exact h.of_eq hl rfl rfl
  | connect host port =>
    refine ⟨h.read,fun j z st hz hp => ?_,fun j z hz hp => ?_⟩
    · rcases getElem?_append_one hz with hz | ⟨rfl,rfl⟩
      · exact h.feed j z st hz hp
      · cases hp
    · rcases getElem?_append_one hz with hz | ⟨rfl,rfl⟩
      · exact h.empty j z hz hp
      · exact ⟨rfl,rfl,rfl⟩
  | foreign | send | sendFailed | timeout | die | eof => exact h.of_eq hnil rfl rfl
  | turn ha hx hturn => exact h.turn ht w hx hturn
  | route hst hf => exact h.route ht w hf

/-- The end of a stream does not get lost before the bridge sees it. -/
theorem eof_on_its_way (h : Feeds t) {k : ℕ} {x : Connection F} {st : Text}
    (hx : t.connections[k]? = some x) (hf : x.phase.feeds = some st)
    (heof : .event (.eof st) ∈ t.daemon.out) :
    Frame.toStream (.eof st) ∈ x.channel ∨ .event (.eof st) ∈ t.daemon.out.drop t.read := by
  obtain ⟨consumed,queue,hev,hch,-,hn⟩ := h.feed k x st hx hf
  have hm : RpcEvent.eof st ∈ Daemon.eventsOf st t.daemon.out :=
    Daemon.mem_eventsOf.mpr ⟨heof,rfl⟩
  rw [← List.take_append_drop t.read t.daemon.out,Daemon.eventsOf_append,hev,List.append_assoc,
    List.mem_append,List.mem_append] at hm
  rcases hm with hm | hm | hm
  · exact (hn _ hm rfl).elim
  · rw [hch]
    exact .inl (List.mem_map_of_mem hm)
  · exact .inr (Daemon.mem_eventsOf.mp hm).1

end Feeds

end Tunnel

end Limux
