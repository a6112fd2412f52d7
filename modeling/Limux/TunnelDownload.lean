import Limux.TunnelFeed

/-! Downloads: what the local client of a bridged connection gets. -/
namespace Limux

open Machine

namespace Tunnel

variable {F : Type} {trunc : F → Option ℤ} {t t' : Tunnel F}

/-- The connection got as far as the bridge of its stream. -/
def Connection.bridged (x : Connection F) (st : Text) : Prop :=
  match x.phase with
  | .bridging s _ | .closing s _ | .unsubscribing s => s = st
  | .returned (some s) => s = st ∧ x.replyOk = some true
  | _ => False

def Phase.early : Phase → Bool
  | .opening _ | .opened _ | .subscribing _ _ | .replying _ => true
  | _ => false

/-- Phases after an answer to `proxy.stream.subscribe`, with the subscription in use. -/
def Phase.served : Phase → Option Text
  | .replying st | .bridging st _ => some st
  | _ => none

structure Bridges (t : Tunnel F) : Prop where
  early : ∀ (k : ℕ) (x : Connection F), t.connections[k]? = some x → x.phase.early →
    x.replyOk = none
  pumped : ∀ (k : ℕ) (x : Connection F) (st : Text), t.connections[k]? = some x →
    x.phase.served = some st → st ∈ t.daemon.pumped

namespace Bridges

theorem init : Bridges (Tunnel.init : Tunnel F) := by
  constructor <;> simp [Tunnel.init]

theorem of_eq (h : Bridges t) (hp : t.daemon.pumped ⊆ t'.daemon.pumped)
    (hc : t'.connections = t.connections) : Bridges t' :=
  ⟨fun k x hx => h.early k x (hc ▸ hx),fun k x st hx hs => hp (h.pumped k x st (hc ▸ hx) hs)⟩

theorem turn {k : ℕ} {x x' : Connection F} {a : Act F} {y : Option (Call F)}
    {subs : HashMap Text ℕ} (h : Bridges t) (ht : Talk t) (w : Wires t)
    (hx : t.connections[k]? = some x) (hturn : Turn t k x a y subs x') :
    Bridges (t.turn k y subs x') := by
  refine ⟨fun j z hz hp => ?_,fun j z st hz hp => ?_⟩
  · rcases getElem?_set_cases hz with ⟨rfl,rfl⟩ | ⟨-,hz⟩
    · cases hturn with
      | opened hq | subscribe hq | subscribed hq => exact h.early _ x hx (by rw [hq]; rfl)
      | chunk hq | ignored hq | download hq => simp [hq,Phase.early] at hp
      | _ => cases hp
    · exact h.early j z hz hp
  · change st ∈ (t.place y).daemon.pumped
    rw [daemon_place]
    rcases getElem?_set_cases hz with ⟨rfl,rfl⟩ | ⟨-,hz⟩
    · cases hturn with
      | @subscribed stream c v hq hr =>
        cases hp
        obtain ⟨z,hz,hg⟩ := ht.replies c v hr
        cases (w.subscribing _ x st c hx hq).symm.trans hz
        obtain ⟨stream,hm,hs⟩ := hg.2 (by simp [Call.request,subscribeCall])
        have he : st = stream := by
          have hs' := (Option.filter_eq_some_iff.mp hs).1
          exact Option.some.inj hs'
        exact he ▸ hm
      | replied hq | upload hq | uploaded hq =>
        cases hp
        exact h.pumped _ x st hx (by rw [hq]; rfl)
      | chunk | ignored | download => exact h.pumped _ x st hx hp
      | _ => cases hp
    · exact h.pumped j z st hz hp

theorem step (h : Bridges t) (ht : Talk t) (w : Wires t) {a : Act F} (hs : Step trunc t a t') :
    Bridges t' := by
  cases hs with
  | serve ha hc hx hd => exact h.of_eq (Daemon.grows_of_step hd).pumped rfl
  | lose hc hd => exact h.of_eq (Daemon.grows_of_step hd).pumped rfl
  | daemon ho hd => exact h.of_eq (Daemon.grows_of_step hd).pumped rfl
  | foreign | send | sendFailed | timeout | die | eof => exact h.of_eq (fun _ h => h) rfl
  | turn ha hx hturn => exact h.turn ht w hx hturn
  | connect host port =>
    refine ⟨fun j z hz hp => ?_,fun j z st hz hp => ?_⟩
    · rcases getElem?_append_one hz with hz | ⟨rfl,rfl⟩
      · exact h.early j z hz hp
      · rfl
    · rcases getElem?_append_one hz with hz | ⟨rfl,rfl⟩
      · exact h.pumped j z st hz hp
      · cases hp
  | @route f hst hf =>
    refine ⟨fun j z hz hp => ?_,fun j z st hz hp => ?_⟩
    · obtain ⟨x,hx,rfl | ⟨e,-,-,rfl⟩⟩ := Feeds.connections_deliver _ hz
      · exact h.early j z hx hp
      · exact h.early j x hx hp
    · change st ∈ (t.deliver (Incoming.ofObject f.toJson)).daemon.pumped
      rw [Feeds.daemon_deliver]
      obtain ⟨x,hx,rfl | ⟨e,-,-,rfl⟩⟩ := Feeds.connections_deliver _ hz
      · exact h.pumped j z st hx hp
      · exact h.pumped j x st hx hp

end Bridges

/-- All invariants of the tunnel. -/
structure Sane (t : Tunnel F) : Prop where
  talk : Talk t
  wires : Wires t
  feeds : Feeds t
  bridges : Bridges t

theorem sane_init : Sane (init : Tunnel F) := ⟨.init,.init,.init,.init⟩

theorem Sane.step (h : Sane t) {a : Act F} (hs : step trunc t a = some t') : Sane t' := by
  have hs' := step_sound hs
  exact ⟨h.talk.step hs',h.wires.step h.talk hs',h.feeds.step h.talk h.wires hs',
    h.bridges.step h.talk h.wires hs'⟩

/-- The ssh connection is there and takes what the daemon writes. -/
def Up (t : Tunnel F) : Prop := t.alive = true ∧ t.daemon.broken = false

theorem Up.step (h : Up t) {a : Act F} (ha : a ≠ .die) (hs : Step trunc t a t') : Up t' := by
  obtain ⟨hal,hb⟩ := h
  have hdaemon : ∀ {b : Daemon.Act F} {d : Daemon F}, Daemon.step trunc t.daemon b = some d →
      b ≠ .breakOutput → (∀ req, b ≠ .request req) → d.broken = false := by
    intro b d hd hne hreq
    rw [(Daemon.inputs_of_step hd hreq).2 hne,hb]
  cases hs with
  | @serve c x d hal' hc hx hd =>
    refine ⟨hal,?_⟩
    simp only [Daemon.step,Daemon.Act.pump,Daemon.stepLoop] at hd
    split at hd
    · cases hd
      exact hb
    · cases hd
  | lose hc hd => exact ⟨hal,hdaemon hd (by simp) (by simp)⟩
  | @daemon b d ho hd =>
    refine ⟨hal,hdaemon hd ?_ ?_⟩
    · rintro rfl
      simp [ownStep,hal] at ho
    · rintro req rfl
      cases ho
  | @turn a k x x' y subs ha' hx ht =>
    refine ⟨?_,?_⟩
    · cases y <;> exact hal
    · change (t.place y).daemon.broken = false
      rw [daemon_place,hb]
  | @route f hst hf =>
    refine ⟨?_,?_⟩
    · change (t.deliver (Incoming.ofObject f.toJson)).alive = true
      cases Incoming.ofObject f.toJson with
      | skip => exact hal
      | response | event =>
        rw [deliver]
        split <;> exact hal
    · change (t.deliver (Incoming.ofObject f.toJson)).daemon.broken = false
      rw [Feeds.daemon_deliver,hb]
  | die => exact (ha rfl).elim
  | connect | foreign | send | sendFailed | timeout | eof => exact ⟨hal,hb⟩

/-- A `proxy.write` of the connection has failed. -/
def uploadFails (t : Tunnel F) (k : ℕ) : Bool :=
  match t.connections[k]? with
  | some x =>
    match x.phase with
    | .bridging _ (some c) => (t.replies c).any (fun r => r matches .error _)
    | _ => false
  | none => false

/-- The local client of the connection keeps its side open and takes what it gets. -/
def localOpen (k : ℕ) (_ : Tunnel F) : Act F → Bool
  | .localEnd j | .downloadFailed j => j ≠ k
  | _ => true

/-- Moreover no `proxy.write` of the connection fails and ssh stays up. -/
def undisturbed (k : ℕ) (t : Tunnel F) : Act F → Bool
  | .localEnd j | .downloadFailed j => j ≠ k
  | .resume j => j ≠ k || !t.uploadFails k
  | .die => false
  | _ => true

def Delivered (t : Tunnel F) (st : Text) (x : Connection F) : Prop :=
  ∃ e, .event e ∈ t.daemon.out ∧ e.streamId = st ∧ e.terminal ∧
    x.written = (Daemon.eventsOf st t.daemon.out).flatMap RpcEvent.bytes

theorem Delivered.mono (h : Daemon.Events t'.daemon) {st : Text} {x : Connection F}
    (hd : Delivered t st x) {l : List (Frame F)} (hl : t'.daemon.out = t.daemon.out ++ l) :
    Delivered t' st x := by
  obtain ⟨e,he,hst,ht,hw⟩ := hd
  obtain ⟨m,n,hmn⟩ := List.append_of_mem (Daemon.mem_eventsOf.mpr ⟨he,hst⟩)
  have hall : Daemon.eventsOf st t'.daemon.out = m ++ e :: (n ++ Daemon.eventsOf st l) := by
    rw [hl,Daemon.eventsOf_append,hmn,List.append_assoc,List.cons_append]
  have hnil := Daemon.eventsOf_terminal h hall ht
  refine ⟨e,?_,hst,ht,?_⟩
  · rw [hl]
    exact List.mem_append_left _ he
  · rw [hl,Daemon.eventsOf_append,(List.append_eq_nil_iff.mp hnil).2,List.append_nil,hw]

/-- The bridge ends by the last event of its stream. -/
theorem delivered_of_end (h : Sane t) {k : ℕ} {x : Connection F} {st : Text} {e : StreamEvent F}
    {es : List (StreamEvent F)} {u : Option CallIx} (hx : t.connections[k]? = some x)
    (hp : x.phase = .bridging st u) (hw : x.writing = []) (hc : x.channel = e :: es)
    (hd : e.event ≠ "proxy.stream.data".toList) {x' : Connection F}
    (hx' : x'.written = x.written) : Delivered t st x' := by
  obtain ⟨consumed,queue,hev,hch,hb,-⟩ := h.feeds.feed k x st hx (by rw [hp]; rfl)
  rw [hc] at hch
  cases queue with
  | nil => cases hch
  | cons e₀ queue =>
    cases hch
    have hm : e₀ ∈ Daemon.eventsOf st (t.daemon.out.take t.read) := by simp [hev]
    obtain ⟨hm,hst⟩ := Daemon.mem_eventsOf.mp hm
    have hout : .event e₀ ∈ t.daemon.out := List.mem_of_mem_take hm
    have ht : e₀.terminal := by
      rcases h.talk.whole.events.kind e₀ hout with ⟨d,he⟩ | ⟨error,he⟩
      · rw [he] at hd
        exact (hd (by simp [Frame.toStream,RpcEvent.data])).elim
      · rw [he]
        cases error with
        | none => exact .inl rfl
        | some m => exact .inr rfl
    have hall : Daemon.eventsOf st t.daemon.out =
        consumed ++ e₀ :: (queue ++ Daemon.eventsOf st (t.daemon.out.drop t.read)) := by
      conv_lhs => rw [← List.take_append_drop t.read t.daemon.out]
      rw [Daemon.eventsOf_append,hev,List.append_assoc,List.cons_append]
    have hnil := Daemon.eventsOf_terminal h.talk.whole.events hall ht
    have hbytes : e₀.bytes = [] := bytes_of_not_data (fun he => hd (congrArg String.toList he))
    refine ⟨e₀,hout,hst,ht,?_⟩
    rw [hall,hnil,List.flatMap_append,hb,hw,List.append_nil,List.flatMap_singleton,hbytes,
      List.append_nil,hx']

/-- A bridge that is over has delivered everything. -/
def Delivers (k : ℕ) (t : Tunnel F) : Prop :=
  ∀ (x : Connection F) (st : Text), t.connections[k]? = some x → x.bridged st →
    x.phase.feeds = none → Delivered t st x

theorem bridged_of_phase {x x' : Connection F} {st : Text} (hp : x'.phase = x.phase)
    (hr : x'.replyOk = x.replyOk) : x'.bridged st ↔ x.bridged st := by
  rw [Connection.bridged,Connection.bridged,hp,hr]

theorem Delivers.turn {k j : ℕ} (hdel : Delivers k t) (h : Sane t) {a : Act F}
    (ha : undisturbed k t a = true) (haj : a.connection = some j) {x x' : Connection F}
    {y : Option (Call F)} {subs : HashMap Text ℕ} (hx : t.connections[j]? = some x)
    (hturn : Turn t j x a y subs x') : Delivers k (t.turn j y subs x') := by
  have hout : ∀ {z : Connection F} {st : Text}, Delivered t st z →
      Delivered (t.turn j y subs x') st z := fun hd => by
    change Delivered { t.place y with connections := _, subscriptions := _ } _ _
    simpa only [Delivered,daemon_place] using hd
  intro z st hz hb hp
  refine hout ?_
  rcases getElem?_set_cases hz with ⟨rfl,rfl⟩ | ⟨-,hz⟩
  · cases hturn with
    | opened | notOpened | subscribe | subscribed => cases hb
    | replied | upload | uploaded => cases hp
    | @refused stream c e hq hr =>
      have hearly := h.bridges.early _ x hx (by rw [hq]; rfl)
      have hb' := hb.2
      rw [hearly] at hb'
      cases hb'
    | unreplied hq => cases hb.2
    | chunk hq | ignored hq | download hq => simp [hq,Phase.feeds] at hp
    | closed hq | unsubscribed hq =>
      have hb' : x.bridged st := by
        rw [Connection.bridged,hq]
        first | exact hb | exact hb.1
      exact hdel x st hx hb' (by rw [hq]; rfl)
    | @close a stream es he =>
      have hst : stream = st := hb
      subst hst
      cases he with
      | @uploadFailed c e hq hr =>
        simp [undisturbed,uploadFails,hx,hq,hr] at ha
      | localEnd hq => simp [undisturbed] at ha
      | downloadFailed hq hw => simp [undisturbed] at ha
      | @ended u e es hq hw hc hd he =>
        exact delivered_of_end h hx hq hw hc hd rfl
      | channelClosed hq hw hc hs =>
        exact (hs (h.wires.kept _ x stream hx (by rw [hq]; rfl))).elim
  · exact hdel z st hz hb hp

theorem Delivers.step {k : ℕ} (hdel : Delivers k t) (h : Sane t) (h' : Sane t') {a : Act F}
    (ha : undisturbed k t a = true) (hs : Step trunc t a t') : Delivers k t' := by
  have hdaemon : ∀ {b : Daemon.Act F}, Daemon.step trunc t.daemon b = some t'.daemon →
      t'.connections = t.connections → Delivers k t' := by
    intro b hd hc x st hx hb hp
    obtain ⟨l,hl⟩ := Daemon.out_of_step hd
    exact (hdel x st (hc ▸ hx) hb hp).mono h'.talk.whole.events hl
  cases hs with
  | serve hal hc hx hd => exact hdaemon hd rfl
  | lose hc hd => exact hdaemon hd rfl
  | daemon ho hd => exact hdaemon hd rfl
  | foreign | send | sendFailed | timeout | die | eof => exact hdel
  | turn haj hx hturn => exact hdel.turn h ha haj hx hturn
  | connect host port =>
    intro z st hz hb hp
    rcases getElem?_append_one hz with hz | ⟨-,rfl⟩
    · exact hdel z st hz hb hp
    · cases hb
  | @route f hst hf =>
    intro z st hz hb hp
    have hd := Feeds.daemon_deliver (t := t) (Incoming.ofObject f.toJson)
    have hz' : Delivered t st z := by
      obtain ⟨x,hx,rfl | ⟨e,-,-,rfl⟩⟩ := Feeds.connections_deliver _ hz
      · exact hdel z st hx hb hp
      · exact hdel x st hx ((bridged_of_phase rfl rfl).mp hb) hp
    obtain ⟨e,he,hrest⟩ := hz'
    refine ⟨e,?_,?_⟩
    · change .event e ∈ (t.deliver (Incoming.ofObject f.toJson)).daemon.out
      rwa [hd]
    · change _ ∧ _ ∧ z.written = (Daemon.eventsOf st
        (t.deliver (Incoming.ofObject f.toJson)).daemon.out).flatMap RpcEvent.bytes
      rwa [hd]

theorem bytes_of_queue (h : Sane t) {st : Text} {consumed queue : List RpcEvent}
    (hev : Daemon.eventsOf st (t.daemon.out.take t.read) = consumed ++ queue) :
    (queue.map (Frame.toStream (F := F))).flatMap payload = queue.flatMap RpcEvent.bytes := by
  rw [List.flatMap_map]
  refine List.flatMap_congr (fun e he => ?_)
  have hm : e ∈ Daemon.eventsOf st (t.daemon.out.take t.read) := by simp [hev,he]
  have hk : e.kind e.streamId :=
    h.talk.whole.events.kind e (List.mem_of_mem_take (Daemon.mem_eventsOf.mp hm).1)
  exact payload_toStream hk

/-- A connection whose client keeps its side open, with no failed upload and a live ssh:
all that the pump of its stream has read is on its way in order, the end of the stream
included; when the bridge is over the client has got it all. -/
theorem downloads_complete {k : ℕ}
    (h : Reach (step trunc) (fun t a => undisturbed k t a = true) init t) {x : Connection F}
    {st : Text} (hx : t.connections[k]? = some x) (hb : x.bridged st) :
    ∃ p ∈ t.daemon.pumps, p.stream = st ∧
      (x.phase.feeds = some st →
        p.received = x.written ++ x.writing ++ x.channel.flatMap payload ++
          (Daemon.eventsOf st (t.daemon.out.drop t.read)).flatMap RpcEvent.bytes ++
          p.phase.pending ∧
        (.event (.eof st) ∈ t.daemon.out → Frame.toStream (.eof st) ∈ x.channel ∨
          .event (.eof st) ∈ t.daemon.out.drop t.read)) ∧
      (x.phase.feeds = none → p.phase.over ∧ x.written = p.received) := by
  have hinv : Sane t ∧ Up t ∧ Delivers k t := by
    refine Reach.inv (P := fun t => Sane t ∧ Up t ∧ Delivers k t) h
      ⟨sane_init,⟨rfl,rfl⟩,by simp [Delivers,init]⟩ ?_
    rintro t a t' ⟨hs,hu,hd⟩ ha hst
    have hstep := step_sound hst
    have hne : a ≠ .die := by
      rintro rfl
      cases ha
    exact ⟨hs.step hst,hu.step hne hstep,hd.step hs (hs.step hst) ha hstep⟩
  obtain ⟨hs,⟨-,hbroken⟩,hdel⟩ := hinv
  have hacc := hs.talk.whole.accounts hbroken
  cases hf : x.phase.feeds with
  | none =>
    obtain ⟨e,he,hst,ht,hw⟩ := hdel x st hx hb hf
    obtain ⟨j,p,hp,hps,ho⟩ := hs.talk.whole.events.pump e he
    have hpst : p.stream = st := hps.trans hst
    refine ⟨p,List.mem_of_getElem? hp,hpst,fun hn => (by cases hn),fun _ => ⟨ho ht,?_⟩⟩
    have hpending : p.phase.pending = [] := by
      have hover := ho ht
      cases hph : p.phase <;> simp_all [Daemon.PumpPhase.over,Daemon.PumpPhase.pending]
    rw [hw,hacc p (List.mem_of_getElem? hp),hpst,hpending,List.append_nil]
  | some st' =>
    have hst : st' = st ∧ x.phase.served = some st := by
      cases hp : x.phase with
      | bridging s u =>
        rw [Connection.bridged,hp] at hb
        rw [hp] at hf
        cases hf
        exact ⟨hb,congrArg some hb⟩
      | subscribing | replying =>
        rw [Connection.bridged,hp] at hb
        exact hb.elim
      | _ =>
        rw [hp] at hf
        cases hf
    obtain ⟨rfl,hserved⟩ := hst
    obtain ⟨p,hp,hps⟩ := List.mem_map.mp (hs.bridges.pumped k x st' hx hserved)
    obtain ⟨consumed,queue,hev,hch,hbytes,-⟩ := hs.feeds.feed k x st' hx hf
    have hall : Daemon.eventsOf st' t.daemon.out =
        consumed ++ queue ++ Daemon.eventsOf st' (t.daemon.out.drop t.read) := by
      rw [← hev,← Daemon.eventsOf_append,List.take_append_drop]
    refine ⟨p,hp,hps,fun _ => ⟨?_,hs.feeds.eof_on_its_way hx hf⟩,fun hn => (by cases hn)⟩
    rw [hacc p hp,hps,hall,List.flatMap_append,List.flatMap_append,hbytes,hch,
      bytes_of_queue hs hev]

def bridge : List (Act ℕ) :=
  [.connect "h".toList 80,.send 0,.serve,.daemon (.handle (.ok .null)),.daemon (.dial none),
    .daemon .register,.daemon .respond,.route,.resume 0,.subscribe 0,.send 1,.serve,
    .daemon (.handle (.ok .null)),.daemon .spawn,.daemon .respond,.route,.resume 0,.reply 0 true]

def download : List (Act ℕ) :=
  bridge ++ [.daemon (.read 0 [104,105] (some .eof)),.daemon (.emit 0),.route,.receive 0,
    .daemon (.terminate 0),.download 0 2,.daemon (.drop 0),.route,.receive 0]

/-- The first connection and what the pumps have read. -/
structure Glance where
  connection : Option (Phase × List UInt8 × Option Bool)
  pumps : List (Text × List UInt8)
  deriving DecidableEq

def glance (t : Tunnel ℕ) : Glance :=
  ⟨t.connections[0]?.map (fun x => (x.phase,x.written,x.replyOk)),
    t.daemon.pumps.map (fun p => (p.stream,p.received))⟩

theorem connection_of_glance {t : Tunnel ℕ} {ph : Phase} {w : List UInt8} {r : Option Bool}
    {l : List (Text × List UInt8)} (h : glance t = ⟨some (ph,w,r),l⟩) :
    ∃ x, t.connections[0]? = some x ∧ x.phase = ph ∧ x.written = w ∧ x.replyOk = r := by
  obtain ⟨x,hx,hxe⟩ := Option.map_eq_some_iff.mp (congrArg Glance.connection h)
  cases hxe
  exact ⟨x,hx,rfl,rfl,rfl⟩

theorem downloads_complete_download :
    ∃ (t : Tunnel ℕ) (x : Connection ℕ),
      Reach (step (fun _ => none)) (fun t a => undisturbed 0 t a = true) init t ∧
      t.connections[0]? = some x ∧ x.written = [104,105] ∧
      ∃ p ∈ t.daemon.pumps, p.stream = "s-1".toList ∧ p.phase.over ∧ x.written = p.received := by
  obtain ⟨t,hr,hg⟩ : ∃ t, Reach (step (fun _ => none)) (fun t a => undisturbed 0 t a = true) init t ∧
      glance t = ⟨some (.closing "s-1".toList 2,[104,105],some true),
        [("s-1".toList,[104,105])]⟩ := reach_of_glance glance download (by decide +kernel)
  obtain ⟨x,hx,hp,hw,-⟩ := connection_of_glance hg
  have hb : x.bridged "s-1".toList := by rw [Connection.bridged,hp]
  obtain ⟨p,hpm,hst,-,hd⟩ := downloads_complete hr hx hb
  exact ⟨t,x,hr,hx,hw,p,hpm,hst,hd (by rw [hp]; rfl)⟩

/-- The remote side has sent two bytes and ended; before they are written the client
sends one more byte, for a stream that is gone. -/
def lateUpload : List (Act ℕ) :=
  bridge ++ [.daemon (.read 0 [104,105] (some .eof)),.daemon (.emit 0),.route,
    .daemon (.terminate 0),.daemon (.drop 0),.daemon (.closePump 0),.upload 0 [1],.send 2,.serve,
    .daemon (.handle (.ok .null)),.daemon .respond,.route,.route,.resume 0,.send 3,.serve,
    .daemon (.handle (.ok .null)),.daemon .respond,.route,.resume 0,.unsubscribe 0]

/-- The failed upload ends the bridge and the download with it. -/
theorem late_upload_truncates :
    ¬ ∀ (t : Tunnel ℕ), Reach (step (fun _ => none)) (fun t a => localOpen 0 t a = true) init t →
      ∀ (x : Connection ℕ) (st : Text), t.connections[0]? = some x → x.bridged st →
        x.phase.feeds = none → ∀ p ∈ t.daemon.pumps, p.stream = st → x.written = p.received := by
  intro h
  obtain ⟨t,hr,hg⟩ : ∃ t, Reach (step (fun _ => none)) (fun t a => localOpen 0 t a = true) init t ∧
      glance t = ⟨some (.returned (some "s-1".toList),[],some true),
        [("s-1".toList,[104,105])]⟩ := reach_of_glance glance lateUpload (by decide +kernel)
  obtain ⟨x,hx,hp,hw,hrep⟩ := connection_of_glance hg
  have hl : t.daemon.pumps.map (fun p => (p.stream,p.received)) = [("s-1".toList,[104,105])] :=
    congrArg Glance.pumps hg
  have hm : ("s-1".toList,[104,105]) ∈ t.daemon.pumps.map (fun p => (p.stream,p.received)) :=
    hl ▸ List.mem_singleton_self _
  obtain ⟨p,hpm,hpe⟩ := List.mem_map.mp hm
  have hb : x.bridged "s-1".toList := by
    rw [Connection.bridged,hp]
    exact ⟨rfl,hrep⟩
  have he := h t hr x _ hx hb (by rw [hp]; rfl) p hpm (congrArg Prod.fst hpe)
  have hpr : p.received = [104,105] := congrArg Prod.snd hpe
  rw [hw,hpr] at he
  cases he

end Tunnel

end Limux
