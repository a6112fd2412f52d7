import Limux.TunnelDownload

/-! Ends of streams: how a bridge learns that its stream is gone. -/
namespace Limux

open Machine

namespace Daemon

variable {F : Type} {trunc : F → Option ℤ} {s s' : Daemon F}

/-- A read that goes on or sees the end of the connection. -/
def endsWell (data : List UInt8) : Option ReadError → Bool
  | none => data ≠ []
  | some .eof => true
  | _ => false

/-- A pump that stops, if it does, with an end event. -/
def Good (s : Daemon F) (p : Pump) : Prop :=
  match p.phase with
  | .reading => True
  | .got data err => endsWell data err = true
  | .ending error => error = none
  | _ => .event (.eof p.stream) ∈ s.out

theorem Good.mono {p : Pump} (h : s.Good p) {l : List (Frame F)} (hl : s'.out = s.out ++ l) :
    s'.Good p := by
  unfold Good at h ⊢
  split
  · trivial
  · simpa [*] using h
  · simpa [*] using h
  · rename_i h₁ h₂ h₃
    rw [hl]
    refine List.mem_append_left _ ?_
    split at h
    · exact (h₁ ‹_›).elim
    · exact (h₂ _ _ ‹_›).elim
    · exact (h₃ _ ‹_›).elim
    · exact h

def spares (s : Daemon F) (st : Text) : Act F → Bool
  | .read j data err => endsWell data err || s.pumps[j]?.all (fun p => p.stream ≠ st)
  | .panic j _ => s.pumps[j]?.all (fun p => p.stream ≠ st)
  | _ => true

theorem pump_of_modify {k : ℕ} {p p' : Pump} {f : Pump → Pump} (hp : s.pumps[k]? = some p)
    (hp' : (s.pumps.modify k f)[k]? = some p') : p' = f p := by
  obtain ⟨x,hx,⟨-,rfl⟩ | ⟨hne,-⟩⟩ := getElem?_modify_cases hp'
  · cases hp.symm.trans hx
    rfl
  · exact (hne rfl).elim

theorem good_of_stepPump {k : ℕ} {p : Pump} {a : Act F} (hp : s.pumps[k]? = some p)
    (hb : s.broken = false) (ha : a.pump = some k) (hsp : s.spares p.stream a = true)
    (hg : s.Good p) (hs : s.stepPump k p a = some s') {p' : Pump}
    (hp' : s'.pumps[k]? = some p') : s'.Good p' := by
  cases a with
  | read j data err =>
    cases ha
    simp only [stepPump] at hs
    split at hs
    · obtain ⟨-,hs⟩ := Option.ite_none_right_eq_some.mp hs
      cases hs
      cases pump_of_modify hp hp'
      change endsWell data err = true
      simpa [spares,hp] using hsp
    · cases hs
  | panic j message =>
    cases ha
    simp [spares,hp] at hsp
  | emit j =>
    cases ha
    simp only [stepPump] at hs
    split at hs
    · rename_i data err hph
      have hw : endsWell data err = true := by simpa [Good,hph] using hg
      cases hs
      have he : p' = { p with phase := afterRead data err } := by
        refine pump_of_modify (f := fun p => { p with phase := afterRead data err }) hp ?_
        rw [← hp']
        unfold writeEvent
        split
        · rfl
        · split <;> rfl
      rw [he]
      cases err with
      | none =>
        have hne : data ≠ [] := by simpa [endsWell] using hw
        simp [Good,afterRead,hne]
      | some e =>
        cases e with
        | eof => simp [Good,afterRead]
        | closed | other => cases hw
    · cases hs
  | terminate j =>
    cases ha
    simp only [stepPump] at hs
    split at hs
    · rename_i error hph
      have he : error = none := by simpa [Good,hph] using hg
      subst he
      cases hs
      simp only [writeEvent,hb,Bool.false_eq_true,if_false] at hp' ⊢
      cases pump_of_modify hp hp'
      simp [Good,setPump,RpcEvent.ending]
    · cases hs
  | drop j =>
    cases ha
    simp only [stepPump] at hs
    split at hs
    · rename_i hph
      have heof : Frame.event (.eof p.stream) ∈ s.out := by simpa [Good,hph] using hg
      cases hs
      unfold dropStream at hp' ⊢
      split at hp'
      · cases pump_of_modify hp hp'
        exact heof
      · cases pump_of_modify hp hp'
        exact heof
    · cases hs
  | closePump j =>
    cases ha
    simp only [stepPump] at hs
    split at hs
    · rename_i conn hph
      have heof : Frame.event (.eof p.stream) ∈ s.out := by simpa [Good,hph] using hg
      cases hs
      cases pump_of_modify hp hp'
      exact heof
    · cases hs
  | _ => cases ha

theorem good_of_step {a : Act F} {st : Text} (hb : s.broken = false)
    (hsp : s.spares st a = true) (hg : ∀ p ∈ s.pumps, p.stream = st → s.Good p)
    (hs : step trunc s a = some s') : ∀ p ∈ s'.pumps, p.stream = st → s'.Good p := by
  intro p' hp' hst
  obtain ⟨l,hl⟩ := out_of_step hs
  obtain ⟨j,hj⟩ := List.mem_iff_getElem?.mp hp'
  unfold step at hs
  split at hs
  · rename_i k hk
    obtain ⟨p,hp,hs⟩ := Option.bind_eq_some_iff.mp hs
    have hp := pump?_eq_some hp
    have he : ∃ f : Pump → Pump, s'.pumps = s.pumps.modify k f ∧ ∀ p, (f p).stream = p.stream := by
      cases effect_of_stepPump hp hs with
      | pumped | emitted | dropped | closedPump => exact ⟨_,rfl,fun _ => rfl⟩
    obtain ⟨f,hf,hfs⟩ := he
    have hj₀ := hj
    rw [hf] at hj₀
    obtain ⟨x,hx,⟨rfl,rfl⟩ | ⟨hne,rfl⟩⟩ := getElem?_modify_cases hj₀
    · cases hp.symm.trans hx
      have hps : p.stream = st := (hfs p).symm.trans hst
      exact good_of_stepPump hp hb hk (hps ▸ hsp) (hg p (List.mem_of_getElem? hp) hps) hs hj
    · exact (hg p' (List.mem_of_getElem? hx) hst).mono hl
  · cases effect_of_stepLoop hs with
    | @spawned stream conn resp hloop =>
      rcases List.mem_append.mp hp' with hp' | hp'
      · exact (hg p' hp' hst).mono hl
      · cases List.mem_singleton.mp hp'
        trivial
    | _ => exact (hg p' hp' hst).mono hl

end Daemon

namespace Tunnel

variable {F : Type} {trunc : F → Option ℤ} {t t' : Tunnel F}

/-- Streams whose connections subscribe or bridge. -/
def awaited (t : Tunnel F) : List Text := t.connections.filterMap (fun x => x.phase.feeds)

/-- No pump of such a stream ends without an end event, and ssh is not lost meanwhile. -/
def endsSeen (t : Tunnel F) : Act F → Bool
  | .daemon a => t.awaited.all (fun st => t.daemon.spares st a)
  | .die => t.awaited = []
  | _ => true

theorem mem_awaited {k : ℕ} {x : Connection F} {st : Text} (hx : t.connections[k]? = some x)
    (hp : x.phase.feeds = some st) : st ∈ t.awaited :=
  List.mem_filterMap.mpr ⟨x,List.mem_of_getElem? hx,hp⟩

/-- A request to subscribe to the stream has reached the daemon. -/
def Subscribed (d : Daemon F) (st : Text) : Prop :=
  ∃ req ∈ d.requests, req.method = "proxy.stream.subscribe".toList ∧
    req.requireString "stream_id" = some st

theorem subscribed_of_pumped (h : Talk t) {st : Text} (hp : st ∈ t.daemon.pumped) :
    Subscribed t.daemon st := h.whole.asked.pumps st hp

/-- Before its connection subscribes nobody has asked for the stream. -/
theorem not_subscribed (h : Talk t) (w : Wires t) {k : ℕ} {x : Connection F} {st : Text}
    (hx : t.connections[k]? = some x) (hp : x.phase = .opened st) : ¬ Subscribed t.daemon st := by
  rintro ⟨req,hr,hmeth,hst⟩
  obtain ⟨c,y,hy,rfl⟩ := h.requests req hr
  have hmeth' : y.method = "proxy.stream.subscribe" := String.ext hmeth
  obtain ⟨j,st',z,rfl,hz,hzs,hzn⟩ := w.subscribed c y hy hmeth'
  have he : st' = st := by
    have hs := (Option.filter_eq_some_iff.mp hst).1
    exact Option.some.inj hs
  subst he
  have hj := w.stream_inj h hz hx hzs (by rw [hp]; rfl)
  subst hj
  cases hx.symm.trans hz
  exact hzn hp

structure Ending (t : Tunnel F) : Prop where
  up : t.alive = true → t.daemon.broken = false ∧ t.stopped = false
  dead : t.alive = false → ∀ (k : ℕ) (x : Connection F) (st : Text), t.connections[k]? = some x →
    x.phase.feeds = some st → ¬ Subscribed t.daemon st
  good : ∀ (k : ℕ) (x : Connection F) (st : Text), t.connections[k]? = some x →
    x.phase.feeds = some st → ∀ p ∈ t.daemon.pumps, p.stream = st → t.daemon.Good p

namespace Ending

theorem init : Ending (Tunnel.init : Tunnel F) := by
  refine ⟨fun _ => ⟨rfl,rfl⟩,?_,?_⟩ <;> simp [Tunnel.init]

theorem daemon (h : Ending t) (ht : Talk t) {a : Daemon.Act F} {d : Daemon F} {n : ℕ}
    (hs : Daemon.step trunc t.daemon a = some d)
    (hb : t.alive = true → d.broken = false)
    (hr : t.alive = false → d.requests = t.daemon.requests)
    (hsp : ∀ st ∈ t.awaited, t.daemon.spares st a = true) :
    Ending { t with daemon := d, served := n } := by
  refine ⟨fun hal => ⟨hb hal,(h.up hal).2⟩,fun hal k x st hx hp hsub => ?_,
    fun k x st hx hp p hpm hst => ?_⟩
  · refine h.dead hal k x st hx hp ?_
    change Subscribed d st at hsub
    rwa [Subscribed,hr hal] at hsub
  · cases hal : t.alive with
    | true =>
      exact Daemon.good_of_step (h.up hal).1 (hsp st (mem_awaited hx hp)) (h.good k x st hx hp) hs
        p hpm hst
    | false =>
      -- no pump: nobody asked for one before the connection was lost
      refine (h.dead hal k x st hx hp ?_).elim
      obtain ⟨req,hreq,hq⟩ := (ht.whole.step hs).asked.pumps st
        (hst ▸ List.mem_map.mpr ⟨p,hpm,rfl⟩)
      exact ⟨req,hr hal ▸ hreq,hq⟩

theorem client (h : Ending t) (hd : t'.daemon = t.daemon) (ha : t'.alive = t.alive)
    (hst : t'.stopped = t.stopped)
    (hc : ∀ (k : ℕ) (x' : Connection F) (st : Text), t'.connections[k]? = some x' →
      x'.phase.feeds = some st → ∃ x, t.connections[k]? = some x ∧ x.phase.feeds = some st) :
    Ending t' := by
  refine ⟨fun hal => ?_,fun hal k x' st hx' hp => ?_,fun k x' st hx' hp => ?_⟩
  · rw [hd,hst]
    exact h.up (ha ▸ hal)
  · obtain ⟨x,hx,hp⟩ := hc k x' st hx' hp
    rw [hd]
    exact h.dead (ha ▸ hal) k x st hx hp
  · obtain ⟨x,hx,hp⟩ := hc k x' st hx' hp
    rw [hd]
    exact h.good k x st hx hp

theorem turn {k : ℕ} {x x' : Connection F} {a : Act F} {y : Option (Call F)}
    {subs : HashMap Text ℕ} (h : Ending t) (ht : Talk t) (w : Wires t)
    (hx : t.connections[k]? = some x) (hturn : Turn t k x a y subs x') :
    Ending (t.turn k y subs x') := by
  have hd : (t.turn k y subs x').daemon = t.daemon := daemon_place t y
  have ha : (t.turn k y subs x').alive = t.alive := by cases y <;> rfl
  have hst : (t.turn k y subs x').stopped = t.stopped := by cases y <;> rfl
  have hold : (∀ st, x'.phase.feeds = some st → x.phase.feeds = some st) →
      Ending (t.turn k y subs x') := fun hf => by
    refine h.client hd ha hst (fun j z st hz hp => ?_)
    rcases getElem?_set_cases hz with ⟨rfl,rfl⟩ | ⟨-,hz⟩
    · exact ⟨x,hx,hf st hp⟩
    · exact ⟨z,hz,hp⟩
  cases hturn with
  | opened | notOpened | refused | unreplied | closed | unsubscribed | close =>
    exact hold (fun st hp => by cases hp)
  | subscribed hq | replied hq | upload hq | uploaded hq =>
    exact hold (fun st hp => by rw [hq]; exact hp)
  | chunk | ignored | download => exact hold (fun st hp => hp)
  | @subscribe stream hq =>
    have hno := not_subscribed ht w hx hq
    refine ⟨fun hal => h.up hal,fun hal j z st hz hp => ?_,fun j z st hz hp p hpm hps => ?_⟩
    · rcases getElem?_set_cases hz with ⟨rfl,rfl⟩ | ⟨-,hz⟩
      · cases hp
        exact hno
      · exact h.dead hal j z st hz hp
    · rcases getElem?_set_cases hz with ⟨rfl,rfl⟩ | ⟨-,hz⟩
      · cases hp
        exact (hno (subscribed_of_pumped ht (hps ▸ List.mem_map.mpr ⟨p,hpm,rfl⟩))).elim
      · exact h.good j z st hz hp p hpm hps

theorem step (h : Ending t) (hs : Sane t) {a : Act F} (ha : endsSeen t a = true)
    (hstep : Step trunc t a t') : Ending t' := by
  cases hstep with
  | @serve c x d hal hc hx hd =>
    refine h.daemon hs.talk hd (fun hal => ?_) (fun hal' => (by rw [hal] at hal'; cases hal'))
      (fun _ _ => rfl)
    have hb := (h.up hal).1
    simp only [Daemon.step,Daemon.Act.pump,Daemon.stepLoop] at hd
    split at hd
    · cases hd
      exact hb
    · cases hd
  | lose hc hd =>
    have hin := Daemon.inputs_of_step hd (by simp)
    exact h.daemon hs.talk hd (fun hal => (hin.2 (by simp)).trans (h.up hal).1) (fun _ => hin.1)
      (fun _ _ => rfl)
  | @daemon b d ho hd =>
    have hreq : ∀ req, b ≠ .request req := by
      rintro req rfl
      cases ho
    have hin := Daemon.inputs_of_step hd hreq
    refine h.daemon (n := t.served) hs.talk hd (fun hal => ?_) (fun _ => hin.1)
      (List.all_eq_true.mp ha)
    refine (hin.2 ?_).trans (h.up hal).1
    rintro rfl
    simp [ownStep,hal] at ho
  | turn haj hx hturn => exact h.turn hs.talk hs.wires hx hturn
  | foreign | send | sendFailed | timeout =>
    exact h.client rfl rfl rfl (fun k x st hx hp => ⟨x,hx,hp⟩)
  | connect host port =>
    refine h.client rfl rfl rfl (fun k x st hx hp => ?_)
    rcases getElem?_append_one hx with hx | ⟨-,rfl⟩
    · exact ⟨x,hx,hp⟩
    · cases hp
  | @route f hst hf =>
    have hd := Feeds.daemon_deliver (t := t) (Incoming.ofObject f.toJson)
    have hflags : (t.deliver (Incoming.ofObject f.toJson)).alive = t.alive ∧
        (t.deliver (Incoming.ofObject f.toJson)).stopped = t.stopped := by
      cases Incoming.ofObject f.toJson with
      | skip => exact ⟨rfl,rfl⟩
      | response | event =>
        rw [deliver]
        split <;> exact ⟨rfl,rfl⟩
    refine h.client hd hflags.1 hflags.2 (fun k x' st hx' hp => ?_)
    obtain ⟨x,hx,rfl | ⟨e,-,-,rfl⟩⟩ := Feeds.connections_deliver _ hx'
    · exact ⟨x',hx,hp⟩
    · exact ⟨x,hx,hp⟩
  | die =>
    have hnil : t.awaited = [] := by simpa [endsSeen] using ha
    refine ⟨fun hal => (by cases hal),fun _ k x st hx hp => ?_,h.good⟩
    have hm : st ∈ t.awaited := mem_awaited hx hp
    rw [hnil] at hm
    cases hm
  | eof hal =>
    refine ⟨fun hal' => ?_,fun _ => h.dead hal,h.good⟩
    exact absurd (hal.symm.trans hal') (by simp)

end Ending

/-- A bridge that waits in both directions, with nothing on its way to it: the reader task
is gone, or the stream is and its pump writes no more. -/
def Stuck (t : Tunnel F) (k : ℕ) (x : Connection F) (st : Text) : Prop :=
  x.phase = .bridging st none ∧ x.writing = [] ∧ x.channel = [] ∧
    t.subscriptions.lookup st = some k ∧
    (t.stopped = true ∨ Daemon.eventsOf st (t.daemon.out.drop t.read) = [] ∧
      t.daemon.streams.lookup st = none ∧ ∀ p ∈ t.daemon.pumps, p.stream = st → p.phase.over = true)

instance (t : Tunnel F) (k : ℕ) (x : Connection F) (st : Text) : Decidable (Stuck t k x st) :=
  inferInstanceAs (Decidable (_ ∧ _))

/-- As long as every pump that a bridge waits for ends by the end of its connection, and ssh
is not lost meanwhile, the end of a stream is on its way to the bridge, which is never stuck. -/
theorem ends_seen (h : Reach (step trunc) (fun t a => endsSeen t a = true) init t) {k : ℕ}
    {x : Connection F} {st : Text} {u : Option CallIx} (hx : t.connections[k]? = some x)
    (hp : x.phase = .bridging st u) :
    ¬ Stuck t k x st ∧ t.alive = true ∧ ∃ p ∈ t.daemon.pumps, p.stream = st ∧
      (p.phase.over = true → Frame.toStream (.eof st) ∈ x.channel ∨
        .event (.eof st) ∈ t.daemon.out.drop t.read) := by
  have hinv : Sane t ∧ Ending t := by
    refine Reach.inv (P := fun t => Sane t ∧ Ending t) h ⟨sane_init,.init⟩ ?_
    rintro t a t' ⟨hs,he⟩ ha hst
    exact ⟨hs.step hst,he.step hs ha (step_sound hst)⟩
  obtain ⟨hs,he⟩ := hinv
  have hf : x.phase.feeds = some st := by rw [hp]; rfl
  have hpm : st ∈ t.daemon.pumped := hs.bridges.pumped k x st hx (by rw [hp]; rfl)
  have hal : t.alive = true := by
    cases hal : t.alive with
    | true => rfl
    | false => exact (he.dead hal k x st hx hf (subscribed_of_pumped hs.talk hpm)).elim
  obtain ⟨p,hpp,hps⟩ := List.mem_map.mp hpm
  have hover : p.phase.over = true → Frame.toStream (.eof st) ∈ x.channel ∨
      .event (.eof st) ∈ t.daemon.out.drop t.read := by
    intro ho
    have hg := he.good k x st hx hf p hpp hps
    have heof : Frame.event (.eof st) ∈ t.daemon.out := by
      rw [← hps]
      cases hph : p.phase <;> simp_all [Daemon.PumpPhase.over,Daemon.Good]
    exact hs.feeds.eof_on_its_way hx hf heof
  refine ⟨?_,hal,p,hpp,hps,hover⟩
  rintro ⟨-,-,hch,-,hst | ⟨hno,-,hall⟩⟩
  · rw [(he.up hal).2] at hst
    cases hst
  · rcases hover (hall p hpp hps) with hm | hm
    · rw [hch] at hm
      cases hm
    · have hm' : RpcEvent.eof st ∈ Daemon.eventsOf st (t.daemon.out.drop t.read) :=
        Daemon.mem_eventsOf.mpr ⟨hm,rfl⟩
      rw [hno] at hm'
      cases hm'

theorem ends_seen_download :
    ∃ (t : Tunnel ℕ) (x : Connection ℕ),
      Reach (step (fun _ => none)) (fun t a => endsSeen t a = true) init t ∧
      t.connections[0]? = some x ∧ x.phase = .bridging "s-1".toList none ∧
      ¬ Stuck t 0 x "s-1".toList := by
  obtain ⟨t,hr,hg⟩ : ∃ t, Reach (step (fun _ => none)) (fun t a => endsSeen t a = true) init t ∧
      glance t = ⟨some (.bridging "s-1".toList none,[104,105],some true),
        [("s-1".toList,[104,105])]⟩ := reach_of_glance glance download.dropLast (by decide +kernel)
  obtain ⟨x,hx,hp,-,-⟩ := connection_of_glance hg
  exact ⟨t,x,hr,hx,hp,(ends_seen hr hx hp).1⟩

def reset : List (Act ℕ) :=
  bridge ++ [.daemon (.read 0 [] (some (.other "connection reset by peer".toList))),
    .daemon (.emit 0),.daemon (.terminate 0),.daemon (.drop 0),.daemon (.closePump 0),.route,
    .receive 0]

def stuckAtFirst (t : Tunnel ℕ) : Bool :=
  t.connections[0]?.any (fun x => Stuck t 0 x "s-1".toList)

/-- The error event was read and ignored. -/
theorem reset_leaves_bridge_stuck :
    ¬ ∀ (t : Tunnel ℕ), Reach (step (fun _ => none)) anyStep init t →
      ∀ (k : ℕ) (x : Connection ℕ) (st : Text), t.connections[k]? = some x → ¬ Stuck t k x st := by
  intro h
  obtain ⟨t,hr,hg⟩ : ∃ t, Reach (step (fun _ => none)) anyStep init t ∧ stuckAtFirst t = true :=
    reach_of_glance stuckAtFirst reset (by decide +kernel)
  obtain ⟨x,hx,hs⟩ := (Option.any_eq_true _ _).mp hg
  exact h t hr 0 x _ hx (of_decide_eq_true hs)

end Tunnel

end Limux
