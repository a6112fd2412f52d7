import Limux.ControllerRun

/-! Relay listeners outlive the attempt that starts them: a loop finds its port free
exactly until one of its attempts got past `RelayServer::start`. -/
namespace Limux

open Machine

namespace Controller

variable {F : Type} {s s' : Controller F}

theorem step_loops {a : Act} (hs : s.step a = some s') {k : LoopId} {y : Loop}
    (hy : s'.loops[k]? = some y) :
    (∃ w c, y = .fresh w c) ∨ ∃ x, s.loops[k]? = some x ∧
      (y = x ∨ y = { x with stop := true } ∨ ∃ ok e, a = .loop k ok ∧ s.next x ok = some (y,e)) := by
  have hd : ∀ {w : WorkspaceId} {y : Loop}, (s.disconnect w).loops[k]? = some y →
      ∃ x, s.loops[k]? = some x ∧ (y = x ∨ y = { x with stop := true }) := by
    intro w y hy
    rw [disconnect_loops] at hy
    obtain ⟨x,hx,rfl⟩ := Option.map_eq_some_iff.mp hy
    refine ⟨x,hx,?_⟩
    split
    · exact .inr rfl
    · exact .inl rfl
  have hcases : ∀ {w : WorkspaceId} {y : Loop}, (s.disconnect w).loops[k]? = some y →
      ∃ x, s.loops[k]? = some x ∧ (y = x ∨ y = { x with stop := true } ∨
        ∃ ok e, a = .loop k ok ∧ s.next x ok = some (y,e)) := by
    intro w y hy
    obtain ⟨x,hx,rfl | rfl⟩ := hd hy
    · exact ⟨y,hx,.inl rfl⟩
    · exact ⟨x,hx,.inr (.inl rfl)⟩
  obtain hm | ⟨p,q,rfl,hq,rfl⟩ | ⟨l,ok,rfl⟩ | ⟨b,rfl⟩ | ⟨c,rfl,-,rfl⟩ := step_cases hs
  · cases hm with
    | skip => exact .inr ⟨y,hy,.inl rfl⟩
    | start c ha hw =>
      rcases getElem?_append_one hy with hy | ⟨-,rfl⟩
      · exact .inr (hcases hy)
      · exact .inl ⟨_,c,rfl⟩
    | create c c' port id token =>
      rcases getElem?_append_one hy with hy | ⟨-,rfl⟩
      · rw [disconnect_loops] at hy
        refine .inr (hcases (w := s.window.ids.workspace) ?_)
        rw [disconnect_loops]
        exact hy
      · exact .inl ⟨_,c,rfl⟩
    | disconnectRemote clear ha => exact .inr (hcases hy)
    | remove hi haw =>
      split at hy
      · exact .inr (hcases hy)
      · exact .inr ⟨y,hy,.inl rfl⟩
  · exact .inr ⟨y,hy,.inl rfl⟩
  · obtain ⟨x,x',e,hx,hn,rfl⟩ := step_loop hs
    rw [(perform_frame _ l x e).2.2.1] at hy
    rcases getElem?_setLoop hy with ⟨rfl,rfl⟩ | ⟨-,hy⟩
    · exact .inr ⟨x,hx,.inr (.inr ⟨ok,e,rfl,hn⟩)⟩
    · exact .inr ⟨y,hy,.inl rfl⟩
  · obtain ⟨-,hs⟩ := Option.ite_none_right_eq_some.mp hs
    obtain ⟨b',-,rfl⟩ := Option.map_eq_some_iff.mp hs
    exact .inr ⟨y,hy,.inl rfl⟩
  · exact .inr ⟨y,hy,.inl rfl⟩

theorem step_localSocket {a : Act} (hs : s.step a = some s') : s'.localSocket = s.localSocket := by
  have hd : ∀ w, (s.disconnect w).localSocket = s.localSocket := by
    intro w
    unfold disconnect
    split <;> rfl
  obtain hm | ⟨p,q,rfl,hq,rfl⟩ | ⟨l,ok,rfl⟩ | ⟨b,rfl⟩ | ⟨c,rfl,-,rfl⟩ := step_cases hs
  · cases hm with
    | skip => rfl
    | start c ha hw => exact hd _
    | create c c' port id token =>
      rw [connect]
      unfold disconnect
      split <;> rfl
    | disconnectRemote clear ha => exact hd _
    | remove hi haw =>
      split
      · exact hd _
      · rfl
  · rfl
  · obtain ⟨x,x',e,-,-,rfl⟩ := step_loop hs
    exact (perform_frame _ l x e).2.2.2
  · obtain ⟨-,hs⟩ := Option.ite_none_right_eq_some.mp hs
    obtain ⟨b',-,rfl⟩ := Option.map_eq_some_iff.mp hs
    rfl
  · rfl

/-- The attempt ended before its relay server was started. -/
def Outcome.Early : Outcome → Prop
  | .bootstrapFailed | .relayFailed => True
  | .tunnelFailed | .metadataFailed | .tunnelLost => False

/-- The relay server of this attempt is started. -/
def Phase.Serving : Phase → Prop
  | .relayed | .tunnel | .tunnelWait _ | .settle | .metadata => True
  | .failed o => ¬ o.Early
  | _ => False

/-- Past `run_full_connection`, with a relay server or without one. -/
def Phase.Up : Phase → Prop
  | .pushConnected | .acquireLease | .monitor | .probe | .exited | .dropLease | .pushProxyNone
  | .afterMonitor => True
  | _ => False

/-- What the listeners of a loop tell of its attempts. -/
structure Serves (sock : String) (x : Loop) : Prop where
  ports : ∀ p ∈ x.listeners, p = x.relayPort
  configured : x.phase = .relay → x.relayConfigured sock = true
  serving : x.phase.Serving → x.listeners ≠ []
  up : x.phase.Up → x.relayConfigured sock = true → x.stop = false → x.listeners ≠ []
  late : x.phase ≠ .done → x.relayConfigured sock = true → (∃ o ∈ x.past, ¬ o.Early) →
    x.listeners ≠ []
  early : ¬ x.phase.Serving → ¬ x.phase.Up → x.listeners ≠ [] → ∃ o ∈ x.past, ¬ o.Early

theorem serves_fresh (sock : String) (w : WorkspaceId) (c : RemoteConfiguration) :
    Serves sock (.fresh w c) := by
  constructor <;> simp [Loop.fresh,Phase.Serving,Phase.Up]

theorem Serves.stop {sock : String} {x : Loop} (h : Serves sock x) :
    Serves sock { x with stop := true } :=
  ⟨h.ports,h.configured,h.serving,fun _ _ hs => (by cases hs),h.late,h.early⟩

theorem Serves.withLease {sock : String} {x : Loop} (h : Serves sock x)
    (lease : Option Broker.LeaseId) (tunnel : Option ChildId) :
    Serves sock { x with lease := lease, tunnel := tunnel } :=
  ⟨h.ports,h.configured,h.serving,h.up,h.late,h.early⟩

theorem Serves.finish (sock : String) (x : Loop) : Serves sock x.finish :=
  ⟨by simp [Loop.finish],by simp [Loop.finish],by simp [Loop.finish,Phase.Serving],
    by simp [Loop.finish,Phase.Up],by simp [Loop.finish],by simp [Loop.finish]⟩

section Next

variable {sock : String} {x : Loop} (h : Serves sock x)
include h

/-- A step that stays before, in, or after the part of an attempt with a new listener. -/
theorem Serves.goto {q : Phase} (hd : x.phase ≠ .done) (hs : q.Serving ↔ x.phase.Serving)
    (hu : q.Up ↔ x.phase.Up) (hr : q = .relay → x.relayConfigured sock = true) :
    Serves sock (x.goto q) :=
  ⟨h.ports,hr,fun hq => h.serving (hs.mp hq),fun hq => h.up (hu.mp hq),fun _ => h.late hd,
    fun h1 h2 => h.early (mt hs.mpr h1) (mt hu.mpr h2)⟩

theorem Serves.goUp {q : Phase} (hd : x.phase ≠ .done) (hq : q.Up) (hr : q ≠ .relay)
    (hl : x.relayConfigured sock = true → x.stop = false → x.listeners ≠ []) (hs : ¬ q.Serving) :
    Serves sock (x.goto q) :=
  ⟨h.ports,fun he => absurd he hr,fun hq => absurd hq hs,fun _ => hl,fun _ => h.late hd,
    fun _ h2 => absurd hq h2⟩

/-- The end of an attempt that had a listener, if it ended late. -/
theorem Serves.record {q : Phase} {o : Outcome} (hd : x.phase ≠ .done) (hr : q ≠ .relay)
    (hs : ¬ q.Serving) (hu : ¬ q.Up) (hl : ¬ o.Early → x.relayConfigured sock = true →
      x.listeners ≠ []) (he : o.Early → ¬ x.phase.Serving ∧ ¬ x.phase.Up) :
    Serves sock { x.goto q with past := x.past ++ [o] } := by
  refine ⟨h.ports,fun hq => absurd hq hr,fun hq => absurd hq hs,fun hq => absurd hq hu,?_,?_⟩
  · rintro - hc ⟨p,hp,hlate⟩
    rcases List.mem_append.mp hp with hp | hp
    · exact h.late hd hc ⟨p,hp,hlate⟩
    · rw [List.mem_singleton.mp hp] at hlate
      exact hl hlate hc
  · intro _ _ hne
    by_cases ho : o.Early
    · obtain ⟨p,hp,hlate⟩ := h.early (he ho).1 (he ho).2 hne
      exact ⟨p,List.mem_append_left _ hp,hlate⟩
    · exact ⟨o,List.mem_append_right _ (List.mem_singleton_self o),ho⟩

end Next

theorem Serves.next {x x' : Loop} {ok : Bool} {e : Effect} (h : Serves s.localSocket x)
    (hn : s.next x ok = some (x',e)) : Serves s.localSocket x' := by
  cases hp : x.phase <;> simp only [Controller.next,hp] at hn
  case done => cases hn
  case starting =>
    split at hn <;> cases hn
    · exact h.goto (by simp [hp]) (by simp [hp,Phase.Serving]) (by simp [hp,Phase.Up]) (by simp)
    · exact .finish _ _
  case top =>
    cases hn
    split
    · exact .finish _ _
    · exact h.goto (by simp [hp]) (by simp [hp,Phase.Serving]) (by simp [hp,Phase.Up]) (by simp)
  case bootstrapped =>
    cases hn
    split
    · rename_i hstop
      refine h.goUp (by simp [hp]) trivial (by simp) (fun hc hs => ?_) id
      simp [hc,hs] at hstop
    · rename_i hstop
      refine h.goto (by simp [hp]) (by simp [hp,Phase.Serving]) (by simp [hp,Phase.Up]) (fun _ => ?_)
      exact (by simpa using hstop : x.stop = false ∧ _).2
  case relay =>
    split at hn
    · split at hn <;> cases hn
      have hne : x.listeners ++ [x.relayPort] ≠ [] := by simp
      refine ⟨fun p hp => ?_,by simp [Loop.goto],fun _ => hne,fun _ _ _ => hne,fun _ _ _ => hne,
        fun h1 => absurd trivial h1⟩
      rcases List.mem_append.mp hp with hp | hp
      · exact h.ports p hp
      · exact List.mem_singleton.mp hp
    · cases hn
      exact h.goto (by simp [hp]) (by simp [hp,Phase.Serving,Outcome.Early]) (by simp [hp,Phase.Up])
        (by simp)
  case relayed =>
    cases hn
    have hl := h.serving (hp ▸ trivial)
    split
    · exact h.goUp (by simp [hp]) trivial (by simp) (fun _ _ => hl) id
    · exact h.goto (by simp [hp]) (by simp [hp,Phase.Serving]) (by simp [hp,Phase.Up]) (by simp)
  case settle =>
    cases hn
    have hl := h.serving (hp ▸ trivial)
    split
    · exact h.goUp (by simp [hp]) trivial (by simp) (fun _ _ => hl) id
    · exact h.goto (by simp [hp]) (by simp [hp,Phase.Serving]) (by simp [hp,Phase.Up]) (by simp)
  case metadata =>
    cases hn
    have hl := h.serving (hp ▸ trivial)
    split
    · exact h.goUp (by simp [hp]) trivial (by simp) (fun _ _ => hl) id
    · exact h.goto (by simp [hp]) (by simp [hp,Phase.Serving,Outcome.Early]) (by simp [hp,Phase.Up])
        (by simp)
  case bootstrap =>
    cases hn
    split
    · exact h.goto (by simp [hp]) (by simp [hp,Phase.Serving]) (by simp [hp,Phase.Up]) (by simp)
    · exact h.goto (by simp [hp]) (by simp [hp,Phase.Serving,Outcome.Early]) (by simp [hp,Phase.Up])
        (by simp)
  case tunnel =>
    split at hn <;> cases hn
    · exact h.goto (by simp [hp]) (by simp [hp,Phase.Serving]) (by simp [hp,Phase.Up]) (by simp)
    · exact h.goto (by simp [hp]) (by simp [hp,Phase.Serving,Outcome.Early]) (by simp [hp,Phase.Up])
        (by simp)
  case tunnelWait c =>
    split at hn <;> cases hn
    · exact h.goto (by simp [hp]) (by simp [hp,Phase.Serving,Outcome.Early]) (by simp [hp,Phase.Up])
        (by simp)
    · exact (h.goto (q := .settle) (by simp [hp]) (by simp [hp,Phase.Serving])
        (by simp [hp,Phase.Up]) (by simp)).withLease x.lease (some c)
  case afterMonitor =>
    cases hn
    split
    · exact .finish _ _
    · rename_i hstop
      exact h.record (by simp [hp]) (by simp) id id
        (fun _ hc => h.up (hp ▸ trivial) hc (by simpa using hstop)) (fun he => he.elim)
  case failed o =>
    cases hn
    split
    · exact .finish _ _
    · exact h.record (by simp [hp]) (by simp) id id
        (fun ho _ => h.serving (by simpa [hp,Phase.Serving] using ho))
        (fun ho => by simp [hp,Phase.Serving,Phase.Up,ho])
  case pushConnecting =>
    cases hn
    exact (h.goto (q := .bootstrap) (by simp [hp]) (by simp [hp,Phase.Serving])
      (by simp [hp,Phase.Up]) (by simp)).withLease x.lease none
  case acquireLease =>
    cases hn
    exact (h.goto (q := .monitor) (by simp [hp]) (by simp [hp,Phase.Serving])
      (by simp [hp,Phase.Up]) (by simp)).withLease (some s.broker.nextLease) x.tunnel
  case dropLease =>
    cases hn
    exact (h.goto (q := .pushProxyNone) (by simp [hp]) (by simp [hp,Phase.Serving])
      (by simp [hp,Phase.Up]) (by simp)).withLease none x.tunnel
  case monitor =>
    split at hn <;> cases hn
    · exact h.goto (by simp [hp]) (by simp [hp,Phase.Serving]) (by simp [hp,Phase.Up]) (by simp)
    · exact h.goto (by simp [hp]) (by simp [hp,Phase.Serving]) (by simp [hp,Phase.Up]) (by simp)
  case probe =>
    cases hn
    split
    · exact h.goto (by simp [hp]) (by simp [hp,Phase.Serving]) (by simp [hp,Phase.Up]) (by simp)
    · exact h.goto (by simp [hp]) (by simp [hp,Phase.Serving]) (by simp [hp,Phase.Up]) (by simp)
  all_goals
    cases hn
    exact h.goto (by simp [hp]) (by simp [hp,Phase.Serving]) (by simp [hp,Phase.Up]) (by simp)

theorem serves_reach {aw : AppWindow F} {sock : String}
    (h : Reach step anyStep (init aw sock) s) :
    s.localSocket = sock ∧ ∀ (k : LoopId) (y : Loop), s.loops[k]? = some y → Serves sock y := by
  refine h.inv (P := fun s => s.localSocket = sock ∧ ∀ (k : LoopId) (y : Loop),
      s.loops[k]? = some y → Serves sock y) ⟨rfl,fun k y hy => by cases hy⟩ ?_
  rintro s a s' ⟨hsock,hl⟩ - hs
  refine ⟨(step_localSocket hs).trans hsock,fun k y hy => ?_⟩
  rcases step_loops hs hy with ⟨w,c,rfl⟩ | ⟨x,hx,rfl | rfl | ⟨ok,e,-,hn⟩⟩
  · exact serves_fresh sock w c
  · exact hl k y hx
  · exact (hl k x hx).stop
  · rw [← hsock]
    exact Serves.next (hsock ▸ hl k x hx) hn

/-- When a loop comes to start its relay server, no listener of its own holds the port
if and only if each earlier attempt failed before it had one; and where no other loop
holds the port, that is when the bind can succeed. -/
theorem relay_port_free_iff {aw : AppWindow F} {sock : String}
    (h : Reach step anyStep (init aw sock) s) {l : LoopId} {x : Loop}
    (hx : s.loops[l]? = some x) (hp : x.phase = .relay) :
    (x.relayPort ∉ x.listeners ↔ ∀ o ∈ x.past, o.Early) ∧
    ((∀ (k : LoopId) (y : Loop), k ≠ l → s.loops[k]? = some y → x.relayPort ∉ y.listeners) →
      ((s.step (.loop l true)).isSome ↔ ∀ o ∈ x.past, o.Early)) := by
  have hserv := (serves_reach h).2 l x hx
  have hnil : x.relayPort ∉ x.listeners ↔ x.listeners = [] := by
    refine ⟨fun hn => ?_,fun hn => by simp [hn]⟩
    cases hl : x.listeners with
    | nil => rfl
    | cons p ps =>
      have hm : p ∈ x.listeners := hl ▸ List.mem_cons_self
      exact absurd (hserv.ports p hm ▸ hm) hn
  have hiff : x.relayPort ∉ x.listeners ↔ ∀ o ∈ x.past, o.Early := by
    rw [hnil]
    constructor
    · intro hl o ho
      by_contra hlate
      exact hserv.late (by simp [hp]) (hserv.configured hp) ⟨o,ho,hlate⟩ hl
    · intro ho
      by_contra hl
      obtain ⟨o,hm,hlate⟩ := hserv.early (by simp [hp,Phase.Serving]) (by simp [hp,Phase.Up]) hl
      exact hlate (ho o hm)
  refine ⟨hiff,fun hothers => ?_⟩
  have hfree : s.portFree x.relayPort = true ↔ x.relayPort ∉ x.listeners := by
    rw [portFree,List.all_eq_true]
    constructor
    · intro hall
      simpa using hall x (List.mem_of_getElem? hx)
    · intro hown y hy
      obtain ⟨k,hk⟩ := List.mem_iff_getElem?.mp hy
      by_cases hkl : k = l
      · subst hkl
        rw [hx] at hk
        cases hk
        simpa using hown
      · simpa using hothers k y hkl hk
  have hstep : (s.step (.loop l true)).isSome ↔ s.portFree x.relayPort = true := by
    simp only [step,hx,Option.bind_some,next,hp,if_true,Option.isSome_map]
    split
    · rename_i hf
      simp [hf]
    · rename_i hf
      simp [hf]
  rw [hstep,hfree,hiff]

/-- A new remote workspace whose loop takes steps with these outcomes. -/
def attemptActs (outcomes : List Bool) : List Act :=
  .newRemoteWorkspace ⟨"dev",none,none,[],none,none,none,none,none⟩ (some 4100) "id" "token" ::
    outcomes.map (.loop 0)

/-- The first bootstrap fails, the second attempt comes to the relay. -/
theorem relay_port_free_retry : ∃ s x,
    run step anyStep (init AppWindow.start "/run/limux.sock") (attemptActs [true,true,true,false,
      true,true,true,true,true,true,true]) = some s ∧
    s.loops[0]? = some x ∧ x.phase = .relay ∧ x.past = [.bootstrapFailed] ∧
    x.relayPort ∉ x.listeners := by
  refine ⟨_,_,rfl,rfl,rfl,rfl,?_⟩
  have hr : Reach step anyStep (init AppWindow.start "/run/limux.sock") _ :=
    reach_of_run (attemptActs [true,true,true,false,true,true,true,true,true,true,true]) rfl
  refine (relay_port_free_iff (l := 0) hr rfl rfl).1.mpr fun o ho => ?_
  rw [List.mem_singleton.mp ho]
  trivial

/-- The first attempt fails at the metadata; its listener is there when the second one
binds the port. -/
theorem metadata_failure_holds_port : ∃ s x,
    Reach step anyStep (init AppWindow.start "/run/limux.sock") s ∧
    s.loops[0]? = some x ∧ x.phase = .relay ∧ x.relayPort ∈ x.listeners ∧
    s.step (.loop 0 true) = none := by
  refine ⟨_,_,reach_of_run (attemptActs [true,true,true,true,true,true,true,true,true,true,
    false,true,true,true,true,true,true,true]) rfl,rfl,rfl,?_,rfl⟩
  decide

end Controller

end Limux
