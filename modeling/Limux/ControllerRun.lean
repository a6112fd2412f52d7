import Limux.ControllerSteps

/-! Epochs of a remote workspace: what the window shows of it comes from the loop that
was started last, as long as loops are stopped while they have nothing left to push. -/
namespace Limux

open Machine

namespace Controller

variable {F : Type}

/-- The phases from which a stopped loop can end without another push. -/
def Phase.Quiet : Phase → Prop
  | .starting | .top | .bootstrap | .relay | .tunnel | .tunnelWait _ | .metadata
  | .afterMonitor | .failed _ | .sleeping | .done => True
  | .pushConnecting | .bootstrapped | .relayed | .settle | .pushConnected | .acquireLease
  | .monitor | .probe | .exited | .dropLease | .pushProxyNone | .pushLost | .pushError => False

/-- What a stopped loop waits for ends its attempt. -/
def Fails (s : Controller F) (x : Loop) (ok : Bool) : Prop :=
  match x.phase with
  | .starting => ok = true
  | .bootstrap | .relay | .metadata => ok = false
  | .tunnelWait c => s.hasExited c = true ∨ ok = false
  | _ => True

/-- The loop of a workspace is in a quiet phase and no push of it is queued. -/
def Calm (s : Controller F) (w : WorkspaceId) : Prop :=
  ∀ l ∈ s.registry.lookup w, ∀ x ∈ s.loops[l]?, x.phase.Quiet ∧ ∀ p ∈ s.queue, p.source ≠ l

/-- The workspace is still in the window. -/
def Shows (s : Controller F) (w : WorkspaceId) : Prop :=
  w ∈ s.window.workspaces.map Workspace.id

/-- The callbacks that a step of a tunnel task calls belong to loops that run, or to
closed workspaces. -/
def CallsRunning (s : Controller F) (a : Broker.Act) : Prop :=
  ∀ t ∈ a.task, ∀ y ∈ s.broker.tasks[t]?, ∀ id ∈ s.broker.callbacksOf y.key,
    ∀ h ∈ s.holders[id]?, ∀ x ∈ s.loops[h.1]?, s.Shows x.ws → x.stop = false

def Act.starts (s : Controller F) : Act → Option WorkspaceId
  | .newRemoteWorkspace _ _ _ _ => some s.window.ids.workspace
  | .connect w _ => some w
  | .reconnectRemote id => (id.or s.window.defaultRemote).filter (fun w => (s.configOf w).isSome)
  | _ => none

/-- The workspace whose loop a call stops without closing it. -/
def Act.stops (s : Controller F) : Act → Option WorkspaceId
  | .disconnectRemote id _ => id.or s.window.defaultRemote
  | a => a.starts s

/-- Loops of open workspaces are stopped while they are calm, and an attempt of a
stopped one fails. -/
def Orderly (s : Controller F) (a : Act) : Prop :=
  (∀ w ∈ a.stops s, s.Shows w → s.Calm w) ∧
  match a with
  | .loop l ok => ∀ x ∈ s.loops[l]?, x.stop = true → s.Shows x.ws → s.Fails x ok
  | .broker b => s.CallsRunning b
  | _ => True

structure Epochs (s : Controller F) : Prop where
  window : WindowInv s.window
  registered : ∀ (w : WorkspaceId) (l : LoopId), s.registry.lookup w = some l →
    ∃ x, s.loops[l]? = some x ∧ x.ws = w ∧ x.stop = false
  running : ∀ (l : LoopId) (x : Loop), s.loops[l]? = some x → x.stop = false →
    s.registry.lookup x.ws = some l
  newest : ∀ (w : WorkspaceId) (l k : LoopId) (x : Loop), s.registry.lookup w = some l →
    s.loops[k]? = some x → x.ws = w → k ≤ l
  allocated : ∀ (l : LoopId) (x : Loop), s.loops[l]? = some x → x.ws < s.window.ids.workspace
  quiet : ∀ (l : LoopId) (x : Loop), s.loops[l]? = some x → x.stop = true → s.Shows x.ws →
    x.phase.Quiet
  holders : HoldersMatch s
  holder : ∀ h ∈ s.holders, ∃ x, s.loops[h.1]? = some x ∧ x.ws = h.2
  pushed : ∀ p ∈ s.queue, p.ws < s.window.ids.workspace
  queue : ∀ p ∈ s.queue, s.Shows p.ws → s.registry.lookup p.ws = some p.source

variable {s s' : Controller F}

theorem epochs_init {aw : AppWindow F} (h : WindowInv aw) (localSocket : String) :
    Epochs (init aw localSocket) where
  window := h
  registered _ _ h := by cases h
  running _ _ h := by cases h
  newest _ _ _ _ h := by cases h
  allocated _ _ h := by cases h
  quiet _ _ h := by cases h
  holders := rfl
  holder _ h := by cases h
  pushed _ h := by cases h
  queue _ h := by cases h

/-- Workspaces of the second window are those of the first, or have a new id. -/
structure Grows (aw aw' : AppWindow F) : Prop where
  ids : aw.ids.workspace ≤ aw'.ids.workspace
  old : ∀ w ∈ aw'.workspaces.map Workspace.id,
    w ∈ aw.workspaces.map Workspace.id ∨ w = aw.ids.workspace

theorem Grows.refl (aw : AppWindow F) : Grows aw aw := ⟨le_rfl,fun _ => .inl⟩

theorem Grows.shows {aw aw' : AppWindow F} (h : Grows aw aw') {w : WorkspaceId}
    (hlt : w < aw.ids.workspace) (hw : w ∈ aw'.workspaces.map Workspace.id) :
    w ∈ aw.workspaces.map Workspace.id := by
  rcases h.old w hw with hw | rfl
  · exact hw
  · exact absurd hlt (lt_irrefl _)

theorem Epochs.withWindow (h : Epochs s) {aw : AppWindow F} (hw : WindowInv aw)
    (hg : Grows s.window aw) : Epochs { s with window := aw } :=
  ⟨hw,h.registered,h.running,h.newest,fun l x hx => lt_of_lt_of_le (h.allocated l x hx) hg.ids,
    fun l x hx hstop hsh => h.quiet l x hx hstop (hg.shows (h.allocated l x hx) hsh),
    h.holders,h.holder,fun p hp => lt_of_lt_of_le (h.pushed p hp) hg.ids,
    fun p hp hsh => h.queue p hp (hg.shows (h.pushed p hp) hsh)⟩

theorem of_disconnect_loops {w : WorkspaceId} {l : LoopId} {x : Loop}
    (hx : (s.disconnect w).loops[l]? = some x) :
    ∃ y, s.loops[l]? = some y ∧ x.ws = y.ws ∧ x.phase = y.phase ∧
      (s.registry.lookup w = some l ∧ x.stop = true ∨ s.registry.lookup w ≠ some l ∧ x = y) := by
  rw [disconnect_loops] at hx
  obtain ⟨y,hy,rfl⟩ := Option.map_eq_some_iff.mp hx
  refine ⟨y,hy,?_⟩
  split
  · rename_i hr
    exact ⟨rfl,rfl,.inl ⟨hr,rfl⟩⟩
  · rename_i hr
    exact ⟨rfl,rfl,.inr ⟨hr,rfl⟩⟩

theorem disconnect_loops_ne {w : WorkspaceId} {l : LoopId} (h : s.registry.lookup w ≠ some l) :
    (s.disconnect w).loops[l]? = s.loops[l]? := by
  rw [disconnect_loops]
  cases s.loops[l]? with
  | none => rfl
  | some x => rw [Option.map_some,if_neg h]

theorem disconnect_holders (s : Controller F) (w : WorkspaceId) :
    (s.disconnect w).holders = s.holders ∧ (s.disconnect w).broker = s.broker := by
  unfold disconnect
  split <;> exact ⟨rfl,rfl⟩

theorem Epochs.disconnect (h : Epochs s) {w : WorkspaceId} (hc : s.Shows w → s.Calm w) :
    Epochs (s.disconnect w) := by
  -- a workspace has one loop that runs, so the loop of another one is not touched
  have hother : ∀ v l, v ≠ w → s.registry.lookup v = some l → s.registry.lookup w ≠ some l := by
    intro v l hv hl hw
    obtain ⟨x,hx,hxv,-⟩ := h.registered v l hl
    obtain ⟨y,hy,hyw,-⟩ := h.registered w l hw
    rw [hx] at hy
    cases hy
    exact hv (hxv.symm.trans hyw)
  have hshows : ∀ {v}, (s.disconnect w).Shows v → s.Shows v := by
    intro v hv
    rwa [Shows,disconnect_window] at hv
  refine ⟨?_,fun v l hl => ?_,fun l x hx hstop => ?_,fun v l k x hl hx hv => ?_,
    fun l x hx => ?_,fun l x hx hstop hsh => ?_,?_,fun a ha => ?_,fun p hp => ?_,
    fun p hp hsh => ?_⟩
  · rw [disconnect_window]
    exact h.window
  · rw [disconnect_registry] at hl
    split at hl
    · cases hl
    · rename_i hv
      rw [disconnect_loops_ne (hother v l hv hl)]
      exact h.registered v l hl
  · obtain ⟨y,hy,hws,-,⟨-,hx⟩ | ⟨hr,rfl⟩⟩ := of_disconnect_loops hx
    · rw [hx] at hstop
      cases hstop
    · have hreg := h.running l x hy hstop
      rw [disconnect_registry,if_neg]
      · exact hreg
      · intro hxw
        rw [hxw] at hreg
        exact hr hreg
  · obtain ⟨y,hy,hws,-⟩ := of_disconnect_loops hx
    rw [disconnect_registry] at hl
    split at hl
    · cases hl
    · exact h.newest v l k y hl hy (hws.symm.trans hv)
  · obtain ⟨y,hy,hws,-⟩ := of_disconnect_loops hx
    rw [disconnect_window,hws]
    exact h.allocated l y hy
  · obtain ⟨y,hy,hws,hph,⟨hr,-⟩ | ⟨-,rfl⟩⟩ := of_disconnect_loops hx
    · obtain ⟨z,hz,hzw,-⟩ := h.registered w l hr
      rw [hy] at hz
      cases hz
      rw [hph]
      exact (hc (hzw ▸ hws ▸ hshows hsh) l hr y hy).1
    · exact h.quiet l x hy hstop (hshows hsh)
  · rw [HoldersMatch,(disconnect_holders s w).1,(disconnect_holders s w).2]
    exact h.holders
  · rw [(disconnect_holders s w).1] at ha
    obtain ⟨x,hx,hws⟩ := h.holder a ha
    rw [disconnect_loops,hx]
    refine ⟨_,rfl,?_⟩
    split <;> exact hws
  · rw [disconnect_queue] at hp
    rw [disconnect_window]
    exact h.pushed p hp
  · rw [disconnect_queue] at hp
    have hr := h.queue p hp (hshows hsh)
    rw [disconnect_registry,if_neg]
    · exact hr
    · intro hw
      obtain ⟨x,hx,-,-⟩ := h.registered _ _ hr
      replace hsh := hshows hsh
      rw [hw] at hr hsh
      exact (hc hsh p.source hr x hx).2 p hp rfl

theorem Epochs.connect (h : Epochs s) {w : WorkspaceId} (hc : s.Shows w → s.Calm w)
    (hlt : w < s.window.ids.workspace) (c : RemoteConfiguration) : Epochs (s.connect w c) := by
  have hd := h.disconnect hc
  have hlen := disconnect_length s w
  have hnone : (s.disconnect w).registry.lookup w = none := by
    rw [disconnect_registry,if_pos rfl]
  have hloops : ∀ {l : LoopId} {x : Loop}, (s.connect w c).loops[l]? = some x →
      (s.disconnect w).loops[l]? = some x ∨ l = s.loops.length ∧ x = .fresh w c := by
    intro l x hx
    rw [connect_loops] at hx
    rw [← hlen]
    exact getElem?_append_one hx
  have hkeep : ∀ {l : LoopId} {x : Loop}, (s.disconnect w).loops[l]? = some x →
      (s.connect w c).loops[l]? = some x := by
    intro l x hx
    rw [connect_loops,List.getElem?_append_left (List.getElem?_eq_some_iff.mp hx).1]
    exact hx
  have hreg : ∀ v, v ≠ w →
      (s.connect w c).registry.lookup v = (s.disconnect w).registry.lookup v := by
    intro v hv
    rw [connect_registry,disconnect_registry,if_neg hv,if_neg hv]
  have hself : (s.connect w c).registry.lookup w = some s.loops.length := by
    rw [connect_registry,if_pos rfl]
  refine ⟨hd.window,fun v l hl => ?_,fun l x hx hstop => ?_,fun v l k x hl hx hv => ?_,
    fun l x hx => ?_,fun l x hx hstop hsh => ?_,hd.holders,fun a ha => ?_,hd.pushed,
    fun p hp hsh => ?_⟩
  · by_cases hv : v = w
    · subst hv
      rw [hself] at hl
      cases hl
      refine ⟨.fresh v c,?_,rfl,rfl⟩
      rw [connect_loops,← hlen,List.getElem?_concat_length]
    · rw [hreg v hv] at hl
      obtain ⟨x,hx,hxv,hstop⟩ := hd.registered v l hl
      exact ⟨x,hkeep hx,hxv,hstop⟩
  · rcases hloops hx with hx | ⟨rfl,rfl⟩
    · have hr := hd.running l x hx hstop
      rw [hreg]
      · exact hr
      · intro hxw
        rw [hxw,hnone] at hr
        cases hr
    · exact hself
  · by_cases hvw : v = w
    · subst hvw
      rw [hself] at hl
      cases hl
      rcases hloops hx with hx | ⟨rfl,rfl⟩
      · have := (List.getElem?_eq_some_iff.mp hx).1
        rw [hlen] at this
        exact this.le
      · exact le_rfl
    · rw [hreg v hvw] at hl
      rcases hloops hx with hx | ⟨rfl,rfl⟩
      · exact hd.newest v l k x hl hx hv
      · exact absurd hv.symm hvw
  · rcases hloops hx with hx | ⟨rfl,rfl⟩
    · exact hd.allocated l x hx
    · rw [Controller.connect,disconnect_window]
      exact hlt
  · rcases hloops hx with hx | ⟨rfl,rfl⟩
    · exact hd.quiet l x hx hstop hsh
    · cases hstop
  · obtain ⟨x,hx,hws⟩ := hd.holder a ha
    exact ⟨x,hkeep hx,hws⟩
  · have hr := hd.queue p hp hsh
    rw [hreg]
    · exact hr
    · intro hw
      rw [hw,hnone] at hr
      cases hr

theorem next_quiet {x x' : Loop} {ok : Bool} {e : Effect} (hstop : x.stop = true)
    (hq : x.phase.Quiet) (hf : s.Fails x ok) (h : s.next x ok = some (x',e)) :
    x'.phase.Quiet ∧ (e = .idle ∨ e = .spawn) := by
  cases hp : x.phase <;>
    simp only [hp,next,Fails,hstop,if_true,Option.some.injEq,Prod.mk.injEq,reduceCtorEq] at h hf hq
  all_goals grind [Loop.goto,Loop.finish,Phase.Quiet]

theorem Epochs.loop (h : Epochs s) {l : LoopId} {ok : Bool} (hok : Orderly s (.loop l ok))
    (hs : s.step (.loop l ok) = some s') : Epochs s' := by
  obtain ⟨x,x',e,hx,hn,rfl⟩ := step_loop hs
  obtain ⟨hw,-,hst⟩ := next_keeps hn
  have hm : HoldersMatch (s.setLoop l x') := h.holders
  obtain ⟨hfw,hfr,hfl,-⟩ := perform_frame (s.setLoop l x') l x e
  obtain ⟨new,hq,hnew,hnil⟩ := perform_queue hm l x e
  -- a loop keeps its workspace and its stop flag
  have hback : ∀ {k : LoopId} {y : Loop}, ((s.setLoop l x').perform l x e).loops[k]? = some y →
      ∃ z, s.loops[k]? = some z ∧ y.ws = z.ws ∧ y.stop = z.stop := by
    intro k y hy
    rw [hfl] at hy
    rcases getElem?_setLoop hy with ⟨rfl,rfl⟩ | ⟨-,hy⟩
    · exact ⟨x,hx,hw,hst⟩
    · exact ⟨y,hy,rfl,rfl⟩
  have hforth : ∀ {k : LoopId} {z : Loop}, s.loops[k]? = some z →
      ∃ y, ((s.setLoop l x').perform l x e).loops[k]? = some y ∧ y.ws = z.ws ∧ y.stop = z.stop := by
    intro k z hz
    rw [hfl,setLoop]
    by_cases hk : l = k
    · subst hk
      rw [hx] at hz
      cases hz
      exact ⟨x',List.getElem?_set_self (List.getElem?_eq_some_iff.mp hx).1,hw,hst⟩
    · exact ⟨z,(List.getElem?_set_ne hk).trans hz,rfl,rfl⟩
  have hshows : ∀ {v}, ((s.setLoop l x').perform l x e).Shows v → s.Shows v := by
    intro v hv
    rwa [Shows,hfw] at hv
  refine ⟨?_,fun v k hk => ?_,fun k y hy hstop => ?_,fun v k j y hk hy hv => ?_,
    fun k y hy => ?_,fun k y hy hstop hsh => ?_,perform_holders hm l x e,fun a ha => ?_,
    fun p hp => ?_,fun p hp hsh => ?_⟩
  · rw [hfw]
    exact h.window
  · rw [hfr] at hk
    obtain ⟨z,hz,hzv,hzs⟩ := h.registered v k hk
    obtain ⟨y,hy,hyw,hys⟩ := hforth hz
    exact ⟨y,hy,hyw.trans hzv,hys.trans hzs⟩
  · obtain ⟨z,hz,hyw,hys⟩ := hback hy
    rw [hfr,hyw]
    exact h.running k z hz (hys.symm.trans hstop)
  · obtain ⟨z,hz,hyw,-⟩ := hback hy
    rw [hfr] at hk
    exact h.newest v k j z hk hz (hyw.symm.trans hv)
  · obtain ⟨z,hz,hyw,-⟩ := hback hy
    rw [hfw,hyw]
    exact h.allocated k z hz
  · rw [hfl] at hy
    replace hsh := hshows hsh
    rcases getElem?_setLoop hy with ⟨rfl,rfl⟩ | ⟨-,hy⟩
    · have hxs : x.stop = true := hst.symm.trans hstop
      rw [hw] at hsh
      exact (next_quiet hxs (h.quiet k x hx hxs hsh) (hok.2 x hx hxs hsh) hn).1
    · exact h.quiet k y hy hstop hsh
  · rcases perform_holder l x e ha with ha | rfl
    · obtain ⟨z,hz,hzw⟩ := h.holder a ha
      obtain ⟨y,hy,hyw,-⟩ := hforth hz
      exact ⟨y,hy,hyw.trans hzw⟩
    · obtain ⟨y,hy,hyw,-⟩ := hforth hx
      exact ⟨y,hy,hyw⟩
  · rw [hfw]
    rw [hq] at hp
    rcases List.mem_append.mp hp with hp | hp
    · exact h.pushed p hp
    · rw [(hnew p hp).2]
      exact h.allocated l x hx
  · rw [hfr]
    rw [hq] at hp
    replace hsh := hshows hsh
    rcases List.mem_append.mp hp with hp | hp
    · exact h.queue p hp hsh
    · -- a loop that pushes is not stopped, and so registered
      obtain ⟨hps,hpw⟩ := hnew p hp
      rw [hpw] at hsh
      rw [hps,hpw]
      apply h.running l x hx
      cases hxs : x.stop with
      | false => rfl
      | true =>
        rw [hnil (next_quiet hxs (h.quiet l x hx hxs hsh) (hok.2 x hx hxs hsh) hn).2] at hp
        cases hp

theorem Epochs.broker (h : Epochs s) {a : Broker.Act} (hok : Orderly s (.broker a))
    (hs : s.step (.broker a) = some s') : Epochs s' := by
  obtain ⟨ha,hs⟩ := Option.ite_none_right_eq_some.mp hs
  obtain ⟨t,ht⟩ := Option.isSome_iff_exists.mp ha
  obtain ⟨b,hb,rfl⟩ := Option.map_eq_some_iff.mp hs
  obtain ⟨-,hnext,-,hnot⟩ := Broker.task_step ht hb
  have hm : HoldersMatch (s.withBroker b) := h.holders.trans hnext.symm
  -- what the callbacks of a task push is of loops on record
  have hnew : ∀ p ∈ (s.withBroker b).queue, p ∈ s.queue ∨ ∃ x, s.loops[p.source]? = some x ∧
      x.ws = p.ws ∧ (s.Shows x.ws → x.stop = false) := by
    intro p hp
    rcases hnot with hnot | ⟨y,st,hy,hnot⟩
    · rw [← List.append_nil s.broker.notified] at hnot
      rw [withBroker_queue hnot,List.filterMap_nil,List.append_nil] at hp
      exact .inl hp
    · rw [withBroker_queue hnot] at hp
      refine (List.mem_append.mp hp).imp_right fun hp => ?_
      obtain ⟨n,hn,hc⟩ := List.mem_filterMap.mp hp
      obtain ⟨id,hid,rfl⟩ := List.mem_map.mp hn
      obtain ⟨hd,hh,rfl⟩ := Option.map_eq_some_iff.mp hc
      obtain ⟨x,hx,hxw⟩ := h.holder hd (List.mem_of_getElem? hh)
      exact ⟨x,hx,hxw,hok.2 t ht y hy id hid hd hh x hx⟩
  refine ⟨h.window,h.registered,h.running,h.newest,h.allocated,h.quiet,hm,h.holder,
    fun p hp => ?_,fun p hp hsh => ?_⟩
  · rcases hnew p hp with hp | ⟨x,hx,hxw,-⟩
    · exact h.pushed p hp
    · rw [← hxw]
      exact h.allocated _ x hx
  · rcases hnew p hp with hp | ⟨x,hx,hxw,hrun⟩
    · exact h.queue p hp hsh
    · rw [← hxw] at hsh ⊢
      exact h.running _ x hx (hrun hsh)

theorem windowInv_apply {aw : AppWindow F} (h : WindowInv aw) (w : WorkspaceId) (u : Update) :
    WindowInv (u.apply aw w) := by
  cases u with
  | state st =>
    exact (kept_meta (g := fun ws => { ws with remoteState := st }) h w (fun _ => rfl)
      (fun _ => rfl) (fun _ => rfl)).inv
  | proxy e =>
    exact (kept_meta (g := fun ws => { ws with proxyEndpoint := e }) h w (fun _ => rfl)
      (fun _ => rfl) (fun _ => rfl)).inv

/-- A call on the main thread, taken apart. -/
inductive MainStep (s : Controller F) : Act → Controller F → Prop
  | skip {a : Act} : MainStep s a s
  | start {a : Act} {w : WorkspaceId} (c : RemoteConfiguration) (ha : a.starts s = some w)
      (hw : w < s.window.ids.workspace ∨ s.Shows w) : MainStep s a (s.connect w c)
  | create (c c' : RemoteConfiguration) (port : Option UInt16) (id token : String) :
      MainStep s (.newRemoteWorkspace c' port id token)
        ({ s with window := s.window.newRemoteWorkspace c' port id token }.connect
          s.window.ids.workspace c)
  | disconnectRemote {a : Act} {w : WorkspaceId} (clear : Bool) (ha : a.stops s = some w) :
      MainStep s a { s.disconnect w with window := s.window.disconnectRemote (some w) clear }
  | remove {i : ℕ} {ws : Workspace F} {aw : AppWindow F}
      (hi : s.window.workspaces[i]? = some ws) (haw : s.window.removeWorkspaceAt i = some aw) :
      MainStep s (.removeWorkspaceAt i)
        { (if ws.remoteConfig.isSome then s.disconnect ws.id else s) with window := aw }

theorem shows_of_configOf {w : WorkspaceId} {c : RemoteConfiguration} (h : s.configOf w = some c) :
    s.Shows w := by
  obtain ⟨ws,hf,-⟩ := Option.bind_eq_some_iff.mp h
  have hid : ws.id = w := by simpa using List.find?_some hf
  exact List.mem_map.mpr ⟨ws,List.mem_of_find?_eq_some hf,hid⟩

theorem step_cases {a : Act} (hs : s.step a = some s') :
    MainStep s a s' ∨ (∃ p q, a = .deliver ∧ s.queue = p :: q ∧
      s' = { s with queue := q, window := p.update.apply s.window p.ws }) ∨
    (∃ l ok, a = .loop l ok) ∨ (∃ b, a = .broker b) ∨
    ∃ c, a = .exit c ∧ s.hasExited c = false ∧
      s' = { s with children := s.children.modify c (fun y => { y with status := .exited }) } := by
  cases a with
  | newRemoteWorkspace c port id token =>
    cases hs
    exact .inl (.create _ c port id token)
  | connect w c =>
    obtain ⟨hw,hs⟩ := Option.ite_none_right_eq_some.mp hs
    cases hs
    exact .inl (.start c rfl (.inl hw))
  | disconnectRemote id clear =>
    simp only [step] at hs
    split at hs
    · cases hs
      exact .inl .skip
    · rename_i w hw
      cases hs
      exact .inl (.disconnectRemote clear hw)
  | reconnectRemote id =>
    simp only [step] at hs
    split at hs
    · cases hs
      exact .inl .skip
    · rename_i w hw
      cases hc : s.configOf w with
      | none =>
        rw [hc] at hs
        cases hs
        exact .inl .skip
      | some c =>
        rw [hc] at hs
        cases hs
        refine .inl ?_
        rw [Option.elim,reconnect_eq]
        refine .start c ?_ (.inr (shows_of_configOf hc))
        rw [Act.starts,hw,Option.filter_some,hc]
        rfl
  | removeWorkspaceAt i =>
    obtain ⟨ws,hi,hs⟩ := Option.bind_eq_some_iff.mp hs
    obtain ⟨aw,haw,rfl⟩ := Option.map_eq_some_iff.mp hs
    exact .inl (.remove hi haw)
  | deliver =>
    simp only [step] at hs
    split at hs
    · cases hs
    · rename_i p q hq
      cases hs
      exact .inr (.inl ⟨p,q,rfl,hq,rfl⟩)
  | loop l ok => exact .inr (.inr (.inl ⟨l,ok,rfl⟩))
  | broker b => exact .inr (.inr (.inr (.inl ⟨b,rfl⟩)))
  | exit c =>
    simp only [step] at hs
    split at hs
    · cases hs
    · rename_i hc
      obtain ⟨-,hs⟩ := Option.ite_none_right_eq_some.mp hs
      cases hs
      exact .inr (.inr (.inr (.inr ⟨c,rfl,by simpa using hc,rfl⟩)))

theorem stops_of_starts {a : Act} {w : WorkspaceId} (h : a.starts s = some w) :
    a.stops s = some w := by
  cases a with
  | newRemoteWorkspace c port id token => exact h
  | connect v c => exact h
  | reconnectRemote id => exact h
  | _ => cases h

theorem disconnectRemote_ids (aw : AppWindow F) (id : Option WorkspaceId) (clear : Bool) :
    (aw.disconnectRemote id clear).ids = aw.ids := by
  unfold AppWindow.disconnectRemote AppWindow.modifyById AppWindow.modifyWs
  split
  · rfl
  · split <;> rfl

theorem apply_ids (aw : AppWindow F) (w : WorkspaceId) (u : Update) :
    (u.apply aw w).ids = aw.ids := by
  cases u with
  | state st =>
    rw [Update.apply,AppWindow.updateRemoteState,AppWindow.modifyById]
    split <;> rfl
  | proxy e =>
    rw [Update.apply,AppWindow.updateProxyEndpoint,AppWindow.modifyById]
    split <;> rfl

theorem ids_modifyById {aw : AppWindow F} (h : WindowInv aw) {w : WorkspaceId}
    {f : Workspace F → Workspace F} (hf : ∀ ws, (f ws).id = ws.id) :
    (aw.modifyById w f).workspaces.map Workspace.id = aw.workspaces.map Workspace.id := by
  rw [workspaces_modifyById h.ids_nodup,List.map_map]
  apply List.map_congr_left
  intro ws _
  rw [Function.comp_apply]
  split
  · rw [hf]
  · rfl

theorem grows_disconnectRemote {aw : AppWindow F} (h : WindowInv aw) (w : WorkspaceId)
    (clear : Bool) : Grows aw (aw.disconnectRemote (some w) clear) := by
  have hids : (aw.disconnectRemote (some w) clear).workspaces.map Workspace.id =
      aw.workspaces.map Workspace.id :=
    ids_modifyById h fun ws => by cases clear <;> rfl
  refine ⟨?_,fun v hv => .inl (hids ▸ hv)⟩
  rw [disconnectRemote_ids]

theorem grows_apply {aw : AppWindow F} (h : WindowInv aw) (w : WorkspaceId) (u : Update) :
    Grows aw (u.apply aw w) := by
  have hids : (u.apply aw w).workspaces.map Workspace.id = aw.workspaces.map Workspace.id := by
    cases u with
    | state st => exact ids_modifyById h fun _ => rfl
    | proxy e => exact ids_modifyById h fun _ => rfl
  refine ⟨?_,fun v hv => .inl (hids ▸ hv)⟩
  rw [apply_ids]

theorem grows_newRemoteWorkspace (aw : AppWindow F) (c : RemoteConfiguration)
    (port : Option UInt16) (id token : String) :
    Grows aw (aw.newRemoteWorkspace c port id token) := by
  refine ⟨Nat.le_succ _,fun w hw => ?_⟩
  replace hw : w ∈ (aw.workspaces ++ [_]).map Workspace.id := hw
  rw [List.map_append,List.mem_append] at hw
  exact hw.imp_right List.mem_singleton.mp

theorem removeWorkspaceAt_eq {aw aw' : AppWindow F} {i : ℕ}
    (h : aw.removeWorkspaceAt i = some aw') :
    aw' = { aw with workspaces := aw.workspaces.eraseIdx i } := by
  obtain ⟨-,h⟩ := Option.ite_none_right_eq_some.mp h
  cases h
  rfl

theorem grows_removeWorkspaceAt {aw aw' : AppWindow F} {i : ℕ}
    (h : aw.removeWorkspaceAt i = some aw') : Grows aw aw' := by
  rw [removeWorkspaceAt_eq h]
  exact ⟨le_rfl,fun w hw => .inl (List.map_subset _ List.eraseIdx_subset hw)⟩

/-- The window of a step: none of its old ids is given to another workspace. -/
theorem step_grows {a : Act} (h : WindowInv s.window) (hs : s.step a = some s') :
    Grows s.window s'.window := by
  obtain hm | ⟨p,q,rfl,hq,rfl⟩ | ⟨l,ok,rfl⟩ | ⟨b,rfl⟩ | ⟨c,rfl,-,rfl⟩ := step_cases hs
  · cases hm with
    | skip => exact .refl _
    | start c ha hw =>
      rw [connect,disconnect_window]
      exact .refl _
    | create c c' port id token =>
      rw [connect,disconnect_window]
      exact grows_newRemoteWorkspace s.window c' port id token
    | disconnectRemote clear ha => exact grows_disconnectRemote h _ clear
    | remove hi haw => exact grows_removeWorkspaceAt haw
  · exact grows_apply h p.ws p.update
  · obtain ⟨x,x',e,-,-,rfl⟩ := step_loop hs
    rw [(perform_frame _ l x e).1]
    exact .refl _
  · obtain ⟨-,hs⟩ := Option.ite_none_right_eq_some.mp hs
    obtain ⟨b',-,rfl⟩ := Option.map_eq_some_iff.mp hs
    exact .refl _
  · exact .refl _

/-- The workspace that is closed is gone before its loop is stopped. -/
theorem Epochs.remove (h : Epochs s) {i : ℕ} {ws : Workspace F} {aw : AppWindow F}
    (hi : s.window.workspaces[i]? = some ws) (haw : s.window.removeWorkspaceAt i = some aw) :
    Epochs { (if ws.remoteConfig.isSome then s.disconnect ws.id else s) with window := aw } := by
  have hw := h.withWindow (inv_removeWorkspaceAt h.window haw) (grows_removeWorkspaceAt haw)
  have hgone : ws.id ∉ aw.workspaces.map Workspace.id := by
    rw [removeWorkspaceAt_eq haw]
    intro hm
    obtain ⟨y,hy,hid⟩ := List.mem_map.mp hm
    obtain ⟨j,hj,hjy⟩ := List.mem_eraseIdx_iff_getElem?.mp hy
    refine hj ((List.getElem?_inj ?_ h.window.ids_nodup).mp ?_)
    · rw [List.length_map]
      exact (List.getElem?_eq_some_iff.mp hjy).1
    · rw [List.getElem?_map,List.getElem?_map,hi,hjy,Option.map_some,Option.map_some,hid]
  split
  · have hd := hw.disconnect (w := ws.id) (fun hsh => absurd hsh hgone)
    have heq : { s.disconnect ws.id with window := aw } =
        { s with window := aw }.disconnect ws.id := by
      unfold Controller.disconnect
      dsimp only
      split <;> rfl
    rw [heq]
    exact hd
  · exact hw

theorem Epochs.step {a : Act} (h : Epochs s) (hok : Orderly s a) (hs : s.step a = some s') :
    Epochs s' := by
  obtain hm | ⟨p,q,rfl,hq,rfl⟩ | ⟨l,ok,rfl⟩ | ⟨b,rfl⟩ | ⟨c,rfl,-,rfl⟩ := step_cases hs
  · cases hm with
    | skip => exact h
    | start c ha hw =>
      refine h.connect (hok.1 _ (stops_of_starts ha)) ?_ c
      rcases hw with hw | hw
      · exact hw
      · obtain ⟨ws,hws,rfl⟩ := List.mem_map.mp hw
        exact h.window.ids_lt ws hws
    | create c c' port id token =>
      have hw := h.withWindow (kept_newRemoteWorkspace h.window c' port id token).inv
        (grows_newRemoteWorkspace s.window c' port id token)
      refine hw.connect (fun _ l hl x hx => ?_) (Nat.lt_succ_self _) c
      -- no loop has the id of a workspace that is not yet there
      obtain ⟨y,hy,hyw,-⟩ := h.registered _ l hl
      exact absurd (h.allocated l y hy) (hyw ▸ lt_irrefl _)
    | disconnectRemote clear ha =>
      refine (h.disconnect (hok.1 _ ha)).withWindow (kept_disconnectRemote h.window _ clear).inv ?_
      rw [disconnect_window]
      exact grows_disconnectRemote h.window _ clear
    | remove hi haw => exact h.remove hi haw
  · have hw := h.withWindow (windowInv_apply h.window p.ws p.update)
      (grows_apply h.window p.ws p.update)
    have hmem : ∀ r ∈ q, r ∈ s.queue := fun r hr => hq ▸ List.mem_cons_of_mem _ hr
    exact ⟨hw.window,hw.registered,hw.running,hw.newest,hw.allocated,hw.quiet,hw.holders,
      hw.holder,fun r hr => hw.pushed r (hmem r hr),fun r hr => hw.queue r (hmem r hr)⟩
  · exact h.loop hok hs
  · exact h.broker hok hs
  · exact ⟨h.window,h.registered,h.running,h.newest,h.allocated,h.quiet,h.holders,h.holder,
      h.pushed,h.queue⟩

/-- What the window shows of the connection of a workspace. -/
def shown (ws : Workspace F) : RemoteConnectionState × Option ProxyEndpoint :=
  (ws.remoteState,ws.proxyEndpoint)

/-- The loop started last for a workspace, if it was not stopped. -/
def Newest (s : Controller F) (w : WorkspaceId) (l : LoopId) : Prop :=
  s.registry.lookup w = some l ∧ (∃ x, s.loops[l]? = some x ∧ x.ws = w ∧ x.stop = false) ∧
    ∀ k x, s.loops[k]? = some x → x.ws = w → k ≤ l

theorem Epochs.of_queue (h : Epochs s) {p : Push} (hp : p ∈ s.queue) (hw : s.Shows p.ws) :
    s.Newest p.ws p.source :=
  ⟨h.queue p hp hw,h.registered _ _ (h.queue p hp hw),fun k x => h.newest _ _ k x (h.queue p hp hw)⟩

/-- A step changes what is shown of a workspace only if it disconnects it or delivers a
push of its newest loop. -/
def ShownBy (s : Controller F) (a : Act) (s' : Controller F) : Prop :=
  ∀ ws ∈ s.window.workspaces, ∀ ws' ∈ s'.window.workspaces, ws'.id = ws.id →
    shown ws' = shown ws ∨ (a.stops s = some ws.id ∧ ws'.remoteState = .disconnected ∧
      ws'.proxyEndpoint = ws.proxyEndpoint) ∨
    ∃ p q, a = .deliver ∧ s.queue = p :: q ∧ p.ws = ws.id ∧ s.Newest ws.id p.source

theorem of_modifyById {aw : AppWindow F} (h : WindowInv aw) {w : WorkspaceId}
    {f : Workspace F → Workspace F} (hf : ∀ ws, (f ws).id = ws.id) {ws ws' : Workspace F}
    (hm : ws ∈ aw.workspaces) (hm' : ws' ∈ (aw.modifyById w f).workspaces)
    (hid : ws'.id = ws.id) : ws' = if ws.id = w then f ws else ws := by
  rw [workspaces_modifyById h.ids_nodup] at hm'
  obtain ⟨y,hy,rfl⟩ := List.mem_map.mp hm'
  have hyid : y.id = ws.id := by
    rw [← hid]
    split
    · rw [hf]
    · rfl
  rw [h.eq_of_id hm hy hyid]

theorem shownBy_same {a : Act} (h : Epochs s) (hw : s'.window = s.window) : ShownBy s a s' := by
  intro ws hm ws' hm' hid
  rw [hw] at hm'
  rw [h.window.eq_of_id hm hm' hid]
  exact .inl rfl

theorem Epochs.shownBy {a : Act} (h : Epochs s) (hs : s.step a = some s') : ShownBy s a s' := by
  obtain hmain | ⟨p,q,rfl,hq,rfl⟩ | ⟨l,ok,rfl⟩ | ⟨b,rfl⟩ | ⟨c,rfl,-,rfl⟩ := step_cases hs
  · cases hmain with
    | skip => exact shownBy_same h rfl
    | start c ha hw => exact shownBy_same h (disconnect_window s _)
    | create c c' port id token =>
      intro ws hm ws' hm' hid
      rw [Controller.connect,disconnect_window] at hm'
      rcases List.mem_append.mp hm' with hm' | hm'
      · rw [h.window.eq_of_id hm hm' hid]
        exact .inl rfl
      · -- the id of the new workspace is above all others
        rw [List.mem_singleton.mp hm'] at hid
        exact absurd hid (h.window.ids_lt ws hm).ne'
    | disconnectRemote clear ha =>
      rename_i w
      intro ws hm ws' hm' hid
      have := of_modifyById (f := fun ws => if clear then
        { ws with remoteState := .disconnected, remoteConfig := none }
        else { ws with remoteState := .disconnected }) h.window
        (fun ws => by cases clear <;> rfl) hm hm' hid
      split at this
      · rename_i hw
        refine .inr (.inl ⟨ha.trans (congrArg some hw.symm),?_⟩)
        rw [this]
        split <;> exact ⟨rfl,rfl⟩
      · rw [this]
        exact .inl rfl
    | remove hi haw =>
      intro ws hm ws' hm' hid
      rw [removeWorkspaceAt_eq haw] at hm'
      rw [h.window.eq_of_id hm (List.eraseIdx_subset hm') hid]
      exact .inl rfl
  · intro ws hm ws' hm' hid
    by_cases hw : ws.id = p.ws
    · refine .inr (.inr ⟨p,q,rfl,hq,hw.symm,?_⟩)
      rw [hw]
      exact h.of_queue (hq ▸ List.mem_cons_self) (hw ▸ List.mem_map_of_mem hm)
    · left
      cases hu : p.update with
      | state st =>
        rw [hu] at hm'
        rw [of_modifyById (f := fun ws => { ws with remoteState := st }) h.window
          (fun _ => rfl) hm hm' hid,if_neg hw]
      | proxy e =>
        rw [hu] at hm'
        rw [of_modifyById (f := fun ws => { ws with proxyEndpoint := e }) h.window
          (fun _ => rfl) hm hm' hid,if_neg hw]
  · obtain ⟨x,x',e,-,-,rfl⟩ := step_loop hs
    exact shownBy_same h (perform_frame _ l x e).1
  · obtain ⟨-,hs⟩ := Option.ite_none_right_eq_some.mp hs
    obtain ⟨b',-,rfl⟩ := Option.map_eq_some_iff.mp hs
    exact shownBy_same h rfl
  · exact shownBy_same h rfl

/-- A workspace that was disconnected and not connected since. -/
structure Off (s : Controller F) (w : WorkspaceId) : Prop where
  registry : s.registry.lookup w = none
  id_lt : w < s.window.ids.workspace
  state : ∀ ws ∈ s.window.workspaces, ws.id = w → ws.remoteState = .disconnected

theorem step_unregistered {a : Act} {w : WorkspaceId} (hw : s.registry.lookup w = none)
    (ha : a.starts s ≠ some w) (hs : s.step a = some s') : s'.registry.lookup w = none := by
  have hd : ∀ v, (s.disconnect v).registry.lookup w = none := by
    intro v
    rw [disconnect_registry,hw]
    split <;> rfl
  obtain hmain | ⟨p,q,rfl,hq,rfl⟩ | ⟨l,ok,rfl⟩ | ⟨b,rfl⟩ | ⟨c,rfl,-,rfl⟩ := step_cases hs
  · cases hmain with
    | skip => exact hw
    | start c hv =>
      rw [connect_registry,if_neg]
      · exact hw
      · rintro rfl
        exact ha hv
    | create c c' port id token =>
      rw [connect_registry,if_neg]
      · exact hw
      · rintro rfl
        exact ha rfl
    | disconnectRemote clear ha => exact hd _
    | remove hi haw =>
      split
      · exact hd _
      · exact hw
  · exact hw
  · obtain ⟨x,x',e,-,-,rfl⟩ := step_loop hs
    rw [(perform_frame _ l x e).2.1]
    exact hw
  · obtain ⟨-,hs⟩ := Option.ite_none_right_eq_some.mp hs
    obtain ⟨b',-,rfl⟩ := Option.map_eq_some_iff.mp hs
    exact hw
  · exact hw

theorem Off.step {a : Act} {w : WorkspaceId} (h : Off s w) (he : Epochs s)
    (ha : a.starts s ≠ some w) (hs : s.step a = some s') : Off s' w := by
  have hg := step_grows he.window hs
  refine ⟨step_unregistered h.registry ha hs,lt_of_lt_of_le h.id_lt hg.ids,fun ws' hm' hid' => ?_⟩
  have hw := hg.shows h.id_lt (List.mem_map.mpr ⟨ws',hm',hid'⟩)
  obtain ⟨ws,hm,hid⟩ := List.mem_map.mp hw
  rcases he.shownBy hs ws hm ws' hm' (hid'.trans hid.symm) with hsh | ⟨-,hst,-⟩ | ⟨p,q,-,-,-,hn⟩
  · exact (congrArg Prod.fst hsh).trans (h.state ws hm hid)
  · exact hst
  · rw [hid,Newest,h.registry] at hn
    cases hn.1

theorem Off.disconnected {a : Act} {id : Option WorkspaceId} {clear : Bool} {w : WorkspaceId}
    (he : Epochs s) (ha : a = .disconnectRemote id clear) (hw : a.stops s = some w)
    (hm : s.Shows w) (hs : s.step a = some s') : Off s' w := by
  subst ha
  have hw : id.or s.window.defaultRemote = some w := hw
  rw [Controller.step,hw] at hs
  cases hs
  obtain ⟨ws,hws,rfl⟩ := List.mem_map.mp hm
  refine ⟨?_,?_,fun ws' hm' hid => ?_⟩
  · rw [disconnect_registry,if_pos rfl]
  · rw [disconnectRemote_ids]
    exact he.window.ids_lt ws hws
  · have := of_modifyById (f := fun ws => if clear then
      { ws with remoteState := .disconnected, remoteConfig := none }
      else { ws with remoteState := .disconnected }) he.window
      (fun ws => by cases clear <;> rfl) hws hm' hid
    rw [if_pos rfl] at this
    rw [this]
    split <;> rfl

/-- While loops are stopped only when they are calm: every queued push to an open
workspace is of its newest loop, nothing else changes what is shown, and a disconnected
workspace stays disconnected until it is connected again. -/
theorem shown_by_newest {aw : AppWindow F} {localSocket : String} (hw : WindowInv aw)
    (h : Reach step Orderly (init aw localSocket) s) :
    (∀ p ∈ s.queue, s.Shows p.ws → s.Newest p.ws p.source) ∧
    ∀ a s', s.step a = some s' → ShownBy s a s' ∧
      ∀ id clear w, a = .disconnectRemote id clear → a.stops s = some w → Orderly s a →
        s.Shows w → ∀ s'', Reach step (fun s a => Orderly s a ∧ a.starts s ≠ some w) s' s'' →
          ∀ ws ∈ s''.window.workspaces, ws.id = w → ws.remoteState = .disconnected := by
  have he : Epochs s := h.inv (epochs_init hw localSocket) (fun _ _ _ h hok hs => h.step hok hs)
  refine ⟨fun p hp hw => he.of_queue hp hw,fun a s' hs => ⟨he.shownBy hs,?_⟩⟩
  intro id clear w ha hst hok hm s'' hr
  have hoff : Epochs s'' ∧ Off s'' w := by
    refine hr.inv (P := fun s => Epochs s ∧ Off s w)
      ⟨he.step hok hs,.disconnected he ha hst hm hs⟩ ?_
    rintro r b r' ⟨hre,hro⟩ ⟨hok',hne⟩ hs'
    exact ⟨hre.step hok' hs',hro.step hre hne hs'⟩
  exact hoff.2.state

instance (p : Phase) : Decidable p.Quiet := by
  cases p <;> first | exact .isTrue trivial | exact .isFalse id

instance (s : Controller F) (x : Loop) (ok : Bool) : Decidable (s.Fails x ok) := by
  unfold Fails
  split <;> infer_instance

instance (s : Controller F) (w : WorkspaceId) : Decidable (s.Shows w) := by
  unfold Shows
  infer_instance

instance (s : Controller F) (w : WorkspaceId) : Decidable (s.Calm w) := by
  unfold Calm
  infer_instance

instance (s : Controller F) (a : Broker.Act) : Decidable (s.CallsRunning a) := by
  unfold CallsRunning
  infer_instance

instance (s : Controller F) (a : Act) : Decidable (Orderly s a) := by
  unfold Orderly
  split <;> infer_instance

/-- A first attempt that fails: the loop sleeps until its retry. -/
def offlineActs : List Act :=
  [.newRemoteWorkspace ⟨"dev",none,none,[],none,none,none,none,none⟩ (some 4100) "id" "token",
    .loop 0 true,.loop 0 true,.loop 0 true,.deliver,.loop 0 false,.loop 0 true,.loop 0 true,
    .deliver]

theorem shown_by_newest_offline : ∃ s s' s'',
    run step Orderly (init AppWindow.start "/run/limux.sock") offlineActs = some s ∧
    s.step (.disconnectRemote (some 1) false) = some s' ∧
    run step (fun s a => Orderly s a ∧ a.starts s ≠ some 1) s' [.loop 0 true,.loop 0 true] =
      some s'' ∧
    s''.window.workspaces.map Workspace.id = [1] ∧
    ∀ ws ∈ s''.window.workspaces, ws.id = 1 → ws.remoteState = .disconnected := by
  refine ⟨_,_,_,rfl,rfl,rfl,rfl,?_⟩
  have hr : Reach step Orderly (init AppWindow.start "/run/limux.sock") _ :=
    reach_of_run offlineActs rfl
  have hoff := ((shown_by_newest (Reachable.windowInv (.empty rfl)) hr).2
    (.disconnectRemote (some 1) false) _ rfl).2 (some 1) false 1 rfl rfl (by decide) (by decide)
  exact hoff _ (reach_of_run [.loop 0 true,.loop 0 true] rfl)

def busyActs : List Act :=
  [.newRemoteWorkspace ⟨"dev",none,none,[],none,none,none,none,none⟩ (some 4100) "id" "token",
    .loop 0 true,.loop 0 true,.loop 0 true,.deliver]

/-- The bootstrap succeeds after the disconnect: the loop sees the stop flag, returns
success, and the window shows a connection. -/
theorem stopped_loop_shows_connected : ∃ s s' s'',
    Reach step anyStep (init AppWindow.start "/run/limux.sock") s ∧
    s.step (.disconnectRemote (some 1) false) = some s' ∧
    Reach step (fun s a => a.starts s ≠ some 1) s' s'' ∧
    s'.window.workspaces.map (fun ws => (ws.id,ws.remoteState)) = [(1,.disconnected)] ∧
    s''.window.workspaces.map (fun ws => (ws.id,ws.remoteState)) = [(1,.connected)] ∧
    s''.registry.lookup 1 = none := by
  refine ⟨_,_,_,reach_of_run busyActs rfl,rfl,
    reach_of_run [.loop 0 true,.loop 0 true,.loop 0 true,.deliver] rfl,rfl,rfl,rfl⟩

end Controller

end Limux
