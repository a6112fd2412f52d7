import Limux.Controller

/-! What the steps of the controller change: loops one at a time, the window by
pushes and by calls on the main thread. -/
namespace Limux

open Machine

variable {F : Type}

theorem findWorkspaceById_none {aw : AppWindow F} {w : WorkspaceId}
    (h : aw.findWorkspaceById w = none) {ws : Workspace F} (hws : ws ∈ aw.workspaces) :
    ws.id ≠ w := by
  intro hid
  obtain ⟨i,hi⟩ := List.mem_iff_getElem?.mp hws
  have := List.findSome?_eq_none_iff.mp h (ws,i) (List.mem_zipIdx_iff_getElem?.mpr hi)
  simp [hid] at this

theorem WindowInv.eq_of_id {aw : AppWindow F} (h : WindowInv aw) {ws ws' : Workspace F}
    (hws : ws ∈ aw.workspaces) (hws' : ws' ∈ aw.workspaces) (hid : ws'.id = ws.id) : ws' = ws :=
  List.inj_on_of_nodup_map h.ids_nodup hws' hws hid

/-- With distinct ids, an update by id is an update of all workspaces with it. -/
theorem workspaces_modifyById {aw : AppWindow F} (h : (aw.workspaces.map Workspace.id).Nodup)
    (w : WorkspaceId) (f : Workspace F → Workspace F) :
    (aw.modifyById w f).workspaces =
      aw.workspaces.map (fun ws => if ws.id = w then f ws else ws) := by
  unfold AppWindow.modifyById
  split
  · rename_i i ws _ hf
    obtain ⟨hi,hw⟩ := findWs_spec hf
    have hid : ws.id = w := by
      by_contra hne
      simp [hne] at hw
    apply List.ext_getElem?
    intro j
    rw [AppWindow.modifyWs,List.getElem?_modify,List.getElem?_map]
    cases hj : aw.workspaces[j]? with
    | none => simp
    | some y =>
      by_cases hij : i = j
      · subst hij
        rw [hi] at hj
        cases hj
        simp [hid]
      · have hne : y.id ≠ w := by
          intro hy
          refine hij ((List.getElem?_inj ?_ h).mp ?_)
          · rw [List.length_map]
            exact (List.getElem?_eq_some_iff.mp hi).1
          · rw [List.getElem?_map,List.getElem?_map,hi,hj,Option.map_some,Option.map_some,hid,hy]
        simp [hij,hne]
  · rename_i hf
    symm
    calc aw.workspaces.map (fun ws => if ws.id = w then f ws else ws)
        = aw.workspaces.map id := List.map_congr_left fun ws hws => by
          simp [findWorkspaceById_none hf hws]
      _ = aw.workspaces := List.map_id _

namespace Controller

variable {s s' : Controller F}

/-! Calls on the main thread. -/

theorem disconnect_window (s : Controller F) (w : WorkspaceId) :
    (s.disconnect w).window = s.window := by
  unfold disconnect
  split <;> rfl

theorem disconnect_queue (s : Controller F) (w : WorkspaceId) :
    (s.disconnect w).queue = s.queue := by
  unfold disconnect
  split <;> rfl

theorem disconnect_registry (s : Controller F) (w v : WorkspaceId) :
    (s.disconnect w).registry.lookup v = if v = w then none else s.registry.lookup v := by
  unfold disconnect
  split
  · exact HashMap.lookup_erase_ite _ _ _
  · rename_i hl
    split
    · rename_i hv
      rw [hv,hl]
    · rfl

theorem disconnect_loops (s : Controller F) (w : WorkspaceId) (l : LoopId) :
    (s.disconnect w).loops[l]? = s.loops[l]?.map (fun x =>
      if s.registry.lookup w = some l then { x with stop := true } else x) := by
  unfold disconnect
  split
  · rename_i k hk
    rw [List.getElem?_modify,hk]
    by_cases h : k = l
    · simp [h]
    · simp [h]
  · rename_i hk
    simp [hk]

theorem disconnect_length (s : Controller F) (w : WorkspaceId) :
    (s.disconnect w).loops.length = s.loops.length := by
  unfold disconnect
  split
  · exact List.length_modify ..
  · rfl

/-- A loop as `connect` starts it. -/
def Loop.fresh (w : WorkspaceId) (c : RemoteConfiguration) : Loop :=
  ⟨w,c,false,.starting,none,none,[],[]⟩

theorem connect_loops (s : Controller F) (w : WorkspaceId) (c : RemoteConfiguration) :
    (s.connect w c).loops = (s.disconnect w).loops ++ [.fresh w c] := rfl

theorem connect_registry (s : Controller F) (w v : WorkspaceId) (c : RemoteConfiguration) :
    (s.connect w c).registry.lookup v =
      if v = w then some s.loops.length else s.registry.lookup v := by
  show ((s.disconnect w).registry.insert w (s.disconnect w).loops.length).lookup v = _
  rw [HashMap.lookup_insert_ite,disconnect_length,disconnect_registry]
  split <;> rfl

/-- A second stop changes nothing. -/
theorem reconnect_eq (s : Controller F) (w : WorkspaceId) (c : RemoteConfiguration) :
    s.reconnect w c = s.connect w c := by
  have h : (s.disconnect w).disconnect w = s.disconnect w := by
    have hr : (s.disconnect w).registry.lookup w = none := by
      rw [disconnect_registry,if_pos rfl]
    rw [disconnect,hr]
  rw [reconnect,connect,h,connect]

/-! Steps of a loop. -/

theorem next_keeps {x x' : Loop} {ok : Bool} {e : Effect} (h : s.next x ok = some (x',e)) :
    x'.ws = x.ws ∧ x'.config = x.config ∧ x'.stop = x.stop := by
  unfold next at h
  split at h <;> grind [Loop.goto,Loop.finish]

/-- Outside of the loop itself, its steps change neither window nor registry. -/
theorem perform_frame (s : Controller F) (l : LoopId) (x : Loop) (e : Effect) :
    (s.perform l x e).window = s.window ∧ (s.perform l x e).registry = s.registry ∧
    (s.perform l x e).loops = s.loops ∧ (s.perform l x e).localSocket = s.localSocket := by
  cases e with
  | release id =>
    rw [perform]
    cases s.broker.step (.drop id) <;> exact ⟨rfl,rfl,rfl,rfl⟩
  | kill =>
    rw [perform]
    cases s.slot <;> exact ⟨rfl,rfl,rfl,rfl⟩
  | _ => exact ⟨rfl,rfl,rfl,rfl⟩

theorem acquire_notified (b : Broker) (key : String) :
    ∃ st, (b.acquire key).notified = b.notified ++ [(b.nextLease,st)] := by
  unfold Broker.acquire
  dsimp only
  split <;> exact ⟨_,rfl⟩

theorem acquire_nextLease (b : Broker) (key : String) :
    (b.acquire key).nextLease = b.nextLease+1 := by
  unfold Broker.acquire
  dsimp only
  split <;> rfl

theorem drop_step {b b' : Broker} {id : Broker.LeaseId} (h : b.step (.drop id) = some b') :
    b'.nextLease = b.nextLease ∧ b'.notified = b.notified := by
  obtain ⟨y,-,rfl⟩ := Option.map_eq_some_iff.mp h
  exact ⟨Broker.dropLease_nextLease _ _ _,Broker.dropLease_notified _ _ _⟩

theorem withBroker_queue {b : Broker} {new : List (Broker.LeaseId × Broker.ProxyState)}
    (h : b.notified = s.broker.notified ++ new) :
    (s.withBroker b).queue = s.queue ++ new.filterMap s.callbackPush := by
  rw [withBroker,h,List.drop_left]

def HoldersMatch (s : Controller F) : Prop := s.holders.length = s.broker.nextLease

theorem perform_holders (h : HoldersMatch s) (l : LoopId) (x : Loop) (e : Effect) :
    HoldersMatch (s.perform l x e) := by
  cases e with
  | acquire =>
    show (s.holders ++ [(l,x.ws)]).length = (s.broker.acquire _).nextLease
    rw [List.length_append,acquire_nextLease,h]
    rfl
  | release id =>
    rw [perform]
    cases hb : s.broker.step (.drop id) with
    | none => exact h
    | some b => exact h.trans (drop_step hb).1.symm
  | kill =>
    rw [perform]
    cases s.slot <;> exact h
  | _ => exact h

/-- The pushes a step of a loop makes are its own. -/
theorem perform_queue (h : HoldersMatch s) (l : LoopId) (x : Loop) (e : Effect) :
    ∃ new, (s.perform l x e).queue = s.queue ++ new ∧
      (∀ p ∈ new, p.source = l ∧ p.ws = x.ws) ∧ (e = .idle ∨ e = .spawn → new = []) := by
  cases e with
  | push u =>
    refine ⟨[⟨l,x.ws,u⟩],rfl,fun p hp => ?_,by simp⟩
    rw [List.mem_singleton.mp hp]
    exact ⟨rfl,rfl⟩
  | acquire =>
    obtain ⟨st,hn⟩ := acquire_notified s.broker x.config.transportKey
    refine ⟨_,withBroker_queue (s := { s with holders := s.holders ++ [(l,x.ws)] }) hn,?_,by simp⟩
    intro p hp
    obtain ⟨n,hm,hn⟩ := List.mem_filterMap.mp hp
    rw [List.mem_singleton.mp hm,callbackPush,← h,List.getElem?_concat_length] at hn
    cases hn
    exact ⟨rfl,rfl⟩
  | release id =>
    refine ⟨[],?_,by simp,by simp⟩
    rw [perform,List.append_nil]
    cases hb : s.broker.step (.drop id) with
    | none => rfl
    | some b =>
      have hn := (drop_step hb).2
      rw [← List.append_nil s.broker.notified] at hn
      exact (withBroker_queue hn).trans (List.append_nil _)
  | kill =>
    refine ⟨[],?_,by simp,by simp⟩
    rw [perform,List.append_nil]
    cases s.slot <;> rfl
  | idle | spawn | store c | take => exact ⟨[],(List.append_nil _).symm,by simp,by simp⟩

theorem perform_holder (l : LoopId) (x : Loop) (e : Effect) {h : LoopId × WorkspaceId}
    (hm : h ∈ (s.perform l x e).holders) : h ∈ s.holders ∨ h = (l,x.ws) := by
  cases e with
  | acquire =>
    have hm : h ∈ s.holders ++ [(l,x.ws)] := hm
    rwa [List.mem_append,List.mem_singleton] at hm
  | release id =>
    rw [perform] at hm
    cases hb : s.broker.step (.drop id) <;> (rw [hb] at hm; exact .inl hm)
  | kill =>
    rw [perform] at hm
    split at hm <;> exact .inl hm
  | _ => exact .inl hm

theorem step_loop {l : LoopId} {ok : Bool} (hs : s.step (.loop l ok) = some s') :
    ∃ x x' e, s.loops[l]? = some x ∧ s.next x ok = some (x',e) ∧
      s' = (s.setLoop l x').perform l x e := by
  obtain ⟨x,hx,hs⟩ := Option.bind_eq_some_iff.mp hs
  obtain ⟨⟨x',e⟩,hn,rfl⟩ := Option.map_eq_some_iff.mp hs
  exact ⟨x,x',e,hx,hn,rfl⟩

theorem getElem?_setLoop {l k : LoopId} {x' y : Loop}
    (hy : (s.setLoop l x').loops[k]? = some y) :
    k = l ∧ y = x' ∨ k ≠ l ∧ s.loops[k]? = some y := by
  rw [setLoop,List.getElem?_set] at hy
  split at hy
  · rename_i hk
    split at hy
    · cases hy
      exact .inl ⟨hk.symm,rfl⟩
    · cases hy
  · rename_i hk
    exact .inr ⟨fun h => hk h.symm,hy⟩

end Controller

end Limux
