import Limux.ControllerRelay

/-! Who owns the tunnel child in the slot: with one loop at a time between storing its
child and leaving `monitor_tunnel`, each loop watches and kills its own. -/
namespace Limux

open Machine

namespace Controller

variable {F : Type}

def OwnedBy (s : Controller F) (l : LoopId) (c : ChildId) : Prop :=
  s.children[c]?.map Child.owner = some l

/-- The slot is empty or holds a child of the loop. -/
def SlotOwn (s : Controller F) (l : LoopId) : Prop := ∀ c ∈ s.slot, s.OwnedBy l c

/-- In `monitor_tunnel`. -/
def Phase.Monitors : Phase → Prop
  | .monitor | .probe | .exited => True
  | _ => False

/-- In an attempt, before its tunnel is stored. -/
def Phase.Before : Phase → Prop
  | .bootstrap | .bootstrapped | .relay | .relayed | .tunnel | .tunnelWait _ => True
  | _ => False

/-- Between the place where the tunnel is stored and the return of `monitor_tunnel`. -/
def Phase.Holds : Phase → Prop
  | .settle | .metadata | .pushConnected | .acquireLease | .monitor | .probe | .exited => True
  | _ => False

/-- A loop stores its child while the slot is its own and no other loop monitors, and
enters `monitor_tunnel` while the slot is its own. -/
def Alone (s : Controller F) : Act → Prop
  | .loop l ok => ∀ x ∈ s.loops[l]?,
    match x.phase with
    | .tunnelWait c => s.hasExited c = true ∨ ok = false ∨
        (s.SlotOwn l ∧ ∀ e ∈ s.loops.zipIdx, e.2 ≠ l → ¬ e.1.phase.Monitors)
    | .acquireLease => s.SlotOwn l
    | _ => True
  | _ => True

structure Owned (s : Controller F) : Prop where
  wait : ∀ (l : LoopId) (x : Loop) (c : ChildId), s.loops[l]? = some x →
    x.phase = .tunnelWait c → s.OwnedBy l c
  tunnel : ∀ (l : LoopId) (x : Loop) (c : ChildId), s.loops[l]? = some x → x.tunnel = some c →
    s.OwnedBy l c
  before : ∀ (l : LoopId) (x : Loop), s.loops[l]? = some x → x.phase.Before → x.tunnel = none
  monitors : ∀ (l : LoopId) (x : Loop), s.loops[l]? = some x → x.phase.Monitors → s.SlotOwn l
  holds : ∀ (l : LoopId) (x : Loop) (c : ChildId), s.loops[l]? = some x → x.phase.Holds →
    x.tunnel = some c → s.slot = some c

variable {s s' : Controller F}

theorem next_tunnel {x x' : Loop} {ok : Bool} {e : Effect} (h : s.next x ok = some (x',e)) :
    (∃ c, x.phase = .tunnelWait c ∧ s.hasExited c = false ∧ ok = true ∧
      x' = { x.goto .settle with tunnel := some c } ∧ e = .store c) ∨
    (x.phase.Monitors ∧ x' = x.goto .dropLease ∧ (e = .kill ∨ e = .take)) ∨
    (x.phase = .tunnel ∧ x' = x.goto (.tunnelWait s.children.length) ∧ e = .spawn) ∨
    ((∀ c, e ≠ .store c) ∧ e ≠ .kill ∧ e ≠ .take ∧ e ≠ .spawn ∧ (∀ c, x'.phase ≠ .tunnelWait c) ∧
      (x'.tunnel = none ∨ x'.tunnel = x.tunnel ∧ (x'.phase.Before → x.phase.Before) ∧
        (x'.phase.Holds → x.phase.Holds ∨ x.phase.Before)) ∧
      (x'.phase.Monitors → x.phase.Monitors ∨ x.phase = .acquireLease)) := by
  cases hp : x.phase <;> simp only [next,hp] at h
  case tunnelWait c =>
    split at h <;> cases h
    · refine .inr (.inr (.inr ⟨by simp,by simp,by simp,by simp,by simp [Loop.goto],
        .inr ⟨rfl,?_,?_⟩,?_⟩)) <;> exact False.elim
    · rename_i hc
      have hc : s.hasExited c = false ∧ ok = true := by simpa using hc
      exact .inl ⟨c,rfl,hc.1,hc.2,rfl,rfl⟩
  case dropLease =>
    cases h
    refine .inr (.inr (.inr ⟨?_,?_,?_,?_,by simp [Loop.goto],.inr ⟨rfl,False.elim,False.elim⟩,
      False.elim⟩))
    all_goals cases x.lease <;> simp [Option.elim]
  all_goals grind [Loop.goto,Loop.finish,Phase.Before,Phase.Holds,Phase.Monitors]

theorem perform_other (l : LoopId) (x : Loop) {e : Effect} (h1 : ∀ c, e ≠ .store c)
    (h2 : e ≠ .kill) (h3 : e ≠ .take) (h4 : e ≠ .spawn) :
    (s.perform l x e).slot = s.slot ∧ (s.perform l x e).children = s.children := by
  cases e with
  | store c => exact absurd rfl (h1 c)
  | kill => exact absurd rfl h2
  | take => exact absurd rfl h3
  | spawn => exact absurd rfl h4
  | release id =>
    rw [perform]
    cases s.broker.step (.drop id) <;> exact ⟨rfl,rfl⟩
  | idle | push u | acquire => exact ⟨rfl,rfl⟩

theorem perform_kill (s : Controller F) (l : LoopId) (x : Loop) :
    (s.perform l x .kill).slot = none ∧ ∀ c : ChildId, (s.perform l x .kill).children[c]? =
      s.children[c]?.map (fun y => if s.slot = some c ∧ y.status = .running then
        { y with status := .killed } else y) := by
  rw [perform]
  cases hs : s.slot with
  | none => exact ⟨hs,fun c => by simp⟩
  | some d =>
    refine ⟨rfl,fun c => ?_⟩
    show (s.children.modify d _)[c]? = _
    rw [List.getElem?_modify]
    by_cases hd : d = c
    · simp [hd]
    · simp [hd]

theorem ownedBy_map {f : Child → Child} (hf : ∀ y, (f y).owner = y.owner) {k : LoopId}
    {c : ChildId} {cs : List Child} (hc : cs[c]? = s.children[c]?.map f) (h : s.OwnedBy k c) :
    cs[c]?.map Child.owner = some k := by
  rw [hc,Option.map_map]
  rw [OwnedBy] at h
  rw [← h]
  congr 1
  funext y
  exact hf y

theorem ownedBy_perform {l k : LoopId} {x : Loop} {e : Effect} {c : ChildId}
    (h : s.OwnedBy k c) : (s.perform l x e).OwnedBy k c := by
  cases e with
  | spawn =>
    obtain ⟨y,hy,hk⟩ := Option.map_eq_some_iff.mp h
    have hlt := (List.getElem?_eq_some_iff.mp hy).1
    rw [OwnedBy,perform,List.getElem?_append_left hlt]
    exact h
  | kill =>
    refine ownedBy_map (f := fun y => if s.slot = some c ∧ y.status = .running then
      { y with status := .killed } else y) (fun y => ?_) ((perform_kill s l x).2 c) h
    split <;> rfl
  | release id =>
    rw [perform]
    cases s.broker.step (.drop id) <;> exact h
  | idle | push u | store c | take | acquire => exact h

theorem not_both {l k : LoopId} {c : ChildId} (hl : s.OwnedBy l c) (hk : s.OwnedBy k c) : l = k :=
  Option.some.inj (hl.symm.trans hk)

theorem Owned.loop (h : Owned s) {l : LoopId} {ok : Bool} (hok : Alone s (.loop l ok))
    (hs : s.step (.loop l ok) = some s') : Owned s' := by
  obtain ⟨x,x',e,hx,hn,rfl⟩ := step_loop hs
  have hok := hok x hx
  obtain ⟨-,-,hfl,-⟩ := perform_frame (s.setLoop l x') l x e
  have hown : ∀ {k c}, s.OwnedBy k c → ((s.setLoop l x').perform l x e).OwnedBy k c :=
    fun hk => ownedBy_perform hk
  -- the other loops are as they were, the loop itself is x'
  have hloops : ∀ {k : LoopId} {y : Loop}, ((s.setLoop l x').perform l x e).loops[k]? = some y →
      k = l ∧ y = x' ∨ k ≠ l ∧ s.loops[k]? = some y := by
    intro k y hy
    rw [hfl] at hy
    exact getElem?_setLoop hy
  obtain ⟨c,hp,hc,rfl,rfl,rfl⟩ | ⟨hm,rfl,he⟩ | ⟨hp,rfl,rfl⟩ | ⟨h1,h2,h3,h4,hw,ht,hm⟩ :=
    next_tunnel hn
  · -- the child is stored; no other loop has one in the slot
    rw [hp] at hok
    rcases hok with hex | hf | ⟨hslot,hmon⟩
    · rw [hc] at hex
      cases hex
    · cases hf
    have hc := h.wait l x c hx hp
    refine ⟨fun k y d hy hd => ?_,fun k y d hy hd => ?_,fun k y hy hb => ?_,fun k y hy hm => ?_,
      fun k y d hy hh hd => ?_⟩
    · rcases hloops hy with ⟨rfl,rfl⟩ | ⟨-,hy⟩
      · cases hd
      · exact hown (h.wait k y d hy hd)
    · rcases hloops hy with ⟨rfl,rfl⟩ | ⟨-,hy⟩
      · cases hd
        exact hown hc
      · exact hown (h.tunnel k y d hy hd)
    · rcases hloops hy with ⟨rfl,rfl⟩ | ⟨-,hy⟩
      · exact hb.elim
      · exact h.before k y hy hb
    · rcases hloops hy with ⟨rfl,rfl⟩ | ⟨hk,hy⟩
      · exact hm.elim
      · exact absurd hm (hmon (y,k) (List.mem_zipIdx_iff_getElem?.mpr hy) hk)
    · rcases hloops hy with ⟨rfl,rfl⟩ | ⟨hk,hy⟩
      · cases hd
        rfl
      · have hd' := h.holds k y d hy hh hd
        exact absurd (not_both (h.tunnel k y d hy hd) (hslot d hd')) hk
  · -- the slot is emptied by the loop that owns what is in it
    have hslot := h.monitors l x hx hm
    have hnone : ((s.setLoop l (x.goto .dropLease)).perform l x e).slot = none := by
      rcases he with rfl | rfl
      · exact (perform_kill _ l x).1
      · rfl
    refine ⟨fun k y d hy hd => ?_,fun k y d hy hd => ?_,fun k y hy hb => ?_,
      fun k y hy hm d hd => ?_,fun k y d hy hh hd => ?_⟩
    · rcases hloops hy with ⟨rfl,rfl⟩ | ⟨-,hy⟩
      · cases hd
      · exact hown (h.wait k y d hy hd)
    · rcases hloops hy with ⟨rfl,rfl⟩ | ⟨-,hy⟩
      · exact hown (h.tunnel k x d hx hd)
      · exact hown (h.tunnel k y d hy hd)
    · rcases hloops hy with ⟨rfl,rfl⟩ | ⟨-,hy⟩
      · exact hb.elim
      · exact h.before k y hy hb
    · rw [hnone] at hd
      cases hd
    · rcases hloops hy with ⟨rfl,rfl⟩ | ⟨hk,hy⟩
      · exact hh.elim
      · have hd' := h.holds k y d hy hh hd
        exact absurd (not_both (h.tunnel k y d hy hd) (hslot d hd')) hk
  · -- a new child of the loop
    refine ⟨fun k y d hy hd => ?_,fun k y d hy hd => ?_,fun k y hy hb => ?_,
      fun k y hy hm d hd => ?_,fun k y d hy hh hd => ?_⟩
    · rcases hloops hy with ⟨rfl,rfl⟩ | ⟨-,hy⟩
      · cases hd
        show (s.children ++ [_])[s.children.length]?.map Child.owner = some k
        rw [List.getElem?_concat_length]
        rfl
      · exact hown (h.wait k y d hy hd)
    · rcases hloops hy with ⟨rfl,rfl⟩ | ⟨-,hy⟩
      · exact hown (h.tunnel k x d hx hd)
      · exact hown (h.tunnel k y d hy hd)
    · rcases hloops hy with ⟨rfl,rfl⟩ | ⟨-,hy⟩
      · exact h.before k x hx (hp ▸ trivial)
      · exact h.before k y hy hb
    · rcases hloops hy with ⟨rfl,rfl⟩ | ⟨-,hy⟩
      · exact hm.elim
      · exact hown (h.monitors k y hy hm d hd)
    · rcases hloops hy with ⟨rfl,rfl⟩ | ⟨-,hy⟩
      · exact hh.elim
      · exact h.holds k y d hy hh hd
  · have hsame := (perform_other (s := s.setLoop l x') l x h1 h2 h3 h4).1
    refine ⟨fun k y d hy hd => ?_,fun k y d hy hd => ?_,fun k y hy hb => ?_,
      fun k y hy hmy d hd => ?_,fun k y d hy hh hd => ?_⟩
    · rcases hloops hy with ⟨rfl,rfl⟩ | ⟨-,hy⟩
      · exact absurd hd (hw d)
      · exact hown (h.wait k y d hy hd)
    · rcases hloops hy with ⟨rfl,rfl⟩ | ⟨-,hy⟩
      · rcases ht with ht | ⟨ht,-⟩
        · rw [ht] at hd
          cases hd
        · exact hown (h.tunnel k x d hx (ht ▸ hd))
      · exact hown (h.tunnel k y d hy hd)
    · rcases hloops hy with ⟨rfl,rfl⟩ | ⟨-,hy⟩
      · rcases ht with ht | ⟨ht,hbef,-⟩
        · exact ht
        · exact ht.trans (h.before k x hx (hbef hb))
      · exact h.before k y hy hb
    · rw [hsame] at hd
      rcases hloops hy with ⟨rfl,rfl⟩ | ⟨-,hy⟩
      · rcases hm hmy with hm | hp
        · exact hown (h.monitors k x hx hm d hd)
        · rw [hp] at hok
          exact hown (hok d hd)
      · exact hown (h.monitors k y hy hmy d hd)
    · rw [hsame]
      rcases hloops hy with ⟨rfl,rfl⟩ | ⟨-,hy⟩
      · rcases ht with ht | ⟨ht,-,hho⟩
        · rw [ht] at hd
          cases hd
        · rw [ht] at hd
          rcases hho hh with hh | hb
          · exact h.holds k x d hx hh hd
          · rw [h.before k x hx hb] at hd
            cases hd
      · exact h.holds k y d hy hh hd

theorem disconnect_slot (s : Controller F) (w : WorkspaceId) :
    (s.disconnect w).slot = s.slot ∧ (s.disconnect w).children = s.children := by
  unfold disconnect
  split <;> exact ⟨rfl,rfl⟩

/-- Other steps leave the slot alone; a child may end by itself. -/
theorem other_step {a : Act} (ha : ∀ l ok, a ≠ .loop l ok) (hs : s.step a = some s') :
    s'.slot = s.slot ∧ ∃ f : ChildId → Child → Child, (∀ c y, (f c y).owner = y.owner) ∧
      (∀ c y, (f c y).status = .killed → y.status = .killed) ∧
      ∀ c : ChildId, s'.children[c]? = s.children[c]?.map (f c) := by
  have hsame : ∀ {t : Controller F}, t.slot = s.slot ∧ t.children = s.children →
      t.slot = s.slot ∧ ∃ f : ChildId → Child → Child, (∀ c y, (f c y).owner = y.owner) ∧
        (∀ c y, (f c y).status = .killed → y.status = .killed) ∧
        ∀ c : ChildId, t.children[c]? = s.children[c]?.map (f c) := by
    rintro t ⟨ht,hc⟩
    exact ⟨ht,fun _ y => y,fun _ _ => rfl,fun _ _ => id,fun c => by simp [hc]⟩
  obtain hm | ⟨p,q,rfl,hq,rfl⟩ | ⟨l,ok,rfl⟩ | ⟨b,rfl⟩ | ⟨c,rfl,-,rfl⟩ := step_cases hs
  · cases hm with
    | skip => exact hsame ⟨rfl,rfl⟩
    | start c ha hw => exact hsame (disconnect_slot s _)
    | create c c' port id token =>
      exact hsame (disconnect_slot
        { s with window := s.window.newRemoteWorkspace c' port id token } _)
    | disconnectRemote clear ha => exact hsame (disconnect_slot s _)
    | remove hi haw =>
      split
      · exact hsame (disconnect_slot s _)
      · exact hsame ⟨rfl,rfl⟩
  · exact hsame ⟨rfl,rfl⟩
  · exact absurd rfl (ha l ok)
  · obtain ⟨-,hs⟩ := Option.ite_none_right_eq_some.mp hs
    obtain ⟨b',-,rfl⟩ := Option.map_eq_some_iff.mp hs
    exact hsame ⟨rfl,rfl⟩
  · refine ⟨rfl,fun d y => if c = d then { y with status := .exited } else y,?_,?_,fun d => ?_⟩
    · intro d y
      dsimp only
      split <;> rfl
    · intro d y
      dsimp only
      split
      · intro h
        cases h
      · exact id
    · rw [List.getElem?_modify]
      by_cases hd : c = d <;> simp [hd]

theorem Owned.other {a : Act} (h : Owned s) (ha : ∀ l ok, a ≠ .loop l ok)
    (hs : s.step a = some s') : Owned s' := by
  obtain ⟨hslot,f,hf,-,hc⟩ := other_step ha hs
  have hown : ∀ {k c}, s.OwnedBy k c → s'.OwnedBy k c :=
    fun {k c} hk => ownedBy_map (hf c) (hc c) hk
  -- loops are new, or differ in their stop flag
  have hloops : ∀ {k : LoopId} {y : Loop}, s'.loops[k]? = some y →
      (y.phase = .starting ∧ y.tunnel = none) ∨
      ∃ x, s.loops[k]? = some x ∧ y.phase = x.phase ∧ y.tunnel = x.tunnel := by
    intro k y hy
    rcases step_loops hs hy with ⟨w,c,rfl⟩ | ⟨x,hx,rfl | rfl | ⟨ok,e,hl,-⟩⟩
    · exact .inl ⟨rfl,rfl⟩
    · exact .inr ⟨y,hx,rfl,rfl⟩
    · exact .inr ⟨x,hx,rfl,rfl⟩
    · exact absurd hl (ha k ok)
  refine ⟨fun k y d hy hd => ?_,fun k y d hy hd => ?_,fun k y hy hb => ?_,
    fun k y hy hm d hd => ?_,fun k y d hy hh hd => ?_⟩
  · rcases hloops hy with ⟨hp,-⟩ | ⟨x,hx,hp,-⟩
    · rw [hp] at hd
      cases hd
    · exact hown (h.wait k x d hx (hp ▸ hd))
  · rcases hloops hy with ⟨-,ht⟩ | ⟨x,hx,-,ht⟩
    · rw [ht] at hd
      cases hd
    · exact hown (h.tunnel k x d hx (ht ▸ hd))
  · rcases hloops hy with ⟨-,ht⟩ | ⟨x,hx,hp,ht⟩
    · exact ht
    · exact ht.trans (h.before k x hx (hp ▸ hb))
  · rcases hloops hy with ⟨hp,-⟩ | ⟨x,hx,hp,-⟩
    · rw [hp] at hm
      exact hm.elim
    · exact hown (h.monitors k x hx (hp ▸ hm) d (hslot ▸ hd))
  · rw [hslot]
    rcases hloops hy with ⟨-,ht⟩ | ⟨x,hx,hp,ht⟩
    · rw [ht] at hd
      cases hd
    · exact h.holds k x d hx (hp ▸ hh) (ht ▸ hd)

theorem owned_init (aw : AppWindow F) (sock : String) : Owned (init aw sock) where
  wait _ _ _ h := by cases h
  tunnel _ _ _ h := by cases h
  before _ _ h := by cases h
  monitors _ _ h := by cases h
  holds _ _ _ h := by cases h

theorem Owned.step {a : Act} (h : Owned s) (hok : Alone s a) (hs : s.step a = some s') :
    Owned s' := by
  by_cases ha : ∀ l ok, a ≠ .loop l ok
  · exact h.other ha hs
  · push Not at ha
    obtain ⟨l,ok,rfl⟩ := ha
    exact h.loop hok hs

/-- A child that runs leaves the slot, or is killed, only by its own loop. -/
theorem Owned.taken {a : Act} (h : Owned s) (hok : Alone s a) (hs : s.step a = some s')
    {c : ChildId} {y : Child} (hy : s.children[c]? = some y) (hrun : y.status = .running)
    (hc : s.slot = some c ∧ s'.slot ≠ some c ∨ ∃ z, s'.children[c]? = some z ∧ z.status = .killed) :
    ∃ ok, a = .loop y.owner ok := by
  have howner : ∀ {l}, s.SlotOwn l → s.slot = some c → y.owner = l := by
    intro l hl hsc
    have := hl c hsc
    rw [OwnedBy,hy] at this
    exact Option.some.inj this
  by_cases ha : ∀ l ok, a ≠ .loop l ok
  · obtain ⟨hslot,f,-,hk,hf⟩ := other_step ha hs
    rcases hc with ⟨h1,h2⟩ | ⟨z,hz,hzk⟩
    · exact absurd (hslot.trans h1) h2
    · rw [hf,hy] at hz
      cases hz
      rw [hk c y hzk] at hrun
      cases hrun
  push Not at ha
  obtain ⟨l,ok,rfl⟩ := ha
  obtain ⟨x,x',e,hx,hn,rfl⟩ := step_loop hs
  -- with the same children, the child left the slot
  have hsame : ∀ {t : Controller F},
      (s.slot = some c ∧ t.slot ≠ some c ∨ ∃ z, t.children[c]? = some z ∧ z.status = .killed) →
      t.children = s.children → s.slot = some c ∧ t.slot ≠ some c := by
    rintro t (hc | ⟨z,hz,hzk⟩) ht
    · exact hc
    · rw [ht,hy] at hz
      cases hz
      rw [hzk] at hrun
      cases hrun
  obtain ⟨d,hp,hd,rfl,rfl,rfl⟩ | ⟨hm,rfl,he⟩ | ⟨hp,rfl,rfl⟩ | ⟨h1,h2,h3,h4,-⟩ := next_tunnel hn
  · have hok := hok x hx
    rw [hp] at hok
    rcases hok with hex | hf | ⟨hslot,-⟩
    · rw [hd] at hex
      cases hex
    · cases hf
    · exact ⟨true,by rw [howner hslot (hsame hc rfl).1]⟩
  · have hsc : s.slot = some c := by
      rcases he with rfl | rfl
      · rcases hc with hc | ⟨z,hz,hzk⟩
        · exact hc.1
        · rw [(perform_kill _ l x).2 c] at hz
          obtain ⟨y',hy',rfl⟩ := Option.map_eq_some_iff.mp hz
          replace hy' : s.children[c]? = some y' := hy'
          rw [hy] at hy'
          cases hy'
          split at hzk
          · rename_i hsl
            exact hsl.1
          · rw [hrun] at hzk
            cases hzk
      · exact (hsame hc rfl).1
    exact ⟨ok,by rw [howner (h.monitors l x hx hm) hsc]⟩
  · rcases hc with ⟨hc,hne⟩ | ⟨z,hz,hzk⟩
    · exact absurd hc hne
    · replace hz : (s.children ++ [_])[c]? = some z := hz
      rw [List.getElem?_append_left (List.getElem?_eq_some_iff.mp hy).1,hy] at hz
      cases hz
      rw [hzk] at hrun
      cases hrun
  · obtain ⟨hslot,hch⟩ := perform_other (s := s.setLoop l x') l x h1 h2 h3 h4
    have := hsame hc hch
    exact absurd (hslot.trans this.1) this.2

/-- Steps to the return of `monitor_tunnel`, once the tunnel has exited. -/
def Phase.left : Phase → ℕ
  | .monitor => 3
  | .probe => 2
  | .exited => 1
  | _ => 0

theorem Owned.returns (h : Owned s) {l : LoopId} {x : Loop} {c : ChildId}
    (hx : s.loops[l]? = some x) (hm : x.phase.Monitors) (ht : x.tunnel = some c)
    (hc : s.hasExited c = true) : ∃ s' x', s.step (.loop l true) = some s' ∧
      s'.loops[l]? = some x' ∧ x'.phase.left < x.phase.left := by
  have hslot : s.slot = some c := by
    refine h.holds l x c hx ?_ ht
    revert hm
    cases x.phase <;> simp [Phase.Monitors,Phase.Holds]
  have hlt := (List.getElem?_eq_some_iff.mp hx).1
  obtain ⟨x',e,hn,hlx⟩ : ∃ x' e, s.next x true = some (x',e) ∧ x'.phase.left < x.phase.left := by
    cases hp : x.phase <;> rw [hp] at hm <;> simp only [Phase.Monitors] at hm
    case monitor =>
      cases hstop : x.stop
      · exact ⟨x.goto .probe,.idle,by simp [next,hp,hstop],by simp [Loop.goto,Phase.left]⟩
      · exact ⟨x.goto .dropLease,.kill,by simp [next,hp,hstop],by simp [Loop.goto,Phase.left]⟩
    case probe =>
      exact ⟨x.goto .exited,.idle,by simp [next,hp,hslot,hc],by simp [Loop.goto,Phase.left]⟩
    case exited =>
      exact ⟨x.goto .dropLease,.take,by simp [next,hp],by simp [Loop.goto,Phase.left]⟩
  refine ⟨(s.setLoop l x').perform l x e,x',?_,?_,hlx⟩
  · rw [Controller.step,hx,Option.bind_some,hn,Option.map_some]
  · rw [(perform_frame _ l x e).2.2.1,setLoop,List.getElem?_set_self hlt]

/-- While loops use the slot one at a time: what a loop in `monitor_tunnel` observes or
kills is a child of its own, a running child is replaced, taken or killed by its own loop
only, and a loop whose tunnel has exited comes out of `monitor_tunnel`. -/
theorem tunnels_owned {aw : AppWindow F} {sock : String} (h : Reach step Alone (init aw sock) s) :
    (∀ (l : LoopId) (x : Loop), s.loops[l]? = some x → x.phase.Monitors → s.SlotOwn l) ∧
    (∀ a s', Alone s a → s.step a = some s' → ∀ (c : ChildId) (y : Child),
      s.children[c]? = some y → y.status = .running →
      (s.slot = some c ∧ s'.slot ≠ some c ∨ ∃ z, s'.children[c]? = some z ∧ z.status = .killed) →
      ∃ ok, a = .loop y.owner ok) ∧
    ∀ (l : LoopId) (x : Loop) (c : ChildId), s.loops[l]? = some x → x.phase.Monitors →
      x.tunnel = some c → s.hasExited c = true → ∃ s' x', s.step (.loop l true) = some s' ∧
        s'.loops[l]? = some x' ∧ x'.phase.left < x.phase.left := by
  have ho : Owned s := h.inv (owned_init aw sock) (fun _ _ _ h hok hs => h.step hok hs)
  exact ⟨ho.monitors,fun a s' hok hs c y hy hrun hc => ho.taken hok hs hy hrun hc,
    fun l x c hx hm ht hc => ho.returns hx hm ht hc⟩

instance (s : Controller F) (l : LoopId) : Decidable (s.SlotOwn l) := by
  unfold SlotOwn OwnedBy
  infer_instance

instance (p : Phase) : Decidable p.Monitors :=
  decidable_of_iff (p ∈ [.monitor,.probe,.exited]) (by cases p <;> simp [Phase.Monitors])

/-- The loop that takes the step, and how its call ends. -/
def Act.turn : Act → Option (LoopId × Bool)
  | .loop l ok => some (l,ok)
  | _ => none

def Phase.awaited : Phase → Option ChildId
  | .tunnelWait c => some c
  | _ => none

theorem alone_iff (s : Controller F) (a : Act) : Alone s a ↔
    ∀ e ∈ a.turn, ∀ x ∈ s.loops[e.1]?,
      (∀ c ∈ x.phase.awaited, s.hasExited c = true ∨ e.2 = false ∨
        (s.SlotOwn e.1 ∧ ∀ y ∈ s.loops.zipIdx, y.2 ≠ e.1 → ¬ y.1.phase.Monitors)) ∧
      (x.phase = .acquireLease → s.SlotOwn e.1) := by
  cases a with
  | loop l ok =>
    simp only [Alone,Act.turn,Option.mem_some_iff,forall_eq']
    refine forall₂_congr (fun x _ => ?_)
    cases x.phase <;> simp [Phase.awaited]
  | _ => simp [Alone,Act.turn]

instance (s : Controller F) (a : Act) : Decidable (Alone s a) :=
  decidable_of_iff _ (alone_iff s a).symm

/-- The steps of a loop into `monitor_tunnel`. -/
def upActs (l : LoopId) : List Act := (List.replicate 13 true).map (.loop l)

/-- A second workspace comes as far as its tunnel while the first one has one; the first tunnel
exits, its loop lets go of it, and the second loop stores its own, which exits. -/
def handoverActs : List Act :=
  attemptActs [] ++ upActs 0 ++ [.newRemoteWorkspace
    ⟨"build",none,none,[],none,none,none,none,none⟩ (some 4200) "id" "token"] ++
  List.replicate 8 (.loop 1 true) ++ [.exit 0] ++ List.replicate 3 (.loop 0 true) ++
  List.replicate 5 (.loop 1 true) ++ [.exit 1]

theorem tunnels_owned_exit : ∃ s x y,
    run step Alone (init AppWindow.start "/run/limux.sock") handoverActs = some s ∧
    s.loops = [x,y] ∧ x.ws ≠ y.ws ∧ s.children = [⟨0,.exited⟩,⟨1,.exited⟩] ∧
    x.phase = .dropLease ∧ y.phase = .monitor ∧ y.tunnel = some 1 ∧ s.SlotOwn 1 ∧
    ∃ s' y', s.step (.loop 1 true) = some s' ∧ s'.loops[1]? = some y' ∧
      y'.phase.left < y.phase.left := by
  refine ⟨_,_,_,rfl,rfl,by decide,rfl,rfl,rfl,rfl,?_⟩
  have hr : Reach step Alone (init AppWindow.start "/run/limux.sock") _ :=
    reach_of_run handoverActs rfl
  have ho := tunnels_owned hr
  exact ⟨ho.1 1 _ rfl trivial,ho.2.2 1 _ 1 rfl trivial rfl rfl⟩

/-- The second of two workspaces replaces the running tunnel of the first, and the first
one, disconnected, kills the tunnel of the second. -/
theorem disconnect_kills_other_tunnel : ∃ s s' s'',
    Reach step anyStep (init AppWindow.start "/run/limux.sock") s ∧
    s.slot = some 1 ∧ s.children = [⟨0,.running⟩,⟨1,.running⟩] ∧
    s.step (.disconnectRemote (some 1) false) = some s' ∧
    s'.step (.loop 0 true) = some s'' ∧
    s''.slot = none ∧ s''.children = [⟨0,.running⟩,⟨1,.killed⟩] := by
  refine ⟨_,_,_,reach_of_run (attemptActs [] ++ upActs 0 ++ [.newRemoteWorkspace
    ⟨"build",none,none,[],none,none,none,none,none⟩ (some 4200) "id" "token"] ++ upActs 1) rfl,
    rfl,rfl,rfl,rfl,rfl,rfl⟩

end Controller

end Limux
