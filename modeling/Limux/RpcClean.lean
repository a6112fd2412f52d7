import Limux.RpcMatch

/-! What calls and the reader leave behind: the pending map is clean as long as no call
goes away with its entry still in it, and the end of the input reaches everyone as long
as nobody registers after it. -/
namespace Limux

open Machine

namespace Rpc

variable {F : Type} {env : RpcEnv F} {s s' : Rpc F} {a : Act F}

/-- Past registering, not yet at an end. -/
def CallPhase.Registered : CallPhase F → Prop
  | .locking | .writing _ | .awaiting | .expiring => True
  | .registering | .returned _ | .dropped => False

def CallPhase.Over : CallPhase F → Prop
  | .returned _ | .dropped => True
  | .registering | .locking | .writing _ | .awaiting | .expiring => False

/-- A call is dropped, or its write fails, only while its id is not in the map; nobody
registers or subscribes once the reader has drained it, and nobody is subscribed then. -/
def Tidy (s : Rpc F) : Act F → Prop
  | .drop k | .fail k => ∀ x ∈ s.calls[k]?, s.pending.lookup x.id = none
  | .register _ | .subscribe _ => s.reader ≠ .stopped
  | .drain => ∀ stream, s.subscriptions.lookup stream = none
  | _ => True

structure Clean (env : RpcEnv F) (s : Rpc F) : Prop extends Matched env s where
  gone : ∀ (id : ℕ) (k : CallIx) (x : Call F), s.pending.lookup id = some k →
    s.calls[k]? = some x → ¬ x.phase.Over
  waits : ∀ (k : CallIx) (x : Call F), s.calls[k]? = some x → x.phase.Registered →
    x.reply = none → s.pending.lookup x.id = some k
  stopped : s.reader = .stopped →
    (∀ id, s.pending.lookup id = none) ∧ ∀ stream, s.subscriptions.lookup stream = none

theorem clean_init : Clean env (init : Rpc F) :=
  { matched_init with
    gone := fun _ _ _ h => by cases h
    waits := fun _ _ h => by cases h
    stopped := fun h => by cases h }

/-- An entry stays until its call is sent a reply or expires. -/
theorem step_keeps (h : Matched env s) (hs : Step env s a s') {id : ℕ} {k : CallIx}
    (hp : s.pending.lookup id = some k) :
    s'.pending.lookup id = some k ∨ (∃ r, Sends s a k r) ∨ a = .expire k := by
  cases hs with
  | @register k' x hx hph =>
    rw [HashMap.lookup_insert_ite]
    split
    · rename_i hid
      have hk : k+1 = k'+1 := ((h.pending id k hp).1.symm.trans hid).trans (h.id k' x hx)
      rw [Nat.succ.inj hk]
      exact .inl rfl
    · exact .inl hp
  | flush hx hp' | fail hx hp' hr hb | drop hx hr hd =>
    rw [unlock_pending]
    exact .inl hp
  | @expire k' x hx hph =>
    rw [HashMap.lookup_erase_ite]
    split
    · rename_i hid
      have hk : k+1 = k'+1 := ((h.pending id k hp).1.symm.trans hid).trans (h.id k' x hx)
      rw [Nat.succ.inj hk]
      exact .inr (.inr rfl)
    · exact .inl hp
  | @route n m hr =>
    cases m with
    | skip => exact .inl hp
    | event e =>
      simp only [deliver]
      split <;> exact .inl hp
    | response id' result =>
      simp only [deliver]
      split
      · rename_i j hj
        rw [HashMap.lookup_erase_ite]
        split
        · rename_i hid
          rw [hid,hj] at hp
          cases hp
          exact .inr (.inl ⟨_,.route hr hj⟩)
        · exact .inl hp
      · exact .inl hp
  | drain hr => exact .inr (.inl ⟨_,.drain hr hp⟩)
  | call method params | lock hx hp' hl | write hx hp' hb hn hr | finish hx hp' hr
  | timeout hx hp' hr | breakPipe | receive hr | eof hr | subscribe stream | unsubscribe stream =>
    exact .inl hp

theorem sends_call (hs : Step env s a s') {k : CallIx} {x : Call F} {r : Reply F}
    (hx : s.calls[k]? = some x) (hr : Sends s a k r) :
    s'.calls[k]? = some { x with reply := some r } := by
  cases hr with
  | route hrt hp =>
    cases hs with
    | route hr' =>
      rw [hrt] at hr'
      cases hr'
      simp only [deliver,hp]
      show (s.calls.modify k _)[k]? = _
      rw [List.getElem?_modify_eq,hx]
      rfl
  | drain hd hp =>
    cases hs with
    | drain hr' =>
      show (s.calls.mapIdx _)[k]? = _
      rw [List.getElem?_mapIdx,hx,Option.map_some,if_pos (HashMap.mem_values.mpr ⟨_,hp⟩)]

theorem expire_call (hs : Step env s a s') {k : CallIx} {x' : Call F} (ha : a = .expire k)
    (hx' : s'.calls[k]? = some x') : x'.phase = .returned (.error .timeout) := by
  subst ha
  cases hs with
  | expire hx hp =>
    replace hx' : (s.calls.modify k _)[k]? = some x' := hx'
    rw [List.getElem?_modify_eq,hx] at hx'
    cases hx'
    rfl

theorem step_stopped (hs : Step env s a s') (h : s'.reader = .stopped) :
    s.reader = .stopped ∨ a = .drain := by
  cases hs with
  | drain hr => exact .inr rfl
  | receive hr | route hr | eof hr => cases h
  | flush hx hp | fail hx hp hr hb | drop hx hr hd =>
    rw [(unlock_reader _ _).1] at h
    exact .inl h
  | call method params | register hx hp | lock hx hp hl | write hx hp hb hn hr | finish hx hp hr
  | timeout hx hp hr | expire hx hp | breakPipe | subscribe stream | unsubscribe stream =>
    exact .inl h

theorem step_subscriptions (hs : Step env s a s') (ha : ∀ stream, a ≠ .subscribe stream)
    (h : ∀ stream, s.subscriptions.lookup stream = none) (stream : Text) :
    s'.subscriptions.lookup stream = none := by
  cases hs with
  | subscribe stream => exact absurd rfl (ha stream)
  | unsubscribe stream' =>
    rw [HashMap.lookup_erase_ite,h]
    split <;> rfl
  | flush hx hp | fail hx hp hr hb | drop hx hr hd =>
    rw [(unlock_reader _ _).2.2.1]
    exact h stream
  | @route n m hr =>
    cases m with
    | skip => exact h stream
    | event e =>
      simp only [deliver]
      split <;> exact h stream
    | response id' result =>
      simp only [deliver]
      split <;> exact h stream
  | call method params | register hx hp | lock hx hp hl | write hx hp hb hn hr | finish hx hp hr
  | timeout hx hp hr | expire hx hp | breakPipe | receive hr | eof hr | drain hr => exact h stream

/-- A move keeps a call registered, ends it, or registers it. -/
theorem moves_registered {k : CallIx} {x : Call F} {p : CallPhase F} (hm : Moves s a k x p) :
    p.Over ∨ x.phase.Registered ∨ a = .register k := by
  cases hm with
  | register hp => exact .inr (.inr rfl)
  | fail hp hr hb => exact .inl trivial
  | finish hp hr => exact .inl trivial
  | expire hp => exact .inl trivial
  | drop hr hd => exact .inl trivial
  | lock hp hl | write hp hb hn hr | flush hp | timeout hp hr =>
    rw [hp]
    exact .inr (.inl trivial)

theorem Clean.step (h : Clean env s) (hok : Tidy s a) (hs : Step env s a s') : Clean env s' := by
  have hm := h.toMatched.step hs
  refine ⟨hm,fun id k x' hp hx' => ?_,fun k x' hx' hreg hrep => ?_,fun hst => ?_⟩
  · intro hover
    obtain ⟨hold,-⟩ | ⟨rfl,y,hy,-,-,hy'⟩ := step_pending hs hp
    · obtain ⟨x,hx⟩ : ∃ x, s.calls[k]? = some x := by
        obtain ⟨-,x,hx,-⟩ := h.pending id k hold
        exact ⟨x,hx⟩
      have hid := (h.pending id k hold).1.trans (h.id k x hx).symm
      have hnone : x'.reply = none := by
        obtain ⟨-,y,hy,hr,-⟩ := hm.pending id k hp
        rw [hx'] at hy
        cases hy
        exact hr
      cases step_call hs hx' with
      | new ha hk => exact hover
      | same hy => exact h.gone id k x' hold hy hover
      | send hy hsend => cases hnone
      | move hy hmv =>
        rw [hx] at hy
        cases hy
        cases hmv with
        | fail hph hr hb =>
          rw [hid,hok x hx] at hold
          cases hold
        | drop hr hd =>
          rw [hid,hok x hx] at hold
          cases hold
        | finish hph hr =>
          rw [hr] at hnone
          cases hnone
        | expire hph =>
          cases hs with
          | expire hy' hph' =>
            rw [hx] at hy'
            cases hy'
            rw [hid,HashMap.lookup_erase_ite,if_pos rfl] at hp
            cases hp
        | register hph | lock hph hl | write hph hb hn hr | flush hph | timeout hph hr =>
          exact hover
    · rw [hx'] at hy'
      cases hy'
      exact hover
  · -- where the call came from had an entry, unless it registers now
    have hkeep : ∀ {x : Call F}, s.calls[k]? = some x → s.pending.lookup x.id = some k →
        s'.pending.lookup x.id = some k := by
      intro x hx hold
      rcases step_keeps h.toMatched hs hold with hk | ⟨r,hr⟩ | ha
      · exact hk
      · rw [sends_call hs hx hr] at hx'
        cases hx'
        cases hrep
      · rw [expire_call hs ha hx'] at hreg
        exact hreg.elim
    cases step_call hs hx' with
    | new ha hk => exact hreg.elim
    | same hx => exact hkeep hx (h.waits k x' hx hreg hrep)
    | send hx hsend => cases hrep
    | @move x p hx hmv =>
      rcases moves_registered hmv with hover | hreg' | rfl
      · cases p <;> first | exact hover.elim | exact hreg.elim
      · exact (hkeep hx (h.waits k x hx hreg' hrep) :)
      · cases hs with
        | register hy hph =>
          rw [hx] at hy
          cases hy
          rw [HashMap.lookup_insert_ite,if_pos rfl]
  · rcases step_stopped hs hst with hold | rfl
    · obtain ⟨hp,hsub⟩ := h.stopped hold
      refine ⟨fun id => ?_,step_subscriptions hs (fun stream ha => ?_) hsub⟩
      · cases hl : s'.pending.lookup id with
        | none => rfl
        | some k =>
          obtain ⟨hk,-⟩ | ⟨rfl,-⟩ := step_pending hs hl
          · rw [hp] at hk
            cases hk
          · exact absurd hold hok
      · subst ha
        exact absurd hold hok
    · cases hs with
      | drain hr => exact ⟨fun id => rfl,hok⟩

/-- In a tidy run the pending map has no entry of a call that is over, and once the
reader has drained it no call waits without its reply and no channel has a sender. -/
theorem calls_cleaned (h : Reach (step env) Tidy init s) :
    (∀ (k : CallIx) (x : Call F), s.calls[k]? = some x → x.phase.Over →
      s.pending.lookup x.id = none) ∧
    (s.reader = .stopped →
      (∀ (k : CallIx) (x : Call F), s.calls[k]? = some x → x.phase = .awaiting →
        ∃ r, x.reply = some r) ∧
      ∀ stream, s.subscriptions.lookup stream = none) := by
  have hc : Clean env s := h.inv clean_init (fun _ _ _ h hok hs => h.step hok (step_sound hs))
  refine ⟨fun k x hx hover => ?_,fun hst => ⟨fun k x hx hp => ?_,(hc.stopped hst).2⟩⟩
  · cases hl : s.pending.lookup x.id with
    | none => rfl
    | some k' =>
      have hk : k = k' := Nat.succ.inj ((hc.id k x hx).symm.trans (hc.pending _ k' hl).1)
      subst hk
      exact absurd hover (hc.gone _ k x hl hx)
  · cases hr : x.reply with
    | some r => exact ⟨r,rfl⟩
    | none =>
      have := hc.waits k x hx (hp ▸ trivial) hr
      rw [(hc.stopped hst).1] at this
      cases this

instance (r : Reader F) : Decidable (r ≠ .stopped) :=
  match r with
  | .reading | .routing _ _ | .draining => .isTrue (by simp)
  | .stopped => .isFalse (by simp)

instance (s : Rpc F) : Decidable (∀ stream, s.subscriptions.lookup stream = none) :=
  decidable_of_iff (s.subscriptions.keys = []) (by
    simp only [AList.lookup_eq_none,AList.mem_keys,List.eq_nil_iff_forall_not_mem])

instance (s : Rpc F) (a : Act F) : Decidable (Tidy s a) :=
  match a with
  | .drop k | .fail k =>
    inferInstanceAs (Decidable (∀ x ∈ s.calls[k]?, s.pending.lookup x.id = none))
  | .register _ | .subscribe _ => inferInstanceAs (Decidable (s.reader ≠ .stopped))
  | .drain => inferInstanceAs (Decidable (∀ stream, s.subscriptions.lookup stream = none))
  | .call _ _ | .lock _ | .write _ _ | .flush _ | .finish _ | .timeout _ | .expire _
  | .breakPipe | .receive _ | .route | .eof | .unsubscribe _ => .isTrue trivial

theorem calls_cleaned_ping : ∃ s x,
    run (step plainEnv) Tidy init (pingActs ++ [.eof,.drain]) = some s ∧
    s.calls[0]? = some x ∧ x.phase.Over ∧ s.reader = .stopped ∧
    s.pending.lookup x.id = none ∧ ∀ stream, s.subscriptions.lookup stream = none := by
  refine ⟨_,_,rfl,rfl,trivial,rfl,?_⟩
  have hr : Reach (step plainEnv) Tidy init _ := reach_of_run (pingActs ++ [.eof,.drain]) rfl
  have hc := calls_cleaned hr
  exact ⟨hc.1 0 _ rfl trivial,(hc.2 rfl).2⟩

/-- A call that is dropped while it waits stays in the map; after the end of the input a
subscription is still open, and a new call waits for a reply that nobody can send. -/
theorem dropped_call_stays_pending :
    (∃ (s : Rpc Unit) (x : Call Unit), Reach (step plainEnv) anyStep init s ∧
      s.calls[0]? = some x ∧ x.phase.Over ∧ s.pending.lookup x.id = some 0) ∧
    ∃ (s : Rpc Unit) (x : Call Unit), Reach (step plainEnv) anyStep init s ∧
      s.reader = .stopped ∧ s.subscriptions.lookup "s-1".toList = some 0 ∧
      s.calls[0]? = some x ∧ x.reply = none ∧ ∃ s', step plainEnv s (.timeout 0) = some s' := by
  refine ⟨⟨_,_,reach_of_run [.call "ping".toList (.obj []),.register 0,.drop 0] rfl,rfl,?_,rfl⟩,
    _,_,reach_of_run [.subscribe "s-1".toList,.eof,.drain,.call "ping".toList (.obj []),
      .register 0,.lock 0,.write 0 53,.flush 0] rfl,rfl,rfl,rfl,rfl,_,rfl⟩
  trivial

end Rpc

end Limux
