import Limux.RpcSteps

/-! Responses and calls: whatever lines come, a call returns the content of a line with
its own id, and no line reaches two calls. -/
namespace Limux

open Machine

namespace Rpc

variable {F : Type} {env : RpcEnv F} {s s' : Rpc F} {a : Act F}

/-- Entries of the pending map after a step: an old one that was not taken out, or the
one of a call that registers. -/
theorem step_pending (hs : Step env s a s') {id : ℕ} {k : CallIx}
    (h : s'.pending.lookup id = some k) :
    (s.pending.lookup id = some k ∧ a ≠ .drain ∧
      ∀ n result, a = .route → s.reader ≠ .routing n (.response id result)) ∨
    (a = .register k ∧ ∃ x, s.calls[k]? = some x ∧ x.phase = .registering ∧ id = x.id ∧
      s'.calls[k]? = some { x with phase := .locking }) := by
  cases hs with
  | @register k' x hx hp =>
    rw [HashMap.lookup_insert_ite] at h
    split at h
    · rename_i hid
      cases h
      refine .inr ⟨rfl,x,hx,hp,hid,?_⟩
      show (s.calls.modify k _)[k]? = _
      rw [List.getElem?_modify_eq,hx]
      rfl
    · exact .inl ⟨h,by simp,by simp⟩
  | flush hx hp | fail hx hp hr hb | drop hx hr hd =>
    rw [unlock_pending] at h
    exact .inl ⟨h,by simp,by simp⟩
  | expire hx hp =>
    rw [HashMap.lookup_erase_ite] at h
    split at h
    · cases h
    · exact .inl ⟨h,by simp,by simp⟩
  | route hr =>
    rename_i n m
    cases m with
    | skip => exact .inl ⟨h,by simp,by simp [hr]⟩
    | event e =>
      simp only [deliver] at h
      split at h <;> exact .inl ⟨h,by simp,by simp [hr]⟩
    | response id' result =>
      simp only [deliver] at h
      split at h
      · rename_i j hj
        rw [HashMap.lookup_erase_ite] at h
        split at h
        · cases h
        · rename_i hne
          refine .inl ⟨h,by simp,fun n' r' _ he => ?_⟩
          rw [hr] at he
          cases he
          exact hne rfl
      · rename_i hj
        refine .inl ⟨h,by simp,fun n' r' _ he => ?_⟩
        rw [hr] at he
        cases he
        rw [hj] at h
        cases h
  | drain hr => cases h
  | call method params | lock hx hp hl | write hx hp hb hn hr | finish hx hp hr | timeout hx hp hr
  | breakPipe | receive hr | eof hr | subscribe stream | unsubscribe stream =>
    exact .inl ⟨h,by simp,by simp⟩

theorem step_received (hs : Step env s a s') : s.received <+: s'.received := by
  cases hs with
  | receive hr => exact List.prefix_append _ _
  | flush hx hp | fail hx hp hr hb | drop hx hr hd =>
    rw [(unlock_reader _ _).2.1]
    exact List.prefix_rfl
  | route hr =>
    rename_i n m
    cases m with
    | skip => exact List.prefix_rfl
    | event e =>
      simp only [deliver]
      split <;> exact List.prefix_rfl
    | response id' result =>
      simp only [deliver]
      split <;> exact List.prefix_rfl
  | call method params | register hx hp | lock hx hp hl | write hx hp hb hn hr | finish hx hp hr
  | timeout hx hp hr | expire hx hp | breakPipe | eof hr | drain hr | subscribe stream
  | unsubscribe stream => exact List.prefix_rfl

theorem step_routing (hs : Step env s a s') {n : ℕ} {m : Incoming F}
    (h : s'.reader = .routing n m) : s.reader = .routing n m ∨
      ∃ line, s'.received = s.received ++ [line] ∧ n = s.received.length ∧
        m = Incoming.ofLine env line := by
  cases hs with
  | @receive line hr =>
    cases h
    exact .inr ⟨line,rfl,rfl,rfl⟩
  | route hr | eof hr | drain hr => cases h
  | flush hx hp | fail hx hp hr hb | drop hx hr hd =>
    rw [(unlock_reader _ _).1] at h
    exact .inl h
  | call method params | register hx hp | lock hx hp hl | write hx hp hb hn hr | finish hx hp hr
  | timeout hx hp hr | expire hx hp | breakPipe | subscribe stream | unsubscribe stream =>
    exact .inl h

/-- Ids are the numbers of calls; replies and results are what they say they are. -/
structure Matched (env : RpcEnv F) (s : Rpc F) : Prop where
  next : s.nextId = s.calls.length+1
  id : ∀ (k : CallIx) (x : Call F), s.calls[k]? = some x → x.id = k+1
  fresh : ∀ (k : CallIx) (x : Call F), s.calls[k]? = some x → x.phase = .registering →
    x.reply = none
  pending : ∀ (id : ℕ) (k : CallIx), s.pending.lookup id = some k → id = k+1 ∧
    ∃ x, s.calls[k]? = some x ∧ x.reply = none ∧ x.phase ≠ .registering
  routing : ∀ n m, s.reader = .routing n m →
    ∃ line, s.received[n]? = some line ∧ m = Incoming.ofLine env line
  reply : ∀ (k : CallIx) (x : Call F) r n, s.calls[k]? = some x → x.reply = some ⟨r,some n⟩ →
    ∃ line, s.received[n]? = some line ∧ Incoming.ofLine env line = .response x.id r
  died : ∀ (k : CallIx) (x : Call F) r, s.calls[k]? = some x → x.reply = some ⟨r,none⟩ →
    r = .error (.processDied "SSH process exited")
  returned : ∀ (k : CallIx) (x : Call F) r, s.calls[k]? = some x → x.phase = .returned r →
    r = .error .io ∨ r = .error .timeout ∨ ∃ n, x.reply = some ⟨r,n⟩

theorem matched_init : Matched env init where
  next := rfl
  id _ _ h := by cases h
  fresh _ _ h := by cases h
  pending _ _ h := by cases h
  routing _ _ h := by cases h
  reply _ _ _ _ h := by cases h
  died _ _ _ h := by cases h
  returned _ _ _ h := by cases h

/-- A call that is sent a reply has none yet, and is past registering. -/
theorem Matched.sends (h : Matched env s) {k : CallIx} {x : Call F} {r : Reply F}
    (hx : s.calls[k]? = some x) (hr : Sends s a k r) :
    x.reply = none ∧ x.phase ≠ .registering := by
  have hp : ∃ id, s.pending.lookup id = some k := by
    cases hr with
    | route _ hp => exact ⟨_,hp⟩
    | drain _ hp => exact ⟨_,hp⟩
  obtain ⟨id,hid⟩ := hp
  obtain ⟨-,y,hy,hrep,hph⟩ := h.pending id k hid
  rw [hx] at hy
  cases hy
  exact ⟨hrep,hph⟩

theorem Matched.step (h : Matched env s) (hs : Step env s a s') : Matched env s' := by
  have hrec := step_received hs
  have hline : ∀ {n : ℕ} {line}, s.received[n]? = some line → s'.received[n]? = some line := by
    intro n line hn
    obtain ⟨t,ht⟩ := hrec
    rw [← ht,List.getElem?_append_left (List.getElem?_eq_some_iff.mp hn).1]
    exact hn
  refine ⟨?_,fun k x' hx' => ?_,fun k x' hx' hp => ?_,fun id k hid => ?_,fun n m hm => ?_,
    fun k x' r n hx' hr => ?_,fun k x' r hx' hr => ?_,fun k x' r hx' hp => ?_⟩
  · have := h.next
    rcases step_sizes hs with ⟨h1,h2⟩ | ⟨h1,h2⟩
    · rw [h1,h2,this]
    · rw [h1,h2,this]
  · cases step_call hs hx' with
    | new ha hk => rw [hk]; exact h.next
    | same hx => exact h.id k _ hx
    | @move x _ hx hm => exact (h.id k x hx :)
    | @send x _ hx hm => exact (h.id k x hx :)
  · cases step_call hs hx' with
    | new ha hk => rfl
    | same hx => exact h.fresh k _ hx hp
    | move hx hm =>
      have hp : _ = CallPhase.registering := hp
      subst hp
      cases hm
    | send hx hm => exact absurd hp (h.sends hx hm).2
  · obtain ⟨hold,hnd,hnr⟩ | ⟨rfl,x,hx,hp,rfl,hx'⟩ := step_pending hs hid
    · obtain ⟨hk,x,hx,hrep,hph⟩ := h.pending id k hold
      obtain ⟨x',hx'⟩ := step_calls hs hx
      refine ⟨hk,x',hx',?_⟩
      cases step_call hs hx' with
      | new ha hk =>
        rw [hk,List.getElem?_eq_none le_rfl] at hx
        cases hx
      | same hy =>
        rw [hx] at hy
        cases hy
        exact ⟨hrep,hph⟩
      | move hy hm =>
        rw [hx] at hy
        cases hy
        refine ⟨hrep,fun hp => ?_⟩
        have hp : _ = CallPhase.registering := hp
        subst hp
        cases hm
      | send hy hm =>
        cases hm with
        | @route n id' result _ hr hp =>
          have := (h.pending id' k hp).1
          rw [this,← hk] at hr
          exact absurd hr (hnr n result rfl)
        | drain hr hp => exact absurd rfl hnd
    · refine ⟨h.id k x hx,_,hx',h.fresh k x hx hp,?_⟩
      simp
  · rcases step_routing hs hm with hm | ⟨line,hl,rfl,rfl⟩
    · obtain ⟨line,hl,hml⟩ := h.routing n m hm
      exact ⟨line,hline hl,hml⟩
    · refine ⟨line,?_,rfl⟩
      rw [hl,List.getElem?_concat_length]
  · cases step_call hs hx' with
    | new ha hk => cases hr
    | same hx =>
      obtain ⟨line,hl,hm⟩ := h.reply k _ r n hx hr
      exact ⟨line,hline hl,hm⟩
    | move hx hm =>
      obtain ⟨line,hl,hm⟩ := h.reply k _ r n hx hr
      exact ⟨line,hline hl,hm⟩
    | @send x _ hx hm =>
      cases hr
      cases hm with
      | route hrt hp =>
        obtain ⟨line,hl,hm⟩ := h.routing _ _ hrt
        refine ⟨line,hline hl,?_⟩
        rw [← hm,(h.pending _ k hp).1]
        show _ = Incoming.response x.id r
        rw [h.id k x hx]
  · cases step_call hs hx' with
    | new ha hk => cases hr
    | same hx => exact h.died k _ r hx hr
    | move hx hm => exact h.died k _ r hx hr
    | send hx hm =>
      cases hr
      cases hm
      rfl
  · cases step_call hs hx' with
    | new ha hk => cases hp
    | same hx => exact h.returned k _ r hx hp
    | move hx hm =>
      have hp : _ = CallPhase.returned r := hp
      subst hp
      cases hm with
      | fail _ _ _ => exact .inl rfl
      | expire _ => exact .inr (.inl rfl)
      | @finish _ _ r' _ hr => exact .inr (.inr ⟨r'.line,hr⟩)
    | send hx hm =>
      rcases h.returned k _ r hx hp with h1 | h1 | ⟨n,h1⟩
      · exact .inl h1
      · exact .inr (.inl h1)
      · rw [(h.sends hx hm).1] at h1
        cases h1

theorem returned_step (hs : Step env s a s') {k : CallIx} {x : Call F} {r : RpcResult F}
    (hx : s.calls[k]? = some x) (hp : x.phase = .returned r) :
    ∃ x', s'.calls[k]? = some x' ∧ x'.phase = .returned r := by
  obtain ⟨x',hx'⟩ := step_calls hs hx
  refine ⟨x',hx',?_⟩
  cases step_call hs hx' with
  | new ha hk =>
    rw [hk,List.getElem?_eq_none le_rfl] at hx
    cases hx
  | same hy =>
    rw [hx] at hy
    cases hy
    exact hp
  | move hy hm =>
    rw [hx] at hy
    cases hy
    cases hm with
    | drop hr _ => exact absurd hp (hr r)
    | register h | lock h _ | write h _ _ _ | flush h | fail h _ _ | finish h _ | timeout h _
    | expire h =>
      rw [hp] at h
      cases h
  | send hy hm =>
    rw [hx] at hy
    cases hy
    exact hp

/-- However calls, lines, timeouts and the end of the input interleave: a result is
final, a value or a remote error comes from a line with the id of the call, and no line
reaches two calls. -/
theorem responses_match (h : Reach (step env) anyStep init s) :
    (∀ (k : CallIx) (x : Call F) r, s.calls[k]? = some x → x.phase = .returned r →
      ∀ s', Reach (step env) anyStep s s' →
        ∃ x', s'.calls[k]? = some x' ∧ x'.phase = .returned r) ∧
    (∀ (k : CallIx) (x : Call F) r, s.calls[k]? = some x → x.phase = .returned r →
      ((∃ v, r = .ok v) ∨ ∃ m, r = .error (.remote m)) →
      ∃ n line, x.reply = some ⟨r,some n⟩ ∧ s.received[n]? = some line ∧
        Incoming.ofLine env line = .response x.id r) ∧
    ∀ (k k' : CallIx) (x x' : Call F) r r' n, s.calls[k]? = some x → s.calls[k']? = some x' →
      x.reply = some ⟨r,some n⟩ → x'.reply = some ⟨r',some n⟩ → k = k' := by
  have hm : Matched env s := h.inv matched_init (fun _ _ _ h _ hs => h.step (step_sound hs))
  refine ⟨fun k x r hx hp s' hr => ?_,fun k x r hx hp hv => ?_,
    fun k k' x x' r r' n hx hx' hr hr' => ?_⟩
  · refine hr.inv (P := fun s' => ∃ x', s'.calls[k]? = some x' ∧ x'.phase = .returned r)
      ⟨x,hx,hp⟩ ?_
    rintro s₁ a s₂ ⟨y,hy,hyp⟩ - hs
    exact returned_step (step_sound hs) hy hyp
  · rcases hm.returned k x r hx hp with rfl | rfl | ⟨n,hr⟩
    · rcases hv with ⟨v,hv⟩ | ⟨m,hv⟩ <;> cases hv
    · rcases hv with ⟨v,hv⟩ | ⟨m,hv⟩ <;> cases hv
    · cases n with
      | none =>
        rw [hm.died k x r hx hr] at hv
        rcases hv with ⟨v,hv⟩ | ⟨m,hv⟩ <;> cases hv
      | some n =>
        obtain ⟨line,hl,hol⟩ := hm.reply k x r n hx hr
        exact ⟨n,line,hr,hl,hol⟩
  · obtain ⟨line,hl,hol⟩ := hm.reply k x r n hx hr
    obtain ⟨line',hl',hol'⟩ := hm.reply k' x' r' n hx' hr'
    rw [hl] at hl'
    cases hl'
    rw [hol] at hol'
    have hid : x.id = x'.id := (Incoming.response.inj hol').1
    rw [hm.id k x hx,hm.id k' x' hx'] at hid
    exact Nat.succ.inj hid

/-- `serde_json` on requests without parameters and on two responses. -/
def plainEnv : RpcEnv Unit where
  parse t :=
    if t = "\x7b\"id\":1,\"result\":true\x7d".toList then
      some (.obj [("id",.num (.int 1)),("result",.bool true)])
    else if t = "\x7b\"id\":2,\"result\":null\x7d".toList then
      some (.obj [("id",.num (.int 2)),("result",.null)])
    else none
  render j :=
    match (j.get "id").bind Json.asU64, j.getStr "method" with
    | some id, some method =>
      (("\x7b\"id\":" ++ toString id ++ ",\"jsonrpc\":\"2.0\",\"method\":\"").toList ++ method ++
        "\",\"params\":\x7b\x7d\x7d".toList).map (fun c => c.toNat.toUInt8) |>.filter (· ≠ 10)
    | _, _ => []
  render_clean j := by split <;> simp

def pingActs : List (Act Unit) :=
  [.call "ping".toList (.obj []),.register 0,.lock 0,.write 0 53,.flush 0,
    .receive "\x7b\"id\":2,\"result\":null\x7d\n".toList,.route,
    .receive "\x7b\"id\":1,\"result\":true\x7d\n".toList,.route,.finish 0]

theorem responses_match_ping : ∃ s x, run (step plainEnv) anyStep init pingActs = some s ∧
    s.calls[0]? = some x ∧ x.phase = .returned (.ok (.bool true)) ∧
    ∃ n line, x.reply = some ⟨.ok (.bool true),some n⟩ ∧ s.received[n]? = some line ∧
      Incoming.ofLine plainEnv line = .response x.id (.ok (.bool true)) := by
  refine ⟨_,_,rfl,rfl,rfl,?_⟩
  have hr : Reach (step plainEnv) anyStep init _ := reach_of_run pingActs rfl
  exact (responses_match hr).2.1 0 _ _ rfl rfl (.inl ⟨_,rfl⟩)

end Rpc

end Limux
