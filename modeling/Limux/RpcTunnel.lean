import Limux.RpcMatch
import Limux.Tunnel

/-! The RPC client by steps of its tasks and by whole messages: as long as the other end
answers only requests it has been sent whole, and nobody is about to register when the
reader ends, the tunnel's calls, replies, maps and channels follow those of the client, by
steps of the tunnel (`step_follow`). -/
namespace Limux

open Machine

namespace Rpc

variable {F : Type} {env : RpcEnv F} {s s' : Rpc F} {t t' : Tunnel F} {a : Act F} {k : CallIx}
  {x : Call F} {owners : List ℕ}

def members : Json F → List (String × Json F)
  | .obj fields => fields
  | _ => []

/-- The tunnel's part in a step of the client; a subscription is for connection `c`. -/
def follow (s : Rpc F) (t : Tunnel F) (c : ℕ) : Act F → Tunnel F
  | .call method params => t.call none (String.ofList method) (members params)
  | .fail k => t.setReply k (.error .io)
  | .timeout k =>
    { t.setReply k (.error .timeout) with pending := t.pending.erase (k+1) }
  | .route =>
    match s.reader with
    | .routing _ m => t.deliver m
    | _ => t
  | .drain => t.drainPending
  | .subscribe stream => { t with subscriptions := t.subscriptions.insert stream c }
  | .unsubscribe stream => { t with subscriptions := t.subscriptions.erase stream }
  | _ => t

/-- The line is in the pipe, or the call is over. -/
def CallPhase.Asked : CallPhase F → Prop
  | .awaiting | .expiring | .returned _ | .dropped => True
  | .registering | .locking | .writing _ => False

/-- Parameters are objects, an answer is to a request that was written, no call is about to
register when the reader drains the map, and a connection subscribes once. -/
def Whole (s : Rpc F) (t : Tunnel F) (owners : List ℕ) (c : ℕ) : Act F → Prop
  | .call _ params => ∃ fields, params = .obj fields
  | .route => ∀ n id r, s.reader = .routing n (.response id r) → ∀ (k : CallIx) (x : Call F),
      s.calls[k]? = some x → x.id = id → x.phase.Asked
  | .drain => ∀ (k : CallIx) (x : Call F), s.calls[k]? = some x → x.phase ≠ .registering
  | .subscribe _ => c < t.connections.length ∧ c ∉ owners
  | _ => True

/-- What the tunnel does in its own steps is what follows the client. -/
theorem step_follow (trunc : F → Option ℤ) (s : Rpc F) (t : Tunnel F) (c : ℕ) :
    (∀ method fields, String.ofList method ∉ ["proxy.open","proxy.stream.subscribe"] →
      t.step trunc (.foreign (String.ofList method) fields) =
        some (s.follow t c (.call method (.obj fields)))) ∧
    (∀ k, t.current k = true → k ∉ t.sent → t.alive = false →
      t.step trunc (.sendFailed k) = some (s.follow t c (.fail k))) ∧
    (∀ k, t.current k = true → k ∈ t.sent → t.replies k = none →
      t.step trunc (.timeout k) = some (s.follow t c (.timeout k))) ∧
    (∀ n f, s.reader = .routing n (.ofObject f.toJson) → t.daemon.out[t.read]? = some f →
      t.stopped = false →
      t.step trunc .route = some { s.follow t c .route with read := t.read+1 }) ∧
    (t.alive = false → t.stopped = false →
      t.step trunc .eof = some { s.follow t c .drain with stopped := true }) ∧
    (∀ x stream, t.connections[c]? = some x → x.phase = .opened stream →
      t.step trunc (.subscribe c) = some (s.follow
        ((t.call (some c) "proxy.stream.subscribe" [("stream_id",.str stream)]).goto c x
          (.subscribing stream t.calls.length)) c (.subscribe stream))) ∧
    ∀ x stream, t.connections[c]? = some x → x.phase = .unsubscribing stream →
      t.step trunc (.unsubscribe c) = some (s.follow
        (t.goto c x (.returned (some stream))) c (.unsubscribe stream)) := by
  refine ⟨fun method fields hm => ?_,fun k hk hs ha => ?_,fun k hk hs hr => ?_,
    fun n f hr hf hs => ?_,fun ha hs => ?_,fun x stream hx hp => ?_,fun x stream hx hp => ?_⟩
  · have hother : ¬ (String.ofList method = "proxy.open" ∨
        String.ofList method = "proxy.stream.subscribe") := by simpa using hm
    exact if_neg hother
  · exact if_pos ⟨hk,hs,by simp [ha]⟩
  · exact if_pos ⟨hk,hs,by rw [hr]; rfl⟩
  · have hfollow : s.follow t c .route = t.deliver (.ofObject f.toJson) := by
      simp only [follow,hr]
    simp [Tunnel.step,Tunnel.Act.connection,Tunnel.stepShared,hs,hf,hfollow]
  · simp [Tunnel.step,Tunnel.Act.connection,Tunnel.stepShared,ha,hs,follow]
  · simp only [Tunnel.step,Tunnel.Act.connection,Tunnel.stepConnection,hx,hp,Option.bind_some]
    rfl
  · simp only [Tunnel.step,Tunnel.Act.connection,Tunnel.stepConnection,hx,hp,Option.bind_some]
    rfl

/-- What the caller gets, once it is known. -/
def Call.outcome (x : Call F) : Option (RpcResult F) :=
  match x.phase with
  | .returned r => some r
  | .expiring => some (.error .timeout)
  | _ => x.reply.map Reply.result

/-- The entry of call `k` in the pending map, as seen from its messages. -/
def Call.entry (pending : HashMap ℕ CallIx) (k : CallIx) (x : Call F) : Option CallIx :=
  match x.phase with
  | .registering => some k
  | .expiring => none
  | _ => pending.lookup (k+1)

/-- The tunnel has call `k` as the client has it; all errors are alike, and nothing is said of
calls that were dropped. -/
structure ShowsCall (env : RpcEnv F) (pending : HashMap ℕ CallIx) (t : Tunnel F) (k : CallIx)
    (x : Call F) : Prop where
  line : ∃ y, t.calls[k]? = some y ∧
    x.line = env.render (request (k+1) y.method.toList (.obj y.params)) ++ [10]
  reply : x.phase ≠ .dropped →
    (t.replies k).map Except.toOption = x.outcome.map Except.toOption
  entry : x.phase ≠ .dropped → t.pending.lookup (k+1) = x.entry pending k
  early : ¬ x.phase.Asked → ∀ r : Reply F, x.reply = some r → r.result.toOption = none

/-- What waits for a connection is what its channel was sent. -/
structure ShowsStreams (owners : List ℕ) (s : Rpc F) (t : Tunnel F) : Prop where
  nodup : owners.Nodup
  length : owners.length = s.channels.length
  used : ∀ stream c, s.subscriptions.lookup stream = some c → c < s.channels.length
  subscriptions : ∀ stream, t.subscriptions.lookup stream =
    (s.subscriptions.lookup stream).bind (fun c => owners[c]?)
  channels : ∀ (c : ChannelIx) (i : ℕ) (es : List (StreamEvent F)), s.channels[c]? = some es →
    owners[c]? = some i → (t.connections[i]?).map Tunnel.Connection.channel = some es
  idle : ∀ (i : ℕ) (y : Tunnel.Connection F), i ∉ owners → t.connections[i]? = some y →
    y.channel = []

structure Shows (env : RpcEnv F) (owners : List ℕ) (s : Rpc F) (t : Tunnel F) : Prop where
  count : t.calls.length = s.calls.length
  calls : ∀ (k : CallIx) (x : Call F), s.calls[k]? = some x → ShowsCall env s.pending t k x
  later : ∀ k, s.calls.length ≤ k → t.replies k = none
  keys : ∀ id k, t.pending.lookup id = some k → id = k+1 ∧ k < s.calls.length
  streams : ShowsStreams owners s t

theorem ShowsStreams.of_eq (h : ShowsStreams owners s t) (hsub : s'.subscriptions = s.subscriptions)
    (hch : s'.channels = s.channels) (hts : t'.subscriptions = t.subscriptions)
    (htx : t'.connections = t.connections) : ShowsStreams owners s' t' :=
  ⟨h.nodup,by rw [hch]; exact h.length,by rw [hsub,hch]; exact h.used,
    by rw [hts,hsub]; exact h.subscriptions,by rw [htx,hch]; exact h.channels,
    by rw [htx]; exact h.idle⟩

/-- Other calls do not see a change of one entry and one reply. -/
theorem ShowsCall.frame {pending pending' : HashMap ℕ CallIx} (h : ShowsCall env pending t k x)
    (hc : t.calls <+: t'.calls) (hr : t'.replies k = t.replies k)
    (hp : t'.pending.lookup (k+1) = t.pending.lookup (k+1))
    (hs : pending'.lookup (k+1) = pending.lookup (k+1)) : ShowsCall env pending' t' k x := by
  obtain ⟨y,hy,hl⟩ := h.line
  obtain ⟨l,hcl⟩ := hc
  have hy' : t'.calls[k]? = some y := by
    rw [← hcl,List.getElem?_append_left (List.getElem?_eq_some_iff.mp hy).1]
    exact hy
  refine ⟨⟨y,hy',hl⟩,fun hd => by rw [hr]; exact h.reply hd,fun hd => ?_,h.early⟩
  rw [hp,h.entry hd]
  unfold Call.entry
  rw [hs]

/-- A step of one call: only its own entry and its own reply change. -/
theorem Shows.moved (h : Shows env owners s t) {f : Call F → Call F} (hx : s.calls[k]? = some x)
    (hc : s'.calls = s.calls.modify k f)
    (hp : ∀ j : CallIx, j ≠ k → s'.pending.lookup (j+1) = s.pending.lookup (j+1))
    (hsub : s'.subscriptions = s.subscriptions) (hch : s'.channels = s.channels)
    (htc : t'.calls = t.calls) (hts : t'.subscriptions = t.subscriptions)
    (htx : t'.connections = t.connections) (hr : ∀ j ≠ k, t'.replies j = t.replies j)
    (ht : ∀ (j c : ℕ), t'.pending.lookup j = some c → t.pending.lookup j = some c)
    (htj : ∀ j ≠ k, t'.pending.lookup (j+1) = t.pending.lookup (j+1))
    (hk : ShowsCall env s'.pending t' k (f x)) : Shows env owners s' t' := by
  have hlen : s'.calls.length = s.calls.length := by rw [hc,List.length_modify]
  refine ⟨by rw [htc,hlen,h.count],fun j y hy => ?_,fun j hj => ?_,fun id j hj => ?_,
    h.streams.of_eq hsub hch hts htx⟩
  · rw [hc] at hy
    obtain ⟨z,hz,⟨rfl,rfl⟩ | ⟨hj,rfl⟩⟩ := getElem?_modify_cases hy
    · obtain rfl := Option.some.inj (hx.symm.trans hz)
      exact hk
    · exact (h.calls j y hz).frame ⟨[],by rw [htc,List.append_nil]⟩ (hr j hj) (htj j hj) (hp j hj)
  · rw [hlen] at hj
    have hlt := (List.getElem?_eq_some_iff.mp hx).1
    rw [hr j (lt_of_lt_of_le hlt hj).ne']
    exact h.later j hj
  · rw [hlen]
    exact h.keys id j (ht id j hj)

theorem Shows.quiet (h : Shows env owners s t) {p : CallPhase F} (hx : s.calls[k]? = some x)
    (hc : s'.calls = s.calls.modify k (fun x => { x with phase := p }))
    (hp : ∀ j : CallIx, j ≠ k → s'.pending.lookup (j+1) = s.pending.lookup (j+1))
    (hsub : s'.subscriptions = s.subscriptions) (hch : s'.channels = s.channels)
    (ho : p ≠ .dropped → x.phase ≠ .dropped ∧ { x with phase := p }.outcome = x.outcome ∧
      { x with phase := p }.entry s'.pending k = x.entry s.pending k)
    (he : ¬ p.Asked → ¬ x.phase.Asked) : Shows env owners s' t := by
  have hk := h.calls k x hx
  refine h.moved hx hc hp hsub hch rfl rfl rfl (fun _ _ => rfl) (fun _ _ h => h) (fun _ _ => rfl)
    ⟨hk.line,fun hd => ?_,fun hd => ?_,fun hn => hk.early (he hn)⟩
  · rw [(ho hd).2.1]
    exact hk.reply (ho hd).1
  · rw [(ho hd).2.2]
    exact hk.entry (ho hd).1

theorem unlock_channels (s : Rpc F) (k : CallIx) : (s.unlock k).channels = s.channels := by
  unfold unlock
  split <;> rfl

theorem Shows.call (h : Shows env owners s t) (hm : Matched env s) (method : Text)
    (fields : List (String × Json F)) : Shows env owners { s with
      nextId := s.nextId+1
      calls := s.calls ++ [⟨s.nextId,env.render (request s.nextId method (.obj fields)) ++ [10],
        .registering,none⟩] } (t.call none (String.ofList method) fields) := by
  have hpend : ∀ id : ℕ, (t.call none (String.ofList method) fields).pending.lookup id =
      if id = s.calls.length+1 then some s.calls.length else t.pending.lookup id := by
    intro id
    rw [← h.count]
    exact HashMap.lookup_insert_ite _ _ _ _
  refine ⟨?_,fun k x hx => ?_,fun k hk => h.later k ?_,fun id k hk => ?_,
    h.streams.of_eq rfl rfl rfl rfl⟩
  · simp [Tunnel.call,h.count]
  · rcases getElem?_append_one hx with hx | ⟨rfl,rfl⟩
    · have hlt := (List.getElem?_eq_some_iff.mp hx).1
      refine (h.calls k x hx).frame ⟨_,rfl⟩ rfl ?_ rfl
      rw [hpend,if_neg (by omega)]
    · refine ⟨⟨⟨none,String.ofList method,fields⟩,?_,?_⟩,fun _ => ?_,fun _ => ?_,fun _ r hr => ?_⟩
      · rw [← h.count]
        exact List.getElem?_concat_length
      · rw [hm.next,String.toList_ofList]
      · show (t.replies s.calls.length).map _ = none
        rw [h.later _ le_rfl]
        rfl
      · rw [hpend,if_pos rfl]
        rfl
      · cases hr
  · rw [List.length_append] at hk
    exact le_trans (Nat.le_add_right _ _) hk
  · rw [hpend] at hk
    rw [List.length_append]
    split at hk
    · rename_i hid
      exact ⟨by rw [hid,Option.some.inj hk],by rw [← Option.some.inj hk]; exact Nat.lt_succ_self _⟩
    · exact ⟨(h.keys id k hk).1,Nat.lt_succ_of_lt (h.keys id k hk).2⟩

/-- A reply that comes for a call: the first one counts. -/
theorem ShowsCall.send (h : ShowsCall env s.pending t k x) (hm : Matched env s)
    (hx : s.calls[k]? = some x) (hp : s.pending.lookup (k+1) = some k) {r : Reply F}
    (hr : t'.replies k = (t.replies k).or (some r.result)) (hc : t'.calls = t.calls)
    (ha : x.phase.Asked ∨ r.result.toOption = none) {pending' : HashMap ℕ CallIx}
    (hp' : pending'.lookup (k+1) = none) (ht : t'.pending.lookup (k+1) = none) :
    ShowsCall env pending' t' k { x with reply := some r } := by
  obtain ⟨-,z,hz,hnone,hreg⟩ := hm.pending _ _ hp
  obtain rfl := Option.some.inj (hx.symm.trans hz)
  obtain ⟨y,hy,hl⟩ := h.line
  refine ⟨⟨y,by rw [hc]; exact hy,hl⟩,fun hd => ?_,fun hd => ?_,fun hn r' hr' => ?_⟩
  · have hold := h.reply hd
    have hnew : (({ x with reply := some r } : Call F).outcome) = x.outcome.or (some r.result) := by
      unfold Call.outcome
      cases x.phase <;> simp [hnone]
    rw [hr,hnew]
    cases ho : x.outcome <;> cases hto : t.replies k <;> rw [ho,hto] at hold <;> simp_all
  · rw [ht]
    unfold Call.entry
    cases hph : x.phase with
    | registering => exact absurd hph hreg
    | _ => simp [hp']
  · cases hr'
    exact ha.resolve_left hn

/-- Nothing is said of a dropped call but its line. -/
theorem ShowsCall.dropped {pending pending' : HashMap ℕ CallIx} {x' : Call F}
    (h : ShowsCall env pending t k x) (hl : x'.line = x.line) (hd : x'.phase = .dropped)
    (hc : t'.calls = t.calls) : ShowsCall env pending' t' k x' := by
  obtain ⟨y,hy,hly⟩ := h.line
  exact ⟨⟨y,by rw [hc]; exact hy,hl.trans hly⟩,fun hn => absurd hd hn,fun hn => absurd hd hn,
    fun hn => absurd (by rw [hd]; trivial) hn⟩

theorem setReply_other (t : Tunnel F) {j : CallIx} (hj : j ≠ k) (r : RpcResult F) :
    (t.setReply k r).replies j = t.replies j := by
  simp [Tunnel.setReply,hj]

theorem setReply_self (t : Tunnel F) (k : CallIx) (r : RpcResult F) :
    (t.setReply k r).replies k = (t.replies k).or (some r) := by
  simp [Tunnel.setReply]

theorem lookup_erase_other (m : HashMap ℕ CallIx) {j : CallIx} (hj : j ≠ k) :
    (m.erase (k+1)).lookup (j+1) = m.lookup (j+1) := by
  rw [HashMap.lookup_erase_ite,if_neg (fun he => hj (Nat.succ_injective he))]

theorem lookup_erase_self (m : HashMap ℕ CallIx) (k : CallIx) :
    (m.erase (k+1)).lookup (k+1) = none := by
  rw [HashMap.lookup_erase_ite,if_pos rfl]

theorem CallPhase.Asked.ne_registering {p : CallPhase F} (h : p.Asked) : p ≠ .registering := by
  rintro rfl
  exact h

/-- Past registering the maps differ for calls that have expired or are dropped. -/
theorem ShowsCall.apart {pending : HashMap ℕ CallIx} (h : ShowsCall env pending t k x)
    (hr : x.phase ≠ .registering) (hne : t.pending.lookup (k+1) ≠ pending.lookup (k+1)) :
    x.phase = .dropped ∨ x.phase = .expiring ∧ t.pending.lookup (k+1) = none := by
  by_cases hd : x.phase = .dropped
  · exact .inl hd
  have he := h.entry hd
  unfold Call.entry at he
  split at he
  · exact absurd ‹_› hr
  · exact .inr ⟨‹_›,he⟩
  · exact absurd he hne

/-- A reply makes no difference to a call that has expired. -/
theorem ShowsCall.expired {pending pending' : HashMap ℕ CallIx} (h : ShowsCall env pending t k x)
    (he : x.phase = .expiring) (r : Option (Reply F)) (hc : t'.calls = t.calls)
    (hr : t'.replies k = t.replies k) (ht : t'.pending.lookup (k+1) = none) :
    ShowsCall env pending' t' k { x with reply := r } := by
  obtain ⟨y,hy,hl⟩ := h.line
  refine ⟨⟨y,by rw [hc]; exact hy,hl⟩,fun hd => ?_,fun _ => ?_,
    fun hn => absurd (by rw [he]; trivial) hn⟩
  · have hold := h.reply hd
    unfold Call.outcome at hold ⊢
    rw [he] at hold ⊢
    rw [hr]
    exact hold
  · rw [ht]
    simp [Call.entry,he]

theorem Shows.response_late (h : Shows env owners s t) (hm : Matched env s) {id : ℕ}
    {r : RpcResult F} (hw : ∀ (k : CallIx) (x : Call F), s.calls[k]? = some x → x.id = id →
      x.phase.Asked) (n : ℕ) (ht : t.pending.lookup id = none) :
    Shows env owners (s.deliver n (.response id r)) t := by
  simp only [deliver]
  cases hs : s.pending.lookup id with
  | none => exact h
  | some k =>
    obtain ⟨rfl,x,hx,-,-⟩ := hm.pending id k hs
    have hk := h.calls k x hx
    have hreg := (hw k x hx (hm.id k x hx)).ne_registering
    refine h.moved hx rfl (fun _ hj => lookup_erase_other _ hj) rfl rfl rfl rfl rfl
      (fun _ _ => rfl) (fun _ _ h => h) (fun _ _ => rfl) ?_
    rcases hk.apart hreg (by rw [ht,hs]; simp) with hd | ⟨he,-⟩
    · exact hk.dropped rfl hd rfl
    · exact hk.expired he _ rfl rfl ht

theorem Shows.response (h : Shows env owners s t) (hm : Matched env s) {id : ℕ} {r : RpcResult F}
    (hw : ∀ (k : CallIx) (x : Call F), s.calls[k]? = some x → x.id = id → x.phase.Asked) (n : ℕ) :
    Shows env owners (s.deliver n (.response id r)) (t.deliver (.response id r)) := by
  cases ht : t.pending.lookup id with
  | none =>
    have ht' : t.deliver (.response id r) = t := by simp only [Tunnel.deliver,ht]
    rw [ht']
    exact h.response_late hm hw n ht
  | some k =>
    obtain ⟨rfl,hlt⟩ := h.keys id k ht
    obtain ⟨x,hx⟩ : ∃ x, s.calls[k]? = some x := ⟨_,List.getElem?_eq_getElem hlt⟩
    have hk := h.calls k x hx
    have hask : x.phase.Asked := hw k x hx (hm.id k x hx)
    have ht' : t.deliver (.response (k+1) r) =
        { t.setReply k r with pending := t.pending.erase (k+1) } := by
      simp only [Tunnel.deliver,ht]
    rw [ht']
    cases hs : s.pending.lookup (k+1) with
    | none =>
      have hs' : s.deliver n (.response (k+1) r) = s := by simp only [deliver,hs]
      rw [hs']
      refine h.moved hx (List.modify_id ..).symm (fun _ _ => rfl) rfl rfl rfl rfl rfl
        (fun _ hj => setReply_other t hj r) (fun _ _ h => HashMap.lookup_of_erase h)
        (fun _ hj => lookup_erase_other _ hj) ?_
      rcases hk.apart hask.ne_registering (by rw [ht,hs]; simp) with hd | ⟨-,hn⟩
      · exact hk.dropped rfl hd rfl
      · rw [ht] at hn
        cases hn
    | some k' =>
      obtain ⟨he,-⟩ := hm.pending _ _ hs
      obtain rfl : k = k' := Nat.succ_injective he
      have hs' : s.deliver n (.response (k+1) r) =
          { s.send k ⟨r,some n⟩ with pending := s.pending.erase (k+1) } := by
        simp only [deliver,hs]
      rw [hs']
      have hsend := @ShowsCall.send F env s t
        { t.setReply k r with pending := t.pending.erase (k+1) } k x hk hm hx hs ⟨r,some n⟩
        (setReply_self t k r) rfl (.inl hask) (s.pending.erase (k+1))
        (lookup_erase_self _ k) (lookup_erase_self _ k)
      exact h.moved hx rfl (fun _ hj => lookup_erase_other _ hj) rfl rfl rfl rfl rfl
        (fun _ hj => setReply_other t hj r) (fun _ _ h => HashMap.lookup_of_erase h)
        (fun _ hj => lookup_erase_other _ hj) hsend

/-- Nothing but the reader, stdin or the channels has changed. -/
theorem Shows.frame {owners' : List ℕ} (h : Shows env owners s t)
    (hstr : ShowsStreams owners' s' t') (hc : s'.calls = s.calls)
    (hp : s'.pending = s.pending) (htc : t'.calls = t.calls) (htr : t'.replies = t.replies)
    (htp : t'.pending = t.pending) : Shows env owners' s' t' := by
  refine ⟨by rw [htc,hc,h.count],fun k x hx => ?_,by rw [htr,hc]; exact h.later,
    by rw [htp,hc]; exact h.keys,hstr⟩
  rw [hc] at hx
  rw [hp]
  exact (h.calls k x hx).frame (htc ▸ List.prefix_rfl) (by rw [htr]) (by rw [htp]) rfl

theorem ShowsStreams.event (h : ShowsStreams owners s t) (n : ℕ) (e : StreamEvent F) :
    ShowsStreams owners (s.deliver n (.event e)) (t.deliver (.event e)) := by
  have hsub := h.subscriptions e.streamId
  simp only [deliver,Tunnel.deliver]
  cases hc : s.subscriptions.lookup e.streamId with
  | none =>
    rw [hc,Option.bind_none] at hsub
    rw [hsub]
    exact h
  | some c =>
    have hlt : c < owners.length := h.length ▸ h.used _ c hc
    have hi := List.getElem?_eq_getElem hlt
    rw [hc,Option.bind_some,hi] at hsub
    rw [hsub]
    refine ⟨h.nodup,?_,?_,h.subscriptions,fun d j es hd hj => ?_,fun j y hj hy => ?_⟩
    · rw [List.length_modify]
      exact h.length
    · rw [List.length_modify]
      exact h.used
    · obtain ⟨es',hes,⟨rfl,rfl⟩ | ⟨hne,rfl⟩⟩ := getElem?_modify_cases hd
      · obtain rfl := Option.some.inj (hi.symm.trans hj)
        obtain ⟨y,hy,rfl⟩ := Option.map_eq_some_iff.mp (h.channels d _ es' hes hi)
        show ((t.connections.modify owners[d] _)[owners[d]]?).map _ = _
        rw [List.getElem?_modify_eq,hy]
        rfl
      · have hji : owners[c] ≠ j := by
          rintro rfl
          obtain ⟨hdl,hdj⟩ := List.getElem?_eq_some_iff.mp hj
          exact hne ((h.nodup.getElem_inj_iff).mp hdj)
        show ((t.connections.modify _ _)[_]?).map _ = _
        rw [List.getElem?_modify_ne _ _ hji]
        exact h.channels d j _ hes hj
    · have hji : owners[c] ≠ j := fun he => hj (he ▸ List.getElem_mem hlt)
      change (t.connections.modify owners[c] _)[j]? = some y at hy
      rw [List.getElem?_modify_ne _ _ hji] at hy
      exact h.idle j y hj hy

theorem ShowsStreams.subscribe (h : ShowsStreams owners s t) {i : ℕ} (hi : i < t.connections.length)
    (hnew : i ∉ owners) (stream : Text) : ShowsStreams (owners ++ [i])
      { s with
        subscriptions := s.subscriptions.insert stream s.channels.length
        channels := s.channels ++ [[]] }
      { t with subscriptions := t.subscriptions.insert stream i } := by
  refine ⟨?_,by simp [h.length],fun st c hc => ?_,fun st => ?_,fun c j es hc hj => ?_,
    fun j y hj hy => h.idle j y (fun hm => hj (List.mem_append_left _ hm)) hy⟩
  · rw [List.nodup_append]
    refine ⟨h.nodup,List.nodup_singleton i,fun a ha b hb => ?_⟩
    rw [List.mem_singleton.mp hb]
    rintro rfl
    exact hnew ha
  · rw [HashMap.lookup_insert_ite] at hc
    rw [List.length_append]
    split at hc
    · rw [← Option.some.inj hc]
      exact Nat.lt_succ_self _
    · exact Nat.lt_succ_of_lt (h.used st c hc)
  · rw [HashMap.lookup_insert_ite,HashMap.lookup_insert_ite]
    split
    · rw [Option.bind_some,← h.length,List.getElem?_concat_length]
    · rw [h.subscriptions st]
      cases hst : s.subscriptions.lookup st with
      | none => rfl
      | some c =>
        rw [Option.bind_some,Option.bind_some,List.getElem?_append_left]
        rw [h.length]
        exact h.used st c hst
  · rcases getElem?_append_one hc with hc | ⟨rfl,rfl⟩
    · have hlt : c < owners.length := h.length ▸ (List.getElem?_eq_some_iff.mp hc).1
      rw [List.getElem?_append_left hlt] at hj
      exact h.channels c j es hc hj
    · rw [← h.length,List.getElem?_concat_length] at hj
      obtain rfl := Option.some.inj hj
      show (t.connections[i]?).map _ = _
      rw [List.getElem?_eq_getElem hi]
      exact congrArg some (h.idle i _ hnew (List.getElem?_eq_getElem hi))

theorem ShowsStreams.unsubscribe (h : ShowsStreams owners s t) (stream : Text) :
    ShowsStreams owners { s with subscriptions := s.subscriptions.erase stream }
      { t with subscriptions := t.subscriptions.erase stream } := by
  refine ⟨h.nodup,h.length,fun st c hc => h.used st c (HashMap.lookup_of_erase hc),fun st => ?_,
    h.channels,h.idle⟩
  show (t.subscriptions.erase stream).lookup st = ((s.subscriptions.erase stream).lookup st).bind _
  rw [HashMap.lookup_erase_ite,HashMap.lookup_erase_ite]
  split
  · rfl
  · exact h.subscriptions st

theorem Shows.mem_values (h : Shows env owners s t) :
    k ∈ t.pending.values ↔ t.pending.lookup (k+1) = some k := by
  refine ⟨fun hk => ?_,fun hk => HashMap.mem_values.mpr ⟨_,hk⟩⟩
  obtain ⟨id,hid⟩ := HashMap.mem_values.mp hk
  rw [← (h.keys id k hid).1]
  exact hid

theorem Matched.mem_values (h : Matched env s) :
    k ∈ s.pending.values ↔ s.pending.lookup (k+1) = some k := by
  refine ⟨fun hk => ?_,fun hk => HashMap.mem_values.mpr ⟨_,hk⟩⟩
  obtain ⟨id,hid⟩ := HashMap.mem_values.mp hk
  rw [← (h.pending id k hid).1]
  exact hid

/-- A call that is past registering when the reader ends. -/
theorem ShowsCall.drain (hk : ShowsCall env s.pending t k x) (h : Shows env owners s t)
    (hm : Matched env s) (hx : s.calls[k]? = some x) (hr : x.phase ≠ .registering) :
    ShowsCall env ∅ t.drainPending k (if k ∈ s.pending.values then
      { x with reply := some ⟨.error (.processDied "SSH process exited"),none⟩ } else x) := by
  have hnone : ∀ id : ℕ, AList.lookup id (∅ : HashMap ℕ CallIx) = none := fun _ => rfl
  have hrep : t.drainPending.replies k = (t.replies k).or (if k ∈ t.pending.values then
      some (.error (.processDied "SSH process exited")) else none) := rfl
  by_cases hd : x.phase = .dropped
  · split
    · exact hk.dropped rfl hd rfl
    · exact hk.dropped rfl hd rfl
  by_cases ht : k ∈ t.pending.values
  · rw [if_pos ht] at hrep
    have hs : k ∈ s.pending.values := by
      rw [h.mem_values] at ht
      by_contra hs
      rcases hk.apart hr (fun he => hs (hm.mem_values.mpr (he ▸ ht))) with hd' | ⟨-,hn⟩
      · exact hd hd'
      · rw [ht] at hn
        cases hn
    rw [if_pos hs]
    exact @ShowsCall.send F env s t t.drainPending k x hk hm hx (hm.mem_values.mp hs)
      ⟨.error (.processDied "SSH process exited"),none⟩ hrep rfl (.inr rfl) ∅ (hnone _) (hnone _)
  · rw [if_neg ht,Option.or_none] at hrep
    split
    · rename_i hs
      have hne : t.pending.lookup (k+1) ≠ s.pending.lookup (k+1) :=
        fun he => ht (h.mem_values.mpr (he.trans (hm.mem_values.mp hs)))
      obtain ⟨he,-⟩ := (hk.apart hr hne).resolve_left hd
      exact hk.expired he _ rfl hrep (hnone _)
    · refine ⟨hk.line,fun hd => ?_,fun _ => ?_,hk.early⟩
      · rw [hrep]
        exact hk.reply hd
      · unfold Call.entry
        cases hp : x.phase with
        | registering => exact absurd hp hr
        | _ => simp [Tunnel.drainPending]

theorem Shows.drain (h : Shows env owners s t) (hm : Matched env s)
    (hw : ∀ (k : CallIx) (x : Call F), s.calls[k]? = some x → x.phase ≠ .registering) :
    Shows env owners s.drainPending t.drainPending := by
  have hlen : s.drainPending.calls.length = s.calls.length := List.length_mapIdx
  refine ⟨by rw [hlen]; exact h.count,fun k x hx => ?_,fun k hk => ?_,fun id k hk => ?_,
    h.streams.of_eq rfl rfl rfl rfl⟩
  · obtain ⟨y,hy,rfl⟩ : ∃ y, s.calls[k]? = some y ∧ (if k ∈ s.pending.values then
        { y with reply := some ⟨.error (.processDied "SSH process exited"),none⟩ } else y) = x := by
      rw [drainPending,List.getElem?_mapIdx] at hx
      exact Option.map_eq_some_iff.mp hx
    exact (h.calls k y hy).drain h hm hy (hw k y hy)
  · rw [hlen] at hk
    show (t.replies k).or _ = none
    rw [h.later k hk,if_neg]
    · rfl
    · intro hv
      exact absurd (h.keys _ k (h.mem_values.mp hv)).2 (Nat.not_lt.mpr hk)
  · cases hk

def owned (owners : List ℕ) (c : ℕ) : Act F → List ℕ
  | .subscribe _ => owners ++ [c]
  | _ => owners

/-- The call whose time is up, and the call that could not be written. -/
theorem Shows.gaveUp (h : Shows env owners s t) {p : CallPhase F} {e : RpcError}
    (hx : s.calls[k]? = some x) (hc : s'.calls = s.calls.modify k (fun x => { x with phase := p }))
    (hp : s'.pending = s.pending) (hsub : s'.subscriptions = s.subscriptions)
    (hch : s'.channels = s.channels)
    (hout : ∀ x : Call F, { x with phase := p }.outcome = some (.error e))
    (hnot : ∀ r, x.outcome = some r → r.toOption = none) (hd : x.phase ≠ .dropped)
    (hask : p.Asked) (htc : t'.calls = t.calls)
    (htr : t'.replies = (t.setReply k (.error e)).replies)
    (hts : t'.subscriptions = t.subscriptions) (htx : t'.connections = t.connections)
    (ht : ∀ (j c : ℕ), t'.pending.lookup j = some c → t.pending.lookup j = some c)
    (htj : ∀ j ≠ k, t'.pending.lookup (j+1) = t.pending.lookup (j+1))
    (hentry : t'.pending.lookup (k+1) = Call.entry s.pending k { x with phase := p }) :
    Shows env owners s' t' := by
  have hk := h.calls k x hx
  obtain ⟨y,hy,hl⟩ := hk.line
  refine h.moved hx hc (fun _ _ => by rw [hp]) hsub hch htc hts htx
    (fun j hj => by rw [htr]; exact setReply_other t hj _) ht htj
    ⟨⟨y,by rw [htc]; exact hy,hl⟩,fun _ => ?_,fun _ => by rw [hp]; exact hentry,
      fun hn => absurd hask hn⟩
  rw [hout,htr,setReply_self]
  have hold := hk.reply hd
  cases ho : x.outcome with
  | none =>
    rw [ho,Option.map_none,Option.map_eq_none_iff] at hold
    rw [hold]
    rfl
  | some r =>
    rw [ho,Option.map_some,hnot r ho] at hold
    obtain ⟨r',hr',he⟩ := Option.map_eq_some_iff.mp hold
    rw [hr',Option.some_or,Option.map_some,he]
    rfl

theorem Shows.step (h : Shows env owners s t) (hm : Matched env s) {c : ℕ}
    (hw : Whole s t owners c a) (hs : Step env s a s') :
    Shows env (owned owners c a) s' (follow s t c a) := by
  cases hs with
  | call method params =>
    obtain ⟨fields,rfl⟩ := hw
    exact h.call hm method fields
  | @register k x hx hp =>
    have hid := hm.id k x hx
    refine h.quiet hx rfl (fun j hj => ?_) rfl rfl (fun _ => ⟨by simp [hp],?_,?_⟩)
      (by simp [hp,CallPhase.Asked])
    · show AList.lookup _ (s.pending.insert _ _) = _
      rw [HashMap.lookup_insert_ite,hid,if_neg (fun he => hj (Nat.succ_injective he))]
    · simp [Call.outcome,hp]
    · simp [Call.entry,hp,hid]
  | lock hx hp hl =>
    exact h.quiet hx rfl (fun _ _ => rfl) rfl rfl
      (fun _ => ⟨by simp [hp],by simp [Call.outcome,hp],by simp [Call.entry,hp,setPhase]⟩)
      (by simp [hp,CallPhase.Asked])
  | write hx hp hb hn hr =>
    exact h.quiet hx rfl (fun _ _ => rfl) rfl rfl
      (fun _ => ⟨by simp [hp],by simp [Call.outcome,hp],by simp [Call.entry,hp,setPhase]⟩)
      (by simp [hp,CallPhase.Asked])
  | @flush k x hx hp =>
    refine h.quiet hx (unlock_calls _ k) (fun _ _ => by rw [unlock_pending]; rfl)
      (unlock_reader _ k).2.2.1 (unlock_channels _ k)
      (fun _ => ⟨by simp [hp],by simp [Call.outcome,hp],?_⟩) (by simp [hp,CallPhase.Asked])
    rw [unlock_pending]
    simp [Call.entry,hp,setPhase]
  | @fail k x rest hx hp hr hb =>
    have hk := h.calls k x hx
    refine h.gaveUp hx (unlock_calls _ k) (unlock_pending _ k) (unlock_reader _ k).2.2.1
      (unlock_channels _ k) (fun _ => rfl) (fun r hr => ?_) (by simp [hp]) trivial rfl rfl rfl rfl
      (fun _ _ h => h) (fun _ _ => rfl) ?_
    · rw [Call.outcome,hp] at hr
      obtain ⟨r',hr',rfl⟩ := Option.map_eq_some_iff.mp hr
      exact hk.early (by simp [hp,CallPhase.Asked]) r' hr'
    · show t.pending.lookup (k+1) = _
      rw [hk.entry (by simp [hp])]
      simp [Call.entry,hp]
  | finish hx hp hr =>
    exact h.quiet hx rfl (fun _ _ => rfl) rfl rfl
      (fun _ => ⟨by simp [hp],by simp [Call.outcome,hp,hr],by simp [Call.entry,hp,setPhase]⟩)
      (by simp [CallPhase.Asked])
  | @timeout k x hx hp hr =>
    refine h.gaveUp hx rfl rfl rfl rfl (fun _ => rfl) (fun r ho => ?_) (by simp [hp]) trivial rfl
      rfl rfl rfl (fun _ _ h => HashMap.lookup_of_erase h) (fun _ hj => lookup_erase_other _ hj)
      (lookup_erase_self _ k)
    rw [Call.outcome,hp,hr] at ho
    cases ho
  | @expire k x hx hp =>
    have hid := hm.id k x hx
    refine h.quiet hx rfl (fun j hj => ?_) rfl rfl
      (fun _ => ⟨by simp [hp],by simp [Call.outcome,hp],?_⟩) (by simp [CallPhase.Asked])
    · show AList.lookup _ (s.pending.erase x.id) = _
      rw [hid]
      exact lookup_erase_other _ hj
    · simp only [Call.entry,hp]
      rw [hid]
      exact lookup_erase_self _ k
  | @drop k x hx hr hd =>
    exact h.quiet hx (unlock_calls _ k) (fun _ _ => by rw [unlock_pending]; rfl)
      (unlock_reader _ k).2.2.1 (unlock_channels _ k) (fun hn => absurd rfl hn)
      (fun hn => absurd trivial hn)
  | breakPipe | receive hr | eof hr =>
    exact h.frame (h.streams.of_eq rfl rfl rfl rfl) rfl rfl rfl rfl rfl
  | @route n m hr =>
    have hf : follow s t c .route = t.deliver m := by
      simp only [follow,hr]
    rw [hf]
    have hmsg : Shows env owners (s.deliver n m) (t.deliver m) := by
      cases m with
      | skip => exact h
      | response id r => exact h.response hm (hw n id r hr) n
      | event e =>
        refine h.frame (h.streams.event n e) ?_ ?_ ?_ ?_ ?_
        all_goals
          simp only [deliver,Tunnel.deliver]
          split <;> rfl
    exact hmsg.frame (hmsg.streams.of_eq rfl rfl rfl rfl) rfl rfl rfl rfl rfl
  | drain hr =>
    have hd := h.drain hm hw
    exact hd.frame (hd.streams.of_eq rfl rfl rfl rfl) rfl rfl rfl rfl rfl
  | subscribe stream => exact h.frame (h.streams.subscribe hw.1 hw.2 stream) rfl rfl rfl rfl rfl
  | unsubscribe stream => exact h.frame (h.streams.unsubscribe stream) rfl rfl rfl rfl rfl

/-- The client, its view by messages, and the connection behind each channel. -/
structure Both (F : Type) where
  client : Rpc F
  view : Tunnel F
  owners : List ℕ

namespace Both

def step (env : RpcEnv F) (p : Both F) (a : Act F × ℕ) : Option (Both F) :=
  (p.client.step env a.1).map fun s =>
    ⟨s,follow p.client p.view a.2 a.1,owned p.owners a.2 a.1⟩

def Whole (p : Both F) (a : Act F × ℕ) : Prop := Rpc.Whole p.client p.view p.owners a.2 a.1

def start (connections : List (Tunnel.Connection F)) : Both F :=
  ⟨.init,{ Tunnel.init with connections := connections },[]⟩

end Both

theorem shows_start {connections : List (Tunnel.Connection F)}
    (h : ∀ y ∈ connections, y.channel = []) :
    Shows env [] (Both.start connections).client (Both.start connections).view := by
  refine ⟨rfl,fun k x hx => ?_,fun _ _ => rfl,fun id k hk => ?_,
    List.nodup_nil,rfl,fun st c hc => ?_,fun _ => rfl,fun c i es hc => ?_,fun i y _ hy =>
      h y (List.mem_of_getElem? hy)⟩
  · cases hx
  · cases hk
  · cases hc
  · cases hc

/-- The model of whole messages shows the client wherever such a run gets. -/
theorem messages_shown {connections : List (Tunnel.Connection F)} {p : Both F}
    (hc : ∀ y ∈ connections, y.channel = [])
    (h : Reach (Both.step env) Both.Whole (Both.start connections) p) :
    Shows env p.owners p.client p.view := by
  refine (h.inv (P := fun p => Matched env p.client ∧ Shows env p.owners p.client p.view)
    ⟨matched_init,shows_start hc⟩ ?_).2
  rintro p a p' ⟨hm,hs⟩ hw hstep
  obtain ⟨s',hs',rfl⟩ := Option.map_eq_some_iff.mp hstep
  exact ⟨hm.step (step_sound hs'),hs.step hm hw (step_sound hs')⟩

end Rpc

end Limux
