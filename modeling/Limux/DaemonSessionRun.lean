import Limux.DaemonSession

/-! Sizes of sessions over any sequence of requests: the minimum over the attachments there
are, or that of the last moment there was one. -/
namespace Limux

namespace Daemon

theorem foldl_smaller {l : List ℤ} {m : ℤ} (hm : 0 < m) (hl : ∀ n ∈ l, 0 < n) :
    l.foldl smaller m = l.foldl min m := by
  induction l generalizing m with
  | nil => rfl
  | cons n l ih =>
    have hn : 0 < n := hl n List.mem_cons_self
    have he : smaller m n = min m n := by
      unfold smaller
      split <;> omega
    rw [List.foldl_cons,List.foldl_cons,he]
    exact ih (by omega) (fun k hk => hl k (List.mem_cons_of_mem n hk))

/-- The loop finds the minimum of positive sizes; 0 is none of them. -/
theorem foldl_smaller_zero {l : List ℤ} (hl : ∀ n ∈ l, 0 < n) :
    l.foldl smaller 0 = l.min?.getD 0 := by
  cases l with
  | nil => rfl
  | cons n l =>
    rw [List.foldl_cons,show smaller 0 n = n from if_pos (.inl rfl),List.min?_cons',
      foldl_smaller (hl n List.mem_cons_self) (fun k hk => hl k (List.mem_cons_of_mem n hk))]
    rfl

theorem minSizes_eq (l : List SessionAttachment) :
    minSizes l = ((l.map (·.cols)).foldl smaller 0,(l.map (·.rows)).foldl smaller 0) := by
  suffices h : ∀ m : ℤ × ℤ, l.foldl (fun m a => (smaller m.1 a.cols,smaller m.2 a.rows)) m =
      ((l.map (·.cols)).foldl smaller m.1,(l.map (·.rows)).foldl smaller m.2) from h (0,0)
  induction l with
  | nil => exact fun m => rfl
  | cons a l ih => exact fun m => ih _

/-- The attachments of a session have positive sizes. -/
def SessionState.Positive (session : SessionState) : Prop :=
  ∀ a ∈ HashMap.values session.attachments, 0 < a.cols ∧ 0 < a.rows

/-- The minimum over the attachments, if there is one. -/
def SessionState.minimum (session : SessionState) (size : SessionAttachment → ℤ) : Option ℤ :=
  ((HashMap.values session.attachments).map size).min?

/-- The sizes of a session are `cols` and `rows`. -/
structure SessionState.Sized (session : SessionState) (cols rows : ℤ) : Prop where
  positive : session.Positive
  effectiveCols : session.effectiveCols = cols
  effectiveRows : session.effectiveRows = rows
  lastKnownCols : session.lastKnownCols = cols
  lastKnownRows : session.lastKnownRows = rows

theorem sized_recompute {session : SessionState} (h : session.Positive) :
    (recomputeSessionSize session).Sized
      ((session.minimum (·.cols)).getD session.lastKnownCols)
      ((session.minimum (·.rows)).getD session.lastKnownRows) := by
  unfold recomputeSessionSize
  split
  · rename_i hnil
    have hnone : ∀ size, session.minimum size = none :=
      fun size => by simp [SessionState.minimum,hnil]
    rw [hnone,hnone]
    exact ⟨h,rfl,rfl,rfl,rfl⟩
  · rename_i hne
    have hsome : ∀ (size : SessionAttachment → ℤ) (d : ℤ),
        (session.minimum size).getD d = (session.minimum size).getD 0 := by
      intro size d
      cases hm : session.minimum size with
      | none => exact absurd (List.map_eq_nil_iff.mp (List.min?_eq_none_iff.mp hm)) hne
      | some n => rfl
    have hcols := foldl_smaller_zero (l := (HashMap.values session.attachments).map (·.cols))
      (fun n hn => by
        obtain ⟨a,ha,rfl⟩ := List.mem_map.mp hn
        exact (h a ha).1)
    have hrows := foldl_smaller_zero (l := (HashMap.values session.attachments).map (·.rows))
      (fun n hn => by
        obtain ⟨a,ha,rfl⟩ := List.mem_map.mp hn
        exact (h a ha).2)
    rw [minSizes_eq,hcols,hrows,hsome,hsome _ session.lastKnownRows]
    exact ⟨h,rfl,rfl,rfl,rfl⟩

theorem attachments_recompute (session : SessionState) :
    (recomputeSessionSize session).attachments = session.attachments := by
  unfold recomputeSessionSize
  split
  · rfl
  · rfl

theorem minimum_recompute (session : SessionState) (size : SessionAttachment → ℤ) :
    (recomputeSessionSize session).minimum size = session.minimum size := by
  unfold SessionState.minimum
  rw [attachments_recompute]

/-- The order in which the loop takes the attachments does not matter. -/
theorem minSizes_perm {l l' : List SessionAttachment} (h : l.Perm l')
    (hl : ∀ a ∈ l, 0 < a.cols ∧ 0 < a.rows) : minSizes l = minSizes l' := by
  have hmin : ∀ size : SessionAttachment → ℤ, (∀ a ∈ l, 0 < size a) →
      (l.map size).foldl smaller 0 = (l'.map size).foldl smaller 0 := by
    intro size hs
    have hs' : ∀ a ∈ l', 0 < size a := fun a ha => hs a (h.mem_iff.mpr ha)
    rw [foldl_smaller_zero (by simpa using hs),foldl_smaller_zero (by simpa using hs')]
    have hp := h.map size
    congr 1
    cases hm : (l.map size).min? with
    | none =>
      rw [List.min?_eq_none_iff.mp hm] at hp
      rw [List.nil_perm.mp hp]
      rfl
    | some n =>
      have hn := List.min?_eq_some_iff.mp hm
      exact (List.min?_eq_some_iff.mpr ⟨hp.mem_iff.mp hn.1,
        fun k hk => hn.2 k (hp.mem_iff.mpr hk)⟩).symm
  rw [minSizes_eq,minSizes_eq,hmin _ (fun a ha => (hl a ha).1),hmin _ (fun a ha => (hl a ha).2)]

/-- What a request may do to the session `id`. -/
inductive Sessions.Touched (s s' : Sessions) (id : Text) : Prop
  | kept (h : s'.sessions.lookup id = s.sessions.lookup id)
  | closed (h : s'.sessions.lookup id = none)
  | opened (h : s.sessions.lookup id = none) (h' : s'.sessions.lookup id = some ⟨∅,0,0,0,0⟩)
  | resized {session : SessionState} (attachments : HashMap Text SessionAttachment)
      (h : s.sessions.lookup id = some session)
      (h' : s'.sessions.lookup id =
        some (recomputeSessionSize { session with attachments := attachments }))
      (hp : ∀ a ∈ HashMap.values attachments,
        a ∈ HashMap.values session.attachments ∨ 0 < a.cols ∧ 0 < a.rows)

namespace Sessions

variable {F : Type} {trunc : F → Option ℤ} {now : Text} {s s' : Sessions}
  {req : RpcRequest F} {resp : RpcResponse F}

theorem touched_put {sessionID : Text} {session : SessionState}
    (attachments : HashMap Text SessionAttachment)
    (h : s.sessions.lookup sessionID = some session)
    (hp : ∀ a ∈ HashMap.values attachments,
      a ∈ HashMap.values session.attachments ∨ 0 < a.cols ∧ 0 < a.rows) (i : Json F) (id : Text) :
    Touched s (s.setAttachments i sessionID session attachments).1 id := by
  by_cases he : id = sessionID
  · subst he
    exact .resized attachments h (AList.lookup_insert _) hp
  · exact .kept (AList.lookup_insert_ne he)

theorem positive_insert {session : SessionState} (attachmentID : Text) {a : SessionAttachment}
    (h : 0 < a.cols ∧ 0 < a.rows) :
    ∀ b ∈ HashMap.values (session.attachments.insert attachmentID a),
      b ∈ HashMap.values session.attachments ∨ 0 < b.cols ∧ 0 < b.rows := by
  intro b hb
  obtain ⟨k,hk⟩ := HashMap.mem_values.mp hb
  rw [HashMap.lookup_insert_ite] at hk
  split at hk
  · cases hk
    exact .inr h
  · exact .inl (HashMap.mem_values.mpr ⟨k,hk⟩)

theorem positive_erase {session : SessionState} (attachmentID : Text) :
    ∀ b ∈ HashMap.values (session.attachments.erase attachmentID),
      b ∈ HashMap.values session.attachments ∨ 0 < b.cols ∧ 0 < b.rows := by
  intro b hb
  obtain ⟨k,hk⟩ := HashMap.mem_values.mp hb
  rw [HashMap.lookup_erase_ite] at hk
  split at hk
  · cases hk
  · exact .inl (HashMap.mem_values.mpr ⟨k,hk⟩)

theorem requireSize_pos {method key : String} {n : ℤ}
    (h : requireSize trunc req method key = .ok n) : 0 < n := by
  unfold requireSize at h
  split at h
  · cases h
  · split at h
    · cases h
    · cases h
      omega

theorem parse_pos {method : String} {sessionID attachmentID : Text} {cols rows : ℤ}
    (h : parseSessionAttachmentParams trunc req method =
      .ok (sessionID,attachmentID,cols,rows)) : 0 < cols ∧ 0 < rows := by
  unfold parseSessionAttachmentParams at h
  cases h₁ : requireParam req method "session_id" with
  | error e => simp [h₁,bind,Except.bind] at h
  | ok a =>
    cases h₂ : requireParam req method "attachment_id" with
    | error e => simp [h₁,h₂,bind,Except.bind] at h
    | ok b =>
      cases h₃ : requireSize trunc req method "cols" with
      | error e => simp [h₁,h₂,h₃,bind,Except.bind] at h
      | ok c =>
        cases h₄ : requireSize trunc req method "rows" with
        | error e => simp [h₁,h₂,h₃,h₄,bind,Except.bind] at h
        | ok d =>
          simp only [h₁,h₂,h₃,h₄,bind,Except.bind,pure,Except.pure,Except.ok.injEq,
            Prod.mk.injEq] at h
          obtain ⟨-,-,rfl,rfl⟩ := h
          exact ⟨requireSize_pos h₃,requireSize_pos h₄⟩

/-- What a handler may do: a fault changes nothing, and each session is touched in one of
the ways. -/
def Allowed (s : Sessions) (r : Sessions × RpcResponse F) : Prop :=
  (∀ e, r.2.result = .error e → r.1 = s) ∧ ∀ id, Touched s r.1 id

theorem allowed_fault (i : Json F) (e : RpcFault) : Allowed s (s,⟨i,.error e⟩) :=
  ⟨fun _ _ => rfl,fun _ => .kept rfl⟩

theorem allowed_set {sessionID : Text} {session : SessionState}
    {attachments : HashMap Text SessionAttachment} {i : Json F}
    (h : s.sessions.lookup sessionID = some session)
    (hp : ∀ a ∈ HashMap.values attachments,
      a ∈ HashMap.values session.attachments ∨ 0 < a.cols ∧ 0 < a.rows) :
    Allowed s (s.setAttachments i sessionID session attachments) := by
  refine ⟨fun e he => ?_,touched_put attachments h hp i⟩
  cases he

theorem allowed_open : Allowed s (s.handleSessionOpen req) := by
  unfold handleSessionOpen
  extract_lets given s' sessionID
  have hs : s'.sessions = s.sessions := by
    unfold s'
    split
    · rfl
    · rfl
  cases hl : s'.sessions.lookup sessionID with
  | some session =>
    refine ⟨fun e he => ?_,fun id => .kept (by rw [hs])⟩
    cases he
  | none =>
    refine ⟨fun e he => ?_,fun id => ?_⟩
    · cases he
    · by_cases he : id = sessionID
      · subst he
        exact .opened (by rw [← hs,hl]) (AList.lookup_insert _)
      · exact .kept ((AList.lookup_insert_ne he).trans (by rw [hs]))

theorem allowed_close : Allowed s (s.handleSessionClose req) := by
  unfold handleSessionClose
  cases requireParam req "session.close" "session_id" with
  | error e => exact allowed_fault _ e
  | ok sessionID =>
    dsimp only
    cases hl : s.sessions.lookup sessionID with
    | none => exact allowed_fault _ _
    | some session =>
      refine ⟨fun e he => ?_,fun id => ?_⟩
      · cases he
      · by_cases he : id = sessionID
        · subst he
          exact .closed (AList.lookup_erase _ _)
        · exact .kept (AList.lookup_erase_ne he)

theorem allowed_attach : Allowed s (s.handleSessionAttach trunc now req) := by
  unfold handleSessionAttach
  cases hp : parseSessionAttachmentParams trunc req "session.attach" with
  | error e => exact allowed_fault _ e
  | ok p =>
    obtain ⟨sessionID,attachmentID,cols,rows⟩ := p
    dsimp only
    cases hl : s.sessions.lookup sessionID with
    | none => exact allowed_fault _ _
    | some session => exact allowed_set hl (positive_insert attachmentID (parse_pos hp))

theorem allowed_resize : Allowed s (s.handleSessionResize trunc now req) := by
  unfold handleSessionResize
  cases hp : parseSessionAttachmentParams trunc req "session.resize" with
  | error e => exact allowed_fault _ e
  | ok p =>
    obtain ⟨sessionID,attachmentID,cols,rows⟩ := p
    dsimp only
    cases hl : s.sessions.lookup sessionID with
    | none => exact allowed_fault _ _
    | some session =>
      dsimp only
      cases ha : session.attachments.lookup attachmentID with
      | none => exact allowed_fault _ _
      | some a => exact allowed_set hl (positive_insert attachmentID (parse_pos hp))

theorem allowed_detach : Allowed s (s.handleSessionDetach req) := by
  unfold handleSessionDetach
  cases requireParam req "session.detach" "session_id" with
  | error e => exact allowed_fault _ e
  | ok sessionID =>
    cases requireParam req "session.detach" "attachment_id" with
    | error e => exact allowed_fault _ e
    | ok attachmentID =>
      dsimp only
      cases hl : s.sessions.lookup sessionID with
      | none => exact allowed_fault _ _
      | some session =>
        dsimp only
        cases ha : session.attachments.lookup attachmentID with
        | none => exact allowed_fault _ _
        | some a => exact allowed_set hl (positive_erase attachmentID)

theorem allowed_status : Allowed s (s.handleSessionStatus req) := by
  unfold handleSessionStatus
  cases requireParam req "session.status" "session_id" with
  | error e => exact allowed_fault _ e
  | ok sessionID =>
    dsimp only
    cases hl : s.sessions.lookup sessionID with
    | none => exact allowed_fault _ _
    | some session =>
      refine ⟨fun e he => ?_,fun id => .kept rfl⟩
      cases he

theorem allowed_handleRequest {r : Sessions × RpcResponse F}
    (h : s.handleRequest trunc now req = some r) : Allowed s r := by
  unfold handleRequest at h
  split at h
  · exact Option.some.inj h ▸ allowed_open
  · split at h
    · exact Option.some.inj h ▸ allowed_close
    · split at h
      · exact Option.some.inj h ▸ allowed_attach
      · split at h
        · exact Option.some.inj h ▸ allowed_resize
        · split at h
          · exact Option.some.inj h ▸ allowed_detach
          · split at h
            · exact Option.some.inj h ▸ allowed_status
            · cases h

/-- The sessions after a request; those that have nothing to do with them leave them. -/
def after (trunc : F → Option ℤ) (r : Text × RpcRequest F) (s : Sessions) : Sessions :=
  ((s.handleRequest trunc r.1 r.2).map Prod.fst).getD s

theorem touched_after (r : Text × RpcRequest F) (id : Text) : Touched s (s.after trunc r) id := by
  unfold after
  cases h : s.handleRequest trunc r.1 r.2 with
  | none => exact .kept rfl
  | some p => exact (allowed_handleRequest h).2 id

def served (trunc : F → Option ℤ) (rs : List (Text × RpcRequest F)) : Sessions :=
  rs.foldr (after trunc) init

def moments (trunc : F → Option ℤ) (rs : List (Text × RpcRequest F)) : List Sessions :=
  rs.tails.map (served trunc)

/-- The minimum over the attachments of a session at the last moment it had one, 0 if it
never had one. -/
def lastMinimum (size : SessionAttachment → ℤ) (id : Text) : List Sessions → ℤ
  | [] => 0
  | s :: past =>
    match s.sessions.lookup id with
    | none => 0
    | some session => (session.minimum size).getD (lastMinimum size id past)

theorem lastMinimum_of_none {size : SessionAttachment → ℤ} {id : Text} {past : List Sessions}
    (h : s.sessions.lookup id = none) : lastMinimum size id (s :: past) = 0 := by
  rw [lastMinimum,h]

theorem lastMinimum_of_some {size : SessionAttachment → ℤ} {id : Text} {past : List Sessions}
    {session : SessionState} (h : s.sessions.lookup id = some session) :
    lastMinimum size id (s :: past) =
      (session.minimum size).getD (lastMinimum size id past) := by
  rw [lastMinimum,h]

theorem moments_cons (trunc : F → Option ℤ) (r : Text × RpcRequest F)
    (rs : List (Text × RpcRequest F)) :
    moments trunc (r :: rs) = served trunc (r :: rs) :: moments trunc rs := by
  rw [moments,List.tails,List.map_cons,moments]

/-- All sessions have the sizes of their last moments with an attachment. -/
def Followed (s : Sessions) (past : List Sessions) : Prop :=
  ∀ id session, s.sessions.lookup id = some session →
    session.Sized (lastMinimum (·.cols) id past) (lastMinimum (·.rows) id past)

theorem lastMinimum_again {size : SessionAttachment → ℤ} {id : Text} {past : List Sessions}
    (h : s'.sessions.lookup id = s.sessions.lookup id) :
    lastMinimum size id (s' :: s :: past) = lastMinimum size id (s :: past) := by
  cases hl : s.sessions.lookup id with
  | none => rw [lastMinimum_of_none hl,lastMinimum_of_none (h.trans hl)]
  | some session =>
    rw [lastMinimum_of_some hl,lastMinimum_of_some (h.trans hl),lastMinimum_of_some hl]
    cases session.minimum size with
    | none => rfl
    | some n => rfl

theorem followed_of_touched {past : List Sessions} (h : Followed s (s :: past))
    (ht : ∀ id, Touched s s' id) : Followed s' (s' :: s :: past) := by
  intro id session hs
  cases ht id with
  | kept hk =>
    rw [lastMinimum_again hk,lastMinimum_again hk]
    exact h id session (hk.symm.trans hs)
  | closed hc =>
    rw [hc] at hs
    cases hs
  | opened ho hn =>
    rw [lastMinimum_of_some hn,lastMinimum_of_some hn,lastMinimum_of_none ho,
      lastMinimum_of_none ho]
    obtain rfl := Option.some.inj (hn.symm.trans hs)
    exact ⟨fun a ha => absurd ha List.not_mem_nil,rfl,rfl,rfl,rfl⟩
  | resized attachments hold hnew hp =>
    rename_i old
    have hsize := h id old hold
    have hpos : ({ old with attachments := attachments } : SessionState).Positive :=
      fun a ha => (hp a ha).elim (hsize.positive a) (fun h => h)
    have hr := sized_recompute hpos
    rw [lastMinimum_of_some hnew,lastMinimum_of_some hnew,minimum_recompute,minimum_recompute,
      ← hsize.lastKnownCols,← hsize.lastKnownRows]
    obtain rfl := Option.some.inj (hnew.symm.trans hs)
    exact hr

theorem followed (trunc : F → Option ℤ) (rs : List (Text × RpcRequest F)) :
    Followed (served trunc rs) (moments trunc rs) := by
  induction rs with
  | nil =>
    intro id session hs
    cases hs
  | cons r rs ih =>
    have hm : ∃ past, moments trunc rs = served trunc rs :: past := by
      cases rs with
      | nil => exact ⟨[],rfl⟩
      | cons q qs => exact ⟨_,moments_cons trunc q qs⟩
    obtain ⟨past,hm⟩ := hm
    rw [hm] at ih
    rw [moments_cons,hm]
    exact followed_of_touched ih (touched_after r)

/-- After any requests the effective size of a session and the last known one are the
minimum over its attachments, or that of the last moment it had one; all attachments are
positive; and a request that is answered with an error changes nothing. -/
theorem sizes_follow (trunc : F → Option ℤ) (rs : List (Text × RpcRequest F)) :
    (∀ id session, (served trunc rs).sessions.lookup id = some session →
      session.effectiveCols = lastMinimum (·.cols) id (moments trunc rs) ∧
      session.effectiveRows = lastMinimum (·.rows) id (moments trunc rs) ∧
      session.lastKnownCols = lastMinimum (·.cols) id (moments trunc rs) ∧
      session.lastKnownRows = lastMinimum (·.rows) id (moments trunc rs) ∧
      ∀ key a, session.attachments.lookup key = some a → 0 < a.cols ∧ 0 < a.rows) ∧
    ∀ now req s' resp e, (served trunc rs).handleRequest trunc now req = some (s',resp) →
      resp.result = .error e → s' = served trunc rs := by
  refine ⟨fun id session hs => ?_,fun now req s' resp e h he => ?_⟩
  · have h := followed trunc rs id session hs
    exact ⟨h.effectiveCols,h.effectiveRows,h.lastKnownCols,h.lastKnownRows,
      fun key a ha => h.positive a (HashMap.mem_values.mpr ⟨key,ha⟩)⟩
  · exact (allowed_handleRequest h).1 e he

/-- A request for the session `sess-rz`. -/
def resizeCall (method : String) (attachment : String) (cols rows : ℤ) :
    Text × RpcRequest Unit :=
  ([],⟨.null,method.toList,[("session_id",.str "sess-rz".toList),
    ("attachment_id",.str attachment.toList),("cols",.num (.int cols)),
    ("rows",.num (.int rows))]⟩)

def resizeCalls : List (Text × RpcRequest Unit) :=
  [resizeCall "session.detach" "a-large" 0 0,resizeCall "session.detach" "a-small" 0 0,
    resizeCall "session.resize" "a-large" 200 60,resizeCall "session.attach" "a-large" 120 40,
    resizeCall "session.attach" "a-small" 90 30,resizeCall "session.open" "" 0 0]

theorem sizes_follow_resize : ∃ session,
    (served (fun _ => none) resizeCalls).sessions.lookup "sess-rz".toList = some session ∧
      session.effectiveCols = 200 ∧
      session.lastKnownRows =
        lastMinimum (·.rows) "sess-rz".toList (moments (fun _ => none) resizeCalls) :=
  ⟨_,rfl,by decide,
    ((sizes_follow (fun _ => none) resizeCalls).1 "sess-rz".toList _ rfl).2.2.2.1⟩

end Sessions

end Daemon

end Limux
