import Limux.DaemonSessionRun
import Limux.Lib.Number

/-! Names of the daemon's sessions over any sequence of requests: those that clients choose,
and those that the counter makes. -/
namespace Limux

variable {F : Type}

namespace RpcRequest

def sessionID (req : RpcRequest F) : Text := (getStringParam req.params "session_id").getD []

def Opens (req : RpcRequest F) : Prop := req.method = "session.open".toList

instance (req : RpcRequest F) : Decidable req.Opens :=
  inferInstanceAs (Decidable (req.method = "session.open".toList))

end RpcRequest

namespace Daemon

def serialName (n : ℕ) : Text := "sess-".toList ++ Text.ofNat n

theorem serialName_inj {m n : ℕ} (h : serialName m = serialName n) : m = n := by
  have hd : Text.ofNat m = Text.ofNat n := List.append_cancel_left h
  apply Option.some.inj
  rw [← Text.digits_ofNat m,← Text.digits_ofNat n,hd]

theorem serialName_ne_nil (n : ℕ) : serialName n ≠ [] := by
  intro h
  exact Text.ofNat_ne_nil n (List.append_eq_nil_iff.mp h).2

theorem snapshot_inj {id id' : Text} {a b : SessionState}
    (h : sessionSnapshot (F := F) id a = sessionSnapshot id' b) : id = id' := by
  have hl : ∀ (i : Text) (c : SessionState),
      (sessionSnapshot (F := F) i c).lookup "session_id" = some (.str i) := fun i c => rfl
  have he := congrArg (List.lookup "session_id") h
  rw [hl,hl] at he
  cases he
  rfl

namespace Sessions

variable {trunc : F → Option ℤ} {now : Text} {s : Sessions} {req : RpcRequest F}

/-- The name `session.open` takes for a request. -/
def openedName (s : Sessions) (req : RpcRequest F) : Text :=
  if req.sessionID = [] then serialName s.nextSessionID else req.sessionID

theorem next_open (s : Sessions) (req : RpcRequest F) :
    (s.handleSessionOpen req).1.nextSessionID =
      if req.sessionID = [] then s.nextSessionID+1 else s.nextSessionID := by
  have hn : (if req.sessionID = [] then { s with nextSessionID := s.nextSessionID+1 }
      else s : Sessions).nextSessionID =
        if req.sessionID = [] then s.nextSessionID+1 else s.nextSessionID := by
    split <;> rfl
  rw [← hn]
  unfold handleSessionOpen
  extract_lets given s' name
  cases s'.sessions.lookup name with
  | none => rfl
  | some session => rfl

theorem lookup_open (s : Sessions) (req : RpcRequest F) (id : Text) :
    (s.handleSessionOpen req).1.sessions.lookup id =
      if id = s.openedName req then some ((s.sessions.lookup id).getD ⟨∅,0,0,0,0⟩)
      else s.sessions.lookup id := by
  unfold handleSessionOpen
  extract_lets given s' name
  have hs : s'.sessions = s.sessions := by
    unfold s'
    split <;> rfl
  have hname : name = s.openedName req := rfl
  rw [← hname,hs]
  cases hl : s.sessions.lookup name with
  | none =>
    simp only [put,hs]
    rw [HashMap.lookup_insert_ite]
    by_cases he : id = name
    · subst he
      rw [hl]
      rfl
    · rw [if_neg he,if_neg he]
  | some session =>
    by_cases he : id = name
    · subst he
      simp [hs,hl]
    · simp [he,hs]

theorem answer_open (s : Sessions) (req : RpcRequest F) :
    (s.handleSessionOpen req).2 = .success req.id (sessionSnapshot (s.openedName req)
      ((s.sessions.lookup (s.openedName req)).getD ⟨∅,0,0,0,0⟩)) := by
  unfold handleSessionOpen
  extract_lets given s' name
  have hs : s'.sessions = s.sessions := by
    unfold s'
    split <;> rfl
  have hname : name = s.openedName req := rfl
  rw [← hname,hs]
  cases hl : s.sessions.lookup name with
  | none => rfl
  | some session => rfl

/-- The counter stays, and no session is new. -/
structure Older (s s' : Sessions) : Prop where
  next : s'.nextSessionID = s.nextSessionID
  mem : ∀ id ∈ s'.sessions, id ∈ s.sessions

theorem Older.rfl : Older s s := ⟨Eq.refl _,fun _ h => h⟩

theorem older_set {sessionID : Text} {session : SessionState}
    (h : s.sessions.lookup sessionID = some session) (i : Json F)
    (attachments : HashMap Text SessionAttachment) :
    Older s (s.setAttachments i sessionID session attachments).1 := by
  refine ⟨Eq.refl _,fun id hid => ?_⟩
  rcases (AList.mem_insert _).mp hid with rfl | hid
  · exact HashMap.mem_iff_lookup.mpr ⟨session,h⟩
  · exact hid

theorem older_close (s : Sessions) (req : RpcRequest F) : Older s (s.handleSessionClose req).1 := by
  unfold handleSessionClose
  cases requireParam req "session.close" "session_id" with
  | error e => exact .rfl
  | ok sessionID =>
    dsimp only
    cases s.sessions.lookup sessionID with
    | none => exact .rfl
    | some session => exact ⟨Eq.refl _,fun id hid => (AList.mem_erase.mp hid).2⟩

theorem older_attach (s : Sessions) (req : RpcRequest F) :
    Older s (s.handleSessionAttach trunc now req).1 := by
  unfold handleSessionAttach
  cases parseSessionAttachmentParams trunc req "session.attach" with
  | error e => exact .rfl
  | ok p =>
    obtain ⟨sessionID,attachmentID,cols,rows⟩ := p
    dsimp only
    cases hl : s.sessions.lookup sessionID with
    | none => exact .rfl
    | some session => exact older_set hl _ _

theorem older_resize (s : Sessions) (req : RpcRequest F) :
    Older s (s.handleSessionResize trunc now req).1 := by
  unfold handleSessionResize
  cases parseSessionAttachmentParams trunc req "session.resize" with
  | error e => exact .rfl
  | ok p =>
    obtain ⟨sessionID,attachmentID,cols,rows⟩ := p
    dsimp only
    cases hl : s.sessions.lookup sessionID with
    | none => exact .rfl
    | some session =>
      dsimp only
      cases session.attachments.lookup attachmentID with
      | none => exact .rfl
      | some a => exact older_set hl _ _

theorem older_detach (s : Sessions) (req : RpcRequest F) :
    Older s (s.handleSessionDetach req).1 := by
  unfold handleSessionDetach
  cases requireParam req "session.detach" "session_id" with
  | error e => exact .rfl
  | ok sessionID =>
    cases requireParam req "session.detach" "attachment_id" with
    | error e => exact .rfl
    | ok attachmentID =>
      dsimp only
      cases hl : s.sessions.lookup sessionID with
      | none => exact .rfl
      | some session =>
        dsimp only
        cases session.attachments.lookup attachmentID with
        | none => exact .rfl
        | some a => exact older_set hl _ _

theorem older_status (s : Sessions) (req : RpcRequest F) :
    Older s (s.handleSessionStatus req).1 := by
  unfold handleSessionStatus
  cases requireParam req "session.status" "session_id" with
  | error e => exact .rfl
  | ok sessionID =>
    dsimp only
    cases s.sessions.lookup sessionID with
    | none => exact .rfl
    | some session => exact .rfl

/-- Only `session.open` makes names. -/
theorem older_after {r : Text × RpcRequest F} (h : ¬ r.2.Opens) :
    Older s (s.after trunc r) := by
  unfold after handleRequest
  rw [if_neg (c := r.2.method = _) h]
  split
  · exact older_close s r.2
  · split
    · exact older_attach s r.2
    · split
      · exact older_resize s r.2
      · split
        · exact older_detach s r.2
        · split
          · exact older_status s r.2
          · exact .rfl

theorem after_of_opens {r : Text × RpcRequest F} (h : r.2.Opens) :
    s.after trunc r = (s.handleSessionOpen r.2).1 := by
  unfold after handleRequest
  rw [if_pos (c := r.2.method = _) h]
  rfl

theorem mem_open {id : Text} :
    id ∈ (s.handleSessionOpen req).1.sessions ↔ id ∈ s.sessions ∨ id = s.openedName req := by
  rw [HashMap.mem_iff_lookup,HashMap.mem_iff_lookup,lookup_open]
  by_cases h : id = s.openedName req
  · simp [h]
  · simp [h]

def unnamed (rs : List (Text × RpcRequest F)) : ℕ :=
  rs.countP (fun r => decide (r.2.Opens ∧ r.2.sessionID = []))

theorem served_next (trunc : F → Option ℤ) (rs : List (Text × RpcRequest F)) :
    (served trunc rs).nextSessionID = unnamed rs+1 := by
  induction rs with
  | nil => rfl
  | cons r rs ih =>
    change ((served trunc rs).after trunc r).nextSessionID = _
    by_cases ho : r.2.Opens
    · rw [after_of_opens ho,next_open,ih,unnamed,unnamed,List.countP_cons]
      by_cases hn : r.2.sessionID = []
      · simp [ho,hn]
      · simp [hn]
    · rw [(older_after ho).next,ih,unnamed,unnamed,List.countP_cons]
      simp [ho]

/-- At some moment of the run a session had the name `id`. -/
def Had (trunc : F → Option ℤ) (rs : List (Text × RpcRequest F)) (id : Text) : Prop :=
  ∃ s ∈ moments trunc rs, id ∈ s.sessions

theorem had_cons {r : Text × RpcRequest F} {rs : List (Text × RpcRequest F)} {id : Text} :
    Had trunc (r :: rs) id ↔ id ∈ (served trunc (r :: rs)).sessions ∨ Had trunc rs id := by
  unfold Had
  rw [moments_cons]
  exact List.exists_mem_cons_iff _ _ _

theorem had_of_mem {rs : List (Text × RpcRequest F)} {id : Text}
    (h : id ∈ (served trunc rs).sessions) : Had trunc rs id := by
  cases rs with
  | nil => exact ⟨_,List.mem_singleton_self _,h⟩
  | cons r rs => exact had_cons.mpr (.inl h)

/-- A request of the run chose the name `id`. -/
def Chosen (rs : List (Text × RpcRequest F)) (id : Text) : Prop :=
  ∃ r ∈ rs, r.2.Opens ∧ r.2.sessionID = id

/-- The names there have been are those that were chosen and those the counter made. -/
theorem had_iff {rs : List (Text × RpcRequest F)} {id : Text} (hid : id ≠ []) :
    Had trunc rs id ↔ Chosen rs id ∨ ∃ n, 1 ≤ n ∧ n ≤ unnamed rs ∧ id = serialName n := by
  induction rs with
  | nil =>
    constructor
    · rintro ⟨s,hs,hm⟩
      rw [show s = init from List.mem_singleton.mp hs] at hm
      cases AList.notMem_empty id hm
    · rintro (⟨r,hr,-⟩ | ⟨n,h1,h2,-⟩)
      · cases hr
      · exact absurd (h1.trans h2) (by simp [unnamed])
  | cons r rs ih =>
    have hserved : served trunc (r :: rs) = (served trunc rs).after trunc r := rfl
    rw [had_cons,hserved]
    by_cases ho : r.2.Opens
    · rw [after_of_opens ho,mem_open,openedName,served_next]
      have hc : Chosen (r :: rs) id ↔ r.2.sessionID = id ∨ Chosen rs id := by
        simp only [Chosen,List.exists_mem_cons_iff,ho,true_and]
      rw [hc]
      by_cases hn : r.2.sessionID = []
      · have hu : unnamed (r :: rs) = unnamed rs+1 := by simp [unnamed,ho,hn]
        rw [if_pos hn,hu,hn]
        constructor
        · rintro ((hm | rfl) | hh)
          · exact (ih.mp (had_of_mem hm)).imp .inr (fun ⟨n,h1,h2,h3⟩ => ⟨n,h1,by omega,h3⟩)
          · exact .inr ⟨_,by omega,le_rfl,rfl⟩
          · exact (ih.mp hh).imp .inr (fun ⟨n,h1,h2,h3⟩ => ⟨n,h1,by omega,h3⟩)
        · rintro ((h | h) | ⟨n,h1,h2,rfl⟩)
          · exact absurd h.symm hid
          · exact .inr (ih.mpr (.inl h))
          · rcases Nat.lt_or_ge (unnamed rs) n with hlt | hle
            · have he : n = unnamed rs+1 := by omega
              exact .inl (.inr (by rw [he]))
            · exact .inr (ih.mpr (.inr ⟨n,h1,hle,rfl⟩))
      · have hu : unnamed (r :: rs) = unnamed rs := by simp [unnamed,hn]
        rw [if_neg hn,hu]
        constructor
        · rintro ((hm | rfl) | hh)
          · exact (ih.mp (had_of_mem hm)).imp .inr (fun h => h)
          · exact .inl (.inl rfl)
          · exact (ih.mp hh).imp .inr (fun h => h)
        · rintro ((rfl | h) | h)
          · exact .inl (.inr rfl)
          · exact .inr (ih.mpr (.inl h))
          · exact .inr (ih.mpr (.inr h))
    · have hu : unnamed (r :: rs) = unnamed rs := by simp [unnamed,ho]
      have hc : Chosen (r :: rs) id ↔ Chosen rs id := by
        simp only [Chosen,List.exists_mem_cons_iff,ho,false_and,false_or]
      rw [hu,hc,← ih]
      exact ⟨fun h => h.elim (fun hm => had_of_mem ((older_after ho).mem id hm)) (fun h => h),
        .inr⟩

/-- After the run, `session.open` without a name answers with a name that no session had and
makes an empty session of it, next to the others. -/
def FreshNext (trunc : F → Option ℤ) (rs : List (Text × RpcRequest F)) : Prop :=
  ∀ (now : Text) (req : RpcRequest F), req.Opens → req.sessionID = [] → ∃ id s',
    (served trunc rs).handleRequest trunc now req =
      some (s',.success req.id (sessionSnapshot id ⟨∅,0,0,0,0⟩)) ∧
    ¬ Had trunc rs id ∧ s'.sessions.lookup id = some ⟨∅,0,0,0,0⟩ ∧
    ∀ other ≠ id, s'.sessions.lookup other = (served trunc rs).sessions.lookup other

theorem handleRequest_of_opens (h : req.Opens) :
    s.handleRequest trunc now req = some (s.handleSessionOpen req) := if_pos h

theorem openedName_served {rs : List (Text × RpcRequest F)} (h : req.sessionID = []) :
    (served trunc rs).openedName req = serialName (unnamed rs+1) := by
  rw [openedName,if_pos h,served_next]

theorem freshNext_iff_not_had (trunc : F → Option ℤ) (rs : List (Text × RpcRequest F)) :
    FreshNext trunc rs ↔ ¬ Had trunc rs (serialName (unnamed rs+1)) := by
  constructor
  · intro h
    have ho : (⟨.null,"session.open".toList,[]⟩ : RpcRequest F).Opens := rfl
    obtain ⟨id,s',hr,hnot,-⟩ := h [] _ ho rfl
    rw [handleRequest_of_opens ho] at hr
    have ha := congrArg Prod.snd (Option.some.inj hr)
    rw [answer_open,openedName_served rfl] at ha
    have hid := snapshot_inj (Json.obj.inj (Except.ok.inj (congrArg RpcResponse.result ha)))
    exact hid ▸ hnot
  · intro h now req ho hn
    have hl : (served trunc rs).sessions.lookup (serialName (unnamed rs+1)) = none :=
      AList.lookup_eq_none.mpr (fun hm => h (had_of_mem hm))
    have hname : (served trunc rs).openedName req = serialName (unnamed rs+1) :=
      openedName_served hn
    refine ⟨_,((served trunc rs).handleSessionOpen req).1,?_,h,?_,fun other hne => ?_⟩
    · have ha := answer_open (served trunc rs) req
      rw [hname,hl] at ha
      rw [handleRequest_of_opens ho]
      exact congrArg some (Prod.ext rfl ha)
    · rw [lookup_open,hname,if_pos rfl,hl]
      rfl
    · rw [lookup_open,hname,if_neg hne]

/-- The next session is a fresh one exactly if nobody has chosen the counter's next name. -/
theorem freshNext_iff (trunc : F → Option ℤ) (rs : List (Text × RpcRequest F)) :
    FreshNext trunc rs ↔ ¬ Chosen rs (serialName (unnamed rs+1)) := by
  rw [freshNext_iff_not_had,had_iff (serialName_ne_nil _)]
  refine not_congr (or_iff_left ?_)
  rintro ⟨n,-,hle,he⟩
  have hn := serialName_inj he
  omega

/-- A client chose `sess-1` and attached a terminal. -/
def choosy : List (Text × RpcRequest Empty) :=
  [([],⟨.null,"session.attach".toList,[("session_id",.str "sess-1".toList),
      ("attachment_id",.str "tty".toList),("cols",.num (.int 80)),("rows",.num (.int 24))]⟩),
    ([],⟨.null,"session.open".toList,[("session_id",.str "sess-1".toList)]⟩)]

/-- The next client that names no session is given that of the first. -/
theorem session_given_twice :
    ¬ FreshNext (fun _ => none) choosy ∧
      ∃ session, ((served (fun _ => none) choosy).handleSessionOpen
          (⟨.null,"session.open".toList,[]⟩ : RpcRequest Empty)).2 =
            .success .null (sessionSnapshot "sess-1".toList session) ∧
        (session.attachments.lookup "tty".toList).isSome ∧
        session.effectiveCols = 80 ∧ session.effectiveRows = 24 := by
  constructor
  · rw [freshNext_iff_not_had,not_not]
    exact had_of_mem (AList.lookup_isSome.mp rfl)
  · refine ⟨_,answer_open _ _,?_,?_,?_⟩
    · rfl
    · rfl
    · rfl

end Sessions

end Daemon

end Limux
