import Limux.SocketFraming
import Limux.CliRun

/-! Which responses come back as one: what the CLI reads of what was written, for any room
in the buffer and anything written behind it. -/
namespace Limux

open Text

/-- The response as a whole is written, and the CLI's trimming does not touch it. -/
def Answer.Fits (a : Answer) (room : ℕ) : Prop :=
  (Conn.frame (.ofList a.text)).length ≤ room ∧
    match a with
    | .bare => True
    | .data p => '\n' ∉ p ∧ trim p = p
    | .block p => (Utf8.encode p).length < 2^64
    | .error m => '\n' ∉ m ∧ m ≠ [] ∧ trimEnd m = m

namespace Conn

variable {eof : Bool} {io : Text} {next : List UInt8}

theorem first_encode {t : Text} (h : '\n' ∉ t) (next : List UInt8) :
    Lines.first newline (Utf8.encode (t ++ ['\n']) ++ next) =
      (Utf8.encode (t ++ ['\n']),next) := by
  have he : Utf8.encode (t ++ ['\n']) = Utf8.encode t ++ [newline] := by
    rw [Utf8.encode,List.flatMap_append]
    rfl
  have hn : newline ∉ Utf8.encode t := fun hm => h (Utf8.newline_mem_encode.mp hm)
  rw [he,List.append_assoc,List.singleton_append,Lines.first_line hn]

theorem newline_mem_line (t : Text) : newline ∈ Utf8.encode (t ++ ['\n']) :=
  Utf8.newline_mem_encode.mpr (by simp)

theorem readResponse_line {t : Text} (h : '\n' ∉ t)
    (hb : stripPrefix "OK+".toList (trimEnd t) = none) :
    readResponse eof io (Utf8.encode (t ++ ['\n']) ++ next) = (interpret (trimEnd t),next) := by
  have hn : ¬ (newline ∉ Utf8.encode (t ++ ['\n']) ∧ eof = false) :=
    fun hc => hc.1 (newline_mem_line t)
  simp only [readResponse,first_encode h,if_neg hn,Utf8.decode?_encode,trimEnd_line,hb]

theorem readResponse_cut {w : List UInt8} (h : newline ∉ w) :
    (readResponse eof io (w ++ [newline])).2 = [] := by
  have hf : Lines.first newline (w ++ [newline]) = (w ++ [newline],[]) := Lines.first_line h []
  unfold readResponse
  rw [hf]
  dsimp only
  split
  · rfl
  · split
    · rfl
    · split
      · rfl
      · split
        · rfl
        · split
          · rw [List.drop_nil]
          · rfl

theorem interpret_data (p : Text) :
    stripPrefix "OK+".toList (trimEnd ("OK ".toList ++ p)) = none ∧
      interpret (trimEnd ("OK ".toList ++ p)) = .ok (trim p) := by
  by_cases hb : trimEnd p = []
  · have ht : trimEnd ("OK ".toList ++ p) = "OK".toList := by
      rw [trimEnd_append_nil _ hb]
      rfl
    rw [ht,(trim_eq_nil_iff p).mpr hb]
    exact ⟨rfl,rfl⟩
  · rw [trimEnd_append_solid _ hb]
    refine ⟨rfl,?_⟩
    have hs : stripPrefix "OK".toList ("OK ".toList ++ trimEnd p) = some (' ' :: trimEnd p) :=
      stripPrefix_append "OK".toList (' ' :: trimEnd p)
    rw [interpret,hs]
    exact congrArg Except.ok (trimStart_trimEnd p)

theorem interpret_error (m : Text) :
    stripPrefix "OK+".toList (trimEnd ("ERROR: ".toList ++ m)) = none ∧
      interpret (trimEnd ("ERROR: ".toList ++ m)) =
        if trimEnd m = [] then .error "Unexpected response: ERROR:".toList
        else .error (trimEnd m) := by
  by_cases hb : trimEnd m = []
  · have ht : trimEnd ("ERROR: ".toList ++ m) = "ERROR:".toList := by
      rw [trimEnd_append_nil _ hb]
      rfl
    rw [ht,if_pos hb]
    exact ⟨rfl,by decide +kernel⟩
  · rw [trimEnd_append_solid _ hb,if_neg hb]
    refine ⟨rfl,?_⟩
    have hn : stripPrefix "OK".toList ("ERROR: ".toList ++ trimEnd m) = none := rfl
    rw [interpret,hn,stripPrefix_append]

/-- What the length prefix is on its line. -/
def header (p : Text) : Text := "OK+".toList ++ ofNat (Utf8.encode p).length

theorem encode_block (p : Text) : Utf8.encode (Answer.block p).text =
    Utf8.encode (header p ++ ['\n']) ++ Utf8.encode p := by
  rw [← Utf8.encode_append,header,List.append_assoc,List.append_assoc]
  rfl

theorem tight_header (p : Text) : Tight (header p) := by
  intro c hc
  rcases List.mem_append.mp hc with hc | hc
  · simp only [String.reduceToList,List.mem_cons,List.not_mem_nil,or_false] at hc
    rcases hc with rfl | rfl | rfl <;> rfl
  · exact (word_ofNat _).2 c hc

theorem newline_notMem_header (p : Text) : '\n' ∉ header p :=
  fun hm => absurd (tight_header p _ hm) (by decide)

theorem readResponse_header (p : Text) (body : List UInt8) :
    readResponse eof io (Utf8.encode (header p ++ ['\n']) ++ body) =
      if (Utf8.encode p).length < 2^64 then
        if (Utf8.encode p).length ≤ body.length then
          (.ok (Utf8.decodeLossy (body.take (Utf8.encode p).length)),
            body.drop (Utf8.encode p).length)
        else (.error ("Failed to read response body: ".toList ++ io),[])
      else (.error ("Invalid length in response: ".toList ++ ofNat (Utf8.encode p).length),
        body) := by
  have hn : ¬ (newline ∉ Utf8.encode (header p ++ ['\n']) ∧ eof = false) :=
    fun hc => hc.1 (newline_mem_line _)
  have hs : stripPrefix "OK+".toList (header p) = some (ofNat (Utf8.encode p).length) :=
    stripPrefix_append _ _
  simp only [readResponse,first_encode (newline_notMem_header p),if_neg hn,Utf8.decode?_encode,
    trimEnd_line,trimEnd_of_word (tight_header p),hs,parseUnsigned_ofNat_eq]
  by_cases hlt : (Utf8.encode p).length < 2^64
  · simp only [if_pos hlt]
  · simp only [if_neg hlt]

theorem take_line {t : Text} (h : '\n' ∉ t) (behind : List UInt8) (room : ℕ) :
    newline ∉ (Utf8.encode (t ++ ['\n']) ++ behind).take room ∨
      (Utf8.encode (t ++ ['\n'])).length ≤ room := by
  by_cases hr : (Utf8.encode (t ++ ['\n'])).length ≤ room
  · exact .inr hr
  · refine .inl (fun hm => ?_)
    have he : Utf8.encode (t ++ ['\n']) = Utf8.encode t ++ [newline] := Utf8.encode_append t ['\n']
    rw [he,List.length_append,List.length_singleton] at hr
    rw [he,List.append_assoc,List.take_append_of_le_length (by omega)] at hm
    exact h (Utf8.newline_mem_encode.mp (List.mem_of_mem_take hm))

/-- Whatever is written behind it, the response and nothing else is read. -/
def Framed (a : Answer) (room : ℕ) : Prop :=
  ∀ eof io next, readResponse eof io ((frame (.ofList a.text)).take room ++ next) =
    (a.meant,next)

theorem not_framed_of_cut {a : Answer} {room : ℕ}
    (h : newline ∉ (frame (.ofList a.text)).take room) : ¬ Framed a room := by
  intro hf
  have hc : (readResponse true [] (_ ++ [newline])).2 = [] := readResponse_cut h
  rw [hf true [] [newline]] at hc
  cases hc

theorem frame_block (p : Text) : frame (.ofList (Answer.block p).text) =
    Utf8.encode (header p ++ ['\n']) ++ Utf8.encode p := by
  have h : "OK+".toList.isPrefixOf (Answer.block p).text = true :=
    List.isPrefixOf_iff_prefix.mpr (List.prefix_append _ _)
  have ht : (String.ofList (Answer.block p).text).toList = (Answer.block p).text :=
    String.toList_ofList
  rw [← encode_block,frame,ht]
  exact if_pos h

theorem framed_block_iff (p : Text) (room : ℕ) :
    Framed (.block p) room ↔ Answer.Fits (.block p) room := by
  constructor
  · intro hf
    have hnl := newline_notMem_header p
    rcases take_line hnl (Utf8.encode p) room with hm | hr
    · rw [← frame_block] at hm
      exact absurd hf (not_framed_of_cut hm)
    · have h := hf true [] []
      rw [List.append_nil,frame_block,List.take_append,List.take_of_length_le hr,
        readResponse_header] at h
      split at h
      · rename_i hlt
        split at h
        · rename_i hle
          refine ⟨?_,hlt⟩
          rw [frame_block,List.length_append]
          rw [List.length_take] at hle
          omega
        · cases h
      · cases h
  · rintro ⟨hr,hlt⟩ eof io next
    rw [List.take_of_length_le hr,frame_block,List.append_assoc,readResponse_header,if_pos hlt,
      if_pos (by rw [List.length_append]; omega),List.take_left,List.drop_left,
      Utf8.decodeLossy_encode]
    rfl

theorem frame_line {t : Text} (h : "OK+".toList.isPrefixOf t = false) :
    frame (.ofList t) = Utf8.encode (t ++ ['\n']) := by
  have ht : (String.ofList t).toList = t := String.toList_ofList
  rw [frame,ht]
  exact if_neg (Bool.eq_false_iff.mp h)

/-- A response on a line of its own: what its first line says is not what is meant unless
there is no other. -/
theorem framed_line_iff {a : Answer} {room : ℕ} (hp : "OK+".toList.isPrefixOf a.text = false)
    (hfirst : ∀ l s, a.text = l ++ '\n' :: s → '\n' ∉ l →
      stripPrefix "OK+".toList (trimEnd l) = none ∧ interpret (trimEnd l) ≠ a.meant)
    (hb : stripPrefix "OK+".toList (trimEnd a.text) = none) :
    Framed a room ↔ (frame (.ofList a.text)).length ≤ room ∧ '\n' ∉ a.text ∧
      interpret (trimEnd a.text) = a.meant := by
  constructor
  · intro hf
    by_cases hn : '\n' ∈ a.text
    · obtain ⟨l,s,hl,hm⟩ := List.eq_append_cons_of_mem hn
      obtain ⟨hs,hne⟩ := hfirst l s hl hm
      have hframe : frame (.ofList a.text) =
          Utf8.encode (l ++ ['\n']) ++ Utf8.encode (s ++ ['\n']) := by
        rw [frame_line hp,hl,← Utf8.encode_append]
        simp
      rcases take_line hm (Utf8.encode (s ++ ['\n'])) room with hc | hr
      · rw [← hframe] at hc
        exact absurd hf (not_framed_of_cut hc)
      · have h := congrArg Prod.fst (hf true [] [])
        rw [List.append_nil,hframe,List.take_append,List.take_of_length_le hr,
          readResponse_line hm hs] at h
        exact absurd h hne
    · rcases take_line hn [] room with hc | hr
      · rw [List.append_nil,← frame_line hp] at hc
        exact absurd hf (not_framed_of_cut hc)
      · rw [← frame_line hp] at hr
        refine ⟨hr,hn,?_⟩
        have h := congrArg Prod.fst (hf true [] [])
        rw [List.take_of_length_le hr,frame_line hp,readResponse_line hn hb] at h
        exact h
  · rintro ⟨hr,hn,hi⟩ eof io next
    rw [List.take_of_length_le hr,frame_line hp,readResponse_line hn hb,hi]

theorem framed_bare_iff (room : ℕ) : Framed .bare room ↔ Answer.Fits .bare room := by
  have hn : '\n' ∉ Answer.bare.text := by decide
  rw [framed_line_iff rfl (fun l s hl _ => absurd (hl ▸ List.mem_append_right l List.mem_cons_self)
    hn) rfl]
  exact ⟨fun h => ⟨h.1,trivial⟩,fun h => ⟨h.1,hn,rfl⟩⟩

theorem split_payload {pre p l s : Text} (hpre : '\n' ∉ pre)
    (hl : pre ++ p = l ++ '\n' :: s) : ∃ q, l = pre ++ q ∧ p = q ++ '\n' :: s := by
  rcases List.append_eq_append_iff.mp hl with ⟨q,hq,hp⟩ | ⟨q,hq,hs⟩
  · exact ⟨q,hq,hp⟩
  · rcases q with _ | ⟨c,q⟩
    · rw [List.append_nil] at hq
      exact ⟨[],by rw [List.append_nil,hq],hs.symm⟩
    · obtain rfl : '\n' = c := (List.cons.inj hs).1
      exact absurd (hq ▸ List.mem_append_right l List.mem_cons_self) hpre

theorem notMem_trimEnd {c : Char} {t : Text} (h : c ∉ t) : c ∉ trimEnd t :=
  fun hm => h ((List.rdropWhile_prefix isWhitespace (l := t)).subset hm)

theorem notMem_trim {c : Char} {t : Text} (h : c ∉ t) : c ∉ trim t :=
  notMem_trimEnd (fun hm => h ((List.dropWhile_suffix isWhitespace).subset hm))

theorem framed_data_iff (p : Text) (room : ℕ) :
    Framed (.data p) room ↔ Answer.Fits (.data p) room := by
  have hpre : '\n' ∉ "OK ".toList := by decide
  rw [framed_line_iff (a := .data p) rfl (fun l s hl hm => ?_) (interpret_data p).1]
  · rw [show interpret (trimEnd (Answer.data p).text) = .ok (trim p) from (interpret_data p).2]
    constructor
    · rintro ⟨hr,hn,hi⟩
      exact ⟨hr,fun hm => hn (List.mem_append_right _ hm),Except.ok.inj hi⟩
    · rintro ⟨hr,hn,ht⟩
      exact ⟨hr,fun hm => (List.mem_append.mp hm).elim hpre hn,congrArg Except.ok ht⟩
  · obtain ⟨q,rfl,rfl⟩ := split_payload hpre hl
    refine ⟨(interpret_data q).1,fun he => ?_⟩
    rw [(interpret_data q).2] at he
    have hq : '\n' ∉ q := fun hq => hm (List.mem_append_right _ hq)
    exact notMem_trim hq (Except.ok.inj he ▸ List.mem_append_right q List.mem_cons_self)

/-- The whole message, unless trimming takes some of it. -/
theorem interpret_error_iff (m : Text) :
    interpret (trimEnd ("ERROR: ".toList ++ m)) = .error m ↔ m ≠ [] ∧ trimEnd m = m := by
  rw [(interpret_error m).2]
  by_cases hb : trimEnd m = []
  · rw [if_pos hb]
    constructor
    · intro he
      have hu : trimEnd "Unexpected response: ERROR:".toList ≠ [] := by decide
      exact absurd (Except.error.inj he ▸ hb) hu
    · rintro ⟨hne,ht⟩
      exact absurd (ht ▸ hb) hne
  · rw [if_neg hb]
    constructor
    · intro he
      refine ⟨?_,Except.error.inj he⟩
      rintro rfl
      exact hb rfl
    · exact fun h => congrArg Except.error h.2

theorem framed_error_iff (m : Text) (room : ℕ) :
    Framed (.error m) room ↔ Answer.Fits (.error m) room := by
  have hpre : '\n' ∉ "ERROR: ".toList := by decide
  rw [framed_line_iff (a := .error m) rfl (fun l s hl hm => ?_) (interpret_error m).1]
  · rw [show interpret (trimEnd (Answer.error m).text) = (Answer.error m).meant ↔ _ from
      interpret_error_iff m]
    constructor
    · rintro ⟨hr,hn,hi⟩
      exact ⟨hr,fun hm => hn (List.mem_append_right _ hm),hi⟩
    · rintro ⟨hr,hn,hi⟩
      exact ⟨hr,fun hm => (List.mem_append.mp hm).elim hpre hn,hi⟩
  · obtain ⟨q,rfl,rfl⟩ := split_payload hpre hl
    refine ⟨(interpret_error q).1,fun he => ?_⟩
    have hq : '\n' ∉ q := fun hq => hm (List.mem_append_right _ hq)
    rw [(interpret_error q).2] at he
    have hin : '\n' ∈ q ++ '\n' :: s := List.mem_append_right q List.mem_cons_self
    split at he
    · have hu : '\n' ∉ "Unexpected response: ERROR:".toList := by decide
      exact hu (Except.error.inj he ▸ hin)
    · exact notMem_trimEnd hq (Except.error.inj he ▸ hin)

/-- Exactly these come back as they were meant. -/
theorem framed_iff (a : Answer) (room : ℕ) : Framed a room ↔ a.Fits room := by
  cases a with
  | bare => exact framed_bare_iff room
  | data p => exact framed_data_iff p room
  | block p => exact framed_block_iff p room
  | error m => exact framed_error_iff m room

end Conn

/-! Every response is one of these. -/

namespace Answer

theorem text_injective : Function.Injective text := by
  intro a b h
  have hnum : ∀ n : ℕ, '\n' ∉ ofNat n :=
    fun n hm => absurd (isDigit_of_mem_ofNat hm) (by decide)
  cases a with
  | bare => cases b <;> first | rfl | (cases h)
  | data p =>
    cases b with
    | data q => exact congrArg data (List.append_cancel_left h)
    | _ => cases h
  | error p =>
    cases b with
    | error q => exact congrArg error (List.append_cancel_left h)
    | _ => cases h
  | block p =>
    cases b with
    | block q =>
      obtain ⟨r,hr,hq⟩ := Conn.split_payload (hnum _) (List.append_cancel_left h).symm
      rcases r with _ | ⟨c,r⟩
      · exact congrArg block (List.cons.inj hq).2.symm
      · obtain rfl : '\n' = c := (List.cons.inj hq).1
        exact absurd (hr ▸ List.mem_append_right _ List.mem_cons_self) (hnum _)
    | _ => cases h

/-- Is the text a response? -/
def Says (s : String) : Prop := ∃ a : Answer, s.toList = a.text

theorem utf8ByteSize_eq (s : String) : s.utf8ByteSize = (Utf8.encode s.toList).length := by
  rw [← String.size_toByteArray,← String.ofList_toList (s := s),String.toByteArray_ofList,
    String.toList_ofList,List.utf8Encode,List.size_toByteArray,Utf8.encode]

theorem says_data (s : String) : Says ("OK " ++ s) := by
  refine ⟨.data s.toList,?_⟩
  rw [String.toList_append]
  rfl

theorem says_error (s : String) : Says ("ERROR: " ++ s) := by
  refine ⟨.error s.toList,?_⟩
  rw [String.toList_append]
  rfl

theorem says_start {s : String} (h : "ERROR: ".toList.isPrefixOf s.toList = true) : Says s := by
  obtain ⟨m,hm⟩ := List.isPrefixOf_iff_prefix.mp h
  exact ⟨.error m,hm.symm⟩

theorem says_lengthPrefixed (s : String) : Says (lengthPrefixed s) := by
  have hn : (toString s.utf8ByteSize).toList = ofNat (Utf8.encode s.toList).length := by
    rw [utf8ByteSize_eq]
    exact Nat.toList_repr
  have ht : (lengthPrefixed s).toList =
      "OK+".toList ++ (ofNat (Utf8.encode s.toList).length ++ ("\n".toList ++ s.toList)) := by
    rw [← hn,lengthPrefixed,String.toList_append,String.toList_append,String.toList_append,
      List.append_assoc,List.append_assoc]
  refine ⟨.block s.toList,?_⟩
  rw [ht]
  rfl

theorem says_listing (lines : List String) : Says (listing lines) := by
  unfold listing
  split
  · exact ⟨.bare,rfl⟩
  · exact says_lengthPrefixed _

section Command

variable {F : Type} [F64Ops F] [F64Text F] {α β : Type}

/-- What is refused is refused with an error. -/
def Complains (x : Except String α) : Prop := ∀ m, x = .error m → Says m

theorem complains_ok (a : α) : Complains (.ok a) := by
  intro m hm
  cases hm

theorem complains_error {s : String} (h : Says s) : Complains (.error s : Except String α) := by
  intro m hm
  cases hm
  exact h

theorem Complains.bind {x : Except String α} {f : α → Except String β} (hx : Complains x)
    (hf : ∀ a, Complains (f a)) : Complains (x >>= f) := by
  cases x with
  | error m => exact complains_error (hx m rfl)
  | ok a => exact hf a

theorem complains_parseArg (s : Text) (name : String) : Complains (parseArg s name) := by
  unfold parseArg
  split
  · exact complains_ok _
  · rw [show ("ERROR: invalid " : String) = "ERROR: " ++ "invalid " from rfl,
      String.append_assoc]
    exact complains_error (says_error _)

theorem complains_twoParts (args : Text) (usage : String) : Complains (twoParts args usage) := by
  unfold twoParts
  split
  · exact complains_ok _
  · rw [show ("ERROR: usage: " : String) = "ERROR: " ++ "usage: " from rfl,String.append_assoc]
    exact complains_error (says_error _)

omit [F64Ops F] [F64Text F] in
theorem complains_focusedOr (st : App F) : Complains (focusedOr st) := by
  unfold focusedOr
  split
  · exact complains_ok _
  · exact complains_error (says_start (by decide))

theorem complains_text (args : Text) (usage name : String) (f : Text → ℕ → α) :
    Complains (do
      let parts ← twoParts args usage
      let id ← parseArg parts.1 name
      return f parts.2 id) :=
  (complains_twoParts args usage).bind (fun parts =>
    (complains_parseArg parts.1 name).bind (fun id => complains_ok (f parts.2 id)))

theorem complains_id (args : Text) (name : String) (f : ℕ → α) :
    Complains (do return f (← parseArg args name)) :=
  (complains_parseArg args name).bind (fun id => complains_ok (f id))

omit [F64Ops F] [F64Text F] in
theorem complains_focused (st : App F) (f : WorkspaceId → α) :
    Complains (do return f (← focusedOr st)) :=
  (complains_focusedOr st).bind (fun id => complains_ok (f id))

omit [F64Ops F] in
theorem complains_decode (st : App F) (args : Text) (v : Verb) : Complains (v.decode st args) := by
  cases v with
  | workspaceSetColor => exact complains_text args _ _ (fun s id => Request.workspaceSetColor id s)
  | renameWorkspace => exact complains_text args _ _ (fun s id => Request.renameWorkspace id (trim s))
  | send => exact complains_text args _ _ (fun s id => Request.send id s)
  | navigate => exact complains_text args _ _ (fun s id => Request.navigate id (trim s))
  | jsEval => exact complains_text args _ _ (fun s id => Request.jsEval id s)
  | workspacePin => exact complains_id args _ Request.workspacePin
  | selectWorkspace => exact complains_id args _ Request.selectWorkspace
  | focusPane => exact complains_id args _ Request.focusPane
  | readScreen => exact complains_id args _ Request.readScreen
  | browserBack => exact complains_id args _ Request.browserBack
  | browserForward => exact complains_id args _ Request.browserForward
  | browserReload => exact complains_id args _ Request.browserReload
  | getUrl => exact complains_id args _ Request.getUrl
  | clearProgress => exact complains_focused st Request.clearProgress
  | clearLog => exact complains_focused st Request.clearLog
  | closeWorkspace =>
    unfold Verb.decode
    dsimp only
    split
    · exact complains_focused st Request.closeWorkspace
    · exact complains_id args _ Request.closeWorkspace
  | clearStatus =>
    refine (complains_focusedOr st).bind (fun ws => ?_)
    dsimp only
    split
    · exact complains_error (says_start (by decide))
    · exact complains_ok _
  | setStatus =>
    refine (complains_focusedOr st).bind (fun ws => ?_)
    dsimp only
    split
    · exact complains_ok _
    · exact complains_error (says_start (by decide))
  | setProgress =>
    refine (complains_focusedOr st).bind (fun ws => ?_)
    dsimp only
    split
    · exact complains_error (says_start (by decide))
    · split
      · exact complains_ok _
      · exact complains_error (says_start (by decide))
  | log =>
    refine (complains_focusedOr st).bind (fun ws => ?_)
    dsimp only
    split
    · exact complains_error (says_start (by decide))
    · exact complains_ok _
  | listPanes =>
    unfold Verb.decode
    dsimp only
    split
    · exact complains_ok _
    · exact complains_error (says_start (by decide))
  | remoteConnect =>
    unfold Verb.decode
    dsimp only
    split
    · exact complains_error (says_start (by decide))
    · exact complains_ok _
  | _ => exact complains_ok _

omit [F64Ops F] in
theorem complains_decodeCommand (st : App F) (cmd : Text) : Complains (decodeCommand st cmd) := by
  unfold decodeCommand
  split
  · exact complains_decode st _ _
  · rw [show ("ERROR: unknown command: " : String) = "ERROR: " ++ "unknown command: " from rfl,
      String.append_assoc]
    exact complains_error (says_error _)

omit [F64Text F] in
theorem says_perform (env : CommandEnv F) (st : App F) (r : Request F) :
    Says (st.perform env r).1 := by
  have hok : Says "OK" := ⟨.bare,rfl⟩
  cases r with
  | ping => exact ⟨.data "pong".toList,(by decide : "OK pong".toList = "OK ".toList ++ _)⟩
  | version => exact ⟨.data "limux 0.2.9".toList,
      (by decide : "OK limux 0.2.9".toList = "OK ".toList ++ _)⟩
  | listSurfaces => exact says_listing _
  | listWorkspaces => exact says_listing _
  | workspaceCount => exact says_data _
  | notifyStatus => exact says_data _
  | remoteConnect => exact says_data _
  | workspaceSetColor id color =>
    unfold App.perform
    dsimp only
    split
    · exact hok
    · split
      · exact hok
      · exact (says_start (by decide) : Says "ERROR: unknown color")
  | selectWorkspace id =>
    unfold App.perform
    dsimp only
    split
    · exact hok
    · exact says_start (s := "ERROR: workspace not found") (by decide)
  | closeWorkspace id =>
    unfold App.perform
    dsimp only
    split
    · exact hok
    · exact says_start (s := "ERROR: workspace not found or pinned") (by decide)
  | currentWorkspace =>
    unfold App.perform
    dsimp only
    split
    · rw [String.append_assoc,String.append_assoc]
      exact says_data _
    · exact says_start (s := "ERROR: no focused workspace") (by decide)
  | listPanes id =>
    unfold App.perform
    dsimp only
    split
    · exact says_data _
    · exact says_start (s := "ERROR: workspace not found") (by decide)
  | focusPane id =>
    unfold App.perform
    dsimp only
    split
    · exact hok
    · exact says_start (s := "ERROR: pane not found") (by decide)
  | send id text =>
    unfold App.perform
    dsimp only
    split
    · exact hok
    · exact says_start (s := "ERROR: surface not found") (by decide)
  | readScreen id =>
    unfold App.perform
    dsimp only
    split
    · exact says_lengthPrefixed _
    · exact says_start (s := "ERROR: surface not found") (by decide)
  | getUrl id =>
    unfold App.perform
    dsimp only
    split
    · exact says_data _
    · exact says_start (s := "ERROR: browser not found") (by decide)
  | remoteStatus id =>
    unfold App.perform
    dsimp only
    split
    · exact says_lengthPrefixed _
    · exact says_start (s := "ERROR: workspace not found or not remote") (by decide)
  | _ => exact hok

theorem says_handleCommand (env : CommandEnv F) (st : App F) (cmd : String) :
    Says (handleCommand env st cmd).1 := by
  unfold handleCommand
  split
  · exact says_perform env st _
  · rename_i m hm
    exact complains_decodeCommand st _ m hm

end Command

end Answer

namespace Conn

/-- The CLI reads the response as one, with what it says, and leaves what follows. -/
def ReadBack (response : String) (room : ℕ) : Prop :=
  ∃ a : Answer, response.toList = a.text ∧
    ∀ eof io next, readResponse eof io ((frame response).take room ++ next) = (a.meant,next)

theorem readBack_iff {response : String} {a : Answer} (h : response.toList = a.text) (room : ℕ) :
    ReadBack response room ↔ a.Fits room := by
  have ht : response = .ofList a.text := by rw [← h,String.ofList_toList]
  rw [← framed_iff,Framed,← ht]
  constructor
  · rintro ⟨b,hb,hr⟩
    obtain rfl : a = b := Answer.text_injective (h ▸ hb)
    exact hr
  · exact fun hr => ⟨a,h,hr⟩

variable {F : Type} [F64Ops F] [F64Text F]

/-- Which responses come back as they were meant, for every command in every state. -/
theorem response_readBack_iff (env : CommandEnv F) (st : App F) (cmd : String) (room : ℕ) :
    ∃ a : Answer, (handleCommand env st cmd).1.toList = a.text ∧
      (ReadBack (handleCommand env st cmd).1 room ↔ a.Fits room) := by
  obtain ⟨a,ha⟩ := Answer.says_handleCommand env st cmd
  exact ⟨a,ha,readBack_iff ha room⟩

def screenEnv : CommandEnv Extended := { CommandEnv.quiet with readScreen := fun _ => some "hello" }

def twoLines : App Extended :=
  App.start.setWindow (App.start.window.newWorkspace.renameWorkspace 1 "a\nb")

/-- A cut off screen, and a title with a line break. -/
theorem cut_screen_is_lost :
    ¬ ReadBack (handleCommand screenEnv App.start "read_screen 1").1 9 ∧
    ¬ ReadBack (handleCommand CommandEnv.quiet twoLines "current_workspace").1 4096 := by
  have hs : (handleCommand screenEnv App.start "read_screen 1").1.toList =
      (Answer.block "hello".toList).text := by decide +kernel
  have ht : (handleCommand CommandEnv.quiet twoLines "current_workspace").1.toList =
      (Answer.data "1 a\nb".toList).text := by decide +kernel
  rw [readBack_iff hs,readBack_iff ht]
  constructor
  · rintro ⟨hle,-⟩
    revert hle
    decide +kernel
  · rintro ⟨-,hn,-⟩
    exact hn (by decide)

end Conn

end Limux
