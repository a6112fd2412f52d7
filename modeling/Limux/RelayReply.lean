import Limux.Relay
import Limux.SocketReads
import Limux.Lib.JsonText

/-! The answer of the control socket on its way back through the relay: the JSON line made of
it, and what it keeps of the answer. -/
namespace Limux

open Text

namespace Relay

variable {F : Type}

def okReply (id : Json F) (result : Option Text) : Json F :=
  .obj ([("id",id),("ok",.bool true)] ++ (result.map (fun data => ("result",.str data))).toList)

def errorReply (id : Json F) (message : Text) : Json F :=
  .obj [("error",.obj [("message",.str message)]),("id",id),("ok",.bool false)]

/-- The data of a length-prefixed response: what follows the first line. -/
def prefixedData (trimmed : Text) : Option Text :=
  if "OK+".toList.isPrefixOf trimmed then (splitOnce '\n' trimmed).map Prod.snd else none

/-- The value `translate_v1_response_to_v2` makes of a response. -/
def v1Reply (id : Json F) (response : Text) : Json F :=
  let trimmed := trim response
  match prefixedData trimmed with
  | some data => okReply id (some data)
  | none =>
    match stripPrefix "OK".toList trimmed with
    | some data => okReply id (if trim data = [] then none else some (trim data))
    | none =>
      match stripPrefix "ERROR:".toList trimmed with
      | some err => errorReply id (trim err)
      | none => okReply id (some trimmed)

/-- `print` is the JSON printer. -/
def translateV1ResponseToV2 (print : Json F → Text) (id : Json F) (response : Text) : Text :=
  print (v1Reply id response) ++ ['\n']

/-- The response as it arrives: a length-prefixed one as it is, a line with or without its
line break. -/
def response (ended : Bool) : Answer → Text
  | .block p => (Answer.block p).text
  | a => a.text ++ if ended then ['\n'] else []

/-- The reply has the id, says whether the answer is an error, and has all of its payload. -/
def Carries (id reply : Json F) : Answer → Prop
  | .bare => reply.get "id" = some id ∧ reply.get "ok" = some (.bool true)
  | .data p | .block p => reply.get "id" = some id ∧ reply.get "ok" = some (.bool true) ∧
      reply.get "result" = some (.str p)
  | .error m => reply.get "id" = some id ∧ reply.get "ok" = some (.bool false) ∧
      (reply.get "error").bind (Json.get "message") = some (.str m)

/-- There is a payload, and none of it is white space that trimming takes away. -/
def Untrimmed : Answer → Prop
  | .bare => True
  | .data p => p ≠ [] ∧ SolidStart p ∧ SolidEnd p
  | .block p => p ≠ [] ∧ SolidEnd p
  | .error m => SolidStart m ∧ SolidEnd m

/-! What is left of a response is its text without the white space at its end. -/

theorem trim_cons_solid {c : Char} (h : isWhitespace c = false) (s : Text) :
    trim (c :: s) = trimEnd (c :: s) := by
  rw [trim,trimStart_of_solid h]

theorem trim_space (s : Text) : trim (' ' :: s) = trim s := rfl

theorem trim_text (a : Answer) (eol : Text) :
    trim (a.text ++ eol) = trimEnd (a.text ++ eol) := by
  cases a with
  | bare => exact trim_cons_solid (by decide) _
  | data p => exact trim_cons_solid (by decide) _
  | block p => exact trim_cons_solid (by decide) _
  | error m => exact trim_cons_solid (by decide) _

theorem trim_response (ended : Bool) (a : Answer) : trim (response ended a) = trimEnd a.text := by
  have hline : trim (a.text ++ if ended then ['\n'] else []) = trimEnd a.text := by
    rw [trim_text]
    cases ended with
    | true => exact trimEnd_line _
    | false => exact congrArg trimEnd (List.append_nil _)
  cases a with
  | bare => exact hline
  | data p => exact hline
  | block p =>
    have hb := trim_text (.block p) []
    rwa [List.append_nil] at hb
  | error m => exact hline

/-- The reply to a response that is not length-prefixed. -/
theorem v1Reply_line {id : Json F} {r t : Text} (ht : trim r = t)
    (hb : "OK+".toList.isPrefixOf t = false) : v1Reply id r =
      match stripPrefix "OK".toList t with
      | some data => okReply id (if trim data = [] then none else some (trim data))
      | none =>
        match stripPrefix "ERROR:".toList t with
        | some err => errorReply id (trim err)
        | none => okReply id (some t) := by
  have hp : prefixedData t = none := by rw [prefixedData,hb]; rfl
  unfold v1Reply
  rw [ht]
  simp only [hp]

theorem v1Reply_bare (id : Json F) (ended : Bool) :
    v1Reply id (response ended .bare) = okReply id none :=
  v1Reply_line (t := "OK".toList) (trim_response ended .bare) rfl

theorem v1Reply_data (id : Json F) (ended : Bool) (p : Text) :
    v1Reply id (response ended (.data p)) =
      okReply id (if trim p = [] then none else some (trim p)) := by
  have ht := trim_response ended (.data p)
  change _ = trimEnd ("OK ".toList ++ p) at ht
  by_cases hb : trimEnd p = []
  · rw [trimEnd_append_nil _ hb] at ht
    rw [v1Reply_line ht rfl,if_pos ((trim_eq_nil_iff p).mpr hb)]
    rfl
  · rw [trimEnd_append_solid _ hb] at ht
    rw [v1Reply_line ht rfl]
    have hs : stripPrefix "OK".toList ("OK ".toList ++ trimEnd p) = some (' ' :: trimEnd p) :=
      stripPrefix_append "OK".toList (' ' :: trimEnd p)
    rw [hs]
    dsimp only
    rw [trim_space,trim_trimEnd]

theorem v1Reply_error (id : Json F) (ended : Bool) (m : Text) :
    v1Reply id (response ended (.error m)) = errorReply id (trim m) := by
  have ht := trim_response ended (.error m)
  change _ = trimEnd ("ERROR: ".toList ++ m) at ht
  by_cases hb : trimEnd m = []
  · rw [trimEnd_append_nil _ hb] at ht
    rw [v1Reply_line ht rfl,(trim_eq_nil_iff m).mpr hb]
    rfl
  · rw [trimEnd_append_solid _ hb] at ht
    rw [v1Reply_line ht rfl]
    have hn : stripPrefix "OK".toList ("ERROR: ".toList ++ trimEnd m) = none := rfl
    have hs : stripPrefix "ERROR:".toList ("ERROR: ".toList ++ trimEnd m) =
        some (' ' :: trimEnd m) := stripPrefix_append "ERROR:".toList (' ' :: trimEnd m)
    rw [hn,hs]
    dsimp only
    rw [trim_space,trim_trimEnd]

/-- A blank screen leaves the length alone, and it is taken for the data. -/
theorem v1Reply_block (id : Json F) (ended : Bool) (p : Text) :
    v1Reply id (response ended (.block p)) = okReply id (some
      (if trimEnd p = [] then '+' :: ofNat (Utf8.encode p).length else trimEnd p)) := by
  have ht := trim_response ended (.block p)
  have he : (Answer.block p).text = Conn.header p ++ '\n' :: p := (List.append_assoc _ _ _).symm
  rw [he] at ht
  have hn := Conn.newline_notMem_header p
  by_cases hb : trimEnd p = []
  · rw [if_pos hb]
    have hb' : trimEnd ('\n' :: p) = [] := by
      rw [trimEnd_eq_nil_iff] at hb ⊢
      exact List.forall_mem_cons.mpr ⟨by decide,hb⟩
    rw [trimEnd_append_nil _ hb',trimEnd_of_word (Conn.tight_header p)] at ht
    have hp : prefixedData (Conn.header p) = none := by
      unfold prefixedData
      rw [splitOnce_of_notMem hn]
      exact ite_self none
    have hs : stripPrefix "OK".toList (Conn.header p) =
        some ('+' :: ofNat (Utf8.encode p).length) := rfl
    have hw : trim ('+' :: ofNat (Utf8.encode p).length) = '+' :: ofNat (Utf8.encode p).length :=
      trim_of_word (fun c hc => Conn.tight_header p c (List.mem_of_mem_drop (i := 2) hc))
    unfold v1Reply
    rw [ht]
    simp only [hp,hs,hw]
    rfl
  · rw [if_neg hb]
    have hb' : trimEnd ('\n' :: p) = '\n' :: trimEnd p := trimEnd_append_solid ['\n'] hb
    have hb'' : trimEnd ('\n' :: p) ≠ [] := by rw [hb']; exact List.cons_ne_nil _ _
    rw [trimEnd_append_solid _ hb'',hb'] at ht
    have hp : prefixedData (Conn.header p ++ '\n' :: trimEnd p) = some (trimEnd p) := by
      unfold prefixedData
      rw [splitOnce_append hn,if_pos (List.isPrefixOf_iff_prefix.mpr ?_)]
      · rfl
      · exact (List.prefix_append _ _).trans (List.prefix_append _ _)
    unfold v1Reply
    rw [ht]
    simp only [hp]

theorem carries_result {id : Json F} {d : Option Text} {p : Text} :
    ((okReply id d).get "id" = some id ∧ (okReply id d).get "ok" = some (.bool true) ∧
      (okReply id d).get "result" = some (.str p)) ↔ d = some p := by
  cases d with
  | none =>
    constructor
    · rintro ⟨-,-,h⟩
      cases h
    · intro h
      cases h
  | some d =>
    constructor
    · rintro ⟨-,-,h⟩
      cases h
      rfl
    · intro h
      cases h
      exact ⟨rfl,rfl,rfl⟩

/-- One line comes back, and it carries the answer exactly if trimming takes nothing of it. -/
theorem carries_iff (print : Json F → Text) (hprint : ∀ j, '\n' ∉ print j) (id : Json F)
    (a : Answer) (ended : Bool) :
    translateV1ResponseToV2 print id (response ended a) =
        print (v1Reply id (response ended a)) ++ ['\n'] ∧
      '\n' ∉ print (v1Reply id (response ended a)) ∧
      (Carries id (v1Reply id (response ended a)) a ↔ Untrimmed a) := by
  refine ⟨rfl,hprint _,?_⟩
  cases a with
  | bare =>
    rw [v1Reply_bare]
    exact ⟨fun _ => trivial,fun _ => ⟨rfl,rfl⟩⟩
  | data p =>
    rw [v1Reply_data]
    refine carries_result.trans ?_
    change _ ↔ p ≠ [] ∧ SolidStart p ∧ SolidEnd p
    rw [← trim_eq_self_iff]
    constructor
    · intro h
      split_ifs at h with hb
      have he := Option.some.inj h
      exact ⟨he ▸ hb,he⟩
    · rintro ⟨hne,he⟩
      rw [he,if_neg hne]
  | block p =>
    rw [v1Reply_block]
    refine carries_result.trans ?_
    change _ ↔ p ≠ [] ∧ SolidEnd p
    rw [← trimEnd_eq_self_iff]
    constructor
    · intro h
      have he := Option.some.inj h
      split_ifs at he with hb
      · rw [trimEnd_eq_nil_iff] at hb
        exact absurd (hb '+' (he ▸ List.mem_cons_self)) (by decide)
      · exact ⟨he ▸ hb,he⟩
    · rintro ⟨hne,he⟩
      rw [he,if_neg hne]
  | error m =>
    rw [v1Reply_error]
    change _ ↔ SolidStart m ∧ SolidEnd m
    rw [← trim_eq_self_iff]
    constructor
    · rintro ⟨-,-,h⟩
      exact Json.str.inj (Option.some.inj h)
    · intro h
      rw [h]
      exact ⟨rfl,rfl,rfl⟩

/-- A screen that ends in a character reaches the client as it is. -/
theorem screen_carried :
    translateV1ResponseToV2 (Json.compact Empty.elim) (.num (.int 7))
        (response false (.block "\n$ ls".toList)) =
      "\x7b\"id\":7,\"ok\":true,\"result\":\"\\n$ ls\"\x7d\n".toList ∧
    Carries (F := Empty) (.num (.int 7))
      (v1Reply (.num (.int 7)) (response false (.block "\n$ ls".toList)))
      (.block "\n$ ls".toList) := by
  have h := carries_iff (Json.compact Empty.elim)
    (Json.newline_notMem_compact (fun x => x.elim)) (.num (.int 7)) (.block "\n$ ls".toList) false
  exact ⟨h.1.trans (by decide +kernel),h.2.2.mpr ⟨by decide +kernel,by decide +kernel⟩⟩

/-- Of a blank screen the client is given the length. -/
theorem blank_screen_lost :
    translateV1ResponseToV2 (Json.compact Empty.elim) (.num (.int 7))
        (response false (.block "\n\n".toList)) =
      "\x7b\"id\":7,\"ok\":true,\"result\":\"+2\"\x7d\n".toList ∧
    ¬ Carries (F := Empty) (.num (.int 7))
      (v1Reply (.num (.int 7)) (response false (.block "\n\n".toList)))
      (.block "\n\n".toList) := by
  refine ⟨by decide +kernel,?_⟩
  rw [v1Reply_block]
  exact fun h => absurd (carries_result.mp h) (by decide +kernel)

end Relay

end Limux
