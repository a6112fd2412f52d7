import Limux.Relay
import Limux.CliRun

/-! A JSON-RPC request through the relay and the control socket: when it runs
exactly its own command, and when the text it sends arrives unchanged. -/
namespace Limux

open Text

namespace Relay

variable {F : Type}

/-- A line of a client that is a JSON-RPC request for a known method. -/
structure Request (parse : Text → Option (Json F)) where
  line : Text
  parsed : Json F
  method : Text
  v1Cmd : String
  brace : (trim line).head? = some '{'
  parses : parse (trim line) = some parsed
  isMethod : (parsed.index "method").asStr = some method
  known : v2MethodToV1 method = some v1Cmd

namespace Request

variable {parse : Text → Option (Json F)} (r : Request parse)

def params : Json F := r.parsed.index "params"

theorem forwarded_eq : forwarded parse r.line = some (socketCmd r.v1Cmd r.params) := by
  have hne : trim r.line ≠ [] := fun h => by
    have := r.brace
    rw [h] at this
    cases this
  rw [forwarded,if_neg hne,translateV2ToV1,if_neg (not_not.mpr r.brace),r.parses]
  simp only [r.isMethod,r.known]
  rfl

theorem mem_methods : (.ofList r.method,r.v1Cmd) ∈ methods := by
  obtain ⟨⟨m,w⟩,hf,hw⟩ := Option.map_eq_some_iff.mp r.known
  have hm := List.find?_some hf
  have hmem := List.mem_of_find?_eq_some hf
  simp only [decide_eq_true_eq] at hm
  cases hw
  rw [← hm,String.ofList_toList]
  exact hmem

end Request

theorem methods_words : ∀ e ∈ methods, Word e.2.toList ∧ e.2 ≠ "split_down" := by decide +kernel

theorem methods_send : ∀ e ∈ methods, e.1 = "surface.send_text" → e.2 = Verb.send.word := by
  decide +kernel

theorem commandParts_spaced {w : Text} (hw : Word w) (as : List Text) :
    commandParts (trim (w ++ as.flatMap (fun t => ' ' :: t))) = (w,trimEnd (spaced as)) := by
  cases as with
  | nil => rw [List.flatMap_nil,List.append_nil,commandParts_word hw]; rfl
  | cons a as =>
    have hsp : (a :: as).flatMap (fun t => ' ' :: t) = ' ' :: spaced (a :: as) := by
      induction as generalizing a with
      | nil => simp
      | cons b as ih =>
        rw [List.flatMap_cons,ih b,spaced_cons_cons]
        rfl
    rw [hsp,commandParts_trim hw]

theorem newline_mem_socketCmd {w : Text} (hw : Word w) (as : List Text) :
    '\n' ∉ w ++ as.flatMap (fun t => ' ' :: t) ↔ ∀ t ∈ as, '\n' ∉ t := by
  have hn : '\n' ∉ w := fun hm => absurd (hw.2 '\n' hm) (by decide)
  simp [hn]

/-- A text with something before it and something blank behind it: trimmed and cut
at its first space, the text comes back only if it is clean and nothing else is. -/
theorem trimEnd_cut {u t rest a : Text} (ha : ' ' ∉ a)
    (h : trimEnd (u ++ ' ' :: (t ++ rest)) = a ++ ' ' :: t) :
    ' ' ∉ u ∧ trimEnd t = t ∧ trimEnd rest = [] := by
  have hfix : trimEnd (a ++ ' ' :: t) = a ++ ' ' :: t := by rw [← h,trimEnd_trimEnd]
  have hsolid : trimEnd t ≠ [] := by
    intro hb
    have hbl : trimEnd (' ' :: t) = [] := by
      rw [show ' ' :: t = [' '] ++ t from rfl,trimEnd_append_nil _ hb]
      rfl
    rw [trimEnd_append_nil _ hbl] at hfix
    have := length_trimEnd_le a
    rw [hfix] at this
    simp only [List.length_append,List.length_cons] at this
    omega
  have ht : trimEnd t = t := by
    have he : a ++ ' ' :: t = (a ++ [' ']) ++ t := by simp
    rw [he,trimEnd_append_solid _ hsolid] at hfix
    exact List.append_cancel_left hfix
  have htr : trimEnd (t ++ rest) = if trimEnd rest = [] then t else t ++ trimEnd rest := by
    rw [trimEnd_append,ht]
  have hlen : t.length ≤ (trimEnd (t ++ rest)).length := by
    rw [htr]
    split_ifs
    · exact le_rfl
    · simp
  have hne : trimEnd (t ++ rest) ≠ [] := by
    intro he
    rw [he,List.length_nil,Nat.le_zero,List.length_eq_zero_iff] at hlen
    rw [hlen] at hsolid
    exact hsolid rfl
  have he : u ++ ' ' :: (t ++ rest) = (u ++ [' ']) ++ (t ++ rest) := by simp
  rw [he,trimEnd_append_solid _ hne,List.append_assoc,List.singleton_append] at h
  have hu : ' ' ∉ u := by
    intro hm
    obtain ⟨p,q,rfl,hp⟩ := List.eq_append_cons_of_mem hm
    rw [List.append_assoc,List.cons_append] at h
    have := congrArg List.length (append_cons_inj hp ha h).2
    simp only [List.length_append,List.length_cons] at this
    omega
  refine ⟨hu,ht,?_⟩
  have hcut := (append_cons_inj hu ha h).2
  rw [htr] at hcut
  by_contra hb
  rw [if_neg hb] at hcut
  exact hb (List.append_right_eq_self.mp hcut)

/-! Text sent to a surface. -/

/-- Arguments that `send` takes for a live surface and a text. -/
def Live (st : App F) (as : List Text) : Prop :=
  ∃ a t id, splitOnce ' ' (trimEnd (spaced as)) = some (a,t) ∧
    parseUnsigned (2^32) (trim a) = some id ∧ id ∈ st.handles

/-- What is in front of the text and behind it leaves it alone: one parameter
without a space before it, no blanks at its end and nothing but blanks behind it.
Without a parameter in front, the text has to repeat in what the name continues. -/
def CleanText (params : Json F) (t : Text) : Prop :=
  (∃ p, (workspaceArg params).toList ++ (surfaceArg params).toList = [p] ∧ ' ' ∉ p ∧
    trimEnd t = t ∧ ∀ n ∈ params.getStr "name", trimEnd n = []) ∨
  (workspaceArg params = none ∧ surfaceArg params = none ∧ ∃ n ∈ params.getStr "name",
    ∃ a, ' ' ∉ a ∧ trimEnd (t ++ ' ' :: n) = a ++ ' ' :: t)

/-- The text arrives unchanged, or the command is refused. -/
def SentExactly [F64Ops F] [F64Text F] (env : CommandEnv F) (st : App F) (params : Json F)
    (cmd : String) : Prop :=
  (∃ id t, params.getStr "text" = some t ∧ decodeCommand st cmd.toList = .ok (.send id t)) ∨
    Rejected env st cmd

/-- The spaced arguments around a text. -/
theorem spaced_args {params : Json F} {t : Text} (ht : params.getStr "text" = some t) :
    spaced (args params) = match (workspaceArg params).toList ++ (surfaceArg params).toList with
      | [] => t ++ (params.getStr "name").toList.flatMap (fun n => ' ' :: n)
      | p :: ps => spaced (p :: ps) ++ ' ' :: (t ++ (params.getStr "name").toList.flatMap
          (fun n => ' ' :: n)) := by
  rw [args,ht]
  rcases workspaceArg params with _ | w <;> rcases surfaceArg params with _ | s <;>
    rcases params.getStr "name" with _ | n <;>
    simp [spaced_cons_cons]

theorem text_iff_clean {params : Json F} {a t : Text} (ha : ' ' ∉ a)
    (h : trimEnd (spaced (args params)) = a ++ ' ' :: t) :
    params.getStr "text" = some t ↔ ∃ t', params.getStr "text" = some t' ∧
      CleanText params t' := by
  constructor
  · intro ht
    refine ⟨t,ht,?_⟩
    rw [spaced_args ht] at h
    rcases hf : (workspaceArg params).toList ++ (surfaceArg params).toList with _ | ⟨p,ps⟩
    · rw [hf] at h
      obtain ⟨hw,hs⟩ := List.append_eq_nil_iff.mp hf
      refine .inr ⟨Option.toList_eq_nil_iff.mp hw,Option.toList_eq_nil_iff.mp hs,?_⟩
      rcases hn : params.getStr "name" with _ | n
      · rw [hn] at h
        have := congrArg List.length h
        have hle := length_trimEnd_le t
        simp only [Option.toList_none,List.flatMap_nil,List.append_nil,List.length_append,
          List.length_cons] at this
        omega
      · rw [hn] at h
        exact ⟨n,rfl,a,ha,by simpa using h⟩
    · rw [hf] at h
      obtain ⟨h1,h2,h3⟩ := trimEnd_cut ha h
      refine .inl ⟨p,?_,?_,h2,fun n hn => ?_⟩
      · cases ps with
        | nil => exact hf
        | cons q ps => exact absurd (by rw [spaced_cons_cons]; simp) h1
      · cases ps with
        | nil => simpa using h1
        | cons q ps => exact absurd (by rw [spaced_cons_cons]; simp) h1
      · rw [Option.mem_def] at hn
        rw [hn] at h3
        have hb := (trimEnd_eq_nil_iff _).mp h3
        exact (trimEnd_eq_nil_iff n).mpr (fun c hc => hb c (by simp [hc]))
  · rintro ⟨t',ht',hc⟩
    rw [spaced_args ht'] at h
    rw [ht']
    congr 1
    rcases hc with ⟨p,hp,hsp,htr,hname⟩ | ⟨hw,hs,n,hn,a',ha',he⟩
    · rw [hp] at h
      have hb : trimEnd ((params.getStr "name").toList.flatMap (fun n => ' ' :: n)) = [] := by
        rcases hn : params.getStr "name" with _ | n
        · rfl
        · have hbn := (trimEnd_eq_nil_iff n).mp (hname n hn)
          rw [trimEnd_eq_nil_iff]
          intro c hc
          simp only [Option.toList_some,List.flatMap_cons,List.flatMap_nil,List.append_nil,
            List.mem_cons] at hc
          rcases hc with rfl | hc
          · decide
          · exact hbn c hc
      have he : spaced [p] ++ ' ' :: (t' ++ (params.getStr "name").toList.flatMap
          (fun n => ' ' :: n)) = (p ++ ' ' :: t') ++ (params.getStr "name").toList.flatMap
          (fun n => ' ' :: n) := by simp
      simp only [he] at h
      rw [trimEnd_append_nil _ hb] at h
      by_cases hnil : t' = []
      · have hbl : trimEnd (' ' :: t') = [] := by rw [hnil]; rfl
        rw [trimEnd_append_nil _ hbl] at h
        obtain ⟨x,hx,-⟩ := trimEnd_append_blank p
        refine absurd ?_ hsp
        rw [hx,h]
        simp
      · have he' : p ++ ' ' :: t' = (p ++ [' ']) ++ t' := by simp
        rw [he',trimEnd_append_solid _ (by rw [htr]; exact hnil),htr,List.append_assoc,
          List.singleton_append] at h
        exact (append_cons_inj hsp ha h).2
    · rw [Option.mem_def] at hn
      rw [hw,hs,hn] at h
      have h' : trimEnd (t' ++ ' ' :: n) = a ++ ' ' :: t := by simpa using h
      rw [he] at h'
      exact (append_cons_inj ha' ha h').2

section Integrity

variable [F64Ops F] [F64Text F] {env : CommandEnv F} {st : App F}

omit [F64Ops F] in
theorem decode_send (st : App F) (as : Text) : Verb.send.decode st as =
    match splitOnce ' ' as with
    | none => .error ("ERROR: usage: " ++ "send <surface_id> <text>")
    | some (a,t) =>
      match parseUnsigned (2^32) (trim a) with
      | none => .error ("ERROR: invalid " ++ "surface id")
      | some id => .ok (.send id t) := by
  show (twoParts as _ >>= _) = _
  rw [twoParts]
  cases splitOnce ' ' as with
  | none => rfl
  | some p =>
    obtain ⟨a,t⟩ := p
    show (parseArg a _ >>= _) = match parseUnsigned (2^32) (trim a) with
      | none => .error ("ERROR: invalid " ++ "surface id")
      | some id => .ok (Limux.Request.send id t)
    rw [parseArg]
    cases parseUnsigned (2^32) (trim a) with
    | none => rfl
    | some id => rfl

/-- `send` is refused before it looks for a surface, or it has a surface number and
a text, and is refused just when the surface is not live. -/
theorem send_cases {cmd : Text} {as : List Text}
    (hd : decodeCommand st cmd = Verb.send.decode st (trimEnd (spaced as))) :
    (Rejected env st (.ofList cmd) ∧ ¬ Live st as) ∨
    ∃ a t id, trimEnd (spaced as) = a ++ ' ' :: t ∧ ' ' ∉ a ∧
      parseUnsigned (2^32) (trim a) = some id ∧ decodeCommand st cmd = .ok (.send id t) ∧
      (Rejected env st (.ofList cmd) ↔ ¬ Live st as) := by
  have hrej : ∀ m, decodeCommand st cmd = .error m → isError m = true →
      Rejected env st (.ofList cmd) := by
    intro m hm he
    rw [Rejected,handleCommand,String.toList_ofList,hm]
    exact ⟨he,rfl⟩
  rw [decode_send] at hd
  rcases hs : splitOnce ' ' (trimEnd (spaced as)) with _ | ⟨a,t⟩
  · rw [hs] at hd
    refine .inl ⟨hrej _ hd (isError_usage _),?_⟩
    rintro ⟨a,t,id,h,-⟩
    rw [hs] at h
    cases h
  rw [hs] at hd
  rcases hp : parseUnsigned (2^32) (trim a) with _ | id
  · simp only [hp] at hd
    refine .inl ⟨hrej _ hd ?_,?_⟩
    · rw [isError,String.toList_append]
      rfl
    · rintro ⟨a',t',id,h,h',-⟩
      rw [hs] at h
      cases h
      rw [hp] at h'
      cases h'
  · simp only [hp] at hd
    obtain ⟨hcut,ha⟩ := splitOnce_eq_some hs
    refine .inr ⟨a,t,id,hcut,ha,hp,hd,?_⟩
    rw [Rejected,handleCommand_ok hd,rejected_send]
    refine not_congr ⟨fun hm => ⟨a,t,id,hs,hp,hm⟩,?_⟩
    rintro ⟨a',t',id',h,h',hm⟩
    rw [hs] at h
    cases h
    rw [hp] at h'
    cases h'
    exact hm

theorem sentExactly_iff (params : Json F) :
    SentExactly env st params (.ofList (trim (Verb.send.word.toList ++
      (args params).flatMap (fun t => ' ' :: t)))) ↔
    (Live st (args params) → ∃ t, params.getStr "text" = some t ∧ CleanText params t) := by
  generalize hcmd : trim (Verb.send.word.toList ++ (args params).flatMap (fun t => ' ' :: t)) = cmd
  have hd : decodeCommand st cmd = Verb.send.decode st (trimEnd (spaced (args params))) := by
    rw [decodeCommand,← hcmd,commandParts_spaced Verb.send.isWord]
    simp only [Verb.ofText_word]
  rcases @send_cases _ _ _ env _ _ _ hd with ⟨hrej,hl⟩ | ⟨a,t,id,hcut,ha,-,hdec,hrej⟩
  · exact iff_of_true (.inr hrej) (fun h => absurd h hl)
  · have hsent : (∃ i x, params.getStr "text" = some x ∧
        decodeCommand st (String.ofList cmd).toList = .ok (.send i x)) ↔
        ∃ x, params.getStr "text" = some x ∧ CleanText params x := by
      rw [← text_iff_clean ha hcut,String.toList_ofList,hdec]
      constructor
      · rintro ⟨i,x,hx,he⟩
        cases he
        exact hx
      · exact fun hx => ⟨id,t,hx,rfl⟩
    rw [SentExactly,hsent,hrej,or_comm]
    exact imp_iff_not_or.symm

namespace Request

variable {parse : Text → Option (Json F)}

/-- The control socket runs exactly one command for the request, the one of its
method, and a text it sends arrives unchanged. -/
def Integrity (env : CommandEnv F) (st : App F) (r : Request parse) : Prop :=
  ∃ cmd, forwarded parse r.line = some cmd ∧
    Conn.RunsOnce (handleCommand env) st (Utf8.encode (cmd ++ ['\n'])) (fun c =>
      (commandParts c.toList).1 = r.v1Cmd.toList ∧
      (r.method = "surface.send_text".toList → SentExactly env st r.params c))

/-- A request keeps its integrity just when no direction turns it into a split, no
argument has a line break, the line fits the server's buffer and, for text to a
live surface, the text is clean. -/
theorem integrity_iff (env : CommandEnv F) (st : App F) (r : Request parse) :
    r.Integrity env st ↔ ¬ Down r.params ∧ (∀ t ∈ args r.params, '\n' ∉ t) ∧
      (Utf8.encode (r.v1Cmd.toList ++ (args r.params).flatMap (fun t => ' ' :: t))).length <
        Conn.bufferLimit ∧
      (r.method = "surface.send_text".toList → Live st (args r.params) →
        ∃ t, r.params.getStr "text" = some t ∧ CleanText r.params t) := by
  obtain ⟨hw,hsd⟩ := methods_words _ r.mem_methods
  simp only [Integrity,forwarded_eq,Option.some.injEq,exists_eq_left',Conn.runsOnce_line_iff,
    String.toList_ofList]
  by_cases hdn : Down r.params
  · rw [socketCmd,if_pos hdn]
    refine iff_of_false ?_ (fun h => h.1 hdn)
    rintro ⟨-,-,h,-⟩
    have hp : (commandParts (trim "split_down".toList)).1 = "split_down".toList := by decide
    rw [hp] at h
    exact hsd (String.toList_injective h.symm)
  · rw [socketCmd,if_neg hdn,newline_mem_socketCmd hw,commandParts_spaced hw]
    simp only [hdn,not_false_eq_true,true_and]
    refine and_congr_right fun _ => and_congr_right fun _ => forall_congr' fun hm => ?_
    have hsend : r.v1Cmd = Verb.send.word := methods_send _ r.mem_methods (by
      show String.ofList r.method = _
      rw [hm]
      rfl)
    rw [hsend]
    exact sentExactly_iff _

end Request

end Integrity

def injection : Json Extended :=
  .obj [("id",.str "1".toList),("method",.str "surface.send_text".toList),("params",.obj
    [("surface_id",.str "1".toList),("text",.str "ls\nclose_workspace".toList)])]

def injectionLine : Text :=
  ("\x7b\"id\":\"1\",\"method\":\"surface.send_text\",\"params\":\x7b\"surface_id\":\"1\"," ++
    "\"text\":\"ls\\nclose_workspace\"\x7d\x7d").toList

def injectionRequest : Request (fun s => if s = injectionLine then some injection else none) where
  line := injectionLine ++ ['\n']
  parsed := injection
  method := "surface.send_text".toList
  v1Cmd := "send"
  brace := by decide +kernel
  parses := by
    have h : trim (injectionLine ++ ['\n']) = injectionLine := by decide +kernel
    rw [h,if_pos rfl]
  isMethod := rfl
  known := by decide +kernel

/-- The control socket gets two commands. -/
theorem injection_runs_twice :
    ¬ injectionRequest.Integrity CommandEnv.quiet App.start := by
  rintro ⟨cmd,hc,h⟩
  rw [Request.forwarded_eq,Option.some.injEq] at hc
  rw [← hc,Conn.runsOnce_line_iff] at h
  exact h.1 (by decide +kernel)

end Relay

end Limux
