import Limux.Cli
import Limux.CommandSpec
import Limux.SocketRun

/-! When the server gets from the command line tool's line exactly the arguments
the tool was given. -/
namespace Limux

open Text

variable {F : Type} [F64Ops F] [F64Text F]

def isError (response : String) : Bool := "ERROR".toList.isPrefixOf response.toList

/-- The server answers with an error and changes nothing. -/
def Rejected (env : CommandEnv F) (st : App F) (cmd : String) : Prop :=
  isError (handleCommand env st cmd).1 = true ∧ (handleCommand env st cmd).2 = st

/-- The server got exactly the given arguments, or rejects the command. -/
def Agrees (env : CommandEnv F) (st : App F) (v : CliCmd F) (cmd : String) : Prop :=
  (∃ r, v.request st = some r ∧ decodeCommand st cmd.toList = .ok r) ∨ Rejected env st cmd

/-- Single-spaced positional words, at least one. -/
def PlainText (s : Text) : Prop := words s ≠ [] ∧ spaced (words s) = s ∧ ∀ w ∈ words s, Plain w

instance (s : Text) : Decidable (PlainText s) := inferInstanceAs (Decidable (_ ∧ _ ∧ _))

/-- The condition on the arguments and the state. -/
def CliCmd.Faithful (st : App F) : CliCmd F → Prop
  | .send id text => trimEnd text = text ∨ trimEnd text = [] ∨ id.toNat ∉ st.handles
  | .jsEval _ s => trimEnd s = s ∨ trimEnd s = []
  | .navigate _ s | .renameWorkspace _ s => trim s = s ∨ trimEnd s = []
  | .openBrowser s => trim s = s
  | .workspaceSetColor _ s => trimEnd s = s ∨ trimEnd s = [] ∨
      trimEnd s ≠ "none".toList ∧ WorkspaceColor.fromName (.ofList (trimEnd s)) = none
  | .clearStatus s => st.window.focusedWorkspaceId = none ∨ trim s = s ∨ trim s = []
  | .setProgress _ label => st.window.focusedWorkspaceId = none ∨ ∀ l ∈ label, Tight l
  | .setStatus key value icon color _ => st.window.focusedWorkspaceId = none ∨
      (plainWords key ++ plainWords value ++ (icon.toList ++ color.toList).flatMap
        strayWords).length < 2 ∨
      Plain key ∧ PlainText value ∧ (∀ i ∈ icon, Tight i) ∧ ∀ c ∈ color, Tight c
  | .log message level => st.window.focusedWorkspaceId = none ∨
      plainWords message = [] ∧ strayWords level = [] ∨ PlainText message ∧ Tight level
  | .remoteConnect destination _ identity sshOption command =>
      plainWords destination ++ (identity.toList ++ sshOption ++ command.toList).flatMap
        strayWords = [] ∨
      Plain destination ∧ (∀ i ∈ identity, Tight i) ∧ (∀ c ∈ command, Tight c) ∧
        sshOption.length ≤ 1 ∧ ∀ o ∈ sshOption, Tight o
  | .remoteDisconnect _ clear => clear = false
  | _ => True

section Decoding

variable {env : CommandEnv F} {st : App F} {v : CliCmd F} {cmd : Text} {r : Request F}

theorem isError_ok : isError "OK" = false := by decide

theorem isError_usage (usage : String) : isError ("ERROR: usage: " ++ usage) = true := by
  rw [isError,String.toList_append]
  rfl

omit [F64Text F] in
theorem not_error_ok (h : (st.perform env r).1 = "OK") : isError (st.perform env r).1 = false := by
  rw [h,isError_ok]

theorem handleCommand_ok (hd : decodeCommand st cmd = .ok r) :
    handleCommand env st (.ofList cmd) = st.perform env r := by
  rw [handleCommand,String.toList_ofList,hd]

theorem agrees_ok (hr : v.request st = some r) (hd : decodeCommand st cmd = .ok r) :
    Agrees env st v (.ofList cmd) := .inl ⟨r,hr,by rw [String.toList_ofList,hd]⟩

theorem agrees_error {m : String} (hd : decodeCommand st cmd = .error m) (hm : isError m = true) :
    Agrees env st v (.ofList cmd) := by
  refine .inr ?_
  have hh : handleCommand env st (.ofList cmd) = (m,st) := by
    rw [handleCommand,String.toList_ofList,hd]
  rw [Rejected,hh]
  exact ⟨hm,rfl⟩

/-- A request that is carried out agrees only if it is the one that was meant. -/
theorem agrees_iff_request (hd : decodeCommand st cmd = .ok r)
    (hok : isError (st.perform env r).1 = false) :
    Agrees env st v (.ofList cmd) ↔ v.request st = some r := by
  constructor
  · rintro (⟨r',hr,hd'⟩ | ⟨he,-⟩)
    · rw [String.toList_ofList,hd] at hd'
      cases hd'
      exact hr
    · rw [handleCommand_ok hd,hok] at he
      cases he
  · exact fun hr => agrees_ok hr hd

omit [F64Ops F] in
theorem decode_id (st : App F) (verb : Verb) (id : UInt32) :
    decodeCommand st (trim (CliCmd.idLine verb.word id)) = verb.decode st (ofNat id.toNat) := by
  rw [CliCmd.idLine,decode_args,trimEnd_of_word (word_ofNat _).2]

/-- Commands of a word, a number and free text: blank text is refused, other text
arrives without its trailing blanks. -/
theorem agrees_text_iff (verb : Verb) (id : UInt32) (text : Text) {usage name : String}
    {f : ℕ → Text → Request F}
    (hdec : ∀ args, verb.decode st args = (do
      let parts ← twoParts args usage
      let id ← parseArg parts.1 name
      return f id parts.2)) :
    Agrees env st v (.ofList (trim (CliCmd.textLine verb.word id text))) ↔ trimEnd text = [] ∨
      v.request st = some (f id.toNat (trimEnd text)) ∨
        isError (st.perform env (f id.toNat (trimEnd text))).1 = true ∧
        (st.perform env (f id.toNat (trimEnd text))).2 = st := by
  have hd := decode_args st verb (ofNat id.toNat ++ ' ' :: text)
  rw [hdec,twoParts_ofNat] at hd
  by_cases hb : trimEnd text = []
  · rw [if_pos hb] at hd
    exact iff_of_true (agrees_error hd (isError_usage usage)) (.inl hb)
  · rw [if_neg hb] at hd
    have hd' : decodeCommand st (trim (CliCmd.textLine verb.word id text)) =
        .ok (f id.toNat (trimEnd text)) := by
      rw [CliCmd.textLine,hd]
      simp only [bind,Except.bind,parseArg_ofNat]
      rfl
    constructor
    · rintro (⟨r,hr,hdr⟩ | ⟨he,hst⟩)
      · rw [String.toList_ofList,hd'] at hdr
        cases hdr
        exact .inr (.inl hr)
      · rw [handleCommand_ok hd'] at he hst
        exact .inr (.inr ⟨he,hst⟩)
    · rintro (hn | hr | hrej)
      · exact absurd hn hb
      · exact agrees_ok hr hd'
      · refine .inr ?_
        rw [Rejected,handleCommand_ok hd']
        exact hrej

theorem agrees_noFocus {verb : Verb} {args : Text}
    (hd : decodeCommand st cmd = verb.decode st args) (hf : st.window.focusedWorkspaceId = none)
    (hv : verb ∈ [Verb.setStatus,.clearStatus,.setProgress,.clearProgress,.log,.clearLog]) :
    Agrees env st v (.ofList cmd) :=
  agrees_error (hd.trans (decode_noFocus hf hv)) (by decide)

/-! Commands with options. -/

theorem opt_eq (k : String) (o : Option Text) :
    CliCmd.opt k o = optionsText (o.toList.map (fun v => (k.toList,v))) := by
  cases o with
  | none => rfl
  | some v => simp [CliCmd.opt,optionsText,optionText]

theorem optionsText_append (a b : List (Text × Text)) :
    optionsText a ++ optionsText b = optionsText (a ++ b) := by
  simp [optionsText]

theorem plainText_of_spaced {ws : List Text} (hne : ws ≠ []) (h : ∀ w ∈ ws, Plain w) :
    PlainText (spaced ws) ∧ words (spaced ws) = ws := by
  have hw := words_spaced (fun w hw => (h w hw).1)
  refine ⟨⟨?_,?_,?_⟩,hw⟩
  · rw [hw]; exact hne
  · rw [hw]
  · rw [hw]; exact h

theorem plainWords_of_plain {s : Text} (h : ∀ w ∈ words s, Plain w) : plainWords s = words s :=
  List.filter_eq_self.mpr (fun w hw => by simpa using (h w hw).2)

theorem words_plain {key : Text} (h : Plain key) : words key = [key] := words_of_word h.1

theorem strayWords_tight {v : Text} (h : Tight v) : strayWords v = [] := by
  have hw := wordsAux_tight h []
  simp only [List.append_nil] at hw
  rw [strayWords,hw]
  rfl

theorem plainWords_append_space (a b : Text) :
    plainWords (a ++ ' ' :: b) = plainWords a ++ plainWords b := by
  rw [plainWords,words_append_space (by decide),List.filter_append]
  rfl

def statusOptions (icon color : Option Text) (priority : Option Int32) : List (Text × Text) :=
  icon.toList.map (fun v => ("icon".toList,v)) ++ (color.toList.map (fun v => ("color".toList,v)) ++
    (priority.map (fun p => ofInt p.toInt)).toList.map (fun v => ("priority".toList,v)))

theorem name_statusOptions (icon color : Option Text) (priority : Option Int32) :
    ∀ e ∈ statusOptions icon color priority, OptionName e.1 := by
  intro e he
  simp only [statusOptions,List.mem_append,List.mem_map] at he
  rcases he with ⟨_,-,rfl⟩ | ⟨_,-,rfl⟩ | ⟨_,-,rfl⟩
  · exact (by decide : OptionName "icon".toList)
  · exact (by decide : OptionName "color".toList)
  · exact (by decide : OptionName "priority".toList)

theorem stray_statusOptions (icon color : Option Text) (priority : Option Int32) :
    (statusOptions icon color priority).flatMap (fun e => strayWords e.2) =
      (icon.toList ++ color.toList).flatMap strayWords := by
  have hp : ∀ p : Int32, strayWords (ofInt p.toInt) = [] :=
    fun p => strayWords_tight (word_ofInt _).2
  cases icon <;> cases color <;> cases priority <;> simp [statusOptions,hp]

theorem agrees_setStatus (key value : Text) (icon color : Option Text)
    (priority : Option Int32) :
    Agrees env st (.setStatus key value icon color priority)
      (.ofList (trim (CliCmd.setStatus key value icon color priority : CliCmd F).line)) ↔
    (CliCmd.setStatus key value icon color priority : CliCmd F).Faithful st := by
  generalize hargs : key ++ ' ' :: value ++ optionsText (statusOptions icon color priority) = args
  have hline : (CliCmd.setStatus key value icon color priority : CliCmd F).line =
      Verb.setStatus.word.toList ++ ' ' :: args := by
    rw [← hargs]
    show "set_status".toList ++ ' ' :: (key ++ ' ' :: (value ++ (CliCmd.opt "icon" icon ++
      (CliCmd.opt "color" color ++ CliCmd.opt "priority"
        (priority.map (fun p => ofInt p.toInt)))))) = _
    rw [opt_eq,opt_eq,opt_eq,optionsText_append,optionsText_append,List.append_assoc]
    rfl
  have hd := decode_args st .setStatus args
  rw [← hline] at hd
  have hpos : (parseOpts args).positional = plainWords key ++ plainWords value ++
      (icon.toList ++ color.toList).flatMap strayWords := by
    rw [parseOpts_positional,← hargs,plainWords_optionsText _ (name_statusOptions _ _ _),
      stray_statusOptions,plainWords_append_space]
  cases hf : st.window.focusedWorkspaceId with
  | none =>
    exact iff_of_true (agrees_noFocus hd hf (by decide)) (.inl hf)
  | some ws =>
    rw [decode_setStatus hf,parseOpts_trimEnd] at hd
    have hlen : (parseOpts args).positional.length < 2 →
        (CliCmd.setStatus key value icon color priority : CliCmd F).Faithful st := by
      intro h
      rw [hpos] at h
      exact .inr (.inl h)
    rcases hp : (parseOpts args).positional with _ | ⟨k,_ | ⟨x,xs⟩⟩
    · rw [hp] at hd
      exact iff_of_true (agrees_error hd (by decide)) (hlen (by simp [hp]))
    · rw [hp] at hd
      exact iff_of_true (agrees_error hd (by decide)) (hlen (by simp [hp]))
    rw [hp] at hd
    rw [agrees_iff_request hd (not_error_ok rfl)]
    have hplain : ∀ w ∈ k :: x :: xs, Plain w := by
      intro w hw
      rw [← hp,parseOpts_positional] at hw
      exact plain_of_mem_plainWords hw
    have hlong : ¬ (plainWords key ++ plainWords value ++
        (icon.toList ++ color.toList).flatMap strayWords).length < 2 := by
      rw [← hpos,hp]
      simp
    simp only [CliCmd.request,hf,Option.map_some,Option.some.injEq,Request.setStatus.injEq,
      true_and,CliCmd.Faithful,hlong,false_or,reduceCtorEq]
    constructor
    · rintro ⟨rfl,rfl,hi,hc,-⟩
      refine ⟨hplain key (by simp),(plainText_of_spaced (by simp)
        (fun w hw => hplain w (by simp [List.mem_cons.mp hw]))).1,fun i h => ?_,fun c h => ?_⟩
      · exact tight_of_lookup (hi.symm.trans h)
      · exact tight_of_lookup (hc.symm.trans h)
    · rintro ⟨hk,hv,hi,hc⟩
      have hwords : ∀ w ∈ words (key ++ ' ' :: value), Plain w := by
        intro w hw
        rw [words_append_space (by decide),words_plain hk] at hw
        rcases List.mem_append.mp hw with hw | hw
        · rw [List.mem_singleton.mp hw]; exact hk
        · exact hv.2.2 w hw
      have hopts : ∀ e ∈ statusOptions icon color priority, OptionName e.1 ∧ Tight e.2 := by
        intro e he
        refine ⟨name_statusOptions _ _ _ e he,?_⟩
        simp only [statusOptions,List.mem_append,List.mem_map,Option.mem_toList,
          Option.map_eq_some_iff] at he
        rcases he with ⟨i,h,rfl⟩ | ⟨c,h,rfl⟩ | ⟨p,⟨q,-,rfl⟩,rfl⟩
        · exact hi i h
        · exact hc c h
        · exact (word_ofInt _).2
      have hlk := lookup_optionsText hwords hopts
      rw [hargs] at hlk
      have hstray : (icon.toList ++ color.toList).flatMap strayWords = [] := by
        rw [List.flatMap_eq_nil_iff]
        intro t ht
        rcases List.mem_append.mp ht with ht | ht
        · exact strayWords_tight (hi t (by simpa using ht))
        · exact strayWords_tight (hc t (by simpa using ht))
      rw [hpos,plainWords_of_plain (fun w hw => by
        rw [words_plain hk,List.mem_singleton] at hw; exact hw ▸ hk),words_plain hk,
        plainWords_of_plain hv.2.2,hstray,List.append_nil,List.singleton_append] at hp
      obtain ⟨rfl,hvs⟩ := List.cons.inj hp
      refine ⟨rfl,?_,?_,?_,?_⟩
      · rw [← hvs,hv.2.1]
      · rw [hlk]
        cases icon <;> cases color <;> cases priority <;> rfl
      · rw [hlk]
        cases icon <;> cases color <;> cases priority <;> rfl
      · rw [hlk]
        have hpr : ((statusOptions icon color priority).filter
            (fun e => e.1 = "priority".toList)).map Prod.snd =
            (priority.map (fun p => ofInt p.toInt)).toList := by
          cases icon <;> cases color <;> cases priority <;> rfl
        rw [hpr]
        cases priority with
        | none => rfl
        | some p =>
          simp only [Option.map_some,Option.toList_some,List.getLast?_singleton,Option.bind_some,
            Option.getD_some]
          rw [parseSigned_ofInt p.le_toInt p.toInt_lt]
          rfl

theorem agrees_setProgress (value : F) (label : Option Text) :
    Agrees env st (.setProgress value label)
      (.ofList (trim (CliCmd.setProgress value label).line)) ↔
    (CliCmd.setProgress value label).Faithful st := by
  generalize hargs : F64Text.display value ++
    optionsText (label.toList.map (fun v => ("label".toList,v))) = args
  have hline : (CliCmd.setProgress value label).line = Verb.setProgress.word.toList ++ ' ' :: args := by
    rw [← hargs,← opt_eq]
    rfl
  have hd := decode_args st .setProgress args
  rw [← hline] at hd
  have hplain := F64Text.plain_display value
  have hname : ∀ e ∈ label.toList.map (fun v => ("label".toList,v)), OptionName e.1 := by
    intro e he
    obtain ⟨v,-,rfl⟩ := List.mem_map.mp he
    exact (by decide : OptionName "label".toList)
  have hwords : ∀ w ∈ words (F64Text.display value), Plain w := by
    intro w hw
    rw [words_plain hplain,List.mem_singleton] at hw
    exact hw ▸ hplain
  cases hf : st.window.focusedWorkspaceId with
  | none => exact iff_of_true (agrees_noFocus hd hf (by decide)) (.inl hf)
  | some ws =>
    rw [decode_setProgress hf,parseOpts_trimEnd,parseOpts_positional] at hd
    have hpos : ∃ xs, plainWords args = F64Text.display value :: xs := by
      rw [← hargs,plainWords_optionsText _ hname,plainWords_of_plain hwords,words_plain hplain]
      exact ⟨_,rfl⟩
    obtain ⟨xs,hpos⟩ := hpos
    simp only [hpos,trim_of_word hplain.1.2,F64Text.parse_display] at hd
    rw [agrees_iff_request hd (not_error_ok rfl)]
    simp only [CliCmd.request,hf,Option.map_some,Option.some.injEq,Request.setProgress.injEq,
      true_and,CliCmd.Faithful,false_or,reduceCtorEq]
    constructor
    · intro h l hl
      exact tight_of_lookup (h.symm.trans hl)
    · intro h
      have hopts : ∀ e ∈ label.toList.map (fun v => ("label".toList,v)),
          OptionName e.1 ∧ Tight e.2 := by
        intro e he
        refine ⟨hname e he,?_⟩
        obtain ⟨v,hv,rfl⟩ := List.mem_map.mp he
        exact h v (by simpa using hv)
      have hlk := lookup_optionsText hwords hopts
      rw [hargs] at hlk
      rw [hlk]
      cases label <;> rfl

theorem agrees_log (message level : Text) :
    Agrees env st (.log message level)
      (.ofList (trim (CliCmd.log message level : CliCmd F).line)) ↔
    (CliCmd.log message level : CliCmd F).Faithful st := by
  generalize hargs : message ++ optionsText [("level".toList,level)] = args
  have hline : (CliCmd.log message level : CliCmd F).line = Verb.log.word.toList ++ ' ' :: args := by
    rw [← hargs]
    show "log".toList ++ ' ' :: (message ++ CliCmd.opt "level" (some level)) = _
    rw [opt_eq]
    rfl
  have hd := decode_args st .log args
  rw [← hline] at hd
  have hname : ∀ e ∈ [("level".toList,level)], OptionName e.1 := by
    intro e he
    rw [List.mem_singleton.mp he]
    exact (by decide : OptionName "level".toList)
  have hpos : (parseOpts args).positional = plainWords message ++ strayWords level := by
    rw [parseOpts_positional,← hargs,plainWords_optionsText _ hname]
    simp
  cases hf : st.window.focusedWorkspaceId with
  | none => exact iff_of_true (agrees_noFocus hd hf (by decide)) (.inl hf)
  | some ws =>
    rw [decode_log hf,parseOpts_trimEnd] at hd
    by_cases hnil : (parseOpts args).positional = []
    · rw [if_pos hnil] at hd
      refine iff_of_true (agrees_error hd (by decide)) (.inr (.inl ?_))
      rw [hpos] at hnil
      exact List.append_eq_nil_iff.mp hnil
    rw [if_neg hnil] at hd
    rw [agrees_iff_request hd (not_error_ok rfl)]
    have hne : ¬ (plainWords message = [] ∧ strayWords level = []) := by
      rw [← List.append_eq_nil_iff,← hpos]
      exact hnil
    simp only [CliCmd.request,hf,Option.map_some,Option.some.injEq,Request.log.injEq,true_and,
      CliCmd.Faithful,false_or,reduceCtorEq,hne]
    have hplain : ∀ w ∈ (parseOpts args).positional, Plain w := by
      intro w hw
      rw [parseOpts_positional] at hw
      exact plain_of_mem_plainWords hw
    constructor
    · rintro ⟨hm,hl⟩
      refine ⟨hm ▸ (plainText_of_spaced hnil hplain).1,?_⟩
      rw [hl]
      rcases ho : (parseOpts args).opts.lookup "level".toList with _ | v
      · exact (by decide : Tight "info".toList)
      · exact tight_of_lookup ho
    · rintro ⟨hm,hl⟩
      have hopts : ∀ e ∈ [("level".toList,level)], OptionName e.1 ∧ Tight e.2 := by
        intro e he
        refine ⟨hname e he,?_⟩
        rw [List.mem_singleton.mp he]
        exact hl
      have hlk := lookup_optionsText hm.2.2 hopts "level".toList
      rw [hargs] at hlk
      refine ⟨?_,?_⟩
      · rw [hpos,strayWords_tight hl,List.append_nil,plainWords_of_plain hm.2.2,hm.2.1]
      · rw [hlk]
        rfl

def remoteOptions (port : Option UInt16) (identity : Option Text) (sshOption : List Text)
    (command : Option Text) : List (Text × Text) :=
  (port.map (fun p => ofNat p.toNat)).toList.map (fun v => ("port".toList,v)) ++
    (identity.toList.map (fun v => ("identity".toList,v)) ++
    (sshOption.map (fun v => ("ssh-option".toList,v)) ++
      command.toList.map (fun v => ("command".toList,v))))

theorem name_remoteOptions (port : Option UInt16) (identity : Option Text)
    (sshOption : List Text) (command : Option Text) :
    ∀ e ∈ remoteOptions port identity sshOption command, OptionName e.1 := by
  intro e he
  simp only [remoteOptions,List.mem_append,List.mem_map] at he
  rcases he with ⟨_,-,rfl⟩ | ⟨_,-,rfl⟩ | ⟨_,-,rfl⟩ | ⟨_,-,rfl⟩
  · exact (by decide : OptionName "port".toList)
  · exact (by decide : OptionName "identity".toList)
  · exact (by decide : OptionName "ssh-option".toList)
  · exact (by decide : OptionName "command".toList)

theorem stray_remoteOptions (port : Option UInt16) (identity : Option Text)
    (sshOption : List Text) (command : Option Text) :
    (remoteOptions port identity sshOption command).flatMap (fun e => strayWords e.2) =
      (identity.toList ++ sshOption ++ command.toList).flatMap strayWords := by
  have hp : ∀ n : ℕ, strayWords (ofNat n) = [] := fun n => strayWords_tight (word_ofNat n).2
  simp only [remoteOptions,List.flatMap_append,List.flatMap_map,List.append_assoc]
  cases port <;> simp [hp]

theorem agrees_remoteConnect (destination : Text) (port : Option UInt16)
    (identity : Option Text) (sshOption : List Text) (command : Option Text) :
    Agrees env st (.remoteConnect destination port identity sshOption command) (.ofList (trim
      (CliCmd.remoteConnect destination port identity sshOption command : CliCmd F).line)) ↔
    (CliCmd.remoteConnect destination port identity sshOption command : CliCmd F).Faithful st := by
  generalize hargs : destination ++
    optionsText (remoteOptions port identity sshOption command) = args
  have hline : (CliCmd.remoteConnect destination port identity sshOption command :
      CliCmd F).line = Verb.remoteConnect.word.toList ++ ' ' :: args := by
    rw [← hargs]
    show "remote_connect".toList ++ ' ' :: (destination ++
      (CliCmd.opt "port" (port.map (fun p => ofNat p.toNat)) ++ (CliCmd.opt "identity" identity ++
      (sshOption.flatMap (fun o => CliCmd.opt "ssh-option" (some o)) ++
        CliCmd.opt "command" command)))) = _
    have hssh : sshOption.flatMap (fun o => CliCmd.opt "ssh-option" (some o)) =
        optionsText (sshOption.map (fun v => ("ssh-option".toList,v))) := by
      rw [optionsText,List.flatMap_map]
      rfl
    rw [opt_eq,opt_eq,opt_eq,hssh,optionsText_append,optionsText_append,optionsText_append]
    rfl
  have hd := decode_args st .remoteConnect args
  rw [← hline] at hd
  have hpos : (parseOpts args).positional = plainWords destination ++
      (identity.toList ++ sshOption ++ command.toList).flatMap strayWords := by
    rw [parseOpts_positional,← hargs,plainWords_optionsText _ (name_remoteOptions _ _ _ _),
      stray_remoteOptions]
  rw [decode_remoteConnect,parseOpts_trimEnd] at hd
  rcases hp : (parseOpts args).positional with _ | ⟨x,xs⟩
  · rw [hp] at hd
    refine iff_of_true (agrees_error hd (by decide)) (.inl ?_)
    rw [← hpos,hp]
  rw [hp] at hd
  rw [agrees_iff_request hd (by
    show isError ("OK " ++ toString st.window.ids.workspace) = false
    simp only [isError,String.toList_append]
    rfl)]
  have hne : ¬ plainWords destination ++
      (identity.toList ++ sshOption ++ command.toList).flatMap strayWords = [] := by
    rw [← hpos,hp]
    simp
  simp only [CliCmd.request,Option.some.injEq,Request.remoteConnect.injEq,CliCmd.Faithful,hne,
    false_or]
  constructor
  · rintro ⟨rfl,-,hi,hc,ho⟩
    refine ⟨?_,fun i h => tight_of_lookup (hi.symm.trans h),
      fun c h => tight_of_lookup (hc.symm.trans h),?_,fun o h => ?_⟩
    · refine plain_of_mem_plainWords (s := args) ?_
      rw [← parseOpts_positional,hp]
      simp
    · rw [ho]
      cases (parseOpts args).opts.lookup "ssh-option".toList <;> simp
    · rw [ho,Option.mem_toList] at h
      exact tight_of_lookup h
  · rintro ⟨hdst,hi,hc,hlen,ho⟩
    have hwords : ∀ w ∈ words destination, Plain w := by
      intro w hw
      rw [words_plain hdst,List.mem_singleton] at hw
      exact hw ▸ hdst
    have hopts : ∀ e ∈ remoteOptions port identity sshOption command,
        OptionName e.1 ∧ Tight e.2 := by
      intro e he
      refine ⟨name_remoteOptions _ _ _ _ e he,?_⟩
      simp only [remoteOptions,List.mem_append,List.mem_map,Option.mem_toList,
        Option.map_eq_some_iff] at he
      rcases he with ⟨p,⟨q,-,rfl⟩,rfl⟩ | ⟨i,h,rfl⟩ | ⟨o,h,rfl⟩ | ⟨c,h,rfl⟩
      · exact (word_ofNat _).2
      · exact hi i h
      · exact ho o h
      · exact hc c h
    have hlk := lookup_optionsText hwords hopts
    rw [hargs] at hlk
    rw [hpos,plainWords_of_plain hwords,words_plain hdst,List.singleton_append] at hp
    obtain ⟨rfl,-⟩ := List.cons.inj hp
    have hssh : sshOption = [] ∨ ∃ o, sshOption = [o] := by
      rcases sshOption with _ | ⟨o,_ | ⟨o',os⟩⟩
      · exact .inl rfl
      · exact .inr ⟨o,rfl⟩
      · simp at hlen
    simp only [hlk]
    refine ⟨trivial,?_,?_,?_,?_⟩
    · have hpr : ((remoteOptions port identity sshOption command).filter
          (fun e => e.1 = "port".toList)).map Prod.snd =
          (port.map (fun p => ofNat p.toNat)).toList := by
        rcases hssh with rfl | ⟨o,rfl⟩ <;> cases port <;> cases identity <;> cases command <;> rfl
      rw [hpr]
      cases port with
      | none => rfl
      | some p =>
        simp only [Option.map_some,Option.toList_some,List.getLast?_singleton,Option.bind_some]
        rw [parseUnsigned_ofNat p.toNat_lt]
    · rcases hssh with rfl | ⟨o,rfl⟩ <;> cases port <;> cases identity <;> cases command <;> rfl
    · rcases hssh with rfl | ⟨o,rfl⟩ <;> cases port <;> cases identity <;> cases command <;> rfl
    · rcases hssh with rfl | ⟨o,rfl⟩ <;> cases port <;> cases identity <;> cases command <;> rfl

/-! The remaining commands. -/

omit [F64Text F] in
theorem perform_send (id : SurfaceId) (text : Text) :
    st.perform env (.send id text) = match st.sendText id text with
      | some st => ("OK",st)
      | none => ("ERROR: surface not found",st) := rfl

omit [F64Text F] in
theorem perform_workspaceSetColor (id : ℕ) (color : Text) :
    st.perform env (.workspaceSetColor id color) =
      if color = "none".toList then ("OK",st.setWindow (st.window.setWorkspaceColor id none))
      else match WorkspaceColor.fromName (.ofList color) with
        | some c => ("OK",st.setWindow (st.window.setWorkspaceColor id (some c)))
        | none => ("ERROR: unknown color",st) := rfl

omit [F64Text F] in
theorem rejected_send (id : SurfaceId) (text : Text) :
    isError (st.perform env (.send id text)).1 = true ∧ (st.perform env (.send id text)).2 = st ↔
      id ∉ st.handles := by
  rw [perform_send,App.sendText]
  by_cases hh : id ∈ st.handles
  · rw [if_pos hh]
    simp [isError_ok,hh]
  · rw [if_neg hh]
    exact iff_of_true ⟨(by decide : isError "ERROR: surface not found" = true),rfl⟩ hh

omit [F64Text F] in
theorem rejected_setColor (id : ℕ) (color : Text) :
    isError (st.perform env (.workspaceSetColor id color)).1 = true ∧
      (st.perform env (.workspaceSetColor id color)).2 = st ↔
      color ≠ "none".toList ∧ WorkspaceColor.fromName (.ofList color) = none := by
  rw [perform_workspaceSetColor]
  by_cases hn : color = "none".toList
  · rw [if_pos hn]
    simp only [isError_ok,Bool.false_eq_true,false_and,hn,ne_eq,not_true_eq_false]
  · rw [if_neg hn]
    cases WorkspaceColor.fromName (.ofList color) with
    | none =>
      exact iff_of_true ⟨(by decide : isError "ERROR: unknown color" = true),rfl⟩ ⟨hn,rfl⟩
    | some c => simp [isError_ok]

theorem agrees_send (id : UInt32) (text : Text) :
    Agrees env st (.send id text) (.ofList (trim (CliCmd.send id text : CliCmd F).line)) ↔
    (CliCmd.send id text : CliCmd F).Faithful st := by
  refine (agrees_text_iff .send id text
    (fun _ => rfl)).trans ?_
  show _ ↔ trimEnd text = text ∨ trimEnd text = [] ∨ id.toNat ∉ st.handles
  have hreq : (CliCmd.send id text).request st = some (.send id.toNat (trimEnd text)) ↔
      trimEnd text = text := by
    show some (Request.send id.toNat text) = _ ↔ _
    simp only [Option.some.injEq,Request.send.injEq,true_and]
    exact eq_comm
  rw [hreq,rejected_send,or_left_comm]

theorem agrees_jsEval (id : UInt32) (text : Text) :
    Agrees env st (.jsEval id text) (.ofList (trim (CliCmd.jsEval id text : CliCmd F).line)) ↔
    (CliCmd.jsEval id text : CliCmd F).Faithful st := by
  refine (agrees_text_iff .jsEval id text
    (fun _ => rfl)).trans ?_
  show _ ↔ trimEnd text = text ∨ trimEnd text = []
  have hreq : (CliCmd.jsEval id text).request st = some (.jsEval id.toNat (trimEnd text)) ↔
      trimEnd text = text := by
    show some (Request.jsEval id.toNat text) = _ ↔ _
    simp only [Option.some.injEq,Request.jsEval.injEq,true_and]
    exact eq_comm
  have hrej : ¬ isError (st.perform env (.jsEval id.toNat (trimEnd text))).1 = true := by
    rw [not_error_ok rfl]
    simp
  rw [hreq,or_comm]
  exact or_congr (or_iff_left (fun h => hrej h.1)) Iff.rfl

theorem agrees_trimmed_iff (verb : Verb) (id : UInt32) (text : Text) {usage name : String}
    {f : ℕ → Text → Request F}
    (hdec : ∀ args, verb.decode st args = (do
      let parts ← twoParts args usage
      let id ← parseArg parts.1 name
      return f id (trim parts.2)))
    (hreq : v.request st = some (f id.toNat text)) (hinj : ∀ n a b, f n a = f n b → a = b)
    (hok : ∀ n a, (st.perform env (f n a)).1 = "OK") :
    Agrees env st v (.ofList (trim (CliCmd.textLine verb.word id text))) ↔
      trim text = text ∨ trimEnd text = [] := by
  refine (agrees_text_iff (f := fun n a => f n (trim a)) verb id text hdec).trans ?_
  simp only [trim_trimEnd]
  have hrej : ¬ isError (st.perform env (f id.toNat (trim text))).1 = true := by
    rw [not_error_ok (hok _ _)]
    simp
  rw [hreq,Option.some.injEq,or_comm]
  refine or_congr ((or_iff_left (fun h => hrej h.1)).trans ?_) Iff.rfl
  exact ⟨fun h => (hinj _ _ _ h).symm,fun h => by rw [h]⟩

theorem agrees_setColor (id : UInt32) (text : Text) :
    Agrees env st (.workspaceSetColor id text)
      (.ofList (trim (CliCmd.workspaceSetColor id text : CliCmd F).line)) ↔
    (CliCmd.workspaceSetColor id text : CliCmd F).Faithful st := by
  refine (agrees_text_iff .workspaceSetColor id text (fun _ => rfl)).trans ?_
  show _ ↔ trimEnd text = text ∨ trimEnd text = [] ∨
    trimEnd text ≠ "none".toList ∧ WorkspaceColor.fromName (.ofList (trimEnd text)) = none
  have hreq : (CliCmd.workspaceSetColor id text).request st =
      some (.workspaceSetColor id.toNat (trimEnd text)) ↔ trimEnd text = text := by
    show some (Request.workspaceSetColor id.toNat text) = _ ↔ _
    simp only [Option.some.injEq,Request.workspaceSetColor.injEq,true_and]
    exact eq_comm
  rw [hreq,rejected_setColor,or_left_comm]

theorem agrees_openBrowser (url : Text) :
    Agrees env st (.openBrowser url) (.ofList (trim (CliCmd.openBrowser url : CliCmd F).line)) ↔
    (CliCmd.openBrowser url : CliCmd F).Faithful st := by
  have hd := decode_args st .openBrowser url
  have hd' : decodeCommand st (trim (CliCmd.openBrowser url : CliCmd F).line) =
      .ok (.openBrowser (trim url)) := by
    rw [← trim_trimEnd url]
    exact hd
  rw [agrees_iff_request hd' (not_error_ok rfl)]
  show some (Request.openBrowser url) = _ ↔ trim url = url
  simp only [Option.some.injEq,Request.openBrowser.injEq]
  exact eq_comm

theorem agrees_clearStatus (key : Text) :
    Agrees env st (.clearStatus key) (.ofList (trim (CliCmd.clearStatus key : CliCmd F).line)) ↔
    (CliCmd.clearStatus key : CliCmd F).Faithful st := by
  have hd : decodeCommand st (trim (CliCmd.clearStatus key : CliCmd F).line) = _ :=
    decode_args st .clearStatus key
  cases hf : st.window.focusedWorkspaceId with
  | none => exact iff_of_true (agrees_noFocus hd hf (by decide)) (.inl hf)
  | some ws =>
    rw [decode_clearStatus hf,trim_trimEnd] at hd
    by_cases hb : trim key = []
    · rw [if_pos hb] at hd
      exact iff_of_true (agrees_error hd (by decide)) (.inr (.inr hb))
    rw [if_neg hb] at hd
    rw [agrees_iff_request hd (not_error_ok rfl)]
    simp only [CliCmd.request,hf,Option.map_some,Option.some.injEq,Request.clearStatus.injEq,
      true_and,CliCmd.Faithful,false_or,reduceCtorEq,hb,or_false]
    exact eq_comm

theorem parse_optId (id : UInt32) :
    parseUnsigned (2^32) (ofNat id.toNat) = some id.toNat := parseUnsigned_ofNat id.toNat_lt

theorem agrees_remoteDisconnect (id : Option UInt32) (clear : Bool) :
    Agrees env st (.remoteDisconnect id clear)
      (.ofList (trim (CliCmd.remoteDisconnect id clear : CliCmd F).line)) ↔
    (CliCmd.remoteDisconnect id clear : CliCmd F).Faithful st := by
  have hplain : ∀ id : UInt32, ∀ w ∈ words (ofNat id.toNat), Plain w := by
    intro id w hw
    rw [words_of_word (word_ofNat _),List.mem_singleton] at hw
    exact hw ▸ plain_ofNat _
  have hdec : ∀ args : Text, Verb.remoteDisconnect.decode st (trimEnd args) =
      .ok (.remoteDisconnect ((plainWords args).head?.bind (parseUnsigned (2^32)))
        ((parseOpts args).opts.lookup "clear".toList).isSome) := by
    intro args
    rw [← parseOpts_positional,← parseOpts_trimEnd args]
    rfl
  have hclear : words "--clear".toList = ["--clear".toList] := by decide
  have hnone : optionValue "clear".toList "--clear".toList = none := by decide
  have hstrip : plainWords "--clear".toList = [] := by decide
  have hargs : ∀ args : Text, decodeCommand st (trim (Verb.remoteDisconnect.word.toList ++ ' ' :: args)) =
      .ok (.remoteDisconnect ((plainWords args).head?.bind (parseUnsigned (2^32)))
        ((parseOpts args).opts.lookup "clear".toList).isSome) := fun args =>
    (decode_args st .remoteDisconnect args).trans (hdec args)
  have hd : decodeCommand st (trim (CliCmd.remoteDisconnect id clear : CliCmd F).line) =
      .ok (.remoteDisconnect (id.map UInt32.toNat) false) := by
    show decodeCommand st (trim (Verb.remoteDisconnect.word.toList ++ (CliCmd.optId id ++
      if clear then ' ' :: "--clear".toList else []))) = _
    cases id with
    | none =>
      cases clear with
      | false =>
        rw [CliCmd.optId,if_neg (by simp),List.append_nil,List.append_nil,
          decode_word st .remoteDisconnect]
        rfl
      | true =>
        rw [CliCmd.optId,if_pos rfl,List.nil_append,hargs,hstrip,parseOpts_lookup,hclear]
        simp only [List.filterMap_cons,hnone,List.filterMap_nil]
        rfl
    | some id =>
      cases clear with
      | false =>
        rw [CliCmd.optId,if_neg (by simp),List.append_nil,hargs,plainWords_of_plain (hplain id),
          words_of_word (word_ofNat _),parseOpts_lookup,words_of_word (word_ofNat _)]
        simp only [List.head?_cons,Option.bind_some,parse_optId,List.filterMap_cons,
          optionValue_of_plain (plain_ofNat _),List.filterMap_nil]
        rfl
      | true =>
        rw [CliCmd.optId,if_pos rfl,List.cons_append,hargs,plainWords_append_space,
          plainWords_of_plain (hplain id),words_of_word (word_ofNat _),parseOpts_lookup,
          words_append_space (by decide),words_of_word (word_ofNat _),hstrip,hclear]
        simp only [List.append_nil,List.singleton_append,List.head?_cons,Option.bind_some,
          parse_optId,List.filterMap_cons,optionValue_of_plain (plain_ofNat _),hnone,
          List.filterMap_nil]
        rfl
  rw [agrees_iff_request hd (not_error_ok rfl)]
  show some (Request.remoteDisconnect _ clear) = _ ↔ clear = false
  simp

theorem agrees_word (verb : Verb) (hr : v.request st = some r) (hd : verb.decode st [] = .ok r) :
    Agrees env st v (.ofList (trim verb.word.toList)) :=
  agrees_ok hr ((decode_word st verb).trans hd)

theorem agrees_id (verb : Verb) {id : UInt32} {name : String} {f : ℕ → Request F}
    (hr : v.request st = some (f id.toNat))
    (hdec : ∀ args, verb.decode st args = (do return f (← parseArg args name))) :
    Agrees env st v (.ofList (trim (CliCmd.idLine verb.word id))) := by
  refine agrees_ok hr ((decode_id st verb id).trans ?_)
  rw [hdec,parseArg_ofNat]
  rfl

theorem agrees_focused (verb : Verb) {f : WorkspaceId → Request F}
    (hr : v.request st = st.window.focusedWorkspaceId.map f)
    (hdec : verb.decode st [] = (do return f (← focusedOr st))) :
    Agrees env st v (.ofList (trim verb.word.toList)) := by
  have hd := (decode_word st verb).trans hdec
  cases hf : st.window.focusedWorkspaceId with
  | none =>
    rw [focusedOr,hf] at hd
    exact agrees_error hd (by decide)
  | some ws =>
    rw [focusedOr,hf] at hd
    exact agrees_ok (hr.trans (by rw [hf]; rfl)) hd

omit [F64Ops F] in
theorem decode_optId (st : App F) (verb : Verb) (id : Option UInt32) :
    decodeCommand st (trim (verb.word.toList ++ CliCmd.optId id)) =
      verb.decode st ((id.map (fun n => ofNat n.toNat)).getD []) := by
  cases id with
  | none => rw [CliCmd.optId,List.append_nil,decode_word]; rfl
  | some n => exact decode_id st verb n

theorem trim_ofNat (n : ℕ) : trim (ofNat n) = ofNat n := trim_of_word (word_ofNat n).2

theorem agrees_closeWorkspace (id : Option UInt32) :
    Agrees env st (.closeWorkspace id)
      (.ofList (trim (CliCmd.closeWorkspace id : CliCmd F).line)) := by
  cases id with
  | none => exact agrees_focused .closeWorkspace (f := Request.closeWorkspace) rfl rfl
  | some n =>
    refine agrees_ok (r := .closeWorkspace n.toNat) rfl ((decode_id st .closeWorkspace n).trans ?_)
    show (if trim (ofNat n.toNat) = [] then _ else _) = _
    rw [trim_ofNat,if_neg (word_ofNat _).1,parseArg_ofNat]
    rfl

theorem agrees_listPanes (id : Option UInt32) :
    Agrees env st (.listPanes id) (.ofList (trim (CliCmd.listPanes id : CliCmd F).line)) := by
  have hd := decode_optId st .listPanes id
  cases id with
  | none =>
    rw [Option.map_none,Option.getD_none,decode_listPanes,if_pos (show trim [] = [] from rfl)] at hd
    cases hf : st.window.focusedWorkspaceId with
    | none =>
      rw [hf] at hd
      exact agrees_error hd (by decide)
    | some ws =>
      rw [hf] at hd
      exact agrees_ok (show Option.map Request.listPanes st.window.focusedWorkspaceId = _ by
        rw [hf]; rfl) hd
  | some n =>
    refine agrees_ok (r := .listPanes n.toNat) rfl (hd.trans ?_)
    rw [decode_listPanes,Option.map_some,Option.getD_some,trim_ofNat,if_neg (word_ofNat _).1,
      parse_optId]

/-- Commands whose only argument is the first word, if there is one. -/
theorem agrees_firstWord (verb : Verb) (id : Option UInt32) {f : Option ℕ → Request F}
    (hr : v.request st = some (f (id.map UInt32.toNat)))
    (hdec : ∀ args, verb.decode st args =
      .ok (f ((words args).head?.bind (parseUnsigned (2^32))))) :
    Agrees env st v (.ofList (trim (verb.word.toList ++ CliCmd.optId id))) := by
  refine agrees_ok hr ((decode_optId st verb id).trans ((hdec _).trans ?_))
  cases id with
  | none => rfl
  | some n =>
    rw [Option.map_some,Option.getD_some,words_of_word (word_ofNat _),List.head?_cons,
      Option.bind_some,parse_optId]
    rfl

/-- The server gets from the line exactly the arguments the tool was given, or
refuses it, just under the condition on them. -/
theorem agrees_iff_faithful (v : CliCmd F) :
    Agrees env st v (.ofList (trim v.line)) ↔ v.Faithful st := by
  cases v with
  | ping => exact iff_of_true (agrees_word .ping rfl rfl) trivial
  | version => exact iff_of_true (agrees_word .version rfl rfl) trivial
  | listSurfaces => exact iff_of_true (agrees_word .listSurfaces rfl rfl) trivial
  | newWorkspace => exact iff_of_true (agrees_word .newWorkspace rfl rfl) trivial
  | workspaceCount => exact iff_of_true (agrees_word .workspaceCount rfl rfl) trivial
  | listWorkspaces => exact iff_of_true (agrees_word .listWorkspaces rfl rfl) trivial
  | workspaceSetColor id color => exact agrees_setColor id color
  | workspacePin id => exact iff_of_true (agrees_id .workspacePin rfl (fun _ => rfl)) trivial
  | selectWorkspace id => exact iff_of_true (agrees_id .selectWorkspace rfl (fun _ => rfl)) trivial
  | closeWorkspace id => exact iff_of_true (agrees_closeWorkspace id) trivial
  | currentWorkspace => exact iff_of_true (agrees_word .currentWorkspace rfl rfl) trivial
  | listPanes id => exact iff_of_true (agrees_listPanes id) trivial
  | focusPane id => exact iff_of_true (agrees_id .focusPane rfl (fun _ => rfl)) trivial
  | renameWorkspace id name =>
    exact agrees_trimmed_iff .renameWorkspace id name (fun _ => rfl) rfl
      (fun _ _ _ h => (Request.renameWorkspace.inj h).2) (fun _ _ => rfl)
  | toggleSidebar => exact iff_of_true (agrees_word .toggleSidebar rfl rfl) trivial
  | splitRight => exact iff_of_true (agrees_word .splitRight rfl rfl) trivial
  | splitDown => exact iff_of_true (agrees_word .splitDown rfl rfl) trivial
  | openBrowser url => exact agrees_openBrowser url
  | navigate id url =>
    exact agrees_trimmed_iff .navigate id url (fun _ => rfl) rfl
      (fun _ _ _ h => (Request.navigate.inj h).2) (fun _ _ => rfl)
  | browserBack id => exact iff_of_true (agrees_id .browserBack rfl (fun _ => rfl)) trivial
  | browserForward id => exact iff_of_true (agrees_id .browserForward rfl (fun _ => rfl)) trivial
  | browserReload id => exact iff_of_true (agrees_id .browserReload rfl (fun _ => rfl)) trivial
  | getUrl id => exact iff_of_true (agrees_id .getUrl rfl (fun _ => rfl)) trivial
  | jsEval id script => exact agrees_jsEval id script
  | setStatus key value icon color priority => exact agrees_setStatus key value icon color priority
  | clearStatus key => exact agrees_clearStatus key
  | setProgress value label => exact agrees_setProgress value label
  | clearProgress =>
    exact iff_of_true (agrees_focused .clearProgress (f := Request.clearProgress) rfl rfl) trivial
  | log message level => exact agrees_log message level
  | clearLog => exact iff_of_true (agrees_focused .clearLog (f := Request.clearLog) rfl rfl) trivial
  | notifyEnable => exact iff_of_true (agrees_word .notifyEnable rfl rfl) trivial
  | notifyDisable => exact iff_of_true (agrees_word .notifyDisable rfl rfl) trivial
  | notifyStatus => exact iff_of_true (agrees_word .notifyStatus rfl rfl) trivial
  | remoteConnect destination port identity sshOption command =>
    exact agrees_remoteConnect destination port identity sshOption command
  | remoteDisconnect id clear => exact agrees_remoteDisconnect id clear
  | remoteReconnect id =>
    exact iff_of_true (agrees_firstWord .remoteReconnect id (f := Request.remoteReconnect) rfl
      (fun _ => rfl)) trivial
  | remoteStatus id =>
    exact iff_of_true (agrees_firstWord .remoteStatus id (f := Request.remoteStatus) rfl
      (fun _ => rfl)) trivial
  | send id text => exact agrees_send id text
  | readScreen id => exact iff_of_true (agrees_id .readScreen rfl (fun _ => rfl)) trivial

end Decoding

end Limux
