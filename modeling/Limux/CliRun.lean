import Limux.CliAgree
import Limux.Lib.Extended

/-! A command of the command line tool over its connection: the line is framed,
sent and served, and the server runs one command with the given arguments. -/
namespace Limux

open Text

section Lines

variable {F : Type} [F64Text F]

theorem newline_notMem_of_tight {w : Text} (h : Tight w) : '\n' ∉ w := fun hm =>
  absurd (h '\n' hm) (by decide)

theorem newline_notMem_word (verb : Verb) : '\n' ∉ verb.word.toList :=
  newline_notMem_of_tight verb.isWord.2

theorem newline_notMem_ofNat (n : ℕ) : '\n' ∉ ofNat n := newline_notMem_of_tight (word_ofNat n).2

theorem newline_notMem_optId (id : Option UInt32) : '\n' ∉ CliCmd.optId id := by
  cases id with
  | none => simp [CliCmd.optId]
  | some n => simp [CliCmd.optId,newline_notMem_ofNat]

theorem newline_mem_idLine (verb : Verb) (id : UInt32) :
    '\n' ∉ CliCmd.idLine verb.word id := by
  simp [CliCmd.idLine,newline_notMem_word,newline_notMem_ofNat]

theorem newline_mem_textLine (verb : Verb) (id : UInt32) (text : Text) :
    '\n' ∈ CliCmd.textLine verb.word id text ↔ '\n' ∈ text := by
  simp [CliCmd.textLine,newline_notMem_word,newline_notMem_ofNat]

theorem newline_mem_opt {k : String} (hk : '\n' ∉ k.toList) (o : Option Text) :
    '\n' ∈ CliCmd.opt k o ↔ ∃ t ∈ o, '\n' ∈ t := by
  cases o with
  | none => simp [CliCmd.opt]
  | some t => simp [CliCmd.opt,hk]

theorem newline_notMem_opt_tight {k : String} (hk : '\n' ∉ k.toList) {o : Option Text}
    (ho : ∀ t ∈ o, Tight t) : '\n' ∉ CliCmd.opt k o := by
  rw [newline_mem_opt hk]
  rintro ⟨t,ht,hn⟩
  exact newline_notMem_of_tight (ho t ht) hn

theorem newline_mem_setStatus (key value : Text) (icon color : Option Text)
    (priority : Option Int32) :
    '\n' ∈ (CliCmd.setStatus key value icon color priority : CliCmd F).line ↔
      ∃ t ∈ (CliCmd.setStatus key value icon color priority : CliCmd F).texts, '\n' ∈ t := by
  have hp : '\n' ∉ CliCmd.opt "priority" (priority.map (fun p => ofInt p.toInt)) := by
    refine newline_notMem_opt_tight (by decide) fun t ht => ?_
    obtain ⟨p,-,rfl⟩ := Option.map_eq_some_iff.mp ht
    exact (word_ofInt _).2
  show '\n' ∈ Verb.setStatus.word.toList ++ ' ' :: (key ++ ' ' :: (value ++
    (CliCmd.opt "icon" icon ++ (CliCmd.opt "color" color ++ CliCmd.opt "priority" _)))) ↔
    ∃ t ∈ key :: value :: (icon.toList ++ color.toList), '\n' ∈ t
  simp [newline_notMem_word,newline_mem_opt,hp,or_and_right,exists_or]

theorem newline_mem_remoteConnect (destination : Text) (port : Option UInt16)
    (identity : Option Text) (sshOption : List Text) (command : Option Text) :
    '\n' ∈ (CliCmd.remoteConnect destination port identity sshOption command : CliCmd F).line ↔
      ∃ t ∈ (CliCmd.remoteConnect destination port identity sshOption command : CliCmd F).texts,
        '\n' ∈ t := by
  have hp : '\n' ∉ CliCmd.opt "port" (port.map (fun p => ofNat p.toNat)) := by
    refine newline_notMem_opt_tight (by decide) fun t ht => ?_
    obtain ⟨p,-,rfl⟩ := Option.map_eq_some_iff.mp ht
    exact (word_ofNat _).2
  show '\n' ∈ Verb.remoteConnect.word.toList ++ ' ' :: (destination ++ (CliCmd.opt "port" _ ++
    (CliCmd.opt "identity" identity ++ (sshOption.flatMap (fun o => CliCmd.opt "ssh-option"
      (some o)) ++ CliCmd.opt "command" command)))) ↔
    ∃ t ∈ destination :: (identity.toList ++ sshOption ++ command.toList), '\n' ∈ t
  simp [newline_notMem_word,newline_mem_opt,hp,or_and_right,exists_or]

/-- The line holds a line break just where a text argument does. -/
theorem newline_mem_line (v : CliCmd F) : '\n' ∈ v.line ↔ ∃ t ∈ v.texts, '\n' ∈ t := by
  have hnone : ∀ {t : Text}, '\n' ∉ t → ('\n' ∈ t ↔ ∃ s ∈ ([] : List Text), '\n' ∈ s) :=
    fun h => by simp [h]
  have hone : ∀ {t s : Text}, ('\n' ∈ t ↔ '\n' ∈ s) → ('\n' ∈ t ↔ ∃ x ∈ [s], '\n' ∈ x) :=
    fun h => by simp [h]
  cases v with
  | ping => exact hnone (newline_notMem_word .ping)
  | version => exact hnone (newline_notMem_word .version)
  | listSurfaces => exact hnone (newline_notMem_word .listSurfaces)
  | newWorkspace => exact hnone (newline_notMem_word .newWorkspace)
  | workspaceCount => exact hnone (newline_notMem_word .workspaceCount)
  | listWorkspaces => exact hnone (newline_notMem_word .listWorkspaces)
  | workspaceSetColor id color => exact hone (newline_mem_textLine .workspaceSetColor id color)
  | workspacePin id => exact hnone (newline_mem_idLine .workspacePin id)
  | selectWorkspace id => exact hnone (newline_mem_idLine .selectWorkspace id)
  | closeWorkspace id => exact hnone (by
      show '\n' ∉ Verb.closeWorkspace.word.toList ++ CliCmd.optId id
      simp [newline_notMem_word,newline_notMem_optId])
  | currentWorkspace => exact hnone (newline_notMem_word .currentWorkspace)
  | listPanes id => exact hnone (by
      show '\n' ∉ Verb.listPanes.word.toList ++ CliCmd.optId id
      simp [newline_notMem_word,newline_notMem_optId])
  | focusPane id => exact hnone (newline_mem_idLine .focusPane id)
  | renameWorkspace id name => exact hone (newline_mem_textLine .renameWorkspace id name)
  | toggleSidebar => exact hnone (newline_notMem_word .toggleSidebar)
  | splitRight => exact hnone (newline_notMem_word .splitRight)
  | splitDown => exact hnone (newline_notMem_word .splitDown)
  | openBrowser url => exact hone (by
      show '\n' ∈ Verb.openBrowser.word.toList ++ ' ' :: url ↔ _
      simp [newline_notMem_word])
  | navigate id url => exact hone (newline_mem_textLine .navigate id url)
  | browserBack id => exact hnone (newline_mem_idLine .browserBack id)
  | browserForward id => exact hnone (newline_mem_idLine .browserForward id)
  | browserReload id => exact hnone (newline_mem_idLine .browserReload id)
  | getUrl id => exact hnone (newline_mem_idLine .getUrl id)
  | jsEval id script => exact hone (newline_mem_textLine .jsEval id script)
  | setStatus key value icon color priority => exact newline_mem_setStatus key value icon color _
  | clearStatus key => exact hone (by
      show '\n' ∈ Verb.clearStatus.word.toList ++ ' ' :: key ↔ _
      simp [newline_notMem_word])
  | setProgress value label =>
    show '\n' ∈ Verb.setProgress.word.toList ++ ' ' :: (F64Text.display value ++
      CliCmd.opt "label" label) ↔ ∃ t ∈ label.toList, '\n' ∈ t
    have hv := newline_notMem_of_tight (F64Text.plain_display value).1.2
    simp [newline_notMem_word,newline_mem_opt,hv]
  | clearProgress => exact hnone (newline_notMem_word .clearProgress)
  | log message level =>
    show '\n' ∈ Verb.log.word.toList ++ ' ' :: (message ++ CliCmd.opt "level" (some level)) ↔
      ∃ t ∈ [message,level], '\n' ∈ t
    simp [newline_notMem_word,newline_mem_opt]
  | clearLog => exact hnone (newline_notMem_word .clearLog)
  | notifyEnable => exact hnone (newline_notMem_word .notifyEnable)
  | notifyDisable => exact hnone (newline_notMem_word .notifyDisable)
  | notifyStatus => exact hnone (newline_notMem_word .notifyStatus)
  | remoteConnect destination port identity sshOption command =>
    exact newline_mem_remoteConnect destination port identity sshOption command
  | remoteDisconnect id clear => exact hnone (by
      show '\n' ∉ Verb.remoteDisconnect.word.toList ++ (CliCmd.optId id ++
        if clear then ' ' :: "--clear".toList else [])
      have hc : '\n' ∉ (if clear then ' ' :: "--clear".toList else [] : Text) := by
        cases clear <;> decide
      simp only [List.mem_append,newline_notMem_word,newline_notMem_optId,hc,or_self,
        not_false_eq_true])
  | remoteReconnect id => exact hnone (by
      show '\n' ∉ Verb.remoteReconnect.word.toList ++ CliCmd.optId id
      simp [newline_notMem_word,newline_notMem_optId])
  | remoteStatus id => exact hnone (by
      show '\n' ∉ Verb.remoteStatus.word.toList ++ CliCmd.optId id
      simp [newline_notMem_word,newline_notMem_optId])
  | send id text => exact hone (newline_mem_textLine .send id text)
  | readScreen id => exact hnone (newline_mem_idLine .readScreen id)

end Lines

section Delivery

variable {F : Type} [F64Ops F] [F64Text F]

/-- The server runs exactly one command for the tool's line, with the given
arguments or refused. -/
def Delivered (env : CommandEnv F) (st : App F) (v : CliCmd F) : Prop :=
  Conn.RunsOnce (handleCommand env) st (Utf8.encode (v.line ++ ['\n'])) (Agrees env st v)

/-- The server runs exactly what the tool was asked for just when no text argument
has a line break, the line fits the server's buffer and the arguments are faithful. -/
theorem delivered_iff (env : CommandEnv F) (st : App F) (v : CliCmd F) :
    Delivered env st v ↔ (∀ t ∈ v.texts, '\n' ∉ t) ∧
      (Utf8.encode v.line).length < Conn.bufferLimit ∧ v.Faithful st := by
  rw [Delivered,Conn.runsOnce_line_iff,agrees_iff_faithful,newline_mem_line]
  simp only [not_exists,not_and]

end Delivery

instance : F64Ops Extended where
  lit := Extended.finite
  ofUsize n := .finite n
  ofInt n := .finite n
  add := Extended.add
  sub := Extended.sub
  mul := Extended.mul
  div := Extended.div
  abs := Extended.abs
  le := Extended.le
  lt := Extended.lt

instance : F64Text Extended where
  display := Extended.display
  parse := Extended.parse
  parse_display := Extended.parse_display
  plain_display := Extended.plain_display

def App.start : App Extended := ⟨⟨[],none,true,240,240,⟨1,1,1,1⟩⟩,[1],true,[]⟩

def CommandEnv.quiet : CommandEnv Extended where
  listSurfaces _ := []
  listWorkspaces _ := []
  readScreen _ := none
  getUrl _ := none
  remoteStatus _ _ := none
  relayPort := none
  relayId := ""
  relayToken := ""

/-- The clear flag is dropped, and so is a blank at the end of a text. -/
theorem clear_flag_is_dropped :
    ¬ Delivered CommandEnv.quiet App.start (.remoteDisconnect none true) ∧
    ¬ Delivered CommandEnv.quiet App.start (.send 1 "ls ".toList) := by
  simp only [Delivered,Conn.runsOnce_line_iff,agrees_iff_faithful]
  constructor
  · rintro ⟨-,-,h⟩
    exact Bool.noConfusion h
  · rintro ⟨-,-,h | h | h⟩
    · exact absurd h (by decide)
    · exact absurd h (by decide)
    · exact h (by decide)

end Limux
