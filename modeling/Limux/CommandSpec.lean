import Limux.Command

/-! What the argument parsing of the commands gives on texts put together from
parts: numbers, words, options and free text. -/
namespace Limux

open Text

def plainWords (s : Text) : List Text := (words s).filter (fun w => stripDashes w = none)

/-- The value a word gives to option `k`. -/
def optionValue (k w : Text) : Option Text :=
  (stripDashes w).bind (fun kv => (splitOnce '=' kv).bind (fun p =>
    if p.1 = k then some p.2 else none))

namespace ParsedOpts

theorem foldl_positional (ws : List Text) (p : ParsedOpts) :
    (ws.foldl add p).positional = p.positional ++ ws.filter (fun w => stripDashes w = none) := by
  induction ws generalizing p with
  | nil => simp
  | cons w ws ih =>
    rw [List.foldl_cons,ih,List.filter_cons]
    unfold add
    split
    · rename_i kv h
      rw [h]
      split <;> simp
    · rename_i h
      simp [h]

theorem foldl_lookup (k : Text) (ws : List Text) (p : ParsedOpts) :
    (ws.foldl add p).opts.lookup k =
      ((ws.filterMap (optionValue k)).getLast?).or (p.opts.lookup k) := by
  induction ws generalizing p with
  | nil => simp
  | cons w ws ih =>
    rw [List.foldl_cons,ih]
    have hstep : (p.add w).opts.lookup k = (optionValue k w).or (p.opts.lookup k) := by
      unfold add optionValue
      rcases hs : stripDashes w with _ | kv
      · simp
      · rcases ho : splitOnce '=' kv with _ | ⟨a,b⟩
        · simp [ho]
        · simp only [Option.bind_some,ho,HashMap.lookup_insert_ite]
          by_cases hk : a = k
          · simp [hk]
          · simp [hk,Ne.symm hk]
    rw [hstep,List.filterMap_cons]
    rcases hv : optionValue k w with _ | v
    · simp
    · simp only [Option.some_or]
      rcases hl : (ws.filterMap (optionValue k)).getLast? with _ | x
      · rw [List.getLast?_eq_none_iff] at hl
        simp [hl]
      · rw [List.getLast?_cons,hl]
        rfl

end ParsedOpts

theorem parseOpts_positional (args : Text) : (parseOpts args).positional = plainWords args := by
  rw [parseOpts,ParsedOpts.foldl_positional]
  rfl

theorem parseOpts_lookup (args k : Text) :
    (parseOpts args).opts.lookup k = ((words args).filterMap (optionValue k)).getLast? := by
  rw [parseOpts,ParsedOpts.foldl_lookup]
  simp

theorem parseOpts_trimEnd (args : Text) : parseOpts (trimEnd args) = parseOpts args := by
  rw [parseOpts,words_trimEnd,parseOpts]

theorem plain_of_mem_plainWords {s w : Text} (h : w ∈ plainWords s) : Plain w := by
  obtain ⟨hm,hd⟩ := List.mem_filter.mp h
  exact ⟨word_of_mem hm,by simpa using hd⟩

theorem optionValue_of_plain {w : Text} (h : Plain w) (k : Text) : optionValue k w = none := by
  simp [optionValue,h.2]

/-! Texts of options. -/

/-- `--key=value`. -/
def optionText (k v : Text) : Text := '-' :: '-' :: (k ++ '=' :: v)

/-- Positional words that a value with blanks in it leaves behind. -/
def strayWords (v : Text) : List Text :=
  ((wordsAux v).2).filter (fun w => stripDashes w = none)

section Options

variable {k : Text}

/-- An option name: tight and without an equals sign. -/
def OptionName (k : Text) : Prop := Tight k ∧ '=' ∉ k

instance (k : Text) : Decidable (OptionName k) := inferInstanceAs (Decidable (_ ∧ _))

theorem words_optionText (hk : OptionName k) (v : Text) :
    words (optionText k v) = optionText k (wordsAux v).1 :: (wordsAux v).2 := by
  have hw : Word ('-' :: '-' :: (k ++ ['='])) := by
    refine ⟨by simp,fun c hc => ?_⟩
    simp only [List.mem_cons,List.mem_append,List.not_mem_nil,or_false] at hc
    rcases hc with rfl | rfl | hc | rfl
    · decide
    · decide
    · exact hk.1 c hc
    · decide
  have h := words_glue hw v
  simpa [optionText] using h

theorem stripDashes_optionText (v : Text) : stripDashes (optionText k v) = some (k ++ '=' :: v) :=
  rfl

theorem optionValue_optionText (hk : OptionName k) (k' v : Text) :
    optionValue k' (optionText k v) = if k = k' then some v else none := by
  rw [optionValue,stripDashes_optionText,Option.bind_some,splitOnce_append hk.2]
  rfl

theorem plainWords_optionText (hk : OptionName k) (v : Text) :
    plainWords (optionText k v) = strayWords v := by
  rw [plainWords,words_optionText hk,List.filter_cons,stripDashes_optionText]
  rfl

theorem words_optionText_tight (hk : OptionName k) {v : Text} (hv : Tight v) :
    words (optionText k v) = [optionText k v] := by
  have h := wordsAux_tight hv []
  simp only [List.append_nil] at h
  rw [words_optionText hk,h]
  simp [wordsAux]

end Options

/-- Options behind other arguments, each with a space before it. -/
def optionsText (os : List (Text × Text)) : Text :=
  os.flatMap (fun e => ' ' :: optionText e.1 e.2)

theorem words_optionsText (s : Text) (os : List (Text × Text)) :
    words (s ++ optionsText os) = words s ++ os.flatMap (fun e => words (optionText e.1 e.2)) := by
  induction os generalizing s with
  | nil => simp [optionsText]
  | cons e os ih =>
    have he : s ++ optionsText (e :: os) = s ++ ' ' :: (optionText e.1 e.2 ++ optionsText os) := by
      simp [optionsText]
    rw [he,words_append_space (by decide),ih,List.flatMap_cons]

theorem plainWords_optionsText (s : Text) {os : List (Text × Text)}
    (h : ∀ e ∈ os, OptionName e.1) :
    plainWords (s ++ optionsText os) = plainWords s ++ os.flatMap (fun e => strayWords e.2) := by
  rw [plainWords,words_optionsText,List.filter_append,List.filter_flatMap]
  congr 1
  exact List.flatMap_congr (fun e he => plainWords_optionText (h e he) e.2)

theorem lookup_optionsText {s : Text} (hs : ∀ w ∈ words s, Plain w) {os : List (Text × Text)}
    (h : ∀ e ∈ os, OptionName e.1 ∧ Tight e.2) (k : Text) :
    (parseOpts (s ++ optionsText os)).opts.lookup k =
      ((os.filter (fun e => e.1 = k)).map Prod.snd).getLast? := by
  rw [parseOpts_lookup,words_optionsText,List.filterMap_append,List.filterMap_eq_nil_iff.mpr
    (fun w hw => optionValue_of_plain (hs w hw) k),List.nil_append]
  congr 1
  induction os with
  | nil => rfl
  | cons e os ih =>
    obtain ⟨h1,h2⟩ := h e (by simp)
    rw [List.flatMap_cons,words_optionText_tight h1 h2,List.singleton_append,List.filterMap_cons,
      optionValue_optionText h1,ih (fun x hx => h x (by simp [hx])),List.filter_cons]
    by_cases hk : e.1 = k
    · simp [hk]
    · simp [hk]

/-- Whatever value an option is given has no blanks. -/
theorem tight_of_lookup {args k v : Text} (h : (parseOpts args).opts.lookup k = some v) :
    Tight v := by
  rw [parseOpts_lookup] at h
  obtain ⟨w,hw,hv⟩ := List.mem_filterMap.mp (List.mem_of_getLast? h)
  have ht := (word_of_mem hw).2
  simp only [optionValue,Option.bind_eq_some_iff] at hv
  obtain ⟨kv,hkv,⟨a,b⟩,hab,hif⟩ := hv
  split_ifs at hif
  cases hif
  have hkv' : w = '-' :: '-' :: kv := by
    unfold stripDashes at hkv
    split at hkv
    · cases hkv; rfl
    · cases hkv
  obtain ⟨hb,-⟩ := splitOnce_eq_some hab
  exact fun c hc => ht c (by rw [hkv',hb]; simp [hc])

/-! Numbers and free text. -/

theorem parseArg_ofNat (n : UInt32) (name : String) :
    parseArg (ofNat n.toNat) name = .ok n.toNat := by
  rw [parseArg,trim_of_word (word_ofNat _).2,parseUnsigned_ofNat n.toNat_lt]

theorem twoParts_ofNat (n : ℕ) (s : Text) (usage : String) :
    twoParts (trimEnd (ofNat n ++ ' ' :: s)) usage =
      if trimEnd s = [] then .error ("ERROR: usage: " ++ usage)
      else .ok (ofNat n,trimEnd s) := by
  have hsp : ' ' ∉ ofNat n := fun hm => absurd ((word_ofNat n).2 ' ' hm) (by decide)
  have he : (ofNat n ++ ' ' :: s : Text) = (ofNat n ++ [' ']) ++ s := by simp
  by_cases hs : trimEnd s = []
  · rw [if_pos hs,he,trimEnd_append_nil _ hs,trimEnd_append_nil _ (by decide),
      trimEnd_of_word (word_ofNat n).2,twoParts,splitOnce_of_notMem hsp]
  · rw [if_neg hs,he,trimEnd_append_solid _ hs,List.append_assoc,List.singleton_append,twoParts,
      splitOnce_append hsp]

/-- A command word with arguments, as the server sees it after trimming. -/
theorem commandParts_trim {w : Text} (hw : Word w) (args : Text) :
    commandParts (trim (w ++ ' ' :: args)) = (w,trimEnd args) := by
  obtain ⟨c,cs,rfl⟩ := List.exists_cons_of_ne_nil hw.1
  have hsp : ' ' ∉ c :: cs := fun hm => absurd (hw.2 ' ' hm) (by decide)
  have hst : trimStart (c :: cs ++ ' ' :: args) = c :: cs ++ ' ' :: args :=
    trimStart_of_solid (hw.2 c (by simp)) _
  have he : (c :: cs ++ ' ' :: args : Text) = (c :: cs ++ [' ']) ++ args := by simp
  rw [trim,hst,he]
  by_cases hs : trimEnd args = []
  · rw [trimEnd_append_nil _ hs,trimEnd_append_nil _ (by decide),trimEnd_of_word hw.2,
      commandParts,splitOnce_of_notMem hsp,hs]
    rfl
  · rw [trimEnd_append_solid _ hs,List.append_assoc,List.singleton_append,commandParts,
      splitOnce_append hsp]
    rfl

theorem commandParts_word {w : Text} (hw : Word w) : commandParts (trim w) = (w,[]) := by
  have hsp : ' ' ∉ w := fun hm => absurd (hw.2 ' ' hm) (by decide)
  rw [trim_of_word hw.2,commandParts,splitOnce_of_notMem hsp]
  rfl

/-! The command words. -/

/-- The word of a verb; the two that have an alias have it besides this one. -/
def Verb.word : Verb → String
  | .ping => "ping"
  | .version => "version"
  | .listSurfaces => "list_surfaces"
  | .newWorkspace => "new_workspace"
  | .newPaneTab => "new_pane_tab"
  | .workspaceCount => "workspace_count"
  | .listWorkspaces => "list_workspaces"
  | .workspaceSetColor => "workspace_set_color"
  | .workspacePin => "workspace_pin"
  | .toggleSidebar => "toggle_sidebar"
  | .splitRight => "split_right"
  | .splitDown => "split_down"
  | .setStatus => "set_status"
  | .clearStatus => "clear_status"
  | .setProgress => "set_progress"
  | .clearProgress => "clear_progress"
  | .log => "log"
  | .clearLog => "clear_log"
  | .selectWorkspace => "select_workspace"
  | .closeWorkspace => "close_workspace"
  | .currentWorkspace => "current_workspace"
  | .listPanes => "list_panes"
  | .focusPane => "focus_pane"
  | .renameWorkspace => "rename_workspace"
  | .send => "send"
  | .readScreen => "read_screen"
  | .openBrowser => "open_browser"
  | .navigate => "navigate"
  | .browserBack => "browser_back"
  | .browserForward => "browser_forward"
  | .browserReload => "browser_reload"
  | .getUrl => "get_url"
  | .jsEval => "js_eval"
  | .notifyEnable => "notify_enable"
  | .notifyDisable => "notify_disable"
  | .notifyStatus => "notify_status"
  | .remoteConnect => "remote_connect"
  | .remoteDisconnect => "remote_disconnect"
  | .remoteReconnect => "remote_reconnect"
  | .remoteStatus => "remote_status"

theorem find_of_nodup {α β γ : Type} [DecidableEq γ] {l : List (α × β)} {f : α → γ}
    (hn : (l.map (fun e => f e.1)).Nodup) {a : α} {b : β} (hm : (a,b) ∈ l) :
    l.find? (fun e => f e.1 = f a) = some (a,b) := by
  induction l with
  | nil => cases hm
  | cons e l ih =>
    rw [List.map_cons,List.nodup_cons] at hn
    rcases List.mem_cons.mp hm with rfl | hm
    · simp
    · have hne : f e.1 ≠ f a := fun he => hn.1 (he ▸ List.mem_map_of_mem hm)
      rw [List.find?_cons_of_neg (by simpa using hne)]
      exact ih hn.2 hm

theorem Verb.word_mem_table (v : Verb) : (v.word,v) ∈ table := by
  cases v <;> simp [Verb.word,table]

theorem Verb.tables_words : ∀ e ∈ table, Word e.1.toList := by decide +kernel

theorem Verb.table_keys_nodup : (table.map (fun e => e.1.toList)).Nodup := by decide +kernel

theorem Verb.ofText_word (v : Verb) : ofText v.word.toList = some v := by
  rw [ofText,find_of_nodup table_keys_nodup v.word_mem_table]
  rfl

theorem Verb.isWord (v : Verb) : Word v.word.toList := tables_words _ v.word_mem_table

section Words

variable {F : Type} [F64Text F]

theorem decode_args (st : App F) (v : Verb) (args : Text) :
    decodeCommand st (trim (v.word.toList ++ ' ' :: args)) = v.decode st (trimEnd args) := by
  rw [decodeCommand,commandParts_trim v.isWord]
  simp only [v.ofText_word]

theorem decode_word (st : App F) (v : Verb) :
    decodeCommand st (trim v.word.toList) = v.decode st [] := by
  rw [decodeCommand,commandParts_word v.isWord]
  simp only [v.ofText_word]

end Words

/-! Commands for the focused workspace. -/

section Focused

variable {F : Type} [F64Text F] {st : App F} {args : Text} {ws : WorkspaceId}

theorem decode_noFocus (hf : st.window.focusedWorkspaceId = none) {verb : Verb}
    (hv : verb ∈ [Verb.setStatus,.clearStatus,.setProgress,.clearProgress,.log,.clearLog]) :
    verb.decode st args = .error "ERROR: no focused workspace" := by
  have hfo : focusedOr st = .error "ERROR: no focused workspace" := by rw [focusedOr,hf]
  simp only [List.mem_cons,List.not_mem_nil,or_false] at hv
  rcases hv with rfl | rfl | rfl | rfl | rfl | rfl <;>
    (show (focusedOr st >>= _) = _; rw [hfo]; rfl)

theorem decode_setStatus (hf : st.window.focusedWorkspaceId = some ws) :
    Verb.setStatus.decode st args = match (parseOpts args).positional with
      | key :: v :: vs =>
        .ok (.setStatus ws key (spaced (v :: vs)) ((parseOpts args).opts.lookup "icon".toList)
          ((parseOpts args).opts.lookup "color".toList)
          ((((parseOpts args).opts.lookup "priority".toList).bind (parseSigned (2^31))).getD 0))
      | _ =>
        .error "ERROR: usage: set_status <key> <value> [--icon=X] [--color=X] [--priority=N]" := by
  show (focusedOr st >>= _) = _
  rw [focusedOr,hf]
  rfl

theorem decode_clearStatus (hf : st.window.focusedWorkspaceId = some ws) :
    Verb.clearStatus.decode st args =
      if trim args = [] then .error "ERROR: usage: clear_status <key>"
      else .ok (.clearStatus ws (trim args)) := by
  show (focusedOr st >>= _) = _
  rw [focusedOr,hf]
  rfl

theorem decode_setProgress (hf : st.window.focusedWorkspaceId = some ws) :
    Verb.setProgress.decode st args = match (parseOpts args).positional with
      | [] => .error "ERROR: usage: set_progress <0.0-1.0> [--label=X]"
      | v :: _ =>
        match F64Text.parse (trim v) with
        | some value =>
          .ok (.setProgress ws value ((parseOpts args).opts.lookup "label".toList))
        | none => .error "ERROR: invalid progress value" := by
  show (focusedOr st >>= _) = _
  rw [focusedOr,hf]
  rfl

theorem decode_log (hf : st.window.focusedWorkspaceId = some ws) :
    Verb.log.decode st args =
      if (parseOpts args).positional = [] then
        .error "ERROR: usage: log <message> [--level=info|warning|error|success]"
      else .ok (.log ws (spaced (parseOpts args).positional)
        (((parseOpts args).opts.lookup "level".toList).getD "info".toList)) := by
  show (focusedOr st >>= _) = _
  rw [focusedOr,hf]
  rfl

/-- Without an argument the panes of the focused workspace are listed. -/
theorem decode_listPanes :
    Verb.listPanes.decode st args =
      match (if trim args = [] then st.window.focusedWorkspaceId
        else parseUnsigned (2^32) (trim args)) with
      | some id => .ok (.listPanes id)
      | none => .error "ERROR: no workspace" := rfl

theorem decode_remoteConnect :
    Verb.remoteConnect.decode st args = match (parseOpts args).positional with
      | [] => .error "ERROR: remote_connect requires a destination"
      | destination :: _ => .ok (.remoteConnect destination
          (((parseOpts args).opts.lookup "port".toList).bind (parseUnsigned (2^16)))
          ((parseOpts args).opts.lookup "identity".toList)
          ((parseOpts args).opts.lookup "command".toList)
          ((parseOpts args).opts.lookup "ssh-option".toList).toList) := rfl

end Focused

end Limux
