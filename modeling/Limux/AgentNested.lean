import Limux.AgentLaunch

/-! Agents started inside agents: the options of node come back, the agents are found where
they were, and the innermost shim answers for the pane its agent was started in. -/
namespace Limux.AgentLaunch

open Text Tmux

variable {files : Files} {home configDir : Text} {a : Agent} {l : Launch} {env env' : Environ}
  {x : Exec} {k : String}

/-- The variables that starting an agent sets for good. -/
def setNames : List String :=
  ["LIMUX_CLAUDE_TEAMS_LIMUX_BIN","LIMUX_OMO_LIMUX_BIN","PATH","TMUX","TMUX_PANE","TERM",
    "LIMUX_SOCKET_PATH","LIMUX_SOCKET","TERM_PROGRAM","COLORTERM","LIMUX_WORKSPACE_ID",
    "LIMUX_SURFACE_ID","CLAUDE_CODE_EXPERIMENTAL_AGENT_TEAMS","OPENCODE_CONFIG_DIR",
    "OPENCODE_PORT"]

theorem lookup_setFocus (hw : k ≠ "LIMUX_WORKSPACE_ID") (hs : k ≠ "LIMUX_SURFACE_ID")
    (focused : Option FocusedContext) : (setFocus env focused).lookup k = env.lookup k := by
  cases focused with
  | none => rfl
  | some f =>
    simp only [setFocus]
    split
    · rw [AList.lookup_insert_ne hw]
    · rw [AList.lookup_insert_ne hs,AList.lookup_insert_ne hw]

theorem lookup_configure (hk : k ∉ setNames) (selfPath socketPath : Text)
    (focused : Option FocusedContext) :
    (configureAgentEnvironment a home selfPath socketPath focused env).lookup k =
      env.lookup k := by
  simp only [setNames,List.mem_cons,List.not_mem_nil,or_false,not_or] at hk
  cases a <;>
    simp [configureAgentEnvironment,Agent.extraEnv,Agent.limuxBinEnvVar,lookup_setFocus,hk]

theorem path_configure (selfPath socketPath : Text) (focused : Option FocusedContext) :
    getenv (configureAgentEnvironment a home selfPath socketPath focused env) "PATH" =
      a.shimDir home ++ ':' :: getenv env "PATH" := by
  cases a <;>
    simp [getenv,configureAgentEnvironment,Agent.extraEnv,Agent.limuxBinEnvVar,
      HashMap.lookup_insert_ite,lookup_setFocus]

theorem pane_configure (selfPath socketPath : Text) (focused : Option FocusedContext) :
    getenv (configureAgentEnvironment a home selfPath socketPath focused env) "TMUX_PANE" =
      fakeTmuxPane focused := by
  cases a <;>
    simp [getenv,configureAgentEnvironment,Agent.extraEnv,Agent.limuxBinEnvVar,
      HashMap.lookup_insert_ite,lookup_setFocus]

theorem workspace_configure (selfPath socketPath : Text) (f : FocusedContext) :
    getenv (configureAgentEnvironment a home selfPath socketPath (some f) env)
      "LIMUX_WORKSPACE_ID" = f.workspaceId := by
  cases a <;> by_cases hs : f.surfaceId = [] <;>
    simp [getenv,configureAgentEnvironment,Agent.extraEnv,setFocus,hs,
      HashMap.lookup_insert_ite]

theorem lookup_configureNode (hk : k ∉ ["NODE_OPTIONS","LIMUX_ORIGINAL_NODE_OPTIONS",
    "LIMUX_ORIGINAL_NODE_OPTIONS_PRESENT"]) (path : Text) :
    (configureClaudeNodeOptions path env).lookup k = env.lookup k := by
  simp only [List.mem_cons,List.not_mem_nil,or_false,not_or] at hk
  unfold configureClaudeNodeOptions
  cases env.lookup "NODE_OPTIONS" <;>
    simp [hk]

theorem lookup_restore (hk : k ∉ ["NODE_OPTIONS","LIMUX_ORIGINAL_NODE_OPTIONS",
    "LIMUX_ORIGINAL_NODE_OPTIONS_PRESENT"]) :
    (restoreNodeOptions env).lookup k = env.lookup k := by
  simp only [List.mem_cons,List.not_mem_nil,or_false,not_or] at hk
  unfold restoreNodeOptions
  split <;> simp [hk]

/-- Node puts back what was saved for it. -/
theorem restore_configureNode (path : Text) :
    (restoreNodeOptions (configureClaudeNodeOptions path env)).lookup "NODE_OPTIONS" =
      env.lookup "NODE_OPTIONS" := by
  unfold restoreNodeOptions configureClaudeNodeOptions
  cases h : env.lookup "NODE_OPTIONS" <;>
    simp [getenv]

/-! The options of node. -/

/-- A word that sets the memory, by itself or with the next word. -/
def MemorySetting (t : Text) : Prop := t = memoryFlag ∨ memoryFlag ++ ['='] <+: t

theorem cleanTokens_sublist (skip : Bool) (ts : List Text) : (cleanTokens skip ts).Sublist ts := by
  induction ts generalizing skip with
  | nil => cases skip <;> exact .refl _
  | cons t ts ih =>
    cases skip with
    | true => exact (ih false).cons t
    | false =>
      unfold cleanTokens
      split
      · exact (ih true).cons t
      · split
        · exact (ih false).cons t
        · exact (ih false).cons_cons t

theorem not_memorySetting_of_mem {skip : Bool} {ts : List Text} {t : Text}
    (h : t ∈ cleanTokens skip ts) : ¬ MemorySetting t := by
  induction ts generalizing skip with
  | nil => cases skip <;> cases h
  | cons u ts ih =>
    cases skip with
    | true => exact ih h
    | false =>
      unfold cleanTokens at h
      split at h
      · exact ih h
      · rename_i hne
        split at h
        · exact ih h
        · rename_i hpre
          obtain rfl | h := List.mem_cons.mp h
          · rintro (he | hp)
            · exact hne he
            · exact hpre (List.isPrefixOf_iff_prefix.mpr hp)
          · exact ih h

theorem cleanTokens_eq_self {ts : List Text} (h : ∀ t ∈ ts, ¬ MemorySetting t) :
    cleanTokens false ts = ts := by
  induction ts with
  | nil => rfl
  | cons t ts ih =>
    obtain ⟨ht,hts⟩ := List.forall_mem_cons.mp h
    have hpre : ¬ (memoryFlag ++ ['=']).isPrefixOf t = true :=
      fun hp => ht (.inr (List.isPrefixOf_iff_prefix.mp hp))
    rw [cleanTokens,if_neg (fun he => ht (.inl he)),if_neg hpre,ih hts]

/-- Node loads the restore module first and gets one setting of the memory. What follows are
words of the user in their order, and all of them if none sets the memory. -/
theorem mergeNodeOptions_words (existing : Text) {path : Text} (hp : Tight path) :
    ∃ kept, words (mergeNodeOptions existing path) =
        ("--require=".toList ++ path) :: (memoryFlag ++ "=4096".toList) :: kept ∧
      kept.Sublist (words existing) ∧ (∀ t ∈ kept, ¬ MemorySetting t) ∧
      ((∀ t ∈ words existing, ¬ MemorySetting t) → kept = words existing) := by
  have hsub := cleanTokens_sublist false (words existing)
  refine ⟨cleanTokens false (words existing),?_,hsub,fun t => not_memorySetting_of_mem,
    cleanTokens_eq_self⟩
  have hword : ∀ t ∈ cleanTokens false (words existing), Word t :=
    fun t ht => word_of_mem (hsub.subset ht)
  have hreq : Word ("--require=".toList ++ path) := by
    refine ⟨by simp,fun c hc => ?_⟩
    obtain hc | hc := List.mem_append.mp hc
    · exact (by decide : Tight "--require=".toList) c hc
    · exact hp c hc
  have hmem : Word (memoryFlag ++ "=4096".toList) := by decide
  have hmerge : mergeNodeOptions existing path = spaced (("--require=".toList ++ path) ::
      (memoryFlag ++ "=4096".toList) :: cleanTokens false (words existing)) := by
    unfold mergeNodeOptions cleanedNodeOptions
    cases hc : cleanTokens false (words existing) with
    | nil => simp [spaced_cons_cons]
    | cons t ts =>
      have hne : spaced (t :: ts) ≠ [] := by
        have ht := (hword t (by simp [hc])).1
        cases ts with
        | nil => simpa using ht
        | cons u us => simp [spaced_cons_cons]
      rw [if_neg hne]
      simp [spaced_cons_cons]
  rw [hmerge]
  exact words_spaced (List.forall_mem_cons.mpr ⟨hreq,List.forall_mem_cons.mpr ⟨hmem,hword⟩⟩)

theorem mergeNodeOptions_words_inspect :
    ∃ kept, words (mergeNodeOptions "--inspect".toList "/r".toList) =
      "--require=/r".toList :: "--max-old-space-size=4096".toList :: kept :=
  (mergeNodeOptions_words "--inspect".toList (by decide : Tight "/r".toList)).imp
    (fun _ h => h.1)

/-! One launch. -/

/-- What the started agent finds in its environment. -/
structure Started (home : Text) (l : Launch) (env env' : Environ) : Prop where
  path : getenv env' "PATH" = l.agent.shimDir home ++ ':' :: getenv env "PATH"
  pane : getenv env' "TMUX_PANE" = fakeTmuxPane l.focused
  workspace : ∀ f, l.focused = some f → getenv env' "LIMUX_WORKSPACE_ID" = f.workspaceId
  node : env'.lookup "NODE_OPTIONS" = env.lookup "NODE_OPTIONS"

theorem getenv_congr {env env' : Environ} (h : env'.lookup k = env.lookup k) :
    getenv env' k = getenv env k := by rw [getenv,getenv,h]

theorem started_claude (ha : l.agent = .claudeTeams)
    (h : runClaudeTeamsRelay files home l env = some x) : Started home l env (inside l x) := by
  unfold runClaudeTeamsRelay at h
  obtain ⟨-,h⟩ := Option.ite_none_left_eq_some.mp h
  cases h
  cases hm : l.restoreModule with
  | none =>
    simp only [inside,ha,hm]
    refine ⟨?_,pane_configure ..,fun f hf => ?_,lookup_configure (by decide) ..⟩
    · rw [ha]
      exact path_configure ..
    · rw [hf]
      exact workspace_configure ..
  | some path =>
    simp only [inside,ha,hm]
    have hrest : ∀ k, k ∉ ["NODE_OPTIONS","LIMUX_ORIGINAL_NODE_OPTIONS",
        "LIMUX_ORIGINAL_NODE_OPTIONS_PRESENT"] → ∀ env : Environ,
        getenv (restoreNodeOptions (configureClaudeNodeOptions path env)) k = getenv env k :=
      fun k hk env => getenv_congr ((lookup_restore hk).trans (lookup_configureNode hk path))
    refine ⟨?_,?_,fun f hf => ?_,?_⟩
    · rw [hrest "PATH" (by decide),ha]
      exact path_configure ..
    · rw [hrest "TMUX_PANE" (by decide)]
      exact pane_configure ..
    · rw [hrest "LIMUX_WORKSPACE_ID" (by decide),hf]
      exact workspace_configure ..
    · rw [restore_configureNode]
      exact lookup_configure (by decide) ..

theorem started_omo (ha : l.agent = .omo) (h : runOMORelay files home configDir l env = some x) :
    Started home l env (inside l x) := by
  unfold runOMORelay at h
  obtain ⟨-,h⟩ := Option.ite_none_left_eq_some.mp h
  cases h
  have hin : ∀ x : Exec, inside l x = x.env := fun x => by
    simp only [inside,ha]
  rw [hin]
  have hport : ∀ k ≠ "OPENCODE_PORT", ∀ (env : Environ) (v : Text),
      getenv (env.insert "OPENCODE_PORT" v) k = getenv env k :=
    fun k hk env v => getenv_congr (AList.lookup_insert_ne hk)
  refine ⟨?_,?_,fun f hf => ?_,?_⟩
  · rw [hport "PATH" (by decide),path_configure,ha]
    exact congrArg (_ ++ ':' :: ·) (getenv_congr (AList.lookup_insert_ne (by decide)))
  · rw [hport "TMUX_PANE" (by decide)]
    exact pane_configure ..
  · rw [hport "LIMUX_WORKSPACE_ID" (by decide),hf]
    exact workspace_configure ..
  · rw [AList.lookup_insert_ne (by decide),lookup_configure (by decide),
      AList.lookup_insert_ne (by decide)]

theorem started (h : run files home configDir l env = some x) :
    Started home l env (inside l x) := by
  unfold run at h
  cases ha : l.agent with
  | claudeTeams =>
    rw [ha] at h
    exact started_claude ha h
  | omo =>
    rw [ha] at h
    exact started_omo ha h

/-! Searching behind the shims. -/

theorem filter_splitList (path skipDir : Text) :
    (splitList path).filter (fun d => d ≠ [] ∧ d ≠ skipDir) =
      (path.splitOn ':').filter (fun d => d ≠ [] ∧ d ≠ skipDir) := by
  unfold splitList
  split
  · rename_i h
    rw [h]
    rfl
  · rfl

theorem findExecutableInPath_cons {isExec : Text → Bool} {dir name path skipDir : Text}
    (hdir : ':' ∉ dir) (h : isExec (joinPath dir name) = false) :
    findExecutableInPath isExec name (dir ++ ':' :: path) skipDir =
      findExecutableInPath isExec name path skipDir := by
  have hne : dir ++ ':' :: path ≠ [] := by simp
  have hsplit : (splitList (dir ++ ':' :: path)).filter (fun d => d ≠ [] ∧ d ≠ skipDir) =
      (dir :: splitList path).filter (fun d => d ≠ [] ∧ d ≠ skipDir) := by
    rw [splitList,if_neg hne,List.splitOn_append_cons_self_of_not_mem hdir,List.filter_cons,
      List.filter_cons,filter_splitList]
  unfold findExecutableInPath
  rw [hsplit,List.filter_cons]
  split
  · rw [List.map_cons,List.find?_cons_of_neg (by simp [h])]
  · rfl

/-- The directories of the shims are one entry each of the path and hold no agent. -/
structure Shims (files : Files) (home : Text) : Prop where
  colon : ∀ a : Agent, ':' ∉ a.shimDir home
  empty : ∀ a b : Agent, files.isExec (joinPath (a.shimDir home) b.program) = false

theorem Started.agentPath (hs : Shims files home) (h : Started home l env env') (a : Agent) :
    agentPath files home a env' = AgentLaunch.agentPath files home a env := by
  rw [AgentLaunch.agentPath,h.path]
  exact findExecutableInPath_cons (hs.colon _) (hs.empty _ a)

theorem callerPaneHandle_fakeTmuxPane (f : FocusedContext) {e : Env}
    (h : e.tmuxPane = fakeTmuxPane (some f)) : callerPaneHandle e = f.paneHandle := by
  have htrim : trim ('%' :: f.paneHandle) = '%' :: f.paneHandle := by
    have hstart : trimStart ('%' :: f.paneHandle) = '%' :: f.paneHandle :=
      trimStart_of_solid (by decide) _
    have hend : trimEnd f.paneHandle = f.paneHandle := trim_eq_self_of_trimEnd f.pane_trim
    rw [trim,hstart]
    exact (trimEnd_append_solid ['%'] (hend.symm ▸ f.pane_ne)).trans (by rw [hend]; rfl)
  unfold callerPaneHandle
  rw [h]
  have hne : trim (fakeTmuxPane (some f)) ≠ [] := by
    rw [fakeTmuxPane,htrim]
    exact List.cons_ne_nil _ _
  rw [List.find?_cons_of_pos (by simpa using hne)]
  simp only [fakeTmuxPane,htrim]
  exact congrArg (Option.getD · _) (stripPrefix_append ['%'] f.paneHandle)

/-! Launches inside each other. -/

/-- However deep agents start agents: node has the options of the user again, every agent is
found where the user has it, the shim of the innermost launch is the first tmux in the path,
and it takes the workspace and the pane of that launch for its own. -/
theorem nested_launches (hs : Shims files home) {ls : List Launch}
    (h : nested files home configDir (ls ++ [l]) env = some env') :
    env'.lookup "NODE_OPTIONS" = env.lookup "NODE_OPTIONS" ∧
      (∀ a, agentPath files home a env' = agentPath files home a env) ∧
      l.agent.shimDir home ++ [':'] <+: getenv env' "PATH" ∧
      ∀ f, l.focused = some f → callerWorkspaceHandle (shimEnv env') = f.workspaceId ∧
        callerPaneHandle (shimEnv env') = f.paneHandle := by
  induction ls generalizing env with
  | nil =>
    obtain ⟨x,hx,he⟩ := Option.bind_eq_some_iff.mp h
    cases he
    have hst := started hx
    refine ⟨hst.node,hst.agentPath hs,⟨getenv env "PATH",?_⟩,fun f hf => ⟨?_,?_⟩⟩
    · rw [hst.path,List.append_assoc]
      rfl
    · rw [callerWorkspaceHandle,shimEnv,hst.workspace f hf]
      exact f.workspace_trim
    · exact callerPaneHandle_fakeTmuxPane f (hst.pane.trans (by rw [hf]))
  | cons first ls ih =>
    obtain ⟨x,hx,hrest⟩ := Option.bind_eq_some_iff.mp h
    have hst := started hx
    obtain ⟨hnode,hagent,hshim,hfocus⟩ := ih hrest
    exact ⟨hnode.trans hst.node,fun a => (hagent a).trans (hst.agentPath hs a),hshim,hfocus⟩

def oneAgent : Files := ⟨fun p => p = "/usr/bin/claude".toList,fun _ => false⟩

def inPane (pane : Text) (h : pane ≠ [] ∧ trim pane = pane) : Launch :=
  ⟨.claudeTeams,[],"127.0.0.1:1".toList,some ⟨['7'],[],pane,[],by decide,by decide,h.1,h.2⟩,
    some "/tmp/restore.cjs".toList,[]⟩

def outer : Launch := inPane ['3'] (by decide)

def inner : Launch := inPane ['4'] (by decide)

def userEnv : Environ :=
  ((∅ : Environ).insert "PATH" "/usr/bin".toList).insert "NODE_OPTIONS" "--inspect".toList

theorem nested_launches_twice :
    ∃ env', nested oneAgent "/home/u".toList [] ([outer] ++ [inner]) userEnv = some env' ∧
      env'.lookup "NODE_OPTIONS" = some "--inspect".toList ∧
      callerPaneHandle (shimEnv env') = ['4'] := by
  have hsome : (nested oneAgent "/home/u".toList [] ([outer] ++ [inner]) userEnv).isSome := by
    decide
  obtain ⟨env',h⟩ := Option.isSome_iff_exists.mp hsome
  have hs : Shims oneAgent "/home/u".toList := by
    refine ⟨fun a => ?_,fun a b => ?_⟩
    · cases a <;> decide
    · cases a <;> cases b <;> decide
  obtain ⟨hnode,-,-,hfocus⟩ := nested_launches hs h
  exact ⟨env',h,hnode.trans rfl,(hfocus _ rfl).2⟩

end Limux.AgentLaunch
