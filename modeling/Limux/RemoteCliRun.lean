import Limux.RemoteCli
import Limux.RelayRun

/-! A command of the remote command line tool through the relay and the control
socket: when it acts on the objects its flags and environment name. -/
namespace Limux

open Text

namespace RemoteCli

/-! Parameters as the relay looks them up. -/

theorem lookup_put (k j : String) (v : Option Text) (m : HashMap String Text) :
    (put k v m).lookup j = if j = k then v.or (m.lookup j) else m.lookup j := by
  cases v with
  | none => simp [put]
  | some v =>
    rw [put,HashMap.lookup_insert_ite]
    rfl

theorem lookup_putNew (k j : String) (v : Option Text) (m : HashMap String Text) :
    (putNew k v m).lookup j = if j = k then (m.lookup j).or v else m.lookup j := by
  unfold putNew
  by_cases hm : k ∈ m
  · obtain ⟨x,hx⟩ := HashMap.mem_iff_lookup.mp hm
    by_cases hj : j = k
    · subst hj
      simp [hm,hx]
    · simp [hm,hj]
  · have hn : m.lookup k = none := AList.lookup_eq_none.mpr hm
    rw [if_neg hm,lookup_put]
    by_cases hj : j = k
    · subst hj
      simp [hn]
    · simp [hj]

theorem get_request {F : Type} (id : Text) (method : String) (params : HashMap String Text)
    (k : String) :
    ((request id method params : Json F).index "params").get k =
      (params.lookup k).map Json.str := by
  have hp : (request id method params : Json F).index "params" =
      .obj (params.entries.map (fun e => (e.1,.str e.2))) := rfl
  rw [hp,Json.get,AList.lookup]
  induction params.entries with
  | nil => rfl
  | cons e l ih =>
    obtain ⟨j,v⟩ := e
    rw [List.map_cons,List.lookup_cons]
    by_cases hj : k = j
    · subst hj
      simp
    · have hb : (k == j) = false := by simpa using hj
      rw [List.dlookup_cons_ne _ _ hj,hb]
      exact ih

/-- Objects that a command names. -/
structure Named where
  workspace : Option Text
  surface : Option Text
  text : Option Text
  title : Option Text
  direction : Option Text

/-- The value of a flag the command has. -/
def flagOf (spec : CommandSpec) (parsed : ParsedFlags) (key : String) : Option Text :=
  if key ∈ spec.flagKeys then parsed.flag key else none

/-- What the flags name, or the environment where a flag the command has is absent. -/
def named (spec : CommandSpec) (env : Env) (parsed : ParsedFlags) : Named where
  workspace := if "workspace" ∈ spec.flagKeys then
      (parsed.flag "workspace").or (setting env.workspace) else none
  surface := if "surface" ∈ spec.flagKeys ∨ "panel" ∈ spec.flagKeys then
      ((flagOf spec parsed "surface").or (flagOf spec parsed "panel")).or (setting env.surface)
    else none
  text := (flagOf spec parsed "text").or (flagOf spec parsed "body")
  title := (flagOf spec parsed "name").or (flagOf spec parsed "title")
  direction := (flagOf spec parsed "direction").or
    ((spec.defaultParams.lookup "direction").map String.toList)

/-- The surface value that is sent: also for commands that take no surface. -/
def surfaceValue (spec : CommandSpec) (env : Env) (parsed : ParsedFlags) : Option Text :=
  if spec.noParams then none
  else ((flagOf spec parsed "surface").or (flagOf spec parsed "panel")).or (setting env.surface)

/-- What the relay finds among the parameters of a command. -/
theorem params_spec {spec : CommandSpec} (hs : spec ∈ commands) (env : Env)
    (parsed : ParsedFlags) {params : HashMap String Text}
    (hp : params = if spec.noParams then defaults spec else flagParams spec env parsed) :
    params.lookup "workspace" = none ∧ params.lookup "surface" = none ∧
    params.lookup "name" = none ∧ params.lookup "surface_id" = surfaceValue spec env parsed ∧
    params.lookup "text" = flagOf spec parsed "text" ∧
    params.lookup "direction" = (named spec env parsed).direction := by
  subst hp
  simp only [commands,List.mem_cons,List.not_mem_nil,or_false] at hs
  rcases hs with rfl | rfl | rfl | rfl | rfl | rfl | rfl | rfl | rfl | rfl | rfl | rfl | rfl |
    rfl | rfl | rfl | rfl | rfl | rfl | rfl | rfl | rfl | rfl | rfl <;>
  simp [defaults,flagParams,lookup_put,lookup_putNew,surfaceValue,flagOf,named,setting,
    flagToParamKey]

/-! Acting on what is named. -/

section Acting

variable {F : Type}

def number (w : Text) : Option ℕ := parseUnsigned (2^32) (trim w)

def NamesWorkspace (st : App F) (n : Named) (id : WorkspaceId) : Prop :=
  match n.workspace with
  | some w => number w = some id
  | none => st.window.focusedWorkspaceId = some id

/-- A split of the focused pane is one of the named objects, in a named direction. -/
def NamesFocus (st : App F) (n : Named) (directions : List (Option Text)) : Prop :=
  n.direction ∈ directions ∧
  (∀ w ∈ n.workspace, ∃ i ws, st.window.current = some (i,ws) ∧ number w = some ws.id) ∧
  ∀ s ∈ n.surface, ∃ i ws p pane id, st.window.current = some (i,ws) ∧
    ws.focusedPane = some p ∧ ws.panes.lookup p = some pane ∧ number s = some id ∧
    pane.hasSurface id = true

/-- The pane shows the named surface, in the named workspace: the focus goes to the selected
tab of the pane. -/
def NamesPane (st : App F) (n : Named) (p : PaneId) : Prop :=
  ∃ i ws pane, st.window.findWorkspaceWithPane p = some (i,ws,pane) ∧
    (∃ id, n.surface.bind number = some id ∧ pane.activePanel = some (.terminal id)) ∧
    ∀ w ∈ n.workspace, number w = some ws.id

/-- The request acts on exactly what is named. A command that cannot take an object
or a title acts on it only if none is named. -/
def Meant (st : App F) (n : Named) : Request F → Prop
  | .version | .listWorkspaces | .currentWorkspace => True
  | .listSurfaces => n.workspace = none
  | .newWorkspace => n.title = none
  | .closeWorkspace id | .listPanes id => NamesWorkspace st n id
  | .selectWorkspace id => n.workspace.bind number = some id
  | .focusPane p => NamesPane st n p
  | .splitRight => NamesFocus st n [none,some "right".toList]
  | .splitDown => NamesFocus st n [some "down".toList,some "bottom".toList]
  | .send id text => n.surface.bind number = some id ∧ n.text = some text
  | .log ws message _ => NamesWorkspace st n ws ∧ n.title.toList ++ n.text.toList = [message]
  | _ => False

/-- The command acts on exactly what is named, or is refused. -/
def Acts [F64Ops F] [F64Text F] (env : CommandEnv F) (st : App F) (n : Named) (cmd : String) :
    Prop :=
  (∃ r, decodeCommand st cmd.toList = .ok r ∧ Meant st n r) ∨ Rejected env st cmd

def workspaceTarget (st : App F) (a : Text) : Option WorkspaceId :=
  if trim a = [] then st.window.focusedWorkspaceId else number a

/-- When the command keeps to what is named, given the surface and text values that
are sent with it. -/
def Kept (st : App F) (n : Named) (s t : Option Text) : Option Verb → Prop
  | some .listSurfaces => n.workspace = none
  | some .newWorkspace => n.title = none
  | some .closeWorkspace => ∀ id ∈ workspaceTarget st (s.getD []), ∀ e,
      st.window.findWorkspaceById id = some e → e.2.1.pinned = false → NamesWorkspace st n id
  | some .listPanes => ∀ id ∈ workspaceTarget st (s.getD []),
      st.window.findWorkspaceById id ≠ none → NamesWorkspace st n id
  | some .selectWorkspace => ∀ id ∈ number (s.getD []),
      st.window.findWorkspaceById id ≠ none → n.workspace.bind number = some id
  | some .focusPane => ∀ p ∈ number (s.getD []),
      st.window.findWorkspaceWithPane p ≠ none → NamesPane st n p
  | some .splitRight => NamesFocus st n [none,some "right".toList]
  | some .send => Relay.Live st (s.toList ++ t.toList) →
      ∃ p x, s = some p ∧ ' ' ∉ p ∧ t = some x ∧ trimEnd x = x
  | some .log => ∀ ws ∈ st.window.focusedWorkspaceId, plainWords (s.getD []) ≠ [] →
      NamesWorkspace st n ws ∧
        n.title.toList ++ n.text.toList = [spaced (plainWords (s.getD []))]
  | _ => True

section Verbs

variable [F64Ops F] [F64Text F] {env : CommandEnv F} {st : App F} {n : Named} {cmd : Text}
  {r : Request F}

theorem acts_ok (hd : decodeCommand st cmd = .ok r) :
    Acts env st n (.ofList cmd) ↔ Meant st n r ∨
      isError (st.perform env r).1 = true ∧ (st.perform env r).2 = st := by
  rw [Acts,Rejected,handleCommand_ok hd,String.toList_ofList,hd]
  simp only [Except.ok.injEq,exists_eq_left']

theorem acts_always (hd : decodeCommand st cmd = .ok r)
    (hok : isError (st.perform env r).1 = false) :
    Acts env st n (.ofList cmd) ↔ Meant st n r := by
  rw [acts_ok hd,hok]
  simp

theorem acts_error {m : String} (hd : decodeCommand st cmd = .error m) (hm : isError m = true) :
    Acts env st n (.ofList cmd) := by
  refine .inr ?_
  rw [Rejected,handleCommand,String.toList_ofList,hd]
  exact ⟨hm,rfl⟩

/-- A request that looks something up is refused just when it is not there. -/
theorem acts_lookup {α : Type} {o : Option α} {f : α → String × App F} {m : String}
    (hd : decodeCommand st cmd = .ok r)
    (hp : st.perform env r = (o.map f).getD (m,st)) (hm : isError m = true)
    (hf : ∀ a, isError (f a).1 = false) :
    Acts env st n (.ofList cmd) ↔ (o ≠ none → Meant st n r) := by
  rw [acts_ok hd,hp]
  cases o with
  | none => simp [hm]
  | some a => simp [hf a]

theorem isError_ok_append (x : String) : isError ("OK " ++ x) = false := by
  rw [isError,String.toList_append]
  rfl

theorem isError_invalid (x : String) : isError ("ERROR: invalid " ++ x) = true := by
  rw [isError,String.toList_append]
  rfl

theorem parseArg_trimEnd (a : Text) (name : String) :
    parseArg (trimEnd a) name = match number a with
      | some id => .ok id
      | none => .error ("ERROR: invalid " ++ name) := by
  rw [parseArg,trim_trimEnd]
  rfl

theorem acts_number {a : Text} {verb : Verb} {name : String} {g : ℕ → Request F}
    (hd : decodeCommand st cmd = verb.decode st (trimEnd a))
    (hdec : ∀ x, verb.decode st x = (do return g (← parseArg x name))) {P : ℕ → Prop}
    (hg : ∀ id, decodeCommand st cmd = .ok (g id) → (Acts env st n (.ofList cmd) ↔ P id)) :
    Acts env st n (.ofList cmd) ↔ ∀ id ∈ number a, P id := by
  rw [hdec,parseArg_trimEnd] at hd
  cases hn : number a with
  | none =>
    rw [hn] at hd
    exact iff_of_true (acts_error hd (isError_invalid _)) (by simp)
  | some id =>
    rw [hn] at hd
    rw [hg id hd]
    simp

omit [F64Text F] in
theorem perform_selectWorkspace (id : WorkspaceId) :
    st.perform env (.selectWorkspace id) = ((st.window.findWorkspaceById id).map (fun e =>
      ("OK",st.setWindow { st.window with currentPage := some e.1 }))).getD
        ("ERROR: workspace not found",st) := by
  dsimp only [App.perform]
  rw [App.selectWorkspaceById]
  cases st.window.findWorkspaceById id <;> rfl

omit [F64Text F] in
theorem perform_focusPane (p : PaneId) :
    st.perform env (.focusPane p) = ((st.window.findWorkspaceWithPane p).map (fun e =>
      ("OK",st.setWindow ((if st.window.currentPage.getD 0 = e.1 then st.window
        else { st.window with currentPage := some e.1 }).setPaneActive e.1 p)))).getD
        ("ERROR: pane not found",st) := by
  dsimp only [App.perform]
  rw [AppWindow.focusPaneById]
  cases st.window.findWorkspaceWithPane p <;> rfl

omit [F64Text F] in
theorem perform_closeWorkspace (id : WorkspaceId) :
    st.perform env (.closeWorkspace id) = ((st.closeWorkspaceById id).map (fun st =>
      ("OK",st))).getD ("ERROR: workspace not found or pinned",st) := by
  dsimp only [App.perform]
  cases st.closeWorkspaceById id <;> rfl

omit [F64Text F] in
theorem perform_listPanes (id : WorkspaceId) :
    st.perform env (.listPanes id) = ((st.window.findWorkspaceById id).map (fun e =>
      ("OK " ++ ",".intercalate (e.2.1.panes.keys.map toString),st))).getD
        ("ERROR: workspace not found",st) := by
  dsimp only [App.perform]
  cases st.window.findWorkspaceById id <;> rfl

theorem acts_selectWorkspace {a : Text}
    (hd : decodeCommand st cmd = Verb.selectWorkspace.decode st (trimEnd a)) :
    Acts env st n (.ofList cmd) ↔ ∀ id ∈ number a,
      st.window.findWorkspaceById id ≠ none → n.workspace.bind number = some id := by
  refine acts_number hd (fun _ => rfl) (fun id hid => ?_)
  exact acts_lookup hid (perform_selectWorkspace id) (by decide) (fun _ => isError_ok)

theorem acts_focusPane {a : Text}
    (hd : decodeCommand st cmd = Verb.focusPane.decode st (trimEnd a)) :
    Acts env st n (.ofList cmd) ↔ ∀ p ∈ number a,
      st.window.findWorkspaceWithPane p ≠ none → NamesPane st n p := by
  refine acts_number hd (fun _ => rfl) (fun p hp => ?_)
  exact acts_lookup hp (perform_focusPane p) (by decide) (fun _ => isError_ok)

omit [F64Ops F] in
theorem decode_closeWorkspace (a : Text) :
    Verb.closeWorkspace.decode st (trimEnd a) = match workspaceTarget st a with
      | some id => .ok (.closeWorkspace id)
      | none => .error (if trim a = [] then "ERROR: no focused workspace"
          else "ERROR: invalid " ++ "workspace id") := by
  show (if trim (trimEnd a) = [] then _ else _) = _
  rw [trim_trimEnd,parseArg_trimEnd,focusedOr,workspaceTarget]
  by_cases ht : trim a = []
  · rw [if_pos ht,if_pos ht,if_pos ht]
    cases st.window.focusedWorkspaceId <;> rfl
  · rw [if_neg ht,if_neg ht,if_neg ht]
    cases number a <;> rfl

omit [F64Ops F] in
theorem decode_listPanes_trimEnd (a : Text) :
    Verb.listPanes.decode st (trimEnd a) = match workspaceTarget st a with
      | some id => .ok (.listPanes id)
      | none => .error "ERROR: no workspace" := by
  rw [decode_listPanes,trim_trimEnd]
  rfl

theorem acts_closeWorkspace {a : Text}
    (hd : decodeCommand st cmd = Verb.closeWorkspace.decode st (trimEnd a)) :
    Acts env st n (.ofList cmd) ↔ ∀ id ∈ workspaceTarget st a, ∀ e,
      st.window.findWorkspaceById id = some e → e.2.1.pinned = false →
        NamesWorkspace st n id := by
  rw [decode_closeWorkspace] at hd
  cases ht : workspaceTarget st a with
  | none =>
    rw [ht] at hd
    refine iff_of_true (acts_error hd ?_) (by simp)
    split_ifs
    · decide
    · exact isError_invalid _
  | some id =>
    rw [ht] at hd
    rw [acts_lookup hd (perform_closeWorkspace id) (by decide) (fun _ => isError_ok)]
    simp only [Option.mem_some_iff,forall_eq',App.closeWorkspaceById]
    rcases hf : st.window.findWorkspaceById id with _ | ⟨i,ws,u⟩
    · simp
    · simp only [Option.some.injEq,forall_eq']
      show _ ↔ (ws.pinned = false → _)
      by_cases hpin : ws.pinned = true
      · simp [hpin]
      · rw [if_neg hpin]
        simp [hpin,Meant]

theorem acts_listPanes {a : Text}
    (hd : decodeCommand st cmd = Verb.listPanes.decode st (trimEnd a)) :
    Acts env st n (.ofList cmd) ↔ ∀ id ∈ workspaceTarget st a,
      st.window.findWorkspaceById id ≠ none → NamesWorkspace st n id := by
  rw [decode_listPanes_trimEnd] at hd
  cases ht : workspaceTarget st a with
  | none =>
    rw [ht] at hd
    exact iff_of_true (acts_error hd (by decide)) (by simp)
  | some id =>
    rw [ht] at hd
    rw [acts_lookup hd (perform_listPanes id) (by decide) (fun _ => isError_ok_append _)]
    simp [Meant]

theorem acts_log {a : Text} (hd : decodeCommand st cmd = Verb.log.decode st (trimEnd a)) :
    Acts env st n (.ofList cmd) ↔ ∀ ws ∈ st.window.focusedWorkspaceId, plainWords a ≠ [] →
      NamesWorkspace st n ws ∧ n.title.toList ++ n.text.toList = [spaced (plainWords a)] := by
  cases hf : st.window.focusedWorkspaceId with
  | none =>
    refine iff_of_true ?_ (by simp)
    exact acts_error (hd.trans (decode_noFocus hf (by decide))) (by decide)
  | some ws =>
    rw [decode_log hf,parseOpts_trimEnd,parseOpts_positional] at hd
    by_cases hp : plainWords a = []
    · rw [if_pos hp] at hd
      exact iff_of_true (acts_error hd (by decide)) (fun _ _ h => absurd hp h)
    · rw [if_neg hp] at hd
      rw [acts_always hd (not_error_ok rfl)]
      simp [Meant,hp]

theorem acts_send {s t : Option Text} (hs : n.surface = s) (ht : n.text = t)
    (hd : decodeCommand st cmd = Verb.send.decode st (trimEnd (spaced (s.toList ++ t.toList)))) :
    Acts env st n (.ofList cmd) ↔ (Relay.Live st (s.toList ++ t.toList) →
      ∃ p x, s = some p ∧ ' ' ∉ p ∧ t = some x ∧ trimEnd x = x) := by
  rcases @Relay.send_cases _ _ _ env _ _ _ hd with ⟨hrej,hl⟩ | ⟨a,x,id,hcut,ha,hid,hdec,hrej⟩
  · exact iff_of_true (.inr hrej) (fun h => absurd h hl)
  have hmeant : (∃ r, decodeCommand st (String.ofList cmd).toList = .ok r ∧ Meant st n r) ↔
      s.bind number = some id ∧ t = some x := by
    rw [String.toList_ofList,hdec]
    simp only [Except.ok.injEq,exists_eq_left',Meant,hs,ht]
  rw [Acts,hmeant,hrej,or_comm,← imp_iff_not_or]
  refine imp_congr_right fun _ => ?_
  constructor
  · rintro ⟨hn,rfl⟩
    obtain ⟨p,rfl,-⟩ := Option.bind_eq_some_iff.mp hn
    have hcut' : trimEnd (p ++ ' ' :: (x ++ [])) = a ++ ' ' :: x := by
      rw [← hcut]
      simp [spaced_cons_cons]
    obtain ⟨h1,h2,-⟩ := Relay.trimEnd_cut ha hcut'
    exact ⟨p,x,rfl,h1,rfl,h2⟩
  · rintro ⟨p,y,rfl,hp,rfl,hy⟩
    have hsp : spaced ((some p).toList ++ (some y).toList) = p ++ ' ' :: y := by
      simp [spaced_cons_cons]
    rw [hsp] at hcut
    have hne : y ≠ [] := by
      rintro rfl
      rw [trimEnd_append_nil _ (by decide)] at hcut
      obtain ⟨z,hz,-⟩ := trimEnd_append_blank p
      refine hp ?_
      rw [hz,hcut]
      simp
    rw [show p ++ ' ' :: y = (p ++ [' ']) ++ y by simp,trimEnd_append_solid _ (by rwa [hy]),hy,
      List.append_assoc,List.singleton_append] at hcut
    obtain ⟨rfl,rfl⟩ := append_cons_inj hp ha hcut
    exact ⟨hid,rfl⟩

theorem isError_listing (l : List String) : isError (listing l) = false := by
  unfold listing
  split_ifs
  · decide
  · rw [lengthPrefixed,isError]
    simp only [String.toList_append]
    rfl

/-- The command word decides what is kept, given what is sent with it. -/
theorem acts_iff_kept {w : String} (hw : ∃ m, (m,w) ∈ Relay.methods) {s t : Option Text}
    (hs : w = "send" → n.surface = s) (ht : w = "send" → n.text = t)
    (hnt : w ≠ "send" → t = none) :
    Acts env st n (.ofList (trim (w.toList ++ (s.toList ++ t.toList).flatMap
      (fun x => ' ' :: x)))) ↔ Kept st n s t (Verb.ofText w.toList) := by
  obtain ⟨m,hw⟩ := hw
  have hword : Word w.toList := (Relay.methods_words _ hw).1
  generalize hcmd : trim (w.toList ++ (s.toList ++ t.toList).flatMap (fun x => ' ' :: x)) = cmd
  have hparts : commandParts cmd = (w.toList,trimEnd (spaced (s.toList ++ t.toList))) := by
    rw [← hcmd,Relay.commandParts_spaced hword]
  have hd : ∀ v : Verb, w = v.word → decodeCommand st cmd =
      v.decode st (trimEnd (spaced (s.toList ++ t.toList))) := by
    rintro v rfl
    rw [decodeCommand,hparts]
    simp only [v.ofText_word]
  have hone : w ≠ "send" → spaced (s.toList ++ t.toList) = s.getD [] := by
    intro hne
    rw [hnt hne]
    cases s <;> simp
  simp only [Relay.methods,List.mem_cons,Prod.mk.injEq,List.not_mem_nil,or_false] at hw
  rcases hw with ⟨-,rfl⟩ | ⟨-,rfl⟩ | ⟨-,rfl⟩ | ⟨-,rfl⟩ | ⟨-,rfl⟩ | ⟨-,rfl⟩ | ⟨-,rfl⟩ | ⟨-,rfl⟩ |
    ⟨-,rfl⟩ | ⟨-,rfl⟩ | ⟨-,rfl⟩ | ⟨-,rfl⟩ | ⟨-,rfl⟩ | ⟨-,rfl⟩
  · rw [show Verb.ofText "list_workspaces".toList = _ from Verb.ofText_word .listWorkspaces]
    exact acts_always (hd .listWorkspaces rfl) (isError_listing _)
  · rw [show Verb.ofText "new_workspace".toList = _ from Verb.ofText_word .newWorkspace]
    exact acts_always (hd .newWorkspace rfl) isError_ok
  · rw [show Verb.ofText "close_workspace".toList = _ from Verb.ofText_word .closeWorkspace]
    have h := hd .closeWorkspace rfl
    rw [hone (by decide)] at h
    exact acts_closeWorkspace h
  · rw [show Verb.ofText "select_workspace".toList = _ from Verb.ofText_word .selectWorkspace]
    have h := hd .selectWorkspace rfl
    rw [hone (by decide)] at h
    exact acts_selectWorkspace h
  · rw [show Verb.ofText "current_workspace".toList = _ from Verb.ofText_word .currentWorkspace]
    refine iff_of_true ((acts_ok (hd .currentWorkspace rfl)).mpr (.inl trivial)) trivial
  · rw [show Verb.ofText "list_surfaces".toList = _ from Verb.ofText_word .listSurfaces]
    exact acts_always (hd .listSurfaces rfl) (isError_listing _)
  · rw [show Verb.ofText "focus_pane".toList = _ from Verb.ofText_word .focusPane]
    have h := hd .focusPane rfl
    rw [hone (by decide)] at h
    exact acts_focusPane h
  · rw [show Verb.ofText "send".toList = _ from Verb.ofText_word .send]
    exact acts_send (hs rfl) (ht rfl) (hd .send rfl)
  · have hnone : Verb.ofText "close_surface".toList = none := by decide +kernel
    rw [hnone]
    refine iff_of_true (acts_error (m := "ERROR: unknown command: " ++ "close_surface") ?_ ?_)
      trivial
    · rw [decodeCommand,hparts]
      simp only [hnone,String.ofList_toList]
    · rw [isError,String.toList_append]
      rfl
  · rw [show Verb.ofText "split_right".toList = _ from Verb.ofText_word .splitRight]
    exact acts_always (hd .splitRight rfl) isError_ok
  · rw [show Verb.ofText "list_panes".toList = _ from Verb.ofText_word .listPanes]
    have h := hd .listPanes rfl
    rw [hone (by decide)] at h
    exact acts_listPanes h
  · rw [show Verb.ofText "split_right".toList = _ from Verb.ofText_word .splitRight]
    exact acts_always (hd .splitRight rfl) isError_ok
  · rw [show Verb.ofText "log".toList = _ from Verb.ofText_word .log]
    have h := hd .log rfl
    rw [hone (by decide)] at h
    exact acts_log h
  · rw [show Verb.ofText "version".toList = _ from Verb.ofText_word .version]
    exact acts_always (hd .version rfl) (by decide : isError "OK limux 0.2.9" = false)

end Verbs

end Acting

/-! A call of the tool, from its arguments to the control socket. -/

section Calls

variable {F : Type}

/-- A call of a command that the relay knows, with flags that are accepted, and the
line that reaches the relay. -/
structure Call (parse : Text → Option (Json F)) where
  spec : CommandSpec
  method : String
  v1Cmd : String
  env : Env
  args : List Text
  parsed : ParsedFlags
  params : HashMap String Text
  id : Text
  line : Text
  mem : spec ∈ commands
  isV2 : spec.proto = .v2 method
  known : Relay.v2MethodToV1 method.toList = some v1Cmd
  accepted : parseFlags args spec.flagKeys = some parsed
  sent : execV2 spec env args = some params
  brace : (trim line).head? = some '{'
  parses : parse (trim line) = some (request id method params)

namespace Call

variable {parse : Text → Option (Json F)} (c : Call parse)

def names : Named := named c.spec c.env c.parsed

/-- The surface value that is sent with the call, named or not. -/
def surface : Option Text := surfaceValue c.spec c.env c.parsed

def text : Option Text := flagOf c.spec c.parsed "text"

def Down : Prop := c.names.direction = some "down".toList ∨
  c.names.direction = some "bottom".toList

def relayRequest : Relay.Request parse where
  line := c.line
  parsed := request c.id c.method c.params
  method := c.method.toList
  v1Cmd := c.v1Cmd
  brace := c.brace
  parses := c.parses
  isMethod := rfl
  known := c.known

theorem params_eq :
    c.params = if c.spec.noParams then defaults c.spec else flagParams c.spec c.env c.parsed := by
  have h := c.sent
  rw [execV2,c.accepted] at h
  split_ifs at h with hn
  · rw [if_pos hn]
    exact (Option.some.inj h).symm
  · rw [if_neg hn]
    exact (Option.some.inj h).symm

theorem get_params (k : String) :
    c.relayRequest.params.get k = (c.params.lookup k).map Json.str := get_request _ _ _ k

theorem getStr_params (k : String) : c.relayRequest.params.getStr k = c.params.lookup k := by
  rw [Json.getStr,get_params]
  cases c.params.lookup k <;> rfl

theorem relay_args : Relay.args c.relayRequest.params = c.surface.toList ++ c.text.toList := by
  obtain ⟨h1,h2,h3,h4,h5,-⟩ := params_spec c.mem c.env c.parsed c.params_eq
  have hws : Relay.workspaceArg c.relayRequest.params = none := by
    rw [Relay.workspaceArg,getStr_params,get_params,h1]
    rfl
  rw [Relay.args,hws,Relay.surfaceArg]
  simp only [getStr_params,h2,h3,h4,h5]
  simp [surface,text]

theorem relay_down : Relay.Down c.relayRequest.params ↔ c.Down := by
  obtain ⟨-,-,-,-,-,h6⟩ := params_spec c.mem c.env c.parsed c.params_eq
  rw [Relay.Down,getStr_params,h6]
  rfl

theorem isSend_of_text : ∀ spec ∈ commands, "text" ∈ spec.flagKeys →
    spec.proto = .v2 "surface.send_text" := by decide +kernel

theorem method_of_send : ∀ e ∈ Relay.methods, e.2 = "send" → e.1 = "surface.send_text" := by
  decide +kernel

theorem spec_of_send : ∀ spec ∈ commands, spec.proto = .v2 "surface.send_text" →
    spec.flagKeys = ["surface","text"] ∧ spec.noParams = false := by decide +kernel

theorem mem_methods : (c.method,c.v1Cmd) ∈ Relay.methods := by
  have h := c.relayRequest.mem_methods
  rwa [show String.ofList c.relayRequest.method = c.method from String.ofList_toList] at h

theorem text_of_not_send (h : c.v1Cmd ≠ "send") : c.text = none := by
  unfold text flagOf
  split_ifs with ht
  · have hp := isSend_of_text _ c.mem ht
    rw [c.isV2,Proto.v2.injEq] at hp
    exact absurd (Relay.methods_send _ c.mem_methods hp) h
  · rfl

theorem names_of_send (h : c.v1Cmd = "send") :
    c.names.surface = c.surface ∧ c.names.text = c.text := by
  have hm : c.method = "surface.send_text" := method_of_send _ c.mem_methods h
  obtain ⟨h1,h2⟩ := spec_of_send _ c.mem (by rw [c.isV2,hm])
  unfold names named surface surfaceValue text flagOf
  rw [h1,h2]
  simp

variable [F64Ops F] [F64Text F]

/-- The control socket runs one command for the call, and it acts on exactly what
the call names, or is refused. -/
def Targets (env : CommandEnv F) (st : App F) (c : Call parse) : Prop :=
  ∃ cmd, Relay.forwarded parse c.line = some cmd ∧
    Conn.RunsOnce (handleCommand env) st (Utf8.encode (cmd ++ ['\n'])) (Acts env st c.names)

theorem targets_of_down {env : CommandEnv F} {st : App F} (hdn : c.Down) :
    c.Targets env st ↔ NamesFocus st c.names [some "down".toList,some "bottom".toList] := by
  have hfwd : Relay.forwarded parse c.line =
      some (Relay.socketCmd c.v1Cmd c.relayRequest.params) := c.relayRequest.forwarded_eq
  rw [Relay.socketCmd,if_pos (c.relay_down.mpr hdn)] at hfwd
  simp only [Targets,hfwd,Option.some.injEq,exists_eq_left',Conn.runsOnce_line_iff]
  have hacts := @acts_always _ _ _ env st c.names _ _ (decode_word st .splitDown) isError_ok
  have hn : '\n' ∉ "split_down".toList := by decide
  have hl : (Utf8.encode "split_down".toList).length < Conn.bufferLimit := by decide +kernel
  exact ⟨fun h => hacts.mp h.2.2,fun h => ⟨hn,hl,hacts.mpr h⟩⟩

theorem targets_of_not_down {env : CommandEnv F} {st : App F} (hdn : ¬ c.Down) :
    c.Targets env st ↔ (∀ t ∈ c.surface.toList ++ c.text.toList, '\n' ∉ t) ∧
      (Utf8.encode (c.v1Cmd.toList ++ (c.surface.toList ++ c.text.toList).flatMap
        (fun t => ' ' :: t))).length < Conn.bufferLimit ∧
      Kept st c.names c.surface c.text (Verb.ofText c.v1Cmd.toList) := by
  have hfwd : Relay.forwarded parse c.line =
      some (Relay.socketCmd c.v1Cmd c.relayRequest.params) := c.relayRequest.forwarded_eq
  have hw := (Relay.methods_words _ c.mem_methods).1
  rw [Relay.socketCmd,if_neg (fun h => hdn (c.relay_down.mp h)),c.relay_args] at hfwd
  simp only [Targets,hfwd,Option.some.injEq,exists_eq_left',Conn.runsOnce_line_iff]
  rw [Relay.newline_mem_socketCmd hw,acts_iff_kept ⟨_,c.mem_methods⟩
    (fun h => (c.names_of_send h).1) (fun h => (c.names_of_send h).2) c.text_of_not_send]

/-- A call reaches its targets just when a split downwards is one of the focused
pane it names, or the values sent with another command have no line break, fit the
server's buffer and keep to what is named. -/
theorem targets_iff (env : CommandEnv F) (st : App F) (c : Call parse) :
    c.Targets env st ↔
      (c.Down ∧ NamesFocus st c.names [some "down".toList,some "bottom".toList]) ∨
      (¬ c.Down ∧ (∀ t ∈ c.surface.toList ++ c.text.toList, '\n' ∉ t) ∧
        (Utf8.encode (c.v1Cmd.toList ++ (c.surface.toList ++ c.text.toList).flatMap
          (fun t => ' ' :: t))).length < Conn.bufferLimit ∧
        Kept st c.names c.surface c.text (Verb.ofText c.v1Cmd.toList)) := by
  by_cases hdn : c.Down
  · rw [c.targets_of_down hdn]
    simp only [hdn,true_and,not_true_eq_false,false_and,or_false]
  · rw [c.targets_of_not_down hdn]
    simp only [hdn,not_false_eq_true,true_and,false_and,false_or]

end Call

/-- `limux close-workspace --workspace 7`. -/
def closeSevenFlags : ParsedFlags := ⟨(∅ : HashMap Text Text).insert "workspace".toList "7".toList,[]⟩

def closeSevenSpec : CommandSpec :=
  { name := "close-workspace", proto := .v2 "workspace.close", flagKeys := ["workspace"] }

def closeSevenLine : Text :=
  ("\x7b\"id\":\"0\",\"method\":\"workspace.close\"," ++
    "\"params\":\x7b\"workspace_id\":\"7\"\x7d\x7d").toList

def closeSeven : Call (fun s => if s = closeSevenLine then some (request "0".toList
    "workspace.close" ((∅ : HashMap String Text).insert "workspace_id" "7".toList) : Json Extended)
    else none) where
  spec := closeSevenSpec
  method := "workspace.close"
  v1Cmd := "close_workspace"
  env := ⟨[],[]⟩
  args := ["--workspace".toList,"7".toList]
  parsed := closeSevenFlags
  params := (∅ : HashMap String Text).insert "workspace_id" "7".toList
  id := "0".toList
  line := closeSevenLine
  mem := by decide +kernel
  isV2 := rfl
  known := by decide +kernel
  accepted := rfl
  sent := rfl
  brace := by decide +kernel
  parses := by
    have h : trim closeSevenLine = closeSevenLine := by decide +kernel
    rw [h,if_pos rfl]

def oneWorkspace : App Extended := { App.start with window := App.start.window.newWorkspace }

/-- Workspace 1 is closed though 7 is named. -/
theorem closeSeven_closes_focused : ¬ closeSeven.Targets CommandEnv.quiet oneWorkspace := by
  have hdn : ¬ closeSeven.Down := by
    rintro (h | h) <;> exact absurd h (by decide)
  rw [closeSeven.targets_of_not_down hdn]
  rintro ⟨-,-,h⟩
  rw [show Verb.ofText closeSeven.v1Cmd.toList = _ from Verb.ofText_word .closeWorkspace] at h
  have hn : number "7".toList = some 1 := h 1 rfl _ rfl rfl
  exact absurd hn (by decide)

end Calls

end RemoteCli

end Limux
