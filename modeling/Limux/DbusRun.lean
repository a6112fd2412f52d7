import Limux.CliRun
import Limux.DbusArgs

/-! The same command over the session bus and over the socket: on which arguments the two come
to the same state. -/
namespace Limux

open Text

namespace Dbus

namespace Method

section Remote

variable {F : Type} {st : App F} {args : Text}

theorem alike_disconnect_iff (aw : AppWindow F) (w : WorkspaceId) (clear : Bool) :
    aw.Alike (aw.disconnectRemote (some w) clear) ↔ aw.Meets w (Idle clear) := by
  refine Iff.trans (AppWindow.alike_modifyById_iff_eq (fun _ => by cases clear <;> rfl))
    (AppWindow.meets_congr (fun ws => ?_))
  cases ws
  cases clear <;> simp [Idle,and_comm]

theorem disconnect_started (st : App F) (w : WorkspaceId) (clear : Bool) :
    (st.disconnectRemote (some w) clear).started = st.started := by
  refine (App.started_addEffect _ _).trans ?_
  exact List.append_nil _

def configured (aw : AppWindow F) (w : WorkspaceId) : Option RemoteConfiguration :=
  (aw.findWorkspaceById w).bind (fun e => e.2.1.remoteConfig)

theorem meets_configured {aw : AppWindow F} {w : WorkspaceId} :
    aw.Meets w (fun ws => ws.remoteConfig = none) ↔ configured aw w = none := by
  unfold AppWindow.Meets configured
  rcases aw.findWorkspaceById w with _ | ⟨i,ws,u⟩
  · simp
  · constructor
    · exact fun h => h i ws rfl
    · intro h j v hv
      cases hv
      exact h

theorem reconnectRemote_some (st : App F) (w : WorkspaceId) :
    st.reconnectRemote (some w) = match configured st.window w with
      | none => st
      | some c => st.addEffect (.reconnect w c) := rfl

/-- A reconnection starts a connection if there is something to connect to. -/
theorem reconnect_started (st : App F) (w : WorkspaceId) :
    (st.reconnectRemote (some w)).started =
      st.started ++ ((configured st.window w).map (fun c => (w,c))).toList := by
  rw [reconnectRemote_some]
  rcases configured st.window w with _ | c
  · simp
  · exact App.started_addEffect _ _

theorem reconnect_rest (st : App F) (w : WorkspaceId) :
    (st.reconnectRemote (some w)).window = st.window ∧
      (st.reconnectRemote (some w)).notifications = st.notifications := by
  rw [reconnectRemote_some]
  cases configured st.window w <;> exact ⟨rfl,rfl⟩

theorem alike_true {a b : App F} (h : a = b) : a.Alike b ↔ True :=
  iff_true_intro (h ▸ .refl a)

theorem focusedOr_some {w : WorkspaceId} (h : st.window.focusedWorkspaceId = some w) :
    focusedOr st = .ok w := by rw [focusedOr,h]

theorem focusedOr_none (h : st.window.focusedWorkspaceId = none) :
    focusedOr st = .error "ERROR: no focused workspace" := by rw [focusedOr,h]

theorem disconnect_alike_iff {id : UInt32}
    (h : Given 0 number (parseOpts args).positional.head? id.toNat) (clear : Bool) :
    (st.disconnectRemote ((parseOpts args).positional.head?.bind number) clear).Alike
        (st.disconnectRemote (zeroAsNone id) clear) ↔
      (remoteDisconnect id clear : Method F).Concordant st args := by
  have hhead : (parseOpts args).positional.head? = none ↔ (parseOpts args).positional = [] :=
    List.head?_eq_none_iff
  rcases given_id h with ⟨he,ho⟩ | ⟨rfl,ho,hsock,hbus⟩
  · rw [he]
    exact iff_of_true (.refl _) (ho.elim (fun hn => .inl (hhead.mp hn)) (fun hn => .inr (.inl hn)))
  · rw [hsock,hbus,Concordant,or_iff_right (fun hn => ho (hhead.mpr hn)),
      or_iff_right (fun hn => hn rfl)]
    have hnone : none.or st.window.defaultRemote = st.window.defaultRemote := rfl
    rcases hdef : st.window.defaultRemote with _ | w
    · have hb : st.disconnectRemote none clear = st := by
        rw [App.disconnectRemote,hnone,hdef]
      rw [hb]
      refine Iff.trans (App.alike_iff_window rfl (disconnect_started st 0 clear)) ?_
      refine AppWindow.alike_comm.trans ((alike_disconnect_iff _ 0 clear).trans ?_)
      simp
    · have hb : st.disconnectRemote none clear = st.disconnectRemote (some w) clear := by
        rw [App.disconnectRemote,hnone,hdef]
        rfl
      rw [hb]
      by_cases hw : w = 0
      · rw [hw]
        exact iff_of_true (.refl _) (.inl rfl)
      · refine Iff.trans (App.alike_iff_window rfl
          ((disconnect_started st 0 clear).trans (disconnect_started st w clear).symm)) ?_
        refine Iff.trans (AppWindow.modifyById_alike_iff_of_ne _ (Ne.symm hw) _) ?_
        have hidle (v : WorkspaceId) := (AppWindow.alike_modifyById_iff st.window v _).symm.trans
          (alike_disconnect_iff st.window v clear)
        refine (and_congr (hidle 0) (hidle w)).trans ?_
        simp [hw]

theorem reconnect_alike_iff {id : UInt32}
    (h : Given 0 number (words args).head? id.toNat) :
    (st.reconnectRemote ((words args).head?.bind number)).Alike
        (st.reconnectRemote (zeroAsNone id)) ↔
      (remoteReconnect id : Method F).Concordant st args := by
  rcases given_id h with ⟨he,ho⟩ | ⟨rfl,ho,hsock,hbus⟩
  · rw [he]
    exact iff_of_true (.refl _)
      (ho.elim (fun hn => .inl (List.head?_eq_none_iff.mp hn)) (fun hn => .inr (.inl hn)))
  · rw [hsock,hbus,Concordant,or_iff_right (fun hn => ho (List.head?_eq_none_iff.mpr hn)),
      or_iff_right (fun hn => hn rfl)]
    obtain ⟨hw0,hn0⟩ := reconnect_rest st 0
    have hnone : none.or st.window.defaultRemote = st.window.defaultRemote := rfl
    rcases hdef : st.window.defaultRemote with _ | w
    · have hb : st.reconnectRemote none = st := by
        rw [App.reconnectRemote,hnone,hdef]
      rw [hb]
      refine (App.alike_iff_started hw0 hn0).trans ?_
      rw [reconnect_started,meets_configured]
      rcases configured st.window 0 with _ | c <;> simp
    · have hb : st.reconnectRemote none = st.reconnectRemote (some w) := by
        rw [App.reconnectRemote,hnone,hdef]
        rfl
      obtain ⟨hw1,hn1⟩ := reconnect_rest st w
      rw [hb]
      by_cases hw : w = 0
      · rw [hw]
        exact iff_of_true (.refl _) (.inl rfl)
      · refine (App.alike_iff_started (hw0.trans hw1.symm) (hn0.trans hn1.symm)).trans ?_
        rw [reconnect_started,reconnect_started,List.append_cancel_left_eq,meets_configured]
        simp only [Option.some.injEq,hw,false_or,Option.mem_def,forall_eq',meets_configured]
        rcases configured st.window 0 with _ | c <;> rcases configured st.window w with _ | d <;>
          simp [Ne.symm hw]

end Remote

section Decoding

variable {F : Type} [F64Text F] {st : App F} {args : Text}

theorem parseArg_ok {s : Text} {n : ℕ} (h : number (trim s) = some n) (name : String) :
    parseArg s name = .ok n := by
  unfold number at h
  rw [parseArg,h]

theorem decode_number {m : Method F} {name : String} {n : ℕ} {f : ℕ → Request F}
    (hdec : m.verb.decode st args = do return f (← parseArg args name))
    (h : number (trim args) = some n) : m.verb.decode st args = .ok (f n) := by
  rw [hdec,parseArg_ok h]
  rfl

theorem decode_text {m : Method F} {name usage : String} {n : ℕ}
    {f : ℕ → Text → Request F}
    (hdec : m.verb.decode st args = (do
      let parts ← twoParts args usage
      let id ← parseArg parts.1 name
      return f id parts.2))
    (h : number (trim (commandParts args).1) = some n) :
    m.verb.decode st args = if splitOnce ' ' args = none then .error ("ERROR: usage: " ++ usage)
      else .ok (f n (commandParts args).2) := by
  rw [hdec,twoParts]
  rcases hs : splitOnce ' ' args with _ | ⟨a,b⟩
  · rfl
  · rw [commandParts,hs,Option.getD_some] at h
    rw [if_neg (by simp),commandParts,hs,Option.getD_some]
    change (parseArg a name >>= fun id => Except.ok (f id b)) = _
    rw [parseArg_ok h]
    rfl

end Decoding

section Agreement

variable {F : Type} [F64Ops F] [F64Text F] {env : CommandEnv F} {st : App F} {args : Text}

/-- What the socket's handler makes of the arguments. -/
def answered (env : CommandEnv F) (st : App F) (args : Text) (v : Verb) : App F :=
  match v.decode st args with
  | .ok r => (st.perform env r).2
  | .error _ => st

/-- The condition is the right one. -/
def Matches (env : CommandEnv F) (st : App F) (args : Text) (m : Method F) : Prop :=
  (answered env st args m.verb).Alike (m.invoke env st).2 ↔ m.Concordant st args

theorem handled {cmd : String} {m : Method F}
    (hv : Verb.ofText (commandParts cmd.toList).1 = some m.verb) :
    (handleCommand env st cmd).2 = answered env st (commandParts cmd.toList).2 m.verb := by
  rw [handleCommand,decodeCommand,hv,answered]
  dsimp only
  rcases Verb.decode st (commandParts cmd.toList).2 m.verb with e | r <;> rfl

theorem matches_closeWorkspace {id : UInt32}
    (hc : (closeWorkspace id : Method F).Carried args) :
    (closeWorkspace id : Method F).Matches env st args := by
  unfold Matches answered
  have hne : trim args ≠ [] := by
    intro he
    rw [Carried,he] at hc
    cases hc
  have hd : (closeWorkspace id : Method F).verb.decode st args = .ok (.closeWorkspace id.toNat) := by
    change (if trim args = [] then _ else _) = _
    rw [if_neg hne,parseArg_ok hc]
    rfl
  rw [hd]
  apply alike_true
  dsimp only [App.perform,invoke]
  cases st.closeWorkspaceById id.toNat <;> rfl

theorem matches_listPanes {id : UInt32} :
    (listPanes id : Method F).Matches env st args := by
  unfold Matches answered
  apply alike_true
  have hbus : ((listPanes id : Method F).invoke env st).2 = st := by
    dsimp only [invoke]
    cases st.window.findWorkspaceById id.toNat <;> rfl
  rw [hbus,show (listPanes id : Method F).verb = .listPanes from rfl,decode_listPanes]
  cases (if trim args = [] then st.window.focusedWorkspaceId
    else parseUnsigned (2^32) (trim args)) with
  | none => rfl
  | some id =>
    dsimp only [App.perform]
    cases st.window.findWorkspaceById id <;> rfl

/-- A missing name is refused by the socket. -/
theorem matches_renameWorkspace {id : UInt32} {name : Text}
    (hc : (renameWorkspace id name : Method F).Carried args) :
    (renameWorkspace id name : Method F).Matches env st args := by
  unfold Matches answered
  obtain ⟨hid,hn⟩ := hc
  rw [decode_text (f := fun id s => .renameWorkspace id (trim s)) rfl hid]
  by_cases hs : splitOnce ' ' args = none
  · have hname : name = [] := by
      rw [hn,commandParts,hs]
      rfl
    rw [if_pos hs]
    refine ((st.alike_setWindow_iff _).trans (AppWindow.renameWorkspace_alike_iff _ _ _)).trans ?_
    rw [hname]
    exact (or_iff_right (fun h => h hs)).symm
  · rw [if_neg hs]
    refine iff_of_true ?_ (.inl hs)
    rw [hn]
    exact .refl _

theorem matches_navigate {id : UInt32} {url : Text}
    (hc : (navigate id url : Method F).Carried args) :
    (navigate id url : Method F).Matches env st args := by
  unfold Matches answered
  obtain ⟨hid,hu⟩ := hc
  rw [decode_text (f := fun id s => .navigate id (trim s)) rfl hid]
  by_cases hs : splitOnce ' ' args = none
  · rw [if_pos hs]
    exact iff_true_intro (App.addEffect_alike st rfl)
  · rw [if_neg hs]
    exact alike_true (by rw [hu]; rfl)

/-- An unknown color is refused by the socket, and clears the color over the bus. -/
theorem matches_workspaceSetColor {id : UInt32} {color : Text}
    (hc : (workspaceSetColor id color : Method F).Carried args) :
    (workspaceSetColor id color : Method F).Matches env st args := by
  unfold Matches answered
  obtain ⟨hid,ht⟩ := hc
  rw [decode_text (f := fun id s => .workspaceSetColor id s) rfl hid,← ht]
  have hrefused (hne : color ≠ "none".toList)
      (hunknown : WorkspaceColor.fromName (.ofList color) = none) :
      st.Alike ((workspaceSetColor id color : Method F).invoke env st).2 ↔
        (workspaceSetColor id color : Method F).Concordant st args := by
    have hbus : ((workspaceSetColor id color : Method F).invoke env st).2 =
        st.setWindow (st.window.setWorkspaceColor id.toNat none) := by
      dsimp only [invoke]
      rw [hunknown,ite_self]
    rw [hbus,st.alike_setWindow_iff,AppWindow.setWorkspaceColor_alike_iff,Concordant,hunknown]
    exact ((or_iff_right hne).trans (or_iff_right (by simp))).symm
  by_cases hs : splitOnce ' ' args = none
  · have hempty : color = [] := by
      rw [ht,commandParts,hs]
      rfl
    rw [if_pos hs]
    exact hrefused (by rw [hempty]; decide) (by rw [hempty]; decide)
  · rw [if_neg hs]
    by_cases hnone : color = "none".toList
    · refine iff_of_true ?_ (.inl hnone)
      dsimp only [App.perform,invoke]
      rw [if_pos hnone,if_pos (.inr hnone)]
      exact .refl _
    · rcases hname : WorkspaceColor.fromName (.ofList color) with _ | c
      · have hsock : (st.perform env (.workspaceSetColor id.toNat color)).2 = st := by
          dsimp only [App.perform]
          rw [if_neg hnone,hname]
        dsimp only
        rw [hsock]
        exact hrefused hnone hname
      · refine iff_of_true ?_ (.inr (.inl (by rw [hname]; rfl)))
        have hne : color ≠ [] := by
          rintro rfl
          have hblank : WorkspaceColor.fromName (.ofList []) = none := by decide
          rw [hblank] at hname
          cases hname
        dsimp only [App.perform,invoke]
        rw [if_neg hnone,hname,if_neg (fun h => h.elim hne hnone)]
        exact .refl _

theorem matches_send {id : UInt32} {text : Text}
    (hc : (send id text : Method F).Carried args) :
    (send id text : Method F).Matches env st args := by
  unfold Matches answered
  obtain ⟨hid,ht⟩ := hc
  rw [decode_text (f := fun id s => .send id s) rfl hid]
  by_cases hs : splitOnce ' ' args = none
  · rw [if_pos hs]
    refine iff_true_intro ?_
    dsimp only [invoke,App.sendText]
    by_cases hh : id.toNat ∈ st.handles
    · rw [if_pos hh]
      exact App.addEffect_alike st rfl
    · rw [if_neg hh]
      exact .refl st
  · rw [if_neg hs]
    apply alike_true
    rw [ht]
    dsimp only [App.perform,invoke]
    cases st.sendText id.toNat (commandParts args).2 <;> rfl

theorem matches_jsEval {id : UInt32} {script : Text}
    (hc : (jsEval id script : Method F).Carried args) :
    (jsEval id script : Method F).Matches env st args := by
  unfold Matches answered
  obtain ⟨hid,ht⟩ := hc
  rw [decode_text (f := fun id s => .jsEval id s) rfl hid]
  by_cases hs : splitOnce ' ' args = none
  · rw [if_pos hs]
    exact iff_true_intro (App.addEffect_alike st rfl)
  · rw [if_neg hs]
    exact alike_true (by rw [ht]; rfl)

theorem matches_clearStatus {key : Text}
    (hc : (clearStatus key : Method F).Carried args) :
    (clearStatus key : Method F).Matches env st args := by
  unfold Matches answered
  have hkey : key = trim args := hc
  have hd : (clearStatus key : Method F).verb.decode st args = (focusedOr st >>= fun ws =>
      if key = [] then .error "ERROR: usage: clear_status <key>"
      else .ok (.clearStatus ws key)) := hkey ▸ rfl
  have hrefused (h : ¬ (st.window.focusedWorkspaceId.isSome ∧ key ≠ [])) :
      st.Alike ((clearStatus key : Method F).invoke env st).2 ↔
        (clearStatus key : Method F).Concordant st args :=
    ((st.alike_setWindow_iff _).trans (AppWindow.clearWorkspaceStatus_alike_iff _ _ _)).trans
      (or_iff_right h).symm
  rcases hf : st.window.focusedWorkspaceId with _ | w
  · rw [hd,focusedOr_none hf]
    exact hrefused (by simp [hf])
  · have hw : (clearStatus key : Method F).verb.decode st args =
        if key = [] then .error "ERROR: usage: clear_status <key>"
        else .ok (.clearStatus w key) := by
      rw [hd,focusedOr_some hf]
      rfl
    rw [hw]
    by_cases hk : key = []
    · rw [if_pos hk]
      exact hrefused (by simp [hk])
    · rw [if_neg hk]
      refine iff_of_true ?_ (.inl ⟨by rw [hf]; rfl,hk⟩)
      dsimp only [invoke]
      rw [focused,hf]
      exact .refl _

/-- Without a focused workspace, the bus changes workspace 0. -/
theorem matches_setStatus {key value icon color : Text} {priority : Int32}
    (hc : (setStatus key value icon color priority : Method F).Carried args) :
    (setStatus key value icon color priority : Method F).Matches env st args := by
  unfold Matches answered
  obtain ⟨hk,hval,hi,hcol,hpr⟩ := hc
  have hrefused (h : ¬ (st.window.focusedWorkspaceId.isSome ∧
      2 ≤ (parseOpts args).positional.length)) :
      st.Alike ((setStatus key value icon color priority : Method F).invoke env st).2 ↔
        (setStatus key value icon color priority : Method F).Concordant st args := by
    rw [Concordant,if_neg h]
    exact (st.alike_setWindow_iff _).trans (AppWindow.setWorkspaceStatus_alike_iff _ _ _)
  rw [show (setStatus key value icon color priority : Method F).verb = .setStatus from rfl]
  rcases hf : st.window.focusedWorkspaceId with _ | w
  · rw [decode_noFocus hf (by simp)]
    exact hrefused (by simp [hf])
  · rw [decode_setStatus hf]
    rcases hp : (parseOpts args).positional with _ | ⟨k,_ | ⟨v,vs⟩⟩
    · exact hrefused (by simp [hp])
    · exact hrefused (by simp [hp])
    · rw [hp] at hk hval
      rw [Concordant,if_pos (by rw [hf,hp]; simp),← given_text hi,← given_text hcol]
      refine (App.setWindow_alike_iff st _ _).trans ?_
      rw [focused,hf,hk,hval,given_value hpr]
      refine (AppWindow.modifyById_alike_iff _ _ _ _).trans ?_
      refine Iff.trans (AppWindow.meets_congr (fun ws => ?_)) (AppWindow.meets_focused hf)
      refine (ws.insert_alike_iff _ _ _).trans ?_
      simp

theorem matches_setProgress {value : F} {label : Text}
    (hc : (setProgress value label : Method F).Carried args) :
    (setProgress value label : Method F).Matches env st args := by
  unfold Matches answered
  obtain ⟨hv,hl⟩ := hc
  obtain ⟨v,hp,hparse⟩ := Option.bind_eq_some_iff.mp hv
  obtain ⟨vs,hp⟩ := List.head?_eq_some_iff.mp hp
  rw [show (setProgress value label : Method F).verb = .setProgress from rfl]
  rcases hf : st.window.focusedWorkspaceId with _ | w
  · rw [decode_noFocus hf (by simp),Concordant,hf,if_neg (by simp)]
    refine ((st.alike_setWindow_iff _).trans
      (AppWindow.setWorkspaceProgress_alike_iff _ _ _ _)).trans ?_
    rw [focused,hf]
    exact Iff.rfl
  · rw [decode_setProgress hf,hp]
    dsimp only
    rw [hparse,Concordant,if_pos (by rw [hf]; rfl),← given_text hl]
    refine (App.setWindow_alike_iff st _ _).trans ?_
    rw [focused,hf]
    refine (AppWindow.modifyById_alike_iff _ _ _ _).trans ?_
    refine Iff.trans (AppWindow.meets_congr (fun ws => ?_)) (AppWindow.meets_focused hf)
    refine Iff.trans (Workspace.alike_iff_eq rfl) ?_
    simp

theorem matches_clearProgress  :
    (clearProgress : Method F).Matches env st args := by
  unfold Matches answered
  have hd : (clearProgress : Method F).verb.decode st args =
    (focusedOr st >>= fun ws => .ok (.clearProgress ws)) := rfl
  rw [hd,Concordant]
  rcases hf : st.window.focusedWorkspaceId with _ | w
  · rw [focusedOr_none hf]
    refine ((st.alike_setWindow_iff _).trans
      (AppWindow.clearWorkspaceProgress_alike_iff _ _)).trans ?_
    rw [focused,hf]
    simp
  · rw [focusedOr_some hf]
    refine iff_of_true ?_ (.inl rfl)
    dsimp only [invoke]
    rw [focused,hf]
    exact .refl _

theorem matches_log {message level : Text}
    (hc : (log message level : Method F).Carried args) :
    (log message level : Method F).Matches env st args := by
  unfold Matches answered
  obtain ⟨hm,hl⟩ := hc
  have hrefused (h : ¬ (st.window.focusedWorkspaceId.isSome ∧
      (parseOpts args).positional ≠ [])) :
      st.Alike ((log message level : Method F).invoke env st).2 ↔
        (log message level : Method F).Concordant st args :=
    ((st.alike_setWindow_iff _).trans (AppWindow.addWorkspaceLog_alike_iff _ _ _)).trans
      (or_iff_right h).symm
  rcases hf : st.window.focusedWorkspaceId with _ | w
  · have hd : (log message level : Method F).verb.decode st args =
        .error "ERROR: no focused workspace" := by
      change (focusedOr st >>= _) = _
      rw [focusedOr_none hf]
      rfl
    rw [hd]
    exact hrefused (by simp [hf])
  · have hd : (log message level : Method F).verb.decode st args =
        if (parseOpts args).positional = [] then
          .error "ERROR: usage: log <message> [--level=info|warning|error|success]"
        else .ok (.log w (spaced (parseOpts args).positional)
          (((parseOpts args).opts.lookup "level".toList).getD "info".toList)) := by
      change (focusedOr st >>= _) = _
      rw [focusedOr_some hf]
      rfl
    rw [hd]
    by_cases hp : (parseOpts args).positional = []
    · rw [if_pos hp]
      exact hrefused (by simp [hp])
    · rw [if_neg hp]
      refine iff_of_true ?_ (.inl ⟨by rw [hf]; rfl,hp⟩)
      have hlevel : LogLevel.fromStr (.ofList
          (((parseOpts args).opts.lookup "level".toList).getD "info".toList)) =
          .fromStr (.ofList level) := by
        rcases ho : (parseOpts args).opts.lookup "level".toList with _ | v
        · rw [ho] at hl
          obtain rfl : level = [] := hl
          decide
        · rw [ho] at hl
          rw [Option.getD_some,show v = level from Option.some.inj hl]
      dsimp only [App.perform,invoke]
      rw [focused,hf,hm,hlevel]
      exact .refl _

theorem matches_clearLog  :
    (clearLog : Method F).Matches env st args := by
  unfold Matches answered
  have hd : (clearLog : Method F).verb.decode st args =
    (focusedOr st >>= fun ws => .ok (.clearLog ws)) := rfl
  rw [hd,Concordant]
  rcases hf : st.window.focusedWorkspaceId with _ | w
  · rw [focusedOr_none hf]
    refine ((st.alike_setWindow_iff _).trans
      (AppWindow.clearWorkspaceLog_alike_iff _ _)).trans ?_
    rw [focused,hf]
    simp
  · rw [focusedOr_some hf]
    refine iff_of_true ?_ (.inl rfl)
    dsimp only [invoke]
    rw [focused,hf]
    exact .refl _

/-- Both open a workspace, for the configurations they were given. -/
theorem matches_remoteConnect {destination : Text} {port : UInt32} {identityFile sshOptions : Text}
    (hc : (remoteConnect destination port identityFile sshOptions : Method F).Carried args) :
    (remoteConnect destination port identityFile sshOptions : Method F).Matches env st args := by
  unfold Matches answered
  obtain ⟨hdest,hport,hi,hssh,hcommand⟩ := hc
  rw [show (remoteConnect destination port identityFile sshOptions : Method F).verb =
    .remoteConnect from rfl,decode_remoteConnect,Concordant]
  rcases hp : (parseOpts args).positional with _ | ⟨d,ds⟩
  · exact iff_of_false (App.not_alike_newRemoteWorkspace env st _) (fun h => h.1 rfl)
  · rw [hp] at hdest
    dsimp only [App.perform,invoke]
    refine Iff.trans (App.newRemoteWorkspace_alike_iff env st rfl rfl rfl) ?_
    rw [hcommand,remoteConfiguration,RemoteConfiguration.mk.injEq]
    simp only [hdest,List.headD_cons,Option.map_none,true_and,and_true,given_port hport,
      given_text hi,hssh,given_options]
    simp

/-- On which arguments the two front ends come to the same state. -/
theorem alike_iff_concordant (env : CommandEnv F) (st : App F) (m : Method F) (cmd : String)
    (hv : Verb.ofText (commandParts cmd.toList).1 = some m.verb)
    (hc : m.Carried (commandParts cmd.toList).2) :
    (handleCommand env st cmd).2.Alike (m.invoke env st).2 ↔
      m.Concordant st (commandParts cmd.toList).2 := by
  rw [handled hv]
  generalize (commandParts cmd.toList).2 = args at hc ⊢
  unfold answered
  cases m with
  | selectWorkspace id =>
    rw [decode_number rfl hc]
    apply alike_true
    dsimp only [App.perform,invoke]
    cases st.selectWorkspaceById id.toNat <;> rfl
  | closeWorkspace id => exact matches_closeWorkspace hc
  | workspacePin id =>
    rw [decode_number rfl hc]
    exact alike_true rfl
  | focusPane id =>
    rw [decode_number rfl hc]
    apply alike_true
    dsimp only [App.perform,invoke]
    unfold AppWindow.focusPaneById
    cases st.window.findWorkspaceWithPane id.toNat <;> rfl
  | readScreen id =>
    rw [decode_number rfl hc]
    apply alike_true
    dsimp only [App.perform,invoke]
    cases env.readScreen id.toNat <;> rfl
  | browserBack id =>
    rw [decode_number rfl hc]
    exact alike_true rfl
  | browserForward id =>
    rw [decode_number rfl hc]
    exact alike_true rfl
  | browserReload id =>
    rw [decode_number rfl hc]
    exact alike_true rfl
  | getUrl id =>
    rw [decode_number rfl hc]
    apply alike_true
    dsimp only [App.perform,invoke]
    cases env.getUrl id.toNat <;> rfl
  | listPanes id => exact matches_listPanes
  | currentWorkspace =>
    apply alike_true
    change (st.perform env .currentWorkspace).2 = _
    dsimp only [App.perform,invoke]
    cases st.window.current <;> rfl
  | listSurfaces => exact alike_true rfl
  | listWorkspaces => exact alike_true rfl
  | renameWorkspace id name => exact matches_renameWorkspace hc
  | navigate id url => exact matches_navigate hc
  | workspaceSetColor id color => exact matches_workspaceSetColor hc
  | send id text => exact matches_send hc
  | jsEval id script => exact matches_jsEval hc
  | openBrowser url =>
    obtain rfl := hc
    exact alike_true rfl
  | clearStatus key => exact matches_clearStatus hc
  | setStatus key value icon color priority => exact matches_setStatus hc
  | setProgress value label => exact matches_setProgress hc
  | clearProgress => exact matches_clearProgress
  | log message level => exact matches_log hc
  | clearLog => exact matches_clearLog
  | remoteConnect destination port identityFile sshOptions => exact matches_remoteConnect hc
  | remoteDisconnect id clear =>
    obtain ⟨hid,rfl⟩ := hc
    exact disconnect_alike_iff hid _
  | remoteReconnect id => exact reconnect_alike_iff hc
  | remoteStatus id =>
    apply alike_true
    change (st.perform env (.remoteStatus _)).2 = st
    dsimp only [App.perform]
    split <;> rfl
  | _ => exact alike_true rfl

end Agreement

def blueStart : App Extended :=
  App.start.setWindow (App.start.window.newWorkspace.setWorkspaceColor 1 (some .blue))

/-- Workspace 1 becomes green both ways. -/
theorem alike_iff_concordant_green :
    (handleCommand CommandEnv.quiet blueStart "workspace_set_color 1 green").2.Alike
      ((workspaceSetColor 1 "green".toList).invoke CommandEnv.quiet blueStart).2 :=
  (alike_iff_concordant CommandEnv.quiet blueStart (workspaceSetColor 1 "green".toList)
    "workspace_set_color 1 green" (by decide) ⟨by decide,by decide⟩).mpr
      (.inr (.inl (by decide)))

theorem colors_of_alike {a b : App F} (h : a.Alike b) :
    a.window.workspaces.map Workspace.color = b.window.workspaces.map Workspace.color := by
  rw [← List.forall₂_eq_eq_eq,List.forall₂_map_left_iff,List.forall₂_map_right_iff]
  refine h.window.workspaces.imp (fun _ _ hw => ?_)
  have hr := congrArg Workspace.color hw.rest
  exact hr

/-- An unknown color, and port 0. -/
theorem unknown_color_clears :
    ¬ (handleCommand CommandEnv.quiet blueStart "workspace_set_color 1 mauve").2.Alike
      ((workspaceSetColor 1 "mauve".toList).invoke CommandEnv.quiet blueStart).2 ∧
    ¬ (handleCommand CommandEnv.quiet blueStart "remote_connect host --port=0").2.Alike
      ((remoteConnect "host".toList 0 [] []).invoke CommandEnv.quiet blueStart).2 := by
  constructor
  · intro h
    exact absurd (colors_of_alike h) (by decide +kernel)
  · intro h
    exact absurd (congrArg (List.map (fun e => e.2.port)) h.started) (by decide +kernel)

end Method

end Dbus

end Limux
