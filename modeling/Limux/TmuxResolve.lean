import Limux.TmuxTarget

/-! The calls that resolve a target, call by call: the host may answer each of them differently,
and the depth of the calls of a function to itself is counted down (`tmux_compat.go`). -/
namespace Limux.Tmux

open Text

/-- What the host answers, call after call. -/
abbrev Answers := ℕ → Host

/-- A computation behind some calls to the host: its result and the calls made by then, or
nothing if the depth of its calls to itself is used up. -/
abbrev Ask (α : Type) := ℕ → Option (Result α × ℕ)

namespace Ask

variable {α β : Type}

def result (r : Result α) : Ask α := fun n => some (r,n)

def ask (H : Answers) (f : Host → Result α) : Ask α := fun n => some (f (H n),n+1)

def next (x : Ask α) (f : Result α → Ask β) : Ask β := fun n => (x n).bind (fun r => f r.1 r.2)

def andThen (x : Ask α) (f : α → Ask β) : Ask β :=
  x.next (fun r =>
    match r with
    | .ok a => f a
    | .error e => result (.error e))

end Ask

section Resolve

variable (H : Answers) (env : Env)

/-- `depth` bounds the calls of the function to itself. -/
def resolveWorkspaceIdIn : ℕ → Text → Ask Text
  | 0,_ => fun _ => none
  | depth+1,raw =>
    if raw = [] ∨ raw = "current".toList then
      let caller := callerWorkspaceHandle env
      if caller ≠ [] then
        if isUUIDish caller then .result (.ok caller)
        else resolveWorkspaceIdIn depth caller
      else
        .ask H (fun h =>
          match h.workspaceCurrent with
          | .error e => fail ("no workspace selected: ".toList ++ e)
          | .ok (some id) => .ok id
          | .ok none => fail "no workspace selected".toList)
    else if isUUIDish raw then .result (.ok raw)
    else .ask H (fun h => lookupWorkspaceId h raw)

variable (depth : ℕ)

def resolveWorkspaceTargetIn (raw : Text) : Ask Text :=
  let raw := trim raw
  if raw = [] then
    let caller := callerWorkspaceHandle env
    if caller ≠ [] then resolveWorkspaceIdIn H env depth caller
    else resolveWorkspaceIdIn H env depth []
  else if raw = ['!'] ∨ raw = ['^'] ∨ raw = ['-'] then
    .ask H (fun h =>
      match h.workspaceLast with
      | .error e => fail ("previous workspace not found: ".toList ++ e)
      | .ok (some id) => .ok id
      | .ok none => fail "previous workspace not found".toList)
  else resolveWorkspaceIdIn H env depth (windowToken raw)

def canonicalPaneIdIn (handle workspaceId : Text) : Ask Text :=
  if isUUIDish handle then .result (.ok handle)
  else .ask H (fun h => canonicalPaneId h handle workspaceId)

def focusedPaneIdIn (workspaceId : Text) : Ask Text :=
  (Ask.ask H (fun h => call (h.surfaceCurrent workspaceId))).andThen (fun payload =>
    match payload.paneId,payload.paneRef with
    | some id,_ => .result (.ok id)
    | none,some ref => canonicalPaneIdIn H ref workspaceId
    | none,none => .result (fail "pane not found".toList))

/-- The loop over the listed workspaces; a workspace whose panes cannot be listed is passed
over. -/
def findPaneIn (handle : Text) : List WorkspaceItem → Ask Text
  | [] => .result (fail "pane not found in any workspace".toList)
  | w :: ws =>
    if w.id = [] then findPaneIn handle ws
    else fun n =>
      if listsPane (H n).paneList handle w then some (.ok w.id,n+1)
      else findPaneIn handle ws (n+1)

def workspaceIdForPaneHandleIn (handle : Text) : Ask Text :=
  if !isUUIDish handle then .result (fail "not a UUID".toList)
  else
    (Ask.ask H (fun h => call h.workspaceList)).andThen (fun workspaces =>
      findPaneIn H handle workspaces)

def paneWorkspaceIn (paneSelector windowSelector : Text) : Ask Text :=
  if windowSelector ≠ [] then resolveWorkspaceTargetIn H env depth windowSelector
  else if paneSelector ≠ [] then
    (workspaceIdForPaneHandleIn H paneSelector).next (fun r =>
      match r with
      | .ok id => .result (.ok id)
      | .error _ => resolveWorkspaceTargetIn H env depth [])
  else resolveWorkspaceTargetIn H env depth []

def resolvedCallerWorkspaceIdIn : Ask Text :=
  let caller := callerWorkspaceHandle env
  if caller = [] then .result (.ok [])
  else
    (resolveWorkspaceIdIn H env depth caller).next (fun r =>
      match r with
      | .ok id => .result (.ok id)
      | .error _ => .result (.ok []))

def callerPaneIn (workspaceId : Text) : Ask Text :=
  (resolvedCallerWorkspaceIdIn H env depth).andThen (fun callerWs =>
    if callerWs = workspaceId ∧ callerPaneHandle env ≠ [] then
      (canonicalPaneIdIn H (callerPaneHandle env) workspaceId).next (fun r =>
        match r with
        | .ok id => .result (.ok id)
        | .error _ => .result (.ok []))
    else .result (.ok []))

def selectedPaneIn (selector workspaceId : Text) : Ask Text :=
  if selector ≠ [] then canonicalPaneIdIn H selector workspaceId
  else callerPaneIn H env depth workspaceId

def resolvePaneTargetIn (raw : Text) : Ask (Text × Text) :=
  let raw := trim raw
  let selector := paneSelector raw
  (paneWorkspaceIn H env depth selector (windowSelector raw)).andThen (fun workspaceId =>
    (selectedPaneIn H env depth selector workspaceId).andThen (fun paneId =>
      (if paneId = [] then focusedPaneIdIn H workspaceId else .result (.ok paneId)).andThen
        (fun paneId => .result (.ok (workspaceId,paneId)))))

end Resolve

/-! Which computations end. -/

namespace Ask

variable {α β : Type} {x : Ask α} {n : ℕ}

/-- The computation ends when it is run behind `n` calls. -/
def Ends (x : Ask α) (n : ℕ) : Prop := (x n).isSome

theorem ends_result (r : Result α) : (result r).Ends n := rfl

theorem ends_ask (H : Answers) (f : Host → Result α) : (ask H f).Ends n := rfl

theorem ends_next {f : Result α → Ask β} :
    (x.next f).Ends n ↔ ∃ r m, x n = some (r,m) ∧ (f r).Ends m := by
  rw [Ends,next]
  cases hx : x n with
  | none => simp
  | some r => exact ⟨fun h => ⟨r.1,r.2,rfl,h⟩,by rintro ⟨_,_,h,he⟩; cases h; exact he⟩

theorem Ends.next {f : Result α → Ask β} (hx : x.Ends n) (hf : ∀ r m, (f r).Ends m) :
    (x.next f).Ends n := by
  obtain ⟨r,hr⟩ := Option.isSome_iff_exists.mp hx
  exact ends_next.mpr ⟨r.1,r.2,hr,hf _ _⟩

theorem Ends.andThen {f : α → Ask β} (hx : x.Ends n) (hf : ∀ a m, (f a).Ends m) :
    (x.andThen f).Ends n := by
  refine hx.next fun r m => ?_
  cases r with
  | ok a => exact hf a m
  | error e => exact ends_result _

theorem ends_of_next {f : Result α → Ask β} (h : (x.next f).Ends n) : x.Ends n := by
  obtain ⟨r,m,hx,-⟩ := ends_next.mp h
  rw [Ends,hx]
  rfl

end Ask

/-! Where the calls of `resolveWorkspaceId` to itself end. -/

/-- A workspace that is looked for as `current`, from inside a workspace named so. -/
def IdLoops (env : Env) (raw : Text) : Prop :=
  callerWorkspaceHandle env = "current".toList ∧ (raw = [] ∨ raw = "current".toList)

/-- A target that names no window, or its window by nothing or `current`. -/
def TargetLoops (env : Env) (raw : Text) : Prop :=
  callerWorkspaceHandle env = "current".toList ∧ (trim raw = [] ∨
    (trim raw ≠ ['!'] ∧ trim raw ≠ ['^'] ∧ trim raw ≠ ['-'] ∧
      (windowToken (trim raw) = [] ∨ windowToken (trim raw) = "current".toList)))

/-- A pane target comes back to the workspace of the caller: for its window, for a pane that no
workspace lists, or for the pane when only the window is named. -/
def PaneLoops (H : Answers) (env : Env) (raw : Text) (n : ℕ) : Prop :=
  let selector := paneSelector (trim raw)
  let window := windowSelector (trim raw)
  callerWorkspaceHandle env = "current".toList ∧
    ((window ≠ [] ∧ (TargetLoops env window ∨ (selector = [] ∧
        ∃ depth id m, resolveWorkspaceTargetIn H env depth window n = some (.ok id,m)))) ∨
      (window = [] ∧ (selector = [] ∨
        ∃ e m, workspaceIdForPaneHandleIn H selector n = some (.error e,m))))

section Ends

variable {H : Answers} {env : Env} {raw : Text} {n depth depth' : ℕ}

theorem not_uuid_current : isUUIDish "current".toList = false := by decide

theorem not_ends_of_idLoops (h : IdLoops env raw) :
    ¬(resolveWorkspaceIdIn H env depth raw).Ends n := by
  induction depth generalizing raw with
  | zero => exact Bool.false_ne_true
  | succ depth ih =>
    obtain ⟨hcaller,hraw⟩ := h
    rw [resolveWorkspaceIdIn,if_pos hraw]
    simp only [hcaller]
    rw [if_pos (by simp),not_uuid_current,if_neg (by simp)]
    exact ih ⟨hcaller,.inr rfl⟩

theorem ends_of_not_idLoops (h : ¬IdLoops env raw) :
    (resolveWorkspaceIdIn H env (depth+2) raw).Ends n := by
  rw [resolveWorkspaceIdIn]
  by_cases hraw : raw = [] ∨ raw = "current".toList
  · have hcaller : callerWorkspaceHandle env ≠ "current".toList := fun hc => h ⟨hc,hraw⟩
    rw [if_pos hraw]
    by_cases hnil : callerWorkspaceHandle env = []
    · simp only [hnil,ne_eq,not_true_eq_false,if_false]
      exact Ask.ends_ask H _
    · simp only
      rw [if_pos hnil]
      split_ifs with hu
      · exact Ask.ends_result _
      · rw [resolveWorkspaceIdIn,if_neg (not_or.mpr ⟨hnil,hcaller⟩),if_neg hu]
        exact Ask.ends_ask H _
  · rw [if_neg hraw]
    split_ifs
    · exact Ask.ends_result _
    · exact Ask.ends_ask H _

/-- What is found at some depth is found at every greater one. -/
theorem resolveWorkspaceIdIn_mono {r : Result Text × ℕ}
    (h : resolveWorkspaceIdIn H env depth raw n = some r) :
    resolveWorkspaceIdIn H env (depth+1) raw n = some r := by
  induction depth generalizing raw with
  | zero => cases h
  | succ depth ih =>
    rw [resolveWorkspaceIdIn] at h ⊢
    by_cases hraw : raw = [] ∨ raw = "current".toList
    · rw [if_pos hraw] at h ⊢
      split_ifs at h ⊢ with hcaller hu
      · exact h
      · exact ih h
      · exact h
    · rw [if_neg hraw] at h ⊢
      exact h

theorem resolveWorkspaceIdIn_le {r : Result Text × ℕ} (hle : depth ≤ depth')
    (h : resolveWorkspaceIdIn H env depth raw n = some r) :
    resolveWorkspaceIdIn H env depth' raw n = some r := by
  induction depth',hle using Nat.le_induction with
  | base => exact h
  | succ k _ ih => exact resolveWorkspaceIdIn_mono ih

theorem resolveWorkspaceTargetIn_le {r : Result Text × ℕ} (hle : depth ≤ depth')
    (h : resolveWorkspaceTargetIn H env depth raw n = some r) :
    resolveWorkspaceTargetIn H env depth' raw n = some r := by
  unfold resolveWorkspaceTargetIn at h ⊢
  simp only at h ⊢
  split_ifs at h ⊢
  · exact resolveWorkspaceIdIn_le hle h
  · exact resolveWorkspaceIdIn_le hle h
  · exact h
  · exact resolveWorkspaceIdIn_le hle h

theorem resolveWorkspaceTargetIn_agree {r r' : Result Text × ℕ}
    (h : resolveWorkspaceTargetIn H env depth raw n = some r)
    (h' : resolveWorkspaceTargetIn H env depth' raw n = some r') : r = r' := by
  have hmax := resolveWorkspaceTargetIn_le (le_max_left depth depth') h
  have hmax' := resolveWorkspaceTargetIn_le (le_max_right depth depth') h'
  exact Option.some.inj (hmax.symm.trans hmax')

theorem not_ends_of_targetLoops (h : TargetLoops env raw) :
    ¬(resolveWorkspaceTargetIn H env depth raw).Ends n := by
  obtain ⟨hcaller,hraw⟩ := h
  unfold resolveWorkspaceTargetIn
  simp only
  rcases hraw with hraw | ⟨h1,h2,h3,htoken⟩
  · rw [if_pos hraw,if_pos (by simp [hcaller])]
    exact not_ends_of_idLoops ⟨hcaller,.inr hcaller⟩
  · by_cases hraw : trim raw = []
    · rw [if_pos hraw,if_pos (by simp [hcaller])]
      exact not_ends_of_idLoops ⟨hcaller,.inr hcaller⟩
    · rw [if_neg hraw,if_neg (by simp [h1,h2,h3])]
      exact not_ends_of_idLoops ⟨hcaller,htoken⟩

theorem ends_of_not_targetLoops (h : ¬TargetLoops env raw) :
    (resolveWorkspaceTargetIn H env (depth+2) raw).Ends n := by
  unfold resolveWorkspaceTargetIn
  simp only
  by_cases hraw : trim raw = []
  · have hcaller : callerWorkspaceHandle env ≠ "current".toList := fun hc => h ⟨hc,.inl hraw⟩
    rw [if_pos hraw]
    split_ifs
    · exact ends_of_not_idLoops fun hl => hcaller hl.1
    · exact ends_of_not_idLoops fun hl => hcaller hl.1
  · rw [if_neg hraw]
    split_ifs with hlast
    · exact Ask.ends_ask H _
    · refine ends_of_not_idLoops fun hl => h ⟨hl.1,.inr ?_⟩
      simp only [not_or] at hlast
      exact ⟨hlast.1,hlast.2.1,hlast.2.2,hl.2⟩

/-! The parts of a pane target that ask for no workspace end. -/

theorem ends_canonicalPaneIdIn (handle id : Text) : (canonicalPaneIdIn H handle id).Ends n := by
  unfold canonicalPaneIdIn
  split_ifs
  · exact Ask.ends_result _
  · exact Ask.ends_ask H _

theorem ends_focusedPaneIdIn (id : Text) : (focusedPaneIdIn H id).Ends n := by
  refine (Ask.ends_ask H _).andThen fun payload m => ?_
  split
  · exact Ask.ends_result _
  · exact ends_canonicalPaneIdIn _ _
  · exact Ask.ends_result _

theorem ends_findPaneIn (handle : Text) (ws : List WorkspaceItem) :
    (findPaneIn H handle ws).Ends n := by
  induction ws generalizing n with
  | nil => exact Ask.ends_result _
  | cons w ws ih =>
    rw [findPaneIn]
    split_ifs
    · exact ih
    · rw [Ask.Ends]
      split_ifs
      · rfl
      · exact ih

theorem ends_workspaceIdForPaneHandleIn (handle : Text) :
    (workspaceIdForPaneHandleIn H handle).Ends n := by
  unfold workspaceIdForPaneHandleIn
  split_ifs
  · exact Ask.ends_result _
  · exact (Ask.ends_ask H _).andThen fun ws m => ends_findPaneIn handle ws

theorem not_ends_callerPaneIn (h : callerWorkspaceHandle env = "current".toList) (id : Text) :
    ¬(callerPaneIn H env depth id).Ends n := by
  intro hends
  rw [callerPaneIn,Ask.andThen] at hends
  have hres := Ask.ends_of_next hends
  rw [resolvedCallerWorkspaceIdIn] at hres
  rw [if_neg (by simp [h])] at hres
  exact not_ends_of_idLoops ⟨h,.inr h⟩ (Ask.ends_of_next hres)

theorem ends_callerPaneIn (h : callerWorkspaceHandle env ≠ "current".toList) (id : Text) :
    (callerPaneIn H env (depth+2) id).Ends n := by
  have hres : ∀ n, (resolvedCallerWorkspaceIdIn H env (depth+2)).Ends n := by
    intro n
    rw [resolvedCallerWorkspaceIdIn]
    split_ifs
    · exact Ask.ends_result _
    · refine (ends_of_not_idLoops fun hl => h hl.1).next fun r m => ?_
      cases r with
      | ok id => exact Ask.ends_result _
      | error e => exact Ask.ends_result _
  refine (hres n).andThen fun ws m => ?_
  split_ifs
  · refine (ends_canonicalPaneIdIn _ _).next fun r m => ?_
    cases r with
    | ok id => exact Ask.ends_result _
    | error e => exact Ask.ends_result _
  · exact Ask.ends_result _

end Ends

section Pane

variable {H : Answers} {env : Env} {raw : Text} {n depth : ℕ}

theorem not_ends_of_paneLoops (h : PaneLoops H env raw n) :
    ¬(resolvePaneTargetIn H env depth raw).Ends n := by
  obtain ⟨hcaller,hloops⟩ := h
  have htarget : TargetLoops env [] := ⟨hcaller,.inl rfl⟩
  intro hends
  rw [resolvePaneTargetIn,Ask.andThen] at hends
  obtain ⟨r,m,hr,hrest⟩ := Ask.ends_next.mp hends
  have hworkspace : (paneWorkspaceIn H env depth (paneSelector (trim raw))
      (windowSelector (trim raw))).Ends n := Ask.ends_of_next hends
  rcases hloops with ⟨hwindow,hloops⟩ | ⟨hwindow,hloops⟩
  · rw [paneWorkspaceIn,if_pos hwindow] at hr hworkspace
    rcases hloops with hloops | ⟨hselector,depth',id,m',hid⟩
    · exact not_ends_of_targetLoops hloops hworkspace
    -- the window is found, and the pane is the one of the caller
    · obtain ⟨rfl,rfl⟩ := Prod.mk.inj (resolveWorkspaceTargetIn_agree hr hid)
      simp only [selectedPaneIn,hselector,ne_eq,not_true_eq_false,if_false] at hrest
      exact not_ends_callerPaneIn hcaller id (Ask.ends_of_next hrest)
  · rw [paneWorkspaceIn,if_neg (by simp [hwindow])] at hworkspace
    by_cases hselector : paneSelector (trim raw) = []
    · rw [if_neg (by simp [hselector])] at hworkspace
      exact not_ends_of_targetLoops htarget hworkspace
    · obtain ⟨e,m',he⟩ := hloops.resolve_left hselector
      rw [if_pos hselector] at hworkspace
      obtain ⟨r',m'',hr',htail⟩ := Ask.ends_next.mp hworkspace
      obtain ⟨rfl,rfl⟩ := Prod.mk.inj (Option.some.inj (hr'.symm.trans he))
      exact not_ends_of_targetLoops htarget htail

theorem ends_of_not_paneLoops (h : ¬PaneLoops H env raw n) :
    (resolvePaneTargetIn H env (depth+2) raw).Ends n := by
  have hfocused : ∀ (id pane : Text) (m : ℕ), ((if pane = [] then focusedPaneIdIn H id
      else .result (.ok pane)).andThen (fun pane => .result (.ok (id,pane)))).Ends m := by
    intro id pane m
    refine Ask.Ends.andThen ?_ fun pane m => Ask.ends_result _
    split_ifs
    · exact ends_focusedPaneIdIn id
    · exact Ask.ends_result _
  rw [resolvePaneTargetIn,Ask.andThen]
  by_cases hcaller : callerWorkspaceHandle env = "current".toList
  · by_cases hwindow : windowSelector (trim raw) = []
    -- a pane that some workspace lists
    · have hselector : paneSelector (trim raw) ≠ [] := fun hs =>
        h ⟨hcaller,.inr ⟨hwindow,.inl hs⟩⟩
      have hpane := ends_workspaceIdForPaneHandleIn (H := H) (n := n) (paneSelector (trim raw))
      obtain ⟨⟨r,m⟩,hr⟩ := Option.isSome_iff_exists.mp hpane
      rw [paneWorkspaceIn,if_neg (by simp [hwindow]),if_pos hselector]
      cases r with
      | error e => exact absurd ⟨hcaller,.inr ⟨hwindow,.inr ⟨e,m,hr⟩⟩⟩ h
      | ok id =>
        refine Ask.ends_next.mpr ⟨.ok id,m,?_,?_⟩
        · rw [Ask.next,hr]
          rfl
        · simp only [selectedPaneIn,if_pos hselector]
          exact (ends_canonicalPaneIdIn _ _).andThen (hfocused id)
    · have htarget : ¬TargetLoops env (windowSelector (trim raw)) := fun hl =>
        h ⟨hcaller,.inl ⟨hwindow,.inl hl⟩⟩
      have hends : (resolveWorkspaceTargetIn H env (depth+2) (windowSelector (trim raw))).Ends n :=
        ends_of_not_targetLoops htarget
      obtain ⟨⟨r,m⟩,hr⟩ := Option.isSome_iff_exists.mp hends
      rw [paneWorkspaceIn,if_pos hwindow]
      refine Ask.ends_next.mpr ⟨r,m,hr,?_⟩
      cases r with
      | error e => exact Ask.ends_result _
      | ok id =>
        have hselector : paneSelector (trim raw) ≠ [] := fun hs =>
          h ⟨hcaller,.inl ⟨hwindow,.inr ⟨hs,_,id,m,hr⟩⟩⟩
        simp only [selectedPaneIn,if_pos hselector]
        exact (ends_canonicalPaneIdIn _ _).andThen (hfocused id)
  -- outside a workspace named so everything ends
  · have htarget : ∀ raw n, (resolveWorkspaceTargetIn H env (depth+2) raw).Ends n := fun raw n =>
      ends_of_not_targetLoops fun hl => hcaller hl.1
    have hworkspace : (paneWorkspaceIn H env (depth+2) (paneSelector (trim raw))
        (windowSelector (trim raw))).Ends n := by
      unfold paneWorkspaceIn
      split_ifs
      · exact htarget _ _
      · refine (ends_workspaceIdForPaneHandleIn _).next fun r m => ?_
        cases r with
        | ok id => exact Ask.ends_result _
        | error e => exact htarget _ _
      · exact htarget _ _
    refine hworkspace.andThen fun id m => ?_
    refine Ask.Ends.andThen ?_ (hfocused id)
    unfold selectedPaneIn
    split_ifs
    · exact ends_canonicalPaneIdIn _ _
    · exact ends_callerPaneIn hcaller id

/-- Every resolution ends, except where the workspace of the caller is asked for and that is
`current`. -/
theorem resolution_ends_iff (H : Answers) (env : Env) (raw : Text) (n : ℕ) :
    ((∃ depth, (resolveWorkspaceIdIn H env depth raw).Ends n) ↔ ¬IdLoops env raw) ∧
    ((∃ depth, (resolveWorkspaceTargetIn H env depth raw).Ends n) ↔ ¬TargetLoops env raw) ∧
    ((∃ depth, (resolvePaneTargetIn H env depth raw).Ends n) ↔ ¬PaneLoops H env raw n) := by
  refine ⟨⟨?_,fun h => ⟨0+2,ends_of_not_idLoops h⟩⟩,⟨?_,fun h => ⟨0+2,ends_of_not_targetLoops h⟩⟩,
    ⟨?_,fun h => ⟨0+2,ends_of_not_paneLoops h⟩⟩⟩
  · rintro ⟨depth,hends⟩ h
    exact not_ends_of_idLoops h hends
  · rintro ⟨depth,hends⟩ h
    exact not_ends_of_targetLoops h hends
  · rintro ⟨depth,hends⟩ h
    exact not_ends_of_paneLoops h hends

/-- With `LIMUX_WORKSPACE_ID=current` an empty target is looked for without an end. -/
theorem current_never_ends : ¬∃ depth, (resolveWorkspaceIdIn
    (fun _ => ⟨.ok [],.ok none,.ok none,fun _ => .ok [],fun _ => .ok ⟨none,none,none⟩,
      fun _ => .ok [],fun _ _ => .ok []⟩) ⟨"current".toList,[],[]⟩ depth []).Ends 0 := by
  rintro ⟨depth,hends⟩
  exact not_ends_of_idLoops ⟨by decide,.inl rfl⟩ hends

end Pane

/-! With the same answers to every call this is the resolution without a bound. -/

def ended {α : Type} : Result α → Option (Result α)
  | .error .stackOverflow => none
  | r => some r

section Steady

variable (h : Host) (env : Env) (depth n : ℕ)

theorem ended_lookup (raw : Text) :
    ended (lookupWorkspaceId h raw) = some (lookupWorkspaceId h raw) := by
  unfold lookupWorkspaceId
  split
  · rfl
  · split <;> rfl

theorem ended_default : ended (defaultWorkspaceId h env) =
    if callerWorkspaceHandle env = "current".toList then none
    else some (defaultWorkspaceId h env) := by
  unfold defaultWorkspaceId
  by_cases hnil : callerWorkspaceHandle env = []
  · simp only [hnil,ne_eq,not_true_eq_false,if_false]
    rw [if_neg (by simp)]
    split <;> rfl
  · simp only
    rw [if_pos hnil]
    by_cases hcaller : callerWorkspaceHandle env = "current".toList
    · rw [if_pos hcaller,hcaller,not_uuid_current]
      rfl
    · rw [if_neg hcaller,if_neg hcaller]
      split_ifs
      · rfl
      · exact ended_lookup h _

theorem resolveWorkspaceIdIn_eq (raw : Text) :
    (resolveWorkspaceIdIn (fun _ => h) env (depth+2) raw n).map Prod.fst =
      ended (resolveWorkspaceId h env raw) := by
  by_cases hraw : raw = [] ∨ raw = "current".toList
  · rw [resolveWorkspaceId,if_pos hraw,ended_default]
    by_cases hcaller : callerWorkspaceHandle env = "current".toList
    · have hends : ¬(resolveWorkspaceIdIn (fun _ => h) env (depth+2) raw).Ends n :=
        not_ends_of_idLoops ⟨hcaller,hraw⟩
      rw [Ask.Ends,Bool.not_eq_true,Option.isSome_eq_false_iff,Option.isNone_iff_eq_none] at hends
      rw [hends,if_pos hcaller]
      rfl
    · rw [if_neg hcaller,resolveWorkspaceIdIn,if_pos hraw,defaultWorkspaceId]
      by_cases hnil : callerWorkspaceHandle env = []
      · simp only [hnil,ne_eq,not_true_eq_false,if_false]
        rfl
      · rw [if_pos hnil,if_pos hnil]
        split_ifs with hu
        · rfl
        · rw [resolveWorkspaceIdIn,if_neg (not_or.mpr ⟨hnil,hcaller⟩),if_neg hu]
          rfl
  · rw [resolveWorkspaceIdIn,if_neg hraw,resolveWorkspaceId,if_neg hraw]
    split_ifs
    · rfl
    · exact (ended_lookup h raw).symm

theorem resolveWorkspaceTargetIn_eq (raw : Text) :
    (resolveWorkspaceTargetIn (fun _ => h) env (depth+2) raw n).map Prod.fst =
      ended (resolveWorkspaceTarget h env raw) := by
  unfold resolveWorkspaceTargetIn resolveWorkspaceTarget
  simp only
  split_ifs
  · exact resolveWorkspaceIdIn_eq h env depth n _
  · exact resolveWorkspaceIdIn_eq h env depth n _
  · rw [Ask.ask,Option.map_some]
    cases h.workspaceLast with
    | error e => rfl
    | ok last => cases last <;> rfl
  · exact resolveWorkspaceIdIn_eq h env depth n _

end Steady

end Limux.Tmux
