import Limux.TmuxTarget

/-! Which printed targets resolve to what they were printed from. -/
namespace Limux.Tmux

open Text

/-! What a UUID has in it. -/

theorem isWhitespace_of_hexDigit {c : Char} (h : hexDigit c = true) : isWhitespace c = false := by
  simp only [hexDigit,Bool.or_eq_true,Bool.and_eq_true,decide_eq_true_eq,Char.le_def,
    UInt32.le_iff_toNat_le] at h
  have hn : ((48 ≤ c.toNat ∧ c.toNat ≤ 57) ∨ 97 ≤ c.toNat ∧ c.toNat ≤ 102) ∨
      65 ≤ c.toNat ∧ c.toNat ≤ 70 := h
  simp only [isWhitespace,Bool.or_eq_false_iff,Bool.and_eq_false_iff,decide_eq_false_iff_not]
  omega

theorem mem_uuid {s : Text} (h : isUUIDish s = true) {c : Char} (hc : c ∈ s) :
    c = '-' ∨ hexDigit c = true := by
  simp only [isUUIDish,Bool.and_eq_true,List.all_eq_true] at h
  obtain ⟨i,hi,rfl⟩ := List.mem_iff_getElem.mp hc
  have hx := h.2 (s[i],i) (List.mem_zipIdx_iff_getElem?.mpr (List.getElem?_eq_getElem hi))
  split at hx
  · exact .inl (of_decide_eq_true hx)
  · exact .inr hx

theorem notMem_uuid {s : Text} (h : isUUIDish s = true) {c : Char} (hc : c ≠ '-')
    (hd : hexDigit c = false) : c ∉ s := fun hm => by
  rcases mem_uuid h hm with he | he
  · exact hc he
  · rw [hd] at he
    cases he

theorem tight_uuid {s : Text} (h : isUUIDish s = true) : Tight s := fun c hc => by
  rcases mem_uuid h hc with rfl | hd
  · decide
  · exact isWhitespace_of_hexDigit hd

theorem uuid_ne_nil {s : Text} (h : isUUIDish s = true) : s ≠ [] := by
  rintro rfl
  exact absurd h (by decide)

theorem uuid_ne_current {s : Text} (h : isUUIDish s = true) : s ≠ "current".toList := by
  rintro rfl
  exact absurd h (by decide)

theorem not_uuid_percent (s : Text) : isUUIDish ('%' :: s) = false := by
  by_contra h
  exact notMem_uuid (by simpa using h) (by decide) (by decide) (List.mem_cons_self : '%' ∈ '%' :: s)

/-! Targets and their parts. -/

theorem trim_cons {c : Char} (hc : isWhitespace c = false) (s : Text) :
    trim (c :: s) = c :: trimEnd s := by
  rw [trim,trimStart_of_solid hc]
  have happ := trimEnd_append [c] s
  rw [List.singleton_append] at happ
  rw [happ]
  split
  · rename_i h
    rw [h,trimEnd_of_word (by simpa [Tight] using hc)]
  · rfl

theorem stripPrefix_cons (c : Char) (s : Text) : stripPrefix [c] (c :: s) = some s := by
  simp [stripPrefix]

theorem stripPrefix_cons_of_ne {c d : Char} (h : c ≠ d) (s : Text) :
    stripPrefix [d] (c :: s) = none := by
  simp [stripPrefix,Ne.symm h]

theorem paneSelector_percent (s : Text) : paneSelector ('%' :: s) = trimEnd s := by
  rw [paneSelector,trim_cons (by decide)]
  simp only [stripPrefix_cons]

theorem windowSelector_percent (s : Text) : windowSelector ('%' :: s) = [] := by
  rw [windowSelector,trim_cons (by decide)]
  exact if_pos (.inl (by simp))

theorem selectors_dotted {c : Char} {a p : Text} (hc : isWhitespace c = false) (hp : c ≠ '%')
    (hpane : c ≠ 'p') (hu : isUUIDish p = true) :
    trim (c :: a ++ '.' :: '%' :: p) = c :: a ++ '.' :: '%' :: p ∧
      paneSelector (c :: a ++ '.' :: '%' :: p) = '%' :: p ∧
      windowSelector (c :: a ++ '.' :: '%' :: p) = c :: a := by
  have hend : trimEnd ('.' :: '%' :: p) = '.' :: '%' :: p := by
    refine trimEnd_of_word (fun d hd => ?_)
    rcases List.mem_cons.mp hd with rfl | hd
    · decide
    rcases List.mem_cons.mp hd with rfl | hd
    · decide
    · exact tight_uuid hu d hd
  have htrim : trim (c :: a ++ '.' :: '%' :: p) = c :: a ++ '.' :: '%' :: p := by
    rw [List.cons_append,trim_cons hc,trimEnd_append_solid a (by rw [hend]; simp),hend]
  have hsplit : splitLast '.' (c :: a ++ '.' :: '%' :: p) = some (c :: a,'%' :: p) := by
    refine splitLast_append (fun hm => ?_) (c :: a)
    rcases List.mem_cons.mp hm with hm | hm
    · exact absurd hm (by decide)
    · exact notMem_uuid hu (by decide) (by decide) hm
  have hno : "pane:".toList.isPrefixOf (c :: a ++ '.' :: '%' :: p) = false := by
    simp [List.isPrefixOf,Ne.symm hpane]
  refine ⟨htrim,?_,?_⟩
  · rw [paneSelector,htrim]
    simp only [hsplit,hno]
    rw [List.cons_append,stripPrefix_cons_of_ne hp]
    rfl
  · rw [windowSelector,htrim]
    simp only [hsplit,hno]
    exact if_neg (by simp [Ne.symm hp])

/-! Workspaces. -/

/-- A token that is listed for a workspace, or is its UUID. -/
def Names (items : List WorkspaceItem) (w token : Text) : Prop :=
  token ≠ [] ∧ token ≠ "current".toList ∧
    if isUUIDish token then token = w else namedWorkspace items token = some w

theorem names_uuid {w : Text} (h : isUUIDish w = true) (items : List WorkspaceItem) :
    Names items w w :=
  ⟨uuid_ne_nil h,uuid_ne_current h,by simp [h]⟩

theorem resolveWorkspaceId_of_names {h : Host} {items : List WorkspaceItem} {w token : Text}
    (hl : h.workspaceList = .ok items) (hn : Names items w token) (env : Env) :
    resolveWorkspaceId h env token = .ok w := by
  obtain ⟨hnil,hcur,hw⟩ := hn
  rw [resolveWorkspaceId,if_neg (not_or.mpr ⟨hnil,hcur⟩)]
  split at hw
  · rename_i hu
    rw [if_pos hu,hw]
  · rename_i hu
    rw [if_neg hu,lookupWorkspaceId,hl]
    simp only [hw]

def callerIn (u : Text) : Env := ⟨u,[],[]⟩

def listing (items : List WorkspaceItem) (panes : Text → Except Text (List PaneItem)) : Host :=
  ⟨.ok items,.error [],.error [],panes,fun _ => .error [],fun _ => .error [],fun _ _ => .error []⟩

theorem defaultWorkspaceId_callerIn {u : Text} (hu : isUUIDish u = true) (h : Host) :
    defaultWorkspaceId h (callerIn u) = .ok u := by
  have hc : callerWorkspaceHandle (callerIn u) = u := trim_of_word (tight_uuid hu)
  simp only [defaultWorkspaceId,hc]
  rw [if_pos (uuid_ne_nil hu),if_pos hu]

theorem resolveWorkspaceTarget_nil_callerIn {u : Text} (hu : isUUIDish u = true) (h : Host) :
    resolveWorkspaceTarget h (callerIn u) [] = .ok u := by
  have hc : callerWorkspaceHandle (callerIn u) = u := trim_of_word (tight_uuid hu)
  have hid : resolveWorkspaceId h (callerIn u) u = .ok u := by
    rw [resolveWorkspaceId,if_neg (not_or.mpr ⟨uuid_ne_nil hu,uuid_ne_current hu⟩),if_pos hu]
  have hnil : trim [] = [] := rfl
  simp only [resolveWorkspaceTarget,hnil,hc,if_true]
  rw [if_pos (uuid_ne_nil hu),hid]

def otherUuid (w : Text) : Text :=
  let u := "00000000-0000-4000-8000-000000000000".toList
  if w = u then "00000000-0000-4000-8000-000000000001".toList else u

theorem otherUuid_spec (w : Text) : isUUIDish (otherUuid w) = true ∧ otherUuid w ≠ w := by
  rw [otherUuid]
  split
  · rename_i hw
    exact ⟨by decide +kernel,by rw [hw]; decide +kernel⟩
  · rename_i hw
    exact ⟨by decide +kernel,Ne.symm hw⟩

/-- For every host and every caller, a token stands for what it names. -/
theorem resolveWorkspaceId_iff (items : List WorkspaceItem)
    (panes : Text → Except Text (List PaneItem)) (w token : Text) :
    (∀ (h : Host), h.workspaceList = .ok items → h.paneList = panes → ∀ env,
      resolveWorkspaceId h env token = .ok w) ↔ Names items w token := by
  refine ⟨fun h => ?_,fun hn h hl _ env => resolveWorkspaceId_of_names hl hn env⟩
  obtain ⟨hu,hne⟩ := otherUuid_spec w
  have hcall := h (listing items panes) rfl rfl (callerIn (otherUuid w))
  rw [resolveWorkspaceId] at hcall
  split at hcall
  · rw [defaultWorkspaceId_callerIn hu] at hcall
    exact absurd (Except.ok.inj hcall) hne
  · rename_i hdef
    refine ⟨fun he => hdef (.inl he),fun he => hdef (.inr he),?_⟩
    split at hcall
    · rename_i ht
      rw [if_pos ht]
      exact Except.ok.inj hcall
    · rename_i ht
      rw [if_neg ht]
      simp only [lookupWorkspaceId,listing] at hcall
      split at hcall
      · rename_i id hid
        rw [hid,Except.ok.inj hcall]
      · cases hcall

theorem resolveWorkspaceTarget_eq {h : Host} {env : Env} {c : Char} {a : Text}
    (hc : isWhitespace c = false) (hbang : c ≠ '!') (hcaret : c ≠ '^') (hdash : c ≠ '-') :
    resolveWorkspaceTarget h env (c :: a) =
      resolveWorkspaceId h env (windowToken (trim (c :: a))) := by
  have htrim := trim_cons hc a
  simp only [resolveWorkspaceTarget,htrim]
  rw [if_neg (by simp),if_neg (by simp [hbang,hcaret,hdash])]

/-! Panes. -/

variable {h : Host} {env : Env} {w p sel win raw : Text}

theorem canonicalPaneId_uuid (hu : isUUIDish p = true) (ws : Text) :
    canonicalPaneId h p ws = .ok p := if_pos hu

theorem canonicalPaneId_ne_nil (hsel : sel ≠ []) (hc : canonicalPaneId h sel w = .ok p) :
    p ≠ [] := by
  rw [canonicalPaneId] at hc
  split at hc
  · cases hc
    exact hsel
  · cases hl : h.paneList w with
    | error e =>
      rw [hl] at hc
      cases hc
    | ok panes =>
      rw [hl] at hc
      simp only [call,bind,Except.bind,handledPane] at hc
      split at hc
      · rename_i id hid
        cases hc
        obtain ⟨x,hx,rfl⟩ := Option.map_eq_some_iff.mp hid
        have hfound := List.find?_some hx
        simp only [decide_eq_true_eq] at hfound
        rcases hfound with hr | hr
        · exact hr.2
        · rwa [hr]
      · cases hc

theorem bind_eq_ok {α β : Type} {x : Result α} {f : α → Result β} {b : β} :
    (x >>= f) = .ok b ↔ ∃ a, x = .ok a ∧ f a = .ok b := by
  constructor
  · intro h
    cases x with
    | error e => cases h
    | ok a => exact ⟨a,rfl,h⟩
  · rintro ⟨a,rfl,hf⟩
    exact hf

/-- The workspace of a resolved target is the one of its window. -/
theorem paneWorkspace_of_resolved (hr : resolvePaneTarget h env raw = .ok (w,p)) :
    paneWorkspace h env (paneSelector (trim raw)) (windowSelector (trim raw)) = .ok w := by
  obtain ⟨ws,hws,hr⟩ := bind_eq_ok.mp hr
  obtain ⟨id,-,hr⟩ := bind_eq_ok.mp hr
  obtain ⟨id',-,hr⟩ := bind_eq_ok.mp hr
  cases hr
  exact hws

theorem resolvePaneTarget_iff (hsel : sel ≠ []) (hp : paneSelector (trim raw) = sel)
    (hw : windowSelector (trim raw) = win) :
    resolvePaneTarget h env raw = .ok (w,p) ↔
      paneWorkspace h env sel win = .ok w ∧ canonicalPaneId h sel w = .ok p := by
  subst hp hw
  constructor
  · intro hr
    obtain ⟨ws,hws,hr⟩ := bind_eq_ok.mp hr
    obtain ⟨id,hid,hr⟩ := bind_eq_ok.mp hr
    obtain ⟨id',hid',hr⟩ := bind_eq_ok.mp hr
    cases hr
    rw [selectedPane,if_pos hsel] at hid
    rw [orFocused,if_neg (canonicalPaneId_ne_nil hsel hid)] at hid'
    cases hid'
    exact ⟨hws,hid⟩
  · rintro ⟨hws,hid⟩
    refine bind_eq_ok.mpr ⟨w,hws,bind_eq_ok.mpr ⟨p,?_,bind_eq_ok.mpr ⟨p,?_,rfl⟩⟩⟩
    · rw [selectedPane,if_pos hsel,hid]
    · rw [orFocused,if_neg (canonicalPaneId_ne_nil hsel hid)]

/-- The workspace of a handle is the first one that lists it. -/
theorem workspaceIdForPaneHandle_listed {h : Host} {items : List WorkspaceItem}
    {panes : Text → Except Text (List PaneItem)} {q : Text} (hl : h.workspaceList = .ok items)
    (hp : h.paneList = panes) (hu : isUUIDish q = true) :
    workspaceIdForPaneHandle h q = match items.find? (listsPane panes q) with
      | some w => .ok w.id
      | none => fail "pane not found in any workspace".toList := by
  simp only [workspaceIdForPaneHandle,hu,hl,hp,call,bind,Except.bind]
  rfl

/-- `%p` goes to the first workspace that lists the pane. -/
theorem percent_iff (items : List WorkspaceItem) (panes : Text → Except Text (List PaneItem))
    (w p : Text) :
    (∀ (h : Host), h.workspaceList = .ok items → h.paneList = panes → ∀ env,
      resolvePaneTarget h env ('%' :: p) = .ok (w,p)) ↔
      isUUIDish p = true ∧
        (items.find? (listsPane panes p)).map WorkspaceItem.id = some w := by
  have hwin : windowSelector (trim ('%' :: p)) = [] := by
    rw [trim_cons (by decide)]
    exact windowSelector_percent _
  have hsel : paneSelector (trim ('%' :: p)) = trimEnd p := by
    rw [trim_cons (by decide),paneSelector_percent,trimEnd_trimEnd]
  constructor
  · intro hall
    obtain ⟨hu,hne⟩ := otherUuid_spec w
    have hr := hall (listing items panes) rfl rfl (callerIn (otherUuid w))
    have hdef := resolveWorkspaceTarget_nil_callerIn hu (listing items panes)
    have hws := paneWorkspace_of_resolved hr
    rw [hwin,hsel,paneWorkspace,if_neg (not_not.mpr rfl),hdef] at hws
    have hother : ¬ Except.ok (otherUuid w) = (Except.ok w : Result Text) :=
      fun he => hne (Except.ok.inj he)
    cases hp : isUUIDish (trimEnd p) with
    | false =>
      have hno : workspaceIdForPaneHandle (listing items panes) (trimEnd p) =
          fail "not a UUID".toList := by rw [workspaceIdForPaneHandle,hp]; rfl
      rw [hno] at hws
      exact absurd (by simpa [fail] using hws) hne
    | true =>
      have hnil := uuid_ne_nil hp
      have hpane := ((resolvePaneTarget_iff hnil hsel hwin).mp hr).2
      rw [canonicalPaneId_uuid hp] at hpane
      have hpp : trimEnd p = p := Except.ok.inj hpane
      rw [hpp] at hp hws hnil
      rw [if_pos hnil,workspaceIdForPaneHandle_listed rfl
        (show (listing items panes).paneList = panes from rfl) hp] at hws
      refine ⟨hp,?_⟩
      cases hf : items.find? (listsPane panes p) with
      | none =>
        rw [hf] at hws
        exact absurd hws hother
      | some x =>
        rw [hf] at hws
        exact congrArg some (Except.ok.inj hws)
  · rintro ⟨hu,hfound⟩ h hl hp env
    have hpp : trimEnd p = p := trimEnd_of_word (tight_uuid hu)
    rw [hpp] at hsel
    refine (resolvePaneTarget_iff (uuid_ne_nil hu) hsel hwin).mpr ⟨?_,canonicalPaneId_uuid hu w⟩
    obtain ⟨x,hx,rfl⟩ := Option.map_eq_some_iff.mp hfound
    rw [paneWorkspace,if_neg (not_not.mpr rfl),if_pos (uuid_ne_nil hu),
      workspaceIdForPaneHandle_listed hl hp hu,hx]

/-- `a.%p` goes to the window `a` if it lists the pane under `%p`. -/
theorem dotted_iff {c : Char} {a : Text} (hc : isWhitespace c = false) (hp : c ≠ '%')
    (hpane : c ≠ 'p') (hu : isUUIDish p = true) :
    resolvePaneTarget h env (c :: a ++ '.' :: '%' :: p) = .ok (w,p) ↔
      resolveWorkspaceTarget h env (c :: a) = .ok w ∧
        ∃ l, h.paneList w = .ok l ∧ handledPane l ('%' :: p) = some p := by
  obtain ⟨htrim,hsel,hwin⟩ := selectors_dotted hc hp hpane hu (a := a)
  have hiff := @resolvePaneTarget_iff h env w p ('%' :: p) (c :: a)
    (c :: a ++ '.' :: '%' :: p) (by simp) (by rw [htrim,hsel]) (by rw [htrim,hwin])
  rw [hiff,paneWorkspace,if_pos (by simp),canonicalPaneId,if_neg (by simp [not_uuid_percent]),
    bind_eq_ok]
  refine and_congr_right (fun _ => ⟨?_,?_⟩)
  · rintro ⟨l,hl,hf⟩
    refine ⟨l,?_,?_⟩
    · cases hpl : h.paneList w with
      | error e =>
        rw [hpl] at hl
        cases hl
      | ok l' =>
        rw [hpl] at hl
        cases hl
        rfl
    · split at hf
      · rename_i id hid
        cases hf
        exact hid
      · cases hf
  · rintro ⟨l,hl,hf⟩
    refine ⟨l,by rw [hl]; rfl,?_⟩
    rw [hf]

/-! The round trip. -/

/-- `#{pane_id}`, `#{window_id}.#{pane_id}` and `#{session_name}:#{window_id}.#{pane_id}`. -/
def FormatContext.paneTargets (ctx : FormatContext) : List Text :=
  match ctx.paneId with
  | some pane => [pane,ctx.windowId ++ '.' :: pane,
      ctx.sessionName ++ ':' :: (ctx.windowId ++ '.' :: pane)]
  | none => []

/-- The targets that a context prints for window `w` and pane `p` lead back to them. -/
structure RoundTrip (h : Host) (env : Env) (ctx : FormatContext) (w p : Text) : Prop where
  panes : ∀ t ∈ ctx.paneTargets, resolvePaneTarget h env t = .ok (w,p)
  window : resolveWorkspaceTarget h env ctx.windowId = .ok w

/-- The pane has a UUID and belongs to the first workspace that lists it, which also lists it
under `%` and its id; the workspace has a UUID or is listed under what is left of the targets. -/
structure Resolvable (items : List WorkspaceItem) (panes : Text → Except Text (List PaneItem))
    (w p : Text) : Prop where
  uuid : isUUIDish p = true
  owner : (items.find? (listsPane panes p)).map WorkspaceItem.id = some w
  percent : ∃ l, panes w = .ok l ∧ handledPane l ('%' :: p) = some p
  window : Names items w (windowToken (trim ('@' :: w)))
  session : Names items w (windowToken (trim ("limux".toList ++ ':' :: '@' :: w)))

theorem limux_toList : "limux".toList = ['l','i','m','u','x'] := by decide

theorem windowToken_uuid (hu : isUUIDish w = true) :
    windowToken (trim ('@' :: w)) = w ∧ windowToken (trim ("limux".toList ++ ':' :: '@' :: w)) = w := by
  have hdot : '.' ∉ w := notMem_uuid hu (by decide) (by decide)
  have hcolon : ':' ∉ w := notMem_uuid hu (by decide) (by decide)
  have htight := tight_uuid hu
  have hat : Tight ('@' :: w) := fun c hc => by
    rcases List.mem_cons.mp hc with rfl | hc
    · decide
    · exact htight c hc
  have hsession : Tight ("limux".toList ++ ':' :: '@' :: w) := fun c hc => by
    have hname : Tight ['l','i','m','u','x'] := by decide
    rcases List.mem_append.mp hc with hc | hc
    · rw [limux_toList] at hc
      exact hname c hc
    · rcases List.mem_cons.mp hc with rfl | hc
      · decide
      · exact hat c hc
  have hcut : splitLast ':' ("limux".toList ++ ':' :: '@' :: w) = some ("limux".toList,'@' :: w) :=
    splitLast_append (by simpa using hcolon) "limux".toList
  have hno : '.' ∉ "limux".toList ++ ':' :: '@' :: w := by
    rw [limux_toList]
    simpa using hdot
  refine ⟨?_,?_⟩
  · have hwhole : splitLast '.' ('@' :: w) = none := splitLast_of_notMem (by simpa using hdot)
    have hone : splitLast ':' ('@' :: w) = none := splitLast_of_notMem (by simpa using hcolon)
    rw [trim_of_word hat,windowToken]
    simp only [hwhole,hone]
    rw [stripPrefix_cons]
    rfl
  · have hwhole : splitLast '.' ("limux".toList ++ ':' :: '@' :: w) = none :=
      splitLast_of_notMem hno
    rw [trim_of_word hsession,windowToken]
    simp only [hwhole,hcut]
    rw [if_pos (by simp),stripPrefix_cons]
    rfl

/-- For a workspace with a UUID the pane decides. -/
theorem Resolvable.of_uuid {items : List WorkspaceItem}
    {panes : Text → Except Text (List PaneItem)} (hw : isUUIDish w = true)
    (hp : isUUIDish p = true)
    (howner : (items.find? (listsPane panes p)).map WorkspaceItem.id = some w)
    (hpercent : ∃ l, panes w = .ok l ∧ handledPane l ('%' :: p) = some p) :
    Resolvable items panes w p := by
  obtain ⟨hwindow,hsession⟩ := windowToken_uuid hw
  refine ⟨hp,howner,hpercent,?_,?_⟩
  · rw [hwindow]
    exact names_uuid hw items
  · rw [hsession]
    exact names_uuid hw items

theorem paneTargets_of_prints {ctx : FormatContext} (hctx : ctx.Prints w p) :
    ctx.paneTargets = ['%' :: p,'@' :: w ++ '.' :: '%' :: p,
      'l' :: (['i','m','u','x',':','@'] ++ w) ++ '.' :: '%' :: p] := by
  rw [FormatContext.paneTargets,hctx.pane]
  simp only [hctx.window,hctx.session,limux_toList]
  rfl

/-- Whatever else the host answers, and whoever calls: the targets printed for a window and a
pane lead back to them exactly when they are resolvable. -/
theorem targets_round_trip_iff (items : List WorkspaceItem)
    (panes : Text → Except Text (List PaneItem)) (w p : Text) :
    (∀ (h : Host), h.workspaceList = .ok items → h.paneList = panes → ∀ (env : Env)
      (ctx : FormatContext), ctx.Prints w p → RoundTrip h env ctx w p) ↔
      Resolvable items panes w p := by
  have hat : ∀ h env, resolveWorkspaceTarget h env ('@' :: w) =
      resolveWorkspaceId h env (windowToken (trim ('@' :: w))) := fun h env =>
    resolveWorkspaceTarget_eq (by decide) (by decide) (by decide) (by decide)
  have hsession : ∀ h env, resolveWorkspaceTarget h env ('l' :: (['i','m','u','x',':','@'] ++ w)) =
      resolveWorkspaceId h env (windowToken (trim ("limux".toList ++ ':' :: '@' :: w))) :=
    fun h env => by
      rw [limux_toList]
      exact resolveWorkspaceTarget_eq (by decide) (by decide) (by decide) (by decide)
  constructor
  · intro hall
    have hctx : ({ FormatContext.start w with paneId := some ('%' :: p) } : FormatContext).Prints
        w p := ⟨rfl,rfl,rfl⟩
    have htargets : ∀ (h : Host), h.workspaceList = .ok items → h.paneList = panes → ∀ env,
        resolvePaneTarget h env ('%' :: p) = .ok (w,p) ∧
          resolvePaneTarget h env ('@' :: w ++ '.' :: '%' :: p) = .ok (w,p) ∧
          resolvePaneTarget h env ('l' :: (['i','m','u','x',':','@'] ++ w) ++ '.' :: '%' :: p) =
            .ok (w,p) := fun h hl hp env => by
      have ht := (hall h hl hp env _ hctx).panes
      rw [paneTargets_of_prints hctx] at ht
      exact ⟨ht _ (by simp),ht _ (by simp),ht _ (by simp)⟩
    obtain ⟨hu,howner⟩ := (percent_iff items panes w p).mp
      (fun h hl hp env => (htargets h hl hp env).1)
    have hdotted := (dotted_iff (by decide) (by decide) (by decide) hu).mp
      (htargets (listing items panes) rfl rfl (callerIn [])).2.1
    refine ⟨hu,howner,hdotted.2,?_,?_⟩
    · refine (resolveWorkspaceId_iff items panes w _).mp (fun h hl hp env => ?_)
      rw [← hat]
      exact (hall h hl hp env _ hctx).window
    · refine (resolveWorkspaceId_iff items panes w _).mp (fun h hl hp env => ?_)
      rw [← hsession]
      exact ((dotted_iff (by decide) (by decide) (by decide) hu).mp
        (htargets h hl hp env).2.2).1
  · intro hr h hl hp env ctx hctx
    have hwindow : resolveWorkspaceTarget h env ('@' :: w) = .ok w := by
      rw [hat]
      exact resolveWorkspaceId_of_names hl hr.window env
    have hlong : resolveWorkspaceTarget h env ('l' :: (['i','m','u','x',':','@'] ++ w)) = .ok w := by
      rw [hsession]
      exact resolveWorkspaceId_of_names hl hr.session env
    have hlisted : ∃ l, h.paneList w = .ok l ∧ handledPane l ('%' :: p) = some p := by
      rw [hp]
      exact hr.percent
    refine ⟨fun t ht => ?_,by rw [hctx.window,hwindow]⟩
    rw [paneTargets_of_prints hctx] at ht
    rcases List.mem_cons.mp ht with rfl | ht
    · exact (percent_iff items panes w p).mpr ⟨hr.uuid,hr.owner⟩ h hl hp env
    rcases List.mem_cons.mp ht with rfl | ht
    · exact (dotted_iff (by decide) (by decide) (by decide) hr.uuid).mpr ⟨hwindow,hlisted⟩
    · obtain rfl := List.mem_singleton.mp ht
      exact (dotted_iff (by decide) (by decide) (by decide) hr.uuid).mpr ⟨hlong,hlisted⟩

/-! One workspace with one pane, under the ids that the host gives out. -/

def workspaceUuid : Text := "11111111-1111-4111-8111-111111111111".toList

def paneUuid : Text := "33333333-3333-4333-8333-333333333333".toList

def demo : Host :=
  { workspaceList := .ok [⟨workspaceUuid,"workspace:1".toList,"demo".toList,1,1⟩]
    workspaceCurrent := .ok (some workspaceUuid)
    workspaceLast := .ok none
    paneList := fun _ => .ok [⟨paneUuid,"pane:1".toList,1⟩]
    surfaceCurrent := fun _ => .ok ⟨some paneUuid,some "pane:1".toList,none⟩
    surfaceList := fun _ => .ok []
    paneSurfaces := fun _ _ => .ok [] }

/-- A host that gave the pane the reference `%` with its id would get its targets back. -/
example : Resolvable [⟨workspaceUuid,"workspace:1".toList,"demo".toList,1,1⟩]
    (fun _ => .ok [⟨paneUuid,'%' :: paneUuid,1⟩]) workspaceUuid paneUuid :=
  .of_uuid (by decide +kernel) (by decide +kernel) (by decide +kernel)
    ⟨_,rfl,by decide +kernel⟩

/-- The shim does not find the pane whose target it has just printed: behind a window it looks
for the pane with the `%`. -/
theorem printed_target_not_found : ∃ ctx : FormatContext,
    formatContext demo ⟨[],[],[]⟩ workspaceUuid paneUuid [] = .ok ctx ∧
      ctx.Prints workspaceUuid paneUuid ∧
      ∃ t ∈ ctx.paneTargets, resolvePaneTarget demo ⟨[],[],[]⟩ t =
        fail ("pane not found: %".toList ++ paneUuid) := by
  have hprinted : (formatContext demo ⟨[],[],[]⟩ workspaceUuid paneUuid []).toOption.map
      (fun c => (c.windowUuid,c.paneUuid)) = some (workspaceUuid,some paneUuid) := by decide +kernel
  obtain ⟨ctx,hctx,he⟩ := Option.map_eq_some_iff.mp hprinted
  obtain ⟨hw,hp⟩ := Prod.mk.inj he
  have hok : formatContext demo ⟨[],[],[]⟩ workspaceUuid paneUuid [] = .ok ctx := by
    revert hctx
    cases formatContext demo ⟨[],[],[]⟩ workspaceUuid paneUuid [] <;> simp [Except.toOption]
  have hprints : ctx.Prints workspaceUuid paneUuid := by
    have h := formatContext_prints hok hp
    rwa [hw] at h
  refine ⟨ctx,hok,hprints,'@' :: workspaceUuid ++ '.' :: '%' :: paneUuid,?_,by decide +kernel⟩
  rw [paneTargets_of_prints hprints]
  simp

end Limux.Tmux
