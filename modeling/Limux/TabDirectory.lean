import Limux.TabEdits
import Limux.TabClose

/-! The directory of a terminal tab: what `set_surface_title` and
`set_surface_working_directory` make of it over the life of the tab. -/
namespace Limux

variable {F : Type}

/-- A report for one terminal: a title, or a directory from OSC 7 with the title the tab
shows at that moment. -/
inductive TabReport
  | title (home : Option String) (text : String)
  | directory (home : Option String) (dir shown : String)
  deriving DecidableEq, Repr

namespace TabReport

def isTitle : TabReport → Bool
  | .title _ _ => true
  | .directory _ _ _ => false

def named : TabReport → Option String
  | .title home text => extractDirectory home text
  | .directory _ _ _ => none

/-- The last OSC 7 report, with the variable HOME and the title shown then. -/
def osc7 : TabReport → Option (Option String × String × String)
  | .title _ _ => none
  | .directory home dir shown => some (home,dir,shown)

/-- The directory that the latest titles name, back to the last OSC 7 report. -/
def recent (log : List TabReport) : Option String := (log.takeWhile isTitle).findSome? named

/-- What the directory should be after the reports, the latest first: the last OSC 7 report
if it names one; after an empty one the latest title with a directory, from the title shown
then on; before the first one the latest title with a directory, or the initial value. -/
def directoryAfter (initial : Option String) (log : List TabReport) : Option String :=
  match log.findSome? osc7 with
  | some (home,dir,shown) =>
    if dir.isEmpty then (recent log).or (extractDirectory home shown) else some dir
  | none => (recent log).or initial

/-- Did the last OSC 7 report name a directory? -/
def authoritative (log : List TabReport) : Bool :=
  (log.findSome? osc7).any (fun r => !r.2.1.isEmpty)

variable {initial : Option String} {log : List TabReport} {home : Option String}

theorem osc7_title (text : String) :
    (TabReport.title home text :: log).findSome? osc7 = log.findSome? osc7 := rfl

theorem recent_title (text : String) :
    recent (.title home text :: log) = (extractDirectory home text).or (recent log) := by
  rw [recent,List.takeWhile_cons_of_pos rfl,List.findSome?_cons]
  cases h : extractDirectory home text <;> simp [named,h,recent]

theorem authoritative_directory (dir shown : String) :
    authoritative (.directory home dir shown :: log) = !dir.isEmpty := rfl

theorem directoryAfter_directory (dir shown : String) :
    directoryAfter initial (.directory home dir shown :: log) =
      if dir.isEmpty then extractDirectory home shown else some dir := rfl

/-- A title counts only while no OSC 7 report has authority. -/
theorem directoryAfter_title (text : String) :
    directoryAfter initial (.title home text :: log) =
      if authoritative log then directoryAfter initial log
      else (extractDirectory home text).or (directoryAfter initial log) := by
  simp only [directoryAfter,authoritative,osc7_title,recent_title]
  rcases Option.eq_none_or_eq_some (log.findSome? osc7) with hr | ⟨⟨home',dir,shown⟩,hr⟩
  · simp [hr,Option.or_assoc]
  · by_cases he : dir.isEmpty = true <;> simp [hr,he,Option.or_assoc]

end TabReport

/-- The tab is as the reports leave it. -/
structure Tab.Reported (initial : Option String) (log : List TabReport) (t : Tab) : Prop where
  directory : t.workingDirectory = TabReport.directoryAfter initial log
  authority : t.workingDirectoryFromOsc7 = TabReport.authoritative log

namespace Tab.Reported

variable {initial : Option String} {log : List TabReport} {t : Tab}

theorem reportTitle (h : t.Reported initial log) (home : Option String) (text : String) :
    (t.reportTitle home text).Reported initial (.title home text :: log) := by
  obtain ⟨hd,ha⟩ := h
  unfold Tab.reportTitle
  rcases hx : extractDirectory home text with _ | d
  · refine ⟨?_,ha⟩
    rw [TabReport.directoryAfter_title,hx]
    simpa using hd
  · dsimp only
    by_cases hf : t.workingDirectoryFromOsc7 = true
    · rw [if_pos hf]
      refine ⟨?_,ha⟩
      rw [TabReport.directoryAfter_title,← ha,if_pos hf]
      exact hd
    · rw [if_neg hf]
      refine ⟨?_,ha⟩
      rw [TabReport.directoryAfter_title,← ha,if_neg hf,hx]
      rfl

theorem reportDirectory (t : Tab) (home : Option String) (dir : String) :
    (t.reportDirectory home dir).Reported initial (.directory home dir t.title :: log) := by
  unfold Tab.reportDirectory
  refine ⟨?_,?_⟩
  · rw [TabReport.directoryAfter_directory]
    split <;> rfl
  · rw [TabReport.authoritative_directory]
    split
    · rename_i he
      simp [he]
    · rename_i he
      simp [he]

theorem retitle (h : t.Reported initial log) (title : String) :
    Tab.Reported initial log { t with title := title } := ⟨h.directory,h.authority⟩

end Tab.Reported

/-! Places of tabs. -/

/-- Tab `k` of pane `p`. -/
def Workspace.tabAt (ws : Workspace F) (p : PaneId) (k : ℕ) : Option Tab :=
  (ws.panes.lookup p).bind (fun pane => pane.tabs[k]?)

/-- Tab `k` of pane `p` of workspace `i`. -/
def AppWindow.tabAt (aw : AppWindow F) (i : ℕ) (p : PaneId) (k : ℕ) : Option Tab :=
  aw.workspaces[i]?.bind (fun ws => ws.tabAt p k)

/-- The tab shows the surface. -/
def AppWindow.HasTab (aw : AppWindow F) (s : SurfaceId) (t : Tab) : Prop :=
  (∃ i p k, aw.tabAt i p k = some t) ∧ t.surfaceId = some s

section Places

variable {aw : AppWindow F} {ws : Workspace F} {i j : ℕ} {p q : PaneId} {k : ℕ} {t : Tab}

theorem tabAt_eq_some : aw.tabAt i p k = some t ↔ ∃ ws pane, aw.workspaces[i]? = some ws ∧
    ws.panes.lookup p = some pane ∧ pane.tabs[k]? = some t := by
  simp only [AppWindow.tabAt,Workspace.tabAt,Option.bind_eq_some_iff]
  constructor
  · rintro ⟨ws,hi,pane,hl,hk⟩
    exact ⟨ws,pane,hi,hl,hk⟩
  · rintro ⟨ws,pane,hi,hl,hk⟩
    exact ⟨ws,hi,pane,hl,hk⟩

theorem allTabs_iff {R : Tab → Prop} :
    aw.AllTabs (fun _ => R) ↔ ∀ i p k t, aw.tabAt i p k = some t → R t := by
  constructor
  · intro h i p k t ht
    obtain ⟨ws,pane,hi,hl,hk⟩ := tabAt_eq_some.mp ht
    exact h ws (List.mem_of_getElem? hi) p pane hl t (List.mem_of_getElem? hk)
  · intro h ws hws p pane hl t ht
    obtain ⟨i,hi⟩ := List.mem_iff_getElem?.mp hws
    obtain ⟨k,hk⟩ := List.mem_iff_getElem?.mp ht
    exact h i p k t (tabAt_eq_some.mpr ⟨ws,pane,hi,hl,hk⟩)

/-- In a reachable window the tabs of a surface are one tab. -/
theorem WindowInv.hasTab_unique (h : WindowInv aw) {s : SurfaceId} {t' : Tab}
    (h₁ : aw.HasTab s t) (h₂ : aw.HasTab s t') : t = t' := by
  obtain ⟨⟨i,p,k,hat⟩,hs⟩ := h₁
  obtain ⟨⟨j,q,l,hat'⟩,hs'⟩ := h₂
  obtain ⟨ws,pane,hi,hl,hk⟩ := tabAt_eq_some.mp hat
  obtain ⟨ws',pane',hj,hl',hk'⟩ := tabAt_eq_some.mp hat'
  rw [surfaceId_eq_some] at hs hs'
  have hx : TabDragIdentity.surface s ∈ pane.identities :=
    hs ▸ List.mem_map_of_mem (List.mem_of_getElem? hk)
  have hx' : TabDragIdentity.surface s ∈ pane'.identities :=
    hs' ▸ List.mem_map_of_mem (List.mem_of_getElem? hk')
  obtain rfl := owner_unique h.identities_nodup hi hj (mem_workspace_identities hl hx)
    (mem_workspace_identities hl' hx')
  obtain rfl := Option.some.inj (hi.symm.trans hj)
  obtain rfl := pane_owner_unique (h.pane_identities_nodup hi) hl hl' hx hx'
  obtain rfl := Option.some.inj (hl.symm.trans hl')
  have hn : pane.identities.Nodup := by
    have hp := (paneIdentities_erase hl).nodup_iff.mp (h.pane_identities_nodup hi)
    exact (List.nodup_append.mp hp).1
  have hkl : pane.identities[k]? = pane.identities[l]? := by
    rw [Pane.identities,List.getElem?_map,List.getElem?_map,hk,hk',Option.map_some,
      Option.map_some,hs,hs']
  have hlt : k < pane.identities.length := by
    rw [Pane.identities,List.length_map]
    exact (List.getElem?_eq_some_iff.mp hk).1
  obtain rfl := (List.getElem?_inj hlt hn).mp hkl
  exact Option.some.inj (hk.symm.trans hk')

theorem getElem?_updateWhere (pane : Pane) (f : Tab → Bool) (g : Tab → Tab) (k : ℕ) :
    (pane.updateWhere f g).tabs[k]? =
      if pane.tabs.findIdx? f = some k then pane.tabs[k]?.map g else pane.tabs[k]? := by
  unfold Pane.updateWhere
  split
  · rename_i idx hidx
    by_cases hk : idx = k
    · simp [hidx,hk]
    · simp [hidx,hk]
  · rename_i hidx
    simp [hidx]

theorem WindowInv.find_tab (h : WindowInv aw) {s : SurfaceId} (hi : aw.workspaces[i]? = some ws)
    {pane : Pane} (hl : ws.panes.lookup p = some pane) (hk : pane.tabs[k]? = some t)
    (hs : t.surfaceId = some s) : aw.findWorkspaceWithSurface s = some (i,ws,p) ∧
      pane.tabs.findIdx? (fun t => t.surfaceId = some s) = some k := by
  rw [surfaceId_eq_some] at hs
  have hx : TabDragIdentity.surface s ∈ pane.identities :=
    hs ▸ List.mem_map_of_mem (List.mem_of_getElem? hk)
  have hn : pane.identities.Nodup := by
    have hp := (paneIdentities_erase hl).nodup_iff.mp (h.pane_identities_nodup hi)
    exact (List.nodup_append.mp hp).1
  refine ⟨h.findWs_owner hi hl hx (fun t => ?_),findIdx?_tab hn hk (fun t => ?_)⟩
  · rw [decide_eq_true_eq,surfaceId_eq_some]
  · rw [decide_eq_true_eq,surfaceId_eq_some,hs]

theorem WindowInv.find_place (h : WindowInv aw) {s : SurfaceId}
    (hf : aw.findWorkspaceWithSurface s = some (i,ws,p)) (ht : aw.tabAt j q k = some t)
    (hs : t.surfaceId = some s) : i = j ∧ p = q := by
  obtain ⟨ws',pane,hj,hl,hk⟩ := tabAt_eq_some.mp ht
  have he := hf.symm.trans (h.find_tab hj hl hk hs).1
  simp only [Option.some.injEq,Prod.mk.injEq] at he
  exact ⟨he.1,he.2.2⟩

theorem tabAt_modifyPane_ne (aw : AppWindow F) {u : Workspace F → Workspace F}
    (hu : ∀ ws, (u ws).panes = ws.panes) (f : Pane → Pane) (k : ℕ) (hne : ¬ (i = j ∧ p = q)) :
    (aw.modifyWs i (fun ws => u (ws.modifyPane p f))).tabAt j q k = aw.tabAt j q k := by
  by_cases hij : i = j
  · have hpq : ¬ q = p := fun hpq => hne ⟨hij,hpq.symm⟩
    cases hw : aw.workspaces[j]? <;>
      simp [AppWindow.tabAt,AppWindow.modifyWs,hij,hw,Workspace.tabAt,hu,Workspace.modifyPane,
        HashMap.lookup_modify,hpq]
  · simp [AppWindow.tabAt,AppWindow.modifyWs,hij]

theorem tabAt_modifyPane (hi : aw.workspaces[i]? = some ws) {u : Workspace F → Workspace F}
    (hu : ∀ ws, (u ws).panes = ws.panes) (f : Pane → Pane) (k : ℕ) :
    (aw.modifyWs i (fun ws => u (ws.modifyPane p f))).tabAt i p k =
      (ws.panes.lookup p).bind (fun pane => (f pane).tabs[k]?) := by
  cases hl : ws.panes.lookup p <;>
    simp [AppWindow.tabAt,AppWindow.modifyWs,hi,Workspace.tabAt,hu,Workspace.modifyPane,
      HashMap.lookup_modify,hl]

theorem WindowInv.tabAt_report (h : WindowInv aw) {s : SurfaceId}
    (hf : aw.findWorkspaceWithSurface s = some (i,ws,p)) {u : Workspace F → Workspace F}
    (hu : ∀ ws, (u ws).panes = ws.panes) (g : Tab → Tab) (j : ℕ) (q : PaneId) (k : ℕ) :
    (aw.modifyWs i (fun ws => u (ws.modifyPane p (fun pane =>
      pane.updateWhere (fun t => t.surfaceId = some s) g)))).tabAt j q k =
    (aw.tabAt j q k).map (fun t => if t.surfaceId = some s then g t else t) := by
  have hi := (findWs_spec hf).1
  by_cases hat : i = j ∧ p = q
  · obtain ⟨rfl,rfl⟩ := hat
    rw [tabAt_modifyPane hi hu]
    rcases hl : ws.panes.lookup p with _ | pane
    · simp [AppWindow.tabAt,Workspace.tabAt,hi,hl]
    · simp only [AppWindow.tabAt,Workspace.tabAt,hi,hl,Option.bind_some,getElem?_updateWhere]
      rcases hk : pane.tabs[k]? with _ | t
      · simp
      · by_cases hs : t.surfaceId = some s
        · rw [if_pos (h.find_tab hi hl hk hs).2,Option.map_some,Option.map_some,if_pos hs]
        · have hidx : ¬ pane.tabs.findIdx? (fun t => decide (t.surfaceId = some s)) = some k := by
            intro hidx
            obtain ⟨hlt,hft,-⟩ := List.findIdx?_eq_some_iff_getElem.mp hidx
            rw [List.getElem?_eq_getElem hlt,Option.some.injEq] at hk
            exact hs (hk ▸ of_decide_eq_true hft)
          rw [if_neg hidx,Option.map_some,if_neg hs]
  · rw [tabAt_modifyPane_ne aw hu _ k hat]
    rcases ht : aw.tabAt j q k with _ | t
    · rfl
    · rw [Option.map_some,if_neg (fun hs => hat (h.find_place hf ht hs))]

theorem WindowInv.tabAt_of_none (h : WindowInv aw) {s : SurfaceId}
    (hf : aw.findWorkspaceWithSurface s = none) (g : Tab → Tab) (j : ℕ) (q : PaneId) (k : ℕ) :
    aw.tabAt j q k = (aw.tabAt j q k).map (fun t => if t.surfaceId = some s then g t else t) := by
  rcases ht : aw.tabAt j q k with _ | t
  · rfl
  · rw [Option.map_some,if_neg]
    intro hs
    obtain ⟨ws',pane,hj,hl,hk⟩ := tabAt_eq_some.mp ht
    have he := hf.symm.trans (h.find_tab hj hl hk hs).1
    cases he

theorem WindowInv.tabAt_setSurfaceTitle (h : WindowInv aw) (home : Option String) (s : SurfaceId)
    (title : String) (j : ℕ) (q : PaneId) (k : ℕ) :
    (aw.setSurfaceTitle home s title).tabAt j q k = (aw.tabAt j q k).map (fun t =>
      if t.surfaceId = some s then t.reportTitle home title else t) := by
  unfold AppWindow.setSurfaceTitle
  split
  · rename_i hf
    exact h.tabAt_of_none hf _ j q k
  · rename_i i ws p hf
    exact h.tabAt_report hf (fun ws => (updateTitleFromFocused_panes ws).1) _ j q k

theorem WindowInv.tabAt_setSurfaceWorkingDirectory (h : WindowInv aw) (home : Option String)
    (s : SurfaceId) (dir : String) (j : ℕ) (q : PaneId) (k : ℕ) :
    (aw.setSurfaceWorkingDirectory home s dir).tabAt j q k = (aw.tabAt j q k).map (fun t =>
      if t.surfaceId = some s then t.reportDirectory home dir else t) := by
  unfold AppWindow.setSurfaceWorkingDirectory
  split
  · rename_i hf
    exact h.tabAt_of_none hf _ j q k
  · rename_i i ws p hf
    exact h.tabAt_report hf (u := fun ws => ws) (fun _ => rfl) _ j q k

end Places

/-- A report for the surface. -/
def WindowOp.ReportsOn (s : SurfaceId) : WindowOp F → Prop
  | .setSurfaceTitle _ s' _ | .setSurfaceWorkingDirectory _ s' _ => s' = s
  | _ => False

section NewTabs

variable {s : SurfaceId} {aw : AppWindow F} {t : Tab} {op : WindowOp F}

theorem WindowInv.hasTab_below (h : WindowInv aw) (ht : aw.HasTab s t) :
    (TabDragIdentity.surface s).Below aw.ids := by
  obtain ⟨⟨i,p,k,hat⟩,hs⟩ := ht
  obtain ⟨ws,pane,hi,hl,hk⟩ := tabAt_eq_some.mp hat
  apply h.below
  rw [← (surfaceId_eq_some t s).mp hs]
  exact List.mem_flatMap.mpr ⟨ws,List.mem_of_getElem? hi,
    mem_workspace_identities hl (List.mem_map_of_mem (List.mem_of_getElem? hk))⟩

/-- An operation without a report for `s` can only make new tabs of `s`. -/
theorem leaves_of_not_reportsOn {R : Tab → Prop} {ids : IdCounters} (hop : ¬ op.ReportsOn s)
    (hr : ∀ t title, R t → R { t with title := title })
    (hnew : ∀ t, ¬ t.identity.Below ids → t.workingDirectoryFromOsc7 = false →
      t.surfaceId = some s → R t) : op.Leaves ids (fun t => t.surfaceId = some s → R t) := by
  refine ⟨fun t title h hs => hr t title (h hs),hnew,?_,?_⟩
  · rintro home s' text rfl t ht _ hs
    rw [Tab.surfaceId,panel_reportTitle] at hs
    exact absurd (Option.some.inj (ht.symm.trans hs)) hop
  · rintro home s' dir rfl t ht _ hs
    rw [Tab.surfaceId,panel_reportDirectory] at hs
    exact absurd (Option.some.inj (ht.symm.trans hs)) hop

end NewTabs

variable [F64Ops F]

/-- Runs in which surface `s` keeps a tab, from the window in which the tab appeared, with
the reports for `s` so far, the latest first. -/
inductive Lives (s : SurfaceId) (aw₀ : AppWindow F) : List TabReport → AppWindow F → Prop
  | start : Lives s aw₀ [] aw₀
  | title {log : List TabReport} {aw : AppWindow F} (home : Option String) (text : String) :
      Lives s aw₀ log aw → Lives s aw₀ (.title home text :: log) (aw.setSurfaceTitle home s text)
  | directory {log : List TabReport} {aw : AppWindow F} {t : Tab} (home : Option String)
      (dir : String) : Lives s aw₀ log aw → aw.HasTab s t →
      Lives s aw₀ (.directory home dir t.title :: log) (aw.setSurfaceWorkingDirectory home s dir)
  | other {log : List TabReport} {aw aw' : AppWindow F} {t : Tab} (op : WindowOp F) :
      Lives s aw₀ log aw → aw.HasTab s t → op.Targeted aw → ¬ op.ReportsOn s →
      aw.step op = some aw' → Lives s aw₀ log aw'

section Runs

variable {s : SurfaceId} {aw aw' aw₀ : AppWindow F} {t t₀ : Tab} {op : WindowOp F}
  {log : List TabReport}

/-- What holds of the tabs of `s`, whatever their title, and of new ones. -/
theorem hasTab_step {R : Tab → Prop} (hop : ¬ op.ReportsOn s)
    (hr : ∀ t title, R t → R { t with title := title })
    (hnew : ∀ t, ¬ t.identity.Below aw.ids → t.workingDirectoryFromOsc7 = false →
      t.surfaceId = some s → R t) (hR : ∀ t, aw.HasTab s t → R t)
    (hs : aw.step op = some aw') : ∀ t, aw'.HasTab s t → R t := by
  have hall : aw.AllTabs (fun _ t => t.surfaceId = some s → R t) :=
    allTabs_iff.mpr (fun i p k t hat hs => hR t ⟨⟨i,p,k,hat⟩,hs⟩)
  have hstep := hall.step (leaves_of_not_reportsOn hop hr hnew) hs
  rintro t ⟨⟨i,p,k,hat⟩,hs⟩
  exact allTabs_iff.mp hstep i p k t hat hs

/-- A report brings no surface in. -/
theorem hasTab_of_report (h : WindowInv aw) {s' : SurfaceId} (hop : op.ReportsOn s')
    (hs : aw.step op = some aw') (ht : aw'.HasTab s t) : ∃ t', aw.HasTab s t' := by
  obtain ⟨⟨i,p,k,hat⟩,hid⟩ := ht
  cases op with
  | setSurfaceTitle home s'' text =>
    cases hs
    rw [h.tabAt_setSurfaceTitle,Option.map_eq_some_iff] at hat
    obtain ⟨t',ht',rfl⟩ := hat
    refine ⟨t',⟨i,p,k,ht'⟩,?_⟩
    split at hid
    · rwa [Tab.surfaceId,panel_reportTitle] at hid
    · exact hid
  | setSurfaceWorkingDirectory home s'' dir =>
    cases hs
    rw [h.tabAt_setSurfaceWorkingDirectory,Option.map_eq_some_iff] at hat
    obtain ⟨t',ht',rfl⟩ := hat
    refine ⟨t',⟨i,p,k,ht'⟩,?_⟩
    split at hid
    · rwa [Tab.surfaceId,panel_reportDirectory] at hid
    · exact hid
  | _ => cases hop

theorem hasTab_new (h : WindowInv aw) (hn : ∀ t, ¬ aw.HasTab s t)
    (hs : aw.step op = some aw') (ht : aw'.HasTab s t) : t.workingDirectoryFromOsc7 = false := by
  have hop : ¬ op.ReportsOn s := by
    intro hop
    obtain ⟨t',ht'⟩ := hasTab_of_report h hop hs ht
    exact hn t' ht'
  apply hasTab_step (R := fun t => t.workingDirectoryFromOsc7 = false) hop (fun _ _ h => h)
    (fun _ _ hf _ => hf) (fun t ht => absurd ht (hn t)) hs t ht

/-- A report for one surface leaves every other tab where and as it is. -/
theorem WindowInv.tabAt_other (h : WindowInv aw) {s' : SurfaceId} (hop : op.ReportsOn s')
    (hs : aw.step op = some aw') (i : ℕ) (p : PaneId) (k : ℕ) (hne : t.surfaceId ≠ some s') :
    aw'.tabAt i p k = some t ↔ aw.tabAt i p k = some t := by
  have hmap : ∀ g : Tab → Tab, (∀ t, (g t).panel = t.panel) →
      ((aw.tabAt i p k).map (fun t => if t.surfaceId = some s' then g t else t) = some t ↔
        aw.tabAt i p k = some t) := by
    intro g hg
    rw [Option.map_eq_some_iff]
    constructor
    · rintro ⟨t',ht',he⟩
      split at he
      · rename_i hs'
        refine absurd ?_ hne
        rw [← he,Tab.surfaceId,hg]
        exact hs'
      · exact he ▸ ht'
    · intro ht
      exact ⟨t,ht,if_neg hne⟩
  cases op with
  | setSurfaceTitle home s'' text =>
    obtain rfl : s'' = s' := hop
    cases hs
    rw [h.tabAt_setSurfaceTitle]
    exact hmap _ (panel_reportTitle home text)
  | setSurfaceWorkingDirectory home s'' dir =>
    obtain rfl : s'' = s' := hop
    cases hs
    rw [h.tabAt_setSurfaceWorkingDirectory]
    exact hmap _ (panel_reportDirectory home dir)
  | _ => cases hop

/-- Over the life of a tab: each point of the run. -/
theorem Lives.reported (hl : Lives s aw₀ log aw) (h : WindowInv aw₀) (h₀ : aw₀.HasTab s t₀)
    (hnew : t₀.workingDirectoryFromOsc7 = false) :
    WindowInv aw ∧ ∀ t, aw.HasTab s t → t.Reported t₀.workingDirectory log := by
  induction hl with
  | start =>
    refine ⟨h,fun t ht => ?_⟩
    obtain rfl := h.hasTab_unique ht h₀
    exact ⟨rfl,hnew⟩
  | @title log aw home text _ ih =>
    obtain ⟨hinv,hrep⟩ := ih
    have hs : aw.step (.setSurfaceTitle home s text) = some (aw.setSurfaceTitle home s text) := rfl
    refine ⟨windowInv_step hinv (by trivial) hs,?_⟩
    rintro t ⟨⟨i,p,k,hat⟩,hid⟩
    rw [hinv.tabAt_setSurfaceTitle,Option.map_eq_some_iff] at hat
    obtain ⟨t',ht',rfl⟩ := hat
    by_cases hs : t'.surfaceId = some s
    · rw [if_pos hs]
      exact (hrep t' ⟨⟨i,p,k,ht'⟩,hs⟩).reportTitle home text
    · rw [if_neg hs] at hid
      exact absurd hid hs
  | @directory log aw t₁ home dir _ h₁ ih =>
    obtain ⟨hinv,hrep⟩ := ih
    have hs : aw.step (.setSurfaceWorkingDirectory home s dir) =
      some (aw.setSurfaceWorkingDirectory home s dir) := rfl
    refine ⟨windowInv_step hinv (by trivial) hs,?_⟩
    rintro t ⟨⟨i,p,k,hat⟩,hid⟩
    rw [hinv.tabAt_setSurfaceWorkingDirectory,Option.map_eq_some_iff] at hat
    obtain ⟨t',ht',rfl⟩ := hat
    by_cases hs : t'.surfaceId = some s
    · obtain rfl := hinv.hasTab_unique h₁ ⟨⟨i,p,k,ht'⟩,hs⟩
      rw [if_pos hs]
      exact .reportDirectory t₁ home dir
    · rw [if_neg hs] at hid
      exact absurd hid hs
  | @other log aw aw' t₁ op _ h₁ hok hop hs ih =>
    obtain ⟨hinv,hrep⟩ := ih
    refine ⟨windowInv_step hinv hok hs,hasTab_step hop (fun _ title ht => ht.retitle title) ?_
      hrep hs⟩
    intro t hb _ hid
    rw [surfaceId_eq_some] at hid
    exact absurd (hid ▸ hinv.hasTab_below h₁) hb

/-- From the moment a terminal tab appears, its directory is the one the reports for its
surface give, wherever the tab is moved and whatever else happens; and a report for one
surface changes no other tab. -/
theorem directory_of_reports {before : AppWindow F} (hr : Reachable WindowOp.Targeted before)
    (hn : ∀ t, ¬ before.HasTab s t) (hop : op.Targeted before)
    (hs : before.step op = some aw₀) (h₀ : aw₀.HasTab s t₀) (hl : Lives s aw₀ log aw) :
    (∀ t, aw.HasTab s t → t.workingDirectory = TabReport.directoryAfter t₀.workingDirectory log) ∧
    ∀ s' op' after, op'.ReportsOn s' → aw.step op' = some after →
      ∀ i p k t, t.surfaceId ≠ some s' →
        (after.tabAt i p k = some t ↔ aw.tabAt i p k = some t) := by
  have hinv := hr.windowInv
  obtain ⟨hend,hrep⟩ := hl.reported (windowInv_step hinv hop hs) h₀ (hasTab_new hinv hn hs h₀)
  exact ⟨fun t ht => (hrep t ht).directory,
    fun s' op' after hop' hs' i p k t hne => hend.tabAt_other hop' hs' i p k hne⟩

end Runs

/-- A reported directory, then the tab gets a pane of its own, then a title with another
directory. -/
theorem directory_of_reports_moved : ∃ aw : AppWindow ℚ,
    Lives 1 AppWindow.start.newWorkspace
      [.title none "me@host:/tmp",.directory none "/srv" ""] aw ∧
    ∀ t, aw.HasTab 1 t → t.workingDirectory = some "/srv" := by
  have hs : AppWindow.start.step .newWorkspace = some AppWindow.start.newWorkspace := rfl
  have hn : ∀ t, ¬ AppWindow.start.HasTab 1 t := by
    rintro t ⟨⟨i,p,k,ht⟩,-⟩
    obtain ⟨ws,pane,hi,-⟩ := tabAt_eq_some.mp ht
    simp [AppWindow.start] at hi
  have h₀ : AppWindow.start.newWorkspace.HasTab 1 (.fresh (.terminal 1)) := ⟨⟨0,1,0,rfl⟩,rfl⟩
  have h₁ := Lives.directory none "/srv" (Lives.start (s := 1)) h₀
  have h₂ := Lives.other .newPaneTab h₁ (t := ⟨.terminal 1,"",some "/srv",true⟩)
    ⟨⟨0,1,0,rfl⟩,rfl⟩ trivial not_false rfl
  have h₃ := Lives.other (.splitTabToPane 1 (.surface 1) .horizontal false true) h₂
    (t := ⟨.terminal 1,"",some "/srv",true⟩) ⟨⟨0,1,0,rfl⟩,rfl⟩ trivial not_false rfl
  have h₄ := Lives.title none "me@host:/tmp" h₃
  refine ⟨_,h₄,fun t ht => ?_⟩
  exact (directory_of_reports (.empty rfl) hn (by trivial) hs h₀ h₄).1 t ht

end Limux
