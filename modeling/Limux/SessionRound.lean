import Limux.WindowEdits
import Limux.SessionLayout

/-! Restoring a saved workspace and saving it again: which workspaces come back as
they were. -/
namespace Limux

variable {F : Type}

/-- The same saved workspace but for scrollback and the order of the status
entries, which is that of a hash map. -/
structure SameSession (s s' : WorkspaceSnapshot F) : Prop where
  layout : s'.layout.withoutScrollback = s.layout.withoutScrollback
  title : s'.title = s.title
  customTitle : s'.customTitle = s.customTitle
  workingDirectory : s'.workingDirectory = s.workingDirectory
  color : s'.color = s.color
  pinned : s'.pinned = s.pinned
  statusEntries : Option.Rel List.Perm s'.statusEntries s.statusEntries
  logEntries : s'.logEntries = s.logEntries
  progress : s'.progress = s.progress

namespace AppWindow

theorem getD_nonEmpty {α : Type} (l : List α) : (nonEmpty l).getD [] = l := by
  unfold nonEmpty
  split
  · rename_i h
    rw [List.isEmpty_iff.mp h]
    rfl
  · rfl

theorem rel_nonEmpty {α : Type} {l l' : List α} (h : l.Perm l') :
    Option.Rel List.Perm (nonEmpty l) (nonEmpty l') := by
  unfold nonEmpty
  by_cases hl : l = []
  · subst hl
    rw [h.nil_eq.symm]
    exact .none
  · have hl' : l' ≠ [] := fun he => hl (by subst he; exact h.eq_nil)
    simp only [List.isEmpty_iff,hl,hl',if_false]
    exact .some h

end AppWindow

theorem WorkspaceColor.fromName_toName (c : WorkspaceColor) : fromName c.toName = some c := by
  cases c <;> decide

/-- Status entries are filed under their own key. -/
def StatusKeyed (ws : Workspace F) : Prop :=
  ∀ k e, ws.statusEntries.lookup k = some e → e.key = k

def StatusEntrySnapshot.restored (e : StatusEntrySnapshot) : SidebarStatusEntry :=
  ⟨e.key,e.value,e.icon,e.color,e.priority⟩

theorem StatusKeyed.insert {m : HashMap String SidebarStatusEntry}
    (h : ∀ k e, m.lookup k = some e → e.key = k) (e : SidebarStatusEntry) :
    ∀ k e', (m.insert e.key e).lookup k = some e' → e'.key = k := by
  intro k e' hl
  rw [HashMap.lookup_insert_ite] at hl
  split at hl
  · rename_i hk
    cases hl
    exact hk.symm
  · exact h k e' hl

theorem restoreStatus_keyed (entries : List StatusEntrySnapshot) :
    ∀ k e, (AppWindow.restoreStatus entries).lookup k = some e → e.key = k := by
  unfold AppWindow.restoreStatus
  suffices h : ∀ m : HashMap String SidebarStatusEntry,
      (∀ k e, m.lookup k = some e → e.key = k) → ∀ k e,
        (entries.foldl (fun m e => m.insert e.key e.restored) m).lookup k = some e → e.key = k from
    h ∅ (fun k e hl => by simp at hl)
  induction entries with
  | nil => exact fun m hm => hm
  | cons e es ih => exact fun m hm => ih _ (StatusKeyed.insert hm e.restored)

/-- Entries with distinct keys all come back. -/
theorem restoreStatus_values {entries : List StatusEntrySnapshot}
    (h : (entries.map StatusEntrySnapshot.key).Nodup) :
    (AppWindow.restoreStatus entries).values.Perm (entries.map StatusEntrySnapshot.restored) := by
  unfold AppWindow.restoreStatus
  suffices hs : ∀ m : HashMap String SidebarStatusEntry,
      (∀ e ∈ entries, m.lookup e.key = none) →
        (entries.foldl (fun m e => m.insert e.key e.restored) m).values.Perm
          (entries.map StatusEntrySnapshot.restored ++ m.values) by
    have hp := hs ∅ (fun e _ => AList.lookup_empty _)
    rw [show (∅ : HashMap String SidebarStatusEntry).values = [] from rfl,List.append_nil] at hp
    exact hp
  induction entries with
  | nil => exact fun m _ => .refl _
  | cons e es ih =>
    intro m hm
    rw [List.map_cons,List.nodup_cons] at h
    refine (ih h.2 (m.insert e.key e.restored) (fun x hx => ?_)).trans ?_
    · rw [HashMap.lookup_insert_ite,if_neg (fun he => h.1 (by
        rw [← he]; exact List.mem_map_of_mem hx))]
      exact hm x (by simp [hx])
    · rw [HashMap.values_insert,HashMap.erase_of_notMem (hm e (by simp))]
      exact List.perm_middle

theorem map_key_values {m : HashMap String SidebarStatusEntry}
    (h : ∀ k e, m.lookup k = some e → e.key = k) :
    m.values.map SidebarStatusEntry.key = m.keys := by
  simp only [HashMap.values,AList.keys,List.keys,List.map_map]
  refine List.map_congr_left (fun x hx => ?_)
  exact h x.1 x.2 (AList.mem_lookup_iff.mpr hx)

theorem StatusKeyed.restored {ws : Workspace F} (h : StatusKeyed ws) :
    ((AppWindow.restoreStatus (ws.statusEntries.values.map AppWindow.statusSnapshot)).values.map
      AppWindow.statusSnapshot).Perm (ws.statusEntries.values.map AppWindow.statusSnapshot) := by
  have hn : ((ws.statusEntries.values.map AppWindow.statusSnapshot).map
      StatusEntrySnapshot.key).Nodup := by
    rw [List.map_map,show StatusEntrySnapshot.key ∘ AppWindow.statusSnapshot =
      SidebarStatusEntry.key from rfl,map_key_values h]
    exact ws.statusEntries.keys_nodup
  have hp := (restoreStatus_values hn).map AppWindow.statusSnapshot
  rwa [List.map_map,show AppWindow.statusSnapshot ∘ StatusEntrySnapshot.restored = id from rfl,
    List.map_id] at hp

/-- Everything a tab row shows survives a restore: the first tab has no title and no
directory of its own, and no later browser tab has a directory. -/
def RestoredWhole : List Tab → Prop
  | [] => False
  | t :: ts => t.title = "" ∧ t.workingDirectory = none ∧
      ∀ x ∈ ts, x.browserId.isSome → x.workingDirectory = none

instance : DecidablePred RestoredWhole
  | [] => isFalse id
  | _ :: _ => inferInstanceAs (Decidable (_ ∧ _ ∧ _))

theorem isBrowser_toSnapshot (t : Tab) (rd : PanelReaders) :
    (t.toSnapshot rd).isBrowser = t.browserId.isSome := by
  rcases t with ⟨⟨s⟩ | ⟨b,url⟩,title,wd,o⟩ <;> simp [Tab.toSnapshot,PaneTabSnapshot.isBrowser,Tab.browserId]

theorem filter_saved (title : String) :
    Option.filter (fun s => !s.isEmpty) (if title = "" then none else some title) =
      if title = "" then none else some title := by
  by_cases h : title = "" <;> simp [h,Option.filter]

theorem again_toSnapshot_iff (t : Tab) (rd : PanelReaders) :
    (t.toSnapshot rd).again = (t.toSnapshot rd).withoutScrollback ↔
      (t.browserId.isSome → t.workingDirectory = none) := by
  unfold PaneTabSnapshot.again
  rw [isBrowser_toSnapshot]
  rcases t with ⟨⟨s⟩ | ⟨b,url⟩,title,wd,o⟩
  · simp [Tab.toSnapshot,PaneTabSnapshot.withoutScrollback,Tab.browserId,filter_saved]
  · simp [Tab.toSnapshot,PaneTabSnapshot.withoutScrollback,Tab.browserId,filter_saved,@eq_comm _ none]

theorem again_firstTab_iff (t : Tab) (rd : PanelReaders) :
    (firstTab (t.toSnapshot rd)).again = (t.toSnapshot rd).withoutScrollback ↔
      t.title = "" ∧ t.workingDirectory = none := by
  unfold PaneTabSnapshot.again
  rw [show (firstTab (t.toSnapshot rd)).isBrowser = (t.toSnapshot rd).isBrowser from rfl,
    isBrowser_toSnapshot]
  rcases t with ⟨⟨s⟩ | ⟨b,url⟩,title,wd,o⟩ <;>
    simp [firstTab,Tab.toSnapshot,PaneTabSnapshot.withoutScrollback,Tab.browserId,
      @eq_comm _ none,and_comm]

theorem again_tabs_iff {tabs : List Tab} (hne : tabs ≠ []) (rd : PanelReaders) :
    (normTabs (tabs.map (fun t => t.toSnapshot rd))).map PaneTabSnapshot.again =
        (tabs.map (fun t => t.toSnapshot rd)).map PaneTabSnapshot.withoutScrollback ↔
      RestoredWhole tabs := by
  cases tabs with
  | nil => exact absurd rfl hne
  | cons t ts =>
    simp only [List.map_cons,normTabs,List.cons.injEq,again_firstTab_iff,RestoredWhole,and_assoc,
      List.map_map,List.map_inj_left]
    exact and_congr_right (fun _ => and_congr_right (fun _ =>
      forall₂_congr (fun x _ => again_toSnapshot_iff x rd)))

section

variable {aw : AppWindow F} {ws : Workspace F}

theorem restored_layout (ord : IterOrder NodeId) (snap : WorkspaceSnapshot F)
    (port : Option UInt16) (id token : String) {rd : PanelReaders}
    (hrd : Reports rd (AppWindow.restoredWorkspace ord aw snap port id token).1.panes) :
    (AppWindow.workspaceSnapshot rd
      (AppWindow.restoredWorkspace ord aw snap port id token).1).layout.withoutScrollback =
      snap.layout.again := by
  obtain ⟨t,w,-,hb,hws⟩ := restoredWorkspace_spec ord aw snap port id token
  have hpanes : (AppWindow.restoredWorkspace ord aw snap port id token).1.panes = w.panes := by
    rw [hws]
  have htree : (AppWindow.restoredWorkspace ord aw snap port id token).1.splitTree = t := by
    rw [hws]
  obtain ⟨nt,hs,he⟩ := buildLayout_again ord rd snap.layout (emptyRestored aw snap)
    { aw.ids with workspace := aw.ids.workspace+1 } (fun p hp => absurd hp (AList.notMem_empty p))
    _ hrd (fun p _ => by rw [hpanes,hb])
  rw [hb,← htree] at hs
  rw [hs.workspaceSnapshot_layout,he]

theorem layout_again_iff (h : WsInv ws) (rd : PanelReaders) :
    (AppWindow.workspaceSnapshot rd ws).layout.again =
        (AppWindow.workspaceSnapshot rd ws).layout.withoutScrollback ↔
      ∀ p pane, ws.panes.lookup p = some pane → RestoredWhole pane.tabs := by
  obtain ⟨t,ht⟩ := h.shape
  rw [ht.workspaceSnapshot_layout,again_layoutOf ht.rep,withoutScrollback_layoutOf ht.rep,
    layoutOf_inj ht.rep,← ht.panes_eq]
  constructor
  · intro hall p pane hl
    have hp := hall p ((h.keys p).mp (WsShape.mem_of_lookup hl))
    simp only [savedTabs,hl,Option.map_some,Option.getD_some] at hp
    exact (again_tabs_iff (h.tabs p pane hl) rd).mp hp
  · intro hall p hp
    obtain ⟨pane,hl⟩ := HashMap.mem_iff_lookup.mp ((h.keys p).mpr hp)
    simp only [savedTabs,hl,Option.map_some,Option.getD_some]
    exact (again_tabs_iff (h.tabs p pane hl) rd).mpr (hall p pane hl)

end

section

variable [F64Ops F] {aw : AppWindow F} {ws : Workspace F}

theorem Reachable.statusKeyed {ok : AppWindow F → WindowOp F → Prop} (h : Reachable ok aw) :
    ∀ ws ∈ aw.workspaces, StatusKeyed ws := by
  refine h.forall_workspaces (fun aw op ws ws' _ he hk => ?_) (fun aw op ws _ hc => ?_)
  · cases he with
    | moved hm =>
      unfold StatusKeyed
      rw [hm.rest]
      exact hk
    | setStatus id e => exact StatusKeyed.insert hk e
    | clearStatus id key =>
      intro k e hl
      rw [HashMap.lookup_erase_ite] at hl
      split at hl
      · cases hl
      · exact hk k e hl
    | addLog | clearLog | setProgress | clearProgress | rename | setColor | togglePinned | remote
    | proxy => exact hk
  · cases hc with
    | fresh => exact fun k e hl => by cases hl
    | remote => exact fun k e hl => by cases hl
    | restored ord snap port id token =>
      obtain ⟨t,w,-,-,hws⟩ := restoredWorkspace_spec ord aw snap port id token
      unfold StatusKeyed
      rw [hws]
      exact restoreStatus_keyed _

/-- A reachable workspace comes back as it was saved if and only if no pane has a
first tab with a title or directory, and the title is the one a restore gives. -/
theorem same_session_iff (h : Reachable WindowOp.Targeted aw) (hws : ws ∈ aw.workspaces)
    (rd rd' : PanelReaders) (ord : IterOrder NodeId) (aw' : AppWindow F) (port : Option UInt16)
    (id token : String)
    (hrd : Reports rd' (AppWindow.restoredWorkspace ord aw' (AppWindow.workspaceSnapshot rd ws)
      port id token).1.panes) :
    SameSession (AppWindow.workspaceSnapshot rd ws) (AppWindow.workspaceSnapshot rd'
        (AppWindow.restoredWorkspace ord aw' (AppWindow.workspaceSnapshot rd ws) port id token).1) ↔
      (∀ p pane, ws.panes.lookup p = some pane → RestoredWhole pane.tabs) ∧
        ws.title = ws.customTitle.getD aw'.defaultTitle := by
  have hl := restored_layout ord (AppWindow.workspaceSnapshot rd ws) port id token hrd
  rw [← layout_again_iff (h.windowInv.ws ws hws) rd,← hl]
  obtain ⟨t,w,-,hb,he⟩ := restoredWorkspace_spec ord aw' (AppWindow.workspaceSnapshot rd ws)
    port id token
  have hw := buildLayout_rest ord (AppWindow.workspaceSnapshot rd ws).layout
    (emptyRestored aw' (AppWindow.workspaceSnapshot rd ws),
      { aw'.ids with workspace := aw'.ids.workspace+1 })
  rw [hb] at hw
  simp only at hw
  constructor
  · intro hsame
    refine ⟨hsame.layout,?_⟩
    have ht := hsame.title
    rw [he,hw] at ht
    exact ht.symm
  · rintro ⟨hlay,ht⟩
    refine ⟨hlay,?_,?_,?_,?_,?_,?_,?_,?_⟩ <;> rw [he,hw]
    · exact ht.symm
    · rfl
    · rfl
    · simp only [AppWindow.workspaceSnapshot,emptyRestored]
      cases ws.color with
      | none => rfl
      | some c => simp [WorkspaceColor.fromName_toName]
    · rfl
    · simp only [AppWindow.workspaceSnapshot,AppWindow.getD_nonEmpty]
      exact AppWindow.rel_nonEmpty (h.statusKeyed ws hws).restored
    · simp only [AppWindow.workspaceSnapshot,AppWindow.getD_nonEmpty,List.map_map]
      exact congrArg AppWindow.nonEmpty (List.map_congr_left (fun e _ => by
        simp [AppWindow.logSnapshot,LogLevel.fromStr_asStr]))
    · simp only [AppWindow.workspaceSnapshot]
      cases ws.progress <;> rfl

end

def AppWindow.namedTab : AppWindow ℚ :=
  ((start.newWorkspace.splitFocused .horizontal).newPaneTab).renameTab 2 1 "logs"

theorem same_session_namedTab :
    Reachable WindowOp.Targeted AppWindow.namedTab ∧ ∀ ws ∈ AppWindow.namedTab.workspaces,
      SameSession (AppWindow.workspaceSnapshot .silent ws)
        (AppWindow.workspaceSnapshot .silent (AppWindow.restoredWorkspace (.listed ℕ) .start
          (AppWindow.workspaceSnapshot .silent ws) none "" "").1) := by
  have h : Reachable WindowOp.Targeted AppWindow.namedTab := by
    refine .step (.renameTab 2 1 "logs") (.step .newPaneTab (.step (.splitFocused .horizontal)
      (.step .newWorkspace (.empty (rfl : AppWindow.start.workspaces = [])) trivial rfl) trivial
      rfl) trivial rfl) trivial rfl
  have hall : ∀ ws ∈ AppWindow.namedTab.workspaces,
      (∀ e ∈ ws.panes.entries, RestoredWhole e.2.tabs) ∧
        ws.title = ws.customTitle.getD AppWindow.start.defaultTitle := by decide
  exact ⟨h,fun ws hws => (same_session_iff h hws .silent .silent (.listed ℕ) .start none "" ""
    (fun _ _ _ _ _ _ _ _ => rfl)).mpr ⟨fun p pane hl =>
      (hall ws hws).1 _ (AList.mem_lookup_iff.mp hl),(hall ws hws).2⟩⟩

/-- A first tab that was renamed comes back without its name. -/
theorem first_tab_loses_title :
    ∃ aw : AppWindow ℚ, Reachable WindowOp.Targeted aw ∧ ∃ ws ∈ aw.workspaces,
      ¬ SameSession (AppWindow.workspaceSnapshot .silent ws)
        (AppWindow.workspaceSnapshot .silent (AppWindow.restoredWorkspace (.listed ℕ) .start
          (AppWindow.workspaceSnapshot .silent ws) none "" "").1) := by
  refine ⟨AppWindow.start.newWorkspace.renameTab 1 0 "logs",.step (.renameTab 1 0 "logs")
    (.step .newWorkspace (.empty (rfl : AppWindow.start.workspaces = [])) trivial rfl) trivial rfl,
    _,List.mem_singleton.mpr rfl,fun hsame => ?_⟩
  have hl := hsame.layout
  injection hl with hl
  exact absurd hl (by decide)

end Limux
