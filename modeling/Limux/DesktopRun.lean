import Limux.Desktop

/-! The tray and the sidebar show the bells there are; the page that is shown has none once
the callbacks have run; a listener on the bus knows the open workspaces. -/
namespace Limux.Desktop

open Machine

section

variable {F : Type} {d d' : Desktop F} {aw : AppWindow F} {op : WindowOp F}

/-- Flags are those of open workspaces, and dots and classes are where the flags are. -/
structure Flagged (d : Desktop F) : Prop where
  window : WindowInv d.window
  belled : ∀ id, d.wsBell id = true → id ∈ d.window.order
  rows : d.rowBell = d.wsBell
  panes : d.paneClass = d.paneBell

/-- Entries of the tray are those of open workspaces, each with its flag, and no flag is
missing. -/
structure Told (d : Desktop F) : Prop extends Flagged d where
  entry : ∀ e ∈ d.tray, e.id ∈ d.window.order ∧ e.hasBell = d.wsBell e.id
  once : (d.tray.map TrayWorkspaceEntry.id).Nodup
  listed : ∀ id, d.wsBell id = true → id ∈ d.tray.map TrayWorkspaceEntry.id

namespace Flagged

theorem setWsBell (h : Flagged d) {id : WorkspaceId} {b : Bool}
    (hid : b = true → id ∈ d.window.order) : Flagged (d.setWsBell id b) := by
  refine ⟨h.window,fun j hj => ?_,by rw [Desktop.setWsBell,h.rows],h.panes⟩
  by_cases he : j = id
  · subst he
    exact hid ((Function.update_self (f := d.wsBell) ..).symm.trans hj)
  · exact h.belled j ((Function.update_of_ne (f := d.wsBell) he ..).symm.trans hj)

theorem setPaneBell (h : Flagged d) (p : PaneId) (b : Bool) : Flagged (d.setPaneBell p b) :=
  ⟨h.window,h.belled,h.rows,by rw [Desktop.setPaneBell,h.panes]⟩

theorem markWorkspace (h : Flagged d) (i : ℕ) {id : WorkspaceId} (hid : id ∈ d.window.order) :
    Flagged (d.markWorkspace i id) := by
  unfold Desktop.markWorkspace
  split
  · exact h.setWsBell (fun _ => hid)
  · exact h

theorem markPane (h : Flagged d) (i : ℕ) (focused : Option PaneId) (p : PaneId) :
    Flagged (d.markPane i focused p) := by
  unfold Desktop.markPane
  split
  · exact h
  · exact h.setPaneBell p true

theorem trayEntries_ids (d : Desktop F) :
    d.trayEntries.map TrayWorkspaceEntry.id = d.window.order := by
  simp [trayEntries,AppWindow.order]

theorem told (h : Flagged d) : Told d.updateTrayState where
  toFlagged := ⟨h.window,h.belled,h.rows,h.panes⟩
  entry := by
    intro e he
    obtain ⟨ws,hws,rfl⟩ := List.mem_map.mp he
    exact ⟨List.mem_map_of_mem hws,rfl⟩
  once := (trayEntries_ids d).symm ▸ h.window.ids_nodup
  listed := fun id hid => (trayEntries_ids d).symm ▸ h.belled id hid

end Flagged

namespace Told

theorem emit (h : Told d) (s : DbusSignal) : Told (d.emit s) :=
  ⟨⟨h.window,h.belled,h.rows,h.panes⟩,h.entry,h.once,h.listed⟩

theorem setPaneBell (h : Told d) (p : PaneId) (b : Bool) : Told (d.setPaneBell p b) :=
  ⟨h.toFlagged.setPaneBell p b,h.entry,h.once,h.listed⟩

theorem queues (h : Told d) (idle : List ℕ) (timers : List (WorkspaceId × PaneId)) :
    Told { d with idle := idle, timers := timers } :=
  ⟨⟨h.window,h.belled,h.rows,h.panes⟩,h.entry,h.once,h.listed⟩

theorem turn (h : Told d) (hw : WindowInv aw) (ho : ∀ id ∈ d.window.order, id ∈ aw.order)
    (page : Option ℕ) (turned : List ℕ) : Told (d.turn aw page turned) :=
  ⟨⟨hw.view rfl rfl,fun id hid => ho id (h.belled id hid),h.rows,h.panes⟩,
    fun e he => ⟨ho _ (h.entry e he).1,(h.entry e he).2⟩,h.once,h.listed⟩

theorem start [F64Ops F] (he : aw.workspaces = []) : Told (start aw) where
  window := (Reachable.empty he).windowInv
  belled := by simp [Desktop.start]
  rows := rfl
  panes := rfl
  entry := by simp [Desktop.start]
  once := List.nodup_nil
  listed := by simp [Desktop.start]

theorem handleBell (h : Told d) (s : SurfaceId) : Told (d.handleBell s) := by
  unfold Desktop.handleBell
  split
  · exact h
  · rename_i i ws p hf
    have hid : ws.id ∈ d.window.order :=
      List.mem_map_of_mem (List.mem_of_getElem? (findWs_spec hf).1)
    exact ((h.toFlagged.markWorkspace i hid).markPane i _ p).told.emit _

theorem clearDot (h : Told d) (id : WorkspaceId) : Told (d.clearDot id) := by
  unfold Desktop.clearDot
  split
  · exact (h.toFlagged.setWsBell (fun hb => Bool.noConfusion hb)).told
  · exact h

theorem clearWorkspaceBell (h : Told d) (page : ℕ) : Told (d.clearWorkspaceBell page) := by
  unfold Desktop.clearWorkspaceBell
  split
  · exact h
  · rename_i ws hws
    dsimp only
    split
    · split
      · exact (h.clearDot ws.id).queues _ _
      · exact h.clearDot ws.id
    · exact h.clearDot ws.id

theorem clearPaneBell (h : Told d) (id : WorkspaceId) (p : PaneId) :
    Told (d.clearPaneBell id p) := by
  unfold Desktop.clearPaneBell
  split
  · exact h.setPaneBell p false
  · exact h

end Told

/-! What an operation reports. -/

theorem report_closed {before : AppWindow F} {ws : Workspace F}
    (h : closed before op = some ws) :
    report before op d = (d.setWsBell ws.id false).updateTrayState.emit
      (.workspaceClosed ws.id) := by
  cases op with
  | newWorkspace => cases h
  | newRemoteWorkspace c port id token => cases h
  | renameWorkspace id name => cases h
  | setSurfaceTitle home s title => cases h
  | setFocusedSurface s => cases h
  | setFocusedBrowser b => cases h
  | _ =>
    simp only [report]
    rw [show (before.closedAt _).bind _ = some ws from h]

theorem focusPane_cases (d : Desktop F) (found : Option PaneId) :
    d.focusPane found = d ∨ ∃ p, d.focusPane found = d.setPaneBell p false := by
  unfold focusPane
  split
  · split
    · exact .inr ⟨_,rfl⟩
    · exact .inl rfl
  · exact .inl rfl

/-- Nothing is closed: a highlight may go, the tray may be told, and a signal sent. -/
theorem report_open {before : AppWindow F} (h : closed before op = none) :
    report before op d = d ∨ (∃ p, report before op d = d.setPaneBell p false) ∨
      (∃ s, report before op d = d.emit s) ∨
      ∃ s, report before op d = d.updateTrayState.emit s := by
  cases op with
  | newWorkspace => exact .inr (.inr (.inr ⟨_,rfl⟩))
  | newRemoteWorkspace c port id token => exact .inr (.inr (.inr ⟨_,rfl⟩))
  | renameWorkspace id name => exact .inr (.inr (.inr ⟨_,rfl⟩))
  | setSurfaceTitle home s title =>
    simp only [report]
    split
    · exact .inr (.inr (.inl ⟨_,rfl⟩))
    · exact .inl rfl
  | setFocusedSurface s => exact (focusPane_cases d _).imp_right .inl
  | setFocusedBrowser b => exact (focusPane_cases d _).imp_right .inl
  | _ =>
    left
    simp only [report]
    rw [show (before.closedAt _).bind _ = none from h]

/-- While the shown workspace has a bell, a callback for its page waits. -/
def Pending (d : Desktop F) : Prop :=
  ∀ id, d.shown = some id → d.wsBell id = true → ∃ i ∈ d.idle, d.window.order[i]? = some id

/-- No flag is new, and no callback is lost. -/
theorem Pending.carry (hp : Pending d)
    (hn : d'.shown = d.shown ∨ ∀ i, d'.window.currentPage = some i → i ∈ d'.idle)
    (hc : d.idle = [] ∨ d.window.order <+: d'.window.order)
    (hb : ∀ id, d'.wsBell id = true → d.wsBell id = true) (hi : d.idle ⊆ d'.idle) :
    Pending d' := by
  intro id hsh hbell
  obtain he | hall := hn
  · obtain ⟨i,hmem,ho⟩ := hp id (he ▸ hsh) (hb id hbell)
    obtain hc | ⟨t,ht⟩ := hc
    · exact absurd (hc ▸ hmem) List.not_mem_nil
    · refine ⟨i,hi hmem,?_⟩
      rw [← ht,List.getElem?_append_left (List.getElem?_eq_some_iff.mp ho).1]
      exact ho
  · obtain ⟨i,hpage,ho⟩ := Option.bind_eq_some_iff.mp hsh
    exact ⟨i,hall i hpage,ho⟩

theorem report_rest (before : AppWindow F) (op : WindowOp F) (d : Desktop F) :
    (report before op d).window = d.window ∧ (report before op d).idle = d.idle ∧
      ∀ id, (report before op d).wsBell id = true → d.wsBell id = true := by
  cases hc : closed before op with
  | none =>
    obtain hr | ⟨p,hr⟩ | ⟨s,hr⟩ | ⟨s,hr⟩ := report_open (d := d) hc <;> rw [hr] <;>
      exact ⟨rfl,rfl,fun _ h => h⟩
  | some ws =>
    rw [report_closed hc]
    refine ⟨rfl,rfl,fun id hid => ?_⟩
    by_cases he : id = ws.id
    · subst he
      exact absurd hid (by simp [emit,updateTrayState,setWsBell])
    · exact (Function.update_of_ne (f := d.wsBell) he ..).symm.trans hid

theorem clearDot_of_true {id j : WorkspaceId} (h : (d.clearDot id).wsBell j = true) :
    d.wsBell j = true ∧ j ≠ id := by
  unfold clearDot at h
  split at h
  · by_cases he : j = id
    · subst he
      exact absurd h (by simp [updateTrayState,setWsBell])
    · exact ⟨(Function.update_of_ne (f := d.wsBell) he ..).symm.trans h,he⟩
  · rename_i hoff
    exact ⟨h,fun he => hoff (he ▸ h)⟩

theorem clearDot_rest (d : Desktop F) (id : WorkspaceId) :
    (d.clearDot id).window = d.window ∧ (d.clearDot id).idle = d.idle ∧
      (d.clearDot id).signals = d.signals := by
  unfold clearDot
  split <;> exact ⟨rfl,rfl,rfl⟩

theorem markPane_rest (d : Desktop F) (i : ℕ) (focused : Option PaneId) (p : PaneId) :
    (d.markPane i focused p).window = d.window ∧ (d.markPane i focused p).idle = d.idle ∧
      (d.markPane i focused p).signals = d.signals ∧
      (d.markPane i focused p).wsBell = d.wsBell := by
  unfold markPane
  split <;> exact ⟨rfl,rfl,rfl,rfl⟩

theorem markWorkspace_rest (d : Desktop F) (i : ℕ) (id : WorkspaceId) :
    (d.markWorkspace i id).window = d.window ∧ (d.markWorkspace i id).idle = d.idle ∧
      (d.markWorkspace i id).signals = d.signals ∧
      ∀ j, (d.markWorkspace i id).wsBell j = true →
        d.wsBell j = true ∨ j = id ∧ i ≠ d.window.currentPage.getD 0 := by
  unfold markWorkspace
  split
  · rename_i hnew
    refine ⟨rfl,rfl,rfl,fun j hj => ?_⟩
    by_cases he : j = id
    · exact .inr ⟨he,hnew.1⟩
    · exact .inl ((Function.update_of_ne (f := d.wsBell) he ..).symm.trans hj)
  · exact ⟨rfl,rfl,rfl,fun _ h => .inl h⟩

/-- A bell marks a workspace that is not shown. -/
theorem handleBell_rest (d : Desktop F) (s : SurfaceId) :
    (d.handleBell s).window = d.window ∧ (d.handleBell s).idle = d.idle ∧
      ((d.handleBell s).signals = d.signals ∨
        ∃ i j, (d.handleBell s).signals = d.signals ++ [.bellFired i j]) ∧
      ∀ id, (d.handleBell s).wsBell id = true → d.wsBell id = true ∨
        ∃ i, d.window.order[i]? = some id ∧ i ≠ d.window.currentPage.getD 0 := by
  unfold handleBell
  split
  · exact ⟨rfl,rfl,.inl rfl,fun _ h => .inl h⟩
  · rename_i i ws p hf
    have hget : d.window.order[i]? = some ws.id := by
      rw [AppWindow.order,List.getElem?_map,(findWs_spec hf).1]
      rfl
    obtain ⟨hw,hi,hsig,hb⟩ := markWorkspace_rest d i ws.id
    obtain ⟨hw',hi',hsig',hb'⟩ := markPane_rest (d.markWorkspace i ws.id) i ws.focusedPane p
    refine ⟨hw'.trans hw,hi'.trans hi,.inr ⟨_,_,congrArg (· ++ _) (hsig'.trans hsig)⟩,
      fun id hid => ?_⟩
    obtain hold | ⟨rfl,hne⟩ := hb id ((congrFun hb' id).symm.trans hid)
    · exact .inl hold
    · exact .inr ⟨i,hget,hne⟩

theorem clearWorkspaceBell_rest (d : Desktop F) (page : ℕ) :
    (d.clearWorkspaceBell page).window = d.window ∧ (d.clearWorkspaceBell page).idle = d.idle ∧
      (d.clearWorkspaceBell page).signals = d.signals ∧
      ∀ id, (d.clearWorkspaceBell page).wsBell id = true →
        d.wsBell id = true ∧ d.window.order[page]? ≠ some id := by
  unfold clearWorkspaceBell
  split
  · rename_i hnone
    refine ⟨rfl,rfl,rfl,fun id hid => ⟨hid,?_⟩⟩
    simp [AppWindow.order,hnone]
  · rename_i ws hws
    have hget : d.window.order[page]? = some ws.id := by
      rw [AppWindow.order,List.getElem?_map,hws]
      rfl
    obtain ⟨hw,hi,hsig⟩ := clearDot_rest d ws.id
    have hflag : ∀ id, (d.clearDot ws.id).wsBell id = true →
        d.wsBell id = true ∧ d.window.order[page]? ≠ some id := by
      intro id hid
      obtain ⟨hold,hne⟩ := clearDot_of_true hid
      exact ⟨hold,fun hp => hne (Option.some.inj (hp.symm.trans hget))⟩
    dsimp only
    split
    · split <;> exact ⟨hw,hi,hsig,hflag⟩
    · exact ⟨hw,hi,hsig,hflag⟩

theorem clearPaneBell_rest (d : Desktop F) (id : WorkspaceId) (p : PaneId) :
    (d.clearPaneBell id p).window = d.window ∧ (d.clearPaneBell id p).idle = d.idle ∧
      (d.clearPaneBell id p).signals = d.signals ∧ (d.clearPaneBell id p).wsBell = d.wsBell := by
  unfold clearPaneBell
  split <;> exact ⟨rfl,rfl,rfl,rfl⟩

end

variable {F : Type} [F64Ops F] {d d' : Desktop F} {aw aw' : AppWindow F}

theorem order_of_open (h : WindowInv aw) {op : WindowOp F} (hs : aw.step op = some aw')
    (hc : closed aw op = none) : ∀ id ∈ aw.order, id ∈ aw'.order := by
  intro id hid
  obtain ⟨-,-,ho⟩ | ⟨-,-,ho⟩ | ⟨ws,hws,-⟩ := order_step h hs
  · rw [ho]
    exact List.mem_append_left _ hid
  · exact ho.mem_iff.mpr hid
  · exact absurd (hc.symm.trans hws) (by simp)

theorem Told.step (h : Told d) {op : WindowOp F} (hop : op.Targeted d.window)
    (hs : d.window.step op = some aw) (page : Option ℕ) (turned : List ℕ) :
    Told (report d.window op (d.turn aw page turned)) := by
  have hw : WindowInv aw := windowInv_step h.window hop hs
  cases hc : closed d.window op with
  | none =>
    have hopen : Told (d.turn aw page turned) :=
      h.turn hw (order_of_open h.window hs hc) page turned
    obtain hr | ⟨p,hr⟩ | ⟨s,hr⟩ | ⟨s,hr⟩ := report_open (d := d.turn aw page turned) hc
    · rw [hr]
      exact hopen
    · rw [hr]
      exact hopen.setPaneBell p false
    · rw [hr]
      exact hopen.emit s
    · rw [hr]
      exact hopen.toFlagged.told.emit s
  | some ws =>
    rw [report_closed hc]
    refine Told.emit (Flagged.told ?_) _
    obtain ⟨-,hno,-⟩ | ⟨-,hno,-⟩ | ⟨ws',hws,ho⟩ := order_step h.window hs
    · exact absurd (hc.symm.trans hno) (by simp)
    · exact absurd (hc.symm.trans hno) (by simp)
    obtain rfl := Option.some.inj (hc.symm.trans hws)
    refine ⟨hw.view rfl rfl,fun id hid => ?_,by rw [setWsBell,Desktop.turn,h.rows],h.panes⟩
    by_cases he : id = ws.id
    · subst he
      exact absurd hid (by simp [setWsBell])
    · refine ho.mem_iff.mpr ((List.mem_erase_of_ne he).mpr (h.belled id ?_))
      exact (Function.update_of_ne (f := d.wsBell) he ..).symm.trans hid

theorem told_step (h : Told d) (e : DesktopEvent F) (ht : Targeted d e)
    (hs : d.step e = some d') : Told d' := by
  cases e with
  | op op page turned =>
    obtain ⟨aw,haw,rfl⟩ := Option.map_eq_some_iff.mp hs
    exact Told.step h ht haw page turned
  | selectWorkspaceById id turned =>
    simp only [step] at hs
    split at hs
    · cases hs
      exact (h.turn h.window (fun _ hi => hi) _ turned).emit _
    · cases hs
      exact h
  | pushState id st detail =>
    cases hs
    have hst : d.window.step (.updateRemoteState id st) =
      some (d.window.updateRemoteState id st) := rfl
    have ht : WindowOp.Targeted d.window (.updateRemoteState id st) := trivial
    exact (h.turn (windowInv_step h.window ht hst) (order_of_open h.window hst rfl) _ []).emit _
  | bell s => cases hs; exact h.handleBell s
  | idle =>
    simp only [step] at hs
    split at hs
    · cases hs
    · cases hs
      exact (h.queues _ d.timers).clearWorkspaceBell _
  | timer k =>
    obtain ⟨t,ht,rfl⟩ := Option.map_eq_some_iff.mp hs
    exact (h.queues d.idle _).clearPaneBell _ _

/-- In every state the tray asks for attention exactly while an open workspace has a bell,
its entries with a bell are those workspaces, and so are the rows with a dot. -/
theorem bells_told (he : aw.workspaces = []) (h : Reach step Targeted (start aw) d) :
    (d.needsAttention = true ↔ ∃ id ∈ d.window.order, d.wsBell id = true) ∧
      ((d.tray.filter TrayWorkspaceEntry.hasBell).map TrayWorkspaceEntry.id).Perm
        (d.window.order.filter d.wsBell) ∧
      d.rowBell = d.wsBell ∧ d.paneClass = d.paneBell := by
  have ht : Told d := h.inv (.start he) (fun d e d' hd hok hs => told_step hd e hok hs)
  have hmem : ∀ id, id ∈ (d.tray.filter TrayWorkspaceEntry.hasBell).map TrayWorkspaceEntry.id ↔
      id ∈ d.window.order.filter d.wsBell := by
    intro id
    simp only [List.mem_map,List.mem_filter]
    constructor
    · rintro ⟨e,⟨he,hb⟩,rfl⟩
      exact ⟨(ht.entry e he).1,(ht.entry e he).2 ▸ hb⟩
    · rintro ⟨-,hb⟩
      obtain ⟨e,he,rfl⟩ := List.mem_map.mp (ht.listed id hb)
      exact ⟨e,⟨he,(ht.entry e he).2 ▸ hb⟩,rfl⟩
  refine ⟨?_,?_,ht.rows,ht.panes⟩
  · rw [needsAttention,List.any_eq_true]
    constructor
    · rintro ⟨e,he,hb⟩
      exact ⟨e.id,(ht.entry e he).1,(ht.entry e he).2 ▸ hb⟩
    · rintro ⟨id,-,hb⟩
      obtain ⟨e,he,rfl⟩ := List.mem_map.mp (ht.listed id hb)
      exact ⟨e,he,(ht.entry e he).2 ▸ hb⟩
  · exact (List.perm_ext_iff_of_nodup ((ht.once.sublist (List.filter_sublist.map _)))
      (ht.window.ids_nodup.filter _)).mpr hmem

def twoWorkspaces : Desktop ℚ :=
  (((start .start).step (.op .newWorkspace (some 0) [0])).bind
    (fun d => d.step (.op .newWorkspace (some 1) [1]))).getD (start .start)

theorem bells_told_ringing : (twoWorkspaces.handleBell 1).needsAttention = true :=
  (bells_told (rfl : AppWindow.start.workspaces = []) (.next (.bell 1)
    (.next (.op .newWorkspace (some 1) [1]) (.next (.op .newWorkspace (some 0) [0]) .start
      trivial rfl) trivial rfl) trivial rfl)).1.mpr ⟨1,by decide,by decide⟩

theorem pending_step (h : Told d) (hp : Pending d) {e : DesktopEvent F} (hn : Notified d e)
    (hc : Calm d e) (hs : d.step e = some d') : Pending d' := by
  have hn' := hn d' hs
  have hc' : d.idle = [] ∨ d.window.order <+: d'.window.order := hc.imp_right (fun hc => hc d' hs)
  cases e with
  | op op page turned =>
    obtain ⟨aw,-,rfl⟩ := Option.map_eq_some_iff.mp hs
    obtain ⟨hw,hi,hb⟩ := report_rest d.window op (d.turn aw page turned)
    exact hp.carry hn' hc' hb (hi ▸ List.subset_append_left ..)
  | selectWorkspaceById id turned =>
    simp only [step] at hs
    split at hs
    · cases hs
      exact hp.carry hn' hc' (fun _ hb => hb) (List.subset_append_left ..)
    · cases hs
      exact hp
  | pushState id st detail =>
    cases hs
    exact hp.carry hn' hc' (fun _ hb => hb) (List.subset_append_left ..)
  | bell s =>
    cases hs
    obtain ⟨hw,hi,-,hb⟩ := handleBell_rest d s
    intro id hsh hbell
    have hsh' : d.shown = some id := by
      rw [← hsh,shown,shown,hw]
    rw [hi,hw]
    obtain hold | ⟨i,ho,hne⟩ := hb id hbell
    · exact hp id hsh' hold
    · obtain ⟨j,hj,hoj⟩ := Option.bind_eq_some_iff.mp hsh'
      have hlt := (List.getElem?_eq_some_iff.mp ho).1
      have hij : i = j := (List.getElem?_inj hlt h.window.ids_nodup).mp (ho.trans hoj.symm)
      exact absurd (by rw [hj,hij]; rfl) hne
  | idle =>
    simp only [step] at hs
    split at hs
    · cases hs
    · rename_i page rest hq
      cases hs
      obtain ⟨hw,hi,-,hb⟩ := clearWorkspaceBell_rest { d with idle := rest } page
      intro id hsh hbell
      have hsh' : d.shown = some id := by
        rw [← hsh,shown,shown,hw]
      obtain ⟨hold,hpage⟩ := hb id hbell
      obtain ⟨i,hmem,ho⟩ := hp id hsh' hold
      rw [hi,hw]
      rw [hq] at hmem
      obtain rfl | hmem := List.mem_cons.mp hmem
      · exact absurd ho hpage
      · exact ⟨i,hmem,ho⟩
  | timer k =>
    obtain ⟨t,-,rfl⟩ := Option.map_eq_some_iff.mp hs
    obtain ⟨hw,hi,-,hb⟩ := clearPaneBell_rest { d with timers := d.timers.eraseIdx k } t.1 t.2
    exact hp.carry hn' hc' (fun id hid => hb ▸ hid) (fun i h => hi.symm ▸ h)

/-- In a run in which no workspace is closed or gets another place while callbacks wait, the
workspace that is shown has a bell only while a callback for its page waits. -/
theorem shown_quiet (he : aw.workspaces = [])
    (h : Reach step (fun d e => Targeted d e ∧ Notified d e ∧ Calm d e) (start aw) d) :
    ∀ id, d.shown = some id → d.wsBell id = true →
      ∃ i ∈ d.idle, d.window.order[i]? = some id := by
  refine (h.inv (P := fun d => Told d ∧ Pending d) ⟨.start he,?_⟩ ?_).2
  · intro id _ hb
    exact absurd hb Bool.false_ne_true
  · rintro d e d' ⟨hd,hp⟩ ⟨ht,hn,hc⟩ hs
    exact ⟨told_step hd e ht hs,pending_step hd hp hn hc hs⟩

/-- The first workspace rings and is shown again: its callback waits. -/
theorem shown_quiet_ringing : ∃ d : Desktop ℚ, run step anyStep (start AppWindow.start)
      [.op .newWorkspace (some 0) [0],.op .newWorkspace (some 1) [1],.bell 1,
        .op (.showPage (some 0)) (some 0) [0]] = some d ∧
    d.window.order = [1,2] ∧ d.shown = some 1 ∧ d.wsBell 1 = true ∧ d.idle = [0,1,0] ∧
    ∃ i ∈ d.idle, d.window.order[i]? = some 1 := by
  have hcalm : ∀ d : Desktop ℚ, d.window.order = [1,2] → ∀ d' : Desktop ℚ,
      d'.window.order = [1,2] → d.window.order <+: d'.window.order := by
    intro d hd d' hd'
    exact ⟨[],by rw [hd,hd',List.append_nil]⟩
  refine ⟨_,rfl,rfl,rfl,rfl,rfl,shown_quiet (rfl : AppWindow.start.workspaces = [])
    (.next (.op (.showPage (some 0)) (some 0) [0]) (.next (.bell 1)
      (.next (.op .newWorkspace (some 1) [1]) (.next (.op .newWorkspace (some 0) [0]) .start
        ⟨trivial,?_,.inl rfl⟩ rfl) ⟨trivial,?_,.inr ?_⟩ rfl) ⟨trivial,?_,.inr ?_⟩ rfl)
      ⟨trivial,?_,.inr ?_⟩ rfl) 1 rfl (by decide)⟩
  · rintro d' hs
    obtain rfl := Option.some.inj hs
    exact .inr (by decide)
  · rintro d' hs
    obtain rfl := Option.some.inj hs
    exact .inr (by decide)
  · rintro d' hs
    obtain rfl := Option.some.inj hs
    exact ⟨[2],rfl⟩
  · rintro d' hs
    obtain rfl := Option.some.inj hs
    exact .inl rfl
  · rintro d' hs
    obtain rfl := Option.some.inj hs
    exact hcalm _ rfl _ rfl
  · rintro d' hs
    obtain rfl := Option.some.inj hs
    exact .inr (by decide)
  · rintro d' hs
    obtain rfl := Option.some.inj hs
    exact hcalm _ rfl _ rfl

end Limux.Desktop
