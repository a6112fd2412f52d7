import Limux.DesktopRun

/-! A listener on the bus: what the forwarder delivers tells it which workspaces are open. -/
namespace Limux

namespace Desktop

def hear (ids : List WorkspaceId) : DbusSignal → List WorkspaceId
  | .workspaceCreated id _ => ids ++ [id]
  | .workspaceClosed id => ids.erase id
  | _ => ids

def known (ids : List WorkspaceId) (signals : List DbusSignal) : List WorkspaceId :=
  signals.foldl hear ids

theorem known_append (ids : List WorkspaceId) (a b : List DbusSignal) :
    known ids (a ++ b) = known (known ids a) b := List.foldl_append ..

def Restores {F : Type} : DesktopEvent F → Prop
  | .op (.restoreWorkspaceFromLayout _ _ _ _ _) _ _ => True
  | _ => False

variable {F : Type} [F64Ops F] {d d' : Desktop F} {aw aw' : AppWindow F} {op : WindowOp F}

theorem focusPane_signals {F : Type} (d : Desktop F) (found : Option PaneId) :
    (d.focusPane found).signals = d.signals ++ [] := by
  rw [List.append_nil]
  obtain h | ⟨p,h⟩ := focusPane_cases d found <;> rw [h]
  rfl

theorem report_signals (h : WindowInv aw) (hs : aw.step op = some aw')
    (hr : ∀ page turned, ¬ Restores (.op op page turned)) (d : Desktop F) :
    ∃ sent, (report aw op d).signals = d.signals ++ sent ∧
      ∀ ids : List WorkspaceId, ids.Perm aw.order → (known ids sent).Perm aw'.order := by
  obtain ⟨hop,hc,ho⟩ | ⟨hop,hc,ho⟩ | ⟨ws,hc,ho⟩ := order_step h hs
  · cases op with
    | newWorkspace => exact ⟨[_],rfl,fun ids hids => ho ▸ hids.append_right _⟩
    | newRemoteWorkspace c port id token =>
      exact ⟨[_],rfl,fun ids hids => ho ▸ hids.append_right _⟩
    | restoreWorkspaceFromLayout ord snap port id token => exact (hr none [] trivial).elim
    | _ => cases hop
  · have hquiet : ∀ sent, (report aw op d).signals = d.signals ++ sent →
        (∀ ids, known ids sent = ids) → ∃ sent, (report aw op d).signals = d.signals ++ sent ∧
          ∀ ids : List WorkspaceId, ids.Perm aw.order → (known ids sent).Perm aw'.order := by
      intro sent hsent hk
      exact ⟨sent,hsent,fun ids hids => by rw [hk]; exact hids.trans ho.symm⟩
    cases op with
    | newWorkspace => exact (hop trivial).elim
    | newRemoteWorkspace c port id token => exact (hop trivial).elim
    | renameWorkspace id name => exact hquiet [_] rfl (fun _ => rfl)
    | setSurfaceTitle home s title =>
      by_cases hf : (aw.findWorkspaceWithSurface s).isSome
      · exact hquiet [.titleChanged s title] (by simp [report,hf,emit]) (fun _ => rfl)
      · exact hquiet [] (by simp [report,hf]) (fun _ => rfl)
    | setFocusedSurface s => exact hquiet [] (focusPane_signals d _) (fun _ => rfl)
    | setFocusedBrowser b => exact hquiet [] (focusPane_signals d _) (fun _ => rfl)
    | _ =>
      refine hquiet [] ?_ (fun _ => rfl)
      simp only [report]
      rw [show (aw.closedAt _).bind _ = none from hc,List.append_nil]
  · refine ⟨[.workspaceClosed ws.id],?_,fun ids hids => ?_⟩
    · rw [report_closed hc]
      rfl
    · exact (hids.erase ws.id).trans ho.symm

/-- One event tells the listener what it does to the workspaces. -/
theorem signals_step (h : WindowInv d.window) {e : DesktopEvent F} (hr : ¬ Restores e)
    (hs : d.step e = some d') : ∃ sent, d'.signals = d.signals ++ sent ∧
      ∀ ids : List WorkspaceId, ids.Perm d.window.order →
        (known ids sent).Perm d'.window.order := by
  cases e with
  | op op page turned =>
    obtain ⟨aw,haw,rfl⟩ := Option.map_eq_some_iff.mp hs
    have hr' : ∀ page turned, ¬ Restores (.op op page turned) := by
      intro _ _
      cases op <;> exact hr
    obtain ⟨sent,hsent,hk⟩ := report_signals h haw hr' (d.turn aw page turned)
    refine ⟨sent,hsent,fun ids hids => ?_⟩
    rw [(report_rest d.window op _).1]
    exact hk ids hids
  | selectWorkspaceById id turned =>
    simp only [step] at hs
    split at hs
    · cases hs
      exact ⟨[_],rfl,fun _ hids => hids⟩
    · cases hs
      exact ⟨[],(List.append_nil _).symm,fun _ hids => hids⟩
  | pushState id st detail =>
    cases hs
    refine ⟨[_],rfl,fun ids hids => ?_⟩
    have hst : d.window.step (.updateRemoteState id st) =
      some (d.window.updateRemoteState id st) := rfl
    obtain ⟨hop,-,-⟩ | ⟨-,-,ho⟩ | ⟨ws,hc,-⟩ := order_step h hst
    · exact hop.elim
    · exact hids.trans ho.symm
    · cases hc
  | bell s =>
    cases hs
    obtain ⟨hw,-,hsig,-⟩ := handleBell_rest d s
    rw [hw]
    obtain hsig | ⟨i,j,hsig⟩ := hsig
    · exact ⟨[],by rw [hsig,List.append_nil],fun _ hids => hids⟩
    · exact ⟨_,hsig,fun _ hids => hids⟩
  | idle =>
    simp only [step] at hs
    split at hs
    · cases hs
    · rename_i page rest _
      cases hs
      obtain ⟨hw,-,hsig,-⟩ := clearWorkspaceBell_rest { d with idle := rest } page
      rw [hw,hsig]
      exact ⟨[],(List.append_nil _).symm,fun _ hids => hids⟩
  | timer k =>
    obtain ⟨t,-,rfl⟩ := Option.map_eq_some_iff.mp hs
    obtain ⟨hw,-,hsig,-⟩ := clearPaneBell_rest { d with timers := d.timers.eraseIdx k } t.1 t.2
    rw [hw,hsig]
    exact ⟨[],(List.append_nil _).symm,fun _ hids => hids⟩

end Desktop

/-- The channel of the signals: the forwarder has got to `place`. -/
structure Bus (F : Type) where
  desktop : Desktop F
  place : ℕ
  delivered : List DbusSignal

inductive BusEvent (F : Type)
  | desktop (e : DesktopEvent F)
  /-- The forwarder takes the next signal. -/
  | forward

namespace Bus

open Machine Desktop

variable {F : Type}

/-- Signals from before the forwarder runs are not kept. -/
def subscribe (d : Desktop F) : Bus F := ⟨{ d with signals := [] },0,[]⟩

variable [F64Ops F]

/-- The channel keeps 64 signals; a forwarder that is further behind goes on with the oldest
of them. -/
def step (b : Bus F) : BusEvent F → Option (Bus F)
  | .desktop e => (b.desktop.step e).map (fun d => { b with desktop := d })
  | .forward =>
    let sent := b.desktop.signals
    if 64 < sent.length-b.place then some { b with place := sent.length-64 }
    else sent[b.place]?.map (fun s => { b with
      place := b.place+1
      delivered := b.delivered ++ [s] })

/-- No session is restored, and the forwarder is never more than the channel behind. -/
def Prompt (b : Bus F) : BusEvent F → Prop
  | .desktop e => Desktop.Targeted b.desktop e ∧ ¬ Restores e
  | .forward => b.desktop.signals.length-b.place ≤ 64

structure Tells (ids : List WorkspaceId) (b : Bus F) : Prop where
  told : Told b.desktop
  taken : b.delivered = b.desktop.signals.take b.place
  place : b.place ≤ b.desktop.signals.length
  known : (known ids b.desktop.signals).Perm b.desktop.window.order

variable {b b' : Bus F} {ids : List WorkspaceId}

theorem tells_step (h : Tells ids b) {e : BusEvent F} (hok : b.Prompt e)
    (hs : b.step e = some b') : Tells ids b' := by
  cases e with
  | desktop e =>
    obtain ⟨d,hd,rfl⟩ := Option.map_eq_some_iff.mp hs
    obtain ⟨sent,hsent,hk⟩ := signals_step h.told.window hok.2 hd
    refine ⟨told_step h.told e hok.1 hd,?_,?_,?_⟩
    · rw [h.taken,hsent,List.take_append_of_le_length h.place]
    · rw [hsent,List.length_append]
      exact h.place.trans (Nat.le_add_right _ _)
    · rw [hsent,known_append]
      exact hk _ h.known
  | forward =>
    simp only [step] at hs
    rw [if_neg (Nat.not_lt.mpr hok)] at hs
    obtain ⟨s,hget,rfl⟩ := Option.map_eq_some_iff.mp hs
    obtain ⟨hlt,rfl⟩ := List.getElem?_eq_some_iff.mp hget
    refine ⟨h.told,?_,hlt,h.known⟩
    rw [h.taken]
    exact List.take_append_getElem hlt

/-- A listener that has heard everything since it asked for the workspaces knows those that
are open. -/
theorem listener_knows {aw : AppWindow F} (he : aw.workspaces = []) {d : Desktop F}
    (hd : Reach Desktop.step Desktop.Targeted (start aw) d)
    (h : Reach step Prompt (subscribe d) b) (hall : b.place = b.desktop.signals.length) :
    (Desktop.known d.window.order b.delivered).Perm b.desktop.window.order := by
  have ht : Told d := hd.inv (.start he) (fun d e d' hd hok hs => told_step hd e hok hs)
  have hb : Tells d.window.order b :=
    h.inv ⟨⟨⟨ht.window,ht.belled,ht.rows,ht.panes⟩,ht.entry,ht.once,ht.listed⟩,rfl,le_rfl,.refl _⟩
      (fun b e b' hb hok hs => tells_step hb hok hs)
  rw [hb.taken,hall,List.take_length]
  exact hb.known

theorem listener_knows_created :
    (Desktop.known [] [.workspaceCreated 1 "Workspace 1"]).Perm [1] :=
  listener_knows (rfl : AppWindow.start.workspaces = []) .start
    (.next .forward (.next (.desktop (.op .newWorkspace (some 0) [0])) .start
      ⟨trivial,id⟩ rfl) (Nat.le_of_ble_eq_true rfl) rfl) rfl

end Bus

end Limux
