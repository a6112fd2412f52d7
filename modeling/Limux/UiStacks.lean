import Limux.UiSteps

/-! The stack of every pane has one child for each of its tabs and shows the selected one, as
long as no tab is closed that has others beside it. -/
namespace Limux

variable {F : Type}

def PanelKind.stackChild (k : PanelKind) : StackChild := ⟨k.stackChildName,k.widget⟩

theorem eq_of_toString {a b : ℕ} (h : toString a = toString b) : a = b := by
  have hd : Nat.toDigits 10 a = Nat.toDigits 10 b := by
    rw [← Nat.toList_repr,← Nat.toList_repr]
    exact congrArg String.toList h
  calc a = Nat.ofDigitChars 10 (Nat.toDigits 10 a) 0 := Nat.ofDigitChars_ten_toDigits.symm
    _ = Nat.ofDigitChars 10 (Nat.toDigits 10 b) 0 := by rw [hd]
    _ = b := Nat.ofDigitChars_ten_toDigits

/-- The name of a child says which one it is. -/
theorem stackChild_of_name {k k' : PanelKind} (h : k.stackChildName = k'.stackChildName) :
    k.stackChild = k'.stackChild := by
  have hl := congrArg String.toList h
  cases k with
  | terminal s =>
    cases k' with
    | terminal s' =>
      simp only [PanelKind.stackChildName,String.toList_append,List.append_cancel_left_eq] at hl
      rw [eq_of_toString (String.toList_inj.mp hl)]
    | browser b url => simp [PanelKind.stackChildName] at hl
  | browser b url =>
    cases k' with
    | terminal s' => simp [PanelKind.stackChildName] at hl
    | browser b' url' =>
      simp only [PanelKind.stackChildName,String.toList_append,List.append_cancel_left_eq] at hl
      obtain rfl := eq_of_toString (String.toList_inj.mp hl)
      rfl

theorem identity_of_stackChild {t t' : Tab} (h : t.panel.stackChild = t'.panel.stackChild) :
    t.identity = t'.identity := by
  have hw : t.panel.widget = t'.panel.widget := congrArg StackChild.widget h
  unfold Tab.identity
  cases hp : t.panel <;> cases hp' : t'.panel <;> rw [hp,hp'] at hw <;> cases hw <;> rfl

namespace Stack

/-- One child for each of the panels. -/
def Holds (s : Stack) (ks : List PanelKind) : Prop :=
  s.children.Perm (ks.map PanelKind.stackChild)

variable {s : Stack} {k : PanelKind} {ks : List PanelKind}

theorem Holds.childByName (h : s.Holds ks) (hk : k ∈ ks) :
    s.childByName k.stackChildName = some k.stackChild := by
  have hm : k.stackChild ∈ s.children := h.mem_iff.mpr (List.mem_map_of_mem hk)
  obtain ⟨c,hc⟩ : ∃ c, s.childByName k.stackChildName = some c :=
    Option.isSome_iff_exists.mp (List.find?_isSome.mpr ⟨k.stackChild,hm,by
      simp [PanelKind.stackChild]⟩)
  obtain ⟨k',-,rfl⟩ := List.mem_map.mp (h.mem_iff.mp (List.mem_of_find?_eq_some hc))
  have hfound := List.find?_some (p := fun c : StackChild => c.name = k.stackChildName) hc
  rw [hc,stackChild_of_name (of_decide_eq_true hfound)]

theorem Holds.add (h : s.Holds ks) (k : PanelKind) : (s.addNamed k.stackChild).Holds (k :: ks) := by
  refine List.perm_append_comm.trans ?_
  exact h.cons k.stackChild

theorem Holds.remove (h : s.Holds (k :: ks)) : (s.remove k.stackChildName).Holds ks := by
  have hm : k.stackChild ∈ s.children := h.mem_iff.mpr List.mem_cons_self
  obtain ⟨c,l₁,l₂,-,hc,hl,he⟩ := List.exists_of_eraseP (p := fun c => c.name = k.stackChildName) hm
    (by simp [PanelKind.stackChild])
  have hcm : c ∈ s.children := by simp [hl]
  obtain ⟨k',-,rfl⟩ := List.mem_map.mp (h.mem_iff.mp hcm)
  have hk : k'.stackChild = k.stackChild := stackChild_of_name (of_decide_eq_true hc)
  have hp : (k.stackChild :: (l₁ ++ l₂)).Perm (k.stackChild :: ks.map PanelKind.stackChild) := by
    refine List.Perm.trans ?_ h
    rw [hl,hk]
    exact List.perm_middle.symm
  show (s.children.eraseP _).Perm _
  rw [he]
  exact hp.cons_inv

/-- What `showActive` does to the stack of the pane. -/
def showActive (s : Stack) (pane : Pane) : Stack :=
  match pane.activePanel with
  | some k => s.setVisibleChildName k.stackChildName
  | none => s

@[simp] theorem children_showActive (s : Stack) (pane : Pane) :
    (s.showActive pane).children = s.children := by
  unfold showActive
  split
  · unfold Stack.setVisibleChildName
    split <;> rfl
  · rfl

/-- The children of the tabs of a pane, with the one of the selected tab shown. -/
structure Mirrors (s : Stack) (pane : Pane) : Prop where
  children : s.Holds (pane.tabs.map Tab.panel)
  visible : s.visible = pane.activePanel.map PanelKind.stackChildName

variable {pane pane' : Pane}

/-- The shown child follows the selected tab of a pane with the same tabs. -/
theorem Holds.showActive (h : s.Holds (pane.tabs.map Tab.panel)) {k : PanelKind}
    (hk : pane.activePanel = some k) : (s.showActive pane).Mirrors pane := by
  have hm : k ∈ pane.tabs.map Tab.panel := by
    obtain ⟨t,ht,rfl⟩ := Option.map_eq_some_iff.mp hk
    exact List.mem_map_of_mem (List.mem_of_getElem? ht)
  refine ⟨?_,?_⟩
  · rw [Holds,children_showActive]
    exact h
  · simp only [Stack.showActive,hk,Stack.setVisibleChildName,h.childByName hm,Option.isSome_some,
      if_true,Option.map_some]

theorem Mirrors.alike (h : s.Mirrors pane) (ha : pane.Alike pane') : s.Mirrors pane' :=
  ⟨h.children.trans (ha.panels.symm.map _),by rw [ha.active]; exact h.visible⟩

theorem Holds.put (h : s.Holds ks) (k : PanelKind) (pane' : Pane)
    (hp : (pane'.tabs.map Tab.panel).Perm (k :: ks)) (ha : pane'.activePanel = some k) :
    ((s.addNamed k.stackChild).setVisibleChildName k.stackChildName).Mirrors pane' := by
  have hadd : (s.addNamed k.stackChild).Holds (pane'.tabs.map Tab.panel) :=
    (h.add k).trans (hp.symm.map _)
  have hshow := hadd.showActive ha
  rwa [Stack.showActive,ha] at hshow

end Stack

namespace WorkspaceWidgets

def stackOf (ww : WorkspaceWidgets) (p : PaneId) : Option Stack :=
  (ww.paneWidgets.lookup p).map PaneWidget.stack

variable (ww : WorkspaceWidgets) (p q : PaneId)

theorem stackOf_congr {ww ww' : WorkspaceWidgets} (h : ww'.paneWidgets = ww.paneWidgets) :
    ww'.stackOf q = ww.stackOf q := by
  rw [stackOf,stackOf,h]

theorem stackOf_insert (pw : PaneWidget) {ww' : WorkspaceWidgets}
    (h : ww'.paneWidgets = ww.paneWidgets.insert p pw) :
    ww'.stackOf q = if q = p then some pw.stack else ww.stackOf q := by
  rw [stackOf,h,HashMap.lookup_insert_ite]
  split_ifs <;> rfl

@[simp] theorem stackOf_modifyStack (f : Stack → Stack) :
    (ww.modifyStack p f).stackOf q = if q = p then (ww.stackOf p).map f else ww.stackOf q := by
  rw [stackOf,modifyStack,HashMap.lookup_modify]
  split_ifs
  · rw [stackOf,Option.map_map,Option.map_map]
    rfl
  · rfl

@[simp] theorem stackOf_showActive (pane : Pane) : (ww.showActive p pane).stackOf q =
    if q = p then (ww.stackOf p).map (fun s => s.showActive pane) else ww.stackOf q := by
  unfold showActive Stack.showActive
  cases pane.activePanel with
  | none =>
    simp only [Option.map_id']
    split_ifs with hq
    · rw [hq]
    · rfl
  | some k => exact stackOf_modifyStack ww p q _

@[simp] theorem stackOf_removePane :
    (ww.removePane p).stackOf q = if q = p then none else ww.stackOf q := by
  have herase : (ww.removePane p).paneWidgets = ww.paneWidgets.erase p := by
    unfold removePane
    split
    · rename_i hn
      exact (HashMap.erase_of_notMem hn).symm
    · dsimp only
      split
      · rfl
      · split_ifs
        · split <;> rfl
        · split <;> rfl
  rw [stackOf,herase,HashMap.lookup_erase_ite]
  split_ifs <;> rfl

theorem paneWidgets_addSplit (only : Bool) (target new : PaneId) (pw : PaneWidget)
    (o : Orientation) (node : Option NodeId) :
    (ww.addSplit only target new pw o node).paneWidgets = ww.paneWidgets.insert new pw := by
  unfold addSplit
  dsimp only
  split_ifs
  · split <;> rfl
  · split
    · rfl
    · split
      · rfl
      · split <;> rfl

theorem paneWidgets_buildWidget (t : TreeSnapshot) :
    (buildWidget t ww).2.paneWidgets = ww.paneWidgets := by
  induction t generalizing ww with
  | leaf p =>
    unfold buildWidget
    split <;> rfl
  | split o node a b iha ihb =>
    show (buildWidget b (buildWidget a _).2).2.paneWidgets = _
    rw [ihb,iha]

@[simp] theorem stackOf_rebuild (snapshot : Option TreeSnapshot) :
    (ww.rebuild snapshot).stackOf q = ww.stackOf q := by
  refine stackOf_congr q ?_
  cases snapshot with
  | none => rfl
  | some s => exact paneWidgets_buildWidget _ s

end WorkspaceWidgets

theorem Ui.paneWidgets_placeTab {ww ww' : WorkspaceWidgets} {container : WidgetId}
    {pw : PaneWidget} {new : PaneId} {nested : Option (WidgetId × Bool)} {only before : Bool}
    {o : Orientation} {node : NodeId}
    (h : Ui.placeTab ww container pw new nested only before o node = some ww') :
    ww'.paneWidgets = ww.paneWidgets.insert new pw := by
  unfold Ui.placeTab at h
  cases only with
  | true =>
    cases h
    rfl
  | false =>
    obtain ⟨e,-,rfl⟩ := Option.map_eq_some_iff.mp h
    rfl

/-- The stack of every pane mirrors its tabs. -/
def Mirrored (ws : Workspace F) (ww : WorkspaceWidgets) : Prop :=
  ∀ p, Option.Rel (fun pane s => s.Mirrors pane) (ws.panes.lookup p) (ww.stackOf p)

/-- No stack has a child but those of the open tabs of its pane. -/
def OpenOnly (ws : Workspace F) (ww : WorkspaceWidgets) : Prop :=
  ∀ p s, ww.stackOf p = some s → ∀ c ∈ s.children, ∃ pane, ws.panes.lookup p = some pane ∧
    ∃ t ∈ pane.tabs, c = t.panel.stackChild

namespace Mirrored

variable {ws ws' : Workspace F} {ww ww' : WorkspaceWidgets}

theorem stack (h : Mirrored ws ww) {p : PaneId} {pane : Pane}
    (hl : ws.panes.lookup p = some pane) : ∃ s, ww.stackOf p = some s ∧ s.Mirrors pane := by
  have hp := h p
  rw [hl] at hp
  generalize ww.stackOf p = o at hp
  cases hp with
  | some hm => exact ⟨_,rfl,hm⟩

theorem openOnly (h : Mirrored ws ww) : OpenOnly ws ww := by
  intro p s hs c hc
  have hp := h p
  rw [hs] at hp
  generalize ws.panes.lookup p = o at hp
  cases hp with
  | @some pane _ hm =>
    obtain ⟨k,hk,rfl⟩ := List.mem_map.mp (hm.children.mem_iff.mp hc)
    obtain ⟨t,ht,rfl⟩ := List.mem_map.mp hk
    exact ⟨pane,rfl,t,ht,rfl⟩

theorem same (h : Mirrored ws ww) {p : PaneId} (hp : ws'.panes.lookup p = ws.panes.lookup p)
    (hs : ww'.stackOf p = ww.stackOf p) :
    Option.Rel (fun pane s => s.Mirrors pane) (ws'.panes.lookup p) (ww'.stackOf p) := by
  rw [hp,hs]
  exact h p

theorem alike (h : Mirrored ws ww) (ha : ws.SamePanes ws') : Mirrored ws' ww := by
  intro p
  have hp := h p
  have hap := ha.panes p
  revert hp hap
  generalize ws.panes.lookup p = a, ws'.panes.lookup p = b, ww.stackOf p = c
  intro hp hap
  cases hap with
  | none =>
    cases hp
    exact .none
  | some hab =>
    cases hp with
    | some hm => exact .some (hm.alike hab)

theorem edit (h : Mirrored ws ww) {p : PaneId} {pane pane' : Pane} {f : Stack → Stack}
    (hl : ws.panes.lookup p = some pane)
    (hp : ∀ q, ws'.panes.lookup q = if q = p then some pane' else ws.panes.lookup q)
    (hs : ∀ q, ww'.stackOf q = if q = p then (ww.stackOf p).map f else ww.stackOf q)
    (hf : ∀ s : Stack, s.Mirrors pane → (f s).Mirrors pane') : Mirrored ws' ww' := by
  intro q
  rw [hp,hs]
  split_ifs
  · obtain ⟨s,hs',hm⟩ := h.stack hl
    rw [hs']
    exact .some (hf s hm)
  · exact h q

end Mirrored

theorem activePanel_of_inv {ws : Workspace F} (h : WsInv ws) {p : PaneId} {pane : Pane}
    (hl : ws.panes.lookup p = some pane) : ∃ k, pane.activePanel = some k := by
  have hlt := h.selected p pane hl (h.tabs p pane hl)
  exact ⟨_,by rw [Pane.activePanel,List.getElem?_eq_getElem hlt,Option.map_some]⟩

theorem tabPanelWidget_own {k : PanelKind} {panel : PanelWidget}
    (h : tabPanelWidget k k.widget = some panel) : panel = k.widget := by
  cases k <;> exact (Option.some.inj h).symm

theorem mirrors_built {ww ww₁ : WorkspaceWidgets} {k : PanelKind} {pw : PaneWidget} (pane : Pane)
    (hb : ww.buildPaneWidget k k.widget = (pw,ww₁)) (ht : pane.tabs.map Tab.panel = [k])
    (ha : pane.activePanel = some k) :
    pw.stack.Mirrors pane ∧ ww₁.paneWidgets = ww.paneWidgets := by
  have hempty : (⟨[],none⟩ : Stack).Holds [] := .refl _
  have hp := hempty.put k pane (by rw [ht]) ha
  cases hb
  exact ⟨hp,rfl⟩

namespace Ui.Taken

variable {ws : Workspace F} {ww : WorkspaceWidgets} {source : PaneId} {tab : Tab} {rest : Pane}
  {moving : StackChild}

theorem perm (h : Taken ws ww source tab rest moving) : ∃ pane,
    ws.panes.lookup source = some pane ∧
      (pane.tabs.map Tab.panel).Perm (tab.panel :: rest.tabs.map Tab.panel) := by
  obtain ⟨pane,k,hl,hk,hr⟩ := h.tabs
  refine ⟨pane,hl,?_⟩
  rw [hr]
  exact (removeTab_perm hk).map Tab.panel

/-- The moving child carries the widget of its tab. -/
theorem widget (h : Taken ws ww source tab rest moving) (hm : Mirrored ws ww) :
    moving.widget = tab.panel.widget := by
  obtain ⟨pane,hl,hp⟩ := h.perm
  obtain ⟨pw,hpw,hc⟩ := h.child
  obtain ⟨s,hs,hmir⟩ := hm.stack hl
  have hps : pw.stack = s := by
    rw [WorkspaceWidgets.stackOf,hpw] at hs
    exact Option.some.inj hs
  rw [hps,hmir.children.childByName (hp.mem_iff.mpr List.mem_cons_self)] at hc
  rw [← Option.some.inj hc]
  rfl

theorem holds (h : Taken ws ww source tab rest moving) (hm : Mirrored ws ww) : ∃ s,
    (takeChild ww source tab).stackOf source = some s ∧ s.Holds (rest.tabs.map Tab.panel) := by
  obtain ⟨pane,hl,hp⟩ := h.perm
  obtain ⟨s,hs,hmir⟩ := hm.stack hl
  refine ⟨s.remove tab.panel.stackChildName,?_,?_⟩
  · rw [takeChild,WorkspaceWidgets.stackOf_modifyStack,if_pos rfl,hs]
    rfl
  · refine Stack.Holds.remove ?_
    exact hmir.children.trans (hp.map _)

theorem stackOf_other (ww : WorkspaceWidgets) (tab : Tab) {q : PaneId} (hq : q ≠ source) :
    (takeChild ww source tab).stackOf q = ww.stackOf q := by
  rw [takeChild,WorkspaceWidgets.stackOf_modifyStack,if_neg hq]

/-- The source of a move shows its selected tab again. -/
theorem left (h : Taken ws ww source tab rest moving) (hm : Mirrored ws ww) {k : PanelKind}
    (hk : rest.activePanel = some k) {ww' : WorkspaceWidgets}
    (hs : ww'.stackOf source = (takeChild ww source tab).stackOf source) :
    Option.Rel (fun pane s => s.Mirrors pane) (some rest)
      ((ww'.showActive source rest).stackOf source) := by
  obtain ⟨s,hts,hh⟩ := h.holds hm
  rw [WorkspaceWidgets.stackOf_showActive,if_pos rfl,hs,hts]
  exact .some (hh.showActive hk)

end Ui.Taken

theorem mirrors_moved {tpane : Pane} {d : ℕ} {tab : Tab} {moving : StackChild} {s : Stack}
    (h : s.Mirrors tpane) (hd : d ≤ tpane.tabs.length) (hw : moving.widget = tab.panel.widget) :
    ((s.addNamed ⟨tab.panel.stackChildName,moving.widget⟩).setVisibleChildName
      tab.panel.stackChildName).Mirrors (tpane.withTab d tab) := by
  rw [hw]
  refine h.children.put tab.panel _ ?_ ?_
  · exact (List.perm_insertIdx tab tpane.tabs hd).map Tab.panel
  · rw [Pane.activePanel,Pane.withTab,List.getElem?_insertIdx_self,if_pos hd]
    rfl

namespace Mirrored

variable [F64Ops F] {ui : Ui F} {op : WindowOp F} {ws ws' : Workspace F}
  {ww ww' : WorkspaceWidgets}

/-- Every edit but a close beside other tabs keeps the stacks in step. -/
theorem edited (h : Mirrored ws ww) (hall : ui.Each Mirrored) (hinv : WsInv ws')
    (hop : ¬ Ui.ClosesOne ui.window op) (he : Ui.Edit ui op ws ww ws' ww') : Mirrored ws' ww' := by
  cases he with
  | keep ha => exact h.alike ha
  | @push _ p pane panel hl hp _ =>
    refine h.edit hl hp (fun q => WorkspaceWidgets.stackOf_modifyStack ww p q _) (fun s hm => ?_)
    refine hm.children.put panel _ ?_ ?_
    · simp [Pane.push,Tab.fresh]
    · simp [Pane.push,Pane.activePanel,Tab.fresh]
  | @select _ p pane pane' hl ht hp _ =>
    obtain ⟨k,hk⟩ := activePanel_of_inv hinv
      (by rw [hp,if_pos rfl] : ws'.panes.lookup p = some pane')
    refine h.edit hl hp (fun q => WorkspaceWidgets.stackOf_showActive ww p q pane') (fun s hm => ?_)
    refine Stack.Holds.showActive ?_ hk
    rw [ht]
    exact hm.children
  | close _ hone => exact absurd hone hop
  | @split _ target new panel o pw ww₁ _ _ hb hp _ =>
    obtain ⟨hm,hww⟩ := mirrors_built (.single new panel) hb rfl rfl
    intro q
    rw [hp,WorkspaceWidgets.stackOf_insert _ _ q pw
      (WorkspaceWidgets.paneWidgets_addSplit ww₁ _ target new pw o _)]
    split_ifs
    · exact .some hm
    · exact h.same rfl (WorkspaceWidgets.stackOf_congr q hww)
  | @drop _ p _ _ hp _ =>
    intro q
    rw [hp,WorkspaceWidgets.stackOf_removePane]
    split_ifs
    · exact .none
    · exact h q
  | move hp _ => exact fun q => h.same (hp q) (WorkspaceWidgets.stackOf_rebuild ww q _)
  | @splitTab _ ww₁ _ source new tab rest moving panel spw pw o before node nested _ ht hne hm _ hb
      hp _ _ _ hplace =>
    obtain rfl := tabPanelWidget_own (ht.widget h ▸ hm)
    obtain ⟨hpw,hww⟩ := mirrors_built (paneFromTab new tab) hb rfl rfl
    intro q
    rw [hp,WorkspaceWidgets.stackOf_insert _ _ q pw (Ui.paneWidgets_placeTab hplace)]
    split_ifs with hn hq
    · exact .some hpw
    · subst hq
      obtain ⟨k,hk⟩ := activePanel_of_inv hinv
        (by rw [hp,if_neg hn,if_pos rfl] : ws'.panes.lookup q = some rest)
      exact ht.left h hk (WorkspaceWidgets.stackOf_congr q hww)
    · refine h.same rfl ?_
      rw [WorkspaceWidgets.stackOf_showActive,if_neg hq,WorkspaceWidgets.stackOf_congr q hww,
        Ui.Taken.stackOf_other ww tab hq]
  | @splitTarget _ ww₁ ww₂ source new tab rest moving panel pw _ ht _ hm hb h2 hp _ =>
    obtain rfl := tabPanelWidget_own (ht.widget h ▸ hm)
    obtain ⟨hpw,hww⟩ := mirrors_built (paneFromTab new tab) hb rfl rfl
    have hww₂ : ∀ q, q ≠ source → ww₂.stackOf q = ww.stackOf q := by
      intro q hq
      rw [← Ui.Taken.stackOf_other ww tab hq,← WorkspaceWidgets.stackOf_congr q hww,h2]
      split_ifs <;> simp [hq]
    intro q
    rw [hp,WorkspaceWidgets.stackOf_rebuild,WorkspaceWidgets.stackOf_insert ww₂ new q pw rfl]
    split_ifs with hn hq he
    · exact .some hpw
    · rw [h2,if_pos he,hq,WorkspaceWidgets.stackOf_removePane,if_pos rfl]
      exact .none
    · subst hq
      obtain ⟨k,hk⟩ := activePanel_of_inv hinv
        (by rw [hp,if_neg hn,if_pos rfl,if_neg he] : ws'.panes.lookup q = some rest)
      rw [h2,if_neg he]
      exact ht.left h hk (WorkspaceWidgets.stackOf_congr q hww)
    · exact h.same rfl (hww₂ q hq)
  | @moveTab _ source target tab rest tpane d moving ht hne hst htp hd hp _ =>
    obtain ⟨k,hk⟩ := activePanel_of_inv hinv
      (by rw [hp,if_neg hst,if_pos rfl] : ws'.panes.lookup source = some rest)
    obtain ⟨s,hs,hm⟩ := h.stack htp
    intro q
    rw [hp]
    split_ifs with hqt hq
    · subst hqt
      rw [WorkspaceWidgets.stackOf_showActive,if_neg (Ne.symm hst),Ui.moveChild,
        WorkspaceWidgets.stackOf_modifyStack,if_pos rfl,Ui.Taken.stackOf_other ww tab (Ne.symm hst),
        hs]
      exact .some (mirrors_moved hm hd (ht.widget h))
    · subst hq
      refine ht.left h hk ?_
      rw [Ui.moveChild,WorkspaceWidgets.stackOf_modifyStack,if_neg hst]
    · refine h.same rfl ?_
      rw [WorkspaceWidgets.stackOf_showActive,if_neg hq,Ui.moveChild,
        WorkspaceWidgets.stackOf_modifyStack,if_neg hqt,Ui.Taken.stackOf_other ww tab hq]
  | @moveLast _ source target tab rest tpane d moving ht hst htp hd hp _ =>
    obtain ⟨s,hs,hm⟩ := h.stack htp
    intro q
    rw [hp,WorkspaceWidgets.stackOf_rebuild,WorkspaceWidgets.stackOf_removePane]
    split_ifs with hq hqt
    · exact .none
    · subst hqt
      rw [Ui.moveChild,WorkspaceWidgets.stackOf_modifyStack,if_pos rfl,
        Ui.Taken.stackOf_other ww tab hq,hs]
      exact .some (mirrors_moved hm hd (ht.widget h))
    · refine h.same rfl ?_
      rw [Ui.moveChild,WorkspaceWidgets.stackOf_modifyStack,if_neg hqt,
        Ui.Taken.stackOf_other ww tab hq]
  | @give _ source tab rest moving ht hne hp _ =>
    obtain ⟨k,hk⟩ := activePanel_of_inv hinv
      (by rw [hp,if_pos rfl] : ws'.panes.lookup source = some rest)
    intro q
    rw [hp]
    split_ifs with hq
    · subst hq
      exact ht.left h hk rfl
    · refine h.same rfl ?_
      rw [WorkspaceWidgets.stackOf_showActive,if_neg hq,Ui.Taken.stackOf_other ww tab hq]
  | @giveLast _ source tab rest moving ht hp _ =>
    intro q
    rw [hp,WorkspaceWidgets.stackOf_rebuild,WorkspaceWidgets.stackOf_removePane]
    split_ifs with hq
    · exact .none
    · exact h.same rfl (Ui.Taken.stackOf_other ww tab hq)
  | @receive sws _ sww source target tab rest tpane d moving hsws hsww ht htp hd hp _ =>
    obtain ⟨sww',hsww',hs⟩ := hall sws hsws
    obtain rfl := Option.some.inj (hsww.symm.trans hsww')
    exact h.edit htp hp (fun q => WorkspaceWidgets.stackOf_modifyStack ww target q _)
      (fun s hm => mirrors_moved hm hd (ht.widget hs))

end Mirrored

/-! New workspaces. -/

theorem savedPanel_eq (ids : IdCounters) (t : PaneTabSnapshot) :
    WorkspaceWidgets.savedPanel ids t = ((restoredTab ids t).panel,takeTabId ids t) := by
  unfold WorkspaceWidgets.savedPanel restoredTab takeTabId
  split <;> rfl

/-- The pane allocator has no part in the tabs. -/
theorem restoredTabs_pane (ids : IdCounters) (n : PaneId) (ts : List PaneTabSnapshot) :
    restoredTabs { ids with pane := n } ts = restoredTabs ids ts := by
  induction ts generalizing ids with
  | nil => rfl
  | cons t ts ih =>
    have hid : takeTabId { ids with pane := n } t = { takeTabId ids t with pane := n } := by
      unfold takeTabId
      split <;> rfl
    have htab : restoredTab { ids with pane := n } t = restoredTab ids t := rfl
    rw [restoredTabs,restoredTabs,hid,ih,htab]

theorem holds_foldl (rest : List PaneTabSnapshot) {s : Stack} {ks : List PanelKind}
    (h : s.Holds ks) (ids : IdCounters) : (rest.foldl (fun (s : Stack × IdCounters) t =>
      let (panel,ids) := WorkspaceWidgets.savedPanel s.2 t
      (s.1.addNamed ⟨panel.stackChildName,panel.widget⟩,ids)) (s,ids)).1.Holds
        (ks ++ (restoredTabs ids rest).map Tab.panel) := by
  induction rest generalizing s ks ids with
  | nil => simpa [restoredTabs] using h
  | cons t rest ih =>
    rw [List.foldl_cons]
    simp only [savedPanel_eq]
    have hadd := ih (h.add (restoredTab ids t).panel) (takeTabId ids t)
    simp only [savedPanel_eq] at hadd
    refine hadd.trans (List.Perm.map _ ?_)
    exact List.perm_middle.symm

theorem mirrors_restorePaneWidget (ww : WorkspaceWidgets) (ids : IdCounters)
    (tabs : List PaneTabSnapshot) :
    (ww.restorePaneWidget ids tabs).1.stack.Mirrors (AppWindow.restorePane ids tabs).1 := by
  obtain ⟨pane,he,-,-,hsel,htabs⟩ := restorePane_spec ids tabs
  rw [restoredTabs_pane] at htabs
  rw [he]
  cases tabs with
  | nil =>
    have ht : pane.tabs.map Tab.panel = [.terminal ids.surface] := by rw [htabs]; rfl
    have ha : pane.activePanel = some (.terminal ids.surface) := by
      rw [Pane.activePanel,hsel,htabs]
      rfl
    exact (mirrors_built pane (rfl : ww.buildPaneWidget _ _ = _) ht ha).1
  | cons t rest =>
    have hfirst : (restoredTab ids (firstTab t)).panel = (restoredTab ids t).panel := by
      unfold restoredTab
      rw [show (firstTab t).isBrowser = t.isBrowser from rfl]
      split <;> rfl
    have hpanels : pane.tabs.map Tab.panel = (restoredTab ids t).panel ::
        (restoredTabs (takeTabId ids t) rest).map Tab.panel := by
      rw [htabs,← hfirst]
      rfl
    have ha : pane.activePanel = some (restoredTab ids t).panel := by
      rw [Pane.activePanel,hsel,← List.getElem?_map,hpanels]
      rfl
    have hempty : (⟨[],none⟩ : Stack).Holds [] := .refl _
    have hone := (hempty.put (restoredTab ids t).panel (.single 0 (restoredTab ids t).panel)
      (.refl _) rfl).children
    have hall := holds_foldl rest hone (takeTabId ids t)
    have hheld : Stack.Holds _ (pane.tabs.map Tab.panel) :=
      hall.trans (.of_eq (by rw [hpanels]; rfl))
    have hshow := hheld.showActive ha
    unfold Stack.showActive at hshow
    simp only [ha] at hshow
    unfold WorkspaceWidgets.restorePaneWidget
    simp only [savedPanel_eq] at hshow ⊢
    exact hshow

theorem mirrored_buildLayout (ord : IterOrder NodeId) (l : LayoutSnapshot F)
    {s : Workspace F × IdCounters} {ww : WorkspaceWidgets} (h : Mirrored s.1 ww) :
    Mirrored (AppWindow.buildLayout ord l s).2.1
      (WorkspaceWidgets.buildLayoutWidget ord l s ww).2 := by
  induction l generalizing s ww with
  | single tabs =>
    have hwid : (ww.restorePaneWidget s.2 tabs).2.paneWidgets = ww.paneWidgets := by
      cases tabs <;> rfl
    have hm := mirrors_restorePaneWidget ww s.2 tabs
    simp only [AppWindow.buildLayout,WorkspaceWidgets.buildLayoutWidget,Workspace.addPane]
    intro q
    rw [HashMap.lookup_insert_ite,WorkspaceWidgets.stackOf_insert _ _ q _ rfl]
    split_ifs
    · exact .some hm
    · exact h.same rfl (WorkspaceWidgets.stackOf_congr q hwid)
  | split o ratio a b iha ihb =>
    simp only [AppWindow.buildLayout,WorkspaceWidgets.buildLayoutWidget]
    intro q
    refine (ihb (iha h)).same rfl (WorkspaceWidgets.stackOf_congr q ?_)
    split <;> rfl

theorem mirrored_made [F64Ops F] {ui : Ui F} {op : WindowOp F} {ws : Workspace F}
    {ww : WorkspaceWidgets} (h : Ui.Made ui op ws ww) : Mirrored ws ww := by
  have hempty : ∀ {w : Workspace F}, w.panes = ∅ → Mirrored w .new := by
    intro w hw q
    rw [hw]
    exact .none
  cases h with
  | fresh hp _ =>
    obtain ⟨hm,hww⟩ := mirrors_built (.newWithId ui.window.ids.pane ui.window.ids.surface)
      (rfl : WorkspaceWidgets.new.buildPaneWidget (.terminal ui.window.ids.surface) _ = _) rfl rfl
    intro q
    have hl : ws.panes.lookup q = if q = ui.window.ids.pane then
        some (.newWithId ui.window.ids.pane ui.window.ids.surface) else none := by
      rw [hp]
      exact HashMap.lookup_insert_ite ∅ _ _ _
    rw [hl,WorkspaceWidgets.stackOf_insert _ _ q _ rfl]
    split_ifs
    · exact .some hm
    · exact .none
  | @restored ord snap _ _ _ s s' t root ww _ he hl hb hp _ =>
    have hm := mirrored_buildLayout ord snap.layout (hempty he)
    rw [hl,hb] at hm
    intro q
    exact hm.same (by rw [hp]) rfl

namespace Ui

variable {ui ui' : Ui F}

theorem Each.openOnly (h : ui.Each Mirrored) : ui.Each OpenOnly := fun ws hws =>
  (h ws hws).imp (fun _ hw => ⟨hw.1,hw.2.openOnly⟩)

/-- The child of a tab that is closed beside others is left behind. -/
theorem not_openOnly_closePanel (hinv : WindowInv ui.window) (hm : ui.Each Mirrored) {i : ℕ}
    {ws : Workspace F} {p : PaneId} {pane : Pane} {f : Tab → Bool}
    (hi : ui.window.workspaces[i]? = some ws) (hl : ws.panes.lookup p = some pane)
    (h2 : 2 ≤ pane.tabs.length) (hany : pane.tabs.any f = true)
    (hs : ui.closePanel i ws p (fun pane => pane.removeWhere f) = some ui') :
    ¬ ui'.Each OpenOnly := by
  intro hm'
  obtain ⟨ww,hww,hmir⟩ := hm ws (List.mem_of_getElem? hi)
  obtain ⟨aw',haw,hs⟩ := Option.map_eq_some_iff.mp hs
  simp only [AppWindow.closePanel,hl,Option.map_some,Option.getD_some] at haw hs
  have h1 : ¬ pane.tabs.length ≤ 1 := by omega
  simp only [h1,false_and,if_false,Option.some.injEq] at haw hs
  subst hs haw
  have hw : ws.modifyPane p (fun pane => pane.removeWhere f) ∈
      (ui.window.modifyWs i (fun ws =>
        ws.modifyPane p (fun pane => pane.removeWhere f))).workspaces := by
    refine List.mem_of_getElem? (i := i) ?_
    rw [AppWindow.modifyWs,List.getElem?_modify_eq,hi]
    rfl
  obtain ⟨ww',hww',hopen⟩ := hm' _ hw
  have hid : (ws.modifyPane p (fun pane => pane.removeWhere f)).id = ws.id := rfl
  rw [lookup_modifyWidgets hww,if_pos hid] at hww'
  obtain rfl := Option.some.inj hww'
  obtain ⟨s,hs,hc⟩ := hmir.stack hl
  obtain ⟨idx,hidx⟩ : ∃ idx, pane.tabs.findIdx? f = some idx := by
    rw [← Option.isSome_iff_exists,List.findIdx?_isSome]
    exact hany
  obtain ⟨hlt,-⟩ := List.findIdx?_eq_some_iff_getElem.mp hidx
  have hrm : (pane.removeWhere f).tabs = pane.tabs.eraseIdx idx := by
    simp only [Pane.removeWhere,hidx]
  -- its child is still there, and no other tab has it
  have hchild : (pane.tabs[idx]).panel.stackChild ∈ s.children := by
    refine hc.children.mem_iff.mpr (List.mem_map_of_mem ?_)
    exact List.mem_map_of_mem (List.getElem_mem hlt)
  obtain ⟨pane',hl',t,ht,he⟩ := hopen p (s.showActive (pane.removeWhere f))
    (by rw [WorkspaceWidgets.stackOf_showActive,if_pos rfl,hs]; rfl) _
    (by rw [Stack.children_showActive]; exact hchild)
  rw [lookup_modifyPane hl,if_pos rfl] at hl'
  obtain rfl := Option.some.inj hl'
  have hn : pane.identities.Nodup := by
    refine (List.nodup_flatMap.mp (hinv.pane_identities_nodup hi)).1 pane ?_
    exact HashMap.mem_values.mpr ⟨p,hl⟩
  refine not_mem_eraseIdx hn (i := idx) (x := (pane.tabs[idx]).identity) ?_ ?_
  · rw [Pane.identities,List.getElem?_map,List.getElem?_eq_getElem hlt]
    rfl
  · rw [hrm] at ht
    rw [Pane.identities,List.eraseIdx_map,show (pane.tabs[idx]).identity = t.identity from
      identity_of_stackChild he]
    exact List.mem_map_of_mem ht

variable [F64Ops F]

theorem not_openOnly_of_closesOne (hinv : WindowInv ui.window) (hm : ui.Each Mirrored)
    {op : WindowOp F} (hc : ClosesOne ui.window op) (hs : ui.step op = some ui') :
    ¬ ui'.Each OpenOnly := by
  cases op with
  | closeSurface s =>
    obtain ⟨i,ws,p,pane,hf,hl,h2⟩ := hc
    obtain ⟨hi,hp⟩ := findWs_spec hf
    obtain ⟨pane',hl',hany⟩ := paneForSurface_spec hp
    obtain rfl := Option.some.inj (hl.symm.trans hl')
    simp only [step,closeSurface,hf] at hs
    exact not_openOnly_closePanel hinv hm hi hl h2 hany hs
  | closeBrowser b =>
    obtain ⟨i,ws,p,pane,hf,hl,h2⟩ := hc
    obtain ⟨hi,hp⟩ := findWs_spec hf
    obtain ⟨pane',hl',hany⟩ := paneForBrowser_spec hp
    obtain rfl := Option.some.inj (hl.symm.trans hl')
    simp only [step,closeBrowser,hf] at hs
    exact not_openOnly_closePanel hinv hm hi hl h2 hany hs
  | _ => cases hc

/-- Every operation but the close of one of several tabs keeps the stacks in step. -/
theorem mirrored_run
    (h : Reach (fun ui op => op.Targeted ui.window ∧ ¬ ClosesOne ui.window op) ui) :
    ui.Each Mirrored := by
  refine h.each (fun _ _ ho => ho.1) ?_ ?_
  · exact fun ui op ws' ww' _ _ _ hmade => mirrored_made hmade
  · exact fun ui op ws ww ws' ww' ho _ hall _ hinv hm he => hm.edited hall hinv ho.2 he

/-- In a run that closes no tab with others beside it, the stacks mirror the tabs; the next
step keeps that exactly if it closes none either. -/
theorem stacks_mirror
    (h : Reach (fun ui op => op.Targeted ui.window ∧ ¬ ClosesOne ui.window op) ui) :
    ui.Each Mirrored ∧ ∀ op ui', op.Targeted ui.window → ui.step op = some ui' →
      (ui'.Each Mirrored ↔ ¬ ClosesOne ui.window op) := by
  have hinv := (h.window (fun _ _ ho => ho.1)).windowInv
  refine ⟨mirrored_run h,fun op ui' hop hs => ⟨fun hm hc => ?_,fun hc => ?_⟩⟩
  · exact not_openOnly_of_closesOne hinv (mirrored_run h) hc hs hm.openOnly
  · exact mirrored_run (.step op h ⟨hop,hc⟩ hs)

theorem stacks_mirror_twoTabs : twoTabs.Each Mirrored ∧ ∀ op ui', op.Targeted twoTabs.window →
    twoTabs.step op = some ui' → (ui'.Each Mirrored ↔ ¬ ClosesOne twoTabs.window op) :=
  stacks_mirror (.step .newPaneTab (.step .newWorkspace
    (.empty (rfl : AppWindow.start.workspaces = [])) ⟨trivial,id⟩ rfl) ⟨trivial,id⟩ rfl)

/-- As long as no tab is closed that has others beside it, the stacks mirror the tabs and hold
no widget of a closed tab; the next step keeps either exactly if it closes none. -/
theorem tabs_mirrored
    (h : Reach (fun ui op => op.Targeted ui.window ∧ ¬ ClosesOne ui.window op) ui) :
    (ui.Each Mirrored ∧ ui.Each OpenOnly) ∧
      ∀ op ui', op.Targeted ui.window → ui.step op = some ui' →
        (ui'.Each Mirrored ↔ ¬ ClosesOne ui.window op) ∧
        (ui'.Each OpenOnly ↔ ¬ ClosesOne ui.window op) := by
  have hinv := (h.window (fun _ _ ho => ho.1)).windowInv
  refine ⟨⟨mirrored_run h,(mirrored_run h).openOnly⟩,fun op ui' hop hs => ?_⟩
  have hleft : ClosesOne ui.window op → ¬ ui'.Each OpenOnly := fun hc =>
    not_openOnly_of_closesOne hinv (mirrored_run h) hc hs
  have hrun := fun hc => mirrored_run (.step op h ⟨hop,hc⟩ hs)
  exact ⟨⟨fun hm hc => hleft hc hm.openOnly,hrun⟩,fun ho hc => hleft hc ho,
    fun hc => (hrun hc).openOnly⟩

theorem tabs_mirrored_moved : ∃ ui₁ ui₂ : Ui ℚ,
    twoTabs.step (.splitTabToPane 1 (.surface 2) .horizontal false true) = some ui₁ ∧
      ui₁.step (.closeSurface 1) = some ui₂ ∧
      ui₂.window.workspaces.map (fun ws => ws.splitTree.panes) = [[2]] ∧
      (ui₂.Each Mirrored ∧ ui₂.Each OpenOnly) ∧
        ∀ op ui', op.Targeted ui₂.window → ui₂.step op = some ui' →
          (ui'.Each Mirrored ↔ ¬ ClosesOne ui₂.window op) ∧
          (ui'.Each OpenOnly ↔ ¬ ClosesOne ui₂.window op) := by
  have hone : Reach (fun ui op => op.Targeted ui.window ∧ ¬ ClosesOne ui.window op) twoTabs :=
    .step .newPaneTab (.step .newWorkspace (.empty (rfl : AppWindow.start.workspaces = []))
      ⟨trivial,id⟩ rfl) ⟨trivial,id⟩ rfl
  refine ⟨_,_,rfl,rfl,rfl,tabs_mirrored (.step (.closeSurface 1)
    (.step (.splitTabToPane 1 (.surface 2) .horizontal false true) hone ⟨trivial,id⟩ rfl)
      ⟨trivial,?_⟩ rfl)⟩
  rintro ⟨i,ws,p,pane,hf,hl,h2⟩
  cases hf
  cases hl
  exact absurd h2 (by decide)

/-- The first of two terminals is closed, and its widget stays in the stack. -/
theorem closed_tab_stays : ∃ (ui : Ui ℚ) (ws : Workspace ℚ) (ww : WorkspaceWidgets),
    Reach (fun ui op => op.Targeted ui.window) ui ∧ ui.window.workspaces = [ws] ∧
      ui.widgets.lookup ws.id = some ww ∧
      ws.panes.lookup 1 = some ⟨1,[.fresh (.terminal 2)],0⟩ ∧
      ww.stackOf 1 = some ⟨[⟨"surface-1",.glArea 1⟩,⟨"surface-2",.glArea 2⟩],some "surface-2"⟩ ∧
      ¬ ui.Each Mirrored := by
  have hrun : Reach (fun ui op => op.Targeted ui.window) twoTabs :=
    .step .newPaneTab (.step .newWorkspace (.empty (rfl : AppWindow.start.workspaces = []))
      trivial rfl) trivial rfl
  refine ⟨_,_,_,.step (.closeSurface 1) hrun trivial rfl,rfl,rfl,rfl,rfl,?_⟩
  intro h
  obtain ⟨ww,hw,hm⟩ := h _ List.mem_cons_self
  obtain ⟨s,hs,hc⟩ := hm.stack (p := 1) rfl
  obtain rfl := Option.some.inj hw
  obtain rfl := Option.some.inj hs
  exact absurd hc.children.length_eq (by decide)

end Ui

end Limux
