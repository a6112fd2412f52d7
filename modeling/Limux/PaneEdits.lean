import Limux.Window
import Mathlib.Data.List.Perm.Basic

/-! What the edits of one pane do to its tabs, its selection and the panel
identities it holds. -/
namespace Limux

def Tab.identity (t : Tab) : TabDragIdentity := panelDragIdentity t.panel

def Pane.identities (p : Pane) : List TabDragIdentity := p.tabs.map Tab.identity

theorem matchesPanel_iff (i : TabDragIdentity) (k : PanelKind) :
    i.matchesPanel k = true ↔ i = panelDragIdentity k := by
  cases i <;> cases k <;> simp [TabDragIdentity.matchesPanel,panelDragIdentity]

theorem surfaceId_eq_some (t : Tab) (s : SurfaceId) :
    t.surfaceId = some s ↔ t.identity = .surface s := by
  obtain ⟨k,a,b,c⟩ := t
  cases k <;> simp [Tab.surfaceId,Tab.identity,panelDragIdentity]

theorem browserId_eq_some (t : Tab) (b : BrowserPanelId) :
    t.browserId = some b ↔ t.identity = .browser b := by
  obtain ⟨k,a,c,d⟩ := t
  cases k <;> simp [Tab.browserId,Tab.identity,panelDragIdentity]

namespace Pane

variable {p : Pane}

/-- A pane with a selected tab. -/
structure Ok (p : Pane) : Prop where
  ne : p.tabs ≠ []
  sel : p.selectedTab < p.tabs.length

theorem ok_of_sel (h : p.selectedTab < p.tabs.length) : p.Ok :=
  ⟨by rintro he; rw [he] at h; simp at h,h⟩

theorem ok_single (id : PaneId) (k : PanelKind) : (single id k).Ok :=
  ok_of_sel (by simp [single])

theorem identities_single (id : PaneId) (k : PanelKind) :
    (single id k).identities = [panelDragIdentity k] := rfl

theorem ok_push (p : Pane) (k : PanelKind) : (p.push k).Ok := ok_of_sel (by simp [push])

theorem identities_push (p : Pane) (k : PanelKind) :
    (p.push k).identities = p.identities ++ [panelDragIdentity k] := by
  simp [push,identities,Tab.fresh,Tab.identity]

theorem ok_selectTab (h : p.Ok) (idx : ℕ) : (p.selectTab idx).Ok := by
  unfold selectTab
  split
  · rename_i hi; exact ok_of_sel hi
  · exact h

@[simp] theorem identities_selectTab (p : Pane) (idx : ℕ) :
    (p.selectTab idx).identities = p.identities := by
  unfold selectTab; split <;> rfl

@[simp] theorem id_selectTab (p : Pane) (idx : ℕ) : (p.selectTab idx).id = p.id := by
  unfold selectTab; split <;> rfl

theorem cycleTab_spec (h : p.Ok) (forward : Bool) :
    (p.cycleTab forward).id = p.id ∧ (p.cycleTab forward).Ok ∧
      (p.cycleTab forward).identities = p.identities := by
  have hpos : 0 < p.tabs.length := List.length_pos_of_ne_nil h.ne
  unfold cycleTab
  split
  · exact ⟨rfl,h,rfl⟩
  · split
    · exact ⟨rfl,ok_of_sel (Nat.mod_lt _ hpos),rfl⟩
    · exact ⟨rfl,ok_of_sel (Nat.mod_lt _ hpos),rfl⟩

theorem identities_modify (p : Pane) (idx : ℕ) {g : Tab → Tab}
    (hg : ∀ t, (g t).panel = t.panel) :
    (p.tabs.modify idx g).map Tab.identity = p.identities := by
  apply List.ext_getElem?
  intro i
  rw [List.getElem?_map,List.getElem?_modify,identities,List.getElem?_map,
    Option.map_eq_map,Option.map_map]
  congr 1
  funext t
  by_cases hi : idx = i
  · simp [hi,Tab.identity,hg]
  · simp [hi]

theorem updateWhere_spec (h : p.Ok) (f : Tab → Bool) {g : Tab → Tab}
    (hg : ∀ t, (g t).panel = t.panel) :
    (p.updateWhere f g).id = p.id ∧ (p.updateWhere f g).Ok ∧
      (p.updateWhere f g).identities = p.identities := by
  unfold updateWhere
  split
  · exact ⟨rfl,ok_of_sel (by simpa using h.sel),identities_modify p _ hg⟩
  · exact ⟨rfl,h,rfl⟩

theorem removeWhere_spec (h : p.Ok) (h2 : 2 ≤ p.tabs.length) (f : Tab → Bool) :
    (p.removeWhere f).id = p.id ∧ (p.removeWhere f).Ok ∧
      (p.removeWhere f).identities.Sublist p.identities := by
  unfold removeWhere
  split
  · rename_i idx hidx
    have hlt : idx < p.tabs.length := (List.findIdx?_eq_some_iff_getElem.mp hidx).1
    have hlen : (p.tabs.eraseIdx idx).length = p.tabs.length-1 := by
      simp [List.length_eraseIdx,hlt]
    refine ⟨rfl,ok_of_sel ?_,(List.eraseIdx_sublist _ _).map _⟩
    have hs := h.sel
    simp only
    split_ifs with hc
    · rw [hlen] at hc ⊢
      omega
    · have hne : p.tabs.eraseIdx idx ≠ [] := by
        intro he
        rw [he] at hlen
        simp at hlen
        omega
      rw [not_and_or,not_not] at hc
      rcases hc with hc | hc
      · omega
      · exact absurd hc hne
  · exact ⟨rfl,h,.refl _⟩

end Pane

theorem removeTab_perm {l : List Tab} {idx : ℕ} {tab : Tab} (h : l[idx]? = some tab) :
    l.Perm (tab :: l.eraseIdx idx) := by
  obtain ⟨hi,rfl⟩ := List.getElem?_eq_some_iff.mp h
  exact (List.getElem_cons_eraseIdx_perm hi).symm

theorem removeTabPreservingSelection_spec {p p' : Pane} {idx : ℕ} {tab : Tab}
    (h : removeTabPreservingSelection p idx = some (tab,p')) (hsel : p.selectedTab < p.tabs.length) :
    p'.id = p.id ∧ (p'.tabs ≠ [] → p'.selectedTab < p'.tabs.length) ∧
      p.identities.Perm (tab.identity :: p'.identities) := by
  unfold removeTabPreservingSelection at h
  split at h
  · cases h
  · rename_i t ht
    simp only [Option.some.injEq,Prod.mk.injEq] at h
    obtain ⟨rfl,rfl⟩ := h
    have hlt : idx < p.tabs.length := (List.getElem?_eq_some_iff.mp ht).1
    have hlen : (p.tabs.eraseIdx idx).length = p.tabs.length-1 := by
      simp [List.length_eraseIdx,hlt]
    refine ⟨rfl,fun hne => ?_,(removeTab_perm ht).map _⟩
    have hpos := List.length_pos_of_ne_nil hne
    simp only at hne hpos ⊢
    rw [if_neg hne]
    split_ifs <;> omega

theorem tabIndexForIdentity_spec {p : Pane} {x : TabDragIdentity} {idx : ℕ}
    (h : tabIndexForIdentity p x = some idx) :
    ∃ tab, p.tabs[idx]? = some tab ∧ tab.identity = x := by
  obtain ⟨hlt,hm,-⟩ := List.findIdx?_eq_some_iff_getElem.mp h
  refine ⟨p.tabs[idx],List.getElem?_eq_getElem hlt,?_⟩
  exact ((matchesPanel_iff _ _).mp hm).symm

theorem insertSelected_spec {p p' : Pane} {idx : ℕ} {t : Tab}
    (h : p.insertSelected idx t = some p') :
    p'.id = p.id ∧ p'.Ok ∧ p'.identities.Perm (t.identity :: p.identities) := by
  unfold Pane.insertSelected at h
  split at h
  · rename_i hle
    cases h
    refine ⟨rfl,Pane.ok_of_sel ?_,?_⟩
    · rw [List.length_insertIdx,if_pos hle]
      exact Nat.lt_succ_of_le hle
    · exact (List.perm_insertIdx t p.tabs hle).map _
  · cases h

theorem reorder_spec {p p' : Pane} {fromIndex insertionIndex : ℕ} (hok : p.Ok)
    (hlt : fromIndex < p.tabs.length) (h : p.reorder fromIndex insertionIndex = some p') :
    p'.id = p.id ∧ p'.Ok ∧ p'.identities.Perm p.identities := by
  unfold Pane.reorder at h
  simp only at h
  generalize hd : (if fromIndex < min insertionIndex p.tabs.length then
    min insertionIndex p.tabs.length-1 else min insertionIndex p.tabs.length) = d at h
  split at h
  · cases h; exact ⟨rfl,hok,.refl _⟩
  rw [List.getElem?_eq_getElem hlt] at h
  simp only at h
  have hlen : (p.tabs.eraseIdx fromIndex).length = p.tabs.length-1 := by
    simp [List.length_eraseIdx,hlt]
  split at h
  · cases h
  · rename_i hne hle
    cases h
    have hsel := hok.sel
    refine ⟨rfl,Pane.ok_of_sel ?_,?_⟩
    · simp only [List.length_insertIdx,hlen]
      split_ifs <;> omega
    · refine (List.Perm.map _ ?_)
      refine (List.perm_insertIdx _ _ (by omega)).trans ?_
      exact List.getElem_cons_eraseIdx_perm hlt

end Limux
