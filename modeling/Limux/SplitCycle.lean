import Limux.SplitEdits
import Mathlib.Data.List.Rotate
import Mathlib.Logic.Function.Iterate

/-! Cycling through the panes with `navigate`, in either direction. -/
namespace Limux.SplitTree

variable {F : Type} {s : SplitTree F} {i : ℕ}

/-- The tree with the focus on the pane at `i`, counted around. -/
def focusAt (s : SplitTree F) (i : ℕ) : SplitTree F :=
  { s with focused := s.panes[i % s.panes.length]? }

@[simp] theorem panes_focusAt (s : SplitTree F) (i : ℕ) : (s.focusAt i).panes = s.panes := rfl

@[simp] theorem focused_focusAt (s : SplitTree F) (i : ℕ) :
    (s.focusAt i).focused = s.panes[i % s.panes.length]? := rfl

theorem focusAt_add_length (s : SplitTree F) (i : ℕ) :
    s.focusAt (i+s.panes.length) = s.focusAt i := by
  rw [focusAt,focusAt,Nat.add_mod_right]

theorem findIdx?_focus (hn : s.panes.Nodup) {j : ℕ} (hj : j < s.panes.length) :
    s.panes.findIdx? (fun p => p = s.panes[j]) = some j := by
  rw [List.findIdx?_eq_some_iff_getElem]
  refine ⟨hj,by simp,fun k hk => ?_⟩
  have hne : s.panes[k] ≠ s.panes[j] := fun he => hk.ne (hn.getElem_inj_iff.mp he)
  simpa using hne

theorem navigate_focusAt (hn : s.panes.Nodup) (hne : s.panes ≠ []) (i : ℕ) (forward : Bool) :
    (s.focusAt i).navigate forward =
      let j := if forward then i+1 else i+(s.panes.length-1)
      ((s.focusAt j).focused,s.focusAt j) := by
  have hpos : 0 < s.panes.length := List.length_pos_iff.mpr hne
  have hi : i % s.panes.length < s.panes.length := Nat.mod_lt _ hpos
  have hf : (s.focusAt i).focused = some s.panes[i % s.panes.length] :=
    List.getElem?_eq_getElem hi
  obtain ⟨j,hj⟩ : ∃ j, j = if forward then i+1 else i+(s.panes.length-1) := ⟨_,rfl⟩
  have hidx : (if forward then (i % s.panes.length+1) % s.panes.length
      else (i % s.panes.length+s.panes.length-1) % s.panes.length) = j % s.panes.length := by
    cases forward with
    | true => rw [hj,if_pos rfl,if_pos rfl,Nat.mod_add_mod]
    | false =>
      rw [hj,if_neg (by simp),if_neg (by simp),Nat.add_sub_assoc hpos,Nat.mod_add_mod]
  have hjlt : j % s.panes.length < s.panes.length := Nat.mod_lt _ hpos
  have hget : s.panes[j % s.panes.length]? = some s.panes[j % s.panes.length] :=
    List.getElem?_eq_getElem hjlt
  rw [navigate]
  simp only [hf,panes_focusAt,findIdx?_focus hn hi,hidx,hget,← hj]
  simp only [focusAt,hget]

theorem iterate_navigate (hn : s.panes.Nodup) (hne : s.panes ≠ []) (i k : ℕ) :
    (fun s => (s.navigate true).2)^[k] (s.focusAt i) = s.focusAt (i+k) := by
  induction k with
  | zero => rfl
  | succ k ih =>
    rw [Function.iterate_succ_apply',ih,navigate_focusAt hn hne]
    rfl

theorem navigate_back (hn : s.panes.Nodup) (hne : s.panes ≠ []) (i : ℕ) (forward : Bool) :
    (((s.focusAt i).navigate forward).2.navigate (!forward)).2 = s.focusAt i := by
  have hpos : 0 < s.panes.length := List.length_pos_iff.mpr hne
  rw [navigate_focusAt hn hne,navigate_focusAt hn hne,← focusAt_add_length s i]
  cases forward with
  | true => exact congrArg s.focusAt (by simp; omega)
  | false => exact congrArg s.focusAt (by simp; omega)

/-- The focus is on one of the panes, or there is none. -/
theorem focusAt_of_repInv (h : RepInv s) (hne : s.panes ≠ []) : ∃ i, s = s.focusAt i := by
  obtain ⟨p,hp,hf⟩ := h.wellFormed.focused_mem hne
  obtain ⟨i,hi,hget⟩ := List.mem_iff_getElem.mp hp
  refine ⟨i,?_⟩
  have hat : s.panes[i % s.panes.length]? = s.focused := by
    rw [Nat.mod_eq_of_lt hi,List.getElem?_eq_getElem hi,hget,hf]
  rw [focusAt,hat]

theorem navigate_of_nil (h : s.panes = []) (forward : Bool) : s.navigate forward = (none,s) := by
  rw [navigate,h]
  cases s.focused <;> rfl

/-- The panes in the order of the visits. -/
theorem visited_eq_rotate (hn : s.panes.Nodup) (hne : s.panes ≠ []) (i : ℕ) :
    (List.range s.panes.length).map
        (fun k => ((fun s => (s.navigate true).2)^[k+1] (s.focusAt i)).focused) =
      (s.panes.map some).rotate (i+1) := by
  refine List.ext_getElem (by simp) fun k hk _ => ?_
  have hpos : 0 < s.panes.length := List.length_pos_iff.mpr hne
  rw [List.getElem_map,List.getElem_rotate,List.getElem_range,iterate_navigate hn hne]
  rw [focused_focusAt,List.getElem?_eq_getElem (Nat.mod_lt _ hpos),List.getElem_map]
  have hk' : k+(i+1) = i+(k+1) := by omega
  simp only [List.length_map,hk']

/-- As many steps as there are panes visit each of them once and end where they began, a step
back undoes a step, and the tree stays as it is apart from the focus. -/
theorem navigate_cycles (h : RepInv s) :
    ((List.range s.panes.length).map
      (fun k => ((fun s => (s.navigate true).2)^[k+1] s).focused)).Perm (s.panes.map some) ∧
    (fun s : SplitTree F => (s.navigate true).2)^[s.panes.length] s = s ∧
    (∀ forward, ((s.navigate forward).2.navigate (!forward)).2 = s) ∧
    ∀ forward, (s.navigate forward).1 = (s.navigate forward).2.focused ∧
      ∃ focus, (s.navigate forward).2 = { s with focused := focus } := by
  have hn := h.panes_nodup
  by_cases hne : s.panes = []
  · refine ⟨by simp [hne],by simp [hne],fun forward => ?_,fun forward => ?_⟩
    · rw [navigate_of_nil hne,navigate_of_nil hne]
    · rw [navigate_of_nil hne]
      refine ⟨?_,s.focused,rfl⟩
      cases hf : s.focused with
      | none => rfl
      | some p =>
        have hp := h.focus_mem p hf
        rw [hne] at hp
        cases hp
  · obtain ⟨i,hi⟩ := focusAt_of_repInv h hne
    refine ⟨?_,?_,fun forward => ?_,fun forward => ?_⟩
    · have hv := visited_eq_rotate hn hne i
      rw [← hi] at hv
      rw [hv]
      exact List.rotate_perm _ _
    · have hk := iterate_navigate hn hne i s.panes.length
      rw [focusAt_add_length,← hi] at hk
      exact hk
    · have hb := navigate_back hn hne i forward
      rw [← hi] at hb
      exact hb
    · have hs := navigate_focusAt hn hne i forward
      rw [← hi] at hs
      rw [hs]
      exact ⟨rfl,_,rfl⟩

/-- In a window of two panes the second step is back at the start. -/
theorem navigate_cycles_pair : ∃ s : SplitTree ℚ, RepInv s ∧ s.panes = [1,2] ∧
    (fun s : SplitTree ℚ => (s.navigate true).2)^[2] s = s := by
  have h : RepInv ((SplitTree.newWithPane 1 : SplitTree ℚ).split 1 2 .horizontal).2 :=
    repInv_of_built (.split 1 2 _ (.newWithPane 1) (by decide))
  exact ⟨_,h,by decide,(navigate_cycles h).2.1⟩

end Limux.SplitTree
