import Mathlib.Data.List.AList

/-! Finite maps as association lists without repeated keys: pointwise rules for
insertion and removal, and the list of values up to permutation. -/

/-- A finite map with unspecified iteration order. -/
abbrev HashMap (K V : Type) := AList (fun _ : K => V)

namespace HashMap

variable {K V : Type} [DecidableEq K]

theorem lookup_insert_ite (m : HashMap K V) (k j : K) (v : V) :
    AList.lookup j (m.insert k v) = if j = k then some v else m.lookup j := by
  by_cases h : j = k
  · subst h; simp
  · simp [h,AList.lookup_insert_ne h]

theorem lookup_erase_ite (m : HashMap K V) (k j : K) :
    AList.lookup j (m.erase k) = if j = k then none else m.lookup j := by
  by_cases h : j = k
  · subst h; simp
  · simp [h,AList.lookup_erase_ne h]

theorem lookup_of_erase {m : HashMap K V} {k j : K} {v : V}
    (h : (m.erase k).lookup j = some v) : m.lookup j = some v := by
  rw [lookup_erase_ite] at h
  split at h
  · cases h
  · exact h

theorem mem_iff_lookup {m : HashMap K V} {k : K} : k ∈ m ↔ ∃ v, m.lookup k = some v := by
  rw [← AList.lookup_isSome,Option.isSome_iff_exists]

theorem erase_of_notMem {m : HashMap K V} {k : K} (h : m.lookup k = none) : m.erase k = m :=
  AList.ext (List.kerase_of_notMem_keys (AList.lookup_eq_none.mp h))

theorem mem_of_not_isNone {m : HashMap K V} {k : K} (h : ¬ (m.lookup k).isNone = true) :
    k ∈ m := by
  rw [← AList.lookup_isSome]
  simpa [Option.isSome_iff_ne_none] using h

theorem entries_erase (m : HashMap K V) (k : K) :
    (AList.erase k m).entries = m.entries.kerase k := rfl

theorem erase_insert_of_ne (m : HashMap K V) {k j : K} (h : j ≠ k) (v : V) :
    AList.erase j (m.insert k v) = (m.erase j).insert k v := by
  apply AList.ext
  simp only [entries_erase,AList.entries_insert]
  rw [List.kerase_cons_ne h,List.kerase_comm]

def modify (m : HashMap K V) (k : K) (f : V → V) : HashMap K V :=
  match m.lookup k with
  | some v => m.insert k (f v)
  | none => m

theorem lookup_modify (m : HashMap K V) (k j : K) (f : V → V) :
    AList.lookup j (m.modify k f) = if j = k then (m.lookup k).map f else m.lookup j := by
  unfold modify
  split
  · rename_i v h
    simp [lookup_insert_ite,h]
  · rename_i h
    by_cases hj : j = k
    · subst hj; simp [h]
    · simp [hj]

theorem mem_modify {m : HashMap K V} {k j : K} {f : V → V} : j ∈ m.modify k f ↔ j ∈ m := by
  rw [← AList.lookup_isSome,← AList.lookup_isSome,lookup_modify]
  by_cases hj : j = k
  · subst hj; simp
  · simp [hj]

def values (m : HashMap K V) : List V := m.entries.map Sigma.snd

theorem values_insert (m : HashMap K V) (k : K) (v : V) :
    values (m.insert k v) = v :: values (m.erase k) := rfl

theorem values_erase_perm {m : HashMap K V} {k : K} {v : V} (h : m.lookup k = some v) :
    (values m).Perm (v :: values (m.erase k)) := by
  have hm : k ∈ m.keys := AList.mem_keys.mp (mem_iff_lookup.mpr ⟨v,h⟩)
  obtain ⟨w,l₁,l₂,-,hl,hk⟩ := List.exists_of_kerase hm
  have hw : w = v := by
    have hmem : Sigma.mk k w ∈ m.entries := by rw [hl]; simp
    exact Option.some.inj ((AList.mem_lookup_iff.mpr hmem).symm.trans h)
  subst hw
  have hv : values (m.erase k) = l₁.map Sigma.snd ++ l₂.map Sigma.snd := by
    simp only [values,entries_erase,hk,List.map_append]
  rw [hv,values,hl,List.map_append,List.map_cons]
  exact List.perm_middle

theorem mem_values {m : HashMap K V} {v : V} : v ∈ values m ↔ ∃ k, m.lookup k = some v := by
  simp only [values,List.mem_map,Sigma.exists,exists_eq_right]
  exact exists_congr (fun k => AList.mem_lookup_iff.symm)

def retain (m : HashMap K V) (f : V → Bool) : HashMap K V :=
  ⟨m.entries.filter (fun e => f e.2),m.nodupKeys.sublist List.filter_sublist⟩

theorem lookup_retain {m : HashMap K V} {f : V → Bool} {k : K} {v : V}
    (h : m.lookup k = some v) (hf : f v = true) : (m.retain f).lookup k = some v :=
  AList.mem_lookup_iff.mpr (List.mem_filter.mpr ⟨AList.mem_lookup_iff.mp h,hf⟩)

end HashMap
