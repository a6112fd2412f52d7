import Limux.Lib.ArenaTree

/-! A keyed tree shown in a graph of items with two slots each: every key has an item, and
the item of a node holds the items of its children in its slots. What is done to the slots
follows what is done to the tree. -/

namespace KeyTree

variable {K V X : Type}

/-- `W` gives each key the item that shows it; `Fits` says which item may show a cell. -/
def Shown (slot : X → Bool → Option X) (Fits : V → X → Prop) (W : K → X) : KeyTree K V → Prop
  | leaf k v => Fits v (W k)
  | node k v l r => Fits v (W k) ∧ slot (W k) true = some (W l.key) ∧
      slot (W k) false = some (W r.key) ∧ Shown slot Fits W l ∧ Shown slot Fits W r

def inner : KeyTree K V → List K
  | leaf _ _ => []
  | node k _ l r => k :: (l.inner ++ r.inner)

@[simp] theorem inner_rename [Cell K V] (f : K → K) (t : KeyTree K V) :
    (t.rename f).inner = t.inner.map f := by
  induction t with
  | leaf k v => rfl
  | node k v l r ihl ihr => simp [rename,inner,ihl,ihr]

theorem inner_sublist (t : KeyTree K V) : t.inner.Sublist t.keys := by
  induction t with
  | leaf k v => exact List.nil_sublist _
  | node k v l r ihl ihr => exact (ihl.append ihr).cons_cons k

theorem inner_subset (t : KeyTree K V) : t.inner ⊆ t.keys := (inner_sublist t).subset

theorem eq_key_of_mem_inner {t : KeyTree K V} (h : t.inner.length ≤ 1) {k : K} (hk : k ∈ t.inner) :
    k = t.key := by
  cases t with
  | leaf j v => cases hk
  | node j v l r =>
    rw [inner,List.length_cons] at h
    have hnil : l.inner ++ r.inner = [] := List.eq_nil_of_length_eq_zero (by omega)
    rw [inner,hnil] at hk
    exact List.mem_singleton.mp hk

section Shown

variable {slot slot' : X → Bool → Option X} {Fits Fits' : V → X → Prop} {W W' : K → X}
  {s t u : KeyTree K V}

theorem Shown.sub (h : Shown slot Fits W t) (hs : Sub s t) : Shown slot Fits W s := by
  induction hs with
  | refl => exact h
  | left _ ih => exact ih h.2.2.2.1
  | right _ ih => exact ih h.2.2.2.2

theorem Shown.fits (h : Shown slot Fits W t) : Fits t.cell (W t.key) := by
  cases t with
  | leaf k v => exact h
  | node k v l r => exact h.1

theorem Shown.slot_node {k : K} {v : V} {l r : KeyTree K V}
    (h : Shown slot Fits W (node k v l r)) (side : Bool) :
    slot (W k) side = some (W (if side then l else r).key) := by
  cases side
  · exact h.2.2.1
  · exact h.2.1

theorem Shown.congr (h : Shown slot Fits W t) (hW : ∀ k ∈ t.keys, W' k = W k)
    (hF : ∀ k ∈ t.keys, ∀ v, Fits v (W k) → Fits' v (W k))
    (hs : ∀ k ∈ t.keys, ∀ j ∈ t.keys, ∀ side, slot (W k) side = some (W j) →
      slot' (W k) side = some (W j)) : Shown slot' Fits' W' t := by
  induction t with
  | leaf k v =>
    rw [Shown,hW k (by simp [keys])]
    exact hF k (by simp [keys]) v h
  | node k v l r ihl ihr =>
    have hk : W' k = W k := hW k (by simp [keys])
    have hl : W' l.key = W l.key := hW _ (by simp [keys])
    have hr : W' r.key = W r.key := hW _ (by simp [keys])
    refine ⟨?_,?_,?_,ihl h.2.2.2.1 ?_ ?_ ?_,ihr h.2.2.2.2 ?_ ?_ ?_⟩
    · rw [hk]
      exact hF k (by simp [keys]) v h.1
    · rw [hk,hl]
      exact hs k (by simp [keys]) _ (by simp [keys]) _ h.2.1
    · rw [hk,hr]
      exact hs k (by simp [keys]) _ (by simp [keys]) _ h.2.2.1
    · exact fun j hj => hW j (by simp [keys,hj])
    · exact fun j hj => hF j (by simp [keys,hj])
    · exact fun j hj i hi => hs j (by simp [keys,hj]) i (by simp [keys,hi])
    · exact fun j hj => hW j (by simp [keys,hj])
    · exact fun j hj => hF j (by simp [keys,hj])
    · exact fun j hj i hi => hs j (by simp [keys,hj]) i (by simp [keys,hi])

/-- A key below the root is shown in a slot. -/
theorem Shown.exists_slot (h : Shown slot Fits W t) {k : K} (hk : k ∈ t.keys) (hne : k ≠ t.key) :
    ∃ j ∈ t.keys, ∃ side, slot (W j) side = some (W k) := by
  induction t with
  | leaf j v => exact absurd (List.mem_singleton.mp hk) hne
  | node j v l r ihl ihr =>
    simp only [keys,List.mem_cons,List.mem_append] at hk
    rcases hk with rfl | hk | hk
    · exact absurd rfl hne
    · by_cases he : k = l.key
      · exact ⟨j,by simp [keys],true,he ▸ h.2.1⟩
      · obtain ⟨i,hi,hc⟩ := ihl h.2.2.2.1 hk he
        exact ⟨i,by simp [keys,hi],hc⟩
    · by_cases he : k = r.key
      · exact ⟨j,by simp [keys],false,he ▸ h.2.2.1⟩
      · obtain ⟨i,hi,hc⟩ := ihr h.2.2.2.2 hk he
        exact ⟨i,by simp [keys,hi],hc⟩

end Shown

section Edits

variable {slot slot' : X → Bool → Option X} {Fits Fits' : V → X → Prop} {W W' : K → X}
  {s t u : KeyTree K V}

/-- `u` is a part of `t`, or away from it. -/
def Within (u t : KeyTree K V) : Prop := Sub u t ∨ ∀ k ∈ t.keys, k ∉ u.keys

theorem Within.cases_node {k : K} {v : V} {l r : KeyTree K V} (hn : (node k v l r).keys.Nodup)
    (h : Within u (node k v l r)) :
    u = node k v l r ∨ k ∉ u.keys ∧ Within u l ∧ Within u r := by
  obtain ⟨hkl,hkr,-,-,hd⟩ := nodup_node hn
  rcases h with h | h
  · cases h with
    | refl => exact .inl rfl
    | left h =>
      exact .inr ⟨fun hk => hkl (h.keys_subset hk),.inl h,
        .inr (fun x hx hxu => hd x (h.keys_subset hxu) hx)⟩
    | right h =>
      exact .inr ⟨fun hk => hkr (h.keys_subset hk),
        .inr (fun x hx hxu => hd x hx (h.keys_subset hxu)),.inl h⟩
  · refine .inr ⟨h k (by simp [keys]),.inr (fun x hx => h x ?_),.inr (fun x hx => h x ?_)⟩
    · simp [keys,hx]
    · simp [keys,hx]

/-- The slots follow a substitution: the one that showed the old subtree shows the new one,
the others outside the old subtree are as before. -/
structure Respliced (slot slot' : X → Bool → Option X) (W : K → X) (t u : KeyTree K V)
    (new : X) : Prop where
  moved : ∀ k ∈ t.keys, k ∉ u.keys → ∀ side, slot (W k) side = some (W u.key) →
    slot' (W k) side = some new
  kept : ∀ k ∈ t.keys, k ∉ u.keys → ∀ side c, slot (W k) side = some c → c ≠ W u.key →
    slot' (W k) side = some c

theorem Respliced.sub {new : X} (h : Respliced slot slot' W t u new) (hs : s.keys ⊆ t.keys) :
    Respliced slot slot' W s u new :=
  ⟨fun k hk => h.moved k (hs hk),fun k hk => h.kept k (hs hk)⟩

variable [Cell K V]

open Cell

/-- Renamed keys keep their items. -/
theorem Shown.rename (h : Shown slot Fits W t) (f : K → K)
    (hF : ∀ v x, Fits v x → Fits (mapKids f v) x) (hW : ∀ k ∈ t.keys, W' (f k) = W k) :
    Shown slot Fits W' (t.rename f) := by
  induction t with
  | leaf k v =>
    rw [KeyTree.rename,Shown,hW k (by simp [keys])]
    exact h
  | node k v l r ihl ihr =>
    have hk : W' (f k) = W k := hW k (by simp [keys])
    refine ⟨?_,?_,?_,ihl h.2.2.2.1 ?_,ihr h.2.2.2.2 ?_⟩
    · rw [hk]
      exact hF v _ h.1
    · rw [hk,key_rename,hW _ (by simp [keys])]
      exact h.2.1
    · rw [hk,key_rename,hW _ (by simp [keys])]
      exact h.2.2.1
    · exact fun j hj => hW j (by simp [keys,hj])
    · exact fun j hj => hW j (by simp [keys,hj])

theorem Rep.shown_iff {get : K → Option V} (h : Rep get t) :
    Shown slot Fits W t ↔ ∀ k ∈ t.keys, ∀ v, get k = some v → Fits v (W k) ∧
      ∀ q, kids v = some q → slot (W k) true = some (W q.1) ∧ slot (W k) false = some (W q.2) := by
  constructor
  · intro hs k hk v hv
    obtain ⟨u,hu,rfl⟩ := exists_sub_of_mem_keys hk
    have hru := h.sub hu
    obtain rfl := Option.some.inj (hru.get_key.symm.trans hv)
    refine ⟨(hs.sub hu).fits,fun q hq => ?_⟩
    cases u with
    | leaf j w => exact absurd (hru.2.symm.trans hq) (by simp)
    | node j w l r =>
      obtain rfl := Option.some.inj (hru.2.1.symm.trans hq)
      exact ⟨(hs.sub hu).2.1,(hs.sub hu).2.2.1⟩
  · intro hs
    induction t with
    | leaf k v => exact (hs k (by simp [keys]) v h.1).1
    | node k v l r ihl ihr =>
      obtain ⟨hf,hq⟩ := hs k (by simp [keys]) v h.1
      refine ⟨hf,(hq _ h.2.1).1,(hq _ h.2.1).2,ihl h.2.2.1 ?_,ihr h.2.2.2 ?_⟩
      · exact fun j hj => hs j (by simp [keys,hj])
      · exact fun j hj => hs j (by simp [keys,hj])

variable [DecidableEq K]

/-- Putting a shown tree in the place of a subtree. -/
theorem Shown.subst (h : Shown slot Fits W t) (hn : t.keys.Nodup) (hu : Within u t)
    (hF : ∀ k ∈ t.keys, k ∉ u.keys → ∀ f v, Fits v (W k) → Fits' (mapKids f v) (W k))
    (hW : ∀ k ∈ t.keys, W' k = W k) (hi : ∀ k ∈ t.keys, k ≠ u.key → W k ≠ W u.key)
    (hs : Respliced slot slot' W t u (W' s.key))
    (hnew : Shown slot' Fits' W' s) : Shown slot' Fits' W' (t.subst u.key s) := by
  induction t with
  | leaf k v =>
    by_cases hk : (leaf k v).key = u.key
    · rw [subst_of_key s hk]
      exact hnew
    · have hku : k ∉ u.keys := by
        rcases hu with hu | hu
        · cases hu
          exact absurd rfl hk
        · exact hu k (by simp [keys])
      have hv := hF k (by simp [keys]) hku id v h
      rw [mapKids_id] at hv
      rw [KeyTree.subst,if_neg (show k ≠ u.key from hk),Shown,hW k (by simp [keys])]
      exact hv
  | node k v l r ihl ihr =>
    rcases hu.cases_node hn with rfl | ⟨hku,hul,hur⟩
    · rw [subst_of_key s rfl]
      exact hnew
    obtain ⟨-,-,hnl,hnr,-⟩ := nodup_node hn
    have hl : l.keys ⊆ (node k v l r).keys := fun x hx => by simp [keys,hx]
    have hr : r.keys ⊆ (node k v l r).keys := fun x hx => by simp [keys,hx]
    have hk : k ∈ (node k v l r).keys := by simp [keys]
    -- a child is the old subtree itself or keeps its key
    have hslot : ∀ (c : KeyTree K V) side, c.key ∈ (node k v l r).keys →
        slot (W k) side = some (W c.key) → slot' (W' k) side = some (W' (c.subst u.key s).key) := by
      intro c side hc hsc
      rw [hW k hk,key_subst]
      by_cases he : c.key = u.key
      · rw [he,redirect_self]
        exact hs.moved k hk hku side (he ▸ hsc)
      · rw [redirect_of_ne he,hW _ hc]
        exact hs.kept k hk hku _ _ hsc (hi _ hc he)
    rw [KeyTree.subst,if_neg (fun he : k = u.key => hku (he ▸ key_mem_keys u))]
    refine ⟨?_,hslot l true (hl (key_mem_keys l)) h.2.1,
      hslot r false (hr (key_mem_keys r)) h.2.2.1,
      ihl h.2.2.2.1 hnl hul (fun j hj => hF j (hl hj)) (fun j hj => hW j (hl hj))
        (fun j hj => hi j (hl hj)) (hs.sub hl),
      ihr h.2.2.2.2 hnr hur (fun j hj => hF j (hr hj)) (fun j hj => hW j (hr hj))
        (fun j hj => hi j (hr hj)) (hs.sub hr)⟩
    rw [hW k hk]
    exact hF k hk hku _ v h.1

end Edits

end KeyTree
