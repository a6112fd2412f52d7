import Limux.Lib.HashMap
import Mathlib.Logic.Relation

/-! Binary trees stored as an arena of keyed cells. A cell is any value with an
optional pair of child keys; `KeyTree` is the tree the arena stands for and
`Rep` says that a store represents it. Every pointer surgery on such an arena
replaces one represented subtree by another (`rep_subst`) or renames its keys
(`rep_rename`); reachability, acyclicity and parent uniqueness are read off the tree. -/

inductive KeyTree (K V : Type)
  | leaf (k : K) (v : V)
  | node (k : K) (v : V) (l r : KeyTree K V)

/-- Cells with at most one pair of child keys. -/
class Cell (K : outParam Type) (V : Type) where
  kids : V → Option (K × K)
  mapKids : (K → K) → V → V
  kids_mapKids : ∀ f v, kids (mapKids f v) = (kids v).map (fun p => (f p.1,f p.2))
  mapKids_congr : ∀ f g v, (∀ p, kids v = some p → f p.1 = g p.1 ∧ f p.2 = g p.2) →
    mapKids f v = mapKids g v
  mapKids_id : ∀ v, mapKids id v = v

namespace KeyTree

variable {K V : Type}

def key : KeyTree K V → K
  | leaf k _ => k
  | node k _ _ _ => k

@[simp] theorem key_leaf (k : K) (v : V) : (leaf k v).key = k := rfl
@[simp] theorem key_node (k : K) (v : V) (l r : KeyTree K V) : (node k v l r).key = k := rfl

def cell : KeyTree K V → V
  | leaf _ v => v
  | node _ v _ _ => v

def keys : KeyTree K V → List K
  | leaf k _ => [k]
  | node k _ l r => k :: (l.keys ++ r.keys)

def height : KeyTree K V → ℕ
  | leaf _ _ => 1
  | node _ _ l r => max l.height r.height + 1

/-- The cells of the leaves from left to right. -/
def fringe : KeyTree K V → List V
  | leaf _ v => [v]
  | node _ _ l r => l.fringe ++ r.fringe

/-- `Sub s t`: the subtree `s` occurs in `t`. -/
inductive Sub : KeyTree K V → KeyTree K V → Prop
  | refl (t) : Sub t t
  | left {s k v l r} : Sub s l → Sub s (node k v l r)
  | right {s k v l r} : Sub s r → Sub s (node k v l r)

@[simp] theorem key_mem_keys (t : KeyTree K V) : t.key ∈ t.keys := by
  cases t <;> simp [key,keys]

theorem height_le_length (t : KeyTree K V) : t.height ≤ t.keys.length := by
  induction t with
  | leaf k v => simp [height,keys]
  | node k v l r ihl ihr => simp only [height,keys,List.length_cons,List.length_append]; omega

theorem Sub.trans {s t u : KeyTree K V} (hst : Sub s t) (htu : Sub t u) : Sub s u := by
  induction htu with
  | refl => exact hst
  | left _ ih => exact .left ih
  | right _ ih => exact .right ih

theorem Sub.keys_subset {s t : KeyTree K V} (h : Sub s t) : s.keys ⊆ t.keys := by
  induction h with
  | refl => exact List.Subset.refl _
  | left _ ih => exact fun x hx => by simp [keys,ih hx]
  | right _ ih => exact fun x hx => by simp [keys,ih hx]

theorem Sub.fringe_subset {s t : KeyTree K V} (h : Sub s t) : s.fringe ⊆ t.fringe := by
  induction h with
  | refl => exact List.Subset.refl _
  | left _ ih => exact fun x hx => by simp [fringe,ih hx]
  | right _ ih => exact fun x hx => by simp [fringe,ih hx]

theorem exists_sub_of_mem_keys {t : KeyTree K V} {k : K} (h : k ∈ t.keys) :
    ∃ s, Sub s t ∧ s.key = k := by
  induction t with
  | leaf j v => exact ⟨_,.refl _,by simpa [keys,key,eq_comm] using h⟩
  | node j v l r ihl ihr =>
    simp only [keys,List.mem_cons,List.mem_append] at h
    rcases h with rfl | h | h
    · exact ⟨_,.refl _,rfl⟩
    · obtain ⟨s,hs,hk⟩ := ihl h
      exact ⟨s,.left hs,hk⟩
    · obtain ⟨s,hs,hk⟩ := ihr h
      exact ⟨s,.right hs,hk⟩

theorem nodup_node {k : K} {v : V} {l r : KeyTree K V} (h : (node k v l r).keys.Nodup) :
    k ∉ l.keys ∧ k ∉ r.keys ∧ l.keys.Nodup ∧ r.keys.Nodup ∧
      ∀ x ∈ l.keys, x ∉ r.keys := by
  simp only [keys,List.nodup_cons,List.mem_append,not_or,List.nodup_append] at h
  exact ⟨h.1.1,h.1.2,h.2.1,h.2.2.1,fun x hx hr => h.2.2.2 x hx x hr rfl⟩

theorem Sub.nodup {s t : KeyTree K V} (h : Sub s t) (ht : t.keys.Nodup) : s.keys.Nodup := by
  induction h with
  | refl => exact ht
  | left _ ih => exact ih (nodup_node ht).2.2.1
  | right _ ih => exact ih (nodup_node ht).2.2.2.1

theorem Sub.eq_of_key {s s' t : KeyTree K V} (h : Sub s t) (h' : Sub s' t)
    (hk : s.key = s'.key) (ht : t.keys.Nodup) : s = s' := by
  have hm := h.keys_subset (key_mem_keys s)
  have hm' := h'.keys_subset (key_mem_keys s')
  induction t with
  | leaf k v => cases h; cases h'; rfl
  | node k v l r ihl ihr =>
    obtain ⟨hkl,hkr,hnl,hnr,hd⟩ := nodup_node ht
    cases h with
    | refl =>
      cases h' with
      | refl => rfl
      | left h' => exact absurd ((show k = s'.key from hk) ▸ h'.keys_subset (key_mem_keys s')) hkl
      | right h' => exact absurd ((show k = s'.key from hk) ▸ h'.keys_subset (key_mem_keys s')) hkr
    | left h =>
      have hl := h.keys_subset (key_mem_keys s)
      cases h' with
      | refl => exact absurd ((show s.key = k from hk) ▸ hl) hkl
      | left h' => exact ihl h h' hnl hl (h'.keys_subset (key_mem_keys s'))
      | right h' => exact absurd (hk ▸ h'.keys_subset (key_mem_keys s')) (hd _ hl)
    | right h =>
      have hr := h.keys_subset (key_mem_keys s)
      cases h' with
      | refl => exact absurd ((show s.key = k from hk) ▸ hr) hkr
      | left h' => exact absurd hr (hd _ (hk ▸ h'.keys_subset (key_mem_keys s')))
      | right h' => exact ihr h h' hnr hr (h'.keys_subset (key_mem_keys s'))

theorem Sub.height_le {s t : KeyTree K V} (h : Sub s t) : s.height ≤ t.height := by
  induction h with
  | refl => exact le_rfl
  | left _ ih => simp only [height]; omega
  | right _ ih => simp only [height]; omega

/-- Each parent slot, a key and a side, with the child key it holds. -/
def slots : KeyTree K V → List ((K × Bool) × K)
  | leaf _ _ => []
  | node k _ l r => ((k,true),l.key) :: ((k,false),r.key) :: (l.slots ++ r.slots)

/-- The slots hold every key but the root, as often as it occurs. -/
theorem slots_perm (t : KeyTree K V) : (t.key :: t.slots.map Prod.snd).Perm t.keys := by
  induction t with
  | leaf k v => exact .refl _
  | node k v l r ihl ihr =>
    simp only [key,slots,keys,List.map_cons,List.map_append]
    refine .cons k ?_
    refine .trans ?_ (ihl.append ihr)
    simp only [List.cons_append]
    refine .cons _ ?_
    exact List.perm_middle.symm

section Represent

variable [Cell K V]

open Cell

/-- The store `get` represents `t`: each cell is found under its key, leaves
have no children and the child keys of a node are those of its subtrees. -/
def Rep (get : K → Option V) : KeyTree K V → Prop
  | leaf k v => get k = some v ∧ kids v = none
  | node k v l r => get k = some v ∧ kids v = some (l.key,r.key) ∧ Rep get l ∧ Rep get r

theorem Rep.get_key {get : K → Option V} {t : KeyTree K V} (h : Rep get t) :
    get t.key = some t.cell := by
  cases t <;> exact h.1

theorem Rep.sub {get : K → Option V} {s t : KeyTree K V} (h : Rep get t) (hs : Sub s t) :
    Rep get s := by
  induction hs with
  | refl => exact h
  | left _ ih => exact ih h.2.2.1
  | right _ ih => exact ih h.2.2.2

theorem Rep.congr {get get' : K → Option V} {t : KeyTree K V} (h : Rep get t)
    (hg : ∀ k ∈ t.keys, get' k = get k) : Rep get' t := by
  induction t with
  | leaf k v => exact ⟨(hg k (by simp [keys])).trans h.1,h.2⟩
  | node k v l r ihl ihr =>
    refine ⟨(hg k (by simp [keys])).trans h.1,h.2.1,ihl h.2.2.1 ?_,ihr h.2.2.2 ?_⟩
    · exact fun j hj => hg j (by simp [keys,hj])
    · exact fun j hj => hg j (by simp [keys,hj])

theorem Rep.get_isSome {get : K → Option V} {t : KeyTree K V} (h : Rep get t)
    {k : K} (hk : k ∈ t.keys) : ∃ v, get k = some v := by
  obtain ⟨s,hs,rfl⟩ := exists_sub_of_mem_keys hk
  exact ⟨_,(h.sub hs).get_key⟩

/-- Two represented trees with the same key are equal. -/
theorem Rep.unique {get : K → Option V} {s t : KeyTree K V} (hs : Rep get s) (ht : Rep get t)
    (hk : s.key = t.key) : s = t := by
  induction s generalizing t with
  | leaf k v =>
    cases t with
    | leaf j w =>
      cases show k = j from hk
      rw [Option.some.inj (hs.1.symm.trans ht.1)]
    | node j w l r =>
      cases show k = j from hk
      have hv := Option.some.inj (hs.1.symm.trans ht.1)
      subst hv
      exact absurd (hs.2.symm.trans ht.2.1) (by simp)
  | node k v l r ihl ihr =>
    cases t with
    | leaf j w =>
      cases show k = j from hk
      have hv := Option.some.inj (hs.1.symm.trans ht.1)
      subst hv
      exact absurd (ht.2.symm.trans hs.2.1) (by simp)
    | node j w l' r' =>
      cases show k = j from hk
      have hv := Option.some.inj (hs.1.symm.trans ht.1)
      subst hv
      have hp := Option.some.inj (hs.2.1.symm.trans ht.2.1)
      rw [ihl hs.2.2.1 ht.2.2.1 (congrArg Prod.fst hp),
        ihr hs.2.2.2 ht.2.2.2 (congrArg Prod.snd hp)]

/-- The child of a cell on one side, `true` being the first. -/
def childAt (get : K → Option V) (p : K × Bool) : Option K :=
  ((get p.1).bind kids).map (fun q => if p.2 then q.1 else q.2)

def Child (get : K → Option V) (a b : K) : Prop := ∃ side, childAt get (a,side) = some b

theorem childAt_node {get : K → Option V} {k : K} {v : V} {l r : KeyTree K V}
    (h : Rep get (node k v l r)) (side : Bool) :
    childAt get (k,side) = some (if side then l.key else r.key) := by
  simp [childAt,h.1,h.2.1]

theorem childAt_leaf {get : K → Option V} {k : K} {v : V} (h : Rep get (leaf k v))
    (side : Bool) : childAt get (k,side) = none := by
  simp [childAt,h.1,h.2]

theorem Rep.childAt_sub {get : K → Option V} {t : KeyTree K V} (h : Rep get t) {a b : K}
    {side : Bool} (ha : a ∈ t.keys) (hc : childAt get (a,side) = some b) :
    ∃ v l r, Sub (node a v l r) t ∧ b = if side then l.key else r.key := by
  obtain ⟨s,hs,rfl⟩ := exists_sub_of_mem_keys ha
  have hr := h.sub hs
  cases s with
  | leaf k v => rw [key,childAt_leaf hr] at hc; cases hc
  | node k v l r =>
    rw [key,childAt_node hr] at hc
    exact ⟨v,l,r,hs,(Option.some.inj hc).symm⟩

theorem Rep.mem_slots_iff {get : K → Option V} {t : KeyTree K V} (h : Rep get t)
    (hn : t.keys.Nodup) (p : K × Bool) (c : K) :
    (p,c) ∈ t.slots ↔ p.1 ∈ t.keys ∧ childAt get p = some c := by
  induction t with
  | leaf k v =>
    simp only [slots,List.not_mem_nil,keys,List.mem_singleton,false_iff,not_and]
    rintro rfl
    rw [show p = (p.1,p.2) from rfl,childAt_leaf h]
    simp
  | node k v l r ihl ihr =>
    obtain ⟨hkl,hkr,hnl,hnr,-⟩ := nodup_node hn
    obtain ⟨a,side⟩ := p
    simp only [slots,List.mem_cons,List.mem_append,ihl h.2.2.1 hnl,ihr h.2.2.2 hnr,keys]
    by_cases ha : a = k
    · subst ha
      rw [childAt_node h]
      cases side <;> simp [hkl,hkr,eq_comm]
    · simp only [Prod.mk.injEq,ha,false_and,false_or]
      tauto

theorem Rep.reach_iff {get : K → Option V} {t : KeyTree K V} (h : Rep get t) (k : K) :
    Relation.ReflTransGen (Child get) t.key k ↔ k ∈ t.keys := by
  constructor
  · intro hr
    induction hr with
    | refl => exact key_mem_keys t
    | tail _ hc ih =>
      obtain ⟨side,hc⟩ := hc
      obtain ⟨v,l,r,hs,rfl⟩ := h.childAt_sub ih hc
      apply hs.keys_subset
      cases side <;> simp [keys]
  · intro hk
    induction t with
    | leaf j v => simp only [keys,List.mem_singleton] at hk; subst hk; exact .refl
    | node j v l r ihl ihr =>
      simp only [keys,List.mem_cons,List.mem_append] at hk
      rcases hk with rfl | hk | hk
      · exact .refl
      · exact .head ⟨true,childAt_node h true⟩ (ihl h.2.2.1 hk)
      · exact .head ⟨false,childAt_node h false⟩ (ihr h.2.2.2 hk)

/-- Every key below the root is a child on exactly one side of exactly one cell. -/
theorem Rep.parent_unique {get : K → Option V} {t : KeyTree K V} (h : Rep get t)
    (hn : t.keys.Nodup) {k : K} (hk : k ∈ t.keys) (hne : k ≠ t.key) :
    ∃! p : K × Bool, p.1 ∈ t.keys ∧ childAt get p = some k := by
  have hp := slots_perm t
  have hs : (t.slots.map Prod.snd).Nodup := (List.nodup_cons.mp (hp.nodup_iff.mpr hn)).2
  have hmem : k ∈ t.slots.map Prod.snd := by
    simpa [hne] using hp.mem_iff.mpr hk
  obtain ⟨⟨p,c⟩,hpc,rfl⟩ := List.mem_map.mp hmem
  refine ⟨p,(h.mem_slots_iff hn p _).mp hpc,fun q hq => ?_⟩
  have hqc := (h.mem_slots_iff hn q _).mpr hq
  exact congrArg Prod.fst (List.inj_on_of_nodup_map hs hqc hpc rfl)

theorem Rep.height_lt_of_path {get : K → Option V} {t : KeyTree K V} (h : Rep get t) {a b : K}
    (ha : a ∈ t.keys) (hab : Relation.TransGen (Child get) a b) :
    ∃ s u, Sub s t ∧ Sub u t ∧ s.key = a ∧ u.key = b ∧ u.height < s.height := by
  have hstep : ∀ {x y}, x ∈ t.keys → Child get x y →
      ∃ s u, Sub s t ∧ Sub u t ∧ s.key = x ∧ u.key = y ∧ u.height < s.height := by
    rintro x y hx ⟨side,hc⟩
    obtain ⟨v,l,r,hs,rfl⟩ := h.childAt_sub hx hc
    cases side
    · exact ⟨_,r,hs,(Sub.right (.refl r)).trans hs,rfl,rfl,by simp only [height]; omega⟩
    · exact ⟨_,l,hs,(Sub.left (.refl l)).trans hs,rfl,rfl,by simp only [height]; omega⟩
  induction hab with
  | single hc => exact hstep ha hc
  | tail _ hc ih =>
    obtain ⟨s,u,hs,hu,rfl,rfl,hlt⟩ := ih
    obtain ⟨s',u',hs',hu',hk,rfl,hlt'⟩ := hstep (hu.keys_subset (key_mem_keys u)) hc
    have he := (h.sub hs').unique (h.sub hu) hk
    subst he
    exact ⟨s,u',hs,hu',rfl,rfl,by omega⟩

/-- A represented tree has no cycle: subtree heights fall along every edge. -/
theorem Rep.acyclic {get : K → Option V} {t : KeyTree K V} (h : Rep get t) {k : K}
    (hk : k ∈ t.keys) : ¬ Relation.TransGen (Child get) k k := by
  intro hc
  obtain ⟨s,u,hs,hu,hsk,huk,hlt⟩ := h.height_lt_of_path hk hc
  have he := (h.sub hs).unique (h.sub hu) (hsk.trans huk.symm)
  subst he
  exact absurd hlt (lt_irrefl _)

/-! Surgery: replacing the subtree under one key, and renaming all keys. -/

theorem mapKids_leaf {v : V} (h : kids v = none) (f : K → K) : mapKids f v = v :=
  (mapKids_congr f id v (fun p hp => by simp [h] at hp)).trans (mapKids_id v)

/-- Rename all keys, child pointers included. -/
def rename (f : K → K) : KeyTree K V → KeyTree K V
  | leaf k v => leaf (f k) v
  | node k v l r => node (f k) (mapKids f v) (l.rename f) (r.rename f)

@[simp] theorem key_rename (f : K → K) (t : KeyTree K V) : (t.rename f).key = f t.key := by
  cases t <;> rfl

@[simp] theorem keys_rename (f : K → K) (t : KeyTree K V) : (t.rename f).keys = t.keys.map f := by
  induction t with
  | leaf k v => rfl
  | node k v l r ihl ihr => simp [rename,keys,ihl,ihr]

@[simp] theorem fringe_rename (f : K → K) (t : KeyTree K V) : (t.rename f).fringe = t.fringe := by
  induction t with
  | leaf k v => rfl
  | node k v l r ihl ihr => simp [rename,fringe,ihl,ihr]

theorem rep_rename {get get' : K → Option V} {t : KeyTree K V} (f : K → K) (h : Rep get t)
    (hg : ∀ k ∈ t.keys, get' (f k) = (get k).map (mapKids f)) : Rep get' (t.rename f) := by
  induction t with
  | leaf k v =>
    refine ⟨?_,h.2⟩
    rw [hg k (by simp [keys]),h.1,Option.map_some,mapKids_leaf h.2]
  | node k v l r ihl ihr =>
    refine ⟨?_,?_,ihl h.2.2.1 ?_,ihr h.2.2.2 ?_⟩
    · rw [hg k (by simp [keys]),h.1,Option.map_some]
    · rw [kids_mapKids,h.2.1,key_rename,key_rename,Option.map_some]
    · exact fun j hj => hg j (by simp [keys,hj])
    · exact fun j hj => hg j (by simp [keys,hj])

def recell (f : K → V → V) : KeyTree K V → KeyTree K V
  | leaf k v => leaf k (f k v)
  | node k v l r => node k (f k v) (l.recell f) (r.recell f)

omit [Cell K V] in
@[simp] theorem key_recell (f : K → V → V) (t : KeyTree K V) : (t.recell f).key = t.key := by
  cases t <;> rfl

omit [Cell K V] in
@[simp] theorem keys_recell (f : K → V → V) (t : KeyTree K V) : (t.recell f).keys = t.keys := by
  induction t with
  | leaf k v => rfl
  | node k v l r ihl ihr => simp [recell,keys,ihl,ihr]

theorem fringe_recell {get : K → Option V} {f : K → V → V} {t : KeyTree K V} (h : Rep get t)
    (hf : ∀ k ∈ t.keys, ∀ v, get k = some v → kids v = none → f k v = v) :
    (t.recell f).fringe = t.fringe := by
  induction t with
  | leaf k v => simp [recell,fringe,hf k (by simp [keys]) v h.1 h.2]
  | node k v l r ihl ihr =>
    simp only [recell,fringe]
    rw [ihl h.2.2.1 (fun j hj => hf j (by simp [keys,hj])),
      ihr h.2.2.2 (fun j hj => hf j (by simp [keys,hj]))]

theorem rep_recell {get get' : K → Option V} {f : K → V → V} {t : KeyTree K V} (h : Rep get t)
    (hg : ∀ k ∈ t.keys, ∀ v, get k = some v → get' k = some (f k v) ∧ kids (f k v) = kids v) :
    Rep get' (t.recell f) := by
  induction t with
  | leaf k v =>
    have hk := hg k (by simp [keys]) v h.1
    exact ⟨hk.1,hk.2.trans h.2⟩
  | node k v l r ihl ihr =>
    have hk := hg k (by simp [keys]) v h.1
    refine ⟨hk.1,?_,ihl h.2.2.1 ?_,ihr h.2.2.2 ?_⟩
    · rw [hk.2,h.2.1,key_recell,key_recell]
    · exact fun j hj => hg j (by simp [keys,hj])
    · exact fun j hj => hg j (by simp [keys,hj])

section Subst

variable [DecidableEq K]

def redirect (old new x : K) : K := if x = old then new else x

@[simp] theorem redirect_self (old new : K) : redirect old new old = new := if_pos rfl

theorem redirect_of_ne {old new x : K} (h : x ≠ old) : redirect old new x = x := if_neg h

theorem Rep.mapKids_redirect_of_notMem {get : K → Option V} {t : KeyTree K V} (h : Rep get t)
    {old : K} (ho : old ∉ t.keys ∨ old = t.key ∧ t.keys.Nodup) (new : K) {i : K}
    (hi : i ∈ t.keys) : (get i).map (mapKids (redirect old new)) = get i := by
  obtain ⟨s,hs,rfl⟩ := exists_sub_of_mem_keys hi
  have hr := h.sub hs
  rw [hr.get_key,Option.map_some]
  refine congrArg some ((mapKids_congr _ id _ ?_).trans (mapKids_id _))
  intro q hq
  cases s with
  | leaf k v => exact absurd (hr.2.symm.trans hq) (by simp)
  | node k v l r =>
    obtain rfl : (l.key,r.key) = q := Option.some.inj (hr.2.1.symm.trans hq)
    have hne : ∀ u, Sub u t → u.key ≠ t.key ∨ old ≠ t.key → u.key ≠ old := by
      rintro u hu hne rfl
      rcases ho with ho | ho
      · exact ho (hu.keys_subset (key_mem_keys u))
      · exact hne.elim (fun h => h ho.1) (fun h => h ho.1)
    have hroot : ∀ u, Sub u t → u.height < (node k v l r).height → t.keys.Nodup → u.key ≠ t.key := by
      intro u hu hlt hn he
      have := hu.eq_of_key (.refl t) he hn
      subst this
      exact absurd (hs.height_le) (by omega)
    have hside : ∀ u, Sub u t → u.height < (node k v l r).height → u.key ≠ old := by
      intro u hu hlt
      apply hne u hu
      rcases ho with ho | ho
      · exact .inr (fun he => ho (he ▸ key_mem_keys t))
      · exact .inl (hroot u hu hlt ho.2)
    refine ⟨redirect_of_ne (hside l ((Sub.left (.refl l)).trans hs) ?_),
      redirect_of_ne (hside r ((Sub.right (.refl r)).trans hs) ?_)⟩
    · simp only [height]; omega
    · simp only [height]; omega

/-- Only the parent of `k` notices a redirection of `k`. -/
theorem Rep.mapKids_redirect {get : K → Option V} {t : KeyTree K V} (h : Rep get t)
    (hn : t.keys.Nodup) {j : K} {v : V} {l r : KeyTree K V} {side : Bool}
    (hp : Sub (node j v l r) t) (new : K) {i : K} (hi : i ∈ t.keys) (hij : i ≠ j) :
    (get i).map (mapKids (redirect (if side then l.key else r.key) new)) = get i := by
  obtain ⟨w,hw⟩ := h.get_isSome hi
  rw [hw,Option.map_some]
  refine congrArg some ((mapKids_congr _ id w ?_).trans (mapKids_id w))
  intro q hq
  have hslot : ∀ b : Bool, ((i,b),if b then q.1 else q.2) ∈ t.slots := fun b =>
    (h.mem_slots_iff hn _ _).mpr ⟨hi,by simp [childAt,hw,hq]⟩
  have hpar : ((j,side),if side then l.key else r.key) ∈ t.slots :=
    (h.mem_slots_iff hn _ _).mpr ⟨hp.keys_subset (by simp [keys]),childAt_node (h.sub hp) side⟩
  have hs : (t.slots.map Prod.snd).Nodup :=
    (List.nodup_cons.mp ((slots_perm t).nodup_iff.mpr hn)).2
  have hne : ∀ b : Bool, (if b then q.1 else q.2) ≠ if side then l.key else r.key := by
    intro b he
    have := List.inj_on_of_nodup_map hs (hslot b) hpar he
    exact hij (congrArg (fun x => x.1.1) this)
  exact ⟨redirect_of_ne (hne true),redirect_of_ne (hne false)⟩

omit [Cell K V] [DecidableEq K] in
theorem Sub.kids_ne {t : KeyTree K V} {j : K} {v : V} {l r : KeyTree K V}
    (h : Sub (node j v l r) t) (hn : t.keys.Nodup) : l.key ≠ r.key := fun he =>
  (nodup_node (h.nodup hn)).2.2.2.2 l.key (key_mem_keys l) (he ▸ key_mem_keys r)

/-- Put `s` in the place of the subtree with key `k`. -/
def subst : KeyTree K V → K → KeyTree K V → KeyTree K V
  | leaf j v, k, s => if j = k then s else leaf j v
  | node j v l r, k, s =>
    if j = k then s else node j (mapKids (redirect k s.key) v) (l.subst k s) (r.subst k s)

@[simp] theorem key_subst (k : K) (s t : KeyTree K V) :
    (t.subst k s).key = redirect k s.key t.key := by
  cases t with
  | leaf j v => by_cases hj : j = k <;> simp [subst,redirect,key,hj]
  | node j v l r => by_cases hj : j = k <;> simp [subst,redirect,key,hj]

theorem subst_of_key {k : K} (s : KeyTree K V) {t : KeyTree K V} (h : t.key = k) :
    t.subst k s = s := by
  cases t <;> exact if_pos h

theorem sub_subst {t u : KeyTree K V} (hu : Sub u t) (hn : t.keys.Nodup) (s : KeyTree K V) :
    Sub s (t.subst u.key s) := by
  induction hu with
  | refl =>
    rw [subst_of_key s rfl]
    exact .refl s
  | @left j v l r hu ih =>
    obtain ⟨hjl,-,hnl,-,-⟩ := nodup_node hn
    have hj : j ≠ u.key := fun he => hjl (he ▸ hu.keys_subset (key_mem_keys u))
    rw [subst,if_neg hj]
    exact .left (ih hnl)
  | @right j v l r hu ih =>
    obtain ⟨-,hjr,-,hnr,-⟩ := nodup_node hn
    have hj : j ≠ u.key := fun he => hjr (he ▸ hu.keys_subset (key_mem_keys u))
    rw [subst,if_neg hj]
    exact .right (ih hnr)

theorem keys_subst_of_notMem {k : K} (s : KeyTree K V) {t : KeyTree K V} (h : k ∉ t.keys) :
    (t.subst k s).keys = t.keys ∧ (t.subst k s).fringe = t.fringe := by
  induction t with
  | leaf j v =>
    simp only [keys,List.mem_singleton] at h
    simp [subst,Ne.symm h]
  | node j v l r ihl ihr =>
    simp only [keys,List.mem_cons,List.mem_append,not_or] at h
    have hl := ihl h.2.1
    have hr := ihr h.2.2
    simp [subst,Ne.symm h.1,keys,fringe,hl.1,hl.2,hr.1,hr.2]

/-- Substitution below `u` splices what becomes of `u` into the places of `u`. -/
theorem subst_within {k : K} (s : KeyTree K V) {t u : KeyTree K V} (hu : Sub u t)
    (hk : k ∈ u.keys) (hn : t.keys.Nodup) :
    (∃ a b, t.keys = a ++ u.keys ++ b ∧ (t.subst k s).keys = a ++ (u.subst k s).keys ++ b) ∧
    (∃ a b, t.fringe = a ++ u.fringe ++ b ∧
      (t.subst k s).fringe = a ++ (u.subst k s).fringe ++ b) := by
  induction hu with
  | refl => exact ⟨⟨[],[],by simp,by simp⟩,⟨[],[],by simp,by simp⟩⟩
  | @left j v l r hu ih =>
    obtain ⟨hjl,hjr,hnl,hnr,hd⟩ := nodup_node hn
    have hkl : k ∈ l.keys := hu.keys_subset hk
    have hj : j ≠ k := fun he => hjl (he ▸ hkl)
    obtain ⟨⟨a,b,h1,h2⟩,⟨c,d,h3,h4⟩⟩ := ih hnl
    have hr := keys_subst_of_notMem s (hd k hkl)
    refine ⟨⟨j::a,b++r.keys,?_,?_⟩,⟨c,d++r.fringe,?_,?_⟩⟩
    · simp [keys,h1,List.append_assoc]
    · simp [subst,hj,keys,h2,hr.1,List.append_assoc]
    · simp [fringe,h3,List.append_assoc]
    · simp [subst,hj,fringe,h4,hr.2,List.append_assoc]
  | @right j v l r hu ih =>
    obtain ⟨hjl,hjr,hnl,hnr,hd⟩ := nodup_node hn
    have hkr : k ∈ r.keys := hu.keys_subset hk
    have hj : j ≠ k := fun he => hjr (he ▸ hkr)
    obtain ⟨⟨a,b,h1,h2⟩,⟨c,d,h3,h4⟩⟩ := ih hnr
    have hl := keys_subst_of_notMem s (fun hx => hd k hx hkr)
    refine ⟨⟨j::(l.keys++a),b,?_,?_⟩,⟨l.fringe++c,d,?_,?_⟩⟩
    · simp [keys,h1,List.append_assoc]
    · simp [subst,hj,keys,h2,hl.1,List.append_assoc]
    · simp [fringe,h3,List.append_assoc]
    · simp [subst,hj,fringe,h4,hl.2,List.append_assoc]

/-- Substitution splices the keys and the fringe of the new subtree into the
places of those of the old one. -/
theorem subst_splice {k : K} (s : KeyTree K V) {t u : KeyTree K V} (hu : Sub u t)
    (hk : u.key = k) (hn : t.keys.Nodup) :
    (∃ a b, t.keys = a ++ u.keys ++ b ∧ (t.subst k s).keys = a ++ s.keys ++ b) ∧
    (∃ a b, t.fringe = a ++ u.fringe ++ b ∧ (t.subst k s).fringe = a ++ s.fringe ++ b) := by
  have h := subst_within s hu (hk ▸ key_mem_keys u) hn
  rwa [subst_of_key s hk] at h

/-- The arena rule for every splice: outside the replaced subtree all pointers
to its root are redirected, and the new subtree is represented. -/
theorem rep_subst {get get' : K → Option V} {t s : KeyTree K V} {k : K} (h : Rep get t)
    (hn : t.keys.Nodup) (hs : Rep get' s)
    (hg : ∀ j ∈ t.keys, (∀ u, Sub u t → u.key = k → j ∉ u.keys) →
      get' j = (get j).map (mapKids (redirect k s.key))) : Rep get' (t.subst k s) := by
  induction t with
  | leaf j v =>
    by_cases hj : j = k
    · simpa [subst,hj] using hs
    · have hl : get' j = (get j).map (mapKids (redirect k s.key)) :=
        hg j (by simp [keys]) (fun u hu hk => by cases hu; exact absurd hk hj)
      rw [subst,if_neg hj]
      exact ⟨by rw [hl,h.1,Option.map_some,mapKids_leaf h.2],h.2⟩
  | node j v l r ihl ihr =>
    by_cases hj : j = k
    · simpa [subst,hj] using hs
    · obtain ⟨hjl,hjr,hnl,hnr,hd⟩ := nodup_node hn
      have hout : ∀ u, Sub u (node j v l r) → u.key = k → j ∉ u.keys := by
        intro u hu hk
        cases hu with
        | refl => exact absurd hk hj
        | left hu => exact fun hm => hjl (hu.keys_subset hm)
        | right hu => exact fun hm => hjr (hu.keys_subset hm)
      rw [subst,if_neg hj]
      refine ⟨?_,?_,ihl h.2.2.1 hnl ?_,ihr h.2.2.2 hnr ?_⟩
      · rw [hg j (by simp [keys]) hout,h.1,Option.map_some]
      · rw [kids_mapKids,h.2.1,key_subst,key_subst,Option.map_some]
      · intro i hi hiu
        refine hg i (by simp [keys,hi]) (fun u hu hk => ?_)
        cases hu with
        | refl => exact absurd hk hj
        | left hu => exact hiu u hu hk
        | right hu => exact fun hm => hd i hi (hu.keys_subset hm)
      · intro i hi hiu
        refine hg i (by simp [keys,hi]) (fun u hu hk => ?_)
        cases hu with
        | refl => exact absurd hk hj
        | left hu => exact fun hm => hd i (hu.keys_subset hm) hi
        | right hu => exact hiu u hu hk

end Subst

end Represent

end KeyTree
