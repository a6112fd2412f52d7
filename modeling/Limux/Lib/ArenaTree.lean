import Limux.Lib.KeyTree
import Mathlib.Order.WellFoundedSet

/-! From an arena of keyed cells back to the tree it stands for: a finite store
whose child relation is closed and acyclic holds a tree under each of its keys,
and the tree repeats no key when each cell is the child in at most one slot. -/

namespace KeyTree

variable {K V : Type} [Cell K V]

open Cell

/-- On a finite set an acyclic child relation can be followed downwards only
finitely often. -/
theorem wellFoundedOn_child {get : K → Option V} {S : Set K} (hfin : S.Finite)
    (hacyc : ∀ k, ¬ Relation.TransGen (Child get) k k) :
    S.WellFoundedOn (fun a b => Relation.TransGen (Child get) b a) := by
  have : IsStrictOrder K (fun a b => Relation.TransGen (Child get) b a) :=
    { irrefl := hacyc, trans := fun _ _ _ hba hcb => hcb.trans hba }
  exact hfin.wellFoundedOn

/-- Every key of a closed acyclic store is the root of a represented tree. -/
theorem exists_rep {get : K → Option V} {S : Set K} (hfin : S.Finite)
    (hget : ∀ k ∈ S, ∃ v, get k = some v) (hclosed : ∀ k ∈ S, ∀ j, Child get k j → j ∈ S)
    (hacyc : ∀ k, ¬ Relation.TransGen (Child get) k k) {k : K} (hk : k ∈ S) :
    ∃ t : KeyTree K V, t.key = k ∧ Rep get t := by
  refine (wellFoundedOn_child hfin hacyc).induction
    (P := fun k => ∃ t : KeyTree K V, t.key = k ∧ Rep get t) hk ?_
  intro k hk ih
  obtain ⟨v,hv⟩ := hget k hk
  cases hc : kids v with
  | none => exact ⟨leaf k v,rfl,hv,hc⟩
  | some p =>
    have hchild : ∀ side : Bool, Child get k (if side then p.1 else p.2) := fun side =>
      ⟨side,by simp [childAt,hv,hc]⟩
    obtain ⟨l,hl,hlr⟩ := ih p.1 (hclosed k hk _ (hchild true)) (.single (hchild true))
    obtain ⟨r,hr,hrr⟩ := ih p.2 (hclosed k hk _ (hchild false)) (.single (hchild false))
    exact ⟨node k v l r,rfl,hv,by rw [hc,hl,hr],hlr,hrr⟩

theorem Rep.exists_parent {get : K → Option V} {t : KeyTree K V} (h : Rep get t) {k : K}
    (hk : k ∈ t.keys) (hne : k ≠ t.key) : ∃ p ∈ t.keys, Child get p k := by
  rcases Relation.ReflTransGen.cases_tail ((h.reach_iff k).mpr hk) with he | ⟨p,hp,hc⟩
  · exact absurd he hne
  · exact ⟨p,(h.reach_iff p).mp hp,hc⟩

/-- Without cycles and with one slot for each child no key occurs twice. -/
theorem Rep.nodup {get : K → Option V} {t : KeyTree K V} (h : Rep get t)
    (hacyc : ∀ k, ¬ Relation.TransGen (Child get) k k)
    (hslot : ∀ p q c, childAt get p = some c → childAt get q = some c → p = q) :
    t.keys.Nodup := by
  induction t with
  | leaf k v => simp [keys]
  | node k v l r ihl ihr =>
    have hdown : ∀ side : Bool, ∀ x, x ∈ (if side then l else r).keys →
        Relation.TransGen (Child get) k x := by
      intro side x hx
      refine .head' ⟨side,childAt_node h side⟩ ?_
      cases side
      · exact (h.2.2.2.reach_iff x).mpr hx
      · exact (h.2.2.1.reach_iff x).mpr hx
    have hkl : k ∉ l.keys := fun hk => hacyc k (hdown true k hk)
    have hkr : k ∉ r.keys := fun hk => hacyc k (hdown false k hk)
    -- a common key would have its one slot in both subtrees, up to their roots
    have hdisj : ∀ x ∈ l.keys, x ∉ r.keys := by
      intro x hx
      induction (h.2.2.1.reach_iff x).mpr hx with
      | refl =>
        intro hr
        by_cases he : l.key = r.key
        · have := hslot _ _ _ (childAt_node h true) ((childAt_node h false).trans (by simp [he]))
          simp at this
        · obtain ⟨p,hp,side,hc⟩ := h.2.2.2.exists_parent hr he
          obtain ⟨rfl,-⟩ := Prod.mk.inj (hslot _ _ _ (childAt_node h true) hc)
          exact hkr hp
      | @tail b x hb hc ih =>
        intro hr
        obtain ⟨side,hc⟩ := hc
        have hbl := (h.2.2.1.reach_iff b).mp hb
        by_cases he : x = r.key
        · have hk := hslot _ _ _ hc ((childAt_node h false).trans (by simp [he]))
          obtain ⟨rfl,-⟩ := Prod.mk.inj hk
          exact hkl hbl
        · obtain ⟨p,hp,side',hc'⟩ := h.2.2.2.exists_parent hr he
          obtain ⟨rfl,-⟩ := Prod.mk.inj (hslot _ _ _ hc hc')
          exact ih hbl hp
    simp only [keys,List.nodup_cons,List.mem_append,not_or,List.nodup_append]
    exact ⟨⟨hkl,hkr⟩,ihl h.2.2.1,ihr h.2.2.2,fun x hx y hy hxy => hdisj x hx (hxy ▸ hy)⟩

theorem Rep.get_eq {get get' : K → Option V} {t : KeyTree K V} (h : Rep get t)
    (h' : Rep get' t) {k : K} (hk : k ∈ t.keys) : get' k = get k := by
  obtain ⟨s,hs,rfl⟩ := exists_sub_of_mem_keys hk
  rw [(h.sub hs).get_key,(h'.sub hs).get_key]

/-- What a store holds after a splice, outside the replaced subtree. -/
theorem Rep.get_subst [DecidableEq K] {get get' : K → Option V} {t u s : KeyTree K V}
    (h : Rep get t) (hn : t.keys.Nodup) (hu : Sub u t) (h' : Rep get' (t.subst u.key s))
    {k : K} (hk : k ∈ t.keys) (hku : k ∉ u.keys) :
    get' k = (get k).map (mapKids (redirect u.key s.key)) := by
  have hout : ∀ {w : KeyTree K V}, Rep get w → u.key ∉ w.keys → Rep get' (w.subst u.key s) →
      k ∈ w.keys → get' k = (get k).map (mapKids (redirect u.key s.key)) := by
    intro w hw hnot
    induction w with
    | leaf j v =>
      intro h' hk
      simp only [keys,List.mem_singleton] at hnot hk
      subst hk
      rw [subst,if_neg (Ne.symm hnot)] at h'
      rw [h'.1,hw.1,Option.map_some,mapKids_leaf hw.2]
    | node j v l r ihl ihr =>
      intro h' hk
      simp only [keys,List.mem_cons,List.mem_append,not_or] at hnot hk
      rw [subst,if_neg (Ne.symm hnot.1)] at h'
      rcases hk with rfl | hk | hk
      · rw [h'.1,hw.1,Option.map_some]
      · exact ihl hw.2.2.1 hnot.2.1 h'.2.2.1 hk
      · exact ihr hw.2.2.2 hnot.2.2 h'.2.2.2 hk
  induction hu with
  | refl => exact absurd hk hku
  | @left j v l r hu ih =>
    obtain ⟨hjl,-,hnl,-,hd⟩ := nodup_node hn
    have hul := hu.keys_subset (key_mem_keys u)
    rw [subst,if_neg (fun he : j = u.key => hjl (he ▸ hul))] at h'
    simp only [keys,List.mem_cons,List.mem_append] at hk
    rcases hk with rfl | hk | hk
    · rw [h'.1,h.1,Option.map_some]
    · exact ih h.2.2.1 hnl h'.2.2.1 hk
    · exact hout h.2.2.2 (hd _ hul) h'.2.2.2 hk
  | @right j v l r hu ih =>
    obtain ⟨-,hjr,-,hnr,hd⟩ := nodup_node hn
    have hur := hu.keys_subset (key_mem_keys u)
    rw [subst,if_neg (fun he : j = u.key => hjr (he ▸ hur))] at h'
    simp only [keys,List.mem_cons,List.mem_append] at hk
    rcases hk with rfl | hk | hk
    · rw [h'.1,h.1,Option.map_some]
    · exact hout h.2.2.1 (fun hx => hd _ hx hur) h'.2.2.1 hk
    · exact ih h.2.2.2 hnr h'.2.2.2 hk

end KeyTree
