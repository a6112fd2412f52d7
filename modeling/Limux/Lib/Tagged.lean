import Mathlib.Data.List.Infix

/-! Fields behind a separator, each of which starts with a tag: a text of such fields can be
read in one way only if no field contains a separator with a tag behind it. -/

namespace Tagged

variable {α : Type} {sep : α} {tags : List (List α)}

/-- Somewhere within the value another field seems to start. -/
def Forged (sep : α) (tags : List (List α)) (v : List α) : Prop :=
  ∃ t ∈ tags, (sep :: t) <:+: v

/-- What may follow a field: nothing, or the next one. -/
def Next (sep : α) (tags : List (List α)) (s : List α) : Prop :=
  s = [] ∨ ∃ t ∈ tags, (sep :: t) <+: s

/-- A field that starts with a tag and does not seem to contain another. -/
def Field (sep : α) (tags : List (List α)) (f : List α) : Prop :=
  (∃ t ∈ tags, t <+: f) ∧ ¬ Forged sep tags f

theorem forged_append_right {v m : List α} (h : Forged sep tags m) : Forged sep tags (v ++ m) := by
  obtain ⟨t,ht,hi⟩ := h
  exact ⟨t,ht,hi.trans (List.suffix_append v m).isInfix⟩

/-- A tag in front of a value does not start a field within it. -/
theorem forged_of_tagged {t v : List α} (hsep : sep ∉ t) (h : Forged sep tags (t ++ v)) :
    Forged sep tags v := by
  obtain ⟨u,hu,l,r,he⟩ := h
  refine ⟨u,hu,?_⟩
  rw [List.append_assoc] at he
  obtain ⟨m,hm,hv⟩ | ⟨m,hm,hv⟩ := List.append_eq_append_iff.mp he
  · cases m with
    | nil => exact ⟨[],r,hv⟩
    | cons x m =>
      rw [List.cons_append,List.cons_append] at hv
      obtain ⟨rfl,-⟩ := List.cons.inj hv
      exact absurd (by simp [hm]) hsep
  · exact ⟨m,r,by rw [hv,List.append_assoc]⟩

/-- Whoever reads on past the end of a field has a field within its value. -/
theorem forged_of_longer (hsep : ∀ t ∈ tags, sep ∉ t) {m s s' : List α} (hs : Next sep tags s)
    (hs' : Next sep tags s') (h : s = m ++ s') (hm : m ≠ []) : Forged sep tags m := by
  obtain rfl | ⟨t,ht,r,hr⟩ := hs
  · exact absurd (List.append_eq_nil_iff.mp h.symm).1 hm
  · rw [← hr] at h
    obtain ⟨a,ha,-⟩ | ⟨a,ha,hb⟩ := List.append_eq_append_iff.mp h
    · exact ⟨t,ht,[],a,by rw [ha]; rfl⟩
    · cases a with
      | nil => exact ⟨t,ht,[],[],by simpa using ha⟩
      | cons x a =>
        obtain rfl | ⟨u,hu,q,hq⟩ := hs'
        · cases hb
        · rw [hb,List.cons_append,List.cons_append] at hq
          obtain ⟨rfl,-⟩ := List.cons.inj hq
          obtain ⟨y,m',rfl⟩ := List.exists_cons_of_ne_nil hm
          rw [List.cons_append] at ha
          refine absurd ?_ (hsep t ht)
          rw [(List.cons.inj ha).2]
          simp

theorem cut_unique (hsep : ∀ t ∈ tags, sep ∉ t) {v v' s s' : List α} (hv : ¬ Forged sep tags v)
    (hv' : ¬ Forged sep tags v') (hs : Next sep tags s) (hs' : Next sep tags s')
    (h : v ++ s = v' ++ s') : v = v' ∧ s = s' := by
  obtain ⟨m,hm,he⟩ | ⟨m,hm,he⟩ := List.append_eq_append_iff.mp h
  · cases m with
    | nil => exact ⟨by simpa using hm.symm,by simpa using he⟩
    | cons x m =>
      refine absurd ?_ hv'
      rw [hm]
      exact forged_append_right (forged_of_longer hsep hs hs' he (List.cons_ne_nil x m))
  · cases m with
    | nil => exact ⟨by simpa using hm,by simpa using he.symm⟩
    | cons x m =>
      refine absurd ?_ hv
      rw [hm]
      exact forged_append_right (forged_of_longer hsep hs' hs he (List.cons_ne_nil x m))

theorem next_flatMap {fs : List (List α)} (h : ∀ f ∈ fs, Field sep tags f) :
    Next sep tags (fs.flatMap (fun f => sep :: f)) := by
  cases fs with
  | nil => exact .inl rfl
  | cons f fs =>
    obtain ⟨⟨t,ht,hp⟩,-⟩ := h f List.mem_cons_self
    refine .inr ⟨t,ht,?_⟩
    rw [List.flatMap_cons,List.cons_append,List.cons_prefix_cons]
    exact ⟨rfl,hp.trans (List.prefix_append _ _)⟩

/-- The fields of a text are determined by it. -/
theorem fields_unique (hsep : ∀ t ∈ tags, sep ∉ t) {fs gs : List (List α)}
    (hf : ∀ f ∈ fs, Field sep tags f) (hg : ∀ g ∈ gs, Field sep tags g)
    (h : fs.flatMap (fun f => sep :: f) = gs.flatMap (fun g => sep :: g)) : fs = gs := by
  induction fs generalizing gs with
  | nil =>
    cases gs with
    | nil => rfl
    | cons g gs => cases h
  | cons f fs ih =>
    cases gs with
    | nil => cases h
    | cons g gs =>
      rw [List.forall_mem_cons] at hf hg
      simp only [List.flatMap_cons,List.cons_append,List.cons.injEq,true_and] at h
      obtain ⟨rfl,hrest⟩ := cut_unique hsep hf.1.2 hg.1.2 (next_flatMap hf.2) (next_flatMap hg.2) h
      rw [ih hf.2 hg.2 hrest]

end Tagged
