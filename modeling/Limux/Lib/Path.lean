import Mathlib.Data.List.Infix
import Limux.Lib.Text

/-! Paths as texts and as lists of components. -/

namespace Path

/-- A name between two slashes. -/
def Name (c : Text) : Prop := c ≠ [] ∧ '/' ∉ c ∧ c ≠ ['.']

/-- What the slashes stand between, without empty names and `.`. -/
def components (s : Text) : List Text := (s.splitOn '/').filter (fun c => c ≠ [] ∧ c ≠ ['.'])

/-- The components behind one slash each. -/
def slashed (cs : List Text) : Text := cs.flatMap (fun c => '/' :: c)

/-- The absolute path with these components as the system writes it. -/
def absolute (cs : List Text) : Text := if cs = [] then ['/'] else slashed cs

theorem slashed_append (a b : List Text) : slashed (a ++ b) = slashed a ++ slashed b :=
  List.flatMap_append

theorem slashed_eq_intercalate (cs : List Text) : slashed cs = ['/'].intercalate ([] :: cs) := by
  induction cs with
  | nil => rfl
  | cons c cs ih =>
    have hcons : slashed (c :: cs) = '/' :: c ++ slashed cs := rfl
    rw [hcons,ih]
    cases cs with
    | nil => simp
    | cons d cs => simp [List.intercalate_cons_cons]

theorem components_slashed {cs : List Text} (h : ∀ c ∈ cs, Name c) :
    components (slashed cs) = cs := by
  have hsplit : (slashed cs).splitOn '/' = [] :: cs := by
    rw [slashed_eq_intercalate]
    apply List.splitOn_intercalate
    · intro c hc
      rcases List.mem_cons.mp hc with rfl | hc
      · simp
      · exact (h c hc).2.1
    · simp
  rw [components,hsplit,List.filter_cons_of_neg (by simp),List.filter_eq_self]
  intro c hc
  simp [(h c hc).1,(h c hc).2.2]

theorem components_absolute {cs : List Text} (h : ∀ c ∈ cs, Name c) :
    components (absolute cs) = cs := by
  unfold absolute
  split_ifs with hcs
  · rw [hcs]
    decide
  · exact components_slashed h

theorem slashed_eq_append_slash {cs : List Text} (h : ∀ c ∈ cs, '/' ∉ c) {d t : Text}
    (heq : slashed cs = d ++ '/' :: t) :
    ∃ ds es, cs = ds ++ es ∧ es ≠ [] ∧ d = slashed ds := by
  induction cs generalizing d with
  | nil => simp [slashed] at heq
  | cons c cs ih =>
    have hcons : slashed (c :: cs) = '/' :: (c ++ slashed cs) := rfl
    rw [hcons] at heq
    cases d with
    | nil => exact ⟨[],c :: cs,rfl,by simp,rfl⟩
    | cons x d =>
      obtain ⟨rfl,htail⟩ := List.cons.inj heq
      rcases List.append_eq_append_iff.mp htail with ⟨e,hd,hrest⟩ | ⟨e,hc,ht⟩
      · obtain ⟨ds,es,rfl,hes,rfl⟩ := ih (fun c hc => h c (List.mem_cons_of_mem _ hc)) hrest
        exact ⟨c :: ds,es,rfl,hes,by rw [hd]; rfl⟩
      · cases e with
        | nil =>
          rw [List.append_nil] at hc
          rw [List.nil_append] at ht
          obtain ⟨ds,es,rfl,hes,hds⟩ := ih (fun c hc => h c (List.mem_cons_of_mem _ hc))
            (d := []) ht.symm
          have hd : slashed (c :: ds) = '/' :: (c ++ slashed ds) := rfl
          exact ⟨c :: ds,es,rfl,hes,by rw [hd,← hds,List.append_nil,hc]⟩
        | cons y e =>
          obtain ⟨rfl,-⟩ := List.cons.inj ht
          exact absurd (by rw [hc]; simp) (h c List.mem_cons_self)

/-- A path is written in front of another, with a slash behind it or as a whole. -/
def Under (cwd dir : Text) : Prop := cwd = dir ∨ dir ++ ['/'] <+: cwd

/-- The names of a path are the first ones of another. -/
def Below (cwd dir : Text) : Prop := components dir <+: components cwd

section Under

variable {cs ds : List Text} {dir : Text}

/-- What is written in front of a path are its first names; the root only in front of itself. -/
theorem under_absolute (h : ∀ c ∈ cs, Name c) (hdir : dir.head? = some '/') :
    Under (absolute cs) dir ↔ ∃ ds, ds <+: cs ∧ dir = absolute ds ∧ (ds = [] → cs = []) := by
  constructor
  · rintro (rfl | ⟨t,ht⟩)
    · exact ⟨cs,List.prefix_refl cs,rfl,id⟩
    · have hslash : absolute cs = dir ++ '/' :: t := by rw [← ht]; simp
      unfold absolute at hslash
      split_ifs at hslash with hcs
      · -- the root has nothing in front of its slash
        cases dir with
        | nil => simp at hdir
        | cons x dir => simp at hslash
      · obtain ⟨ds,es,rfl,-,rfl⟩ := slashed_eq_append_slash (fun c hc => (h c hc).2.1) hslash
        have hds : ds ≠ [] := by
          rintro rfl
          simp [slashed] at hdir
        exact ⟨ds,List.prefix_append ds es,(if_neg hds).symm,fun hnil => absurd hnil hds⟩
  · rintro ⟨ds,⟨es,rfl⟩,rfl,hnil⟩
    by_cases hds : ds = []
    · rw [hnil hds,hds]
      exact .inl rfl
    · by_cases hes : es = []
      · rw [hes,List.append_nil]
        exact .inl rfl
      · refine .inr ?_
        obtain ⟨e,es,rfl⟩ := List.exists_cons_of_ne_nil hes
        rw [absolute,absolute,if_neg hds,if_neg (by simp),slashed_append]
        exact ⟨e ++ slashed es,by simp [slashed]⟩

theorem Under.below (h : ∀ c ∈ cs, Name c) (hdir : dir.head? = some '/')
    (hu : Under (absolute cs) dir) : Below (absolute cs) dir := by
  obtain ⟨ds,hds,rfl,-⟩ := (under_absolute h hdir).mp hu
  have hnames : ∀ d ∈ ds, Name d := fun d hd => h d (hds.subset hd)
  rw [Below,components_absolute h,components_absolute hnames]
  exact hds

end Under

end Path
