import Mathlib.Data.List.Nodup
import Limux.TmuxTarget
import Limux.Lib.Rewrite
import Limux.Lib.Words

/-! Rendering of tmux formats (`tmuxRenderFormat` of `tmux_compat.go`): the variables of the
context one after the other, then what is left of `#{…}`. -/
namespace Limux.Tmux

open Rewrite Text

def varText (body : Text) : Text := '#' :: '\x7b' :: (body ++ ['\x7d'])

def findText (old s : Text) : Option ℕ := if old.isPrefixOf s then some (old.length-1) else none

def replaceAll (s old new : Text) : Text := rewrite (findText old) new s

/-- A match of the regular expression for variables at the start: behind the brace one character
or more up to the next closing brace. -/
def findVar : Text → Option ℕ
  | '#' :: '\x7b' :: t =>
    let body := t.takeWhile (· ≠ '\x7d')
    if body ≠ [] ∧ body.length < t.length then some (body.length+2) else none
  | _ => none

/-- `tmuxFormatVarRe.ReplaceAllString` with the empty text. -/
def removeVars (s : Text) : Text := rewrite findVar [] s

/-- The variables in the order in which the map is iterated. -/
def substitute (vars : List (Text × Text)) (format : Text) : Text :=
  vars.foldl (fun rendered e => replaceAll rendered (varText e.1) e.2) format

def orFallback (fallback rendered : Text) : Text :=
  if trim rendered = [] then fallback else trim rendered

def tmuxRenderFormat (format : Text) (vars : List (Text × Text)) (fallback : Text) : Text :=
  if format = [] then fallback
  else orFallback fallback (removeVars (substitute vars format))

/-- The name of a variable, as all names of the contexts are. -/
structure VarName (key : Text) : Prop where
  ne_nil : key ≠ []
  hash : '#' ∉ key
  brace : '\x7d' ∉ key

/-- The variables of a context. -/
structure FormatVars where
  entries : List (Text × Text)
  nodup : (entries.map Prod.fst).Nodup
  names : ∀ e ∈ entries, VarName e.1

/-- A format as its text up to the first variable of the context, and each variable with the text
behind it. -/
structure Template where
  head : Text
  vars : List (Text × Text)

def templateFrom (keys : List Text) : ℕ → Text → Template
  | _, [] => ⟨[],[]⟩
  | k+1, _ :: s => templateFrom keys k s
  | 0, c :: s =>
    match keys.find? (fun key => (varText key).isPrefixOf (c :: s)) with
    | some key =>
      let t := templateFrom keys (key.length+2) s
      ⟨[],(key,t.head) :: t.vars⟩
    | none =>
      let t := templateFrom keys 0 s
      ⟨c :: t.head,t.vars⟩

/-- The variables spelled out, with the text behind each. -/
def spellVars (f : Text → Text) (vars : List (Text × Text)) : Text :=
  vars.flatMap (fun p => f p.1 ++ p.2)

namespace Template

def spell (f : Text → Text) (t : Template) : Text := t.head ++ spellVars f t.vars

/-- The values as they are, and nothing for what else looks like a variable. -/
def cleaned (f : Text → Text) (t : Template) : Text :=
  removeVars t.head ++ spellVars f (t.vars.map (fun p => (p.1,removeVars p.2)))

end Template

namespace FormatVars

variable (ctx : FormatVars)

def keys : List Text := ctx.entries.map Prod.fst

def value (key : Text) : Text :=
  ((ctx.entries.find? (fun e => e.1 = key)).map Prod.snd).getD []

def template (format : Text) : Template := templateFrom ctx.keys 0 format

def render (format fallback : Text) : Text :=
  orFallback fallback ((ctx.template format).cleaned ctx.value)

/-- Every order of the variables gives the text of the substitution at once. -/
def Simultaneous (format : Text) : Prop :=
  ∀ vars, vars.Perm ctx.entries → ∀ fallback,
    tmuxRenderFormat format vars fallback = ctx.render format fallback

end FormatVars

/-- The text starts with what looks like a variable. -/
def Starts (s : Text) : Prop :=
  ∃ body rest, body ≠ [] ∧ '\x7d' ∉ body ∧ s = varText body ++ rest

/-- What looks like a variable and starts in `x` ends in `x`. -/
def Inside (x s : Text) : Prop := ∀ y, y ≠ [] → y <:+ x → Starts (y ++ s) → Starts y

/-- Nothing that looks like a variable starts in `x`. -/
def Outside (x s : Text) : Prop := ∀ y, y ≠ [] → y <:+ x → ¬Starts (y ++ s)

def KeptVars (f : Text → Text) : List (Text × Text) → Prop
  | [] => True
  | (key,t) :: vars =>
    Outside (f key) (t ++ spellVars f vars) ∧ Inside t (spellVars f vars) ∧ KeptVars f vars

/-- With the values in place, what looks like a variable stands in one piece of the format: it
touches neither a value nor the place of one. -/
def Template.Kept (f : Text → Text) (t : Template) : Prop :=
  Inside t.head (spellVars f t.vars) ∧ KeptVars f t.vars

section Vars

variable {a b s r body x : Text} {c : Char}

theorem varText_append : varText body ++ r = '#' :: '\x7b' :: (body ++ '\x7d' :: r) := by
  simp [varText]

theorem split_brace (ha : '\x7d' ∉ a) (hb : '\x7d' ∉ b)
    (h : a ++ '\x7d' :: s = b ++ '\x7d' :: r) : a = b ∧ s = r := by
  induction a generalizing b with
  | nil =>
    cases b with
    | nil => exact ⟨rfl,(List.cons.inj h).2⟩
    | cons d b => exact absurd (by rw [← (List.cons.inj h).1]; simp) hb
  | cons c a ih =>
    cases b with
    | nil => exact absurd (by rw [(List.cons.inj h).1]; simp) ha
    | cons d b =>
      rw [List.mem_cons,not_or] at ha hb
      obtain ⟨hab,hsr⟩ := ih ha.2 hb.2 (List.cons.inj h).2
      exact ⟨by rw [(List.cons.inj h).1,hab],hsr⟩

theorem starts_brace (ha : '\x7d' ∉ a) : Starts (a ++ '\x7d' :: s) ↔
    ∃ body, body ≠ [] ∧ a = '#' :: '\x7b' :: body := by
  constructor
  · rintro ⟨body,rest,hne,hbody,h⟩
    rw [varText_append] at h
    have hb : '\x7d' ∉ '#' :: '\x7b' :: body := by simp [hbody]
    exact ⟨body,hne,(split_brace ha hb h).1⟩
  · rintro ⟨body,hne,rfl⟩
    refine ⟨body,s,hne,fun h => ha (by simp [h]),?_⟩
    rw [varText_append]
    rfl

theorem Starts.append (h : Starts s) (r : Text) : Starts (s ++ r) := by
  obtain ⟨body,rest,hne,hbody,rfl⟩ := h
  exact ⟨body,rest ++ r,hne,hbody,List.append_assoc _ _ _⟩

theorem findVar_varText (hne : body ≠ []) (hbody : '\x7d' ∉ body) :
    findVar (varText body ++ r) = some (body.length+2) := by
  have htake : (body ++ '\x7d' :: r).takeWhile (· ≠ '\x7d') = body := by
    rw [List.takeWhile_append_of_pos]
    · simp
    · intro d hd
      simpa using fun h : d = '\x7d' => hbody (h ▸ hd)
  rw [varText_append,findVar,htake]
  simp [hne]

theorem findVar_eq_none : findVar s = none ↔ ¬Starts s := by
  constructor
  · rintro h ⟨body,rest,hne,hbody,rfl⟩
    rw [findVar_varText hne hbody] at h
    cases h
  · intro h
    unfold findVar
    split
    · rename_i t
      refine if_neg fun hlt => h ?_
      have hsplit := List.takeWhile_append_dropWhile (p := fun d => decide (d ≠ '\x7d')) (l := t)
      cases hdrop : t.dropWhile (fun d => decide (d ≠ '\x7d')) with
      | nil =>
        rw [hdrop,List.append_nil] at hsplit
        rw [hsplit] at hlt
        exact absurd hlt.2 (lt_irrefl _)
      | cons d rest =>
        have hd := List.head_dropWhile_not (fun d => decide (d ≠ '\x7d')) (l := t)
          (by rw [hdrop]; exact List.cons_ne_nil _ _)
        simp only [hdrop,List.head_cons] at hd
        obtain rfl : d = '\x7d' := by simpa using hd
        refine ⟨_,rest,hlt.1,fun hmem => ?_,?_⟩
        · simpa using List.mem_takeWhile_imp hmem
        · rw [varText_append,← hdrop,hsplit]
    · rfl

theorem drop_var (body r : Text) :
    ('\x7b' :: (body ++ '\x7d' :: r)).drop (body.length+2) = r := by
  rw [List.drop_succ_cons,List.drop_append,List.drop_eq_nil_of_le (Nat.le_succ _)]
  simp

theorem removeVars_varText (hne : body ≠ []) (hbody : '\x7d' ∉ body) :
    removeVars (varText body ++ r) = removeVars r := by
  have hfind := findVar_varText (r := r) hne hbody
  rw [varText_append] at hfind ⊢
  rw [removeVars,rewrite_of_some hfind,drop_var]
  rfl

theorem removeVars_cons (h : ¬Starts (c :: s)) : removeVars (c :: s) = c :: removeVars s :=
  rewrite_of_none (findVar_eq_none.mpr h)

theorem removeVars_append (h : Outside x s) : removeVars (x ++ s) = x ++ removeVars s :=
  rewrite_append x fun y hy hsuf => findVar_eq_none.mpr (h y hy hsuf)

def solid (s : Text) : ℕ := s.countP (fun c => !isWhitespace c)

theorem solid_append (a b : Text) : solid (a ++ b) = solid a + solid b := List.countP_append

theorem solid_trim (s : Text) : solid (trim s) = solid s := by
  have hblank : ∀ t : Text, (∀ c ∈ t, isWhitespace c = true) → solid t = 0 := by
    intro t ht
    rw [solid,List.countP_eq_zero]
    intro c hc
    simp [ht c hc]
  obtain ⟨t,ht,hend⟩ := trimEnd_append_blank (trimStart s)
  have hstart : solid (trimStart s) = solid s := by
    have hsplit := List.takeWhile_append_dropWhile (p := isWhitespace) (l := s)
    have hsum := congrArg solid hsplit
    rw [solid_append,hblank _ fun c hc => List.mem_takeWhile_imp hc,Nat.zero_add] at hsum
    exact hsum
  have hsum := congrArg solid ht
  rw [solid_append,hblank t hend,hstart,Nat.add_zero] at hsum
  exact hsum.symm

/-- Behind the end of what looks like a variable, the removal goes on as it would without it. -/
theorem removeVars_brace (ha : '\x7d' ∉ a) :
    ∃ w, removeVars (a ++ '\x7d' :: s) = w ++ removeVars s := by
  induction a with
  | nil =>
    have hnot : ¬Starts ('\x7d' :: s) := by
      rintro ⟨body,rest,-,-,h⟩
      cases (List.cons.inj h).1
    exact ⟨['\x7d'],removeVars_cons hnot⟩
  | cons c a ih =>
    by_cases hs : Starts (c :: a ++ '\x7d' :: s)
    · obtain ⟨body,hne,hbody⟩ := (starts_brace ha).mp hs
      rw [hbody] at ha ⊢
      refine ⟨[],?_⟩
      have hvar : '#' :: '\x7b' :: body ++ '\x7d' :: s = varText body ++ s := by
        rw [varText_append]
        rfl
      rw [hvar,removeVars_varText hne (by simpa using ha)]
      rfl
    · obtain ⟨w,hw⟩ := ih fun h => ha (List.mem_cons_of_mem _ h)
      have hcons : c :: a ++ '\x7d' :: s = c :: (a ++ '\x7d' :: s) := rfl
      rw [hcons] at hs ⊢
      exact ⟨c :: w,by rw [removeVars_cons hs,hw]; rfl⟩

/-- The text is as expected just when the condition holds, and is shorter otherwise. -/
def Exact (P : Prop) (s expected : Text) : Prop :=
  (P ∧ s = expected) ∨ (¬P ∧ solid s < solid expected)

theorem Exact.le {P : Prop} (h : Exact P a b) : solid a ≤ solid b := by
  rcases h with ⟨-,rfl⟩ | ⟨-,h⟩
  · exact le_rfl
  · exact h.le

theorem Exact.append {P Q : Prop} (h : Exact P a (x ++ s)) (h' : Exact Q s b) :
    Exact (P ∧ Q) a (x ++ b) := by
  have hle := h'.le
  rcases h with ⟨hP,rfl⟩ | ⟨hP,hlt⟩
  · rcases h' with ⟨hQ,rfl⟩ | ⟨hQ,hlt⟩
    · exact .inl ⟨⟨hP,hQ⟩,rfl⟩
    · refine .inr ⟨fun h => hQ h.2,?_⟩
      rw [solid_append,solid_append]
      omega
  · refine .inr ⟨fun h => hP h.1,?_⟩
    rw [solid_append] at hlt ⊢
    omega

theorem Exact.congr {P Q : Prop} (h : Exact P a b) (hPQ : P ↔ Q) : Exact Q a b := by
  rwa [Exact,hPQ] at h

theorem Exact.cons {P : Prop} (h : Exact P a b) (c : Char) : Exact P (c :: a) (c :: b) := by
  rcases h with ⟨hP,rfl⟩ | ⟨hP,hlt⟩
  · exact .inl ⟨hP,rfl⟩
  · refine .inr ⟨hP,?_⟩
    have ha := solid_append [c] a
    have hb := solid_append [c] b
    rw [List.singleton_append] at ha hb
    omega

theorem solid_hash (s : Text) : 0 < solid ('#' :: s) := by
  have h := solid_append ['#'] s
  have hone : solid ['#'] = 1 := rfl
  rw [List.singleton_append,hone] at h
  omega

/-- A variable that starts in the first part of a text and goes on behind it. -/
theorem removeVars_across (hs : Starts (x ++ s)) (hx : ¬Starts x) (hne : x ≠ []) :
    solid (removeVars (x ++ s)) < solid (removeVars x) + solid (removeVars s) := by
  obtain ⟨body,rest,hbne,hbody,h⟩ := hs
  rw [h,removeVars_varText hbne hbody]
  obtain ⟨c,x,rfl⟩ := List.exists_cons_of_ne_nil hne
  rw [varText_append] at h
  have hb : '\x7d' ∉ '#' :: '\x7b' :: body := by simp [hbody]
  -- the brace that ends it stands behind `x`
  obtain ⟨e,hs,he⟩ : ∃ e, s = e ++ '\x7d' :: rest ∧ '\x7d' ∉ e := by
    have hsplit : c :: x ++ s = ('#' :: '\x7b' :: body) ++ '\x7d' :: rest := h
    rcases List.append_eq_append_iff.mp hsplit with ⟨e,hxe,hse⟩ | ⟨e,hxe,hse⟩
    · refine ⟨e,hse,fun hmem => hb ?_⟩
      rw [hxe]
      exact List.mem_append_right _ hmem
    · cases e with
      | nil => exact ⟨[],by simpa using hse.symm,List.not_mem_nil⟩
      | cons d e =>
        obtain ⟨rfl,-⟩ := List.cons.inj hse
        rw [hxe] at hx
        exact absurd ((starts_brace hb).mpr ⟨body,hbne,rfl⟩) hx
  obtain ⟨w,hw⟩ := removeVars_brace (s := rest) he
  have hc : c = '#' := (List.cons.inj h).1
  rw [hs,hw,removeVars_cons hx,hc,solid_append]
  have := solid_hash (removeVars x)
  omega

theorem inside_varText (hbody : '\x7d' ∉ body) : Inside (varText body ++ r) s ↔ Inside r s := by
  constructor
  · intro h y hy hsuf
    exact h y hy (hsuf.trans (List.suffix_append _ _))
  · intro h y hy hsuf hs
    have hsplit : y <:+ ('#' :: '\x7b' :: body) ++ '\x7d' :: r := by
      rw [varText_append] at hsuf
      exact hsuf
    rcases suffix_append hsplit with hsuf | ⟨e,-,hend,rfl⟩
    · rcases List.suffix_cons_iff.mp hsuf with rfl | hsuf
      · obtain ⟨body,rest,-,-,h⟩ := hs
        cases (List.cons.inj h).1
      · exact h y hy hsuf hs
    · -- the rest of the variable decides by itself
      have he : '\x7d' ∉ e := by
        intro hmem
        have hb : '\x7d' ∉ '#' :: '\x7b' :: body := by simp [hbody]
        exact hb (hend.subset hmem)
      rw [List.append_assoc,List.cons_append,starts_brace he] at hs
      exact (starts_brace he).mpr hs

theorem exact_inside (x s : Text) :
    Exact (Inside x s) (removeVars (x ++ s)) (removeVars x ++ removeVars s) := by
  induction hn : x.length using Nat.strong_induction_on generalizing x with
  | _ n ih =>
    subst hn
    cases x with
    | nil =>
      refine .inl ⟨fun y hy hsuf => ?_,rfl⟩
      exact absurd (List.suffix_nil.mp hsuf) hy
    | cons c x =>
      by_cases hs : Starts (c :: x ++ s)
      · by_cases hx : Starts (c :: x)
        · obtain ⟨body,rest,hne,hbody,h⟩ := hx
          have hlt : rest.length < (c :: x).length := by
            rw [h,varText_append]
            simp
            omega
          rw [h,List.append_assoc,removeVars_varText hne hbody,removeVars_varText hne hbody]
          exact (ih _ hlt rest rfl).congr (inside_varText hbody).symm
        · refine .inr ⟨fun h => hx (h (c :: x) (by simp) (List.suffix_refl _) hs),?_⟩
          rw [solid_append]
          exact removeVars_across hs hx (by simp)
      · have hx : ¬Starts (c :: x) := fun hx => hs (hx.append s)
        have hcons : c :: x ++ s = c :: (x ++ s) := rfl
        rw [hcons] at hs ⊢
        rw [removeVars_cons hs,removeVars_cons hx]
        refine ((ih x.length (by simp) x rfl).cons c).congr ⟨fun h y hy hsuf hys => ?_,?_⟩
        · rcases List.suffix_cons_iff.mp hsuf with rfl | hsuf
          · exact absurd hys hs
          · exact h y hy hsuf hys
        · intro h y hy hsuf
          exact h y hy (hsuf.trans (List.suffix_cons c x))

theorem exact_self (x : Text) : Exact (Outside x []) (removeVars x) x := by
  induction hn : x.length using Nat.strong_induction_on generalizing x with
  | _ n ih =>
    subst hn
    cases x with
    | nil =>
      refine .inl ⟨fun y hy hsuf => ?_,rfl⟩
      exact absurd (List.suffix_nil.mp hsuf) hy
    | cons c x =>
      by_cases hx : Starts (c :: x)
      · refine .inr ⟨fun h => h (c :: x) (by simp) (List.suffix_refl _) (by simpa using hx),?_⟩
        obtain ⟨body,rest,hne,hbody,h⟩ := hx
        have hlt : rest.length < (c :: x).length := by
          rw [h,varText_append]
          simp
          omega
        have hrest := (ih _ hlt rest rfl).le
        rw [h,removeVars_varText hne hbody,solid_append]
        have := solid_hash ('\x7b' :: (body ++ ['\x7d']))
        rw [varText]
        omega
      · rw [removeVars_cons hx]
        refine ((ih x.length (by simp) x rfl).cons c).congr ⟨fun h y hy hsuf hys => ?_,?_⟩
        · rcases List.suffix_cons_iff.mp hsuf with rfl | hsuf
          · exact hx (by simpa using hys)
          · exact h y hy hsuf hys
        · intro h y hy hsuf
          exact h y hy (hsuf.trans (List.suffix_cons c x))

theorem exact_outside (x s : Text) :
    Exact (Outside x s) (removeVars (x ++ s)) (x ++ removeVars s) := by
  by_cases hout : Outside x s
  · exact .inl ⟨hout,removeVars_append hout⟩
  · refine .inr ⟨hout,?_⟩
    have hself := (exact_self x).le
    rw [solid_append]
    rcases exact_inside x s with ⟨hin,h⟩ | ⟨-,hlt⟩
    · rcases exact_self x with ⟨hself,-⟩ | ⟨-,hlt⟩
      · refine absurd (fun y hy hsuf hs => ?_) hout
        exact hself y hy hsuf (by simpa using hin y hy hsuf hs)
      · rw [h,solid_append]
        omega
    · rw [solid_append] at hlt
      omega

theorem spellVars_cons (f : Text → Text) (p : Text × Text) (vars : List (Text × Text)) :
    spellVars f (p :: vars) = f p.1 ++ (p.2 ++ spellVars f vars) := by
  simp [spellVars]

theorem exact_vars (f : Text → Text) (vars : List (Text × Text)) (t : Text) :
    Exact (Inside t (spellVars f vars) ∧ KeptVars f vars) (removeVars (t ++ spellVars f vars))
      (removeVars t ++ spellVars f (vars.map (fun p => (p.1,removeVars p.2)))) := by
  induction vars generalizing t with
  | nil =>
    have hin : Inside t (spellVars f []) := by
      intro y _ _ h
      simpa [spellVars] using h
    exact .inl ⟨⟨hin,trivial⟩,by simp [spellVars]⟩
  | cons p vars ih =>
    rw [List.map_cons,spellVars_cons,spellVars_cons]
    exact (exact_inside t _).append ((exact_outside (f p.1) _).append (ih p.2))

/-- The removal leaves the values and the rest of the format apart just when they are kept. -/
theorem exact_template (f : Text → Text) (t : Template) :
    Exact (t.Kept f) (removeVars (t.spell f)) (t.cleaned f) := exact_vars f t.vars t.head

end Vars

/-- No variable of the context stands in the text. -/
def Bare (keys : List Text) (x : Text) : Prop :=
  ∀ y, y <:+ x → ∀ key ∈ keys, ¬varText key <+: y

/-- The template has found all variables of the context. -/
structure Template.Found (keys : List Text) (t : Template) : Prop where
  known : ∀ p ∈ t.vars, p.1 ∈ keys
  head : Bare keys t.head
  behind : ∀ p ∈ t.vars, Bare keys p.2

section Found

variable {keys : List Text}

theorem bare_nil : Bare keys [] := by
  rintro y hy key - ⟨w,hw⟩
  rw [List.suffix_nil.mp hy] at hw
  cases hw

theorem find_key {c : Char} {s key : Text}
    (h : keys.find? (fun key => (varText key).isPrefixOf (c :: s)) = some key) :
    key ∈ keys ∧ c :: s = varText key ++ s.drop (key.length+2) := by
  refine ⟨List.mem_of_find?_eq_some h,?_⟩
  have hfound := List.find?_some h
  obtain ⟨rest,hrest⟩ := List.isPrefixOf_iff_prefix.mp hfound
  have hs : s = '\x7b' :: (key ++ '\x7d' :: rest) := by
    rw [varText_append] at hrest
    exact (List.cons.inj hrest).2.symm
  rw [← hrest,hs,drop_var]

theorem not_prefix_of_find {c : Char} {s : Text}
    (h : keys.find? (fun key => (varText key).isPrefixOf (c :: s)) = none) :
    ∀ key ∈ keys, ¬varText key <+: c :: s := by
  intro key hkey hpre
  have hnot := List.find?_eq_none.mp h key hkey
  exact hnot (List.isPrefixOf_iff_prefix.mpr hpre)

theorem spell_templateFrom (k : ℕ) (s : Text) :
    (templateFrom keys k s).spell varText = s.drop k := by
  induction s generalizing k with
  | nil => simp [templateFrom,Template.spell,spellVars]
  | cons c s ih =>
    cases k with
    | succ k => exact ih k
    | zero =>
      rw [templateFrom]
      cases hfind : keys.find? (fun key => (varText key).isPrefixOf (c :: s)) with
      | none =>
        have h := ih 0
        simp only [Template.spell,List.cons_append] at h ⊢
        rw [h]
        rfl
      | some key =>
        have h := ih (key.length+2)
        simp only [Template.spell] at h ⊢
        rw [spellVars_cons,h,List.nil_append,← (find_key hfind).2]
        rfl

theorem found_templateFrom (k : ℕ) (s : Text) : (templateFrom keys k s).Found keys := by
  induction s generalizing k with
  | nil =>
    rw [templateFrom]
    exact ⟨by simp,bare_nil,by simp⟩
  | cons c s ih =>
    cases k with
    | succ k => exact ih k
    | zero =>
      rw [templateFrom]
      cases hfind : keys.find? (fun key => (varText key).isPrefixOf (c :: s)) with
      | none =>
        refine ⟨(ih 0).known,fun y hy key hkey hpre => ?_,(ih 0).behind⟩
        rcases List.suffix_cons_iff.mp hy with rfl | hy
        · -- the text goes on as the piece does
          have hspell : (templateFrom keys 0 s).spell varText = s := spell_templateFrom 0 s
          refine not_prefix_of_find hfind key hkey (hpre.trans ?_)
          rw [Template.spell] at hspell
          exact ⟨_,by rw [List.cons_append,hspell]⟩
        · exact (ih 0).head y hy key hkey hpre
      | some key =>
        obtain ⟨hknown,hhead,hbehind⟩ := ih (key.length+2)
        refine ⟨?_,bare_nil,?_⟩
        · intro p hp
          rcases List.mem_cons.mp hp with rfl | hp
          · exact (find_key hfind).1
          · exact hknown p hp
        · intro p hp
          rcases List.mem_cons.mp hp with rfl | hp
          · exact hhead
          · exact hbehind p hp

end Found

/-- Some variables replaced by their values, the others not yet. -/
def filled (value : Text → Text) (done : List Text) (key : Text) : Text :=
  if key ∈ done then value key else varText key

section Substitute

variable {keys done : List Text} {value : Text → Text} {key x y u : Text}
  {vars : List (Text × Text)}

/-- A variable that starts in front of the others is the same with the values in place. -/
theorem prefix_filled (hu : '#' ∉ u.tail) (hy : y ≠ [])
    (h : u <+: y ++ spellVars (filled value done) vars) : u <+: y ++ spellVars value vars := by
  induction vars generalizing y with
  | nil => exact h
  | cons p vars ih =>
    rw [spellVars_cons] at h ⊢
    by_cases hp : p.1 ∈ done
    · have hfilled : filled value done p.1 = value p.1 := if_pos hp
      rw [hfilled,← List.append_assoc,← List.append_assoc] at h
      rw [← List.append_assoc,← List.append_assoc]
      exact ih (by simp [hy]) h
    · -- it would have to go over the next `#`
      have hfilled : filled value done p.1 = varText p.1 := if_neg hp
      rw [hfilled,varText_append] at h
      obtain ⟨w,hw⟩ := h
      rcases List.append_eq_append_iff.mp hw with ⟨e,rfl,-⟩ | ⟨e,rfl,hwe⟩
      · rw [List.append_assoc]
        exact List.prefix_append u _
      · cases e with
        | nil =>
          rw [List.append_nil]
          exact List.prefix_append y _
        | cons d e =>
          obtain ⟨rfl,-⟩ := List.cons.inj hwe
          obtain ⟨c,y,rfl⟩ := List.exists_cons_of_ne_nil hy
          exact absurd (by simp) hu

theorem hash_notMem_tail (h : VarName key) : '#' ∉ (varText key).tail := by
  simp [varText,h.hash]

theorem starts_of_prefix (h : VarName key) (hpre : varText key <+: y) : Starts y := by
  obtain ⟨r,rfl⟩ := hpre
  exact ⟨key,r,h.ne_nil,h.brace,rfl⟩

theorem varText_inj {a b r s : Text} (ha : '\x7d' ∉ a) (hb : '\x7d' ∉ b)
    (h : varText a ++ r = varText b ++ s) : a = b := by
  rw [varText_append,varText_append] at h
  exact (split_brace ha hb (List.cons.inj (List.cons.inj h).2).2).1

/-- A variable in front of a text that starts with a variable is that one. -/
theorem prefix_of_starts (h : VarName key) (hs : Starts y) (hpre : varText key <+: y ++ x) :
    varText key <+: y := by
  obtain ⟨body,rest,-,hbody,rfl⟩ := hs
  obtain ⟨r,hr⟩ := hpre
  rw [List.append_assoc] at hr
  rw [varText_inj h.brace hbody hr]
  exact List.prefix_append _ rest

theorem findText_eq_none : findText u y = none ↔ ¬u <+: y := by
  rw [findText]
  split_ifs with h
  · simp [List.isPrefixOf_iff_prefix.mp h]
  · simpa [List.isPrefixOf_iff_prefix] using h

theorem replaceAll_append (h : ∀ z, z ≠ [] → z <:+ x → ¬varText key <+: z ++ y) (new : Text) :
    replaceAll (x ++ y) (varText key) new = x ++ replaceAll y (varText key) new :=
  rewrite_append x fun z hz hsuf => findText_eq_none.mpr (h z hz hsuf)

theorem replaceAll_varText (y new : Text) :
    replaceAll (varText key ++ y) (varText key) new = new ++ replaceAll y (varText key) new := by
  have hfind : findText (varText key) (varText key ++ y) = some (key.length+2) := by
    rw [findText,if_pos (List.isPrefixOf_iff_prefix.mpr (List.prefix_append _ _))]
    simp [varText]
  rw [replaceAll]
  rw [varText_append] at hfind ⊢
  rw [rewrite_of_some hfind,drop_var]
  rfl

theorem not_prefix_varText {key' : Text} (h : VarName key) (h' : VarName key') (hne : key' ≠ key)
    (hx : x ≠ []) (hsuf : x <:+ varText key') : ¬varText key <+: x ++ y := by
  rintro ⟨r,hr⟩
  rcases List.suffix_cons_iff.mp hsuf with rfl | hsuf
  · exact hne (varText_inj h.brace h'.brace hr).symm
  · obtain ⟨c,x,rfl⟩ := List.exists_cons_of_ne_nil hx
    rw [varText_append] at hr
    have hc : '#' = c := (List.cons.inj hr).1
    have hmem : '#' ∈ (varText key').tail := hsuf.subset (by rw [hc]; exact List.mem_cons_self)
    exact hash_notMem_tail h' hmem

/-- With the values in place no variable of the context has come up, if nothing touches them. -/
theorem bare_of_kept (hnames : ∀ key ∈ keys, VarName key) (hx : Bare keys x)
    (hin : Inside x (spellVars value vars)) (hkept : KeptVars value vars)
    (hbehind : ∀ p ∈ vars, Bare keys p.2) : Bare keys (x ++ spellVars value vars) := by
  induction vars generalizing x with
  | nil => simpa [spellVars] using hx
  | cons p vars ih =>
    obtain ⟨hout,hin',hkept⟩ := hkept
    rw [List.forall_mem_cons] at hbehind
    intro y hy key hkey hpre
    have hs := starts_of_prefix (hnames key hkey) hpre
    rcases suffix_append hy with hy | ⟨z,hz,hsuf,rfl⟩
    · rw [spellVars_cons] at hy
      rcases suffix_append hy with hy | ⟨z,hz,hsuf,rfl⟩
      · exact ih hbehind.1 hin' hkept hbehind.2 y hy key hkey hpre
      · exact hout z hz hsuf hs
    · exact hx z hsuf key hkey (prefix_of_starts (hnames key hkey) (hin z hz hsuf hs) hpre)

theorem not_prefix_piece (hname : VarName key) (hkey : key ∈ keys)
    (hbare : Bare keys (x ++ spellVars value vars)) (hy : y ≠ []) (hsuf : y <:+ x) :
    ¬varText key <+: y ++ spellVars (filled value done) vars := by
  intro hpre
  obtain ⟨w,rfl⟩ := hsuf
  rw [List.append_assoc] at hbare
  exact hbare _ (List.suffix_append w _) key hkey
    (prefix_filled (hash_notMem_tail hname) hy hpre)

/-- One variable is replaced in its places and nowhere else. -/
theorem replaceAll_filled (hnames : ∀ key ∈ keys, VarName key) (hkey : key ∈ keys)
    (hbare : Bare keys (x ++ spellVars value vars)) (hknown : ∀ p ∈ vars, p.1 ∈ keys)
    (hdone : key ∉ done) :
    replaceAll (x ++ spellVars (filled value done) vars) (varText key) (value key) =
      x ++ spellVars (filled value (key :: done)) vars := by
  have hname := hnames key hkey
  rw [replaceAll_append fun z hz hsuf => not_prefix_piece hname hkey hbare hz hsuf]
  congr 1
  induction vars generalizing x with
  | nil => rfl
  | cons p vars ih =>
    rw [List.forall_mem_cons] at hknown
    have hrest : Bare keys (value p.1 ++ (p.2 ++ spellVars value vars)) := by
      intro y hy
      rw [spellVars_cons] at hbare
      exact hbare y (hy.trans (List.suffix_append x _))
    have hbehind : Bare keys (p.2 ++ spellVars value vars) := fun y hy =>
      hrest y (hy.trans (List.suffix_append _ _))
    rw [spellVars_cons,spellVars_cons]
    have htail : replaceAll (p.2 ++ spellVars (filled value done) vars) (varText key)
        (value key) = p.2 ++ spellVars (filled value (key :: done)) vars := by
      rw [replaceAll_append fun z hz hsuf => not_prefix_piece hname hkey hbehind hz hsuf,
        ih hbehind hknown.2]
    by_cases hp : p.1 = key
    · have hold : filled value done p.1 = varText key := by rw [hp]; exact if_neg hdone
      have hnew : filled value (key :: done) p.1 = value key := by
        rw [hp]
        exact if_pos List.mem_cons_self
      rw [hold,hnew,replaceAll_varText,htail]
    · by_cases hd : p.1 ∈ done
      · have hold : filled value done p.1 = value p.1 := if_pos hd
        have hnew : filled value (key :: done) p.1 = value p.1 :=
          if_pos (List.mem_cons_of_mem _ hd)
        rw [hold,hnew,replaceAll_append,htail]
        rintro z hz ⟨w,hw⟩ hpre
        rw [← List.append_assoc] at hpre
        rw [← hw,List.append_assoc,← List.append_assoc z] at hrest
        exact hrest _ (List.suffix_append w _) key hkey
          (prefix_filled (hash_notMem_tail hname) (by simp [hz]) hpre)
      · have hold : filled value done p.1 = varText p.1 := if_neg hd
        have hnew : filled value (key :: done) p.1 = varText p.1 := if_neg (by simp [hp,hd])
        rw [hold,hnew,replaceAll_append,htail]
        intro z hz hsuf
        exact not_prefix_varText hname (hnames p.1 hknown.1) hp hz hsuf

/-- All variables replaced in some order: the template with those values. -/
theorem substitute_template {t : Template} (hnames : ∀ key ∈ keys, VarName key)
    (hbare : Bare keys (t.spell value)) (hknown : ∀ p ∈ t.vars, p.1 ∈ keys)
    {entries : List (Text × Text)} (hentries : ∀ e ∈ entries, e.1 ∈ keys ∧ e.2 = value e.1)
    (hnodup : (entries.map Prod.fst).Nodup) (hdone : ∀ e ∈ entries, e.1 ∉ done) :
    substitute entries (t.spell (filled value done)) =
      t.spell (filled value ((entries.map Prod.fst).reverse ++ done)) := by
  induction entries generalizing done with
  | nil => rfl
  | cons e entries ih =>
    rw [List.forall_mem_cons] at hentries hdone
    rw [List.map_cons,List.nodup_cons] at hnodup
    have hstep : substitute (e :: entries) (t.spell (filled value done)) = substitute entries
        (replaceAll (t.spell (filled value done)) (varText e.1) (value e.1)) := by
      rw [← hentries.1.2]
      rfl
    have hone : replaceAll (t.spell (filled value done)) (varText e.1) (value e.1) =
        t.spell (filled value (e.1 :: done)) :=
      replaceAll_filled hnames hentries.1.1 hbare hknown hdone.1
    rw [hstep,hone,ih hentries.2 hnodup.2]
    · simp
    · intro e' he' hmem
      rcases List.mem_cons.mp hmem with heq | hmem
      · exact hnodup.1 (heq ▸ List.mem_map_of_mem he')
      · exact hdone.2 e' he' hmem

end Substitute

namespace FormatVars

variable {ctx : FormatVars} {format : Text} {vars : List (Text × Text)}

theorem value_of_mem {e : Text × Text} (he : e ∈ ctx.entries) : ctx.value e.1 = e.2 := by
  cases hfind : ctx.entries.find? (fun e' => e'.1 = e.1) with
  | none =>
    have hnot := List.find?_eq_none.mp hfind e he
    simp at hnot
  | some e' =>
    have hkey : e'.1 = e.1 := by simpa using List.find?_some hfind
    have heq := List.inj_on_of_nodup_map ctx.nodup (List.mem_of_find?_eq_some hfind) he hkey
    rw [value,hfind,← heq]
    rfl

theorem varName_of_mem : ∀ key ∈ ctx.keys, VarName key := by
  intro key hkey
  obtain ⟨e,he,rfl⟩ := List.mem_map.mp hkey
  exact ctx.names e he

theorem spell_filled {f g : Text → Text} {t : Template} (h : ∀ p ∈ t.vars, f p.1 = g p.1) :
    t.spell f = t.spell g := by
  rw [Template.spell,Template.spell,spellVars,spellVars]
  congr 1
  apply List.flatMap_congr
  intro p hp
  rw [h p hp]

def filledIn (ctx : FormatVars) (format : Text) : Text := (ctx.template format).spell ctx.value

/-- Where no variable comes up in the text, every order puts each value in its places. -/
theorem substitute_of_bare (h : Bare ctx.keys (ctx.filledIn format))
    (hvars : vars.Perm ctx.entries) : substitute vars format = ctx.filledIn format := by
  have hfound : (ctx.template format).Found ctx.keys := found_templateFrom 0 format
  have hstart : (ctx.template format).spell (filled ctx.value []) = format := by
    have hfilled : filled ctx.value [] = varText := by
      funext key
      exact if_neg List.not_mem_nil
    rw [hfilled]
    exact spell_templateFrom 0 format
  have hentries : ∀ e ∈ vars, e.1 ∈ ctx.keys ∧ e.2 = ctx.value e.1 := by
    intro e he
    have hmem := hvars.subset he
    exact ⟨List.mem_map_of_mem hmem,(value_of_mem hmem).symm⟩
  have hnodup : (vars.map Prod.fst).Nodup := (hvars.map Prod.fst).nodup_iff.mpr ctx.nodup
  have hrun : substitute vars ((ctx.template format).spell (filled ctx.value [])) =
      (ctx.template format).spell (filled ctx.value ((vars.map Prod.fst).reverse ++ [])) :=
    substitute_template varName_of_mem h hfound.known hentries hnodup
      (fun e _ => List.not_mem_nil)
  rw [hstart] at hrun
  rw [hrun]
  apply spell_filled
  intro p hp
  have hmem : p.1 ∈ vars.map Prod.fst :=
    (hvars.map Prod.fst).symm.subset (hfound.known p hp)
  exact if_pos (by simpa using hmem)

theorem bare_filledIn (h : (ctx.template format).Kept ctx.value) :
    Bare ctx.keys (ctx.filledIn format) := by
  have hfound : (ctx.template format).Found ctx.keys := found_templateFrom 0 format
  exact bare_of_kept varName_of_mem hfound.head h.1 h.2 hfound.behind

theorem solid_eq_of_orFallback {a b : Text}
    (h : ∀ fallback, orFallback fallback a = orFallback fallback b) : solid a = solid b := by
  have hnil := h []
  rw [← solid_trim a,← solid_trim b]
  unfold orFallback at hnil
  split_ifs at hnil with ha hb hb
  · rw [ha,hb]
  · exact absurd hnil.symm hb
  · exact absurd hnil ha
  · rw [hnil]

theorem simultaneous_of_kept (h : (ctx.template format).Kept ctx.value) :
    ctx.Simultaneous format := by
  intro vars hvars fallback
  by_cases hnil : format = []
  · rw [hnil,tmuxRenderFormat,if_pos rfl]
    rfl
  · rw [tmuxRenderFormat,if_neg hnil,substitute_of_bare (bare_filledIn h) hvars,render]
    rcases exact_template ctx.value (ctx.template format) with ⟨-,heq⟩ | ⟨hnot,-⟩
    · rw [filledIn,heq]
    · exact absurd h hnot

theorem kept_of_simultaneous (hvars : vars.Perm ctx.entries)
    (hsub : substitute vars format = ctx.filledIn format)
    (h : ctx.Simultaneous format) : (ctx.template format).Kept ctx.value := by
  by_cases hnil : format = []
  · rw [hnil]
    exact ⟨fun y hy hsuf => absurd (List.suffix_nil.mp hsuf) hy,trivial⟩
  · rcases exact_template ctx.value (ctx.template format) with ⟨hkept,-⟩ | ⟨-,hlt⟩
    · exact hkept
    · have hall := h vars hvars
      simp only [tmuxRenderFormat,if_neg hnil,hsub,render] at hall
      exact absurd (solid_eq_of_orFallback hall) hlt.ne

end FormatVars

/-- Every order gives the substitution at once if nothing that looks like a variable touches a
value, and only then if in some order no value is expanded again. -/
theorem render_simultaneous (ctx : FormatVars) (format : Text) :
    ((ctx.template format).Kept ctx.value → ctx.Simultaneous format) ∧
    ((∃ vars, vars.Perm ctx.entries ∧ substitute vars format = ctx.filledIn format) →
      ctx.Simultaneous format → (ctx.template format).Kept ctx.value) := by
  refine ⟨FormatVars.simultaneous_of_kept,?_⟩
  rintro ⟨vars,hvars,hsub⟩ h
  exact FormatVars.kept_of_simultaneous hvars hsub h

/-- Where no variable of the context comes up in the text, the condition is exact. -/
theorem simultaneous_iff_of_bare {ctx : FormatVars} {format : Text}
    (h : Bare ctx.keys (ctx.filledIn format)) :
    ctx.Simultaneous format ↔ (ctx.template format).Kept ctx.value :=
  ⟨FormatVars.kept_of_simultaneous (List.Perm.refl _)
    (FormatVars.substitute_of_bare h (List.Perm.refl _)),FormatVars.simultaneous_of_kept⟩

namespace FormatContext

/-- The variables of `tmuxFormatContext`, those without a value left out below. -/
def named (ctx : FormatContext) : List (Text × Option Text) :=
  [("session_name".toList,some ctx.sessionName),("session_id".toList,some ctx.sessionId),
    ("window_id".toList,some ctx.windowId),("window_uuid".toList,some ctx.windowUuid),
    ("window_active".toList,some ctx.windowActive),("window_flags".toList,some ctx.windowFlags),
    ("pane_active".toList,some ctx.paneActive),("window_index".toList,ctx.windowIndex),
    ("window_name".toList,ctx.windowName),("window_panes".toList,ctx.windowPanes),
    ("pane_id".toList,ctx.paneId),("pane_uuid".toList,ctx.paneUuid),
    ("pane_index".toList,ctx.paneIndex),("surface_id".toList,ctx.surfaceId),
    ("pane_title".toList,ctx.paneTitle)]

theorem map_fst_sublist (l : List (Text × Option Text)) :
    ((l.filterMap (fun e => e.2.map (fun v => (e.1,v)))).map Prod.fst).Sublist
      (l.map Prod.fst) := by
  induction l with
  | nil => exact List.Sublist.refl _
  | cons e l ih =>
    rw [List.filterMap_cons]
    cases he : e.2 with
    | none => exact ih.cons _
    | some v => exact ih.cons_cons _

/-- The context as a map; its names are names of variables, and each has one value. -/
def vars (ctx : FormatContext) : FormatVars where
  entries := ctx.named.filterMap (fun e => e.2.map (fun v => (e.1,v)))
  nodup := by
    have hnodup : (ctx.named.map Prod.fst).Nodup := by
      simp only [named,List.map_cons,List.map_nil]
      decide
    exact hnodup.sublist (map_fst_sublist _)
  names := by
    have hnames : ∀ key ∈ ctx.named.map Prod.fst, key ≠ [] ∧ '#' ∉ key ∧ '\x7d' ∉ key := by
      simp only [named,List.map_cons,List.map_nil]
      decide
    intro e he
    obtain ⟨hne,hhash,hbrace⟩ := hnames e.1 ((map_fst_sublist _).subset (List.mem_map_of_mem he))
    exact ⟨hne,hhash,hbrace⟩

def variableTitle : FormatContext :=
  { start ['1'] with
    windowName := titled (varText "pane_title".toList)
    paneTitle := titled ['x'] }

def letterTitle : FormatContext := { start ['1'] with windowName := titled ['x'] }

end FormatContext

open FormatContext

theorem render_letterTitle :
    letterTitle.vars.Simultaneous (varText "window_name".toList) := by
  refine (render_simultaneous letterTitle.vars (varText "window_name".toList)).1 ?_
  have hnot : ∀ y, y ≠ [] → y <:+ ['x'] → ¬Starts (y ++ []) := by
    intro y hy hsuf
    rw [← findVar_eq_none,List.append_nil]
    rcases List.suffix_cons_iff.mp hsuf with rfl | hsuf
    · rfl
    · exact absurd (List.suffix_nil.mp hsuf) hy
  exact ⟨fun y hy hsuf => absurd (List.suffix_nil.mp hsuf) hy,hnot,
    fun y hy hsuf => absurd (List.suffix_nil.mp hsuf) hy,trivial⟩

/-- The title is expanded in one order and removed in the other, and is never there. -/
theorem render_variableTitle :
    tmuxRenderFormat (varText "window_name".toList) variableTitle.vars.entries ['-'] = ['x'] ∧
    tmuxRenderFormat (varText "window_name".toList) variableTitle.vars.entries.reverse ['-'] =
      ['-'] ∧
    variableTitle.vars.render (varText "window_name".toList) ['-'] =
      varText "pane_title".toList ∧
    ¬variableTitle.vars.Simultaneous (varText "window_name".toList) := by
  refine ⟨by decide +kernel,by decide +kernel,by decide +kernel,fun h => ?_⟩
  have hx := h variableTitle.vars.entries (List.Perm.refl _) ['-']
  revert hx
  decide +kernel

end Limux.Tmux
