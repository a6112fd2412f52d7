import Limux.Lib.Text

/-! Words of a text (`split_whitespace`), single splits (`splitn(2, c)`,
`split_once`), and how they act on texts put together from parts. -/
namespace Text

/-- No white space in it. -/
def Tight (s : Text) : Prop := ∀ c ∈ s, isWhitespace c = false

/-- A non-empty text without white space. -/
def Word (s : Text) : Prop := s ≠ [] ∧ Tight s

instance (s : Text) : Decidable (Tight s) :=
  List.decidableBAll (fun c => isWhitespace c = false) s

instance (s : Text) : Decidable (Word s) := inferInstanceAs (Decidable (_ ∧ _))

/-- The word a text starts with, and the words after it. -/
def wordsAux : Text → Text × List Text
  | [] => ([],[])
  | c :: s =>
    let (w,ws) := wordsAux s
    if isWhitespace c then ([],if w = [] then ws else w :: ws) else (c :: w,ws)

/-- `split_whitespace`. -/
def words (s : Text) : List Text :=
  let (w,ws) := wordsAux s
  if w = [] then ws else w :: ws

@[simp] theorem words_nil : words [] = [] := rfl

theorem words_space {c : Char} (h : isWhitespace c = true) (s : Text) :
    words (c :: s) = words s := by
  simp [words,wordsAux,h]

theorem words_append_space {c : Char} (h : isWhitespace c = true) (a b : Text) :
    words (a ++ c :: b) = words a ++ words b := by
  have haux : ∀ a : Text, wordsAux (a ++ c :: b) =
      ((wordsAux a).1,(wordsAux a).2 ++ words b) := by
    intro a
    induction a with
    | nil => simp [wordsAux,words,h]
    | cons x a ih =>
      simp only [List.cons_append,wordsAux,ih]
      by_cases hx : isWhitespace x = true
      · simp only [hx,if_true]
        split_ifs <;> rfl
      · simp [hx]
  simp only [words,haux a]
  split_ifs <;> rfl

theorem wordsAux_tight {a : Text} (h : Tight a) (b : Text) :
    wordsAux (a ++ b) = (a ++ (wordsAux b).1,(wordsAux b).2) := by
  induction a with
  | nil => rfl
  | cons x a ih =>
    simp only [List.cons_append,wordsAux,ih (fun c hc => h c (by simp [hc])),
      h x (by simp)]
    rfl

theorem words_of_word {a : Text} (h : Word a) : words a = [a] := by
  have := wordsAux_tight h.2 []
  simp only [List.append_nil] at this
  simp [words,this,wordsAux,h.1]

theorem word_of_mem {s w : Text} (h : w ∈ words s) : Word w := by
  have haux : ∀ s : Text, Tight (wordsAux s).1 ∧ ∀ w ∈ (wordsAux s).2, Word w := by
    intro s
    induction s with
    | nil => simp [wordsAux,Tight]
    | cons c s ih =>
      simp only [wordsAux]
      by_cases hc : isWhitespace c = true
      · simp only [hc,if_true]
        refine ⟨by simp [Tight],fun w hw => ?_⟩
        split_ifs at hw with he
        · exact ih.2 w hw
        · rcases List.mem_cons.mp hw with rfl | hw
          · exact ⟨he,ih.1⟩
          · exact ih.2 w hw
      · simp only [hc,Bool.false_eq_true,if_false]
        refine ⟨fun d hd => ?_,ih.2⟩
        rcases List.mem_cons.mp hd with rfl | hd
        · simpa using hc
        · exact ih.1 d hd
  simp only [words] at h
  split_ifs at h with he
  · exact (haux s).2 w h
  · rcases List.mem_cons.mp h with rfl | h
    · exact ⟨he,(haux s).1⟩
    · exact (haux s).2 w h

theorem words_glue {p : Text} (hp : Word p) (s : Text) :
    words (p ++ s) = (p ++ (wordsAux s).1) :: (wordsAux s).2 := by
  simp only [words,wordsAux_tight hp.2]
  rw [if_neg (by simp [hp.1])]

/-- `join(" ")`. -/
def spaced (ws : List Text) : Text := [' '].intercalate ws

@[simp] theorem spaced_nil : spaced [] = [] := rfl

@[simp] theorem spaced_singleton (w : Text) : spaced [w] = w := by simp [spaced]

theorem spaced_cons_cons (w v : Text) (ws : List Text) :
    spaced (w :: v :: ws) = w ++ ' ' :: spaced (v :: ws) := by
  simp [spaced,List.intercalate]

/-- Words joined by single spaces are read back. -/
theorem words_spaced {ws : List Text} (h : ∀ w ∈ ws, Word w) : words (spaced ws) = ws := by
  induction ws with
  | nil => rfl
  | cons w ws ih =>
    cases ws with
    | nil => rw [spaced_singleton,words_of_word (h w (by simp))]
    | cons v ws =>
      rw [spaced_cons_cons,words_append_space (by decide),words_of_word (h w (by simp)),
        ih (fun x hx => h x (by simp [hx]))]
      rfl

/-! Trimming. -/

theorem words_of_blank {s : Text} (h : ∀ c ∈ s, isWhitespace c = true) : words s = [] := by
  induction s with
  | nil => rfl
  | cons c s ih =>
    rw [words_space (h c (by simp)),ih (fun d hd => h d (by simp [hd]))]

theorem words_append_blank (s : Text) {t : Text} (h : ∀ c ∈ t, isWhitespace c = true) :
    words (s ++ t) = words s := by
  cases t with
  | nil => rw [List.append_nil]
  | cons c t =>
    have ht : words t = [] := words_of_blank (fun d hd => h d (by simp [hd]))
    rw [words_append_space (h c (by simp)),ht,List.append_nil]

theorem trimEnd_append_blank (s : Text) :
    ∃ t, s = trimEnd s ++ t ∧ ∀ c ∈ t, isWhitespace c = true :=
  ⟨s.rtakeWhile isWhitespace,List.rdropWhile_append_rtakeWhile.symm,
    fun _ hc => List.mem_rtakeWhile_imp hc⟩

theorem words_trimEnd (s : Text) : words (trimEnd s) = words s := by
  obtain ⟨t,hs,ht⟩ := trimEnd_append_blank s
  conv_rhs => rw [hs]
  rw [words_append_blank _ ht]

theorem trimEnd_eq_nil_iff (s : Text) : trimEnd s = [] ↔ ∀ c ∈ s, isWhitespace c = true :=
  List.rdropWhile_eq_nil_iff

theorem trimEnd_append (a b : Text) :
    trimEnd (a ++ b) = if trimEnd b = [] then trimEnd a else a ++ trimEnd b := by
  simp only [trimEnd,List.rdropWhile,List.reverse_append,List.dropWhile_append,
    List.reverse_eq_nil_iff,List.isEmpty_iff]
  split_ifs <;> simp

theorem trimEnd_append_solid (a : Text) {b : Text} (h : trimEnd b ≠ []) :
    trimEnd (a ++ b) = a ++ trimEnd b := by
  rw [trimEnd_append,if_neg h]

theorem trimEnd_append_nil (a : Text) {b : Text} (h : trimEnd b = []) :
    trimEnd (a ++ b) = trimEnd a := by
  rw [trimEnd_append,if_pos h]

theorem trimEnd_of_word {w : Text} (h : Tight w) : trimEnd w = w := by
  rw [trimEnd,List.rdropWhile_eq_self_iff]
  intro hl
  rw [h _ (List.getLast_mem hl)]
  simp

theorem trimStart_of_solid {c : Char} (h : isWhitespace c = false) (s : Text) :
    trimStart (c :: s) = c :: s := by
  simp [trimStart,h]

theorem trim_of_word {w : Text} (h : Tight w) : trim w = w := by
  cases w with
  | nil => rfl
  | cons c w =>
    rw [trim,trimStart_of_solid (h c (by simp)),trimEnd_of_word h]

theorem trim_trimEnd (s : Text) : trim (trimEnd s) = trim s := by
  obtain ⟨t,hs,ht⟩ := trimEnd_append_blank s
  by_cases hb : trimEnd s = []
  · have hall := (trimEnd_eq_nil_iff s).mp hb
    have hst : trimStart s = [] := List.dropWhile_eq_nil_iff.mpr hall
    rw [hb,trim,trim,hst]
    rfl
  · have hst : trimStart s = trimStart (trimEnd s) ++ t := by
      conv_lhs => rw [hs]
      rw [trimStart,List.dropWhile_append,trimStart]
      split_ifs with he
      · rw [List.isEmpty_iff,List.dropWhile_eq_nil_iff] at he
        refine absurd ?_ hb
        rw [trimEnd_eq_nil_iff]
        intro c hc
        rw [hs] at hc
        rcases List.mem_append.mp hc with hc | hc
        · exact he c hc
        · exact ht c hc
      · rfl
    rw [trim,trim,hst,trimEnd_append_nil _ ((trimEnd_eq_nil_iff t).mpr ht)]

theorem trim_eq_nil_iff (s : Text) : trim s = [] ↔ trimEnd s = [] := by
  rw [trim,trimEnd_eq_nil_iff,trimEnd_eq_nil_iff]
  constructor
  · intro h c hc
    by_contra hn
    have hne : trimStart s ≠ [] := by
      intro he
      exact hn (List.dropWhile_eq_nil_iff.mp he c hc)
    obtain ⟨d,ds,hd⟩ := List.exists_cons_of_ne_nil hne
    have h1 := h d (by simp [hd])
    have h2 := List.head_dropWhile_not isWhitespace hne
    have h3 : (List.dropWhile isWhitespace s).head hne = d := by
      simp only [trimStart] at hd
      simp [hd]
    rw [h3,h1] at h2
    cases h2
  · intro h c hc
    exact h c (List.dropWhile_sublist _ |>.subset hc)

theorem trim_eq_self_of_trimEnd {s : Text} (h : trim s = s) : trimEnd s = s := by
  rw [← h,trim,trimEnd,trimEnd,List.rdropWhile_idempotent]

theorem trimEnd_trimEnd (s : Text) : trimEnd (trimEnd s) = trimEnd s :=
  List.rdropWhile_idempotent _ _

theorem length_trimEnd_le (s : Text) : (trimEnd s).length ≤ s.length := by
  obtain ⟨t,hs,-⟩ := trimEnd_append_blank s
  conv_rhs => rw [hs]
  simp

theorem stripPrefix_append (p s : Text) : stripPrefix p (p ++ s) = some s := by
  rw [stripPrefix,if_pos (List.isPrefixOf_iff_prefix.mpr (List.prefix_append p s)),
    List.drop_left]

theorem trimEnd_line (t : Text) : trimEnd (t ++ ['\n']) = trimEnd t :=
  trimEnd_append_nil t (by decide)

theorem trimStart_trimEnd (t : Text) : trimStart (trimEnd t) = trim t := by
  rw [← trim_trimEnd,trim]
  have hlast := trimEnd_trimEnd t
  generalize trimEnd t = s at hlast ⊢
  rw [trimEnd,List.rdropWhile_eq_self_iff] at hlast
  symm
  rw [trimEnd,List.rdropWhile_eq_self_iff]
  intro hne
  have hs : s ≠ [] := by
    rintro rfl
    exact hne rfl
  have hsuf : trimStart s <:+ s := List.dropWhile_suffix _
  rw [List.IsSuffix.getLast hsuf hne]
  exact hlast hs

/-- No white space at the end. -/
def SolidEnd (s : Text) : Prop := ∀ c ∈ s.getLast?, isWhitespace c = false

def SolidStart (s : Text) : Prop := ∀ c ∈ s.head?, isWhitespace c = false

instance (s : Text) : Decidable (SolidEnd s) := Option.decidableForallMem s.getLast?

instance (s : Text) : Decidable (SolidStart s) := Option.decidableForallMem s.head?

theorem trimEnd_eq_self_iff (s : Text) : trimEnd s = s ↔ SolidEnd s := by
  rw [trimEnd,List.rdropWhile_eq_self_iff]
  unfold SolidEnd
  constructor
  · intro h c hc
    obtain ⟨hne,rfl⟩ := List.mem_getLast?_eq_getLast hc
    simpa using h hne
  · intro h hne
    rw [h _ (List.getLast_mem_getLast? hne)]
    simp

theorem trimStart_eq_self_iff (s : Text) : trimStart s = s ↔ SolidStart s := by
  cases s with
  | nil => simp [trimStart,SolidStart]
  | cons c s => simp [trimStart,SolidStart,List.dropWhile_eq_self_iff]

theorem trim_eq_self_iff (s : Text) : trim s = s ↔ SolidStart s ∧ SolidEnd s := by
  rw [← trimStart_eq_self_iff,← trimEnd_eq_self_iff]
  constructor
  · intro h
    have he := trim_eq_self_of_trimEnd h
    have hlen : s.length ≤ (trimStart s).length := by
      calc s.length = (trim s).length := by rw [h]
        _ ≤ (trimStart s).length := length_trimEnd_le _
    exact ⟨(List.dropWhile_suffix _).eq_of_length_le hlen,he⟩
  · rintro ⟨hs,he⟩
    rw [trim,hs,he]

/-! Splitting once. -/

def splitOnce (c : Char) : Text → Option (Text × Text)
  | [] => none
  | x :: s => if x = c then some ([],s) else (splitOnce c s).map (fun p => (x :: p.1,p.2))

theorem splitOnce_append {c : Char} {a : Text} (h : c ∉ a) (b : Text) :
    splitOnce c (a ++ c :: b) = some (a,b) := by
  induction a with
  | nil => simp [splitOnce]
  | cons x a ih =>
    rw [List.mem_cons,not_or] at h
    simp [splitOnce,Ne.symm h.1,ih h.2]

theorem splitOnce_of_notMem {c : Char} {a : Text} (h : c ∉ a) : splitOnce c a = none := by
  induction a with
  | nil => rfl
  | cons x a ih =>
    rw [List.mem_cons,not_or] at h
    simp [splitOnce,Ne.symm h.1,ih h.2]

theorem splitOnce_eq_some {c : Char} {s a b : Text} (h : splitOnce c s = some (a,b)) :
    s = a ++ c :: b ∧ c ∉ a := by
  induction s generalizing a with
  | nil => cases h
  | cons x s ih =>
    rw [splitOnce] at h
    split_ifs at h with hx
    · cases h
      exact ⟨by simp [hx],by simp⟩
    · obtain ⟨⟨a',b'⟩,hs,he⟩ := Option.map_eq_some_iff.mp h
      cases he
      obtain ⟨h1,h2⟩ := ih hs
      exact ⟨by rw [h1]; rfl,by simp [Ne.symm hx,h2]⟩

/-- The first occurrence splits a text in one way only. -/
theorem append_cons_inj {c : Char} {a a' b b' : Text} (ha : c ∉ a) (ha' : c ∉ a')
    (h : a ++ c :: b = a' ++ c :: b') : a = a' ∧ b = b' := by
  have hs := splitOnce_append ha b
  rw [h,splitOnce_append ha' b'] at hs
  cases hs
  exact ⟨rfl,rfl⟩

/-- The texts before and after the last `c`. -/
def splitLast (c : Char) (s : Text) : Option (Text × Text) :=
  (splitOnce c s.reverse).map (fun p => (p.2.reverse,p.1.reverse))

theorem splitLast_append {c : Char} {b : Text} (h : c ∉ b) (a : Text) :
    splitLast c (a ++ c :: b) = some (a,b) := by
  have hr : (a ++ c :: b).reverse = b.reverse ++ c :: a.reverse := by simp
  rw [splitLast,hr,splitOnce_append (by simpa using h)]
  simp

theorem append_cons_inj_last {c : Char} {a a' b b' : Text} (hb : c ∉ b) (hb' : c ∉ b')
    (h : a ++ c :: b = a' ++ c :: b') : a = a' ∧ b = b' := by
  have hs := splitLast_append hb a
  rw [h,splitLast_append hb' a'] at hs
  cases hs
  exact ⟨rfl,rfl⟩

theorem splitLast_of_notMem {c : Char} {a : Text} (h : c ∉ a) : splitLast c a = none := by
  rw [splitLast,splitOnce_of_notMem (by simpa using h)]
  rfl

def stripDashes : Text → Option Text
  | '-' :: '-' :: s => some s
  | _ => none

end Text
