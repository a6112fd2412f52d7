import Limux.Lib.FirstMatch
import Limux.Lib.TextLines

/-! The settings of the terminal in the configuration file of Ghostty
(`app/src/settings_ui.rs`): one line of the file is rewritten, and lines are read back. -/
namespace Limux.GhosttyConfig

open Text FirstMatch

/-- A line with the key `key`, or the key alone. -/
def matchesKey (key line : Text) : Bool :=
  let trimmed := trim line
  if trimmed.head? = some '#' ∨ trimmed = [] then false
  else match stripPrefix key trimmed with
    | some rest => (trimStart rest).head? = some '=' ∨ trimStart rest = []
    | none => false

def newLine (key value : Text) : Text :=
  if value = [] then key ++ " =".toList else key ++ " = ".toList ++ value

/-- The new file; an empty value resets the key. -/
def setGhosttyConfigKey (content : Option Text) (key value : Text) : Text :=
  unlines (put (matchesKey key) (newLine key value) (lines (content.getD [])))

def applyConfigChange (content : Option Text) (key value : Text) : Text :=
  setGhosttyConfigKey content key (trim value)

/-- The value in a line with the key `key`. -/
def valueOf (key line : Text) : Option Text :=
  let line := trim line
  if line.head? = some '#' ∨ line = [] then none
  else ((stripPrefix key line).bind (fun rest => stripPrefix ['='] (trimStart rest))).bind
    (fun value => if trim value = [] then none else some (trim value))

def parseGhosttyConfigKey (content : Option Text) (key : Text) : Option Text :=
  content.bind (fun s => (lines s).findSome? (valueOf key))

/-! Keys. -/

/-- The name of a setting. -/
structure ConfigKey where
  name : Text
  ne : name ≠ []
  plain : ∀ c ∈ name, isWhitespace c = false ∧ c ≠ '=' ∧ c ≠ '#'

namespace ConfigKey

theorem ext {j k : ConfigKey} (h : j.name = k.name) : j = k := by
  cases j
  cases k
  cases h
  rfl

instance : DecidableEq ConfigKey := fun j k =>
  decidable_of_iff (j.name = k.name) ⟨ext,fun h => h ▸ rfl⟩

end ConfigKey

variable {k : ConfigKey}

/-- The name ends where white space or the sign follows, or nothing. -/
def Ends (rest : Text) : Prop := ∀ c ∈ rest.head?, isWhitespace c = true ∨ c = '='

theorem ends_of_trimStart {rest : Text}
    (h : (trimStart rest).head? = some '=' ∨ trimStart rest = []) : Ends rest := by
  intro c hc
  obtain ⟨s,rfl⟩ := List.head?_eq_some_iff.mp hc
  by_cases hw : isWhitespace c = true
  · exact .inl hw
  · rw [trimStart_of_solid (Bool.eq_false_iff.mpr hw)] at h
    obtain h | h := h
    · exact .inr (Option.some.inj h)
    · cases h

theorem name_eq_of_ends {j k : ConfigKey} {r s : Text} (h : j.name ++ r = k.name ++ s)
    (hr : Ends r) (hs : Ends s) : j = k := by
  apply ConfigKey.ext
  have key : ∀ {j k : ConfigKey} {r s : Text}, j.name ++ r = k.name ++ s → Ends r →
      ∀ t, k.name = j.name ++ t → t = [] := by
    intro j k r s h hr t ht
    rw [ht,List.append_assoc] at h
    have hrest : r = t ++ s := List.append_cancel_left h
    cases t with
    | nil => rfl
    | cons c t =>
      have hc : c ∈ k.name := ht ▸ List.mem_append_right _ List.mem_cons_self
      obtain ⟨hsolid,hsign,-⟩ := k.plain c hc
      obtain hw | he := hr c (hrest ▸ rfl)
      · exact Bool.noConfusion (hsolid.symm.trans hw)
      · exact absurd he hsign
  obtain ⟨t,hj,-⟩ | ⟨t,hk,-⟩ := List.append_eq_append_iff.mp h
  · rw [hj,key h hr t hj,List.append_nil]
  · rw [hk,key h.symm hs t hk,List.append_nil]

/-- A line that starts with the name is no comment, and not blank. -/
theorem name_append_solid (k : ConfigKey) (rest : Text) :
    ¬ ((k.name ++ rest).head? = some '#' ∨ k.name ++ rest = []) := by
  obtain ⟨c,t,hk⟩ := List.exists_cons_of_ne_nil k.ne
  have hc := (k.plain c (hk ▸ List.mem_cons_self)).2.2
  rw [hk]
  rintro (h | h)
  · exact hc (Option.some.inj h)
  · cases h

theorem matchesKey_iff {line : Text} : matchesKey k.name line = true ↔
    ∃ rest, trim line = k.name ++ rest ∧
      ((trimStart rest).head? = some '=' ∨ trimStart rest = []) := by
  unfold matchesKey
  dsimp only
  constructor
  · intro h
    split at h
    · cases h
    · split at h
      · rename_i rest hrest
        exact ⟨rest,stripPrefix_iff.mp hrest,of_decide_eq_true h⟩
      · cases h
  · rintro ⟨rest,hline,hrest⟩
    rw [hline,if_neg (name_append_solid k rest),stripPrefix_append]
    exact decide_eq_true hrest

theorem matchesKey_trim (key line : Text) : matchesKey key (trim line) = matchesKey key line := by
  rw [matchesKey,matchesKey,trim_trim]

theorem valueOf_trim (key line : Text) : valueOf key (trim line) = valueOf key line := by
  rw [valueOf,valueOf,trim_trim]

theorem valueOf_of_not_matchesKey {line : Text} (h : matchesKey k.name line = false) :
    valueOf k.name line = none := by
  unfold valueOf
  dsimp only
  split
  · rfl
  · refine Option.bind_eq_none_iff.mpr (fun value hvalue => ?_)
    obtain ⟨rest,hrest,hsign⟩ := Option.bind_eq_some_iff.mp hvalue
    refine absurd (matchesKey_iff.mpr ⟨rest,stripPrefix_iff.mp hrest,.inl ?_⟩)
      (Bool.eq_false_iff.mp h)
    rw [stripPrefix_iff.mp hsign]
    rfl

theorem trim_newLine (k : ConfigKey) (v : Text) :
    trim (newLine k.name (trim v)) = newLine k.name (trim v) := by
  rw [trim_eq_self_iff]
  constructor
  · obtain ⟨c,t,hk⟩ := List.exists_cons_of_ne_nil k.ne
    have hc := (k.plain c (hk ▸ List.mem_cons_self)).1
    unfold newLine
    split <;>
    · rw [hk]
      intro d hd
      cases hd
      exact hc
  · have hend := (trim_eq_self_iff (trim v)).mp (trim_trim v)
    unfold newLine
    split
    · intro c hc
      rw [List.getLast?_append] at hc
      cases hc
      decide
    · rename_i hv
      intro c hc
      rw [List.getLast?_append_of_ne_nil _ hv] at hc
      exact hend.2 c hc

theorem matchesKey_newLine (k : ConfigKey) (v : Text) :
    matchesKey k.name (newLine k.name (trim v)) = true := by
  rw [matchesKey_iff,trim_newLine]
  unfold newLine
  split
  · exact ⟨" =".toList,rfl,.inl rfl⟩
  · exact ⟨" = ".toList ++ trim v,List.append_assoc ..,.inl rfl⟩

theorem valueOf_newLine (k : ConfigKey) (v : Text) :
    valueOf k.name (newLine k.name (trim v)) = if trim v = [] then none else some (trim v) := by
  have hsign : ∀ t : Text, trimStart (" =".toList ++ t) = '=' :: t := fun _ => rfl
  have heq : ∀ t : Text, stripPrefix ['='] ('=' :: t) = some t := fun t =>
    stripPrefix_append ['='] t
  rw [valueOf,trim_newLine]
  unfold newLine
  split
  · rw [if_neg (name_append_solid k _),stripPrefix_append,Option.bind_some]
    rfl
  · rename_i hv
    have hline : k.name ++ " = ".toList ++ trim v = k.name ++ (" =".toList ++ (' ' :: trim v)) :=
      List.append_assoc ..
    have hblank : trim (' ' :: trim v) = trim (trim v) := rfl
    rw [hline,if_neg (name_append_solid k _),stripPrefix_append,Option.bind_some,hsign,heq,
      Option.bind_some,hblank,trim_trim,if_neg hv]

/-- The line that is written for a key, whoever matches it. -/
theorem keyed : Keyed (fun k : ConfigKey => matchesKey k.name)
    (fun k v => newLine k.name (trim v)) where
  self := matchesKey_newLine
  other j k line hne hj := by
    obtain ⟨r,hr,hrest⟩ := matchesKey_iff.mp hj
    refine Bool.eq_false_iff.mpr (fun hk => hne ?_)
    obtain ⟨s,hs,hsrest⟩ := matchesKey_iff.mp hk
    exact name_eq_of_ends (hr.symm.trans hs) (ends_of_trimStart hrest) (ends_of_trimStart hsrest)

/-! Any number of edits. -/

/-- The lines of the file that say something. -/
def view (content : Option Text) : List Text := solidLines (content.getD [])

def edited (content : Option Text) (edits : List (ConfigKey × Text)) : Option Text :=
  edits.foldl (fun content e => some (applyConfigChange content e.1.name e.2)) content

theorem newline_notMem_newLine {v : Text} (h : '\n' ∉ v) :
    '\n' ∉ newLine k.name (trim v) := by
  have hname : '\n' ∉ k.name := fun hm => absurd (k.plain '\n' hm).1 (by decide)
  have htrim : '\n' ∉ trim v := fun hm =>
    h ((List.dropWhile_suffix isWhitespace).subset
      ((List.rdropWhile_prefix isWhitespace (l := trimStart v)).subset hm))
  unfold newLine
  split <;> simp [hname,htrim]

theorem view_applyConfigChange (content : Option Text) (k : ConfigKey) {v : Text}
    (h : '\n' ∉ v) : view (some (applyConfigChange content k.name v)) =
      put (matchesKey k.name) (newLine k.name (trim v)) (view content) := by
  have hlines : ∀ l ∈ put (matchesKey k.name) (newLine k.name (trim v)) (lines (content.getD [])),
      '\n' ∉ l := by
    intro l hl
    obtain rfl | hl := mem_put hl
    · exact newline_notMem_newLine h
    · exact newline_notMem_of_mem_lines hl
  have hsolid : ∀ l, matchesKey k.name l = true → decide (trim l ≠ []) = true := by
    intro l hl
    obtain ⟨rest,hrest,-⟩ := matchesKey_iff.mp hl
    rw [decide_eq_true_iff,hrest]
    exact fun he => name_append_solid k rest (.inr he)
  rw [view,Option.getD_some,applyConfigChange,setGhosttyConfigKey,
    solidLines_unlines (put_ne_nil _ _ _) hlines,
    filter_map_put (fun l => (matchesKey_trim k.name l).symm) hsolid
      (hsolid _ (matchesKey_newLine k v)),trim_newLine]
  rfl

theorem view_edited (content : Option Text) {edits : List (ConfigKey × Text)}
    (h : ∀ e ∈ edits, '\n' ∉ e.2) : view (edited content edits) =
      puts (fun k : ConfigKey => matchesKey k.name) (fun k v => newLine k.name (trim v)) edits
        (view content) := by
  induction edits generalizing content with
  | nil => rfl
  | cons e edits ih =>
    obtain ⟨he,hrest⟩ := List.forall_mem_cons.mp h
    have hstep := view_applyConfigChange content e.1 he
    calc view (edited content (e :: edits))
        = view (edited (some (applyConfigChange content e.1.name e.2)) edits) := rfl
      _ = puts _ _ edits (view (some (applyConfigChange content e.1.name e.2))) := ih _ hrest
      _ = _ := by rw [hstep]; rfl

theorem parse_eq_view (content : Option Text) (k : ConfigKey) :
    parseGhosttyConfigKey content k.name = (view content).findSome? (valueOf k.name) := by
  have hnone : ∀ l, decide (l ≠ []) = false → valueOf k.name l = none := by
    intro l hl
    obtain rfl : l = [] := by simpa using hl
    rfl
  have htrim : valueOf k.name ∘ trim = valueOf k.name := by
    funext l
    exact valueOf_trim k.name l
  cases content with
  | none => rfl
  | some s =>
    rw [view,Option.getD_some,solidLines,findSome?_filter_of_none hnone,List.findSome?_map,htrim]
    rfl

/-- After any edits a key has the value it was given last; an empty one uncovers what the file
has behind the first line of the key. A line that has none of the keys stays, in its order. -/
theorem edits_read (content : Option Text) {edits : List (ConfigKey × Text)}
    (h : ∀ e ∈ edits, '\n' ∉ e.2) :
    (∀ k : ConfigKey, parseGhosttyConfigKey (edited content edits) k.name =
      (lastOf k edits).elim (parseGhosttyConfigKey content k.name) (fun v =>
        if trim v = [] then ((view content).eraseP (matchesKey k.name)).findSome? (valueOf k.name)
        else some (trim v))) ∧
    (view (edited content edits)).filter (fun l => edits.all (fun e => !matchesKey e.1.name l)) =
      (view content).filter (fun l => edits.all (fun e => !matchesKey e.1.name l)) := by
  constructor
  · intro k
    rw [parse_eq_view,parse_eq_view,view_edited content h,
      findSome?_puts keyed (fun l hl => valueOf_of_not_matchesKey hl)]
    congr 1
    funext v
    rw [valueOf_newLine]
    split <;> rfl
  · rw [view_edited content h,filter_puts keyed (fun e he l hl => ?_)]
    refine Bool.eq_false_iff.mpr (fun hall => ?_)
    have hno := List.all_eq_true.mp hall e he
    rw [hl] at hno
    cases hno

theorem plain_of_all {name : Text}
    (h : name.all (fun c => !isWhitespace c && (c != '=' && c != '#')) = true) :
    ∀ c ∈ name, isWhitespace c = false ∧ c ≠ '=' ∧ c ≠ '#' := fun c hc => by
  simpa using List.all_eq_true.mp h c hc

def fontSize : ConfigKey := ⟨"font-size".toList,List.cons_ne_nil _ _,plain_of_all rfl⟩

theorem edits_read_fontSize :
    parseGhosttyConfigKey (edited (some "# mine\nfont-size=12\n".toList)
      [(fontSize,"14".toList),(fontSize," 15 ".toList)]) "font-size".toList =
      some "15".toList := by
  have hlines : ∀ e ∈ [(fontSize,"14".toList),(fontSize," 15 ".toList)], '\n' ∉ e.2 := by decide
  exact ((edits_read (some "# mine\nfont-size=12\n".toList) hlines).1 fontSize).trans rfl

end Limux.GhosttyConfig
