import Limux.Lib.Words

/-! The lines of a text (`str::lines`), and texts put together from lines. -/
namespace Text

theorem trim_trim (s : Text) : trim (trim s) = trim s := by
  have hstart : trimStart (trimStart s) = trimStart s := List.dropWhile_idempotent _ _
  calc trim (trim s) = trim (trimStart s) := trim_trimEnd (trimStart s)
    _ = trim s := by rw [trim,hstart,trim]

theorem length_trim_le (s : Text) : (trim s).length ≤ s.length :=
  (length_trimEnd_le _).trans (List.dropWhile_suffix _).length_le

theorem mem_trim {c : Char} {s : Text} (hc : isWhitespace c = false) : c ∈ trim s ↔ c ∈ s := by
  have hend : ∀ t, c ∈ trimEnd t ↔ c ∈ t := by
    intro t
    obtain ⟨blanks,ht,hb⟩ := trimEnd_append_blank t
    have hno : c ∉ blanks := fun hm => by simp [hb c hm] at hc
    conv_rhs => rw [ht]
    simp [hno]
  have hstart : c ∈ trimStart s ↔ c ∈ s := by
    have hno : c ∉ s.takeWhile isWhitespace := fun hm => by
      simp [List.mem_takeWhile_imp hm] at hc
    have hs : s.takeWhile isWhitespace ++ trimStart s = s := List.takeWhile_append_dropWhile
    conv_rhs => rw [← hs]
    simp [hno]
  rw [trim,hend,hstart]

theorem stripPrefix_iff {p s rest : Text} : stripPrefix p s = some rest ↔ s = p ++ rest := by
  constructor
  · intro h
    obtain ⟨hp,hrest⟩ := Option.ite_none_right_eq_some.mp h
    obtain ⟨t,rfl⟩ := List.isPrefixOf_iff_prefix.mp hp
    rw [List.drop_left] at hrest
    rw [Option.some.inj hrest]
  · rintro rfl
    exact stripPrefix_append p rest

/-- A line that was ended by a line feed may have a carriage return before it. -/
def stripReturn (l : Text) : Text := if l.getLast? = some '\r' then l.dropLast else l

def lines (s : Text) : List Text :=
  let last := (s.splitOn '\n').getLast (List.splitOn_ne_nil '\n' s)
  (s.splitOn '\n').dropLast.map stripReturn ++ if last = [] then [] else [last]

theorem notMem_of_mem_splitOn {c : Char} {s l : Text} (h : l ∈ s.splitOn c) : c ∉ l := by
  induction s generalizing l with
  | nil =>
    rw [List.splitOn_nil,List.mem_singleton] at h
    simp [h]
  | cons d s ih =>
    rw [List.splitOn_cons_eq_if_modifyHead] at h
    obtain ⟨p,ps,hp⟩ := List.exists_cons_of_ne_nil (List.splitOn_ne_nil c s)
    rw [hp] at h ih
    split at h
    · obtain rfl | h := List.mem_cons.mp h
      · exact List.not_mem_nil
      · exact ih h
    · rename_i hd
      obtain rfl | h := List.mem_cons.mp h
      · have hne : c ≠ d := fun he => hd (he ▸ beq_self_eq_true d)
        simpa [hne] using ih List.mem_cons_self
      · exact ih (List.mem_cons_of_mem p h)

theorem newline_notMem_of_mem_lines {s l : Text} (h : l ∈ lines s) : '\n' ∉ l := by
  obtain h | h := List.mem_append.mp h
  · obtain ⟨p,hp,rfl⟩ := List.mem_map.mp h
    have hnot : '\n' ∉ p := notMem_of_mem_splitOn (List.dropLast_subset _ hp)
    unfold stripReturn
    split
    · exact fun hm => hnot (List.dropLast_subset _ hm)
    · exact hnot
  · split at h
    · cases h
    · rw [List.mem_singleton.mp h]
      exact notMem_of_mem_splitOn (List.getLast_mem _)

theorem trim_stripReturn (l : Text) : trim (stripReturn l) = trim l := by
  unfold stripReturn
  split
  · rename_i h
    obtain ⟨t,rfl⟩ := List.getLast?_eq_some_iff.mp h
    rw [List.dropLast_concat,← trim_trimEnd,← trim_trimEnd (t ++ ['\r']),
      trimEnd_append_nil t (by decide)]
  · rfl

def solidLines (s : Text) : List Text := ((lines s).map trim).filter (fun l => l ≠ [])

theorem solidLines_eq (s : Text) :
    solidLines s = ((s.splitOn '\n').map trim).filter (fun l => l ≠ []) := by
  have hne := List.splitOn_ne_nil '\n' s
  rw [solidLines,lines,List.map_append,List.filter_append,List.map_map]
  conv_rhs => rw [← List.dropLast_append_getLast hne,List.map_append,List.filter_append]
  congr 1
  · refine congrArg _ (List.map_congr_left (fun l _ => trim_stripReturn l))
  · split
    · rename_i h
      rw [h]
      rfl
    · rfl

def unlines (ls : List Text) : Text :=
  let out := ['\n'].intercalate ls
  if out.getLast? = some '\n' then out else out ++ ['\n']

theorem solidLines_unlines {ls : List Text} (hne : ls ≠ []) (h : ∀ l ∈ ls, '\n' ∉ l) :
    solidLines (unlines ls) = (ls.map trim).filter (fun l => l ≠ []) := by
  have hsplit : (['\n'].intercalate ls).splitOn '\n' = ls := List.splitOn_intercalate '\n' h hne
  rw [solidLines_eq,unlines]
  split
  · rw [hsplit]
  · rw [List.splitOn_append_cons_self,hsplit,List.map_append,List.filter_append]
    exact List.append_nil _

end Text
