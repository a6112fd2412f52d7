import Limux.Lib.Lines

/-! Blocks of lines ended by two symbols, with an empty line behind the last one: the four
symbols that end a block are nowhere else in it. -/
namespace Block

variable {α : Type} [DecidableEq α]

/-- The lines, each with its line end, and the empty line. -/
def block (cr lf : α) (ls : List (List α)) : List α := ls.flatMap (fun l => l ++ [cr,lf]) ++ [cr,lf]

def blank (cr lf : α) : List α := [cr,lf,cr,lf]

variable {cr lf : α}

omit [DecidableEq α] in
theorem block_eq_join (ls : List (List α)) :
    block cr lf ls = Lines.join lf (ls.map (fun l => l ++ [cr]) ++ [[cr]]) := by
  rw [Lines.join_append]
  simp [block,Lines.join,List.flatMap_map]

omit [DecidableEq α] in
/-- A block with a line in it ends with the four symbols. -/
theorem blank_suffix {ls : List (List α)} (h : ls ≠ []) : blank cr lf <:+ block cr lf ls := by
  obtain ⟨ls,l,rfl⟩ := (List.eq_nil_or_concat ls).resolve_left h
  exact ⟨ls.flatMap (fun l => l ++ [cr,lf]) ++ l,by simp [block,blank]⟩

/-- Nothing of a block follows the first place where it has them. -/
theorem eq_nil_of_blank (hne : cr ≠ lf) {ls : List (List α)} (hls : ∀ l ∈ ls, l ≠ [] ∧ lf ∉ l)
    {p q : List α} (hp : blank cr lf <:+ p) (h : block cr lf ls = p ++ q) : q = [] := by
  obtain ⟨x,rfl⟩ := hp
  have hcr : lf ∉ [cr] := by simpa using Ne.symm hne
  -- The lines of the block, read off its text.
  have hclean : ∀ l ∈ ls.map (fun l => l ++ [cr]) ++ [[cr]], lf ∉ l := by
    intro l hl
    rcases List.mem_append.mp hl with hl | hl
    · obtain ⟨l',hl',rfl⟩ := List.mem_map.mp hl
      simpa [Ne.symm hne] using (hls l' hl').2
    · rwa [List.mem_singleton.mp hl]
  have hcut := Lines.cut_join hclean []
  rw [List.append_nil,← block_eq_join] at hcut
  -- The lines of the block as it is cut at the four symbols.
  have hq : x ++ blank cr lf ++ q = Lines.join lf (Lines.complete lf (x ++ [cr]) ++
      [Lines.rest lf (x ++ [cr]),[cr]]) ++ q := by
    conv_lhs => rw [show x ++ blank cr lf = x ++ [cr] ++ [lf,cr,lf] by simp [blank],
      ← @Lines.cut_eq _ _ lf (x ++ [cr])]
    rw [Lines.join_append]
    simp [Lines.join]
  have hclean' : ∀ l ∈ Lines.complete lf (x ++ [cr]) ++ [Lines.rest lf (x ++ [cr]),[cr]],
      lf ∉ l := by
    intro l hl
    have hx := @Lines.cut_clean _ _ lf (x ++ [cr])
    rcases List.mem_append.mp hl with hl | hl
    · exact hx.1 l hl
    · rcases List.mem_pair.mp hl with rfl | rfl
      · exact hx.2
      · exact hcr
  have hcut' := Lines.cut_join hclean' q
  rw [← hq,← h,hcut] at hcut'
  obtain ⟨hlines,hrest⟩ := Prod.mk.inj hcut'
  have hno : Lines.complete lf q = [] := by
    by_contra hc
    -- An empty line before the last one.
    have hd := congrArg List.dropLast hlines
    rw [List.dropLast_append_of_ne_nil hc,show Lines.complete lf ([] : List α) = [] from rfl,
      List.append_nil,List.dropLast_concat] at hd
    have hm : [cr] ∈ ls.map (fun l => l ++ [cr]) := by
      rw [hd]
      simp
    obtain ⟨l,hl,he⟩ := List.mem_map.mp hm
    exact (hls l hl).1 (by simpa using he)
  rw [← @Lines.cut_eq _ _ lf q,hno,← hrest]
  rfl

end Block
