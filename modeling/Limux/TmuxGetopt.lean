import Limux.TmuxArgs

/-! Where `parseTmuxArgs` reads the arguments of a command as `getopt` does: the scan of one
argument, the positional arguments of the whole loop, and both against `Getopt.run`. -/
namespace Limux.Tmux

namespace Parsed

/-- What one report of `getopt` sets. -/
def report (p : Parsed) : Getopt.Item Char → Parsed
  | .flag c => p.setFlag ['-',c]
  | .option c v => p.addOption ['-',c] v
  | .unknown _ => p
  | .missing _ => p

def reports (p : Parsed) (items : List (Getopt.Item Char)) : Parsed := items.foldl report p

def setFlags (p : Parsed) (cs : List Char) : Parsed := p.reports (cs.map .flag)

variable (p : Parsed)

@[simp] theorem reports_nil : p.reports [] = p := rfl

@[simp] theorem setFlags_nil : p.setFlags [] = p := rfl

theorem setFlags_cons (c : Char) (cs : List Char) :
    p.setFlags (c :: cs) = (p.setFlag ['-',c]).setFlags cs := rfl

theorem reports_append (a b : List (Getopt.Item Char)) :
    p.reports (a ++ b) = (p.reports a).reports b := List.foldl_append

@[simp] theorem positional_report (i : Getopt.Item Char) :
    (p.report i).positional = p.positional := by
  cases i <;> rfl

@[simp] theorem positional_reports (items : List (Getopt.Item Char)) :
    (p.reports items).positional = p.positional := by
  induction items generalizing p with
  | nil => rfl
  | cons i items ih => exact (ih (p.report i)).trans (positional_report p i)

@[simp] theorem positional_setFlags (cs : List Char) :
    (p.setFlags cs).positional = p.positional := positional_reports p _

@[simp] theorem options_setFlags (cs : List Char) : (p.setFlags cs).options = p.options := by
  induction cs generalizing p with
  | nil => rfl
  | cons c cs ih => exact ih (p.setFlag ['-',c])

theorem flags_setFlags (cs : List Char) (f : Text) :
    (p.setFlags cs).flags f = true ↔ p.flags f = true ∨ ∃ c ∈ cs, f = ['-',c] := by
  induction cs generalizing p with
  | nil => simp
  | cons c cs ih =>
    rw [setFlags_cons,ih]
    by_cases h : f = ['-',c]
    · subst h
      simp [setFlag]
    · simp [setFlag,h]

theorem setFlags_append (a b : List Char) :
    p.setFlags (a ++ b) = (p.setFlags a).setFlags b := by
  rw [setFlags,List.map_append,reports_append]
  rfl

theorem setFlags_push (w : Text) (cs : List Char) :
    (p.push w).setFlags cs = (p.setFlags cs).push w := by
  induction cs generalizing p with
  | nil => rfl
  | cons c cs ih => exact ih (p.setFlag ['-',c])

theorem setFlags_of_set {p : Parsed} {cs : List Char} (h : ∀ c ∈ cs, p.flags ['-',c] = true) :
    p.setFlags cs = p := by
  induction cs with
  | nil => rfl
  | cons c cs ih =>
    have hset : p.setFlag ['-',c] = p := by
      have : Function.update p.flags ['-',c] true = p.flags := by
        rw [← h c (by simp),Function.update_eq_self]
      rw [setFlag,this]
    rw [setFlags_cons,hset,ih (fun d hd => h d (by simp [hd]))]

theorem flags_reports (items : List (Getopt.Item Char)) (c : Char) :
    (p.reports items).flags ['-',c] = true ↔ p.flags ['-',c] = true ∨ .flag c ∈ items := by
  induction items generalizing p with
  | nil => simp
  | cons i items ih =>
    have hcons : p.reports (i :: items) = (p.report i).reports items := rfl
    rw [hcons,ih]
    cases i with
    | flag d =>
      by_cases hd : c = d
      · simp [report,setFlag,hd]
      · simp [report,setFlag,hd]
    | option d v => simp [report,addOption]
    | unknown d => simp [report]
    | missing d => simp [report]

end Parsed

namespace Tables

variable (T : Tables)

theorem kind_dash : T.kind '-' = none := by
  have hb : ['-','-'] ∉ T.boolFlags := T.boolFlags_ends
  have hv : ['-','-'] ∉ T.valueFlags := T.valueFlags_ends
  rw [kind,if_neg hb,if_neg hv]

/-- An argument that ends up with the positional ones wherever it is looked at. -/
def Leaves (w : Text) : Prop :=
  w ≠ ['-','-'] ∧ (Getopt.IsOperand '-' w ∨ Getopt.Stops T.kind w.tail)

instance (w : Text) : Decidable (T.Leaves w) := inferInstanceAs (Decidable (_ ∧ _))

/-- The flags that such an argument sets. -/
def touched (w : Text) : List Char :=
  if Getopt.IsOperand '-' w then [] else Getopt.leadingFlags T.kind w.tail

end Tables

section Scan

variable {T : Tables} {next : Option Text} {p : Parsed} {r : Bool} {cs v : Text} {c : Char}

theorem scanCluster_flags : scanCluster T next p r cs =
    scanCluster T next (p.setFlags (Getopt.leadingFlags T.kind cs))
      (r || !(Getopt.leadingFlags T.kind cs).isEmpty) (Getopt.behindFlags T.kind cs) := by
  induction cs generalizing p r with
  | nil => simp [Getopt.leadingFlags,Getopt.behindFlags]
  | cons c cs ih =>
    by_cases hc : ['-',c] ∈ T.boolFlags
    · have hk : T.kind c = some .flag := if_pos hc
      rw [scanCluster,if_pos hc,ih]
      simp [Getopt.leadingFlags,Getopt.behindFlags,hk,Parsed.setFlags_cons]
    · have hk : T.kind c ≠ some .flag := by
        rw [Tables.kind,if_neg hc]
        split <;> simp
      simp [Getopt.leadingFlags,Getopt.behindFlags,hk]

theorem kind_none (h : T.kind c = none) : ['-',c] ∉ T.boolFlags ∧ ['-',c] ∉ T.valueFlags := by
  by_cases hb : ['-',c] ∈ T.boolFlags
  · simp [Tables.kind,hb] at h
  · refine ⟨hb,fun hv => ?_⟩
    simp [Tables.kind,hb,hv] at h

theorem kind_value (h : T.kind c = some .value) :
    ['-',c] ∉ T.boolFlags ∧ ['-',c] ∈ T.valueFlags := by
  by_cases hb : ['-',c] ∈ T.boolFlags
  · simp [Tables.kind,hb] at h
  · refine ⟨hb,?_⟩
    by_contra hv
    simp [Tables.kind,hb,hv] at h

theorem scanCluster_stops (h : Getopt.Stops T.kind cs) : scanCluster T next p r cs =
    ⟨p.setFlags (Getopt.leadingFlags T.kind cs),false,false⟩ := by
  obtain ⟨c,hc,hk⟩ := h
  obtain ⟨v,hv⟩ : ∃ v, Getopt.behindFlags T.kind cs = c :: v := List.head?_eq_some_iff.mp hc
  rw [scanCluster_flags,hv,scanCluster,if_neg (kind_none hk).1,if_neg (kind_none hk).2]

theorem scanCluster_of_flags (h : Getopt.behindFlags T.kind cs = []) (hcs : cs ≠ []) :
    scanCluster T next p r cs = ⟨p.setFlags (Getopt.leadingFlags T.kind cs),false,true⟩ := by
  have hl : Getopt.leadingFlags T.kind cs = cs := by
    have := Getopt.leadingFlags_append_behindFlags T.kind cs
    rwa [h,List.append_nil] at this
  rw [scanCluster_flags,h,scanCluster,hl]
  simp [hcs]

theorem scanCluster_of_attached (h : Getopt.behindFlags T.kind cs = c :: v)
    (hc : T.kind c = some .value) (hv : v ≠ []) : scanCluster T next p r cs =
      ⟨(p.setFlags (Getopt.leadingFlags T.kind cs)).addOption ['-',c] v,false,true⟩ := by
  rw [scanCluster_flags,h,scanCluster,if_neg (kind_value hc).1,if_pos (kind_value hc).2,if_pos hv]

theorem scanCluster_of_value (h : Getopt.behindFlags T.kind cs = [c])
    (hc : T.kind c = some .value) : scanCluster T next p r cs =
      ⟨(p.setFlags (Getopt.leadingFlags T.kind cs)).addOption ['-',c] (next.getD []),
        next.isSome,true⟩ := by
  rw [scanCluster_flags,h,scanCluster,if_neg (kind_value hc).1,if_pos (kind_value hc).2]
  cases next with
  | none => rfl
  | some value => rfl

end Scan

section Argument

variable {T : Tables} {next : Option Text} {p : Parsed} {w v : Text} {c : Char}

/-- An argument led by two dashes is scanned as well: it stops at the second one. -/
theorem parseArg_cluster (ho : ¬Getopt.IsOperand '-' w) : parseArg T next p w =
    let s := scanCluster T next p false w.tail
    (if s.recognized then s.parsed else s.parsed.push w,s.tookNext) := by
  have ho' := fun h => ho (Getopt.isOperand_iff.mpr h)
  rw [parseArg,if_neg ho']
  split
  · rename_i hd
    obtain ⟨rest,rfl⟩ : ∃ rest, w = '-' :: '-' :: rest := by
      obtain ⟨rest,hr⟩ := List.isPrefixOf_iff_prefix.mp hd
      exact ⟨rest,hr.symm⟩
    have hk := kind_none T.kind_dash
    simp [scanCluster,hk.1,hk.2]
  · rfl

theorem parseArg_leaves (h : T.Leaves w) :
    parseArg T next p w = ((p.setFlags (T.touched w)).push w,false) := by
  by_cases ho : Getopt.IsOperand '-' w
  · rw [parseArg,if_pos (Getopt.isOperand_iff.mp ho),Tables.touched,if_pos ho,Parsed.setFlags_nil]
  · have hs : Getopt.Stops T.kind w.tail := h.2.resolve_left ho
    rw [parseArg_cluster ho,scanCluster_stops hs,Tables.touched,if_neg ho]
    rfl

variable (ho : ¬Getopt.IsOperand '-' w)
include ho

theorem parseArg_of_flags (h : Getopt.behindFlags T.kind w.tail = []) :
    parseArg T next p w = (p.setFlags (Getopt.leadingFlags T.kind w.tail),false) := by
  rw [parseArg_cluster ho,scanCluster_of_flags h (Getopt.tail_ne_nil ho)]
  rfl

theorem parseArg_of_attached (h : Getopt.behindFlags T.kind w.tail = c :: v)
    (hc : T.kind c = some .value) (hv : v ≠ []) : parseArg T next p w =
      ((p.setFlags (Getopt.leadingFlags T.kind w.tail)).addOption ['-',c] v,false) := by
  rw [parseArg_cluster ho,scanCluster_of_attached h hc hv]
  rfl

theorem parseArg_of_value (h : Getopt.behindFlags T.kind w.tail = [c])
    (hc : T.kind c = some .value) : parseArg T next p w =
      ((p.setFlags (Getopt.leadingFlags T.kind w.tail)).addOption ['-',c] (next.getD []),
        next.isSome) := by
  rw [parseArg_cluster ho,scanCluster_of_value h hc]
  rfl

variable {items : List (Getopt.Item Char)} (hs : ¬Getopt.Stops T.kind w.tail)
include hs

/-- An argument whose options are all known and complete sets what it says. -/
theorem parseArg_of_cluster (hc : Getopt.cluster T.kind w.tail = (items,none)) :
    parseArg T next p w = (p.reports items,false) := by
  rcases Getopt.cluster_cases T.kind w.tail with h | h | ⟨c,v,h,hk⟩
  · exact absurd h hs
  · rw [Getopt.cluster_of_flags h] at hc
    cases hc
    exact parseArg_of_flags ho h
  · by_cases hv : v = []
    · subst hv
      rw [Getopt.cluster_of_value h hk] at hc
      cases hc
    · rw [Getopt.cluster_of_attached h hk hv] at hc
      cases hc
      rw [parseArg_of_attached ho h hk hv,Parsed.reports_append]
      rfl

/-- The value of the last option is the next argument, and empty if there is none. -/
theorem parseArg_of_pending (hc : Getopt.cluster T.kind w.tail = (items,some c)) :
    parseArg T next p w = ((p.reports items).addOption ['-',c] (next.getD []),next.isSome) := by
  obtain ⟨rfl,h,hk⟩ := Getopt.cluster_some hs hc
  exact parseArg_of_value ho h hk

end Argument

section Loop

variable {T : Tables} {p : Parsed} {w v : Text} {ws : List Text} {c : Char}

theorem parseFrom_terminator : parseFrom T p false (['-','-'] :: ws) =
    { p with positional := p.positional ++ ws } := by
  simp [parseFrom]

theorem parseFrom_cons (hw : w ≠ ['-','-']) : parseFrom T p false (w :: ws) =
    parseFrom T (parseArg T ws.head? p w).1 (parseArg T ws.head? p w).2 ws := by
  rw [parseFrom,if_neg (by simp),if_neg hw]

theorem parseFrom_leaves (h : T.Leaves w) : parseFrom T p false (w :: ws) =
    parseFrom T ((p.setFlags (T.touched w)).push w) false ws := by
  rw [parseFrom_cons h.1,parseArg_leaves h]

variable (hw : w ≠ ['-','-']) (ho : ¬Getopt.IsOperand '-' w) (hs : ¬Getopt.Stops T.kind w.tail)
  {items : List (Getopt.Item Char)}
include hw ho hs

theorem parseFrom_cluster (hc : Getopt.cluster T.kind w.tail = (items,none)) :
    parseFrom T p false (w :: ws) = parseFrom T (p.reports items) false ws := by
  rw [parseFrom_cons hw,parseArg_of_cluster ho hs hc]

theorem parseFrom_value (hc : Getopt.cluster T.kind w.tail = (items,some c)) :
    parseFrom T p false (w :: v :: ws) =
      parseFrom T (p.reports (items ++ [.option c v])) false ws := by
  rw [parseFrom_cons hw,parseArg_of_pending ho hs hc,Parsed.reports_append]
  rfl

theorem parseFrom_missing (hc : Getopt.cluster T.kind w.tail = (items,some c)) :
    parseFrom T p false [w] = (p.reports items).addOption ['-',c] [] := by
  rw [parseFrom_cons hw,parseArg_of_pending ho hs hc]
  rfl

end Loop

/-! The positional arguments of the whole loop. -/

namespace Tables

variable (T : Tables)

def takes (w : Text) : Bool := (parseArg T (some []) .empty w).2

/-- The positional arguments of the loop. -/
def positionals (skip : Bool) : List Text → List Text
  | [] => []
  | w :: ws =>
    if skip then positionals false ws
    else if w = ['-','-'] then ws
    else if T.Leaves w then w :: positionals false ws
    else positionals (T.takes w) ws

end Tables

section Positionals

variable {T : Tables} {w : Text} {ws : List Text}

theorem cases_of_not_leaves (hw : w ≠ ['-','-']) (hl : ¬T.Leaves w) :
    ¬Getopt.IsOperand '-' w ∧ ¬Getopt.Stops T.kind w.tail :=
  ⟨fun h => hl ⟨hw,.inl h⟩,fun h => hl ⟨hw,.inr h⟩⟩

/-- An option puts nothing with the positional arguments. -/
theorem positional_parseArg (hw : w ≠ ['-','-']) (hl : ¬T.Leaves w) (next : Option Text)
    (p : Parsed) : (parseArg T next p w).1.positional = p.positional ∧
      (parseArg T next p w).2 = (T.takes w && next.isSome) := by
  obtain ⟨ho,hs⟩ := cases_of_not_leaves hw hl
  rcases Getopt.cluster_cases T.kind w.tail with h | h | ⟨c,v,h,hk⟩
  · exact absurd h hs
  · rw [Tables.takes,parseArg_of_flags ho h,parseArg_of_flags ho h]
    exact ⟨Parsed.positional_setFlags p _,rfl⟩
  · by_cases hv : v = []
    · subst hv
      rw [Tables.takes,parseArg_of_value ho h hk,parseArg_of_value ho h hk]
      exact ⟨Parsed.positional_setFlags p _,rfl⟩
    · rw [Tables.takes,parseArg_of_attached ho h hk hv,parseArg_of_attached ho h hk hv]
      exact ⟨Parsed.positional_setFlags p _,rfl⟩

theorem positional_parseFrom (p : Parsed) (skip : Bool) (ws : List Text) :
    (parseFrom T p skip ws).positional = p.positional ++ T.positionals skip ws := by
  induction ws generalizing p skip with
  | nil => simp [parseFrom,Tables.positionals]
  | cons w ws ih =>
    rw [Tables.positionals]
    by_cases hskip : skip = true
    · subst hskip
      exact ih p false
    · simp only [Bool.not_eq_true] at hskip
      subst hskip
      rw [if_neg (by simp)]
      by_cases hw : w = ['-','-']
      · subst hw
        rw [parseFrom_terminator,if_pos rfl]
      · rw [if_neg hw]
        by_cases hl : T.Leaves w
        · rw [parseFrom_leaves hl,if_pos hl,ih]
          simp [Parsed.push]
        · obtain ⟨hpos,htakes⟩ := positional_parseArg hw hl ws.head? p
          rw [parseFrom_cons hw,if_neg hl,ih,hpos,htakes]
          cases ws with
          | nil => rfl
          | cons v ws => simp

theorem positionals_leaves (h : T.Leaves w) :
    T.positionals false (w :: ws) = w :: T.positionals false ws := by
  rw [Tables.positionals,if_neg (by simp),if_neg h.1,if_pos h]

theorem positionals_append {l : List Text} (h : ∀ w ∈ l, T.Leaves w) (ws : List Text) :
    T.positionals false (l ++ ws) = l ++ T.positionals false ws := by
  induction l with
  | nil => rfl
  | cons w l ih =>
    have hl := ih (fun v hv => h v (by simp [hv]))
    rw [List.cons_append,positionals_leaves (h w (by simp)),hl,List.cons_append]

theorem length_positionals (skip : Bool) (ws : List Text) :
    (T.positionals skip ws).length ≤ ws.length := by
  induction ws generalizing skip with
  | nil => exact le_refl _
  | cons w ws ih =>
    rw [Tables.positionals]
    split_ifs
    · exact (ih false).trans (Nat.le_succ _)
    · exact Nat.le_succ _
    · exact Nat.succ_le_succ (ih false)
    · exact (ih _).trans (Nat.le_succ _)

/-- Nothing is lost only where every argument is one that ends up there. -/
theorem leaves_of_positionals {ws : List Text} (h : T.positionals false ws = ws) :
    ∀ w ∈ ws, T.Leaves w := by
  induction ws with
  | nil => simp
  | cons w ws ih =>
    have hlen := congrArg List.length h
    rw [Tables.positionals,if_neg (by simp)] at h hlen
    by_cases hw : w = ['-','-']
    · rw [if_pos hw] at hlen
      simp at hlen
    · rw [if_neg hw] at h hlen
      by_cases hl : T.Leaves w
      · rw [if_pos hl] at h
        intro v hv
        rcases List.mem_cons.mp hv with rfl | hv
        · exact hl
        · exact ih (List.cons.inj h).2 v hv
      · rw [if_neg hl] at hlen
        have hle := length_positionals (T := T) (T.takes w) ws
        simp only [List.length_cons] at hlen
        omega

theorem append_positionals_ne {l : List Text} (hne : l ≠ []) (h : ∀ w ∈ l, T.Leaves w)
    (ws : List Text) : l ++ T.positionals false ws ≠ ws := by
  induction hn : ws.length using Nat.strong_induction_on generalizing ws with
  | _ n ih =>
    intro heq
    -- the arguments start with those in front, which are all left there
    have hpos : T.positionals false ws =
        l ++ T.positionals false (T.positionals false ws) := by
      conv_lhs => rw [← heq]
      exact positionals_append h _
    have hlen := congrArg List.length heq
    rw [List.length_append] at hlen
    have hl := List.length_pos_of_ne_nil hne
    exact ih _ (by omega) (T.positionals false ws) rfl hpos.symm

/-- What the loop makes of arguments with a terminator in them: it ends there or before, or it
took the terminator for a value. -/
theorem positionals_terminator (skip : Bool) (before ws : List Text) :
    ∃ l, (∀ w ∈ l, T.Leaves w) ∧
      (T.positionals skip (before ++ ['-','-'] :: ws) = l ++ T.positionals false ws ∨
        ∃ m, T.positionals skip (before ++ ['-','-'] :: ws) = l ++ (m ++ ws)) := by
  induction before generalizing skip with
  | nil =>
    refine ⟨[],by simp,?_⟩
    cases skip with
    | true => exact .inl rfl
    | false => exact .inr ⟨[],by simp [Tables.positionals]⟩
  | cons w before ih =>
    rw [List.cons_append,Tables.positionals]
    by_cases hskip : skip = true
    · rw [if_pos hskip]
      exact ih false
    · rw [if_neg hskip]
      by_cases hw : w = ['-','-']
      · rw [if_pos hw]
        exact ⟨[],by simp,.inr ⟨before ++ [['-','-']],by simp⟩⟩
      · rw [if_neg hw]
        by_cases hl : T.Leaves w
        · rw [if_pos hl]
          obtain ⟨l,hleaves,hl'⟩ := ih false
          refine ⟨w :: l,?_,?_⟩
          · intro v hv
            rcases List.mem_cons.mp hv with rfl | hv
            · exact hl
            · exact hleaves v hv
          · rcases hl' with h | ⟨m,h⟩
            · exact .inl (by rw [h,List.cons_append])
            · exact .inr ⟨m,by rw [h,List.cons_append]⟩
        · rw [if_neg hl]
          exact ih _

end Positionals

/-! The loop against `getopt`. -/

def getopt (T : Tables) (args : List Text) : Getopt.Outcome Char :=
  Getopt.run '-' T.kind args

/-- The flags, the values and the operands that `getopt` gives. -/
def getoptParsed (T : Tables) (args : List Text) : Parsed :=
  { Parsed.empty.reports (getopt T args).items with positional := (getopt T args).operands }

/-- Every argument before the terminator that goes with the positional ones sets nothing. -/
def QuietFrom (T : Tables) (p : Parsed) (skip : Bool) : List Text → Prop
  | [] => True
  | arg :: args =>
    if skip then QuietFrom T p false args
    else if arg = ['-','-'] then True
    else
      let r := parseArg T args.head? p arg
      (r.1.positional ≠ p.positional → r.1.flags = p.flags ∧ r.1.options = p.options) ∧
        QuietFrom T r.1 r.2 args

/-- The arguments are read as `getopt` reads them, and no positional argument sets anything. -/
structure AgreesWithGetopt (T : Tables) (args : List Text) : Prop where
  same : parseTmuxArgs T args = getoptParsed T args
  quiet : QuietFrom T .empty false args

/-- No unknown option and no missing value before the operands, and no operand that the loop
would not leave alone, unless `--` stands before them. -/
def Plain (T : Tables) (args : List Text) : Prop :=
  (getopt T args).Accepted ∧ ((getopt T args).terminated = true ∨
    ∀ w ∈ (getopt T args).operands,
      T.Leaves w ∧ ∀ c ∈ T.touched w, .flag c ∈ (getopt T args).items)

section Agreement

variable {T : Tables} {p : Parsed} {w : Text} {args ws : List Text}

/-- What the loop leaves behind an unknown option are not the operands. -/
theorem cons_positionals_ne (ho : ¬Getopt.IsOperand '-' w) (hl : T.Leaves w)
    (before ws : List Text) :
    w :: T.positionals false (before ++ ws) ≠ (getopt T ws).operands := by
  intro heq
  by_cases ht : (getopt T ws).terminated = true
  · obtain ⟨front,hfront⟩ := Getopt.operands_suffix '-' T.kind ws
    rw [if_pos (show (Getopt.run '-' T.kind ws).terminated = true from ht)] at hfront
    have hws : before ++ ws = (before ++ front) ++ ['-','-'] :: (getopt T ws).operands := by
      conv_lhs => rw [hfront]
      simp [getopt]
    obtain ⟨l,hleaves,h | ⟨m,h⟩⟩ :=
      positionals_terminator (T := T) false (before ++ front) (getopt T ws).operands
    · rw [hws,h] at heq
      refine append_positionals_ne (l := w :: l) (by simp) ?_ _ heq
      intro v hv
      rcases List.mem_cons.mp hv with rfl | hv
      · exact hl
      · exact hleaves v hv
    · rw [hws,h] at heq
      have hlen := congrArg List.length heq
      simp only [List.length_cons,List.length_append] at hlen
      omega
  · have ht' : (Getopt.run '-' T.kind ws).terminated = false := by simpa [getopt] using ht
    have hhead : (getopt T ws).operands.head? = some w := by rw [← heq,List.head?_cons]
    exact ho (Getopt.isOperand_head ht' w hhead)

/-- With an unknown option or a missing value the loop never gives what `getopt` does. -/
theorem parseFrom_ne (hp : p.positional = []) (h : ¬(getopt T args).Accepted) :
    parseFrom T p false args ≠
      { p.reports (getopt T args).items with positional := (getopt T args).operands } := by
  induction args using Getopt.run.induct '-' T.kind generalizing p with
  | case1 => exact absurd Getopt.accepted_nil h
  | case2 ws => exact absurd Getopt.accepted_terminator h
  | case3 w ws _ ho => exact absurd (Getopt.accepted_operand ho) h
  | case4 w ws hw ho items hc ih =>
    rw [getopt,Getopt.accepted_cluster hw ho hc] at h
    rw [getopt,Getopt.run_cluster hw ho hc]
    by_cases hs : Getopt.Stops T.kind w.tail
    · intro heq
      have hpos := congrArg Parsed.positional heq
      rw [positional_parseFrom,hp,List.nil_append,positionals_leaves ⟨hw,.inr hs⟩] at hpos
      exact cons_positionals_ne ho ⟨hw,.inr hs⟩ [] ws hpos
    · have := ih (p := p.reports items) ((Parsed.positional_reports p items).trans hp)
        fun hrest => h ⟨hs,hrest⟩
      rw [parseFrom_cluster hw ho hs hc]
      simpa only [getopt,Getopt.Outcome.after,Parsed.reports_append] using this
  | case5 w hw ho items c hc =>
    rw [getopt,Getopt.run_missing hw ho hc]
    intro heq
    by_cases hs : Getopt.Stops T.kind w.tail
    · have hpos := congrArg Parsed.positional heq
      rw [positional_parseFrom,positionals_leaves ⟨hw,.inr hs⟩] at hpos
      simp at hpos
    · rw [parseFrom_missing hw ho hs hc,Parsed.reports_append] at heq
      have hopt := congrArg (fun q => (q.options ['-',c]).length) heq
      simp [Parsed.addOption,Parsed.reports,Parsed.report] at hopt
  | case6 w hw ho items c hc v ws ih =>
    rw [getopt,Getopt.accepted_value hw ho hc] at h
    rw [getopt,Getopt.run_value hw ho hc]
    by_cases hs : Getopt.Stops T.kind w.tail
    · intro heq
      have hpos := congrArg Parsed.positional heq
      rw [positional_parseFrom,hp,List.nil_append,positionals_leaves ⟨hw,.inr hs⟩] at hpos
      exact cons_positionals_ne ho ⟨hw,.inr hs⟩ [v] ws hpos
    · have := ih (p := p.reports (items ++ [.option c v]))
        ((Parsed.positional_reports p _).trans hp) fun hrest => h ⟨hs,hrest⟩
      rw [parseFrom_value hw ho hs hc]
      simpa only [getopt,Getopt.Outcome.after,Parsed.reports_append] using this

/-- As long as nothing is unknown or missing the loop keeps up with `getopt`. -/
theorem parseFrom_accepted (h : (getopt T args).Accepted) :
    parseFrom T p false args =
      if (getopt T args).terminated then
        { p.reports (getopt T args).items with
          positional := p.positional ++ (getopt T args).operands }
      else parseFrom T (p.reports (getopt T args).items) false (getopt T args).operands := by
  induction args using Getopt.run.induct '-' T.kind generalizing p with
  | case1 => rfl
  | case2 ws =>
    rw [getopt,Getopt.run_terminator,parseFrom_terminator]
    rfl
  | case3 w ws _ ho =>
    rw [getopt,Getopt.run_operand ho]
    rfl
  | case4 w ws hw ho items hc ih =>
    obtain ⟨hs,hrest⟩ := (Getopt.accepted_cluster hw ho hc).mp h
    rw [getopt,Getopt.run_cluster hw ho hc]
    rw [parseFrom_cluster hw ho hs hc,ih hrest]
    simp only [getopt,Getopt.Outcome.after,Parsed.reports_append,Parsed.positional_reports]
  | case5 w hw ho items c hc =>
    exact absurd h (Getopt.not_accepted_missing hw ho hc)
  | case6 w hw ho items c hc v ws ih =>
    obtain ⟨hs,hrest⟩ := (Getopt.accepted_value hw ho hc v).mp h
    rw [getopt,Getopt.run_value hw ho hc]
    rw [parseFrom_value hw ho hs hc,ih hrest]
    simp only [getopt,Getopt.Outcome.after,Parsed.reports_append,Parsed.positional_reports]

/-- Up to the operands no argument goes with the positional ones. -/
theorem quietFrom_accepted (h : (getopt T args).Accepted)
    (hops : (getopt T args).terminated = false →
      QuietFrom T (p.reports (getopt T args).items) false (getopt T args).operands) :
    QuietFrom T p false args := by
  induction args using Getopt.run.induct '-' T.kind generalizing p with
  | case1 => trivial
  | case2 ws => simp [QuietFrom]
  | case3 w ws _ ho =>
    rw [getopt,Getopt.run_operand ho] at hops
    exact hops rfl
  | case4 w ws hw ho items hc ih =>
    obtain ⟨hs,hrest⟩ := (Getopt.accepted_cluster hw ho hc).mp h
    rw [getopt,Getopt.run_cluster hw ho hc] at hops
    rw [QuietFrom,if_neg (by simp),if_neg hw,parseArg_of_cluster ho hs hc]
    refine ⟨fun hne => absurd (Parsed.positional_reports p items) hne,ih hrest fun ht => ?_⟩
    have := hops ht
    rwa [Getopt.Outcome.after,Parsed.reports_append] at this
  | case5 w hw ho items c hc =>
    exact absurd h (Getopt.not_accepted_missing hw ho hc)
  | case6 w hw ho items c hc v ws ih =>
    obtain ⟨hs,hrest⟩ := (Getopt.accepted_value hw ho hc v).mp h
    rw [getopt,Getopt.run_value hw ho hc] at hops
    rw [QuietFrom,if_neg (by simp),if_neg hw,parseArg_of_pending ho hs hc]
    refine ⟨fun hne => absurd (Parsed.positional_reports p items) hne,?_⟩
    refine ih hrest fun ht => ?_
    have := hops ht
    rwa [Getopt.Outcome.after,Parsed.reports_append,Parsed.reports_append] at this

/-! The operands that no `--` stands before. -/

theorem parseFrom_all_leaves (h : ∀ w ∈ ws, T.Leaves w) :
    parseFrom T p false ws =
      { p.setFlags (ws.flatMap T.touched) with positional := p.positional ++ ws } := by
  induction ws generalizing p with
  | nil => simp [parseFrom]
  | cons w ws ih =>
    rw [parseFrom_leaves (h w (by simp)),ih (fun v hv => h v (by simp [hv]))]
    rw [Parsed.setFlags_push,← Parsed.setFlags_append,List.flatMap_cons]
    simp [Parsed.push]

/-- The loop leaves the operands alone just where it puts each with the positional arguments
and sets no flag that is not set. -/
theorem parseFrom_operands_iff (hp : p.positional = []) :
    parseFrom T p false ws = { p with positional := ws } ↔
      ∀ w ∈ ws, T.Leaves w ∧ ∀ c ∈ T.touched w, p.flags ['-',c] = true := by
  constructor
  · intro h
    have hpos := congrArg Parsed.positional h
    rw [positional_parseFrom,hp,List.nil_append] at hpos
    have hleaves := leaves_of_positionals hpos
    refine fun w hw => ⟨hleaves w hw,fun c hc => ?_⟩
    rw [parseFrom_all_leaves hleaves] at h
    rw [← congrFun (congrArg Parsed.flags h) ['-',c]]
    exact (Parsed.flags_setFlags _ _ _).mpr (.inr ⟨c,List.mem_flatMap.mpr ⟨w,hw,hc⟩,rfl⟩)
  · intro h
    have hset : p.setFlags (ws.flatMap T.touched) = p := by
      refine Parsed.setFlags_of_set fun c hc => ?_
      obtain ⟨w,hw,hc⟩ := List.mem_flatMap.mp hc
      exact (h w hw).2 c hc
    rw [parseFrom_all_leaves (fun w hw => (h w hw).1),hset,hp,List.nil_append]

theorem quietFrom_operands
    (h : ∀ w ∈ ws, T.Leaves w ∧ ∀ c ∈ T.touched w, p.flags ['-',c] = true) :
    QuietFrom T p false ws := by
  induction ws generalizing p with
  | nil => trivial
  | cons w ws ih =>
    obtain ⟨hl,hset⟩ := h w (by simp)
    rw [QuietFrom,if_neg (by simp),if_neg hl.1,parseArg_leaves hl,Parsed.setFlags_of_set hset]
    exact ⟨fun _ => ⟨rfl,rfl⟩,ih fun v hv => h v (by simp [hv])⟩

theorem flag_reports_empty (items : List (Getopt.Item Char)) (c : Char) :
    (Parsed.empty.reports items).flags ['-',c] = true ↔ .flag c ∈ items := by
  rw [Parsed.flags_reports]
  simp [Parsed.empty]

theorem positional_reports_empty (items : List (Getopt.Item Char)) :
    (Parsed.empty.reports items).positional = [] := Parsed.positional_reports _ items

theorem plain_of_same (h : parseTmuxArgs T args = getoptParsed T args) : Plain T args := by
  have hacc : (getopt T args).Accepted := by
    by_contra hacc
    exact parseFrom_ne rfl hacc h
  refine ⟨hacc,?_⟩
  by_cases ht : (getopt T args).terminated = true
  · exact .inl ht
  · rw [parseTmuxArgs,parseFrom_accepted hacc,if_neg ht] at h
    refine .inr fun w hw => ?_
    obtain ⟨hl,htouched⟩ :=
      (parseFrom_operands_iff (positional_reports_empty _)).mp h w hw
    exact ⟨hl,fun c hc => (flag_reports_empty _ c).mp (htouched c hc)⟩

theorem AgreesWithGetopt.of_plain (h : Plain T args) : AgreesWithGetopt T args := by
  obtain ⟨hacc,hops⟩ := h
  have hset : (getopt T args).terminated = false → ∀ w ∈ (getopt T args).operands,
      T.Leaves w ∧ ∀ c ∈ T.touched w,
        (Parsed.empty.reports (getopt T args).items).flags ['-',c] = true := by
    intro ht w hw
    obtain ⟨hl,htouched⟩ := hops.resolve_left (by simp [ht]) w hw
    exact ⟨hl,fun c hc => (flag_reports_empty _ c).mpr (htouched c hc)⟩
  constructor
  · rw [parseTmuxArgs,parseFrom_accepted hacc]
    by_cases ht : (getopt T args).terminated = true
    · rw [if_pos ht]
      rfl
    · rw [if_neg ht]
      exact (parseFrom_operands_iff (positional_reports_empty _)).mpr (hset (by simpa using ht))
  · exact quietFrom_accepted hacc fun ht => quietFrom_operands (hset ht)

/-- The loop reads the arguments as `getopt` does just where they are plain. -/
theorem agreesWithGetopt_iff (T : Tables) (args : List Text) :
    AgreesWithGetopt T args ↔ Plain T args :=
  ⟨fun h => plain_of_same h.same,AgreesWithGetopt.of_plain⟩

/-- `send-keys ls -la`: the letters of a word count as options as far as they are known. -/
theorem sendKeys_sets_a_flag :
    ¬AgreesWithGetopt .sendKeys (texts ["-t","%1","ls","-la"]) := by
  intro h
  have hflag := congrFun (congrArg Parsed.flags h.same) "-l".toList
  exact absurd hflag (by decide)

/-- The words of a plain `send-keys` are typed as they are. -/
theorem sendKeysInput_plain {args : List Text} (h : Plain .sendKeys args) :
    sendKeysInput args = sendKeysText (getopt .sendKeys args).operands
      (decide (.flag 'l' ∈ (getopt .sendKeys args).items)) := by
  have hsame := (AgreesWithGetopt.of_plain h).same
  have hflag : (parseTmuxArgs .sendKeys args).hasFlag "-l".toList =
      decide (.flag 'l' ∈ (getopt .sendKeys args).items) := by
    rw [hsame,Bool.eq_iff_iff,decide_eq_true_iff]
    exact flag_reports_empty _ 'l'
  rw [sendKeysInput,hflag,hsame]
  rfl

theorem splitWindowInput_plain {args : List Text} (h : Plain .splitWindow args) :
    splitWindowInput args = tmuxShellCommandText (getopt .splitWindow args).operands
      ((Parsed.empty.reports (getopt .splitWindow args).items).value "-c".toList) := by
  have hsame := (AgreesWithGetopt.of_plain h).same
  rw [splitWindowInput,hsame]
  rfl

end Agreement

end Limux.Tmux
