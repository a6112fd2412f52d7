import Mathlib.Data.List.Basic

/-! The argument syntax of POSIX `getopt`: clusters of options behind a dash, values that are
attached or the next argument, and no options from the first operand or `--` on. -/

namespace Getopt

inductive Kind
  | flag
  | value
  deriving DecidableEq

/-- What one call reports. -/
inductive Item (α : Type)
  | flag (c : α)
  | option (c : α) (v : List α)
  | unknown (c : α)
  | missing (c : α)
  deriving DecidableEq

variable {α : Type}

namespace Item

def isError : Item α → Bool
  | .flag _ => false
  | .option _ _ => false
  | .unknown _ => true
  | .missing _ => true

/-- The value that is reported for an option. -/
def value? [DecidableEq α] (c : α) : Item α → Option (List α)
  | .option d v => if d = c then some v else none
  | _ => none

end Item

/-- All reports, what is left of the arguments, and whether `--` ended the options. -/
structure Outcome (α : Type) where
  items : List (Item α)
  operands : List (List α)
  terminated : Bool
  deriving DecidableEq

namespace Outcome

def after (items : List (Item α)) (o : Outcome α) : Outcome α :=
  { o with items := items ++ o.items }

/-- No unknown option and no missing value. -/
def Accepted (o : Outcome α) : Prop := ∀ i ∈ o.items, i.isError = false

instance (o : Outcome α) : Decidable o.Accepted := List.decidableBAll _ o.items

def values [DecidableEq α] (o : Outcome α) (c : α) : List (List α) :=
  o.items.filterMap (Item.value? c)

theorem accepted_after {items : List (Item α)} {o : Outcome α} :
    (o.after items).Accepted ↔ (∀ i ∈ items, i.isError = false) ∧ o.Accepted := by
  simp only [Accepted,after,List.forall_mem_append]

end Outcome

/-- A loop over the reports in which the last one that has something to say stays. -/
theorem foldl_last {S β : Type} (g : S → Option β) (write : Item α → Option β)
    (f : S → Item α → S) {items : List (Item α)}
    (h : ∀ i ∈ items, ∀ s, g (f s i) = (write i).or (g s)) (s : S) :
    g (items.foldl f s) = (items.filterMap write).getLast?.or (g s) := by
  induction items generalizing s with
  | nil => rfl
  | cons i items ih =>
    rw [List.foldl_cons,ih (fun j hj => h j (List.mem_cons_of_mem _ hj)),
      h i List.mem_cons_self s,← Option.or_assoc]
    cases hw : write i with
    | none => rw [List.filterMap_cons_none hw,Option.or_none]
    | some b =>
      rw [List.filterMap_cons_some hw,List.getLast?_cons]
      cases (items.filterMap write).getLast? <;> rfl

section Options

variable (kind : α → Option Kind)

/-- The options of a cluster, and the last one if its value is the next argument. -/
def cluster : List α → List (Item α) × Option α
  | [] => ([],none)
  | c :: cs =>
    match kind c with
    | none => (.unknown c :: (cluster cs).1,(cluster cs).2)
    | some .flag => (.flag c :: (cluster cs).1,(cluster cs).2)
    | some .value => if cs = [] then ([],some c) else ([.option c cs],none)

def leadingFlags (cs : List α) : List α := cs.takeWhile (fun c => kind c = some .flag)

def behindFlags (cs : List α) : List α := cs.dropWhile (fun c => kind c = some .flag)

/-- The flags of a cluster end at a letter that is no option. -/
def Stops (cs : List α) : Prop := ∃ c ∈ (behindFlags kind cs).head?, kind c = none

instance (cs : List α) : Decidable (Stops kind cs) :=
  match h : (behindFlags kind cs).head? with
  | none => isFalse (by simp [Stops,h])
  | some c => decidable_of_iff (kind c = none) (by simp [Stops,h])

variable {kind} {c : α} {cs v : List α}

theorem kind_of_behindFlags (h : behindFlags kind cs = c :: v) : kind c ≠ some .flag := by
  have := List.head?_dropWhile_not (fun c => decide (kind c = some .flag)) cs
  rw [behindFlags] at h
  rw [h] at this
  simpa using this

theorem leadingFlags_append_behindFlags (kind : α → Option Kind) (cs : List α) :
    leadingFlags kind cs ++ behindFlags kind cs = cs := List.takeWhile_append_dropWhile

theorem cluster_flags : cluster kind cs =
    ((leadingFlags kind cs).map .flag ++ (cluster kind (behindFlags kind cs)).1,
      (cluster kind (behindFlags kind cs)).2) := by
  induction cs with
  | nil => rfl
  | cons c cs ih =>
    by_cases hc : kind c = some .flag
    · rw [cluster,hc]
      simp only [leadingFlags,behindFlags,List.takeWhile_cons,List.dropWhile_cons,hc]
      simp only [decide_true,if_true,List.map_cons,List.cons_append]
      rw [ih]
      rfl
    · simp [leadingFlags,behindFlags,hc]

theorem cluster_of_flags (h : behindFlags kind cs = []) :
    cluster kind cs = ((leadingFlags kind cs).map .flag,none) := by
  rw [cluster_flags,h]
  simp [cluster]

theorem cluster_of_value (h : behindFlags kind cs = [c]) (hc : kind c = some .value) :
    cluster kind cs = ((leadingFlags kind cs).map .flag,some c) := by
  rw [cluster_flags,h]
  simp [cluster,hc]

theorem cluster_of_attached (h : behindFlags kind cs = c :: v) (hc : kind c = some .value)
    (hv : v ≠ []) :
    cluster kind cs = ((leadingFlags kind cs).map .flag ++ [.option c v],none) := by
  rw [cluster_flags,h]
  simp [cluster,hc,hv]

theorem unknown_mem_cluster (h : behindFlags kind cs = c :: v) (hc : kind c = none) :
    .unknown c ∈ (cluster kind cs).1 := by
  rw [cluster_flags,h]
  simp [cluster,hc]

/-- What a cluster is: flags only, flags with an option at the end, or something unknown. -/
theorem cluster_cases (kind : α → Option Kind) (cs : List α) :
    Stops kind cs ∨ behindFlags kind cs = [] ∨
      ∃ c v, behindFlags kind cs = c :: v ∧ kind c = some .value := by
  rcases hb : behindFlags kind cs with _ | ⟨c,v⟩
  · exact .inr (.inl rfl)
  · rcases hc : kind c with _ | k
    · exact .inl ⟨c,by simp [hb],hc⟩
    · cases k with
      | flag => exact absurd hc (kind_of_behindFlags hb)
      | value => exact .inr (.inr ⟨c,v,rfl,hc⟩)

theorem cluster_some {items : List (Item α)} (hs : ¬Stops kind cs)
    (h : cluster kind cs = (items,some c)) :
    items = (leadingFlags kind cs).map .flag ∧ behindFlags kind cs = [c] ∧
      kind c = some .value := by
  rcases cluster_cases kind cs with hb | hb | ⟨d,v,hb,hd⟩
  · exact absurd hb hs
  · rw [cluster_of_flags hb] at h
    cases h
  · by_cases hv : v = []
    · subst hv
      rw [cluster_of_value hb hd] at h
      cases h
      exact ⟨rfl,hb,hd⟩
    · rw [cluster_of_attached hb hd hv] at h
      cases h

theorem not_isError_flags {i : Item α} (h : i ∈ (leadingFlags kind cs).map Item.flag) :
    i.isError = false := by
  obtain ⟨c,_,rfl⟩ := List.mem_map.mp h
  rfl

/-- The reports of a cluster are in order if and only if its flags end at no unknown letter. -/
theorem cluster_accepted : (∀ i ∈ (cluster kind cs).1, i.isError = false) ↔ ¬Stops kind cs := by
  refine ⟨?_,fun hs => ?_⟩
  · rintro h ⟨c,hc,hk⟩
    obtain ⟨v,hv⟩ := List.head?_eq_some_iff.mp hc
    exact absurd (h _ (unknown_mem_cluster hv hk)) (by simp [Item.isError])
  · rcases cluster_cases kind cs with hb | hb | ⟨d,v,hb,hd⟩
    · exact absurd hb hs
    · rw [cluster_of_flags hb]
      exact fun i => not_isError_flags
    · by_cases hv : v = []
      · subst hv
        rw [cluster_of_value hb hd]
        exact fun i => not_isError_flags
      · rw [cluster_of_attached hb hd hv]
        intro i hi
        rcases List.mem_append.mp hi with hi | hi
        · exact not_isError_flags hi
        · rw [List.mem_singleton.mp hi]
          rfl

end Options

variable [DecidableEq α] (dash : α) (kind : α → Option Kind)

/-- An argument that is no option: not led by a dash, or the dash alone. -/
def IsOperand (w : List α) : Prop := w.head? ≠ some dash ∨ w = [dash]

instance (w : List α) : Decidable (IsOperand dash w) := inferInstanceAs (Decidable (_ ∨ _))

def run : List (List α) → Outcome α
  | [] => ⟨[],[],false⟩
  | w :: ws =>
    if w = [dash,dash] then ⟨[],ws,true⟩
    else if IsOperand dash w then ⟨[],w :: ws,false⟩
    else
      match cluster kind w.tail with
      | (items,none) => (run ws).after items
      | (items,some c) =>
        match ws with
        | [] => ⟨items ++ [.missing c],[],false⟩
        | v :: ws => (run ws).after (items ++ [.option c v])

/-- The clusters that are read, without their dash. -/
def clusters : List (List α) → List (List α)
  | [] => []
  | w :: ws =>
    if w = [dash,dash] then []
    else if IsOperand dash w then []
    else
      match cluster kind w.tail with
      | (_,none) => w.tail :: clusters ws
      | (_,some _) =>
        match ws with
        | [] => [w.tail]
        | _ :: ws => w.tail :: clusters ws

variable {dash kind} {w : List α} {ws : List (List α)} {items : List (Item α)} {c : α}

theorem isOperand_iff : IsOperand dash w ↔ [dash].isPrefixOf w = false ∨ w = [dash] := by
  cases w with
  | nil => simp [IsOperand]
  | cons c w =>
    by_cases hc : c = dash
    · subst hc
      simp [IsOperand]
    · have hc' : ¬dash = c := fun h => hc h.symm
      simp [IsOperand,hc,List.isPrefixOf,hc']

theorem tail_ne_nil (ho : ¬IsOperand dash w) : w.tail ≠ [] := by
  intro ht
  refine ho ?_
  cases w with
  | nil => exact .inl (by simp)
  | cons c w =>
    obtain rfl : w = [] := ht
    by_cases hc : c = dash
    · exact .inr (by rw [hc])
    · exact .inl (by simpa using hc)

theorem run_terminator : run dash kind ([dash,dash] :: ws) = ⟨[],ws,true⟩ := by simp [run]

theorem run_operand (h : IsOperand dash w) : run dash kind (w :: ws) = ⟨[],w :: ws,false⟩ := by
  have hw : w ≠ [dash,dash] := by
    rintro rfl
    simp [IsOperand] at h
  simp [run,hw,h]

theorem run_cluster (hw : w ≠ [dash,dash]) (ho : ¬IsOperand dash w)
    (hc : cluster kind w.tail = (items,none)) :
    run dash kind (w :: ws) = (run dash kind ws).after items := by
  rw [run,if_neg hw,if_neg ho]
  simp only [hc]

theorem run_missing (hw : w ≠ [dash,dash]) (ho : ¬IsOperand dash w)
    (hc : cluster kind w.tail = (items,some c)) :
    run dash kind [w] = ⟨items ++ [.missing c],[],false⟩ := by
  rw [run,if_neg hw,if_neg ho]
  simp only [hc]

theorem run_value (hw : w ≠ [dash,dash]) (ho : ¬IsOperand dash w)
    (hc : cluster kind w.tail = (items,some c)) (v : List α) :
    run dash kind (w :: v :: ws) = (run dash kind ws).after (items ++ [.option c v]) := by
  rw [run,if_neg hw,if_neg ho]
  simp only [hc]

/-! A call is in order if its clusters are and no value is missing. -/

theorem accepted_nil : (run dash kind []).Accepted := by simp [run,Outcome.Accepted]

theorem accepted_terminator : (run dash kind ([dash,dash] :: ws)).Accepted := by
  rw [run_terminator]
  simp [Outcome.Accepted]

theorem accepted_operand (h : IsOperand dash w) : (run dash kind (w :: ws)).Accepted := by
  rw [run_operand h]
  simp [Outcome.Accepted]

theorem accepted_cluster (hw : w ≠ [dash,dash]) (ho : ¬IsOperand dash w)
    (hc : cluster kind w.tail = (items,none)) : (run dash kind (w :: ws)).Accepted ↔
      ¬Stops kind w.tail ∧ (run dash kind ws).Accepted := by
  rw [run_cluster hw ho hc,Outcome.accepted_after,← cluster_accepted,hc]

theorem accepted_value (hw : w ≠ [dash,dash]) (ho : ¬IsOperand dash w)
    (hc : cluster kind w.tail = (items,some c)) (v : List α) :
    (run dash kind (w :: v :: ws)).Accepted ↔
      ¬Stops kind w.tail ∧ (run dash kind ws).Accepted := by
  rw [run_value hw ho hc,Outcome.accepted_after,← cluster_accepted,hc]
  refine and_congr_left fun _ => ⟨fun h i hi => h i (List.mem_append_left _ hi),fun h i hi => ?_⟩
  rcases List.mem_append.mp hi with hi | hi
  · exact h i hi
  · rw [List.mem_singleton.mp hi]
    rfl

theorem not_accepted_missing (hw : w ≠ [dash,dash]) (ho : ¬IsOperand dash w)
    (hc : cluster kind w.tail = (items,some c)) : ¬(run dash kind [w]).Accepted := by
  rw [run_missing hw ho hc]
  intro h
  exact absurd (h (.missing c) (by simp)) (by simp [Item.isError])

theorem clusters_terminator : clusters dash kind ([dash,dash] :: ws) = [] := by
  cases ws <;> simp [clusters]

theorem clusters_operand (h : IsOperand dash w) : clusters dash kind (w :: ws) = [] := by
  cases ws <;> simp [clusters,h]

theorem clusters_cluster (hw : w ≠ [dash,dash]) (ho : ¬IsOperand dash w)
    (hc : cluster kind w.tail = (items,none)) :
    clusters dash kind (w :: ws) = w.tail :: clusters dash kind ws := by
  cases ws with
  | nil => simp [clusters,hw,ho,hc]
  | cons v ws => rw [clusters,if_neg hw,if_neg ho,hc]

theorem clusters_value (hw : w ≠ [dash,dash]) (ho : ¬IsOperand dash w)
    (hc : cluster kind w.tail = (items,some c)) (v : List α) :
    clusters dash kind (w :: v :: ws) = w.tail :: clusters dash kind ws := by
  rw [clusters,if_neg hw,if_neg ho,hc]

/-- The operands are the end of the arguments, behind the terminator if there was one. -/
theorem operands_suffix (dash : α) (kind : α → Option Kind) (args : List (List α)) :
    ∃ before, args = before ++
      (if (run dash kind args).terminated then [[dash,dash]] else []) ++
        (run dash kind args).operands := by
  induction args using run.induct dash kind with
  | case1 => exact ⟨[],rfl⟩
  | case2 ws => exact ⟨[],by simp [run_terminator]⟩
  | case3 w ws _ ho => exact ⟨[],by simp [run_operand ho]⟩
  | case4 w ws hw ho items hc ih =>
    obtain ⟨before,hb⟩ := ih
    rw [run_cluster hw ho hc]
    refine ⟨w :: before,?_⟩
    rw [List.cons_append,List.cons_append,Outcome.after]
    exact congrArg _ hb
  | case5 w hw ho items c hc =>
    rw [run_missing hw ho hc]
    exact ⟨[w],rfl⟩
  | case6 w hw ho items c hc v ws ih =>
    obtain ⟨before,hb⟩ := ih
    rw [run_value hw ho hc]
    refine ⟨w :: v :: before,?_⟩
    rw [List.cons_append,List.cons_append,List.cons_append,List.cons_append,Outcome.after]
    exact congrArg (fun l => w :: v :: l) hb

theorem isOperand_head {args : List (List α)} (h : (run dash kind args).terminated = false) :
    ∀ w ∈ (run dash kind args).operands.head?, IsOperand dash w := by
  induction args using run.induct dash kind with
  | case1 => simp [run]
  | case2 ws => simp [run_terminator] at h
  | case3 w ws _ ho => simpa [run_operand ho] using ho
  | case4 w ws hw ho items hc ih =>
    rw [run_cluster hw ho hc] at h ⊢
    exact ih h
  | case5 w hw ho items c hc => simp [run_missing hw ho hc]
  | case6 w hw ho items c hc v ws ih =>
    rw [run_value hw ho hc] at h ⊢
    exact ih h

end Getopt
