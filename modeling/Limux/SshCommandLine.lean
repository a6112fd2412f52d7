import Limux.Lib.Getopt
import Limux.Lib.Number
import Limux.Lib.TextLines

/-! The command line of an `ssh` process (`parse_ssh_command_line` in
`app/src/remote/ssh_detect.rs`), against `getopt` with the tables of the source. -/
namespace Limux.Ssh

open Text

structure DetectedSSHSession where
  destination : Text
  port : Option ℕ
  identityFile : Option Text
  sshOptions : List Text
  deriving DecidableEq

def noArgFlags : Text := "46AaCfGgKkMNnqsTtVvXxYy".toList

def valueArgFlags : Text := "BbcDEeFIiJLlmOopQRSWw".toList

/-- Keys of `-o` that are of no use to `scp`. -/
def filteredOptionKeys : List Text :=
  ["batchmode","controlmaster","controlpersist","forkafterauthentication","localcommand",
    "permitlocalcommand","remotecommand","requesttty","sendenv","sessiontype","setenv",
    "stdioforward"].map String.toList

/-- What has been read of the options. -/
structure Options where
  port : Option ℕ
  identityFile : Option Text
  loginName : Option Text
  sshOptions : List Text

def Options.none : Options := ⟨.none,.none,.none,[]⟩

def endsKey (c : Char) : Bool := c = '=' || isWhitespace c

/-- `to_lowercase`, as far as it gives a letter of a key. -/
def lowerChar (c : Char) : Char := if c.toNat = 0x212a then 'k' else c.toLower

def sshOptionKey (option : Text) : Text :=
  (option.takeWhile (fun c => !endsKey c)).map lowerChar

def nonEmpty (s : Text) : Option Text := if s = [] then none else some s

/-- What stands behind the first `=`, or behind the first white space. -/
def sshOptionValue (option : Text) : Option Text :=
  if '=' ∈ option then nonEmpty (trim ((option.dropWhile (fun c => c ≠ '=')).drop 1))
  else nonEmpty (trim ((option.dropWhile (fun c => !isWhitespace c)).drop 1))

def setPort (a : Options) (value : Text) : Options :=
  match parseUnsigned 65536 value with
  | some p => { a with port := some p }
  | none => a

def consumeSshOption (option : Text) (a : Options) : Options :=
  let trimmed := trim option
  if trimmed = [] then a
  else
    let key := sshOptionKey trimmed
    let value := sshOptionValue trimmed
    if key = "port".toList then (value.map (setPort a)).getD a
    else if key = "identityfile".toList then
      (value.map (fun v => { a with identityFile := some v })).getD a
    else if key = "user".toList then
      (value.map (fun v => { a with loginName := some v })).getD a
    else if key ∈ filteredOptionKeys then a
    else { a with sshOptions := a.sshOptions ++ [trimmed] }

def consumeValue (flag : Char) (value : Text) (a : Options) : Options :=
  let trimmed := trim value
  if trimmed = [] then a
  else if flag = 'p' then setPort a trimmed
  else if flag = 'i' then { a with identityFile := some trimmed }
  else if flag = 'l' then { a with loginName := some trimmed }
  else if flag = 'o' then consumeSshOption trimmed a
  else a

/-- The flag of an argument such as `-p22`. -/
def attachedFlag (chars : Text) : Option Char :=
  if 1 < chars.length then chars.head?.filter (fun c => c ∈ valueArgFlags) else none

/-- The flag of an argument such as `-p`. -/
def separateFlag (chars : Text) : Option Char :=
  if chars.length = 1 then chars.head?.filter (fun c => c ∈ valueArgFlags) else none

/-- The loop over the arguments: the options up to the destination, and the destination. -/
def parseLoop (a : Options) : List Text → Option (Options × Option Text)
  | [] => some (a,none)
  | arg :: args =>
    if arg = ['-','-'] then some (a,args.head?)
    else if ['-'].isPrefixOf arg = false ∨ arg = ['-'] then some (a,some arg)
    else
      let chars := arg.tail
      match attachedFlag chars with
      | some first => parseLoop (consumeValue first chars.tail a) args
      | none =>
        match separateFlag chars with
        | some flag =>
          match args with
          | [] => none
          | next :: args => parseLoop (consumeValue flag next a) args
        | none => if chars.all (fun c => c ∈ noArgFlags) then parseLoop a args else none

/-- The login name before the destination, unless it has one. -/
def resolveDestination (destination : Text) (loginName : Option Text) : Text :=
  let trimmed := trim destination
  if trimmed = [] then []
  else
    match loginName with
    | none => trimmed
    | some login =>
      let login := trim login
      if login ≠ [] ∧ '@' ∉ trimmed then login ++ ['@'] ++ trimmed else trimmed

def session (a : Options) (destination : Option Text) : Option DetectedSSHSession :=
  match destination with
  | none => none
  | some destination =>
    let final := resolveDestination destination a.loginName
    if final = [] then none
    else some ⟨final,a.port,a.identityFile,a.sshOptions⟩

/-- The arguments without the executable, if it is `ssh`. -/
def afterExecutable : List Text → List Text
  | [] => []
  | exe :: args => if afterLast '/' exe = "ssh".toList then args else exe :: args

def parseSshCommandLine (args : List Text) : Option DetectedSSHSession :=
  match parseLoop .none (afterExecutable args) with
  | none => none
  | some (a,destination) => session a destination

/-! The same by `getopt`. -/

def kind (c : Char) : Option Getopt.Kind :=
  if c ∈ noArgFlags then some .flag
  else if c ∈ valueArgFlags then some .value
  else none

def getopt (args : List Text) : Getopt.Outcome Char := Getopt.run '-' kind (afterExecutable args)

def Options.report (a : Options) : Getopt.Item Char → Options
  | .option c v => consumeValue c v a
  | _ => a

def withLogin (login : Option Text) (destination : Text) : Text :=
  match login with
  | none => destination
  | some login => login ++ ['@'] ++ destination

/-- The values that `getopt` reports, as they are, with its first operand: of the port, the
identity and the login name the last one, of `-o` all. None if an option is unknown, a value is
missing or there is no operand. -/
def getoptSession (args : List Text) : Option DetectedSSHSession :=
  let o := getopt args
  if o.Accepted then
    o.operands.head?.map (fun destination =>
      ⟨withLogin (o.values 'l').getLast? destination,
        (o.values 'p').getLast?.bind (parseUnsigned 65536),(o.values 'i').getLast?,o.values 'o'⟩)
  else none

/-- A flag with a value behind one without, in one argument. -/
def Mixed (cs : Text) : Prop :=
  Getopt.leadingFlags kind cs ≠ [] ∧ Getopt.behindFlags kind cs ≠ []

instance (cs : Text) : Decidable (Mixed cs) := inferInstanceAs (Decidable (_ ∧ _))

/-- Some argument that is read as options is mixed. -/
def HasMixed (args : List Text) : Prop :=
  ∃ cs ∈ Getopt.clusters '-' kind (afterExecutable args), Mixed cs

section Flags

variable {c : Char} {cs v : Text}

theorem notMem_valueArgFlags (h : c ∈ noArgFlags) : c ∉ valueArgFlags := by
  have hall : noArgFlags.all (fun c => decide (c ∉ valueArgFlags)) = true := by decide
  exact of_decide_eq_true (List.all_eq_true.mp hall c h)

theorem kind_flag : kind c = some .flag ↔ c ∈ noArgFlags := by
  unfold kind
  split_ifs with hn hv
  · simp [hn]
  · simp [hn]
  · simp [hn]

theorem kind_value : kind c = some .value ↔ c ∈ valueArgFlags := by
  unfold kind
  split_ifs with hn hv
  · simp [notMem_valueArgFlags hn]
  · simp [hv]
  · simp [hv]

theorem head?_filter (h : ∀ c ∈ cs.head?, c ∉ valueArgFlags) :
    cs.head?.filter (fun c => decide (c ∈ valueArgFlags)) = none := by
  cases hc : cs.head? with
  | none => rfl
  | some c => simp [Option.filter,h c hc]

theorem no_flag_of_head (h : ∀ c ∈ cs.head?, c ∉ valueArgFlags) :
    attachedFlag cs = none ∧ separateFlag cs = none := by
  unfold attachedFlag separateFlag
  rw [head?_filter h]
  exact ⟨ite_self none,ite_self none⟩

/-- What is led by a flag is led by no flag with a value. -/
theorem head_of_leadingFlags (h : Getopt.leadingFlags kind cs ≠ []) :
    ∀ c ∈ cs.head?, c ∉ valueArgFlags := by
  intro c hc
  obtain ⟨cs,rfl⟩ := List.head?_eq_some_iff.mp hc
  by_cases hk : kind c = some .flag
  · exact notMem_valueArgFlags (kind_flag.mp hk)
  · exact absurd (List.takeWhile_cons_of_neg (by simpa using hk)) h

theorem behindFlags_eq_nil : Getopt.behindFlags kind cs = [] ↔
    cs.all (fun c => decide (c ∈ noArgFlags)) = true := by
  rw [Getopt.behindFlags,List.dropWhile_eq_nil_iff,List.all_eq_true]
  simp only [kind_flag,decide_eq_true_eq]

/-- A cluster that stops at an unknown letter is nothing to the loop. -/
theorem unread_of_stops (h : Getopt.Stops kind cs) : attachedFlag cs = none ∧
    separateFlag cs = none ∧ cs.all (fun c => decide (c ∈ noArgFlags)) = false := by
  obtain ⟨d,hd,hk⟩ := h
  obtain ⟨v,hb⟩ := List.head?_eq_some_iff.mp hd
  have hall : cs.all (fun c => decide (c ∈ noArgFlags)) = false := by
    rw [← Bool.not_eq_true,← behindFlags_eq_nil,hb]
    simp
  have hhead : ∀ c ∈ cs.head?, c ∉ valueArgFlags := by
    by_cases hl : Getopt.leadingFlags kind cs = []
    · have hcs := Getopt.leadingFlags_append_behindFlags kind cs
      rw [hl,List.nil_append,hb] at hcs
      subst hcs
      intro c hc hv
      rw [List.head?_cons,Option.mem_def,Option.some.injEq] at hc
      rw [← hc,← kind_value,hk] at hv
      cases hv
    · exact head_of_leadingFlags hl
  exact ⟨(no_flag_of_head hhead).1,(no_flag_of_head hhead).2,hall⟩

/-- A mixed cluster is nothing to the loop either. -/
theorem unread_of_mixed (h : Mixed cs) : attachedFlag cs = none ∧
    separateFlag cs = none ∧ cs.all (fun c => decide (c ∈ noArgFlags)) = false := by
  have hhead := head_of_leadingFlags h.1
  have hall : cs.all (fun c => decide (c ∈ noArgFlags)) = false := by
    rw [← Bool.not_eq_true,← behindFlags_eq_nil]
    exact h.2
  exact ⟨(no_flag_of_head hhead).1,(no_flag_of_head hhead).2,hall⟩

theorem attachedFlag_cons (hc : c ∈ valueArgFlags) (hv : v ≠ []) :
    attachedFlag (c :: v) = some c := by
  have hlen : 1 < (c :: v).length := by
    have := List.length_pos_of_ne_nil hv
    simpa using this
  rw [attachedFlag,if_pos hlen]
  simp [Option.filter,hc]

theorem separateFlag_singleton (hc : c ∈ valueArgFlags) :
    attachedFlag [c] = none ∧ separateFlag [c] = some c := by
  simp [attachedFlag,separateFlag,Option.filter,hc]

theorem leadingFlags_of_not_mixed (hm : ¬Mixed cs)
    (hb : Getopt.behindFlags kind cs ≠ []) : Getopt.leadingFlags kind cs = [] ∧
      Getopt.behindFlags kind cs = cs := by
  have hl : Getopt.leadingFlags kind cs = [] := by
    by_contra hl
    exact hm ⟨hl,hb⟩
  have hcs := Getopt.leadingFlags_append_behindFlags kind cs
  rw [hl,List.nil_append] at hcs
  exact ⟨hl,hcs⟩

theorem separateFlag_of_pending {items : List (Getopt.Item Char)} (hs : ¬Getopt.Stops kind cs)
    (hm : ¬Mixed cs) (hc : Getopt.cluster kind cs = (items,some c)) :
    items = [] ∧ attachedFlag cs = none ∧ separateFlag cs = some c := by
  obtain ⟨hitems,h,hk⟩ := Getopt.cluster_some hs hc
  obtain ⟨hl,hb⟩ := leadingFlags_of_not_mixed hm (by simp [h])
  rw [hl] at hitems
  rw [hb] at h
  rw [h]
  exact ⟨hitems,separateFlag_singleton (kind_value.mp hk)⟩

end Flags

theorem foldl_flags (a : Options) (cs : Text) :
    (cs.map Getopt.Item.flag).foldl Options.report a = a := by
  induction cs with
  | nil => rfl
  | cons c cs ih => exact ih

section Loop

variable {a : Options} {w v : Text} {args ws : List Text} {c : Char}

theorem parseLoop_terminator : parseLoop a (['-','-'] :: ws) = some (a,ws.head?) := by
  cases ws <;> simp [parseLoop]

theorem parseLoop_operand (h : Getopt.IsOperand '-' w) :
    parseLoop a (w :: ws) = some (a,some w) := by
  have hw : w ≠ ['-','-'] := by
    rintro rfl
    simp [Getopt.IsOperand] at h
  cases ws <;> rw [parseLoop,if_neg hw,if_pos (Getopt.isOperand_iff.mp h)]

section Cluster

variable (hw : w ≠ ['-','-']) (ho : ¬Getopt.IsOperand '-' w)
include hw ho

theorem parseLoop_cons : parseLoop a (w :: ws) =
    match attachedFlag w.tail with
    | some first => parseLoop (consumeValue first w.tail.tail a) ws
    | none =>
      match separateFlag w.tail with
      | some flag =>
        match ws with
        | [] => none
        | next :: ws => parseLoop (consumeValue flag next a) ws
      | none =>
        if w.tail.all (fun c => decide (c ∈ noArgFlags)) then parseLoop a ws else none := by
  have ho' := fun h => ho (Getopt.isOperand_iff.mpr h)
  cases ws with
  | nil => conv_lhs => rw [parseLoop,if_neg hw,if_neg ho']
  | cons v ws => conv_lhs => rw [parseLoop,if_neg hw,if_neg ho']

/-- What the loop makes of an argument of options: the values of `getopt`, or nothing. -/
theorem parseLoop_unread (hun : Getopt.Stops kind w.tail ∨ Mixed w.tail) :
    parseLoop a (w :: ws) = none := by
  have hnot : attachedFlag w.tail = none ∧ separateFlag w.tail = none ∧
      w.tail.all (fun c => decide (c ∈ noArgFlags)) = false := by
    rcases hun with h | h
    · exact unread_of_stops h
    · exact unread_of_mixed h
  rw [parseLoop_cons hw ho]
  simp only [hnot]
  rfl

variable {items : List (Getopt.Item Char)} (hs : ¬Getopt.Stops kind w.tail)
  (hm : ¬Mixed w.tail)
include hs hm

/-- An argument with all its values is read as `getopt` reads it, unless it is mixed. -/
theorem parseLoop_cluster (hc : Getopt.cluster kind w.tail = (items,none)) :
    parseLoop a (w :: ws) = parseLoop (items.foldl Options.report a) ws := by
  rw [parseLoop_cons hw ho]
  rcases Getopt.cluster_cases kind w.tail with h | h | ⟨c,v,h,hk⟩
  · exact absurd h hs
  · have hall := behindFlags_eq_nil.mp h
    have hhead : ∀ c ∈ w.tail.head?, c ∉ valueArgFlags := by
      intro c hc
      have := List.all_eq_true.mp hall c (List.mem_of_mem_head? hc)
      exact notMem_valueArgFlags (of_decide_eq_true this)
    rw [Getopt.cluster_of_flags h] at hc
    cases hc
    simp only [no_flag_of_head hhead,hall,if_true,foldl_flags]
  · obtain ⟨hl,hb⟩ := leadingFlags_of_not_mixed hm (by simp [h])
    by_cases hv : v = []
    · subst hv
      rw [Getopt.cluster_of_value h hk] at hc
      cases hc
    · rw [Getopt.cluster_of_attached h hk hv,hl] at hc
      cases hc
      rw [hb] at h
      rw [h,attachedFlag_cons (kind_value.mp hk) hv]
      rfl

theorem parseLoop_value (hc : Getopt.cluster kind w.tail = (items,some c)) :
    parseLoop a (w :: v :: ws) =
      parseLoop ((items ++ [Getopt.Item.option c v]).foldl Options.report a) ws := by
  obtain ⟨rfl,hattached,hseparate⟩ := separateFlag_of_pending hs hm hc
  rw [parseLoop_cons hw ho,hattached,hseparate]
  rfl

theorem parseLoop_missing (hc : Getopt.cluster kind w.tail = (items,some c)) :
    parseLoop a [w] = none := by
  obtain ⟨rfl,hattached,hseparate⟩ := separateFlag_of_pending hs hm hc
  rw [parseLoop_cons hw ho,hattached,hseparate]

end Cluster

/-- Where nothing is unknown, missing or mixed the loop gives what `getopt` does. -/
theorem parseLoop_of_accepted (h : (Getopt.run '-' kind args).Accepted)
    (hm : ∀ cs ∈ Getopt.clusters '-' kind args, ¬Mixed cs) :
    parseLoop a args = some ((Getopt.run '-' kind args).items.foldl Options.report a,
      (Getopt.run '-' kind args).operands.head?) := by
  induction args using Getopt.run.induct '-' kind generalizing a with
  | case1 => rfl
  | case2 ws =>
    rw [parseLoop_terminator,Getopt.run_terminator]
    rfl
  | case3 w ws _ ho =>
    rw [parseLoop_operand ho,Getopt.run_operand ho]
    rfl
  | case4 w ws hw ho items hc ih =>
    obtain ⟨hs,hrest⟩ := (Getopt.accepted_cluster hw ho hc).mp h
    rw [Getopt.clusters_cluster hw ho hc] at hm
    rw [Getopt.run_cluster hw ho hc,parseLoop_cluster hw ho hs (hm _ List.mem_cons_self) hc,
      ih hrest (fun cs hcs => hm cs (List.mem_cons_of_mem _ hcs))]
    simp [Getopt.Outcome.after]
  | case5 w hw ho items c hc =>
    exact absurd h (Getopt.not_accepted_missing hw ho hc)
  | case6 w hw ho items c hc v ws ih =>
    obtain ⟨hs,hrest⟩ := (Getopt.accepted_value hw ho hc v).mp h
    rw [Getopt.clusters_value hw ho hc] at hm
    rw [Getopt.run_value hw ho hc,parseLoop_value hw ho hs (hm _ List.mem_cons_self) hc,
      ih hrest (fun cs hcs => hm cs (List.mem_cons_of_mem _ hcs))]
    simp [Getopt.Outcome.after]

/-- Where something is unknown, missing or mixed the loop gives nothing. -/
theorem parseLoop_of_not_accepted (h : (Getopt.run '-' kind args).Accepted →
    ∃ cs ∈ Getopt.clusters '-' kind args, Mixed cs) : parseLoop a args = none := by
  induction args using Getopt.run.induct '-' kind generalizing a with
  | case1 =>
    obtain ⟨cs,hcs,-⟩ := h Getopt.accepted_nil
    cases hcs
  | case2 ws =>
    rw [Getopt.clusters_terminator] at h
    obtain ⟨cs,hcs,-⟩ := h Getopt.accepted_terminator
    cases hcs
  | case3 w ws _ ho =>
    rw [Getopt.clusters_operand ho] at h
    obtain ⟨cs,hcs,-⟩ := h (Getopt.accepted_operand ho)
    cases hcs
  | case4 w ws hw ho items hc ih =>
    rw [Getopt.clusters_cluster hw ho hc] at h
    by_cases hs : Getopt.Stops kind w.tail
    · exact parseLoop_unread hw ho (.inl hs)
    · by_cases hm : Mixed w.tail
      · exact parseLoop_unread hw ho (.inr hm)
      · rw [parseLoop_cluster hw ho hs hm hc]
        refine ih fun hacc => ?_
        obtain ⟨cs,hcs,hmixed⟩ := h ((Getopt.accepted_cluster hw ho hc).mpr ⟨hs,hacc⟩)
        rcases List.mem_cons.mp hcs with rfl | hcs
        · exact absurd hmixed hm
        · exact ⟨cs,hcs,hmixed⟩
  | case5 w hw ho items c hc =>
    by_cases hs : Getopt.Stops kind w.tail
    · exact parseLoop_unread hw ho (.inl hs)
    · by_cases hm : Mixed w.tail
      · exact parseLoop_unread hw ho (.inr hm)
      · exact parseLoop_missing hw ho hs hm hc
  | case6 w hw ho items c hc v ws ih =>
    rw [Getopt.clusters_value hw ho hc] at h
    by_cases hs : Getopt.Stops kind w.tail
    · exact parseLoop_unread hw ho (.inl hs)
    · by_cases hm : Mixed w.tail
      · exact parseLoop_unread hw ho (.inr hm)
      · rw [parseLoop_value hw ho hs hm hc]
        refine ih fun hacc => ?_
        obtain ⟨cs,hcs,hmixed⟩ := h ((Getopt.accepted_value hw ho hc v).mpr ⟨hs,hacc⟩)
        rcases List.mem_cons.mp hcs with rfl | hcs
        · exact absurd hmixed hm
        · exact ⟨cs,hcs,hmixed⟩

/-- Something, without white space around it. -/
def Tidy (v : Text) : Prop := trim v = v ∧ v ≠ []

/-- Keys of `-o` that stand for other options. -/
def ownKeys : List Text := ["port","identityfile","user"].map String.toList

/-- Values that the loop keeps as they are: the last number given as a port is given last, each
`-o` is one that `scp` can use, and a login name stands with a destination without one. -/
structure Kept (o : Getopt.Outcome Char) : Prop where
  options : ∀ v ∈ o.values 'o', Tidy v ∧ sshOptionKey v ∉ ownKeys ++ filteredOptionKeys
  port : (∀ v ∈ o.values 'p', parseUnsigned 65536 (trim v) = none) ∨
    ∀ v ∈ (o.values 'p').getLast?, parseUnsigned 65536 v ≠ none
  identity : ∀ v ∈ (o.values 'i').getLast?, Tidy v
  login : ∀ v ∈ (o.values 'l').getLast?, Tidy v
  destination : ∀ d ∈ o.operands.head?, Tidy d ∧ ('@' ∈ d → o.values 'l' = [])

section Values

variable {a : Options} {v w d : Text} {l : List Text}

theorem tight_of_digits {n : ℕ} (h : digits v = some n) : Tight v :=
  fun c hc => isWhitespace_of_isDigit ((of_digits h).2 c hc)

theorem tight_of_parseUnsigned {bound n : ℕ} (h : parseUnsigned bound v = some n) : Tight v := by
  unfold parseUnsigned at h
  split at h
  · rename_i s
    intro c hc
    rcases List.mem_cons.mp hc with rfl | hc
    · rfl
    · exact tight_of_digits (Option.filter_eq_some_iff.mp h).1 c hc
  · exact tight_of_digits (Option.filter_eq_some_iff.mp h).1

/-- What is left of a value of `-o`. -/
def keptOption (v : Text) : Option Text :=
  if trim v = [] ∨ sshOptionKey (trim v) ∈ ownKeys ++ filteredOptionKeys then none
  else some (trim v)

theorem keptOption_eq_self : keptOption v = some v ↔
    Tidy v ∧ sshOptionKey v ∉ ownKeys ++ filteredOptionKeys := by
  unfold keptOption Tidy
  by_cases ht : trim v = v
  · simp only [ht,true_and]
    split_ifs with h
    · exact iff_of_false (by simp) (by tauto)
    · exact iff_of_true rfl (by tauto)
  · simp only [ht,false_and,iff_false]
    split_ifs
    · simp
    · simpa using ht

theorem setPort_eq (value : Text) (a : Options) :
    setPort a value = { a with port := (parseUnsigned 65536 value).or a.port } := by
  unfold setPort
  cases parseUnsigned 65536 value <;> rfl

theorem consumeSshOption_of_kept (h : keptOption v = some w) (a : Options) :
    consumeSshOption (trim v) a = { a with sshOptions := a.sshOptions ++ [w] } := by
  obtain ⟨hn,hw⟩ := Option.ite_none_left_eq_some.mp h
  obtain ⟨hnil,hkey⟩ := not_or.mp hn
  simp only [ownKeys,List.mem_append,List.map_cons,List.map_nil,List.mem_cons,List.not_mem_nil,
    or_false,not_or] at hkey
  obtain ⟨⟨hp,hi,hu⟩,hf⟩ := hkey
  rw [consumeSshOption,trim_trim,if_neg hnil,if_neg hp,if_neg hi,if_neg hu,if_neg hf]
  rw [Option.some.inj hw]

theorem sshOptions_consumeSshOption (v : Text) (a : Options) :
    (consumeSshOption (trim v) a).sshOptions = a.sshOptions ++ (keptOption v).toList := by
  cases hk : keptOption v with
  | some w => rw [consumeSshOption_of_kept hk]; rfl
  | none =>
    have hv : trim v = [] ∨ sshOptionKey (trim v) ∈ ownKeys ++ filteredOptionKeys := by
      by_contra hn
      rw [keptOption,if_neg hn] at hk
      cases hk
    rw [Option.toList_none,List.append_nil,consumeSshOption,trim_trim]
    dsimp only
    split_ifs with h₁ h₂ h₃ h₄ h₅
    · rfl
    · cases sshOptionValue (trim v) with
      | none => rfl
      | some w => rw [Option.map_some,Option.getD_some,setPort_eq]
    · cases sshOptionValue (trim v) <;> rfl
    · cases sshOptionValue (trim v) <;> rfl
    · rfl
    · refine absurd hv (not_or.mpr ⟨h₁,?_⟩)
      simp only [ownKeys,List.mem_append,List.map_cons,List.map_nil,List.mem_cons,
        List.not_mem_nil,or_false,not_or]
      exact ⟨⟨h₂,h₃,h₄⟩,h₅⟩

theorem consumeValue_p (v : Text) (a : Options) : consumeValue 'p' v a =
    { a with port := (parseUnsigned 65536 (trim v)).or a.port } := by
  by_cases h : trim v = []
  · simp only [consumeValue,h,if_true]
    rfl
  · simp only [consumeValue,h,if_false,if_true,setPort_eq]

theorem consumeValue_i (v : Text) (a : Options) : consumeValue 'i' v a =
    { a with identityFile := (nonEmpty (trim v)).or a.identityFile } := by
  by_cases h : trim v = [] <;> simp [consumeValue,nonEmpty,h]

theorem consumeValue_l (v : Text) (a : Options) : consumeValue 'l' v a =
    { a with loginName := (nonEmpty (trim v)).or a.loginName } := by
  by_cases h : trim v = [] <;> simp [consumeValue,nonEmpty,h]

theorem consumeValue_o (v : Text) (a : Options) :
    consumeValue 'o' v a = consumeSshOption (trim v) a := by
  unfold consumeValue
  dsimp only
  by_cases h : trim v = []
  · rw [if_pos h,consumeSshOption,trim_trim,if_pos h]
  · rw [if_neg h,if_neg (by decide),if_neg (by decide),if_neg (by decide),if_pos rfl]

theorem consumeValue_other {c : Char} (hp : c ≠ 'p') (hi : c ≠ 'i') (hl : c ≠ 'l')
    (ho : c ≠ 'o') (v : Text) (a : Options) : consumeValue c v a = a := by
  simp [consumeValue,hp,hi,hl,ho]

theorem report_of_kept {i : Getopt.Item Char} (h : ∀ v, i.value? 'o' = some v →
    keptOption v = some v) (a : Options) :
    (a.report i).port =
        ((i.value? 'p').bind (fun v => parseUnsigned 65536 (trim v))).or a.port ∧
      (a.report i).identityFile =
        ((i.value? 'i').bind (fun v => nonEmpty (trim v))).or a.identityFile ∧
      (a.report i).loginName =
        ((i.value? 'l').bind (fun v => nonEmpty (trim v))).or a.loginName := by
  cases i with
  | option c v =>
    rw [Options.report]
    by_cases hp : c = 'p'
    · subst hp
      rw [consumeValue_p]
      exact ⟨rfl,rfl,rfl⟩
    by_cases hi : c = 'i'
    · subst hi
      rw [consumeValue_i]
      exact ⟨rfl,rfl,rfl⟩
    by_cases hl : c = 'l'
    · subst hl
      rw [consumeValue_l]
      exact ⟨rfl,rfl,rfl⟩
    have hnone : ∀ d, c ≠ d → Getopt.Item.value? d (.option c v) = none := fun d hd => if_neg hd
    rw [hnone _ hp,hnone _ hi,hnone _ hl]
    by_cases ho : c = 'o'
    · subst ho
      rw [consumeValue_o,consumeSshOption_of_kept (h v rfl)]
      exact ⟨rfl,rfl,rfl⟩
    · rw [consumeValue_other hp hi hl ho]
      exact ⟨rfl,rfl,rfl⟩
  | flag | unknown | missing => exact ⟨rfl,rfl,rfl⟩

theorem sshOptions_report (a : Options) (i : Getopt.Item Char) :
    (a.report i).sshOptions = a.sshOptions ++ ((i.value? 'o').bind keptOption).toList := by
  cases i with
  | option c v =>
    rw [Options.report]
    by_cases ho : c = 'o'
    · subst ho
      rw [consumeValue_o,sshOptions_consumeSshOption]
      rfl
    · have hnone : Getopt.Item.value? 'o' (.option c v) = none := if_neg ho
      rw [hnone,Option.bind_none,Option.toList_none,List.append_nil]
      by_cases hp : c = 'p'
      · rw [hp,consumeValue_p]
      by_cases hi : c = 'i'
      · rw [hi,consumeValue_i]
      by_cases hl : c = 'l'
      · rw [hl,consumeValue_l]
      · rw [consumeValue_other hp hi hl ho]
  | flag | unknown | missing => exact (List.append_nil _).symm

end Values

section Report

variable {o : Getopt.Outcome Char}

theorem sshOptions_foldl (a : Options) (items : List (Getopt.Item Char)) :
    (items.foldl Options.report a).sshOptions = a.sshOptions ++
      (items.filterMap (Getopt.Item.value? 'o')).filterMap keptOption := by
  induction items generalizing a with
  | nil => exact (List.append_nil _).symm
  | cons i items ih =>
    rw [List.foldl_cons,ih,sshOptions_report,List.append_assoc]
    cases hi : i.value? 'o' with
    | none => rw [List.filterMap_cons_none hi]; rfl
    | some v =>
      rw [List.filterMap_cons_some hi,Option.bind_some]
      cases hk : keptOption v with
      | none => rw [List.filterMap_cons_none hk]; rfl
      | some w => rw [List.filterMap_cons_some hk]; rfl

theorem filterMap_eq_self {f : Text → Option Text} {l : List Text} :
    l.filterMap f = l ↔ ∀ v ∈ l, f v = some v := by
  induction l with
  | nil => simp
  | cons v l ih =>
    rw [List.forall_mem_cons,← ih]
    cases hv : f v with
    | none =>
      rw [List.filterMap_cons_none hv]
      refine iff_of_false (fun h => ?_) (fun h => by cases h.1)
      have hle := List.length_filterMap_le f l
      rw [h,List.length_cons] at hle
      omega
    | some w => rw [List.filterMap_cons_some hv,List.cons.injEq,Option.some.injEq]

/-- The `-o` values are what is kept of them if and only if all are kept. -/
theorem sshOptions_iff : (o.items.foldl Options.report .none).sshOptions = o.values 'o' ↔
    ∀ v ∈ o.values 'o', Tidy v ∧ sshOptionKey v ∉ ownKeys ++ filteredOptionKeys := by
  rw [sshOptions_foldl]
  refine Iff.trans ?_ (forall₂_congr fun v _ => keptOption_eq_self)
  exact filterMap_eq_self

theorem foldl_of_kept (h : ∀ v ∈ o.values 'o', keptOption v = some v) :
    (o.items.foldl Options.report .none).port =
        ((o.values 'p').filterMap (fun v => parseUnsigned 65536 (trim v))).getLast? ∧
      (o.items.foldl Options.report .none).identityFile =
        ((o.values 'i').filterMap (fun v => nonEmpty (trim v))).getLast? ∧
      (o.items.foldl Options.report .none).loginName =
        ((o.values 'l').filterMap (fun v => nonEmpty (trim v))).getLast? := by
  have hk : ∀ i ∈ o.items, ∀ v, i.value? 'o' = some v → keptOption v = some v :=
    fun i hi v hv => h v (List.mem_filterMap.mpr ⟨i,hi,hv⟩)
  simp only [Getopt.Outcome.values,List.filterMap_filterMap]
  refine ⟨?_,?_,?_⟩
  · rw [Getopt.foldl_last Options.port _ Options.report
      (fun i hi a => (report_of_kept (hk i hi) a).1) .none,Options.none,Option.or_none]
  · rw [Getopt.foldl_last Options.identityFile _ Options.report
      (fun i hi a => (report_of_kept (hk i hi) a).2.1) .none,Options.none,Option.or_none]
  · rw [Getopt.foldl_last Options.loginName _ Options.report
      (fun i hi a => (report_of_kept (hk i hi) a).2.2) .none,Options.none,Option.or_none]

/-- The last value that is something is the last one as it is if and only if that is tidy. -/
theorem last_iff (l : List Text) :
    (l.filterMap (fun v => nonEmpty (trim v))).getLast? = l.getLast? ↔
      ∀ v ∈ l.getLast?, Tidy v := by
  rcases l.eq_nil_or_concat' with rfl | ⟨l,v,rfl⟩
  · simp
  rw [List.filterMap_append,List.getLast?_append,List.getLast?_concat]
  by_cases hv : trim v = []
  · have hno : [v].filterMap (fun v => nonEmpty (trim v)) = [] := by simp [nonEmpty,hv]
    rw [hno,List.getLast?_nil,Option.none_or]
    refine iff_of_false (fun h => ?_) (fun h => ?_)
    · obtain ⟨u,-,hu⟩ := List.mem_filterMap.mp (List.mem_of_getLast? h)
      obtain ⟨hne,hu⟩ := Option.ite_none_left_eq_some.mp hu
      cases Option.some.inj hu
      rw [trim_trim] at hv
      exact hne hv
    · obtain ⟨ht,hne⟩ := h v rfl
      exact hne (ht.symm.trans hv)
  · have hyes : [v].filterMap (fun v => nonEmpty (trim v)) = [trim v] := by simp [nonEmpty,hv]
    rw [hyes,List.getLast?_singleton,Option.some_or,Option.some.injEq]
    constructor
    · rintro h w hw
      cases hw
      exact ⟨h,h ▸ hv⟩
    · exact fun h => (h v rfl).1

theorem lastPort_iff (l : List Text) :
    (l.filterMap (fun v => parseUnsigned 65536 (trim v))).getLast? =
        l.getLast?.bind (parseUnsigned 65536) ↔
      (∀ v ∈ l, parseUnsigned 65536 (trim v) = none) ∨
        ∀ v ∈ l.getLast?, parseUnsigned 65536 v ≠ none := by
  rcases l.eq_nil_or_concat' with rfl | ⟨l,v,rfl⟩
  · simp
  have htrim : ∀ n, parseUnsigned 65536 v = some n → parseUnsigned 65536 (trim v) = some n :=
    fun n hn => by rw [trim_of_word (tight_of_parseUnsigned hn),hn]
  rw [List.filterMap_append,List.getLast?_append,List.getLast?_concat,Option.bind_some]
  cases hv : parseUnsigned 65536 (trim v) with
  | some n =>
    have hyes : [v].filterMap (fun v => parseUnsigned 65536 (trim v)) = [n] := by simp [hv]
    rw [hyes,List.getLast?_singleton,Option.some_or]
    have hnot : ¬ ∀ w ∈ l ++ [v], parseUnsigned 65536 (trim w) = none := fun h => by
      rw [h v (List.mem_append_right _ (List.mem_singleton_self _))] at hv
      cases hv
    simp only [hnot,false_or,Option.mem_def,Option.some.injEq,forall_eq']
    cases hp : parseUnsigned 65536 v with
    | none => simp
    | some m =>
      have := (htrim m hp).symm.trans hv
      simpa using this.symm
  | none =>
    have hno : [v].filterMap (fun v => parseUnsigned 65536 (trim v)) = [] := by simp [hv]
    have hp : parseUnsigned 65536 v = none := by
      cases hp : parseUnsigned 65536 v with
      | none => rfl
      | some m => rw [htrim m hp] at hv; cases hv
    rw [hno,List.getLast?_nil,Option.none_or,hp,List.getLast?_eq_none_iff,
      List.filterMap_eq_nil_iff]
    simp only [List.mem_append,List.mem_singleton,Option.mem_def,Option.some.injEq,forall_eq',hp,
      ne_eq,not_true_eq_false,or_false]
    constructor
    · rintro h w (hw | rfl)
      · exact h w hw
      · exact hv
    · exact fun h w hw => h w (.inl hw)

/-- The destination is the operand with the last login name, if neither needs trimming and the
operand brings no name of its own. -/
theorem resolveDestination_iff (logins : List Text) (d : Text) :
    (resolveDestination d (logins.filterMap (fun v => nonEmpty (trim v))).getLast? ≠ [] ∧
      resolveDestination d (logins.filterMap (fun v => nonEmpty (trim v))).getLast? =
        withLogin logins.getLast? d) ↔
      (∀ v ∈ logins.getLast?, Tidy v) ∧ Tidy d ∧ ('@' ∈ d → logins = []) := by
  rw [← last_iff]
  unfold resolveDestination
  dsimp only
  by_cases hd : trim d = []
  · rw [if_pos hd]
    exact iff_of_false (fun h => h.1 rfl) (fun h => h.2.1.2 (h.2.1.1.symm.trans hd))
  rw [if_neg hd]
  have hat : '@' ∈ trim d ↔ '@' ∈ d := mem_trim (by decide)
  have hlong : ∀ login : Text, trim d ≠ login ++ ['@'] ++ d := by
    intro login h
    have hle := length_trim_le d
    rw [h] at hle
    simp only [List.length_append,List.length_cons,List.length_nil] at hle
    omega
  rcases logins.eq_nil_or_concat' with rfl | ⟨logins,login,rfl⟩
  · simp only [List.filterMap_nil,List.getLast?_nil,withLogin,Tidy]
    constructor
    · exact fun h => ⟨trivial,⟨h.2,h.2 ▸ hd⟩,fun _ => trivial⟩
    · exact fun h => ⟨hd,h.2.1.1⟩
  have hne : logins ++ [login] ≠ [] := by simp
  rw [List.getLast?_concat]
  cases hl : ((logins ++ [login]).filterMap (fun v => nonEmpty (trim v))).getLast? with
  | none => exact iff_of_false (fun h => hlong login h.2) (fun h => by cases h.1)
  | some l =>
    obtain ⟨u,-,hu⟩ := List.mem_filterMap.mp (List.mem_of_getLast? hl)
    obtain ⟨hnil,hu⟩ := Option.ite_none_left_eq_some.mp hu
    cases Option.some.inj hu
    dsimp only
    rw [trim_trim]
    by_cases hin : '@' ∈ d
    · rw [if_neg (fun h => h.2 (hat.mpr hin))]
      exact iff_of_false (fun h => hlong login h.2) (fun h => hne (h.2.2 hin))
    · rw [if_pos ⟨hnil,fun h => hin (hat.mp h)⟩]
      constructor
      · rintro ⟨-,h⟩
        rw [withLogin,List.append_assoc,List.append_assoc] at h
        obtain ⟨h₁,h₂⟩ := append_cons_inj_last (fun h => hin (hat.mp h)) hin h
        exact ⟨congrArg some h₁,⟨h₂,h₂ ▸ hd⟩,fun h => absurd h hin⟩
      · rintro ⟨h₁,h₂,-⟩
        rw [Option.some.inj h₁,h₂.1]
        exact ⟨by simp,rfl⟩

end Report
/-- The session of the loop's values is that of `getopt`'s if they are kept, and only then. -/
theorem session_iff {o : Getopt.Outcome Char} {d : Text} (hd : o.operands.head? = some d) :
    session (o.items.foldl Options.report .none) (some d) =
        some ⟨withLogin (o.values 'l').getLast? d,
          (o.values 'p').getLast?.bind (parseUnsigned 65536),(o.values 'i').getLast?,
          o.values 'o'⟩ ↔ Kept o := by
  simp only [session]
  constructor
  · intro h
    obtain ⟨hne,h⟩ := Option.ite_none_left_eq_some.mp h
    simp only [Option.some.injEq,DetectedSSHSession.mk.injEq] at h
    obtain ⟨hdest,hport,hid,hopt⟩ := h
    have hkept := sshOptions_iff.mp hopt
    obtain ⟨hp,hi,hl⟩ := foldl_of_kept (fun v hv => keptOption_eq_self.mpr (hkept v hv))
    rw [hl] at hne hdest
    obtain ⟨hlogin,hdest⟩ := (resolveDestination_iff _ _).mp ⟨hne,hdest⟩
    refine ⟨hkept,(lastPort_iff _).mp (hp.symm.trans hport),(last_iff _).mp (hi.symm.trans hid),
      hlogin,fun d' hd' => ?_⟩
    cases hd.symm.trans hd'
    exact hdest
  · intro h
    have hopt := sshOptions_iff.mpr h.options
    obtain ⟨hp,hi,hl⟩ := foldl_of_kept (fun v hv => keptOption_eq_self.mpr (h.options v hv))
    obtain ⟨hne,hdest⟩ := (resolveDestination_iff _ _).mpr ⟨h.login,h.destination d hd⟩
    rw [hl,if_neg hne,hdest,hp,hi,hopt,(lastPort_iff _).mpr h.port,(last_iff _).mpr h.identity]

/-- The command line is read as `getopt` reads it, unless `getopt` finds a session and an
argument is mixed or a value is not kept. -/
theorem parseSshCommandLine_iff (args : List Text) :
    parseSshCommandLine args = getoptSession args ↔
      getoptSession args = none ∨ ¬HasMixed args ∧ Kept (getopt args) := by
  by_cases hacc : (getopt args).Accepted
  · by_cases hm : HasMixed args
    · have hnone : parseSshCommandLine args = none := by
        rw [parseSshCommandLine,parseLoop_of_not_accepted (fun _ => hm)]
      rw [hnone]
      exact ⟨fun h => .inl h.symm,fun h => (h.resolve_right (fun h => h.1 hm)).symm⟩
    · have hparse : parseSshCommandLine args =
          session ((getopt args).items.foldl Options.report .none) (getopt args).operands.head? := by
        rw [parseSshCommandLine,parseLoop_of_accepted (a := .none) hacc
          (fun cs hcs hmixed => hm ⟨cs,hcs,hmixed⟩)]
        rfl
      rw [hparse]
      unfold getoptSession
      dsimp only
      rw [if_pos hacc]
      cases hd : (getopt args).operands.head? with
      | none => simp [session]
      | some d =>
        rw [Option.map_some,session_iff hd]
        simp [hm]
  · have hnone : getoptSession args = none := if_neg hacc
    rw [parseSshCommandLine,parseLoop_of_not_accepted (fun h => absurd h hacc),hnone]
    simp

/-- `ssh -vp 22 host`: there is a session on port 22, and the loop finds none. -/
theorem mixed_cluster_lost :
    getoptSession (["ssh","-vp","22","host"].map String.toList) =
      some ⟨"host".toList,some 22,none,[]⟩ ∧
    parseSshCommandLine (["ssh","-vp","22","host"].map String.toList) = none :=
  ⟨by decide,by decide +kernel⟩

end Loop

end Limux.Ssh
