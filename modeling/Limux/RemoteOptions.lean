import Limux.RemoteArgs
import Limux.Lib.OpenSsh

/-! Host key checking on the command lines of `ssh` and `scp`: the default of the program comes
first, so it wins unless it is left out. -/
namespace Limux

open OpenSsh

namespace RemoteConfiguration

/-- The functions that build a list of arguments. -/
inductive Builder
  | interactive | batch | upload (localPath tempScp : String) | scp

def Builder.args (c : RemoteConfiguration) : Builder → List String
  | interactive => c.sshInteractiveArgs
  | batch => c.sshBatchArgs
  | upload localPath tempScp => c.uploadDaemonArgs localPath tempScp
  | scp => c.scpBaseArgs

def hostKeyOption : Text := "StrictHostKeyChecking".toList

def acceptNew : Text := "accept-new".toList

/-- What the user says about host keys. -/
def userValue (c : RemoteConfiguration) : Option Text :=
  firstValue hostKeyOption (c.sshOptions.map String.toList)

/-- The user says it letter for letter as the program looks for it. -/
def Literal (c : RemoteConfiguration) : Prop :=
  ∃ o ∈ c.sshOptions, (hostKeyOption ++ ['=']) <+: o.toList

/-- The user has not set host key checking, or to the default; all but `scp_base_args` also see
it set letter for letter. -/
def Builder.Obeys (c : RemoteConfiguration) : Builder → Prop
  | scp => c.userValue = none ∨ c.userValue = some acceptNew
  | _ => c.Literal ∨ c.userValue = none ∨ c.userValue = some acceptNew

/-! The options on each command line. -/

theorem optionValues_connection (flag : String) (h : takesValue flag.toList = true)
    (ho : flag.toList ≠ "-o".toList) (c : RemoteConfiguration) (tail : List Text) :
    optionValues ((connectionArgs flag c).map String.toList ++ tail) =
      c.sshOptions.map String.toList ++ optionValues tail := by
  have hopts : (c.sshOptions.flatMap (fun opt => ["-o",opt])).map String.toList =
      (c.sshOptions.map String.toList).flatMap (fun o => ["-o".toList,o]) := by
    rw [List.map_flatMap,List.flatMap_map]
    rfl
  have hid : ∀ args, optionValues
      ((c.identityFile.toList.flatMap (fun identity => ["-i",identity])).map String.toList ++
        args) = optionValues args := by
    intro args
    cases c.identityFile with
    | none => rfl
    | some identity => exact optionValues_flag rfl (by decide) _ _
  unfold connectionArgs
  rw [List.map_append,List.map_append,hopts,List.append_assoc,List.append_assoc]
  cases c.port with
  | none => exact (hid _).trans (optionValues_options _ _)
  | some p =>
    refine (optionValues_flag h ho _ _).trans ?_
    exact (hid _).trans (optionValues_options _ _)

/-- The host key option the program adds. -/
def added (c : RemoteConfiguration) : Option Text :=
  if c.hasSshOption "StrictHostKeyChecking" then none else some acceptNew

theorem effective_default (c : RemoteConfiguration) (args : List Text) :
    effective hostKeyOption (c.hostKeyDefault.map String.toList ++ args) =
      c.added.or (effective hostKeyOption args) := by
  unfold hostKeyDefault added
  cases c.hasSshOption "StrictHostKeyChecking" with
  | true => rfl
  | false => rfl

/-- An option that says nothing about host keys. -/
theorem effective_other {o : Text} (h : valueFor hostKeyOption o = none) (args : List Text) :
    effective hostKeyOption ("-o".toList :: o :: args) = effective hostKeyOption args := by
  rw [effective,optionValues_option,firstValue_cons,h]
  rfl

theorem effective_connection (flag : String) (h : takesValue flag.toList = true)
    (ho : flag.toList ≠ "-o".toList) (c : RemoteConfiguration) (tail : List Text) :
    effective hostKeyOption ((connectionArgs flag c).map String.toList ++ tail) =
      c.userValue.or (effective hostKeyOption tail) := by
  rw [effective,optionValues_connection flag h ho,firstValue_append]
  rfl

theorem effective_interactive (c : RemoteConfiguration) :
    effective hostKeyOption (c.sshInteractiveArgs.map String.toList) = c.added.or c.userValue := by
  have hc := effective_connection "-p" rfl (by decide) c []
  rw [List.append_nil] at hc
  unfold sshInteractiveArgs appendConnectionArgs
  rw [List.map_append,List.map_append,List.append_assoc]
  refine (effective_other (by decide) _).trans ((effective_other (by decide) _).trans ?_)
  refine (effective_default c _).trans ?_
  rw [hc]
  exact congrArg _ (Option.or_none)

theorem effective_batch (c : RemoteConfiguration) :
    effective hostKeyOption (c.sshBatchArgs.map String.toList) = c.added.or c.userValue := by
  have hc := effective_connection "-p" rfl (by decide) c []
  rw [List.append_nil] at hc
  unfold sshBatchArgs appendConnectionArgs
  rw [List.map_append,List.map_append,List.map_append,List.append_assoc,List.append_assoc]
  refine (effective_other (by decide) _).trans ((effective_other (by decide) _).trans
    ((effective_other (by decide) _).trans ((effective_default c _).trans ?_)))
  refine congrArg _ ((effective_other (by decide) _).trans ((effective_other (by decide) _).trans ?_))
  exact hc.trans Option.or_none

theorem effective_quiet (v : Text) (args : List Text) :
    effective hostKeyOption ("-q".toList :: v :: args) = effective hostKeyOption (v :: args) := rfl

theorem effective_upload (c : RemoteConfiguration) (localPath tempScp : String) :
    effective hostKeyOption ((c.uploadDaemonArgs localPath tempScp).map String.toList) =
      c.added.or (c.userValue.or (effective hostKeyOption
        [localPath.toList,(c.destination ++ ":" ++ tempScp).toList])) := by
  have hc := effective_connection "-P" rfl (by decide) c
    [localPath.toList,(c.destination ++ ":" ++ tempScp).toList]
  have hquiet : ∀ args, effective hostKeyOption
      ("-q".toList :: (c.hostKeyDefault.map String.toList ++ "-o".toList :: args)) =
        effective hostKeyOption (c.hostKeyDefault.map String.toList ++ "-o".toList :: args) := by
    intro args
    unfold hostKeyDefault
    split
    · exact effective_quiet _ _
    · exact effective_quiet _ _
  unfold uploadDaemonArgs
  rw [List.map_append,List.map_append,List.map_append,List.map_append,List.append_assoc,
    List.append_assoc,List.append_assoc]
  refine (hquiet _).trans ((effective_default c _).trans ?_)
  exact congrArg _ ((effective_other (by decide) _).trans hc)

theorem effective_scp (c : RemoteConfiguration) :
    effective hostKeyOption (c.scpBaseArgs.map String.toList) = some acceptNew := by
  unfold scpBaseArgs
  rw [List.map_append]
  exact (effective_other (by decide) _).trans rfl

/-! What the program sees of the user's options. -/

theorem keyword_literal {o : Text} (h : hostKeyOption <+: o)
    (he : o.length = hostKeyOption.length ∨ o[hostKeyOption.length]? = some '=') :
    keyword o = lower hostKeyOption := by
  obtain ⟨r,rfl⟩ := h
  cases r with
  | nil => decide
  | cons d r =>
    obtain he | he := he
    · simp at he
    · have hd : d = '=' := by simpa using he
      subst hd
      have hw : ((hostKeyOption ++ '=' :: r).dropWhile isBlank).takeWhile
          (fun c => !endsKeyword c) = hostKeyOption := by
        rfl
      rw [keyword,hw]

theorem prefix_equals_iff (o : Text) : (hostKeyOption ++ ['=']) <+: o ↔
    hostKeyOption <+: o ∧ o[hostKeyOption.length]? = some '=' := by
  constructor
  · rintro ⟨r,rfl⟩
    refine ⟨(List.prefix_append _ _).trans (List.prefix_append _ _),?_⟩
    rw [List.append_assoc,List.getElem?_append_right le_rfl,Nat.sub_self]
    rfl
  · rintro ⟨⟨r,rfl⟩,he⟩
    rw [List.getElem?_append_right le_rfl,Nat.sub_self] at he
    obtain ⟨r,rfl⟩ := List.head?_eq_some_iff.mp (List.head?_eq_getElem? ▸ he)
    exact ⟨r,List.append_assoc _ _ _⟩

/-- With accepted options, the program sees host key checking set if it is set literally. -/
theorem hasSshOption_iff {c : RemoteConfiguration} (h : ∀ o ∈ c.sshOptions, Accepted o.toList) :
    c.hasSshOption "StrictHostKeyChecking" = true ↔ c.Literal := by
  rw [hasSshOption,List.any_eq_true]
  refine exists_congr (fun o => and_congr_right (fun ho => ?_))
  rw [prefix_equals_iff,Bool.and_eq_true,List.isPrefixOf_iff_prefix,Bool.or_eq_true,
    decide_eq_true_eq,decide_eq_true_eq]
  refine and_congr_right (fun hp => or_iff_right (fun hlen => ?_))
  -- the keyword alone has no value
  have he : hostKeyOption = o.toList := hp.eq_of_length hlen.symm
  exact (h o ho).2 (he ▸ rfl)

theorem userValue_of_literal {c : RemoteConfiguration} (h : c.Literal) :
    ∃ v, c.userValue = some v := by
  obtain ⟨o,ho,hp⟩ := h
  obtain ⟨hp,he⟩ := (prefix_equals_iff _).mp hp
  apply Option.isSome_iff_exists.mp
  apply List.findSome?_isSome_iff.mpr
  refine ⟨o.toList,List.mem_map_of_mem ho,?_⟩
  rw [valueFor,if_pos (keyword_literal hp (.inr he))]
  rfl

theorem default_is_user_iff (c : RemoteConfiguration) : acceptNew = c.userValue.getD acceptNew ↔
    c.userValue = none ∨ c.userValue = some acceptNew := by
  cases c.userValue with
  | none => simp
  | some v => simp [eq_comm]

/-- The builders that leave out the default when they see the option. -/
theorem guarded_effective_iff {c : RemoteConfiguration}
    (h : ∀ o ∈ c.sshOptions, Accepted o.toList) (more : Option Text) :
    c.added.or (c.userValue.or more) = some (c.userValue.getD acceptNew) ↔
      c.Literal ∨ c.userValue = none ∨ c.userValue = some acceptNew := by
  unfold added
  by_cases hl : c.Literal
  · obtain ⟨v,hv⟩ := userValue_of_literal hl
    rw [if_pos ((hasSshOption_iff h).mpr hl),hv]
    exact ⟨fun _ => .inl hl,fun _ => rfl⟩
  · rw [if_neg (fun hs => hl ((hasSshOption_iff h).mp hs)),← default_is_user_iff]
    simp [hl]

/-- The user's value for host key checking is in effect, or the default if there is none. -/
theorem hostKey_effective_iff (c : RemoteConfiguration)
    (h : ∀ o ∈ c.sshOptions, Accepted o.toList) (b : Builder) :
    effective hostKeyOption ((b.args c).map String.toList) =
      some (c.userValue.getD acceptNew) ↔ b.Obeys c := by
  cases b with
  | interactive =>
    have hg := guarded_effective_iff h none
    rw [Option.or_none] at hg
    rw [Builder.args,effective_interactive]
    exact hg
  | batch =>
    have hg := guarded_effective_iff h none
    rw [Option.or_none] at hg
    rw [Builder.args,effective_batch]
    exact hg
  | upload localPath tempScp =>
    rw [Builder.args,effective_upload]
    exact guarded_effective_iff h _
  | scp =>
    rw [Builder.args,effective_scp,Option.some_inj]
    exact default_is_user_iff c

def withOptions (sshOptions : List String) : RemoteConfiguration :=
  ⟨"gate",none,none,sshOptions,none,none,none,none,none⟩

/-- The option spelled as the program looks for it reaches `ssh`. -/
theorem hostKey_effective_literal :
    effective hostKeyOption
      ((Builder.interactive.args (withOptions ["StrictHostKeyChecking=yes"])).map String.toList) =
        some ((withOptions ["StrictHostKeyChecking=yes"]).userValue.getD acceptNew) :=
  (hostKey_effective_iff (withOptions ["StrictHostKeyChecking=yes"]) (by decide) .interactive).mpr
    (.inl ⟨_,List.mem_cons_self,by decide⟩)

/-- A blank instead of `=`, or a small letter, and the default comes before the user's value; for
`scp_base_args` it always does. -/
theorem user_option_overruled :
    (∀ o ∈ ["StrictHostKeyChecking yes","stricthostkeychecking=yes"],
      Accepted o.toList ∧ (withOptions [o]).userValue = some "yes".toList ∧
      effective hostKeyOption ((Builder.interactive.args (withOptions [o])).map String.toList) =
        some acceptNew) ∧
    effective hostKeyOption
      ((Builder.scp.args (withOptions ["StrictHostKeyChecking=yes"])).map String.toList) =
        some acceptNew := by
  decide +kernel

end RemoteConfiguration

end Limux
