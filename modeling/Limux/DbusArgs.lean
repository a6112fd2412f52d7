import Limux.CommandSpec
import Limux.DbusAlike

/-! The arguments of a method in the text of a socket command, and which of them both front
ends understand alike. -/
namespace Limux

open Text

namespace Dbus

variable {F : Type}

/-- What an option gives: no value is written as `absent` on the bus. -/
def Given {α : Type} (absent : α) (parse : Text → Option α) : Option Text → α → Prop
  | none, a => a = absent
  | some v, a => parse v = some a

/-- A `u32`. -/
def number : Text → Option ℕ := parseUnsigned (2^32)

def optionValues (k : String) (args : Text) : List Text :=
  (words args).filterMap (optionValue k.toList)

namespace Method

/-- The text of the socket command's arguments gives the method's arguments: the same
words, numbers and options, with the bus's texts for what is absent. -/
def Carried [F64Text F] (args : Text) : Method F → Prop
  | selectWorkspace id | closeWorkspace id | workspacePin id | focusPane id | readScreen id
  | browserBack id | browserForward id | browserReload id | getUrl id =>
    number (trim args) = some id.toNat
  | listPanes id => number (trim args) = some id.toNat ∨ trim args = [] ∧ id = 0
  | renameWorkspace id t | navigate id t =>
    number (trim (commandParts args).1) = some id.toNat ∧ t = trim (commandParts args).2
  | workspaceSetColor id t | send id t | jsEval id t =>
    number (trim (commandParts args).1) = some id.toNat ∧ t = (commandParts args).2
  | openBrowser t | clearStatus t => t = trim args
  | setStatus key value icon color priority =>
    key = (parseOpts args).positional.headD [] ∧ value = spaced (parseOpts args).positional.tail ∧
      Given [] some ((parseOpts args).opts.lookup "icon".toList) icon ∧
      Given [] some ((parseOpts args).opts.lookup "color".toList) color ∧
      Given 0 (parseSigned (2^31)) ((parseOpts args).opts.lookup "priority".toList) priority.toInt
  | setProgress value label =>
    ((parseOpts args).positional.head?.bind (fun v => F64Text.parse (trim v))) = some value ∧
      Given [] some ((parseOpts args).opts.lookup "label".toList) label
  | log message level =>
    message = spaced (parseOpts args).positional ∧
      Given [] some ((parseOpts args).opts.lookup "level".toList) level
  | remoteConnect destination port identityFile sshOptions =>
    destination = (parseOpts args).positional.headD [] ∧
      Given 0 number ((parseOpts args).opts.lookup "port".toList) port.toNat ∧
      Given [] some ((parseOpts args).opts.lookup "identity".toList) identityFile ∧
      sshOptions = [','].intercalate (optionValues "ssh-option" args) ∧
      (parseOpts args).opts.lookup "command".toList = none
  | remoteDisconnect id clear =>
    Given 0 number (parseOpts args).positional.head? id.toNat ∧
      clear = ((parseOpts args).opts.lookup "clear".toList).isSome
  | remoteReconnect id | remoteStatus id => Given 0 number (words args).head? id.toNat
  | _ => True

/-- The workspace is disconnected already. -/
def Idle (clear : Bool) (ws : Workspace F) : Prop :=
  ws.remoteState = .disconnected ∧ (clear = true → ws.remoteConfig = none)

/-- When the bus and the socket agree: nothing is missing that one of them refuses, no value
is empty or out of range, or what the bus does changes nothing. -/
def Concordant (st : App F) (args : Text) : Method F → Prop
  | workspaceSetColor id color =>
    color = "none".toList ∨ (WorkspaceColor.fromName (.ofList color)).isSome ∨
      st.window.Meets id.toNat (fun ws => ws.color = none)
  | renameWorkspace id _ =>
    splitOnce ' ' args ≠ none ∨
      st.window.Meets id.toNat (fun ws => ws.customTitle = some "" ∧ ws.title = "")
  | setStatus key value icon color priority =>
    if st.window.focusedWorkspaceId.isSome ∧ 2 ≤ (parseOpts args).positional.length then
      (parseOpts args).opts.lookup "icon".toList ≠ some [] ∧
        (parseOpts args).opts.lookup "color".toList ≠ some []
    else st.window.Meets (focused st) (fun ws => ws.statusEntries.lookup (.ofList key) =
      some ⟨.ofList key,.ofList value,emptyAsNone icon,emptyAsNone color,priority.toInt⟩)
  | clearStatus key =>
    st.window.focusedWorkspaceId.isSome ∧ key ≠ [] ∨
      st.window.Meets (focused st) (fun ws => ws.statusEntries.lookup (.ofList key) = none)
  | setProgress value label =>
    if st.window.focusedWorkspaceId.isSome then
      (parseOpts args).opts.lookup "label".toList ≠ some []
    else st.window.Meets 0 (fun ws => ws.progress = some ⟨value,emptyAsNone label⟩)
  | clearProgress =>
    st.window.focusedWorkspaceId.isSome ∨ st.window.Meets 0 (fun ws => ws.progress = none)
  | log message level =>
    st.window.focusedWorkspaceId.isSome ∧ (parseOpts args).positional ≠ [] ∨
      st.window.Meets (focused st) (fun ws => 50 ≤ ws.logEntries.length ∧
        ∀ e ∈ ws.logEntries, e = ⟨.ofList message,.fromStr (.ofList level),none⟩)
  | clearLog =>
    st.window.focusedWorkspaceId.isSome ∨ st.window.Meets 0 (fun ws => ws.logEntries = [])
  | remoteConnect _ port _ _ =>
    (parseOpts args).positional ≠ [] ∧
      ((parseOpts args).opts.lookup "port".toList = none ∨ 0 < port.toNat ∧ port.toNat < 2^16) ∧
      (parseOpts args).opts.lookup "identity".toList ≠ some [] ∧
      (optionValues "ssh-option" args).length ≤ 1 ∧
      ∀ o ∈ optionValues "ssh-option" args, o ≠ [] ∧ ',' ∉ o
  | remoteDisconnect id clear =>
    (parseOpts args).positional = [] ∨ id ≠ 0 ∨ st.window.defaultRemote = some 0 ∨
      st.window.Meets 0 (Idle clear) ∧
        ∀ w ∈ st.window.defaultRemote, st.window.Meets w (Idle clear)
  | remoteReconnect id =>
    words args = [] ∨ id ≠ 0 ∨ st.window.defaultRemote = some 0 ∨
      st.window.Meets 0 (fun ws => ws.remoteConfig = none) ∧
        ∀ w ∈ st.window.defaultRemote, st.window.Meets w (fun ws => ws.remoteConfig = none)
  | _ => True

theorem given_value {α : Type} {absent a : α} {parse : Text → Option α} {o : Option Text}
    (h : Given absent parse o a) : (o.bind parse).getD absent = a := by
  cases o with
  | none => exact h.symm
  | some v => rw [Option.bind_some,show parse v = some a from h,Option.getD_some]

theorem given_text {o : Option Text} {t : Text} (h : Given [] some o t) :
    o.map String.ofList = emptyAsNone t ↔ o ≠ some [] := by
  cases o with
  | none =>
    obtain rfl : t = [] := h
    exact iff_of_true rfl (by simp)
  | some v =>
    obtain rfl : v = t := Option.some.inj h
    by_cases hv : v = []
    · rw [emptyAsNone,if_pos hv,hv]
      exact iff_of_false (by simp) (by simp)
    · rw [emptyAsNone,if_neg hv]
      exact iff_of_true rfl (by simp [hv])

theorem zero_of_toNat {n : UInt32} (h : n.toNat = 0) : n = 0 := UInt32.toNat_inj.mp h

theorem given_port {o : Option Text} {port : UInt32} (h : Given 0 number o port.toNat) :
    (o.bind (parseUnsigned (2^16))).map UInt16.ofNat =
        (if port = 0 then none else some port.toUInt16) ↔
      o = none ∨ 0 < port.toNat ∧ port.toNat < 2^16 := by
  cases o with
  | none => exact iff_of_true (by rw [if_pos (zero_of_toNat h)]; rfl) (.inl rfl)
  | some v =>
    have hv : number v = some port.toNat := h
    rw [Option.bind_some,parseUnsigned_of_le (by decide : 2^16 ≤ 2^32),show
      parseUnsigned (2^32) v = some port.toNat from hv,or_iff_right (by simp)]
    by_cases h0 : port = 0
    · rw [if_pos h0]
      subst h0
      exact iff_of_false (by simp) (by simp)
    · rw [if_neg h0]
      have hpos : 0 < port.toNat := Nat.pos_of_ne_zero (fun hz => h0 (zero_of_toNat hz))
      by_cases hlt : port.toNat < 2^16
      · refine iff_of_true ?_ ⟨hpos,hlt⟩
        rw [Option.filter_some,if_pos (by simpa using hlt)]
        rfl
      · refine iff_of_false ?_ (fun hp => hlt hp.2)
        rw [Option.filter_some,if_neg (by simpa using hlt)]
        simp

theorem length_splitOn_comma (a b : Text) : 2 ≤ ((a ++ ',' :: b).splitOn ',').length := by
  rw [List.splitOn_eq_splitOnP,List.splitOnP_append_cons _ _ (by simp),List.length_append]
  have h1 := List.length_pos_of_ne_nil (List.splitOnP_ne_nil (· == ',') a)
  have h2 := List.length_pos_of_ne_nil (List.splitOnP_ne_nil (· == ',') b)
  omega

theorem splitOn_comma_eq_iff (v : Text) : v.splitOn ',' = [v] ↔ ',' ∉ v := by
  constructor
  · intro h hm
    obtain ⟨a,b,rfl,ha⟩ := List.eq_append_cons_of_mem hm
    have hlen := length_splitOn_comma a b
    rw [h] at hlen
    simp at hlen
  · intro h
    rw [List.splitOn_eq_splitOnP]
    exact List.splitOnP_eq_singleton (fun c hc => by
      rw [beq_eq_false_iff_ne]
      rintro rfl
      exact h hc)

/-- The list of options, of which the socket takes the last. -/
theorem given_options (args : Text) :
    (((parseOpts args).opts.lookup "ssh-option".toList).toList.map String.ofList =
      if [','].intercalate (optionValues "ssh-option" args) = [] then []
      else (([','].intercalate (optionValues "ssh-option" args)).splitOn ',').map String.ofList) ↔
      (optionValues "ssh-option" args).length ≤ 1 ∧
        ∀ o ∈ optionValues "ssh-option" args, o ≠ [] ∧ ',' ∉ o := by
  rw [parseOpts_lookup]
  change (((optionValues "ssh-option" args).getLast?).toList.map _ = _) ↔ _
  generalize optionValues "ssh-option" args = vs
  rcases vs with _ | ⟨v,_ | ⟨w,vs⟩⟩
  · simp
  · rw [List.getLast?_singleton,Option.toList_some,List.intercalate_singleton]
    by_cases hv : v = []
    · rw [if_pos hv]
      exact iff_of_false (by simp) (by simp [hv])
    · have hinj : Function.Injective String.ofList := fun _ _ h => String.ofList_injective h
      rw [if_neg hv,List.map_inj_right (fun a b h => hinj h),eq_comm,splitOn_comma_eq_iff]
      simp [hv]
  · rw [List.intercalate_cons_cons,List.append_assoc,List.singleton_append,if_neg (by simp)]
    refine iff_of_false (fun h => ?_) (by simp)
    have hlen := congrArg List.length h
    have htwo := length_splitOn_comma v ([','].intercalate (w :: vs))
    rw [List.length_map,List.length_map] at hlen
    rw [← hlen] at htwo
    have hone : ((v :: w :: vs).getLast?).toList.length ≤ 1 := by
      cases (v :: w :: vs).getLast? <;> simp
    omega

theorem given_id {o : Option Text} {id : UInt32} (h : Given 0 number o id.toNat) :
    o.bind number = zeroAsNone id ∧ (o = none ∨ id ≠ 0) ∨
      id = 0 ∧ o ≠ none ∧ o.bind number = some 0 ∧ zeroAsNone id = none := by
  cases o with
  | none =>
    obtain rfl : id = 0 := zero_of_toNat h
    exact .inl ⟨rfl,.inl rfl⟩
  | some v =>
    have hv : number v = some id.toNat := h
    by_cases h0 : id = 0
    · subst h0
      exact .inr ⟨rfl,by simp,hv,rfl⟩
    · exact .inl ⟨by rw [Option.bind_some,hv,zeroAsNone,if_neg h0],.inr h0⟩

end Method

end Dbus

end Limux
