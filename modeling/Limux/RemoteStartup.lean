import Limux.RemoteArgs
import Limux.Lib.Shell

/-! The command lines of remote terminals as a shell reads them: only the script is quoted, so all
other words have to stand for themselves. -/
namespace Limux

open Shell

namespace RemoteConfiguration

/-- Identity file, options and destination stand for themselves on a command line. -/
def PlainTexts (c : RemoteConfiguration) : Prop :=
  (∀ v ∈ c.identityFile, Plain v.toList) ∧ (∀ o ∈ c.sshOptions, Plain o.toList) ∧
    Plain c.destination.toList

theorem plain_ofNat (n : ℕ) : Plain (toString n).toList := by
  rw [show (toString n).toList = Text.ofNat n from Nat.toList_repr]
  have hd : ∀ c : Char, c.isDigit = true → Ordinary c ∧ c ∉ activeFirst := by
    intro c hc
    simp only [Char.isDigit,Bool.and_eq_true,decide_eq_true_eq,ge_iff_le,
      UInt32.le_iff_toNat_le] at hc
    have hne : ∀ d : Char, (d.toNat < 48 ∨ 57 < d.toNat) → c ≠ d := by
      rintro d hd rfl
      have h1 : 48 ≤ c.toNat := hc.1
      have h2 : c.toNat ≤ 57 := hc.2
      omega
    have hl : ∀ l : List Char, l.all (fun d => d.toNat < 48 ∨ 57 < d.toNat) = true → c ∉ l :=
      fun l h hm => hne c (by simpa using List.all_eq_true.mp h c hm) rfl
    refine ⟨⟨?_,hne _ (by decide),hne _ (by decide),hne _ (by decide),hl _ (by decide)⟩,
      hl _ (by decide)⟩
    simp [isBlank,hne ' ' (by decide),hne '\t' (by decide)]
  refine ⟨Text.ofNat_ne_nil n,fun c hc => ?_,fun c hc => ?_⟩
  · exact (hd c (Text.isDigit_of_mem_ofNat (List.mem_of_mem_head? hc))).2
  · exact (hd c (Text.isDigit_of_mem_ofNat hc)).1

/-- A command line of plain flags and of what the user gave. -/
theorem plain_connection_iff {flag : String} (hf : Plain flag.toList) (c : RemoteConfiguration) :
    (∀ w ∈ connectionArgs flag c, Plain w.toList) ↔
      (∀ v ∈ c.identityFile, Plain v.toList) ∧ ∀ o ∈ c.sshOptions, Plain o.toList := by
  have hport : ∀ w ∈ c.port.toList.flatMap (fun p => [flag,toString p.toNat]), Plain w.toList := by
    intro w hw
    obtain ⟨p,-,hw⟩ := List.mem_flatMap.mp hw
    rcases List.mem_cons.mp hw with rfl | hw
    · exact hf
    · exact List.mem_singleton.mp hw ▸ plain_ofNat _
  have hpair : ∀ (flag : String) (vs : List String), Plain flag.toList →
      ((∀ w ∈ vs.flatMap (fun v => [flag,v]), Plain w.toList) ↔ ∀ v ∈ vs, Plain v.toList) := by
    intro flag vs hflag
    simp only [List.forall_mem_flatMap,List.forall_mem_cons,hflag,true_and,List.not_mem_nil,
      false_implies,implies_true,and_true]
  rw [connectionArgs,List.forall_mem_append,List.forall_mem_append,and_iff_right hport,
    hpair "-i" _ (by decide),hpair "-o" _ (by decide)]
  simp only [Option.mem_toList]
  exact Iff.rfl

theorem plain_interactive_iff (c : RemoteConfiguration) :
    (∀ w ∈ c.sshInteractiveArgs, Plain w.toList) ↔
      (∀ v ∈ c.identityFile, Plain v.toList) ∧ ∀ o ∈ c.sshOptions, Plain o.toList := by
  have hdefault : ∀ w ∈ c.hostKeyDefault, Plain w.toList := by
    unfold hostKeyDefault
    split
    · decide
    · decide
  rw [sshInteractiveArgs,appendConnectionArgs,List.forall_mem_append,List.forall_mem_append,
    plain_connection_iff (by decide)]
  exact and_iff_right ⟨by decide,hdefault⟩

def scriptStart : Text := "export PATH=\"$".toList

theorem script_starts (relayPort : UInt16) :
    ∃ r, (generateBootstrapScript relayPort).toList = scriptStart ++ r := by
  have hs : "export PATH=\"$HOME/.limux/bin:$PATH\"\nexport LIMUX_SOCKET_PATH='127.0.0.1:".toList =
      scriptStart ++
        "HOME/.limux/bin:$PATH\"\nexport LIMUX_SOCKET_PATH='127.0.0.1:".toList := by decide +kernel
  unfold generateBootstrapScript
  simp only [String.toList_append,hs,List.append_assoc]
  exact ⟨_,rfl⟩

/-- Within any quotes, or behind a backslash, the script brings in an expansion. -/
theorem breaks_script (relayPort : UInt16) : Breaks (generateBootstrapScript relayPort).toList := by
  intro l hm
  obtain ⟨r,hr⟩ := script_starts relayPort
  have hstart : scriptStart.flatMap quoteChar = scriptStart := by decide
  have hq : quote (generateBootstrapScript relayPort).toList =
      ('\'' :: scriptStart) ++ (r.flatMap quoteChar ++ ['\'']) := by
    rw [hr,quote,List.flatMap_append,hstart,List.append_assoc]
    rfl
  have hnone : run l ('\'' :: scriptStart) = none := by
    obtain ⟨ws,cur,mode⟩ := l
    cases mode with
    | plain => exact absurd rfl hm
    | escaped => rfl
    | single => cases cur <;> rfl
    | double => rfl
    | doubleEscaped => rfl
  rw [hq,run_append,hnone]
  rfl

/-! The command lines. -/

theorem toList_spaced (parts : List String) :
    (" ".intercalate parts).toList = Text.spaced (parts.map String.toList) :=
  String.toList_intercalate

theorem spaced_append_singleton {ws : List Text} (hne : ws ≠ []) (w : Text) :
    Text.spaced (ws ++ [w]) = Text.spaced ws ++ ' ' :: w := by
  induction ws with
  | nil => exact absurd rfl hne
  | cons v ws ih =>
    cases ws with
    | nil => simp [Text.spaced_cons_cons]
    | cons u ws =>
      rw [List.cons_append,List.cons_append,Text.spaced_cons_cons,Text.spaced_cons_cons]
      rw [← List.cons_append,ih (List.cons_ne_nil _ _)]
      simp

def startupWords (c : RemoteConfiguration) : List String :=
  ["ssh"] ++ c.sshInteractiveArgs ++ ["-t",c.destination]

def commandWords (c : RemoteConfiguration) : List String :=
  ["ssh"] ++ c.sshInteractiveArgs ++ [c.destination]

theorem plain_startupWords_iff (c : RemoteConfiguration) :
    (∀ w ∈ c.startupWords.map String.toList, Plain w) ↔ c.PlainTexts := by
  rw [List.forall_mem_map,startupWords,List.forall_mem_append,List.forall_mem_append,
    plain_interactive_iff]
  simp only [List.forall_mem_cons,List.not_mem_nil,false_implies,implies_true,and_true,
    show Plain "ssh".toList by decide,show Plain "-t".toList by decide,true_and]
  exact and_assoc

theorem plain_commandWords_iff (c : RemoteConfiguration) :
    (∀ w ∈ c.commandWords.map String.toList, Plain w) ↔ c.PlainTexts := by
  rw [List.forall_mem_map,commandWords,List.forall_mem_append,List.forall_mem_append,
    plain_interactive_iff]
  simp only [List.forall_mem_cons,List.not_mem_nil,false_implies,implies_true,and_true,
    show Plain "ssh".toList by decide,true_and]
  exact and_assoc

theorem toList_quoted (s : Text) :
    ("'" ++ String.ofList (escapeQuotes s) ++ "'").toList = quote s := by
  simp only [String.toList_append,String.toList_ofList]
  rfl

theorem toList_startup (c : RemoteConfiguration) (relayPort : UInt16) :
    (generateStartupCommand c relayPort).toList =
      Text.spaced (c.startupWords.map String.toList) ++
        ' ' :: quote (generateBootstrapScript relayPort).toList := by
  unfold generateStartupCommand
  generalize generateBootstrapScript relayPort = script
  have hne : c.startupWords.map String.toList ≠ [] := List.cons_ne_nil _ _
  dsimp only
  rw [toList_spaced,List.map_append,List.map_singleton,toList_quoted]
  exact spaced_append_singleton hne _

/-- A shell takes the command line of a terminal apart as it was put together exactly if identity
file, options and destination stand for themselves; the same for the command without a script. -/
theorem startup_splits_iff (c : RemoteConfiguration) (relayPort : UInt16) :
    (split (generateStartupCommand c relayPort).toList =
        some ((["ssh"] ++ c.sshInteractiveArgs ++ ["-t",c.destination] ++
          [generateBootstrapScript relayPort]).map String.toList) ↔ c.PlainTexts) ∧
    (c.terminalStartupCommand = none →
      (split c.sshCommand.toList =
        some ((["ssh"] ++ c.sshInteractiveArgs ++ [c.destination]).map String.toList) ↔
          c.PlainTexts)) := by
  constructor
  · rw [toList_startup,List.map_append,← plain_startupWords_iff]
    exact split_quoted_iff (List.cons_ne_nil _ _) (breaks_script relayPort)
  · intro h
    rw [sshCommand,h,← plain_commandWords_iff]
    dsimp only
    rw [toList_spaced]
    exact split_spaced_iff (List.cons_ne_nil _ _)

def hostWith (opt : String) : RemoteConfiguration :=
  ⟨"gate",none,none,[opt],none,none,none,none,none⟩

theorem startup_splits_gate :
    split (hostWith "ForwardAgent=yes").sshCommand.toList = some ((["ssh"] ++
      (hostWith "ForwardAgent=yes").sshInteractiveArgs ++ ["gate"]).map String.toList) :=
  ((startup_splits_iff (hostWith "ForwardAgent=yes") 4000).2 rfl).mpr
    ⟨by rintro v ⟨⟩,by decide,by decide⟩

/-- The blanks of a proxy command make words of their own. -/
theorem proxy_command_falls_apart :
    split (hostWith "ProxyCommand=nc -X connect").sshCommand.toList =
      some (["ssh","-o","ServerAliveInterval=20","-o","ServerAliveCountMax=2","-o",
        "StrictHostKeyChecking=accept-new","-o","ProxyCommand=nc","-X","connect",
        "gate"].map String.toList) ∧
    split (generateStartupCommand (hostWith "ProxyCommand=nc -X connect") 4000).toList ≠
      some ((["ssh"] ++ (hostWith "ProxyCommand=nc -X connect").sshInteractiveArgs ++
        ["-t","gate"] ++ [generateBootstrapScript 4000]).map String.toList) := by
  refine ⟨by decide +kernel,fun h => ?_⟩
  rw [toList_startup,List.map_append] at h
  have hplain := (split_quoted_iff (List.cons_ne_nil _ _) (breaks_script 4000)).mp h
  exact absurd (hplain "ProxyCommand=nc -X connect".toList (by decide))
    (by decide)

end RemoteConfiguration

end Limux
