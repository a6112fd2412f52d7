import Limux.Lib.Shell
import Limux.TmuxArgs

/-! Paths and directories as words of a shell: `shell_escape_paths` of `app/src/window.rs`, and
`tmuxShellCommandText` of `tmux_compat.go`. -/
namespace Limux

namespace FileDrop

def special : List Char := "\"'\\$`!#&|;()\x7b\x7d[]<>?*~".toList

def escapePath (p : Text) : Text :=
  if p.any (fun c => Text.isWhitespace c || special.contains c) then Shell.quote p else p

def shellEscapePaths (paths : List Text) : Text := Text.spaced (paths.map escapePath)

/-- What is not quoted means nothing to the shell but itself. -/
theorem ordinary_of_notSpecial {c : Char} (hw : Text.isWhitespace c = false) (hs : c ∉ special) :
    Shell.Ordinary c := by
  have hactive : ∀ d ∈ Shell.active, d ∈ special ∨ Text.isWhitespace d = true :=
    Text.forall_of_all (by decide)
  refine ⟨?_,?_,?_,?_,fun hc => ?_⟩
  · by_contra hb
    rw [Bool.not_eq_false,Shell.isBlank,Bool.or_eq_true,decide_eq_true_eq,decide_eq_true_eq] at hb
    rcases hb with rfl | rfl
    · cases hw
    · cases hw
  · rintro rfl
    exact hs (by decide)
  · rintro rfl
    exact hs (by decide)
  · rintro rfl
    exact hs (by decide)
  · rcases hactive c hc with hd | hd
    · exact hs hd
    · rw [hw] at hd
      cases hd

theorem spells_escapePath {p : Text} (hne : p ≠ []) : Shell.Spells (escapePath p) p := by
  rw [escapePath]
  by_cases h : p.any (fun c => Text.isWhitespace c || special.contains c) = true
  · rw [if_pos h]
    exact Shell.carries_quoteChar.spells p
  · rw [if_neg h]
    have hp : ∀ c ∈ p, Text.isWhitespace c = false ∧ c ∉ special := by
      simpa using h
    have hfirst : ∀ d ∈ Shell.activeFirst, d ∈ special := Text.forall_of_all (by decide)
    refine Shell.spells_plain ⟨hne,fun c hc hf => ?_,fun c hc => ?_⟩
    · exact (hp c (List.mem_of_head? hc)).2 (hfirst c hf)
    · exact ordinary_of_notSpecial (hp c hc).1 (hp c hc).2

end FileDrop

namespace Tmux

theorem spells_tmuxShellQuote (value : Text) : Shell.Spells (tmuxShellQuote value) value :=
  (Shell.Carries.of_quote fun ws u => by
    change some (⟨ws,some ((u ++ [] ++ ['\'']) ++ []),.single⟩ : Shell.Lexer) = _
    rw [List.append_nil,List.append_nil]).spells value

/-- The command starts with the directory and goes on behind a blank or ends. -/
theorem tmuxShellCommandText_cd {cwd : Text} (h : Text.trim cwd ≠ []) (positional : List Text) :
    ∃ rest, tmuxShellCommandText positional cwd =
      "cd -- ".toList ++ tmuxShellQuote (Text.trim cwd) ++ rest ++ ['\r'] ∧
      (rest = [] ∨ ∃ cmd, rest = " && ".toList ++ cmd) := by
  rw [tmuxShellCommandText]
  simp only [if_neg h,if_neg (fun he : _ ∧ _ => h he.1)]
  by_cases hc : Text.trim (Text.spaced positional) = []
  · refine ⟨[],?_,.inl rfl⟩
    rw [if_pos hc,List.append_nil,List.append_nil,List.intercalate_singleton]
  · refine ⟨_,?_,.inr ⟨Text.trim (Text.spaced positional),rfl⟩⟩
    rw [if_neg hc]
    simp [List.intercalate]

theorem split_cd (dir : Text) : Shell.split ("cd -- ".toList ++ tmuxShellQuote dir) =
    some ["cd".toList,"--".toList,dir] := by
  have hcd : Shell.run .init "cd -- ".toList =
      some ⟨["cd".toList,"--".toList],none,.plain⟩ := rfl
  rw [Shell.split,Shell.run_append,hcd,Option.bind_some,spells_tmuxShellQuote dir]
  rfl

end Tmux

/-- The shell reads dropped paths, and the directory of a tmux command, as they are. -/
theorem paths_split (paths : List Text) (hp : ∀ p ∈ paths, p ≠ []) (positional : List Text)
    (cwd : Text) (hcwd : Text.trim cwd ≠ []) :
    Shell.split (FileDrop.shellEscapePaths paths) = some paths ∧
    Shell.Spells (Tmux.tmuxShellQuote (Text.trim cwd)) (Text.trim cwd) ∧
    Shell.split ("cd -- ".toList ++ Tmux.tmuxShellQuote (Text.trim cwd)) =
      some ["cd".toList,"--".toList,Text.trim cwd] ∧
    ∃ rest, Tmux.tmuxShellCommandText positional cwd =
      "cd -- ".toList ++ Tmux.tmuxShellQuote (Text.trim cwd) ++ rest ++ ['\r'] ∧
      (rest = [] ∨ ∃ cmd, rest = " && ".toList ++ cmd) :=
  ⟨Shell.split_joined fun p hm => FileDrop.spells_escapePath (hp p hm),
    Tmux.spells_tmuxShellQuote _,Tmux.split_cd _,Tmux.tmuxShellCommandText_cd hcwd positional⟩

theorem paths_split_quotes :
    Shell.split (FileDrop.shellEscapePaths ["/tmp/it's $(id)".toList,"/tmp/a".toList]) =
      some ["/tmp/it's $(id)".toList,"/tmp/a".toList] ∧
    Shell.split ("cd -- ".toList ++ Tmux.tmuxShellQuote (Text.trim " /a'b ".toList)) =
      some ["cd".toList,"--".toList,"/a'b".toList] := by
  have h := paths_split ["/tmp/it's $(id)".toList,"/tmp/a".toList] (by decide) []
    " /a'b ".toList (by decide +kernel)
  exact ⟨h.1,h.2.2.1⟩

end Limux
