import Limux.TmuxStore
import Mathlib.Data.Countable.Basic
import Mathlib.Data.List.Permutation
import Mathlib.Logic.Equiv.Multiset
import Mathlib.Logic.Function.Basic

/-! Shim processes over one tmux-compat store, each in the middle of its system calls. No
update is lost as long as a process loads only when the others have saved. -/
namespace Limux

open Machine SharedFile

/-- The store file: `json.Marshal` and `json.Unmarshal`, a missing file for an empty store. -/
def storeFile (marshal : TmuxCompatStore → List UInt8)
    (unmarshal : List UInt8 → Option TmuxCompatStore)
    (unmarshal_marshal : ∀ store, unmarshal (marshal store) = some store) :
    Codec TmuxCompatStore := ⟨.empty,marshal,unmarshal,unmarshal_marshal⟩

/-- In every run in which no command loads the store while another one that has come to a save
is still to use it, and none saves while another one that has come to a load is still to use it:
each command has loaded what it loads when the commands run alone, one after the other, and the
store they leave is the one which that run leaves. -/
theorem stores_in_turn (marshal : TmuxCompatStore → List UInt8)
    (unmarshal : List UInt8 → Option TmuxCompatStore)
    (unmarshal_marshal : ∀ store, unmarshal (marshal store) = some store)
    (cmds : List TmuxCommand) (d : Disk Unit) (s : State TmuxCompatStore)
    (h : Reach (step (storeFile marshal unmarshal unmarshal_marshal)) Apart
      (start (cmds.map TmuxCommand.program) d) s) :
    let c := storeFile marshal unmarshal unmarshal_marshal
    ∃ order : List ℕ, order.Nodup ∧ (∀ i ∈ order, i < cmds.length) ∧
      (∀ (i : ℕ) (x : Process TmuxCompatStore), s.processes[i]? = some x →
        x.loads <+: serialLoads (cmds.map TmuxCommand.program) order (c.content d) i) ∧
      ((∀ x ∈ s.processes, x.access.ended = true) → order.Perm (List.range cmds.length) ∧
        c.content s.disk = serial (cmds.map TmuxCommand.program) order (c.content d)) := by
  intro c
  have hturn := in_turn h
  rw [List.length_map] at hturn
  exact hturn

/-! A store with one split, a command that captures a pane and one that arranges a workspace.
The texts of their stores are the real ones; those of other stores do not matter. -/

namespace TmuxStoreSample

def first : TmuxCompatStore := { TmuxCompatStore.empty with
  lastSplitSurface := Finmap.singleton "v" "s" }

def captured : TmuxCompatStore := { first with buffers := Finmap.singleton "default" "x" }

def layout : StringMap MainVerticalState := Finmap.singleton "w" ⟨"m",""⟩

/-- The arranged workspace in a store that was taken to be empty. -/
def arranged : TmuxCompatStore := { TmuxCompatStore.empty with mainVerticalLayouts := layout }

def both : TmuxCompatStore := { captured with mainVerticalLayouts := layout }

def text (s : String) : List UInt8 := s.toUTF8.data.toList

def firstText : List UInt8 := text "\x7b\"lastSplitSurface\":\x7b\"v\":\"s\"\x7d\x7d"

def samples : List (TmuxCompatStore × List UInt8) :=
  [(first,firstText),
   (captured,text ("\x7b\"buffers\":\x7b\"default\":\"x\"\x7d," ++
      "\"lastSplitSurface\":\x7b\"v\":\"s\"\x7d\x7d")),
   (arranged,text "\x7b\"mainVerticalLayouts\":\x7b\"w\":\x7b\"mainSurfaceId\":\"m\"\x7d\x7d\x7d"),
   (both,text ("\x7b\"buffers\":\x7b\"default\":\"x\"\x7d,\"mainVerticalLayouts\":" ++
      "\x7b\"w\":\x7b\"mainSurfaceId\":\"m\"\x7d\x7d,\"lastSplitSurface\":\x7b\"v\":\"s\"\x7d\x7d"))]

theorem countable_char : Countable Char :=
  Function.Injective.countable (f := Char.toNat) (fun _ _ h => Char.toNat_inj.mp h)

theorem countable_string : Countable String :=
  have := countable_char
  Function.Injective.countable (f := String.toList) (fun _ _ h => String.toList_inj.mp h)

theorem countable_map {V : Type} [Countable V] : Countable (StringMap V) :=
  have := countable_string
  Function.Injective.countable (f := Finmap.entries) (fun _ _ h => Finmap.ext h)

theorem countable_store : Countable TmuxCompatStore := by
  have := countable_string
  have hmv : Countable MainVerticalState :=
    Function.Injective.countable (f := fun mv => (mv.mainSurfaceId,mv.lastColumnSurfaceId))
      (fun a b h => by cases a; cases b; cases h; rfl)
  have hstrings : Countable (StringMap String) := countable_map
  have hlayouts : Countable (StringMap MainVerticalState) := countable_map
  exact Function.Injective.countable
    (f := fun s => (s.buffers,s.hooks,s.mainVerticalLayouts,s.lastSplitSurface))
    (fun a b h => by cases a; cases b; cases h; rfl)

theorem exists_other : ∃ f : TmuxCompatStore → List UInt8, Function.Injective f ∧
    ∀ s, (f s).head? = some 0xff := by
  have := countable_store
  obtain ⟨g,hg⟩ := exists_injective_nat TmuxCompatStore
  refine ⟨fun s => List.replicate (g s+1) 0xff,fun a b h => hg ?_,fun s => rfl⟩
  simpa using congrArg List.length h

noncomputable def other : TmuxCompatStore → List UInt8 := Classical.choose exists_other

noncomputable def marshal (s : TmuxCompatStore) : List UInt8 :=
  match samples.find? (fun x => x.1 = s) with
  | some x => x.2
  | none => other s

noncomputable def unmarshal (data : List UInt8) : Option TmuxCompatStore :=
  match samples.find? (fun x => x.2 = data) with
  | some x => some x.1
  | none => if data.head? = some 0xff then Function.partialInv other data else none

theorem unmarshal_marshal (s : TmuxCompatStore) : unmarshal (marshal s) = some s := by
  rw [marshal]
  split
  · rename_i x hx
    have hs : x.1 = s := by simpa using List.find?_some hx
    have hall : ∀ x ∈ samples, samples.find? (fun y => y.2 = x.2) = some x := by decide +kernel
    rw [unmarshal,hall x (List.mem_of_find?_eq_some hx),← hs]
  · have hother : Function.Injective other ∧ ∀ s, (other s).head? = some 0xff :=
      Classical.choose_spec exists_other
    obtain ⟨hinj,hhead⟩ := hother
    have hno : samples.find? (fun x => x.2 = other s) = none := by
      refine List.find?_eq_none.mpr (fun x hx he => ?_)
      have hne : ∀ x ∈ samples, x.2.head? ≠ some 0xff := by decide +kernel
      exact hne x hx (by rw [of_decide_eq_true he]; exact hhead s)
    rw [unmarshal,hno]
    simp only
    rw [if_pos (hhead s)]
    exact Function.partialInv_left hinj s

noncomputable def file : Codec TmuxCompatStore := storeFile marshal unmarshal unmarshal_marshal

def disk : Disk Unit := ⟨fun _ => some 0,fun _ => firstText,1⟩

def cmds : List TmuxCommand :=
  [.capturePane (some "x") false,.selectLayout "main-vertical" (some "w") "m"]

noncomputable def glance (s : State TmuxCompatStore) :
    Bool × List (List TmuxCompatStore) × TmuxCompatStore :=
  (s.processes.all (fun x => x.access.ended),s.processes.map (fun x => x.loads),
    file.content s.disk)

end TmuxStoreSample

open TmuxStoreSample

theorem content_disk : file.content disk = first := by decide +kernel

theorem serial_both : ∀ order ∈ ([0,1] : List ℕ).permutations',
    serial (cmds.map TmuxCommand.program) order first = both := by decide +kernel

/-- The one command has cut the file off when the other one loads it: what is left in the end
is the store of neither order. -/
theorem loaded_half_written : ∃ s, Reach (step file) anyStep
    (start (cmds.map TmuxCommand.program) disk) s ∧ (∀ x ∈ s.processes, x.access.ended = true) ∧
    s.processes.map (fun x => x.loads) = [[first],[TmuxCompatStore.empty]] ∧
    ∀ order : List ℕ, order.Perm [0,1] → file.content s.disk ≠
      serial (cmds.map TmuxCommand.program) order (file.content disk) := by
  have h : ∃ s, Reach (step file) anyStep (start (cmds.map TmuxCommand.program) disk) s ∧
      glance s = (true,[[first],[TmuxCompatStore.empty]],arranged) :=
    reach_of_glance glance [.openRead 0,.read 0 64,.read 0 64,.openWrite 0,.openRead 1,.read 1 64,
      .write 0 64,.close 0,.openWrite 1,.write 1 64,.close 1] (by decide +kernel)
  obtain ⟨s,hs,he⟩ := h
  obtain ⟨hended,hrest⟩ := Prod.mk.inj he
  obtain ⟨hloads,hcontent⟩ := Prod.mk.inj hrest
  refine ⟨s,hs,List.all_eq_true.mp hended,hloads,fun order hp => ?_⟩
  rw [hcontent,content_disk,serial_both order (List.mem_permutations'.mpr hp)]
  decide +kernel

/-- The same commands one after the other. -/
theorem stores_in_turn_both : ∃ s, Reach (step file) Apart
    (start (cmds.map TmuxCommand.program) disk) s ∧ file.content s.disk = both ∧
    ∃ order : List ℕ, order.Perm (List.range 2) ∧
      file.content s.disk = serial (cmds.map TmuxCommand.program) order (file.content disk) := by
  have h : ∃ s, Reach (step file) Apart (start (cmds.map TmuxCommand.program) disk) s ∧
      glance s = (true,[[first],[captured]],both) :=
    reach_of_glance glance [.openRead 0,.read 0 64,.read 0 64,.openWrite 0,
      .write 0 64,.close 0,.openRead 1,.read 1 64,.read 1 64,.openWrite 1,.write 1 128,.close 1]
      (by decide +kernel)
  obtain ⟨s,hs,he⟩ := h
  obtain ⟨hended,hrest⟩ := Prod.mk.inj he
  obtain ⟨order,-,-,-,hall⟩ :=
    stores_in_turn marshal unmarshal unmarshal_marshal cmds disk s hs
  exact ⟨s,hs,(Prod.mk.inj hrest).2,order,hall (List.all_eq_true.mp hended)⟩

end Limux
