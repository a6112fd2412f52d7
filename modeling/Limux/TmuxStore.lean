import Limux.Lib.SharedFile
import Mathlib.Data.Finmap

/-! The tmux-compat store and the commands of `limuxd-remote` that load and save it
(`tmux_compat.go`). What the host answers to the calls of a command is part of the command. -/
namespace Limux

abbrev StringMap (V : Type) := Finmap (fun _ : String => V)

structure MainVerticalState where
  mainSurfaceId : String
  lastColumnSurfaceId : String
  deriving DecidableEq

structure TmuxCompatStore where
  buffers : StringMap String
  hooks : StringMap String
  mainVerticalLayouts : StringMap MainVerticalState
  lastSplitSurface : StringMap String
  deriving DecidableEq

namespace TmuxCompatStore

def empty : TmuxCompatStore := ⟨∅,∅,∅,∅⟩

/-- The value under a key, `""` when there is none. -/
def lastSplit (s : TmuxCompatStore) (workspaceId : String) : String :=
  (s.lastSplitSurface.lookup workspaceId).getD ""

def forgetSplit (s : TmuxCompatStore) (workspaceId : String) : TmuxCompatStore :=
  { s with lastSplitSurface := s.lastSplitSurface.erase workspaceId }

def forgetLayout (s : TmuxCompatStore) (workspaceId : String) : TmuxCompatStore :=
  { s with mainVerticalLayouts := s.mainVerticalLayouts.erase workspaceId }

def setLayout (s : TmuxCompatStore) (workspaceId : String) (mv : MainVerticalState) :
    TmuxCompatStore :=
  { s with mainVerticalLayouts := s.mainVerticalLayouts.insert workspaceId mv }

def dropColumn (s : TmuxCompatStore) (workspaceId : String) (mv : MainVerticalState) :
    TmuxCompatStore :=
  s.setLayout workspaceId { mv with lastColumnSurfaceId := "" }

def pruneWorkspaceState (s : TmuxCompatStore) (workspaceId : String) : Option TmuxCompatStore :=
  if workspaceId ∈ s.mainVerticalLayouts ∨ workspaceId ∈ s.lastSplitSurface then
    some ((s.forgetLayout workspaceId).forgetSplit workspaceId)
  else none

def pruneSurfaceState (s : TmuxCompatStore) (workspaceId surfaceId : String) :
    Option TmuxCompatStore :=
  let split := s.lastSplit workspaceId = surfaceId
  let s' := if split then s.forgetSplit workspaceId else s
  match s.mainVerticalLayouts.lookup workspaceId with
  | some layout =>
    if layout.mainSurfaceId = surfaceId then
      some ((s'.forgetLayout workspaceId).forgetSplit workspaceId)
    else if layout.lastColumnSurfaceId = surfaceId then some (s'.dropColumn workspaceId layout)
    else if split then some s' else none
  | none => if split then some s' else none

def trackSplit (s : TmuxCompatStore) (workspaceId surfaceId direction anchoredCaller : String) :
    TmuxCompatStore :=
  let s := { s with lastSplitSurface := s.lastSplitSurface.insert workspaceId surfaceId }
  match s.mainVerticalLayouts.lookup workspaceId with
  | some mvs => s.setLayout workspaceId { mvs with lastColumnSurfaceId := surfaceId }
  | none =>
    if direction = "right" ∧ anchoredCaller ≠ "" then
      s.setLayout workspaceId ⟨anchoredCaller,surfaceId⟩
    else s

/-- `select-layout main-vertical` from a surface. -/
def seedLayout (s : TmuxCompatStore) (workspaceId callerSurface : String) : TmuxCompatStore :=
  let existingColumn := match s.mainVerticalLayouts.lookup workspaceId with
    | some existing => existing.lastColumnSurfaceId
    | none => ""
  let seedColumn := if existingColumn = "" then s.lastSplit workspaceId else existingColumn
  s.setLayout workspaceId ⟨callerSurface,seedColumn⟩

def capture (s : TmuxCompatStore) (text : String) : TmuxCompatStore :=
  { s with buffers := s.buffers.insert "default" text }

/-- A closed workspace leaves nothing behind. -/
theorem pruneWorkspaceState_forgets {s s' : TmuxCompatStore} {workspaceId : String}
    (h : s' = (s.pruneWorkspaceState workspaceId).getD s) :
    workspaceId ∉ s'.mainVerticalLayouts ∧ workspaceId ∉ s'.lastSplitSurface := by
  rw [h,pruneWorkspaceState]
  split
  · exact ⟨Finmap.notMem_erase_self,Finmap.notMem_erase_self⟩
  · rename_i hn
    exact not_or.mp hn

/-- Nothing of its workspace mentions a closed surface. -/
theorem pruneSurfaceState_forgets {s s' : TmuxCompatStore} {workspaceId surfaceId : String}
    (hid : surfaceId ≠ "") (h : s' = (s.pruneSurfaceState workspaceId surfaceId).getD s) :
    s'.lastSplit workspaceId ≠ surfaceId ∧
      ∀ layout, s'.mainVerticalLayouts.lookup workspaceId = some layout →
        layout.mainSurfaceId ≠ surfaceId ∧ layout.lastColumnSurfaceId ≠ surfaceId := by
  have herased : ∀ t : TmuxCompatStore, (t.forgetSplit workspaceId).lastSplit workspaceId ≠
      surfaceId := fun t => by
    simpa only [lastSplit,forgetSplit,Finmap.lookup_erase,Option.getD_none] using hid.symm
  obtain ⟨t,ht,hsplit,hlayouts⟩ : ∃ t, t = (if s.lastSplit workspaceId = surfaceId then
      s.forgetSplit workspaceId else s) ∧ t.lastSplit workspaceId ≠ surfaceId ∧
      t.mainVerticalLayouts = s.mainVerticalLayouts := by
    refine ⟨_,rfl,?_⟩
    split
    · exact ⟨herased s,rfl⟩
    · exact ⟨by assumption,rfl⟩
  have hkeep : (if s.lastSplit workspaceId = surfaceId then some t else none).getD s = t := by
    rw [ht]
    split <;> rfl
  simp only [pruneSurfaceState,← ht] at h
  cases hl : s.mainVerticalLayouts.lookup workspaceId with
  | none =>
    rw [hl] at h
    obtain rfl : s' = t := h.trans hkeep
    refine ⟨hsplit,fun layout hlayout => ?_⟩
    rw [hlayouts,hl] at hlayout
    cases hlayout
  | some layout =>
    simp only [hl] at h
    split at h
    · subst h
      refine ⟨herased _,fun layout hlayout => ?_⟩
      have hgone : (t.mainVerticalLayouts.erase workspaceId).lookup workspaceId = some layout :=
        hlayout
      rw [Finmap.lookup_erase] at hgone
      cases hgone
    · rename_i hmain
      split at h
      · subst h
        refine ⟨hsplit,fun layout' hlayout => ?_⟩
        have hset : (t.mainVerticalLayouts.insert workspaceId
            { layout with lastColumnSurfaceId := "" }).lookup workspaceId = some layout' := hlayout
        rw [Finmap.lookup_insert] at hset
        cases hset
        exact ⟨hmain,hid.symm⟩
      · rename_i hcolumn
        obtain rfl : s' = t := h.trans hkeep
        refine ⟨hsplit,fun layout' hlayout => ?_⟩
        rw [hlayouts,hl] at hlayout
        cases hlayout
        exact ⟨hmain,hcolumn⟩

end TmuxCompatStore

namespace TmuxCommand

/-- The surfaces that `tmuxAnchoredSplitTarget` looks for. -/
inductive Anchor
  | lastColumn | caller | main
  deriving DecidableEq

structure SplitWindow where
  target : Option (String × String)
  horizontal : Bool
  before : Bool
  callerWorkspace : Option String
  callerSurface : String
  canonicalSurface : Anchor → String → Option String
  split : String → String → String → Option String

/-- Where an anchored split goes. -/
structure TmuxSplitAnchor where
  targetSurfaceId : String
  callerSurfaceId : String
  direction : String

namespace SplitWindow

def direction (a : SplitWindow) : String :=
  if a.horizontal then (if a.before then "left" else "right")
  else if a.before then "up" else "down"

/-- The handles that may stand in for a lost column. -/
def candidateAnchors (a : SplitWindow) (mv : Option MainVerticalState) : List (Anchor × String) :=
  (.caller,a.callerSurface) :: match mv with
    | some mv => if mv.mainSurfaceId = "" then [] else [(.main,mv.mainSurfaceId)]
    | none => []

def fromCaller (a : SplitWindow) (workspaceId : String) (store : TmuxCompatStore)
    (k : Option TmuxSplitAnchor → Program TmuxCompatStore) : Program TmuxCompatStore :=
  let found := (a.candidateAnchors (store.mainVerticalLayouts.lookup workspaceId)).findSome?
    (fun x => if x.2 = "" then none else a.canonicalSurface x.1 x.2)
  match found with
  | some id => k (some ⟨id,id,"right"⟩)
  | none =>
    if workspaceId ∈ store.mainVerticalLayouts then
      .save ((store.forgetLayout workspaceId).forgetSplit workspaceId) (k none)
    else k none

def anchoredSplitTarget (a : SplitWindow) (workspaceId : String)
    (k : Option TmuxSplitAnchor → Program TmuxCompatStore) : Program TmuxCompatStore :=
  .load fun store =>
    match store.mainVerticalLayouts.lookup workspaceId with
    | none => a.fromCaller workspaceId store k
    | some mvState =>
      if mvState.lastColumnSurfaceId = "" then a.fromCaller workspaceId store k
      else
        match a.canonicalSurface .lastColumn mvState.lastColumnSurfaceId with
        | some id => k (some ⟨id,"","down"⟩)
        | none =>
          let store := (store.dropColumn workspaceId mvState).forgetSplit workspaceId
          .save store (a.fromCaller workspaceId store k)

/-- The split itself; the store is loaded anew for it. -/
def splitAt (a : SplitWindow) (targetWs targetSurface direction anchoredCaller : String) :
    Program TmuxCompatStore :=
  match a.split targetWs targetSurface direction with
  | none => .done
  | some surfaceId =>
    if surfaceId = "" then .done
    else .load fun store =>
      .save (store.trackSplit targetWs surfaceId direction anchoredCaller) .done

def program (a : SplitWindow) : Program TmuxCompatStore :=
  match a.target with
  | none => .done
  | some (targetWs,targetSurface) =>
    match a.callerWorkspace with
    | none => a.splitAt targetWs targetSurface a.direction ""
    | some wsId => a.anchoredSplitTarget wsId fun anchored =>
      match anchored with
      | none => a.splitAt targetWs targetSurface a.direction ""
      | some x => a.splitAt wsId x.targetSurfaceId x.direction x.callerSurfaceId

end SplitWindow

end TmuxCommand

open TmuxCommand

/-- The commands that use the store. Targets are as the host resolves them, `none` for an
error, and so are the other answers. -/
inductive TmuxCommand
  | splitWindow (a : SplitWindow)
  | killPane (target : Option (String × String)) (closed : Bool)
  | killWindow (target : Option String) (closed : Bool)
  | selectLayout (layoutName : String) (target : Option String) (callerSurface : String)
  | capturePane (text : Option String) (print : Bool)
  | showBuffer
  | saveBuffer

namespace TmuxCommand

/-- Load, and save if there is something to change. -/
def prune (change : TmuxCompatStore → Option TmuxCompatStore) : Program TmuxCompatStore :=
  .load fun store =>
    match change store with
    | some store => .save store .done
    | none => .done

def program : TmuxCommand → Program TmuxCompatStore
  | .splitWindow a => a.program
  | .killPane (some (wsId,surfId)) true => prune (fun s => s.pruneSurfaceState wsId surfId)
  | .killPane _ _ => .done
  | .killWindow (some wsId) true => prune (fun s => s.pruneWorkspaceState wsId)
  | .killWindow _ _ => .done
  | .selectLayout layoutName (some wsId) callerSurface =>
    if layoutName = "main-vertical" then
      if callerSurface = "" then .done
      else .load fun store => .save (store.seedLayout wsId callerSurface) .done
    else if layoutName = "" then .done
    else prune (fun s => s.pruneWorkspaceState wsId)
  | .selectLayout _ none _ => .done
  | .capturePane (some text) false => .load fun store => .save (store.capture text) .done
  | .capturePane _ _ => .done
  | .showBuffer | .saveBuffer => .load fun _ => .done

end TmuxCommand

end Limux
