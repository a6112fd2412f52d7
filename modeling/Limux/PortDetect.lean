import Mathlib.Data.Finset.Sort
import Limux.Workspace
import Limux.Lib.Path
import Limux.Lib.Utf8

/-! Listening ports of the descendant processes, given to the workspaces by directory
(`app/src/port_detect.rs`). -/
namespace Limux

namespace Port

/-- The directory of a process, an absolute path as the system writes it. -/
structure Cwd where
  text : Text
  written : ∃ cs, (∀ c ∈ cs, Path.Name c) ∧ text = Path.absolute cs

/-- A descendant process: its directory, if it can be read, and the inodes of its open
sockets. -/
structure Process where
  cwd : Option Cwd
  sockets : List ℕ

def pidListeningPorts (inodes : HashMap ℕ ℕ) (p : Process) : List ℕ :=
  p.sockets.filterMap (fun inode => inodes.lookup inode)

def isUnder (cwd dir : Text) : Bool := cwd = dir || (dir ++ ['/']).isPrefixOf cwd

def byteLength (s : Text) : ℕ := (Utf8.encode s).length

def maxByKey {α : Type} (key : α → ℕ) : List α → Option α
  | [] => none
  | a :: l =>
    match maxByKey key l with
    | none => some a
    | some b => if key a ≤ key b then some b else some a

def cwdWorkspaces (workspaces : List (WorkspaceId × Option Text)) : List (WorkspaceId × Text) :=
  workspaces.filterMap (fun w => w.2.map (fun dir => (w.1,dir)))

def fallbackIds (workspaces : List (WorkspaceId × Option Text)) : List WorkspaceId :=
  (workspaces.filter (fun w => w.2.isNone)).map Prod.fst

def bestWorkspace (cwds : List (WorkspaceId × Text)) (cwd : Text) : Option (WorkspaceId × Text) :=
  maxByKey (fun w => byteLength w.2) (cwds.filter (fun w => isUnder cwd w.2))

/-- The ports of the workspaces with a directory, and all of these. -/
structure Claims where
  results : HashMap WorkspaceId (Finset ℕ)
  claimed : Finset ℕ

/-- One process of the loop. -/
def claim (cwds : List (WorkspaceId × Text)) (c : Claims) (p : Text × List ℕ) : Claims :=
  match bestWorkspace cwds p.1 with
  | none => c
  | some (id,_) =>
    { results := c.results.insert id ((c.results.lookup id).getD ∅ ∪ p.2.toFinset)
      claimed := c.claimed ∪ p.2.toFinset }

def claims (cwds : List (WorkspaceId × Text)) (pidPorts : List (Text × List ℕ)) : Claims :=
  pidPorts.foldl (claim cwds) ⟨∅,∅⟩

def allPorts (pidPorts : List (Text × List ℕ)) : Finset ℕ := (pidPorts.flatMap Prod.snd).toFinset

def sorted (ports : Finset ℕ) : List ℕ := ports.sort (· ≤ ·)

/-- The ports that go to each workspace without a directory. -/
def fallbackPorts (cwds : List (WorkspaceId × Text)) (fallback : List WorkspaceId)
    (pidPorts : List (Text × List ℕ)) (claimed : Finset ℕ) : Finset ℕ :=
  if fallback ≠ [] ∧ claimed ≠ ∅ then
    if cwds = [] then allPorts pidPorts else allPorts pidPorts \ claimed
  else if fallback ≠ [] ∧ claimed = ∅ then allPorts pidPorts
  else ∅

def pidPortsOf (inodes : HashMap ℕ ℕ) (processes : List Process) : List (Text × List ℕ) :=
  processes.filterMap (fun p =>
    let ports := pidListeningPorts inodes p
    if ports = [] then none else p.cwd.map (fun cwd => (cwd.text,ports)))

/-- The entries of the workspaces with a directory, in some order, and those of the others. -/
def assign (workspaces : List (WorkspaceId × Option Text)) (pidPorts : List (Text × List ℕ)) :
    List (WorkspaceId × List ℕ) :=
  let cwds := cwdWorkspaces workspaces
  let c := claims cwds pidPorts
  let results := (c.results.entries.map (fun e => (e.1,e.2))).filter (fun e => e.2 ≠ ∅)
  let ports := fallbackPorts cwds (fallbackIds workspaces) pidPorts c.claimed
  results.map (fun e => (e.1,sorted e.2)) ++
    (if ports = ∅ then [] else (fallbackIds workspaces).map (fun id => (id,sorted ports)))

def scan (inodes : HashMap ℕ ℕ) (processes : List Process)
    (workspaces : List (WorkspaceId × Option Text)) : List (WorkspaceId × List ℕ) :=
  if inodes.keys = [] then []
  else
    let pidPorts := pidPortsOf inodes processes
    if pidPorts = [] then [] else assign workspaces pidPorts

section Scan

variable {cwds : List (WorkspaceId × Text)} {pidPorts : List (Text × List ℕ)} {id : WorkspaceId}
  {port : ℕ}

theorem maxByKey_eq_none {α : Type} {key : α → ℕ} {l : List α} :
    maxByKey key l = none ↔ l = [] := by
  cases l with
  | nil => simp [maxByKey]
  | cons a l =>
    rw [maxByKey]
    cases maxByKey key l with
    | none => simp
    | some b => by_cases h : key a ≤ key b <;> simp [h]

theorem maxByKey_eq_some {α : Type} {key : α → ℕ} {l : List α} {a : α}
    (h : maxByKey key l = some a) : a ∈ l ∧ ∀ b ∈ l, key b ≤ key a := by
  induction l generalizing a with
  | nil => cases h
  | cons x l ih =>
    rw [maxByKey] at h
    cases hl : maxByKey key l with
    | none =>
      rw [maxByKey_eq_none] at hl
      subst hl
      cases h
      simp
    | some b =>
      obtain ⟨hb,hmax⟩ := ih hl
      rw [hl] at h
      simp only at h
      split_ifs at h with hle <;> cases h
      · refine ⟨List.mem_cons_of_mem _ hb,fun c hc => ?_⟩
        rcases List.mem_cons.mp hc with rfl | hc
        · exact hle
        · exact hmax c hc
      · refine ⟨List.mem_cons_self,fun c hc => ?_⟩
        rcases List.mem_cons.mp hc with rfl | hc
        · exact le_refl _
        · exact (hmax c hc).trans (le_of_lt (not_le.mp hle))

def owner (cwds : List (WorkspaceId × Text)) (cwd : Text) : Option WorkspaceId :=
  (bestWorkspace cwds cwd).map Prod.fst

theorem claim_eq (c : Claims) (p : Text × List ℕ) : claim cwds c p =
    match owner cwds p.1 with
    | none => c
    | some id =>
      { results := c.results.insert id ((c.results.lookup id).getD ∅ ∪ p.2.toFinset)
        claimed := c.claimed ∪ p.2.toFinset } := by
  unfold claim owner
  cases bestWorkspace cwds p.1 <;> rfl

theorem mem_results_claim (c : Claims) (p : Text × List ℕ) :
    port ∈ ((claim cwds c p).results.lookup id).getD ∅ ↔
      port ∈ (c.results.lookup id).getD ∅ ∨ (owner cwds p.1 = some id ∧ port ∈ p.2) := by
  rw [claim_eq]
  cases howner : owner cwds p.1 with
  | none => simp
  | some id' =>
    simp only [HashMap.lookup_insert_ite]
    by_cases hid : id = id'
    · subst hid
      simp
    · have hid' : ¬id' = id := fun h => hid h.symm
      simp [hid,hid']

theorem mem_claimed_claim (c : Claims) (p : Text × List ℕ) :
    port ∈ (claim cwds c p).claimed ↔
      port ∈ c.claimed ∨ (owner cwds p.1 ≠ none ∧ port ∈ p.2) := by
  rw [claim_eq]
  cases owner cwds p.1 with
  | none => simp
  | some id' => simp

theorem isSome_results_claim (c : Claims) (p : Text × List ℕ) :
    ((claim cwds c p).results.lookup id).isSome = true ↔
      (c.results.lookup id).isSome = true ∨ owner cwds p.1 = some id := by
  rw [claim_eq]
  cases howner : owner cwds p.1 with
  | none => simp
  | some id' =>
    simp only [HashMap.lookup_insert_ite]
    by_cases hid : id = id'
    · subst hid
      simp
    · have hid' : ¬id' = id := fun h => hid h.symm
      simp [hid,hid']

theorem claims_spec (cwds : List (WorkspaceId × Text)) (pidPorts : List (Text × List ℕ)) :
    (∀ id port, port ∈ ((claims cwds pidPorts).results.lookup id).getD ∅ ↔
      ∃ p ∈ pidPorts, owner cwds p.1 = some id ∧ port ∈ p.2) ∧
    (∀ port, port ∈ (claims cwds pidPorts).claimed ↔
      ∃ p ∈ pidPorts, owner cwds p.1 ≠ none ∧ port ∈ p.2) ∧
    ∀ id, ((claims cwds pidPorts).results.lookup id).isSome = true →
      ∃ p ∈ pidPorts, owner cwds p.1 = some id := by
  induction pidPorts using List.reverseRecOn with
  | nil => simp [claims]
  | append_singleton l p ih =>
    obtain ⟨hres,hclaimed,hsome⟩ := ih
    have hstep : claims cwds (l ++ [p]) = claim cwds (claims cwds l) p := by
      rw [claims,List.foldl_append]
      rfl
    rw [hstep]
    refine ⟨fun id port => ?_,fun port => ?_,fun id h => ?_⟩
    · rw [mem_results_claim,hres]
      simp only [List.mem_append,List.mem_singleton,or_and_right,exists_or,exists_eq_left]
    · rw [mem_claimed_claim,hclaimed]
      simp only [List.mem_append,List.mem_singleton,or_and_right,exists_or,exists_eq_left]
    · rcases (isSome_results_claim _ _).mp h with h | h
      · obtain ⟨q,hq,howner⟩ := hsome id h
        exact ⟨q,List.mem_append_left _ hq,howner⟩
      · exact ⟨p,by simp,h⟩

theorem mem_allPorts : port ∈ allPorts pidPorts ↔ ∃ p ∈ pidPorts, port ∈ p.2 := by
  simp [allPorts]

/-- The three branches come to the ports that no workspace with a directory has claimed. -/
theorem mem_fallbackPorts {fallback : List WorkspaceId} (hne : fallback ≠ []) :
    port ∈ fallbackPorts cwds fallback pidPorts (claims cwds pidPorts).claimed ↔
      (∃ p ∈ pidPorts, port ∈ p.2) ∧
        ∀ p ∈ pidPorts, port ∈ p.2 → owner cwds p.1 = none := by
  obtain ⟨-,hclaimed,-⟩ := claims_spec cwds pidPorts
  have hnot : port ∉ (claims cwds pidPorts).claimed ↔
      ∀ p ∈ pidPorts, port ∈ p.2 → owner cwds p.1 = none := by
    rw [hclaimed]
    refine ⟨fun h p hp hport => ?_,?_⟩
    · by_contra hown
      exact h ⟨p,hp,hown,hport⟩
    · rintro h ⟨p,hp,hown,hport⟩
      exact hown (h p hp hport)
  unfold fallbackPorts
  by_cases hcl : (claims cwds pidPorts).claimed = ∅
  · rw [if_neg (by simp [hcl]),if_pos ⟨hne,hcl⟩,mem_allPorts,← hnot,hcl]
    simp
  · rw [if_pos ⟨hne,hcl⟩,if_neg,Finset.mem_sdiff,mem_allPorts,hnot]
    -- somebody has claimed a port
    rintro rfl
    obtain ⟨port,hport⟩ := Finset.nonempty_iff_ne_empty.mpr hcl
    obtain ⟨p,-,hown,-⟩ := (hclaimed port).mp hport
    exact hown rfl

end Scan

/-! What each workspace is to get. -/

/-- A workspace with a directory above the process such that none of the others is deeper. -/
def Nearest (workspaces : List (WorkspaceId × Option Text)) (cwd : Text) (id : WorkspaceId) :
    Prop :=
  ∃ dir, (id,some dir) ∈ workspaces ∧ Path.Below cwd dir ∧
    ∀ id' dir', (id',some dir') ∈ workspaces → Path.Below cwd dir' →
      (Path.components dir').length ≤ (Path.components dir).length

/-- Every process goes to a nearest workspace, if there is one. -/
def Owns (workspaces : List (WorkspaceId × Option Text)) (cwd : Text) :
    Option WorkspaceId → Prop
  | some id => Nearest workspaces cwd id
  | none => ∀ id, ¬Nearest workspaces cwd id

def listening (inodes : HashMap ℕ ℕ) (processes : List Process) : List (Text × List ℕ) :=
  processes.filterMap (fun p => p.cwd.map (fun cwd => (cwd.text,pidListeningPorts inodes p)))

/-- A port goes to a workspace with a directory if a process of the workspace listens on it, and
to one without if a process listens on it and none that has an owner. -/
def Gets (procs : List ((Text × List ℕ) × Option WorkspaceId)) (id : WorkspaceId)
    (dir : Option Text) (port : ℕ) : Prop :=
  match dir with
  | some _ => ∃ p ∈ procs, p.2 = some id ∧ port ∈ p.1.2
  | none => (∃ p ∈ procs, port ∈ p.1.2) ∧ ∀ p ∈ procs, port ∈ p.1.2 → p.2 = none

/-- The result says what each workspace gets, by some choice among the nearest workspaces of
each process. -/
structure Attributed (workspaces : List (WorkspaceId × Option Text))
    (procs : List (Text × List ℕ)) (result : List (WorkspaceId × List ℕ)) : Prop where
  once : (result.map Prod.fst).Nodup
  entries : ∃ owners : List (Option WorkspaceId), owners.length = procs.length ∧
    (∀ p ∈ procs.zip owners, Owns workspaces p.1.1 p.2) ∧
    ∀ id ports, (id,ports) ∈ result ↔ ports ≠ [] ∧ ports.Pairwise (· < ·) ∧
      ∃ dir, (id,dir) ∈ workspaces ∧ ∀ port, port ∈ ports ↔ Gets (procs.zip owners) id dir port

section Entries

variable {workspaces : List (WorkspaceId × Option Text)} {pidPorts : List (Text × List ℕ)}
  {inodes : HashMap ℕ ℕ} {processes : List Process} {id : WorkspaceId} {ports : List ℕ}

theorem mem_cwdWorkspaces {dir : Text} :
    (id,dir) ∈ cwdWorkspaces workspaces ↔ (id,some dir) ∈ workspaces := by
  rw [cwdWorkspaces,List.mem_filterMap]
  constructor
  · rintro ⟨⟨id',dir'⟩,hw,hmap⟩
    obtain ⟨d,rfl,heq⟩ := Option.map_eq_some_iff.mp hmap
    cases heq
    exact hw
  · intro h
    exact ⟨_,h,rfl⟩

theorem mem_fallbackIds : id ∈ fallbackIds workspaces ↔ (id,none) ∈ workspaces := by
  simp only [fallbackIds,List.mem_map,List.mem_filter,Option.isNone_iff_eq_none]
  constructor
  · rintro ⟨⟨id',dir⟩,⟨hw,rfl⟩,rfl⟩
    exact hw
  · intro h
    exact ⟨_,⟨h,rfl⟩,rfl⟩

theorem mem_of_owner {cwd : Text} (h : owner (cwdWorkspaces workspaces) cwd = some id) :
    ∃ dir, (id,some dir) ∈ workspaces ∧ isUnder cwd dir = true ∧
      ∀ id' dir', (id',some dir') ∈ workspaces → isUnder cwd dir' = true →
        byteLength dir' ≤ byteLength dir := by
  obtain ⟨⟨id',dir⟩,hbest,rfl⟩ := Option.map_eq_some_iff.mp h
  obtain ⟨hmem,hmax⟩ := maxByKey_eq_some hbest
  obtain ⟨hin,hunder⟩ := List.mem_filter.mp hmem
  refine ⟨dir,mem_cwdWorkspaces.mp hin,hunder,fun id' dir' hin' hunder' => ?_⟩
  exact hmax (id',dir') (List.mem_filter.mpr ⟨mem_cwdWorkspaces.mpr hin',hunder'⟩)

theorem not_under_of_owner {cwd : Text} (h : owner (cwdWorkspaces workspaces) cwd = none) :
    ∀ id dir, (id,some dir) ∈ workspaces → isUnder cwd dir = false := by
  intro id dir hin
  by_contra hunder
  have hnil := maxByKey_eq_none.mp (Option.map_eq_none_iff.mp h)
  have hmem : (id,dir) ∈ (cwdWorkspaces workspaces).filter (fun w => isUnder cwd w.2) :=
    List.mem_filter.mpr ⟨mem_cwdWorkspaces.mpr hin,by simpa using hunder⟩
  rw [hnil] at hmem
  cases hmem

theorem assign_nil : assign workspaces [] = [] := by
  have hclaims : claims (cwdWorkspaces workspaces) [] = ⟨∅,∅⟩ := rfl
  have hports : fallbackPorts (cwdWorkspaces workspaces) (fallbackIds workspaces) [] ∅ = ∅ := by
    unfold fallbackPorts
    split_ifs <;> rfl
  simp only [assign,hclaims,hports]
  rfl

theorem pidPortsOf_eq : pidPortsOf inodes processes =
    (listening inodes processes).filter (fun p => p.2 ≠ []) := by
  induction processes with
  | nil => rfl
  | cons p processes ih =>
    simp only [pidPortsOf,listening,List.filterMap_cons] at ih ⊢
    cases hcwd : p.cwd with
    | none => simp [ih]
    | some cwd =>
      by_cases hports : pidListeningPorts inodes p = []
      · simp [hports,ih]
      · simp [hports,ih]

/-- The early returns give what the rest would. -/
theorem scan_eq : scan inodes processes workspaces =
    assign workspaces (pidPortsOf inodes processes) := by
  have hnil : inodes.keys = [] → pidPortsOf inodes processes = [] := by
    intro hkeys
    have hports : ∀ p, pidListeningPorts inodes p = [] := by
      intro p
      rw [pidListeningPorts,List.filterMap_eq_nil_iff]
      intro inode _
      rw [AList.lookup_eq_none,AList.mem_keys,hkeys]
      exact List.not_mem_nil
    rw [pidPortsOf,List.filterMap_eq_nil_iff]
    intro p _
    exact if_pos (hports p)
  rw [scan]
  by_cases hkeys : inodes.keys = []
  · rw [if_pos hkeys,hnil hkeys,assign_nil]
  · rw [if_neg hkeys]
    by_cases hpp : pidPortsOf inodes processes = []
    · rw [hpp,assign_nil]
      rfl
    · exact if_neg hpp

theorem mem_assign : (id,ports) ∈ assign workspaces pidPorts ↔
    (∃ S, (claims (cwdWorkspaces workspaces) pidPorts).results.lookup id = some S ∧ S ≠ ∅ ∧
      ports = sorted S) ∨
    (id ∈ fallbackIds workspaces ∧
      fallbackPorts (cwdWorkspaces workspaces) (fallbackIds workspaces) pidPorts
        (claims (cwdWorkspaces workspaces) pidPorts).claimed ≠ ∅ ∧
      ports = sorted (fallbackPorts (cwdWorkspaces workspaces) (fallbackIds workspaces) pidPorts
        (claims (cwdWorkspaces workspaces) pidPorts).claimed)) := by
  simp only [assign,List.mem_append]
  refine or_congr ?_ ?_
  · simp only [List.mem_map,List.mem_filter,decide_eq_true_eq]
    constructor
    · rintro ⟨⟨id',S⟩,⟨⟨e,he,heq⟩,hne⟩,hsorted⟩
      cases heq
      cases hsorted
      exact ⟨_,AList.mem_lookup_iff.mpr he,hne,rfl⟩
    · rintro ⟨S,hlookup,hne,rfl⟩
      exact ⟨(id,S),⟨⟨⟨id,S⟩,AList.mem_lookup_iff.mp hlookup,rfl⟩,hne⟩,rfl⟩
  · split_ifs with hF
    · simp [hF]
    · simp only [List.mem_map,Prod.mk.injEq,ne_eq,hF,not_false_eq_true,true_and]
      constructor
      · rintro ⟨id',hid,rfl,rfl⟩
        exact ⟨hid,rfl⟩
      · rintro ⟨hid,rfl⟩
        exact ⟨id,hid,rfl,rfl⟩

theorem eq_sorted_iff {S : Finset ℕ} : (S ≠ ∅ ∧ ports = sorted S) ↔
    ports ≠ [] ∧ ports.Pairwise (· < ·) ∧ ∀ port, port ∈ ports ↔ port ∈ S := by
  constructor
  · rintro ⟨hne,rfl⟩
    refine ⟨?_,(Finset.sortedLT_sort S).pairwise,fun port => Finset.mem_sort _⟩
    intro hnil
    obtain ⟨port,hport⟩ := Finset.nonempty_iff_ne_empty.mpr hne
    have : port ∈ sorted S := (Finset.mem_sort _).mpr hport
    rw [hnil] at this
    cases this
  · rintro ⟨hne,hlt,hmem⟩
    have hS : ports.toFinset = S := by
      ext port
      rw [List.mem_toFinset,hmem]
    have hsort := (List.toFinset_sort (r := (· ≤ ·)) (hlt.imp fun h => Nat.ne_of_lt h)).mpr
      (hlt.imp fun h => Nat.le_of_lt h)
    refine ⟨?_,by rw [sorted,← hS]; exact hsort.symm⟩
    rintro rfl
    obtain ⟨port,hport⟩ := List.exists_mem_of_ne_nil _ hne
    exact absurd ((hmem port).mp hport) (Finset.notMem_empty port)

def owners (workspaces : List (WorkspaceId × Option Text)) (procs : List (Text × List ℕ)) :
    List (Option WorkspaceId) :=
  procs.map (fun p => owner (cwdWorkspaces workspaces) p.1)

theorem mem_zip_owners {procs : List (Text × List ℕ)}
    {p : (Text × List ℕ) × Option WorkspaceId} : p ∈ procs.zip (owners workspaces procs) ↔
      p.1 ∈ procs ∧ p.2 = owner (cwdWorkspaces workspaces) p.1.1 := by
  rw [owners,← List.map_prod_left_eq_zip,List.mem_map]
  constructor
  · rintro ⟨q,hq,rfl⟩
    exact ⟨hq,rfl⟩
  · rintro ⟨hp,howner⟩
    exact ⟨p.1,hp,Prod.ext rfl howner.symm⟩

theorem gets_directory {dir : Text} {port : ℕ} :
    Gets ((listening inodes processes).zip (owners workspaces (listening inodes processes))) id
      (some dir) port ↔ ∃ p ∈ pidPortsOf inodes processes,
        owner (cwdWorkspaces workspaces) p.1 = some id ∧ port ∈ p.2 := by
  rw [pidPortsOf_eq]
  constructor
  · rintro ⟨p,hp,hid,hport⟩
    obtain ⟨hmem,howner⟩ := mem_zip_owners.mp hp
    refine ⟨p.1,List.mem_filter.mpr ⟨hmem,?_⟩,howner ▸ hid,hport⟩
    simpa using List.ne_nil_of_mem hport
  · rintro ⟨p,hp,hid,hport⟩
    exact ⟨(p,owner (cwdWorkspaces workspaces) p.1),
      mem_zip_owners.mpr ⟨(List.mem_filter.mp hp).1,rfl⟩,hid,hport⟩

theorem gets_fallback {port : ℕ} :
    Gets ((listening inodes processes).zip (owners workspaces (listening inodes processes))) id
      none port ↔ (∃ p ∈ pidPortsOf inodes processes, port ∈ p.2) ∧
        ∀ p ∈ pidPortsOf inodes processes, port ∈ p.2 →
          owner (cwdWorkspaces workspaces) p.1 = none := by
  rw [pidPortsOf_eq]
  refine and_congr ⟨?_,?_⟩ ⟨?_,?_⟩
  · rintro ⟨p,hp,hport⟩
    refine ⟨p.1,List.mem_filter.mpr ⟨(mem_zip_owners.mp hp).1,?_⟩,hport⟩
    simpa using List.ne_nil_of_mem hport
  · rintro ⟨p,hp,hport⟩
    exact ⟨(p,owner (cwdWorkspaces workspaces) p.1),
      mem_zip_owners.mpr ⟨(List.mem_filter.mp hp).1,rfl⟩,hport⟩
  · intro h p hp hport
    exact h (p,owner (cwdWorkspaces workspaces) p.1)
      (mem_zip_owners.mpr ⟨(List.mem_filter.mp hp).1,rfl⟩) hport
  · intro h p hp hport
    obtain ⟨hmem,howner⟩ := mem_zip_owners.mp hp
    rw [howner]
    exact h p.1 (List.mem_filter.mpr ⟨hmem,by simpa using List.ne_nil_of_mem hport⟩) hport

theorem mem_scan : (id,ports) ∈ scan inodes processes workspaces ↔
    ports ≠ [] ∧ ports.Pairwise (· < ·) ∧ ∃ dir, (id,dir) ∈ workspaces ∧ ∀ port, port ∈ ports ↔
      Gets ((listening inodes processes).zip (owners workspaces (listening inodes processes)))
        id dir port := by
  obtain ⟨hres,-,hsome⟩ := claims_spec (cwdWorkspaces workspaces) (pidPortsOf inodes processes)
  rw [scan_eq,mem_assign]
  constructor
  · rintro (⟨S,hlookup,hS⟩ | ⟨hid,hF⟩)
    · obtain ⟨hne,hlt,hmem⟩ := eq_sorted_iff.mp hS
      obtain ⟨p,-,howner⟩ := hsome id (by rw [hlookup]; rfl)
      obtain ⟨dir,hdir,-⟩ := mem_of_owner howner
      refine ⟨hne,hlt,some dir,hdir,fun port => ?_⟩
      rw [hmem,gets_directory,← hres,hlookup]
      rfl
    · obtain ⟨hne,hlt,hmem⟩ := eq_sorted_iff.mp hF
      refine ⟨hne,hlt,none,mem_fallbackIds.mp hid,fun port => ?_⟩
      rw [hmem,gets_fallback,mem_fallbackPorts (List.ne_nil_of_mem hid)]
  · rintro ⟨hne,hlt,dir,hdir,hmem⟩
    cases dir with
    | some dir =>
      have hS := eq_sorted_iff.mpr ⟨hne,hlt,fun port =>
        (hmem port).trans (gets_directory.trans (hres id port).symm)⟩
      cases hlookup : (claims (cwdWorkspaces workspaces)
          (pidPortsOf inodes processes)).results.lookup id with
      | none => exact absurd (by rw [hlookup]; rfl) hS.1
      | some S =>
        rw [hlookup] at hS
        exact .inl ⟨S,rfl,hS⟩
    | none =>
      have hid := mem_fallbackIds.mpr hdir
      have hF := eq_sorted_iff.mpr ⟨hne,hlt,fun port => (hmem port).trans
        (gets_fallback.trans (mem_fallbackPorts (List.ne_nil_of_mem hid)).symm)⟩
      exact .inr ⟨hid,hF⟩

theorem nodup_scan (hids : (workspaces.map Prod.fst).Nodup) :
    ((scan inodes processes workspaces).map Prod.fst).Nodup := by
  have hfallback : (fallbackIds workspaces).Nodup :=
    hids.sublist (List.filter_sublist.map _)
  obtain ⟨-,-,hsome⟩ := claims_spec (cwdWorkspaces workspaces) (pidPortsOf inodes processes)
  have hkeys := (claims (cwdWorkspaces workspaces) (pidPortsOf inodes processes)).results.keys_nodup
  rw [scan_eq]
  simp only [assign,List.map_append,List.map_map]
  rw [List.nodup_append]
  refine ⟨?_,?_,?_⟩
  · exact hkeys.sublist (by
      have hfst : (claims (cwdWorkspaces workspaces)
          (pidPortsOf inodes processes)).results.keys = ((claims (cwdWorkspaces workspaces)
            (pidPortsOf inodes processes)).results.entries.map
              (fun e => (e.1,e.2))).map Prod.fst := by
        rw [List.map_map]
        rfl
      rw [hfst]
      exact List.filter_sublist.map _)
  · split_ifs
    · exact List.nodup_nil
    · simpa [Function.comp_def] using hfallback
  · -- a workspace in the results has a directory, the others have none
    rintro id hid _ hid' rfl
    obtain ⟨⟨_,S⟩,hmem,rfl⟩ := List.mem_map.mp hid
    obtain ⟨⟨⟨_,_⟩,he,heq⟩,-⟩ := (List.mem_filter.mp hmem).imp_left List.mem_map.mp
    cases heq
    obtain ⟨p,-,howner⟩ := hsome _ (by rw [AList.mem_lookup_iff.mpr he]; rfl)
    obtain ⟨dir,hdir,-⟩ := mem_of_owner howner
    split_ifs at hid' with hF
    · cases hid'
    · have hnone : ∀ id ∈ fallbackIds workspaces, (id,some dir) ∉ workspaces := by
        intro id hid hin
        have := List.inj_on_of_nodup_map hids (mem_fallbackIds.mp hid) hin rfl
        cases this
      simp only [List.map_map,Function.comp_def,List.map_id'] at hid'
      exact hnone _ hid' hdir

end Entries

/-- The workspaces as the application lists them, each once and with absolute directories. -/
structure Snapshot where
  workspaces : List (WorkspaceId × Option Text)
  nodup : (workspaces.map Prod.fst).Nodup
  absolute : ∀ id dir, (id,some dir) ∈ workspaces → dir.head? = some '/'

/-- A directory above the process, written as the system writes it; the root only for a process
in the root. -/
def Plain (cwd dir : Text) : Prop :=
  Path.Below cwd dir ∧ dir = Path.absolute (Path.components dir) ∧ (dir = ['/'] → cwd = ['/'])

/-- One of the deepest directories above the process is plain. -/
def PlainNearest (workspaces : List (WorkspaceId × Option Text)) (cwd : Text) : Prop :=
  ∀ id dir, (id,some dir) ∈ workspaces → Path.Below cwd dir →
    ∃ id' dir', (id',some dir') ∈ workspaces ∧ Plain cwd dir' ∧
      (Path.components dir).length ≤ (Path.components dir').length

section Attribution

variable {ws : Snapshot} {cwd : Cwd} {id : WorkspaceId} {dir dir' : Text}

theorem isUnder_iff : isUnder cwd.text dir = true ↔ Path.Under cwd.text dir := by
  simp [isUnder,Path.Under]

theorem absolute_eq_root {cs : List Text} (h : ∀ c ∈ cs, Path.Name c) :
    Path.absolute cs = ['/'] ↔ cs = [] := by
  constructor
  · intro heq
    rw [← Path.components_absolute h,heq]
    decide
  · rintro rfl
    rfl

/-- The code takes the plain directories. -/
theorem isUnder_iff_plain (hdir : dir.head? = some '/') :
    isUnder cwd.text dir = true ↔ Plain cwd.text dir := by
  obtain ⟨cs,hcs,htext⟩ := cwd.written
  rw [isUnder_iff,htext,Path.under_absolute hcs hdir,Plain,Path.Below,
    Path.components_absolute hcs]
  constructor
  · rintro ⟨ds,hds,rfl,hroot⟩
    have hnames : ∀ d ∈ ds, Path.Name d := fun d hd => hcs d (hds.subset hd)
    rw [Path.components_absolute hnames,absolute_eq_root hnames,absolute_eq_root hcs]
    exact ⟨hds,rfl,hroot⟩
  · rintro ⟨hds,hwritten,hroot⟩
    refine ⟨Path.components dir,hds,hwritten,fun hnil => ?_⟩
    rw [hnil] at hwritten
    exact (absolute_eq_root hcs).mp (hroot hwritten)

theorem length_le_of_byteLength_le (hdir : Plain cwd.text dir) (hdir' : Plain cwd.text dir')
    (hle : byteLength dir ≤ byteLength dir') :
    (Path.components dir).length ≤ (Path.components dir').length := by
  obtain ⟨hbelow,hwritten,-⟩ := hdir
  obtain ⟨hbelow',hwritten',hroot'⟩ := hdir'
  by_contra hlt
  obtain ⟨t,ht⟩ := List.prefix_of_prefix_length_le hbelow' hbelow (le_of_lt (not_le.mp hlt))
  have htne : t ≠ [] := by
    rintro rfl
    rw [List.append_nil] at ht
    rw [ht] at hlt
    exact hlt le_rfl
  have hne' : Path.components dir' ≠ [] := by
    intro hnil
    rw [hnil] at hwritten'
    have : Path.components ['/'] = [] := by decide
    rw [Path.Below,hroot' hwritten',this,List.prefix_nil] at hbelow
    rw [hbelow,hnil] at hlt
    exact hlt le_rfl
  have hne : Path.components dir ≠ [] := by
    rw [← ht]
    simp [hne']
  have htext : dir = dir' ++ Path.slashed t := by
    rw [hwritten,hwritten',Path.absolute,if_neg hne,Path.absolute,if_neg hne',← ht,
      Path.slashed_append]
  have hpos : 0 < (Utf8.encode (Path.slashed t)).length := by
    obtain ⟨c,t,rfl⟩ := List.exists_cons_of_ne_nil htne
    exact lt_of_lt_of_le (Nat.succ_pos _) (Utf8.length_le_encode (Path.slashed (c :: t)))
  rw [byteLength,byteLength,htext,Utf8.encode_append,List.length_append] at hle
  omega

theorem Snapshot.dir_unique {d d' : Option Text} (h : (id,d) ∈ ws.workspaces)
    (h' : (id,d') ∈ ws.workspaces) : d = d' := by
  have := List.inj_on_of_nodup_map ws.nodup h h' rfl
  exact congrArg Prod.snd this

/-- The owner of the loop is a nearest workspace if a plain directory is a deepest one. -/
theorem owns_owner (h : PlainNearest ws.workspaces cwd.text) :
    Owns ws.workspaces cwd.text (owner (cwdWorkspaces ws.workspaces) cwd.text) := by
  cases howner : owner (cwdWorkspaces ws.workspaces) cwd.text with
  | none =>
    rintro id ⟨dir,hdir,hbelow,-⟩
    obtain ⟨id',dir',hdir',hplain,-⟩ := h id dir hdir hbelow
    have hunder := (isUnder_iff_plain (ws.absolute id' dir' hdir')).mpr hplain
    rw [not_under_of_owner howner id' dir' hdir'] at hunder
    cases hunder
  | some id =>
    obtain ⟨dir,hdir,hunder,hmax⟩ := mem_of_owner howner
    have hplain := (isUnder_iff_plain (ws.absolute id dir hdir)).mp hunder
    refine ⟨dir,hdir,hplain.1,fun id' dir' hdir' hbelow => ?_⟩
    obtain ⟨id'',dir'',hdir'',hplain'',hle⟩ := h id' dir' hdir' hbelow
    have hunder'' := (isUnder_iff_plain (ws.absolute id'' dir'' hdir'')).mpr hplain''
    exact hle.trans (length_le_of_byteLength_le hplain'' hplain (hmax id'' dir'' hdir'' hunder''))

theorem attributed_of_plain {inodes : HashMap ℕ ℕ} {processes : List Process}
    (h : ∀ cwd ∈ processes.filterMap Process.cwd, PlainNearest ws.workspaces cwd.text) :
    Attributed ws.workspaces (listening inodes processes)
      (scan inodes processes ws.workspaces) where
  once := nodup_scan ws.nodup
  entries := by
    refine ⟨owners ws.workspaces (listening inodes processes),by simp [owners],?_,
      fun id ports => mem_scan⟩
    intro p hp
    obtain ⟨hmem,howner⟩ := mem_zip_owners.mp hp
    obtain ⟨q,hq,hcwd⟩ := List.mem_filterMap.mp hmem
    obtain ⟨cwd,hcwd,heq⟩ := Option.map_eq_some_iff.mp hcwd
    rw [howner,← heq]
    exact owns_owner (h cwd (List.mem_filterMap.mpr ⟨q,hq,hcwd⟩))

theorem nearest_of_below (h : (id,some dir) ∈ ws.workspaces) (hbelow : Path.Below cwd.text dir) :
    ∃ id' dir', (id',some dir') ∈ ws.workspaces ∧ Path.Below cwd.text dir' ∧
      (∀ id'' dir'', (id'',some dir'') ∈ ws.workspaces → Path.Below cwd.text dir'' →
        (Path.components dir'').length ≤ (Path.components dir').length) := by
  classical
  let above := (cwdWorkspaces ws.workspaces).filter (fun w => Path.Below cwd.text w.2)
  have hmem : ∀ w, w ∈ above ↔ (w.1,some w.2) ∈ ws.workspaces ∧ Path.Below cwd.text w.2 := by
    intro w
    simp only [above,List.mem_filter,decide_eq_true_eq]
    exact and_congr_left fun _ => mem_cwdWorkspaces
  cases hbest : maxByKey (fun w => (Path.components w.2).length) above with
  | none =>
    have := (hmem (id,dir)).mpr ⟨h,hbelow⟩
    rw [maxByKey_eq_none.mp hbest] at this
    cases this
  | some w =>
    obtain ⟨hw,hmax⟩ := maxByKey_eq_some hbest
    obtain ⟨hin,hbelow'⟩ := (hmem w).mp hw
    exact ⟨w.1,w.2,hin,hbelow',fun id'' dir'' hin' hbelow'' =>
      hmax (id'',dir'') ((hmem _).mpr ⟨hin',hbelow''⟩)⟩

def probe (cwds : List Cwd) (text : Text) : List Process :=
  cwds.map (fun c => ⟨some c,if c.text = text then [1] else []⟩)

def probePorts : HashMap ℕ ℕ := AList.insert 1 80 ∅

theorem listening_probe (cwds : List Cwd) (text : Text) :
    listening probePorts (probe cwds text) =
      cwds.map (fun c => (c.text,if c.text = text then [80] else [])) := by
  rw [listening,probe,List.filterMap_map,← List.filterMap_eq_map]
  congr 1
  funext c
  by_cases hc : c.text = text
  · simp only [Function.comp_apply,pidListeningPorts,if_pos hc]
    rfl
  · simp only [Function.comp_apply,pidListeningPorts,if_neg hc]
    rfl

/-- If the port of the processes in one directory is attributed, a plain directory is a deepest
one above it. -/
theorem plain_of_attributed {cwds : List Cwd} (hcwd : cwd ∈ cwds)
    (h : Attributed ws.workspaces (listening probePorts (probe cwds cwd.text))
      (scan probePorts (probe cwds cwd.text) ws.workspaces)) :
    PlainNearest ws.workspaces cwd.text := by
  intro id dir hdir hbelow
  obtain ⟨id',dir',hdir',hbelow',hmax⟩ := nearest_of_below hdir hbelow
  obtain ⟨owners',hlen,howns,hentries⟩ := h.entries
  have hports : ∀ p ∈ listening probePorts (probe cwds cwd.text), ∀ port ∈ p.2,
      p.1 = cwd.text ∧ port = 80 := by
    rw [listening_probe]
    intro p hp port hport
    obtain ⟨c,-,rfl⟩ := List.mem_map.mp hp
    by_cases hc : c.text = cwd.text
    · exact ⟨hc,by simpa [hc] using hport⟩
    · simp [hc] at hport
  have hmem : (cwd.text,[80]) ∈ listening probePorts (probe cwds cwd.text) := by
    rw [listening_probe]
    exact List.mem_map.mpr ⟨cwd,hcwd,by simp⟩
  -- the owner that the attribution gives to the listening process
  obtain ⟨o,ho⟩ : ∃ o, ((cwd.text,[80]),o) ∈
      (listening probePorts (probe cwds cwd.text)).zip owners' := by
    obtain ⟨i,hi,heq⟩ := List.mem_iff_getElem.mp hmem
    have hi' : i < owners'.length := hlen ▸ hi
    refine ⟨owners'[i],List.mem_iff_getElem.mpr ⟨i,?_,?_⟩⟩
    · rw [List.length_zip]
      omega
    · rw [List.getElem_zip,heq]
  have hnearest := howns _ ho
  cases o with
  | none => exact absurd ⟨dir',hdir',hbelow',hmax⟩ (hnearest id')
  | some i =>
    obtain ⟨d,hd,hdbelow,hdmax⟩ := hnearest
    have hin : (i,[80]) ∈ scan probePorts (probe cwds cwd.text) ws.workspaces := by
      refine (hentries i [80]).mpr ⟨by simp,by simp,some d,hd,fun port => ?_⟩
      rw [List.mem_singleton]
      constructor
      · rintro rfl
        exact ⟨_,ho,rfl,by simp⟩
      · rintro ⟨p,hp,-,hport⟩
        exact (hports p.1 (List.of_mem_zip hp).1 port hport).2
    obtain ⟨-,-,d',hd',hgets⟩ := mem_scan.mp hin
    rw [ws.dir_unique hd' hd] at hgets
    obtain ⟨p,hp,howner,hport⟩ := (hgets 80).mp (by simp)
    obtain ⟨hp1,hp2⟩ := mem_zip_owners.mp hp
    rw [howner,(hports p.1 hp1 80 hport).1] at hp2
    obtain ⟨d'',hd'',hunder,-⟩ := mem_of_owner hp2.symm
    obtain rfl := Option.some.inj (ws.dir_unique hd'' hd)
    exact ⟨i,d'',hd,(isUnder_iff_plain (ws.absolute i d'' hd)).mp hunder,
      (hdmax id dir hdir hbelow)⟩

/-- The ports of processes in the given directories are attributed, whatever they listen on, just
when a plain directory is a deepest one above each of them. -/
theorem scan_attributes_iff (ws : Snapshot) (cwds : List Cwd) :
    (∀ inodes processes, processes.filterMap Process.cwd = cwds →
      Attributed ws.workspaces (listening inodes processes)
        (scan inodes processes ws.workspaces)) ↔
    ∀ cwd ∈ cwds, PlainNearest ws.workspaces cwd.text := by
  constructor
  · intro h cwd hcwd
    apply plain_of_attributed hcwd
    apply h
    simp [probe,List.filterMap_map]
  · rintro h inodes processes rfl
    exact attributed_of_plain h

end Attribution

def atRoot : Snapshot where
  workspaces := [(0,some ['/'])]
  nodup := by simp
  absolute := by simp

def inA : Cwd where
  text := ['/','a']
  written := ⟨[['a']],by simp [Path.Name],rfl⟩

/-- The port of a process below the root is lost. -/
theorem scan_atRoot : scan probePorts (probe [inA] inA.text) atRoot.workspaces = [] ∧
    ¬Attributed atRoot.workspaces (listening probePorts (probe [inA] inA.text))
      (scan probePorts (probe [inA] inA.text) atRoot.workspaces) := by
  constructor
  · decide +kernel
  · intro h
    have hbelow : Path.Below inA.text ['/'] := by
      rw [Path.Below]
      decide
    obtain ⟨id,dir,hmem,⟨-,-,hroot⟩,-⟩ :=
      plain_of_attributed (List.mem_singleton_self inA) h 0 ['/'] (by simp [atRoot]) hbelow
    have hdir : dir = ['/'] := by
      rw [atRoot,List.mem_singleton] at hmem
      cases hmem
      rfl
    exact absurd (hroot hdir) (by simp [inA])

end Port

end Limux
