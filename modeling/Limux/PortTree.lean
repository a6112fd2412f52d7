import Limux.Lib.Worklist
import Limux.Lib.HashMap
import Limux.Lib.Number

/-! The descendants of a process by the files of `/proc`, each read at its own moment
(`collect_descendant_pids` in `app/src/port_detect.rs`). -/
namespace Limux.Port

open Relation

/-- `read_ppid`, of what `/proc/<pid>/stat` holds. -/
def readPpid (content : Text) : Option ℕ :=
  if ')' ∉ content then none
  else
    match Text.words (Text.afterLast ')' content) with
    | _ :: ppid :: _ => Text.parseUnsigned (2^32) ppid
    | _ => none

/-- The map of parents, from the names in `/proc` and the files that can be read. -/
def parentOf (names : List Text) (stat : ℕ → Option Text) : HashMap ℕ ℕ :=
  names.foldl (fun m name =>
    match Text.parseUnsigned (2^32) name with
    | none => m
    | some pid =>
      match (stat pid).bind readPpid with
      | none => m
      | some ppid => m.insert pid ppid) ∅

/-- The loop over the map, whose order does not change from one round to the next. -/
def children (m : HashMap ℕ ℕ) (parent : ℕ) : List ℕ :=
  (m.entries.filter (fun e => e.2 = parent)).map (fun e => e.1)

def collectDescendantPids (m : HashMap ℕ ℕ) (rounds root : ℕ) : Option (List ℕ) :=
  Worklist.run (children m) rounds [root] [root]

def IsParent (m : HashMap ℕ ℕ) (parent pid : ℕ) : Prop := m.lookup pid = some parent

instance (m : HashMap ℕ ℕ) (parent pid : ℕ) : Decidable (IsParent m parent pid) :=
  inferInstanceAs (Decidable (m.lookup pid = some parent))

theorem mem_children {m : HashMap ℕ ℕ} {parent pid : ℕ} :
    pid ∈ children m parent ↔ IsParent m parent pid := by
  rw [children,IsParent,← Option.mem_def,AList.mem_lookup_iff]
  constructor
  · intro h
    obtain ⟨⟨k,v⟩,he,rfl⟩ := List.mem_map.mp h
    obtain ⟨hm,hv⟩ := List.mem_filter.mp he
    obtain rfl : v = parent := by simpa using hv
    exact hm
  · exact fun h => List.mem_map.mpr ⟨⟨pid,parent⟩,List.mem_filter.mpr ⟨h,by simp⟩,rfl⟩

theorem child_children (m : HashMap ℕ ℕ) : Worklist.Child (children m) = IsParent m := by
  funext parent pid
  exact propext mem_children

theorem forest_children (m : HashMap ℕ ℕ) : Worklist.Forest (children m) where
  nodup _ := (List.filter_sublist.map _).nodup m.nodupKeys
  unique hy hy' := Option.some.inj ((mem_children.mp hy).symm.trans (mem_children.mp hy'))

theorem children_mem_keys {m : HashMap ℕ ℕ} {parent pid : ℕ} (h : pid ∈ children m parent) :
    pid ∈ m.keys :=
  AList.mem_keys.mpr (HashMap.mem_iff_lookup.mpr ⟨parent,mem_children.mp h⟩)

/-- The search ends with the root and each of its descendants once, exactly where the root is
not found below itself. -/
theorem collects_iff (m : HashMap ℕ ℕ) (root : ℕ) :
    (∃ rounds r, collectDescendantPids m rounds root = some r ∧ r.Nodup ∧
      ∀ pid, pid ∈ r ↔ ReflTransGen (IsParent m) root pid) ↔
      ¬TransGen (IsParent m) root root := by
  have h := Worklist.run_iff (forest_children m) (fun _ _ hy => children_mem_keys hy) root
  rwa [child_children] at h

/-- 50 is read as a child of 100. Then 100 exits, and a child of 50 is given its number. -/
def reusedPid : HashMap ℕ ℕ :=
  parentOf ["50".toList,"100".toList,"self".toList]
    (fun pid => if pid = 50 then some "50 (sh) S 100 50".toList else
      if pid = 100 then some "100 (a )b) S 50 50".toList else none)

theorem reusedPid_never_ends : ¬∃ rounds r, collectDescendantPids reusedPid rounds 50 = some r := by
  have h₁ : IsParent reusedPid 50 100 := by decide +kernel
  have h₂ : IsParent reusedPid 100 50 := by decide +kernel
  rintro ⟨rounds,r,h⟩
  refine Worklist.not_transGen_of_run h 50 (List.mem_singleton_self _) ?_
  rw [child_children]
  exact .tail (.single h₁) h₂

end Limux.Port
