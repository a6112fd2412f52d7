import Limux.Workspace
import Limux.Lib.Ranked

/-! The detail box of a sidebar row (`app/src/sidebar.rs`), as the list of its children from
top to bottom: `prepend` puts a child first and `append` last. -/
namespace Limux

/-- A child of the detail box, by what it was made of. -/
inductive DetailRow (F : Type)
  | status (entry : SidebarStatusEntry)
  | log (entry : SidebarLogEntry)
  | ports (ports : List ℕ)
  | progress (state : SidebarProgressState F)

namespace DetailRow

variable {F : Type}

def cssClass : DetailRow F → String
  | .status _ => "status-entry"
  | .log _ => "log-entry"
  | .ports _ => "ports-entry"
  | .progress _ => "progress-entry"

def statusEntry : DetailRow F → Option SidebarStatusEntry
  | .status entry => some entry
  | _ => none

/-- The rows that belong under the status rows. -/
def IsLower : DetailRow F → Prop
  | .log _ | .progress _ => True
  | _ => False

end DetailRow

abbrev DetailBox (F : Type) := List (DetailRow F)

namespace DetailBox

variable {F : Type}

def removeChildrenByClass (box : DetailBox F) (cls : String) : DetailBox F :=
  box.filter (fun row => row.cssClass ≠ cls)

def prependEntries (entries : List SidebarStatusEntry) (box : DetailBox F) : DetailBox F :=
  entries.foldl (fun box entry => .status entry :: box) box

/-- `values` are the entries of the map in the order of its iterator. -/
def updateRowStatus (values : List SidebarStatusEntry) (box : DetailBox F) : DetailBox F :=
  prependEntries (Ranked.descending SidebarStatusEntry.priority values)
    (box.removeChildrenByClass "status-entry")

def updateRowLog (entry : Option SidebarLogEntry) (box : DetailBox F) : DetailBox F :=
  box.removeChildrenByClass "log-entry" ++ (entry.map DetailRow.log).toList

def updateRowPorts (ports : List ℕ) (box : DetailBox F) : DetailBox F :=
  if ports = [] then box.removeChildrenByClass "ports-entry"
  else .ports ports :: box.removeChildrenByClass "ports-entry"

def updateRowProgress (state : Option (SidebarProgressState F)) (box : DetailBox F) :
    DetailBox F :=
  box.removeChildrenByClass "progress-entry" ++ (state.map DetailRow.progress).toList

def statusRows (box : DetailBox F) : List SidebarStatusEntry :=
  box.filterMap DetailRow.statusEntry

/-- No status row under a log or progress row. -/
def Above (box : DetailBox F) : Prop :=
  box.Pairwise (fun a b => a.IsLower → b.statusEntry = none)

/-- The entries of a workspace and the detail box of its row, after any updates. -/
inductive Shown : HashMap String SidebarStatusEntry → DetailBox F → Prop
  | start (m : HashMap String SidebarStatusEntry) (values : List SidebarStatusEntry)
      (hv : values.Perm (HashMap.values m)) : Shown m (updateRowStatus values [])
  | setStatus {m box} (h : Shown m box) (entry : SidebarStatusEntry)
      (values : List SidebarStatusEntry)
      (hv : values.Perm (HashMap.values (m.insert entry.key entry))) :
      Shown (m.insert entry.key entry) (box.updateRowStatus values)
  | clearStatus {m box} (h : Shown m box) (key : String) (values : List SidebarStatusEntry)
      (hv : values.Perm (HashMap.values (m.erase key))) :
      Shown (m.erase key) (box.updateRowStatus values)
  | log {m box} (h : Shown m box) (entry : Option SidebarLogEntry) :
      Shown m (box.updateRowLog entry)
  | ports {m box} (h : Shown m box) (ports : List ℕ) : Shown m (box.updateRowPorts ports)
  | progress {m box} (h : Shown m box) (state : Option (SidebarProgressState F)) :
      Shown m (box.updateRowProgress state)

/-- One row for each entry, none under a log or progress row, the highest priority on top. -/
structure ByPriority (m : HashMap String SidebarStatusEntry) (box : DetailBox F) : Prop where
  each : box.statusRows.Perm (HashMap.values m)
  above : box.Above
  falling : box.statusRows.Pairwise (fun a b => b.priority ≤ a.priority)

/-! What an update leaves. -/

theorem prependEntries_eq (entries : List SidebarStatusEntry) (box : DetailBox F) :
    prependEntries entries box = entries.reverse.map DetailRow.status ++ box := by
  induction entries generalizing box with
  | nil => rfl
  | cons e entries ih =>
    rw [prependEntries,List.foldl_cons,← prependEntries,ih]
    simp

theorem statusRows_append (a b : DetailBox F) :
    statusRows (a ++ b) = statusRows a ++ statusRows b := List.filterMap_append

theorem statusRows_map (entries : List SidebarStatusEntry) :
    statusRows (entries.map (DetailRow.status (F := F))) = entries := by
  induction entries with
  | nil => rfl
  | cons e entries ih => exact congrArg (e :: ·) ih

theorem statusRows_eq_nil {box : DetailBox F} :
    statusRows box = [] ↔ ∀ row ∈ box, row.statusEntry = none := List.filterMap_eq_nil_iff

theorem statusEntry_of_removed {box : DetailBox F} {row : DetailRow F}
    (h : row ∈ box.removeChildrenByClass "status-entry") : row.statusEntry = none := by
  have hc := (List.mem_filter.mp h).2
  cases row with
  | status entry => simp [DetailRow.cssClass] at hc
  | log entry => rfl
  | ports ports => rfl
  | progress state => rfl

/-- The other updates leave the status rows alone. -/
theorem statusRows_removeChildrenByClass {cls : String} (h : cls ≠ "status-entry")
    (box : DetailBox F) : statusRows (box.removeChildrenByClass cls) = statusRows box := by
  induction box with
  | nil => rfl
  | cons row box ih =>
    by_cases hc : row.cssClass = cls
    · have hn : row.statusEntry = none := by
        cases row with
        | status entry => exact absurd hc.symm h
        | log entry => rfl
        | ports ports => rfl
        | progress state => rfl
      rw [removeChildrenByClass,List.filter_cons_of_neg (by simpa using hc)]
      rw [statusRows,statusRows,List.filterMap_cons_none hn]
      exact ih
    · rw [removeChildrenByClass,List.filter_cons_of_pos (by simpa using hc)]
      cases hs : row.statusEntry with
      | none =>
        rw [statusRows,statusRows,List.filterMap_cons_none hs,List.filterMap_cons_none hs]
        exact ih
      | some e =>
        rw [statusRows,statusRows,List.filterMap_cons_some hs,List.filterMap_cons_some hs]
        exact congrArg (e :: ·) ih

namespace Above

variable {box : DetailBox F}

theorem remove (h : box.Above) (cls : String) : (box.removeChildrenByClass cls).Above :=
  h.sublist List.filter_sublist

theorem append (h : box.Above) {rows : DetailBox F} (hr : ∀ row ∈ rows, row.statusEntry = none) :
    Above (box ++ rows) :=
  List.pairwise_append.mpr ⟨h,List.pairwise_of_forall_mem_list fun _ _ b hb _ => hr b hb,
    fun _ _ b hb _ => hr b hb⟩

theorem prepend (h : box.Above) {rows : DetailBox F} (hr : ∀ row ∈ rows, ¬row.IsLower) :
    Above (rows ++ box) :=
  List.pairwise_append.mpr ⟨List.pairwise_of_forall_mem_list fun a ha _ _ hl =>
    absurd hl (hr a ha),h,fun a ha _ _ hl => absurd hl (hr a ha)⟩

end Above

/-- The status rows as the last update has left them: the sorted entries, the last on top. -/
structure Drawn (m : HashMap String SidebarStatusEntry) (box : DetailBox F) : Prop where
  rows : ∃ values : List SidebarStatusEntry, values.Perm (HashMap.values m) ∧
    box.statusRows = (Ranked.descending SidebarStatusEntry.priority values).reverse
  above : box.Above

namespace Drawn

variable {m : HashMap String SidebarStatusEntry} {box : DetailBox F}

theorem updateRowStatus {values : List SidebarStatusEntry}
    (hv : values.Perm (HashMap.values m)) (box : DetailBox F) :
    Drawn m (box.updateRowStatus values) := by
  have hother : ∀ row ∈ box.removeChildrenByClass "status-entry", row.statusEntry = none :=
    fun row hrow => statusEntry_of_removed hrow
  refine ⟨⟨values,hv,?_⟩,?_⟩
  · rw [DetailBox.updateRowStatus,prependEntries_eq,statusRows_append,statusRows_map,
      statusRows_eq_nil.mpr hother,List.append_nil]
  · rw [DetailBox.updateRowStatus,prependEntries_eq]
    have hnil : Above ([] : DetailBox F) := .nil
    refine Above.prepend (hnil.append hother) fun row hrow => ?_
    obtain ⟨e,-,rfl⟩ := List.mem_map.mp hrow
    exact id

theorem remove (h : Drawn m box) {cls : String} (hc : cls ≠ "status-entry") :
    Drawn m (box.removeChildrenByClass cls) :=
  ⟨by rw [statusRows_removeChildrenByClass hc]; exact h.rows,h.above.remove cls⟩

theorem append (h : Drawn m box) {cls : String} (hc : cls ≠ "status-entry") {rows : DetailBox F}
    (hr : ∀ row ∈ rows, row.statusEntry = none) :
    Drawn m (box.removeChildrenByClass cls ++ rows) := by
  have hd := h.remove hc
  refine ⟨?_,hd.above.append hr⟩
  rw [statusRows_append,statusRows_eq_nil.mpr hr,List.append_nil]
  exact hd.rows

theorem prepend (h : Drawn m box) {cls : String} (hc : cls ≠ "status-entry") {rows : DetailBox F}
    (hr : ∀ row ∈ rows, row.statusEntry = none ∧ ¬row.IsLower) :
    Drawn m (rows ++ box.removeChildrenByClass cls) := by
  have hd := h.remove hc
  refine ⟨?_,hd.above.prepend fun row hrow => (hr row hrow).2⟩
  rw [statusRows_append,statusRows_eq_nil.mpr fun row hrow => (hr row hrow).1,List.nil_append]
  exact hd.rows

theorem of_shown (h : Shown m box) : Drawn m box := by
  induction h with
  | start m values hv => exact updateRowStatus hv []
  | setStatus _ entry values hv _ => exact updateRowStatus hv _
  | clearStatus _ key values hv _ => exact updateRowStatus hv _
  | log _ entry ih =>
    refine ih.append (by decide) fun row hrow => ?_
    obtain ⟨e,-,rfl⟩ := Option.map_eq_some_iff.mp (Option.mem_toList.mp hrow)
    rfl
  | ports _ ports ih =>
    rw [updateRowPorts]
    split_ifs
    · exact ih.remove (by decide)
    · rw [← List.singleton_append]
      refine ih.prepend (by decide) fun row hrow => ?_
      rw [List.mem_singleton.mp hrow]
      exact ⟨rfl,id⟩
  | progress _ state ih =>
    refine ih.append (by decide) fun row hrow => ?_
    obtain ⟨e,-,rfl⟩ := Option.map_eq_some_iff.mp (Option.mem_toList.mp hrow)
    rfl

theorem each (h : Drawn m box) : box.statusRows.Perm (HashMap.values m) := by
  obtain ⟨values,hv,hr⟩ := h.rows
  rw [hr]
  exact (List.reverse_perm _).trans ((List.mergeSort_perm _ _).trans hv)

theorem rising (h : Drawn m box) :
    box.statusRows.Pairwise (fun a b => a.priority ≤ b.priority) := by
  obtain ⟨values,-,hr⟩ := h.rows
  rw [hr,List.pairwise_reverse]
  exact Ranked.pairwise_descending _ _

end Drawn

/-- The rows are shown by priority only where there is but one priority. -/
theorem byPriority_iff {m : HashMap String SidebarStatusEntry} {box : DetailBox F}
    (h : Shown m box) : ByPriority m box ↔
      ∀ a ∈ HashMap.values m, ∀ b ∈ HashMap.values m, a.priority = b.priority := by
  have hd := Drawn.of_shown h
  constructor
  · intro hb a ha b hb'
    have heq : box.statusRows.Pairwise (fun a b => a.priority = b.priority) :=
      hd.rising.imp₂ (fun a b h₁ h₂ => le_antisymm h₁ h₂) hb.falling
    have : Std.Symm (fun a b : SidebarStatusEntry => a.priority = b.priority) :=
      ⟨fun _ _ h => h.symm⟩
    exact List.Pairwise.forall_of_forall (R := fun a b => a.priority = b.priority)
      (fun _ _ => rfl) heq (hd.each.mem_iff.mpr ha) (hd.each.mem_iff.mpr hb')
  · refine fun heq => ⟨hd.each,hd.above,List.pairwise_of_forall_mem_list fun a ha b hb => ?_⟩
    exact (heq b (hd.each.mem_iff.mp hb) a (hd.each.mem_iff.mp ha)).le

def build : SidebarStatusEntry := ⟨"build","running",none,none,1⟩

def tests : SidebarStatusEntry := ⟨"tests","failed",none,none,2⟩

def lint : SidebarStatusEntry := ⟨"lint","clean",none,none,1⟩

def buildAndLint : DetailBox ℕ :=
  updateRowStatus [lint,build] (updateRowProgress (some ⟨50,none⟩)
    (updateRowLog (some ⟨"started",.info,none⟩) (updateRowStatus [build] [])))

theorem byPriority_buildAndLint :
    buildAndLint.map DetailRow.cssClass =
      ["status-entry","status-entry","log-entry","progress-entry"] ∧
    ByPriority (AList.insert "lint" lint (AList.insert "build" build ∅)) buildAndLint := by
  have hrows : Shown (AList.insert "lint" lint (AList.insert "build" build ∅)) buildAndLint :=
    .setStatus (.progress (.log (.start (AList.insert "build" build ∅) [build] (.refl _)) _) _)
      lint [lint,build] (.refl _)
  refine ⟨?_,(byPriority_iff hrows).mpr (by decide)⟩
  simp [buildAndLint,updateRowStatus,updateRowLog,updateRowProgress,Ranked.descending,
    List.mergeSort,build,lint,prependEntries,removeChildrenByClass,DetailRow.cssClass]

/-- The lower priority is on top. -/
theorem tests_under_build : ∃ box : DetailBox ℕ,
    Shown (AList.insert "tests" tests (AList.insert "build" build ∅)) box ∧
      box.statusRows = [build,tests] ∧ ¬ByPriority
        (AList.insert "tests" tests (AList.insert "build" build ∅)) box := by
  have hrows : statusRows (updateRowStatus [tests,build] (updateRowStatus [build] []) :
      DetailBox ℕ) = [build,tests] := by
    simp [updateRowStatus,Ranked.descending,List.mergeSort,build,tests,prependEntries,statusRows,
      removeChildrenByClass,DetailRow.statusEntry,DetailRow.cssClass]
  refine ⟨_,.setStatus (.start (AList.insert "build" build ∅) [build] (.refl _)) tests
    [tests,build] (.refl _),hrows,fun h => ?_⟩
  have := h.falling
  rw [hrows] at this
  simp [build,tests] at this

end DetailBox

end Limux
