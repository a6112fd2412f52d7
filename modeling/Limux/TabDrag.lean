import Limux.Workspace
import Limux.Lib.Number

/-! The texts of dragged tabs (`tab_drag_payload` and `parse_tab_drag_payload` in
`app/src/window.rs`), and the drop handler of the sidebar that tries them first. -/
namespace Limux

namespace TabDragIdentity

def kind : TabDragIdentity → Text
  | .surface _ => "surface".toList
  | .browser _ => "browser".toList

def number : TabDragIdentity → ℕ
  | .surface id => id
  | .browser id => id

end TabDragIdentity

def parseU32 (s : Text) : Option ℕ := Text.parseUnsigned (2^32) s

def tabDragPayload (pane : PaneId) (panel : PanelKind) : Text :=
  match panelDragIdentity panel with
  | .surface id => "pane:".toList ++ Text.ofNat pane ++ ":surface:".toList ++ Text.ofNat id
  | .browser id => "pane:".toList ++ Text.ofNat pane ++ ":browser:".toList ++ Text.ofNat id

def identityOf (kind : Text) (number : ℕ) : Option TabDragIdentity :=
  if kind = "surface".toList then some (.surface number)
  else if kind = "browser".toList then some (.browser number)
  else none

def parseTabDragPayload (payload : Text) : Option (PaneId × TabDragIdentity) := do
  let rest ← Text.stripPrefix "pane:".toList payload
  match rest.splitOn ':' with
  | [pane,kind,panel] =>
    let pane ← parseU32 pane
    let number ← parseU32 panel
    let identity ← identityOf kind number
    some (pane,identity)
  | _ => none

/-- What a payload dropped on a workspace row stands for. -/
inductive Drop
  | tab (pane : PaneId) (identity : TabDragIdentity)
  | workspace (id : WorkspaceId)
  deriving DecidableEq, Repr

/-- The two parses of the drop handler, one after the other. -/
def parseDrop (payload : Text) : Option Drop :=
  match parseTabDragPayload payload with
  | some (pane,identity) => some (.tab pane identity)
  | none => (parseU32 payload).map .workspace

/-- The text of a tab with the numbers written as `pane` and `panel`. -/
def tabText (pane : Text) (kind panel : Text) : Text :=
  "pane:".toList ++ pane ++ ':' :: kind ++ ':' :: panel

theorem tabText_eq (pane kind panel : Text) : tabText pane kind panel =
    "pane:".toList ++ pane ++ ((':' :: kind) ++ [':']) ++ panel := by
  unfold tabText
  generalize "pane:".toList = head
  simp only [List.append_assoc,List.cons_append,List.nil_append]

theorem tabText_fields (pane kind panel : Text) : tabText pane kind panel =
    "pane:".toList ++ (pane ++ ':' :: kind ++ ':' :: panel) := by
  unfold tabText
  generalize "pane:".toList = head
  simp only [List.append_assoc]

theorem tabDragPayload_eq (pane : PaneId) (panel : PanelKind) :
    tabDragPayload pane panel = tabText (Text.ofNat pane) (panelDragIdentity panel).kind
      (Text.ofNat (panelDragIdentity panel).number) := by
  unfold tabDragPayload
  cases panelDragIdentity panel with
  | surface id => exact (tabText_eq (Text.ofNat pane) "surface".toList (Text.ofNat id)).symm
  | browser id => exact (tabText_eq (Text.ofNat pane) "browser".toList (Text.ofNat id)).symm

theorem identityOf_eq_some {kind : Text} {number : ℕ} {x : TabDragIdentity} :
    identityOf kind number = some x ↔ kind = x.kind ∧ number = x.number := by
  unfold identityOf
  constructor
  · intro h
    split_ifs at h with hs hb
    · cases h
      exact ⟨hs,rfl⟩
    · cases h
      exact ⟨hb,rfl⟩
  · rintro ⟨rfl,rfl⟩
    cases x with
    | surface id => exact if_pos rfl
    | browser id =>
      have hne : "browser".toList ≠ "surface".toList := by decide
      exact (if_neg hne).trans (if_pos rfl)

theorem colon_notMem_kind (x : TabDragIdentity) : ':' ∉ x.kind := by
  cases x with
  | surface id => exact (by decide : ':' ∉ "surface".toList)
  | browser id => exact (by decide : ':' ∉ "browser".toList)

theorem colon_notMem_of_parseU32 {s : Text} {n : ℕ} (h : parseU32 s = some n) : ':' ∉ s := by
  intro hm
  unfold parseU32 Text.parseUnsigned at h
  split at h
  · obtain ⟨hd,-⟩ := Option.filter_eq_some_iff.mp h
    rcases List.mem_cons.mp hm with he | hm
    · exact absurd he (by decide)
    · exact absurd ((Text.of_digits hd).2 ':' hm) (by decide)
  · obtain ⟨hd,-⟩ := Option.filter_eq_some_iff.mp h
    exact absurd ((Text.of_digits hd).2 ':' hm) (by decide)

theorem stripPrefix_eq_some {p s rest : Text} :
    Text.stripPrefix p s = some rest ↔ s = p ++ rest := by
  constructor
  · intro h
    obtain ⟨hp,hrest⟩ := Option.ite_none_right_eq_some.mp h
    obtain ⟨t,rfl⟩ := List.isPrefixOf_iff_prefix.mp hp
    rw [List.drop_left] at hrest
    rw [Option.some.inj hrest]
  · rintro rfl
    exact Text.stripPrefix_append p rest

/-- A tab is read from the texts of its kind, with two numbers, and from no others. -/
theorem parseTabDragPayload_iff {payload : Text} {pane : PaneId} {x : TabDragIdentity} :
    parseTabDragPayload payload = some (pane,x) ↔ ∃ n m, parseU32 n = some pane ∧
      parseU32 m = some x.number ∧ payload = tabText n x.kind m := by
  constructor
  · intro h
    obtain ⟨rest,hrest,h⟩ := Option.bind_eq_some_iff.mp h
    rw [stripPrefix_eq_some] at hrest
    split at h
    · rename_i n kind m hsplit
      obtain ⟨p,hp,h⟩ := Option.bind_eq_some_iff.mp h
      obtain ⟨number,hnumber,h⟩ := Option.bind_eq_some_iff.mp h
      obtain ⟨identity,hidentity,h⟩ := Option.bind_eq_some_iff.mp h
      cases h
      obtain ⟨hkind,hn⟩ := identityOf_eq_some.mp hidentity
      have hjoin : [':'].intercalate (rest.splitOn ':') = rest := List.intercalate_splitOn ':'
      rw [hsplit] at hjoin
      have hfields : rest = n ++ ':' :: x.kind ++ ':' :: m := by
        rw [← hjoin,← hkind]
        simp [List.intercalate]
      refine ⟨n,m,hp,hn ▸ hnumber,?_⟩
      exact hrest.trans ((congrArg _ hfields).trans (tabText_fields n x.kind m).symm)
    · cases h
  · rintro ⟨n,m,hn,hm,rfl⟩
    have hsplit : (n ++ ':' :: x.kind ++ ':' :: m).splitOn ':' = [n,x.kind,m] := by
      have hj : n ++ ':' :: x.kind ++ ':' :: m = [':'].intercalate [n,x.kind,m] := by
        simp [List.intercalate]
      rw [hj]
      refine List.splitOn_intercalate ':' (fun w hw => ?_) (List.cons_ne_nil _ _)
      rcases List.mem_cons.mp hw with rfl | hw
      · exact colon_notMem_of_parseU32 hn
      rcases List.mem_cons.mp hw with rfl | hw
      · exact colon_notMem_kind x
      rw [List.mem_singleton.mp hw]
      exact colon_notMem_of_parseU32 hm
    have hstrip : Text.stripPrefix "pane:".toList (tabText n x.kind m) =
        some (n ++ ':' :: x.kind ++ ':' :: m) := stripPrefix_eq_some.mpr (tabText_fields _ _ _)
    rw [parseTabDragPayload,hstrip]
    simp only [Option.bind_eq_bind,Option.bind_some,hsplit,hn,hm,
      identityOf_eq_some.mpr ⟨rfl,rfl⟩]

theorem parse_tabDragPayload {pane : PaneId} {panel : PanelKind} (hp : pane < 2^32)
    (hn : (panelDragIdentity panel).number < 2^32) :
    parseTabDragPayload (tabDragPayload pane panel) = some (pane,panelDragIdentity panel) := by
  rw [parseTabDragPayload_iff]
  exact ⟨_,_,Text.parseUnsigned_ofNat hp,Text.parseUnsigned_ofNat hn,tabDragPayload_eq pane panel⟩

theorem parseU32_tabText (n kind m : Text) : parseU32 (tabText n kind m) = none := by
  have hd : Text.digits (tabText n kind m) = none := by
    cases h : Text.digits (tabText n kind m) with
    | none => rfl
    | some k => exact absurd ((Text.of_digits h).2 'p' List.mem_cons_self) (by decide)
  show (Text.digits (tabText n kind m)).filter (fun n => n < 2^32) = none
  rw [hd]
  rfl

/-- A payload comes back as the tab it was made of, different tabs have different payloads, the
texts of tabs are what is read as one, and none of them is read as a workspace. -/
theorem tab_payloads_exact :
    (∀ pane panel, pane < 2^32 → (panelDragIdentity panel).number < 2^32 →
      parseTabDragPayload (tabDragPayload pane panel) = some (pane,panelDragIdentity panel)) ∧
    (∀ pane panel pane' panel', pane < 2^32 → (panelDragIdentity panel).number < 2^32 →
      pane' < 2^32 → (panelDragIdentity panel').number < 2^32 →
      (pane,panelDragIdentity panel) ≠ (pane',panelDragIdentity panel') →
        tabDragPayload pane panel ≠ tabDragPayload pane' panel') ∧
    (∀ payload pane x, parseTabDragPayload payload = some (pane,x) ↔ ∃ n m,
      parseU32 n = some pane ∧ parseU32 m = some x.number ∧ payload = tabText n x.kind m) ∧
    (∀ payload, (parseTabDragPayload payload).isSome → parseU32 payload = none) ∧
    ∀ payload pane x, parseDrop payload = some (.tab pane x) ↔
      parseTabDragPayload payload = some (pane,x) := by
  refine ⟨fun pane panel => parse_tabDragPayload,
    fun pane panel pane' panel' hp hn hp' hn' hne he => ?_,fun _ _ _ => parseTabDragPayload_iff,
    fun payload h => ?_,fun payload pane x => ?_⟩
  · have hparse := parse_tabDragPayload hp hn
    rw [he,parse_tabDragPayload hp' hn'] at hparse
    exact hne (Option.some.inj hparse).symm
  · obtain ⟨⟨pane,x⟩,hx⟩ := Option.isSome_iff_exists.mp h
    obtain ⟨n,m,-,-,rfl⟩ := parseTabDragPayload_iff.mp hx
    exact parseU32_tabText n x.kind m
  · unfold parseDrop
    cases h : parseTabDragPayload payload with
    | none => cases parseU32 payload <;> simp
    | some r => simp [Prod.ext_iff]

/-- A payload with the index of a tab, as older ones had it, is no tab. -/
example : parseDrop "pane:3:1".toList = none := by decide +kernel

end Limux
