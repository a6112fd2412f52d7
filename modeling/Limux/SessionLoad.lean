import Limux.SessionFile

/-! Which snapshots the session file gives back: those whose numbers are finite and
whose layouts are not nested too deep. -/
namespace Limux

open Serde F64Finite

variable {F : Type}

/-- Levels of nesting in the JSON form. -/
def LayoutSnapshot.nesting : LayoutSnapshot F → ℕ
  | .single [] => 3
  | .single (_ :: _) => 4
  | .split _ _ first second => max first.nesting second.nesting + 2

namespace Session

@[simp] theorem int_writeInt (n : ℤ) : int (writeInt n : Json F) = some n := rfl

@[simp] theorem nat_writeNat (n : ℕ) : nat (writeNat n : Json F) = some n := by
  simp [nat,writeNat,Json.asU64]

@[simp] theorem readPort_writePort (p : UInt16) : readPort (writePort p : Json F) = some p := by
  simp [readPort,writePort,p.toNat_lt]

@[simp] theorem readTab_writeTab (n : ℕ) (t : PaneTabSnapshot) :
    readTab (n+2) (writeTab t : Json F) = some t := by
  simp [readTab,writeTab,record,optField,fieldD,member]

@[simp] theorem readStatus_writeStatus (n : ℕ) (e : StatusEntrySnapshot) :
    readStatus (n+2) (writeStatus e : Json F) = some e := by
  simp [readStatus,writeStatus,record,field,optField,fieldD,member]

@[simp] theorem readLog_writeLog (n : ℕ) (e : LogEntrySnapshot) :
    readLog (n+2) (writeLog e : Json F) = some e := by
  simp [readLog,writeLog,record,field,optField,fieldD,member]

@[simp] theorem readRemote_writeRemote (n : ℕ) (c : RemoteConfiguration) :
    readRemote (n+3) (writeRemote c : Json F) = some c := by
  have hports : ∀ o : Option UInt16, option readPort (orNull writePort o : Json F) = some o :=
    fun o => (option_orNull (fun _ => by simp [writePort,writeNat])).mpr
      (fun p _ => readPort_writePort p)
  have hlist : list (fun _ => string) (n+2) (.arr (c.sshOptions.map text) : Json F) =
      some c.sshOptions := list_arr.mpr (fun s _ => string_text s)
  simp [readRemote,writeRemote,record,field,optField,fieldD,member,hports,hlist]

theorem list_readTab {n : ℕ} {tabs : List PaneTabSnapshot} :
    list readTab n (.arr (tabs.map writeTab) : Json F) = some tabs ↔
      (LayoutSnapshot.single tabs : LayoutSnapshot F).nesting < n+2 := by
  rcases n with _ | _ | n
  · simp only [list]
    cases tabs <;> simp [LayoutSnapshot.nesting]
  · cases tabs <;> simp [list,LayoutSnapshot.nesting]
  · rw [list_arr]
    cases tabs with
    | nil => simp [LayoutSnapshot.nesting]
    | cons t ts =>
      cases n with
      | zero =>
        refine iff_of_false (fun h => ?_) (by simp [LayoutSnapshot.nesting])
        simpa [readTab,record,writeTab] using h t (by simp)
      | succ n => simp [LayoutSnapshot.nesting]

theorem three_le_nesting (l : LayoutSnapshot F) : 3 ≤ l.nesting := by
  cases l with
  | single tabs => cases tabs <;> simp [LayoutSnapshot.nesting]
  | split o ratio a b =>
    have := three_le_nesting a
    simp only [LayoutSnapshot.nesting]
    omega

theorem eq_of_readTab {n : ℕ} {t t' : PaneTabSnapshot}
    (h : readTab n (writeTab t : Json F) = some t') : t' = t := by
  rcases n with _ | _ | n
  · cases h
  · cases h
  · rw [readTab_writeTab] at h
    exact (Option.some.inj h).symm

theorem eq_of_list {α : Type} {w : α → Json F} {r : ℕ → Json F → Option α} {n : ℕ}
    {l l' : List α} (h : list r n (.arr (l.map w)) = some l')
    (hr : ∀ m x y, n = m+1 → r m (w x) = some y → y = x) : l' = l := by
  rcases n with _ | _ | n
  · cases h
  · cases h
  · simpa using mapM_map_keeps (f := id) h (fun x y => hr _ x y rfl)

@[simp] theorem option_readStatus (o : Option (List StatusEntrySnapshot)) :
    option (list readStatus 125) (orNull (fun l => .arr (l.map writeStatus)) o : Json F) =
      some o :=
  (option_orNull (fun _ => by simp)).mpr
    (fun l _ => list_arr.mpr (fun e _ => readStatus_writeStatus 122 e))

@[simp] theorem option_readLog (o : Option (List LogEntrySnapshot)) :
    option (list readLog 125) (orNull (fun l => .arr (l.map writeLog)) o : Json F) = some o :=
  (option_orNull (fun _ => by simp)).mpr
    (fun l _ => list_arr.mpr (fun e _ => readLog_writeLog 122 e))

@[simp] theorem option_readRemote (o : Option RemoteConfiguration) :
    option (readRemote 125) (orNull writeRemote o : Json F) = some o :=
  (option_orNull (fun _ => by simp [writeRemote])).mpr (fun c _ => readRemote_writeRemote 122 c)

@[simp] theorem option_int (o : Option ℤ) : option int (orNull writeInt o : Json F) = some o :=
  (option_orNull (fun _ => by simp [writeInt])).mpr (fun n _ => int_writeInt n)

@[simp] theorem option_nat (o : Option ℕ) : option nat (orNull writeNat o : Json F) = some o :=
  (option_orNull (fun _ => by simp [writeNat])).mpr (fun n _ => nat_writeNat n)

end Session

variable [F64Finite F]

def LayoutSnapshot.Finite : LayoutSnapshot F → Prop
  | .single _ => True
  | .split _ ratio first second => isFinite ratio ∧ first.Finite ∧ second.Finite

def WorkspaceSnapshot.Finite (w : WorkspaceSnapshot F) : Prop :=
  w.layout.Finite ∧ ∀ p ∈ w.progress, isFinite p.value

namespace Session

theorem readF64_writeF64 {x : F} : readF64 (writeF64 x) = some x ↔ isFinite x := by
  unfold writeF64
  by_cases h : isFinite x <;> simp [h,readF64]

theorem readProgress_writeProgress {n : ℕ} {p : ProgressSnapshot F} :
    readProgress (n+2) (writeProgress p) = some p ↔ isFinite p.value := by
  rw [← readF64_writeF64]
  obtain ⟨value,label⟩ := p
  cases h : readF64 (writeF64 value) <;>
    simp [readProgress,writeProgress,record,field,optField,fieldD,member,h]

theorem readLayout_shallow {n : ℕ} (h : n < 3) (j : Json F) : readLayout n j = none := by
  unfold readLayout
  split
  · omega
  · rfl

/-- A layout comes back if its ratios are finite and the depth suffices. -/
theorem readLayout_writeLayout {n : ℕ} {l : LayoutSnapshot F} :
    readLayout n (writeLayout l) = some l ↔ l.Finite ∧ l.nesting < n := by
  induction l generalizing n with
  | single tabs =>
    rcases lt_or_ge n 3 with hn | hn
    · rw [readLayout_shallow hn]
      have := three_le_nesting (.single tabs : LayoutSnapshot F)
      simp only [reduceCtorEq,false_iff]
      omega
    · obtain ⟨m,rfl⟩ := Nat.exists_eq_add_of_le' hn
      have hl := @list_readTab F (m+1) tabs
      simp only [LayoutSnapshot.Finite,true_and,← hl]
      simp [writeLayout,readLayout,field,member]
  | split o ratio a b iha ihb =>
    rcases lt_or_ge n 3 with hn | hn
    · rw [readLayout_shallow hn]
      have := three_le_nesting (.split o ratio a b : LayoutSnapshot F)
      simp only [reduceCtorEq,false_iff]
      omega
    · obtain ⟨m,rfl⟩ := Nat.exists_eq_add_of_le' hn
      have hread : readLayout (m+3) (writeLayout (.split o ratio a b)) = some (.split o ratio a b) ↔
          readF64 (writeF64 ratio) = some ratio ∧ readLayout (m+1) (writeLayout a) = some a ∧
            readLayout (m+1) (writeLayout b) = some b := by
        simp [writeLayout,readLayout,field,member,Option.bind_eq_some_iff]
      rw [hread,readF64_writeF64,iha,ihb]
      simp only [LayoutSnapshot.Finite,LayoutSnapshot.nesting]
      constructor
      · rintro ⟨hr,⟨ha,hna⟩,hb,hnb⟩
        exact ⟨⟨hr,ha,hb⟩,by omega⟩
      · rintro ⟨⟨hr,ha,hb⟩,hn⟩
        exact ⟨hr,⟨ha,by omega⟩,hb,by omega⟩

/-- What the session file needs of a workspace. -/
def Loadable (w : WorkspaceSnapshot F) : Prop := w.Finite ∧ w.layout.nesting < 125

theorem readWorkspace_writeWorkspace {w : WorkspaceSnapshot F} :
    readWorkspace 126 (writeWorkspace w) = some w ↔ Loadable w := by
  have hprogress : option (readProgress 125) (orNull writeProgress w.progress) = some w.progress ↔
      ∀ p ∈ w.progress, isFinite p.value := by
    rw [option_orNull (fun _ => by simp [writeProgress])]
    exact forall₂_congr (fun p _ => readProgress_writeProgress)
  rw [Loadable,WorkspaceSnapshot.Finite,and_right_comm,← readLayout_writeLayout,← hprogress]
  obtain ⟨title,customTitle,wd,color,pinned,layout,status,log,progress,remote⟩ := w
  simp [readWorkspace,writeWorkspace,record,field,optField,fieldD,member,Option.bind_eq_some_iff]

theorem load_writeSession {s : SessionSnapshot F} :
    load (some (writeSession s)) = some s ↔ ∀ w ∈ s.workspaces, Loadable w := by
  have hlist : list readWorkspace 127 (.arr (s.workspaces.map writeWorkspace)) =
      some s.workspaces ↔ ∀ w ∈ s.workspaces, Loadable w := by
    rw [list_arr]
    exact forall₂_congr (fun w _ => readWorkspace_writeWorkspace)
  rw [← hlist]
  obtain ⟨version,workspaces,selected,width,visible⟩ := s
  simp [load,recursionLimit,readSession,writeSession,record,field,optField,fieldD,member,
    Option.bind_eq_some_iff]

/-! What is read back at all is what was written. -/

theorem eq_of_readF64 {x y : F} (h : readF64 (writeF64 x) = some y) : y = x := by
  unfold writeF64 at h
  split_ifs at h with hx
  · exact (Option.some.inj h).symm
  · cases h

theorem eq_of_readProgress {n : ℕ} {p p' : ProgressSnapshot F}
    (h : readProgress (n+2) (writeProgress p) = some p') : p' = p := by
  obtain ⟨value,label⟩ := p
  cases hv : readF64 (writeF64 value) with
  | none => simp [readProgress,writeProgress,record,field,optField,fieldD,member,hv] at h
  | some x =>
    rw [eq_of_readF64 hv] at hv
    simpa [readProgress,writeProgress,record,field,optField,fieldD,member,hv] using h.symm

theorem eq_of_readLayout {n : ℕ} {l l' : LayoutSnapshot F}
    (h : readLayout n (writeLayout l) = some l') : l' = l := by
  induction l generalizing n l' with
  | single tabs =>
    rcases lt_or_ge n 3 with hn | hn
    · rw [readLayout_shallow hn] at h
      cases h
    · obtain ⟨m,rfl⟩ := Nat.exists_eq_add_of_le' hn
      have hread : (list readTab (m+1) (.arr (tabs.map writeTab) : Json F)).map
          (LayoutSnapshot.single : _ → LayoutSnapshot F) = some l' := by
        simpa [writeLayout,readLayout,field,member] using h
      obtain ⟨tabs',htabs,rfl⟩ := Option.map_eq_some_iff.mp hread
      rw [eq_of_list htabs (fun m x y _ hxy => eq_of_readTab hxy)]
  | split o ratio a b iha ihb =>
    rcases lt_or_ge n 3 with hn | hn
    · rw [readLayout_shallow hn] at h
      cases h
    · obtain ⟨m,rfl⟩ := Nat.exists_eq_add_of_le' hn
      have hread : ∃ x, readF64 (writeF64 ratio) = some x ∧
          ∃ a', readLayout (m+1) (writeLayout a) = some a' ∧
            ∃ b', readLayout (m+1) (writeLayout b) = some b' ∧ .split o x a' b' = l' := by
        simpa [writeLayout,readLayout,field,member,Option.bind_eq_some_iff] using h
      obtain ⟨x,hx,a',ha,b',hb,rfl⟩ := hread
      rw [eq_of_readF64 hx,iha ha,ihb hb]

theorem eq_of_readWorkspace {w w' : WorkspaceSnapshot F}
    (h : readWorkspace 126 (writeWorkspace w) = some w') : w' = w := by
  obtain ⟨title,customTitle,wd,color,pinned,layout,status,log,progress,remote⟩ := w
  have hread : ∃ l, readLayout 125 (writeLayout layout) = some l ∧
      ∃ p, option (readProgress 125) (orNull writeProgress progress) = some p ∧
        ⟨title,customTitle,wd,color,pinned,l,status,log,p,remote⟩ = w' := by
    simpa [readWorkspace,writeWorkspace,record,field,optField,fieldD,member,
      Option.bind_eq_some_iff] using h
  obtain ⟨l,hl,p,hp,rfl⟩ := hread
  have hprogress : p = progress := by
    cases progress with
    | none => exact (Option.some.inj hp).symm
    | some q =>
      obtain ⟨q',hq,rfl⟩ := Option.map_eq_some_iff.mp hp
      rw [eq_of_readProgress hq]
  rw [eq_of_readLayout hl,hprogress]

/-- A saved session is loaded as it was, or not at all. -/
theorem eq_of_load {s s' : SessionSnapshot F} (h : load (some (writeSession s)) = some s') :
    s' = s := by
  obtain ⟨version,workspaces,selected,width,visible⟩ := s
  have hread : ∃ l, list readWorkspace 127 (.arr (workspaces.map writeWorkspace)) = some l ∧
      ⟨version,l,selected,width,visible⟩ = s' := by
    simpa [load,recursionLimit,readSession,writeSession,record,field,optField,fieldD,member,
      Option.bind_eq_some_iff] using h
  obtain ⟨l,hl,rfl⟩ := hread
  have hr : ∀ m x y, 127 = m+1 → readWorkspace m (writeWorkspace x : Json F) = some y → y = x := by
    intro m x y hm hxy
    obtain rfl : m = 126 := by omega
    exact eq_of_readWorkspace hxy
  rw [eq_of_list hl hr]

/-- Whatever of a saved session can be loaded, its workspaces are pinned as they were. -/
theorem load_pinned {s s' : SessionSnapshot F} (h : load (some (writeSession s)) = some s') :
    s'.workspaces.map WorkspaceSnapshot.pinned = s.workspaces.map WorkspaceSnapshot.pinned := by
  rw [eq_of_load h]

end Session

end Limux
