import Limux.SessionRun
import Limux.Lib.JsonText
import Limux.Lib.Utf8

/-! The session file when the process stops while it saves (`session::save` and `load`). -/
namespace Limux.Session

open F64Finite

variable {F : Type} [F64Finite F]

/-- A system call of `fs::write`. -/
inductive FileOp
  | create
  | write (piece : List UInt8)

/-- What it makes of the file; opening it cuts off what is there. -/
def FileOp.apply (file : Option (List UInt8)) : FileOp → Option (List UInt8)
  | .create => some []
  | .write piece => file.map (· ++ piece)

def fileBytes (showFloat : F → Text) (s : SessionSnapshot F) : List UInt8 :=
  Utf8.encode (Json.pretty showFloat 0 (writeSession s))

/-- The text of a snapshot in the pieces that the system takes it in. -/
structure Pieces (showFloat : F → Text) (s : SessionSnapshot F) where
  pieces : List (List UInt8)
  whole : pieces.flatten = fileBytes showFloat s

/-- `fs::write`. -/
def Pieces.ops {showFloat : F → Text} {s : SessionSnapshot F} (p : Pieces showFloat s) :
    List FileOp :=
  .create :: p.pieces.map .write

/-- The file when the process stops after `n` calls. -/
def stopped (file : Option (List UInt8)) (ops : List FileOp) (n : ℕ) : Option (List UInt8) :=
  (ops.take n).foldl FileOp.apply file

/-- `load`, with the parser of JSON texts. -/
def loadBytes (parse : Text → Option (Json F)) (file : Option (List UInt8)) :
    Option (SessionSnapshot F) :=
  load (file.bind (fun bytes => (Utf8.decode? bytes).bind parse))

/-- What the parser does with documents: there is no empty one, and behind the end of an object
there are only blanks. -/
structure Documents (parse : Text → Option (Json F)) : Prop where
  empty : parse [] = none
  closed : ∀ t u, t.head? = some '\x7b' → parse t ≠ none → parse (t ++ u) ≠ none →
    ∀ c ∈ u, c ∈ [' ','\n','\t','\r']

/-- The text of the snapshot is parsed to what was printed. -/
def ReadsBack (parse : Text → Option (Json F)) (showFloat : F → Text) (s : SessionSnapshot F) :
    Prop :=
  parse (Json.pretty showFloat 0 (writeSession s)) = some (writeSession s)

section Stopped

variable {showFloat : F → Text} {parse : Text → Option (Json F)} {old new : SessionSnapshot F}
  {p : Pieces showFloat new} {n : ℕ}

omit [F64Finite F] in
/-- No proper beginning of an object is a document. -/
theorem parse_beginning (hdoc : Documents parse) {t u : Text} {fields : List (String × Json F)}
    (h : t ++ u = Json.pretty showFloat 0 (.obj fields)) (hu : u ≠ [])
    (hparse : parse (Json.pretty showFloat 0 (.obj fields)) ≠ none) : parse t = none := by
  by_contra ht
  cases t with
  | nil => exact ht hdoc.empty
  | cons c t =>
    rw [← h] at hparse
    rw [Json.pretty] at h
    have hhead : (c :: t).head? = some '\x7b' := by
      rw [(List.cons.inj h).1]
      rfl
    have hlast : '\x7d' ∈ u := by
      obtain rfl | ⟨v,x,rfl⟩ := List.eq_nil_or_concat u
      · exact absurd rfl hu
      · have hend : (t ++ v) ++ [x] = (Json.prettyMembers showFloat (0+1) fields ++
            if fields = [] then [] else Json.lineBreak 0) ++ ['\x7d'] := by
          rw [← (List.cons.inj h).2,List.concat_eq_append]
          exact List.append_assoc t v [x]
        have hx := (List.append_inj' hend rfl).2
        rw [List.concat_eq_append,hx]
        exact List.mem_append_right v (List.mem_singleton_self _)
    have hblank := hdoc.closed (c :: t) u hhead ht hparse '\x7d' hlast
    revert hblank
    decide

/-- Bytes in front of the end of a text are the text of its beginning, or no text. -/
theorem prefix_of_decode {bytes rest : List UInt8} {s t : Text}
    (h : bytes ++ rest = Utf8.encode s) (ht : Utf8.decode? bytes = some t) :
    ∃ u, t ++ u = s ∧ Utf8.encode u = rest := by
  have hbytes := Utf8.encode_of_decode? ht
  obtain ⟨u,hu⟩ := Utf8.decodeLossy_append t rest
  rw [hbytes,h,Utf8.decodeLossy_encode] at hu
  refine ⟨u,hu.symm,?_⟩
  rw [hu,Utf8.encode_append,hbytes] at h
  exact (List.append_cancel_left h).symm

/-- A file that has been written in part is not loaded. -/
theorem loadBytes_of_part (hdoc : Documents parse) (hnew : ReadsBack parse showFloat new)
    {bytes rest : List UInt8} (h : bytes ++ rest = fileBytes showFloat new) (hrest : rest ≠ []) :
    loadBytes parse (some bytes) = none := by
  have hnone : (Utf8.decode? bytes).bind parse = none := by
    cases ht : Utf8.decode? bytes with
    | none => rfl
    | some t =>
      obtain ⟨u,hu,hrest'⟩ := prefix_of_decode h ht
      apply parse_beginning hdoc hu
      · rintro rfl
        exact hrest hrest'.symm
      · rw [ReadsBack,writeSession] at hnew
        rw [hnew]
        exact Option.some_ne_none _
  rw [loadBytes,Option.bind_some,hnone]
  rfl

theorem loadBytes_fileBytes (hs : ReadsBack parse showFloat old) :
    loadBytes parse (some (fileBytes showFloat old)) = load (some (writeSession old)) := by
  rw [loadBytes,Option.bind_some,fileBytes,Utf8.decode?_encode,Option.bind_some,hs]

theorem foldl_write (bytes : List UInt8) (pieces : List (List UInt8)) :
    (pieces.map .write).foldl FileOp.apply (some bytes) = some (bytes ++ pieces.flatten) := by
  induction pieces generalizing bytes with
  | nil => simp
  | cons piece pieces ih =>
    have hstep : FileOp.apply (some bytes) (.write piece) = some (bytes ++ piece) := rfl
    rw [List.map_cons,List.foldl_cons,hstep,ih,List.flatten_cons,List.append_assoc]

/-- Opening has cut off the file, and the pieces come one after the other. -/
theorem stopped_ops (file : Option (List UInt8)) :
    stopped file p.ops (n+1) = some (p.pieces.take n).flatten := by
  rw [stopped,Pieces.ops,List.take_succ_cons,List.foldl_cons,← List.map_take]
  exact foldl_write [] _

theorem flatten_take_append (p : Pieces showFloat new) :
    (p.pieces.take n).flatten ++ (p.pieces.drop n).flatten = fileBytes showFloat new := by
  rw [← List.flatten_append,List.take_append_drop,p.whole]

theorem load_saved {s s' : SessionSnapshot F} :
    load (some (writeSession s)) = some s' ↔ s' = s ∧ ∀ w ∈ s.workspaces, Loadable w := by
  constructor
  · intro h
    obtain rfl := eq_of_load h
    exact ⟨rfl,load_writeSession.mp h⟩
  · rintro ⟨rfl,h⟩
    exact load_writeSession.mpr h

/-- The file is loaded as the old or the new snapshot just when the process stops before it opens
the file or after the last byte, and the snapshot that is then in the file can be loaded. -/
theorem survives_iff (hdoc : Documents parse) (hold : ReadsBack parse showFloat old)
    (hnew : ReadsBack parse showFloat new) (p : Pieces showFloat new) (n : ℕ) :
    loadBytes parse (stopped (some (fileBytes showFloat old)) p.ops n) ∈ [some old,some new] ↔
      (n = 0 ∧ ∀ w ∈ old.workspaces, Loadable w) ∨
      (0 < n ∧ (p.pieces.drop (n-1)).flatten = [] ∧ ∀ w ∈ new.workspaces, Loadable w) := by
  rw [List.mem_pair]
  cases n with
  | zero =>
    have hfile : stopped (some (fileBytes showFloat old)) p.ops 0 =
        some (fileBytes showFloat old) := rfl
    rw [hfile,loadBytes_fileBytes hold,load_saved,load_saved]
    constructor
    · rintro (⟨-,h⟩ | ⟨-,h⟩) <;> exact .inl ⟨rfl,h⟩
    · rintro (⟨-,h⟩ | ⟨h,-⟩)
      · exact .inl ⟨rfl,h⟩
      · cases h
  | succ n =>
    rw [stopped_ops,Nat.add_sub_cancel]
    have hwhole := flatten_take_append (n := n) p
    by_cases hrest : (p.pieces.drop n).flatten = []
    · rw [hrest,List.append_nil] at hwhole
      rw [hwhole,loadBytes_fileBytes hnew,load_saved,load_saved]
      constructor
      · rintro (⟨-,h⟩ | ⟨-,h⟩) <;> exact .inr ⟨Nat.succ_pos n,hrest,h⟩
      · rintro (⟨h,-⟩ | ⟨-,-,h⟩)
        · cases h
        · exact .inr ⟨rfl,h⟩
    · rw [loadBytes_of_part hdoc hnew hwhole hrest]
      simp [hrest]

end Stopped

def titled (title : String) : SessionSnapshot Extended :=
  ⟨1,[⟨title,none,none,none,none,.single [⟨none,none,none,none,none⟩],none,none,none,none⟩],
    some 0,none,none⟩

def noFloats (_ : Extended) : Text := []

def titledText (title : String) : Text := Json.pretty noFloats 0 (writeSession (titled title))

def parseTitled (t : Text) : Option (Json Extended) :=
  if t = titledText "old" then some (writeSession (titled "old"))
  else if t = titledText "new" then some (writeSession (titled "new")) else none

def halves : Pieces noFloats (titled "new") where
  pieces := [(fileBytes noFloats (titled "new")).take 50,
    (fileBytes noFloats (titled "new")).drop 50]
  whole := by simp

theorem length_titledText : (titledText "old").length = (titledText "new").length := by
  decide +kernel

theorem titledText_ne : titledText "new" ≠ titledText "old" := by decide +kernel

theorem length_of_parseTitled {t : Text} (h : parseTitled t ≠ none) :
    t.length = (titledText "new").length := by
  unfold parseTitled at h
  split_ifs at h with h₁ h₂
  · rw [h₁,length_titledText]
  · rw [h₂]
  · exact absurd rfl h

theorem documents_parseTitled : Documents parseTitled where
  empty := by decide +kernel
  closed t u _ ht htu := by
    have hlen := (length_of_parseTitled htu).trans (length_of_parseTitled ht).symm
    rw [List.length_append] at hlen
    rw [List.eq_nil_of_length_eq_zero (l := u) (by omega)]
    simp

theorem readsBack_old : ReadsBack parseTitled noFloats (titled "old") := if_pos rfl

theorem readsBack_new : ReadsBack parseTitled noFloats (titled "new") :=
  (if_neg titledText_ne).trans (if_pos rfl)

theorem loadable_titled (title : String) : ∀ w ∈ (titled title).workspaces, Loadable w := by
  intro w hw
  cases List.mem_singleton.mp hw
  exact ⟨⟨trivial,fun p hp => by cases hp⟩,by simp [LayoutSnapshot.nesting]⟩

theorem survives_titled : titled "old" ≠ titled "new" ∧
    loadBytes parseTitled (stopped (some (fileBytes noFloats (titled "old"))) halves.ops 0) ∈
      [some (titled "old"),some (titled "new")] ∧
    loadBytes parseTitled (stopped (some (fileBytes noFloats (titled "old"))) halves.ops 3) ∈
      [some (titled "old"),some (titled "new")] := by
  refine ⟨fun h => ?_,?_,?_⟩
  · have ht := congrArg (fun s => (s.workspaces.map WorkspaceSnapshot.title)) h
    exact absurd ht (by decide)
  · apply (survives_iff documents_parseTitled readsBack_old readsBack_new halves 0).mpr
    exact .inl ⟨rfl,loadable_titled _⟩
  · apply (survives_iff documents_parseTitled readsBack_old readsBack_new halves 3).mpr
    exact .inr ⟨by decide,rfl,loadable_titled _⟩

/-- When the process stops between opening the file and the first write, nothing is loaded,
though the session was there before. -/
theorem stopped_loses_session :
    loadBytes parseTitled (some (fileBytes noFloats (titled "old"))) = some (titled "old") ∧
    loadBytes parseTitled (stopped (some (fileBytes noFloats (titled "old"))) halves.ops 1) =
      none := by
  constructor
  · rw [loadBytes_fileBytes readsBack_old,load_writeSession]
    exact loadable_titled _
  · decide +kernel

end Limux.Session
