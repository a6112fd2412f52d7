import Limux.Lib.Disk
import Limux.Lib.Machine
import Mathlib.Data.List.TakeWhile

/-! Programs that load and save one file that they share. A load is many reads and a save
many writes, so that the programs of several processes run into each other. When loads wait
for those that save, and saves for those that have loaded, they do what they do one after
the other. -/

/-- What a process does to the file; the rest of it depends on what it loads. -/
inductive Program (S : Type)
  | done
  | load (k : S → Program S)
  | save (v : S) (p : Program S)

namespace Program

variable {S : Type}

def exec : Program S → S → S
  | done,v => v
  | load k,v => (k v).exec v
  | save v p,_ => p.exec v

def loads : Program S → S → List S
  | done,_ => []
  | load k,v => v :: (k v).loads v
  | save v p,_ => p.loads v

end Program

/-- Values as bytes. A missing file, and bytes that are no value, are read as `missing`. -/
structure Codec (S : Type) where
  missing : S
  encode : S → List UInt8
  decode : List UInt8 → Option S
  decode_encode : ∀ v, decode (encode v) = some v

namespace Codec

variable {S : Type} (c : Codec S)

def value (data : List UInt8) : S := (c.decode data).getD c.missing

def content (d : Disk Unit) : S :=
  match d.content () with
  | some data => c.value data
  | none => c.missing

theorem value_encode (v : S) : c.value (c.encode v) = v := by
  rw [value,c.decode_encode]
  rfl

theorem content_of_some {d : Disk Unit} {f : ℕ} (h : d.names () = some f) :
    c.content d = c.value (d.bytes f) := by
  rw [content,Disk.content,h]
  rfl

theorem content_of_none {d : Disk Unit} (h : d.names () = none) : c.content d = c.missing := by
  rw [content,Disk.content,h]
  rfl

end Codec

namespace SharedFile

open Machine

variable {S : Type}

/-- Where a process is in its program. -/
inductive Access (S : Type)
  | next (p : Program S)
  | reading (k : S → Program S) (file : ℕ) (data : List UInt8)
  | writing (p : Program S) (file : ℕ) (written rest : List UInt8)

def Access.ended : Access S → Bool
  | .next .done => true
  | _ => false

/-- Whether a process has come to its first load or save, and to its first save; where it is,
and what it has loaded. -/
structure Process (S : Type) where
  begun : Bool
  saved : Bool
  access : Access S
  loads : List S

structure State (S : Type) where
  disk : Disk Unit
  processes : List (Process S)

/-- System calls of a process; reads and writes of at most `n` bytes. -/
inductive Act
  | openRead (i : ℕ)
  | read (i n : ℕ)
  | openWrite (i : ℕ)
  | write (i n : ℕ)
  | close (i : ℕ)

def State.goto (s : State S) (i : ℕ) (x : Process S) : State S :=
  { s with processes := s.processes.set i x }

def start (progs : List (Program S)) (d : Disk Unit) : State S :=
  ⟨d,progs.map (fun p => ⟨false,false,.next p,[]⟩)⟩

def step (c : Codec S) (s : State S) : Act → Option (State S)
  | .openRead i =>
    match s.processes[i]? with
    | some ⟨_,w,.next (.load k),l⟩ =>
      match s.disk.names () with
      | some f => some (s.goto i ⟨true,w,.reading k f [],l⟩)
      | none => some (s.goto i ⟨true,w,.next (k c.missing),l ++ [c.missing]⟩)
    | _ => none
  | .read i n =>
    match s.processes[i]? with
    | some ⟨b,w,.reading k f data,l⟩ =>
      if 0 < n then
        match s.disk.read f data.length n with
        | [] => some (s.goto i ⟨b,w,.next (k (c.value data)),l ++ [c.value data]⟩)
        | piece => some (s.goto i ⟨b,w,.reading k f (data ++ piece),l⟩)
      else none
    | _ => none
  -- the file is cut off before anything is written
  | .openWrite i =>
    match s.processes[i]? with
    | some ⟨_,_,.next (.save v p),l⟩ =>
      some ({ s with disk := (s.disk.create ()).2 }.goto i
        ⟨true,true,.writing p (s.disk.create ()).1 [] (c.encode v),l⟩)
    | _ => none
  | .write i n =>
    match s.processes[i]? with
    | some ⟨b,w,.writing p f written rest,l⟩ =>
      some ({ s with disk := s.disk.write f written.length (rest.take n) }.goto i
        ⟨b,w,.writing p f (written ++ rest.take n) (rest.drop n),l⟩)
    | _ => none
  | .close i =>
    match s.processes[i]? with
    | some ⟨b,w,.writing p _ _ [],l⟩ => some (s.goto i ⟨b,w,.next p,l⟩)
    | _ => none

/-- The other processes that satisfy `p` are through. -/
def OthersEnded (p : Process S → Bool) (s : State S) (i : ℕ) : Prop :=
  ∀ j ∈ List.range s.processes.length, j ≠ i → ∀ y ∈ s.processes[j]?, p y = true →
    y.access.ended = true

instance (p : Process S → Bool) (s : State S) (i : ℕ) : Decidable (OthersEnded p s i) :=
  inferInstanceAs (Decidable (∀ j ∈ List.range s.processes.length, j ≠ i →
    ∀ y ∈ s.processes[j]?, p y = true → y.access.ended = true))

/-- A load waits for those that have come to a save, a save for those that have come to a
load. -/
def Apart (s : State S) : Act → Prop
  | .openRead i => OthersEnded Process.saved s i
  | .openWrite i => OthersEnded Process.begun s i
  | _ => True

instance (s : State S) : ∀ a, Decidable (Apart s a)
  | .openRead i => inferInstanceAs (Decidable (OthersEnded Process.saved s i))
  | .openWrite i => inferInstanceAs (Decidable (OthersEnded Process.begun s i))
  | .read _ _ | .write _ _ | .close _ => .isTrue trivial

theorem OthersEnded.of_get {p : Process S → Bool} {s : State S} {i j : ℕ} {y : Process S}
    (h : OthersEnded p s i) (hy : s.processes[j]? = some y) (hj : j ≠ i) (hp : p y = true) :
    y.access.ended = true :=
  h j (List.mem_range.mpr (List.getElem?_eq_some_iff.mp hy).1) hj y hy hp

/-! The order of the turns. -/

variable {c : Codec S} {progs : List (Program S)} {v₀ : S} {order : List ℕ} {s s' : State S}
  {writer : Option ℕ} {i : ℕ} {x : Process S}

def progAt (progs : List (Program S)) (i : ℕ) : Program S := progs.getD i .done

/-- What the programs leave when each runs alone, one after the other. -/
def serial (progs : List (Program S)) (order : List ℕ) (v : S) : S :=
  order.foldl (fun v i => (progAt progs i).exec v) v

/-- What program `i` loads when they run in that order. -/
def serialLoads (progs : List (Program S)) (order : List ℕ) (v : S) (i : ℕ) : List S :=
  (progAt progs i).loads (serial progs (order.takeWhile (· ≠ i)) v)

theorem serial_append (progs : List (Program S)) (order more : List ℕ) (v : S) :
    serial progs (order ++ more) v = serial progs more (serial progs order v) :=
  List.foldl_append

theorem takeWhile_ne_append {order : List ℕ} (h : i ∈ order) (more : List ℕ) :
    (order ++ more).takeWhile (· ≠ i) = order.takeWhile (· ≠ i) := by
  induction order with
  | nil => cases h
  | cons j order ih =>
    rw [List.cons_append,List.takeWhile_cons,List.takeWhile_cons]
    split
    · rename_i hj
      rcases List.mem_cons.mp h with rfl | h
      · simp at hj
      · rw [ih h]
    · rfl

theorem takeWhile_ne_self {order : List ℕ} (h : i ∉ order) (more : List ℕ) :
    (order ++ i :: more).takeWhile (· ≠ i) = order := by
  induction order with
  | nil => simp
  | cons j order ih =>
    rw [List.cons_append,List.takeWhile_cons,if_pos,ih (fun hi => h (.tail _ hi))]
    have hji : j ≠ i := by
      rintro rfl
      exact h (.head _)
    simpa using hji

theorem takeWhile_ne_of_not_mem {order : List ℕ} (h : i ∉ order) :
    order.takeWhile (· ≠ i) = order := by
  refine List.takeWhile_eq_self_iff.mpr (fun j hj => decide_eq_true ?_)
  rintro rfl
  exact h hj

theorem serialLoads_append (h : i ∈ order) (more : List ℕ) (v : S) :
    serialLoads progs (order ++ more) v i = serialLoads progs order v i := by
  rw [serialLoads,serialLoads,takeWhile_ne_append h]

theorem serialLoads_self (h : i ∉ order) (more : List ℕ) (v : S) :
    serialLoads progs (order ++ i :: more) v i = (progAt progs i).loads (serial progs order v) := by
  rw [serialLoads,takeWhile_ne_self h]

/-- The rest of a program, where the file holds `v` and `l` has been loaded, does what the
whole of it does from `v₀`. -/
structure Rest (p₀ : Program S) (v₀ : S) (p : Program S) (l : List S) (v : S) : Prop where
  exec : p.exec v = p₀.exec v₀
  loads : l ++ p.loads v = p₀.loads v₀

theorem Rest.load {p₀ : Program S} {k : S → Program S} {l : List S} {v : S}
    (h : Rest p₀ v₀ (.load k) l v) : Rest p₀ v₀ (k v) (l ++ [v]) v := by
  refine ⟨h.exec,?_⟩
  rw [List.append_assoc]
  exact h.loads

/-- A process in the middle of its program, while nobody else writes. -/
def Turn (c : Codec S) (p₀ : Program S) (v₀ : S) (d : Disk Unit) : Process S → Prop
  | ⟨_,_,.next p,l⟩ => Rest p₀ v₀ p l (c.content d)
  | ⟨_,_,.reading k f data,l⟩ => Rest p₀ v₀ (.load k) l (c.content d) ∧ d.names () = some f ∧
      (d.bytes f).take data.length = data
  | ⟨_,w,.writing p f written rest,l⟩ => w = true ∧ d.names () = some f ∧
      d.bytes f = written ∧ ∃ v, Rest p₀ v₀ p l v ∧ written ++ rest = c.encode v

namespace Turn

variable {p₀ : Program S} {d : Disk Unit} {b w : Bool} {l : List S} {k : S → Program S}
  {p : Program S} {f : ℕ} {data written rest : List UInt8}

theorem prefix_loads (h : Turn c p₀ v₀ d x) : x.loads <+: p₀.loads v₀ := by
  obtain ⟨b,w,a,l⟩ := x
  cases a with
  | next p => exact ⟨_,h.loads⟩
  | reading k f data => exact ⟨_,h.1.loads⟩
  | writing p f written rest =>
    obtain ⟨-,-,-,v,hv,-⟩ := h
    exact ⟨_,hv.loads⟩

theorem openRead (h : Turn c p₀ v₀ d ⟨b,w,.next (.load k),l⟩) (hf : d.names () = some f) :
    Turn c p₀ v₀ d ⟨true,w,.reading k f [],l⟩ := ⟨h,hf,rfl⟩

theorem missing (h : Turn c p₀ v₀ d ⟨b,w,.next (.load k),l⟩) (hf : d.names () = none) :
    Turn c p₀ v₀ d ⟨true,w,.next (k c.missing),l ++ [c.missing]⟩ := by
  have hl : Rest p₀ v₀ (.load k) l (c.content d) := h
  rw [← c.content_of_none hf]
  exact hl.load

theorem read (h : Turn c p₀ v₀ d ⟨b,w,.reading k f data,l⟩) (n : ℕ) :
    Turn c p₀ v₀ d ⟨b,w,.reading k f (data ++ d.read f data.length n),l⟩ := by
  obtain ⟨hr,hf,hdata⟩ := h
  refine ⟨hr,hf,?_⟩
  have hall := Disk.read_take d f data.length n
  rw [hdata] at hall
  rw [hall,List.length_take,← List.take_eq_take_min]

/-- At the end of the file all of it has been read. -/
theorem loaded (h : Turn c p₀ v₀ d ⟨b,w,.reading k f data,l⟩) {n : ℕ} (hn : 0 < n)
    (he : d.read f data.length n = []) :
    Turn c p₀ v₀ d ⟨b,w,.next (k (c.value data)),l ++ [c.value data]⟩ := by
  obtain ⟨hr,hf,hdata⟩ := h
  have hv : c.content d = c.value data := by
    rw [c.content_of_some hf,← Disk.read_eq_nil hn he,hdata]
  rw [← hv]
  exact hr.load

theorem openWrite {v : S} (h : Turn c p₀ v₀ d ⟨b,w,.next (.save v p),l⟩) :
    Turn c p₀ v₀ (d.create ()).2
      ⟨true,true,.writing p (d.create ()).1 [] (c.encode v),l⟩ :=
  ⟨rfl,Disk.names_create_self d (),Disk.bytes_create_self d (),v,⟨h.exec,h.loads⟩,rfl⟩

theorem write (h : Turn c p₀ v₀ d ⟨b,w,.writing p f written rest,l⟩) (n : ℕ) :
    Turn c p₀ v₀ (d.write f written.length (rest.take n))
      ⟨b,w,.writing p f (written ++ rest.take n) (rest.drop n),l⟩ := by
  obtain ⟨hw,hf,hb,v,hv,he⟩ := h
  refine ⟨hw,hf,Disk.bytes_write_end hb _,v,hv,?_⟩
  rw [List.append_assoc,List.take_append_drop,he]

/-- What has been written to the end is there to be loaded. -/
theorem close (h : Turn c p₀ v₀ d ⟨b,w,.writing p f written [],l⟩) :
    Turn c p₀ v₀ d ⟨b,w,.next p,l⟩ := by
  obtain ⟨-,hf,hb,v,hv,he⟩ := h
  rw [List.append_nil] at he
  have hc : c.content d = v := by rw [c.content_of_some hf,hb,he,c.value_encode]
  rw [← hc] at hv
  exact hv

end Turn

def waiting (progs : List (Program S)) (i : ℕ) : Process S :=
  ⟨false,false,.next (progAt progs i),[]⟩

/-- The processes in `order` have been through, one after the other. Those that only load do
so side by side; the one that saves is alone. -/
structure Turns (c : Codec S) (progs : List (Program S)) (v₀ : S) (order : List ℕ)
    (writer : Option ℕ) (s : State S) : Prop where
  length : s.processes.length = progs.length
  nodup : order.Nodup
  lt : ∀ i ∈ order, i < progs.length
  settled : ∀ (i : ℕ) (x : Process S), s.processes[i]? = some x → i ∈ order →
    x.access = .next .done ∧ x.loads = serialLoads progs order v₀ i
  waits : ∀ (i : ℕ) (x : Process S), s.processes[i]? = some x → i ∉ order → x.begun = false →
    x = waiting progs i
  goes : ∀ (i : ℕ) (x : Process S), s.processes[i]? = some x → i ∉ order → x.begun = true →
    (x.saved = true ↔ writer = some i) ∧
      Turn c (progAt progs i) (serial progs order v₀) s.disk x
  idle : writer = none → c.content s.disk = serial progs order v₀
  alone : ∀ i, writer = some i → i ∉ order ∧ (∃ x, s.processes[i]? = some x ∧ x.begun = true) ∧
    ∀ (j : ℕ) (x : Process S), s.processes[j]? = some x → j ≠ i → j ∉ order → x.begun = false

namespace Turns

theorem get_start {d : Disk Unit} (hx : (start progs d).processes[i]? = some x) :
    x = waiting progs i := by
  rw [SharedFile.start,List.getElem?_map] at hx
  obtain ⟨p,hp,rfl⟩ := Option.map_eq_some_iff.mp hx
  rw [waiting,progAt,List.getD_eq_getElem?_getD,hp]
  rfl

theorem start (c : Codec S) (progs : List (Program S)) (d : Disk Unit) :
    Turns c progs (c.content d) [] none (start progs d) := by
  refine ⟨List.length_map _,List.nodup_nil,by simp,by simp,fun i x hx _ _ => get_start hx,
    fun i x hx _ hb => ?_,fun _ => rfl,by simp⟩
  rw [get_start hx] at hb
  cases hb

theorem get (h : Turns c progs v₀ order writer s) (hi : i < progs.length) :
    ∃ x, s.processes[i]? = some x :=
  ⟨_,List.getElem?_eq_getElem (h.length.symm ▸ hi)⟩

/-- A process that has not been through, when nobody else writes. -/
theorem ready (h : Turns c progs v₀ order writer s) (hi : i ∉ order)
    (hx : s.processes[i]? = some x) (hone : ∀ j, writer = some j → j = i) :
    (x.saved = true ↔ writer = some i) ∧
      Turn c (progAt progs i) (serial progs order v₀) s.disk x := by
  cases hb : x.begun with
  | true => exact h.goes i x hx hi hb
  | false =>
    have hw : writer = none := by
      cases writer with
      | none => rfl
      | some j =>
        obtain rfl := hone j rfl
        obtain ⟨-,⟨y,hy,hby⟩,-⟩ := h.alone j rfl
        obtain rfl := Option.some.inj (hx.symm.trans hy)
        rw [hb] at hby
        cases hby
    rw [h.waits i x hx hi hb,hw,← h.idle hw]
    exact ⟨by simp [waiting],rfl,rfl⟩

/-- A begun process is the one that writes if there is one. -/
theorem one_of_begun (h : Turns c progs v₀ order writer s) (hi : i ∉ order)
    (hx : s.processes[i]? = some x) (hb : x.begun = true) : ∀ j, writer = some j → j = i := by
  rintro j hj
  by_contra hne
  rw [(h.alone j hj).2.2 i x hx (Ne.symm hne) hi] at hb
  cases hb

/-- A process goes on, and the others do not mind. -/
theorem move (h : Turns c progs v₀ order writer s) (hi : i ∉ order)
    (hx : s.processes[i]? = some x) {writer' : Option ℕ} {d : Disk Unit} {y : Process S}
    (hb : y.begun = true) (hsaved : y.saved = true ↔ writer' = some i)
    (hone : ∀ j, writer' = some j → j = i)
    (hothers : ∀ (j : ℕ) (z : Process S), s.processes[j]? = some z → j ≠ i → j ∉ order →
      z.begun = true → writer' = writer ∧ d = s.disk ∧ writer = none)
    (hidle : writer' = none → c.content d = serial progs order v₀)
    (hy : Turn c (progAt progs i) (serial progs order v₀) d y) :
    Turns c progs v₀ order writer' ⟨d,s.processes.set i y⟩ := by
  refine ⟨(List.length_set ..).trans h.length,h.nodup,h.lt,fun j z hz hj => ?_,
    fun j z hz hj hbz => ?_,fun j z hz hj hbz => ?_,hidle,fun j hj => ?_⟩
  · rcases getElem?_set_cases hz with ⟨rfl,-⟩ | ⟨-,hz⟩
    · exact absurd hj hi
    · exact h.settled j z hz hj
  · rcases getElem?_set_cases hz with ⟨-,rfl⟩ | ⟨-,hz⟩
    · rw [hb] at hbz
      cases hbz
    · exact h.waits j z hz hj hbz
  · rcases getElem?_set_cases hz with ⟨rfl,rfl⟩ | ⟨hne,hz⟩
    · exact ⟨hsaved,hy⟩
    · obtain ⟨hw,hd,-⟩ := hothers j z hz hne hj hbz
      have hgoes := h.goes j z hz hj hbz
      rw [← hw,← hd] at hgoes
      exact hgoes
  · obtain rfl := hone j hj
    refine ⟨hi,⟨y,getElem?_set_self_of_some hx,hb⟩,fun k z hz hne hk => ?_⟩
    rcases getElem?_set_cases hz with ⟨rfl,-⟩ | ⟨-,hz⟩
    · exact absurd rfl hne
    · by_contra hbz
      obtain ⟨hw,-,hn⟩ := hothers k z hz hne hk (by simpa using hbz)
      rw [hw,hn] at hj
      cases hj

theorem stay (h : Turns c progs v₀ order writer s) (hi : i ∉ order)
    (hx : s.processes[i]? = some x) (hone : ∀ j, writer = some j → j = i) {y : Process S}
    (hb : y.begun = true) (hsaved : y.saved = x.saved)
    (hy : Turn c (progAt progs i) (serial progs order v₀) s.disk y) :
    Turns c progs v₀ order writer ⟨s.disk,s.processes.set i y⟩ := by
  refine h.move hi hx hb (hsaved ▸ (h.ready hi hx hone).1) hone (fun j z hz hne hj hbz => ?_)
    h.idle hy
  refine ⟨rfl,rfl,?_⟩
  cases writer with
  | none => rfl
  | some k => exact absurd ((h.one_of_begun hj hz hbz k rfl).symm.trans (hone k rfl)) hne

theorem change (h : Turns c progs v₀ order writer s) (hi : i ∉ order)
    (hx : s.processes[i]? = some x) (hothers : ∀ (j : ℕ) (z : Process S),
      s.processes[j]? = some z → j ≠ i → j ∉ order → z.begun = false)
    {d : Disk Unit} {y : Process S} (hb : y.begun = true) (hsaved : y.saved = true)
    (hy : Turn c (progAt progs i) (serial progs order v₀) d y) :
    Turns c progs v₀ order (some i) ⟨d,s.processes.set i y⟩ := by
  refine h.move hi hx hb (by simp [hsaved]) (fun j hj => (Option.some.inj hj).symm)
    (fun j z hz hne hj hbz => ?_) (by simp) hy
  rw [hothers j z hz hne hj] at hbz
  cases hbz

/-- A process that is done joins the order. -/
theorem settle (h : Turns c progs v₀ order writer s) (hi : i ∉ order)
    (hx : s.processes[i]? = some x) (hb : x.begun = true) (he : x.access.ended = true) :
    Turns c progs v₀ (order ++ [i]) none s := by
  have hdone : x.access = .next .done := by
    revert he
    cases x.access with
    | next p => cases p <;> simp [Access.ended]
    | _ => simp [Access.ended]
  have hrest : Rest (progAt progs i) (serial progs order v₀) .done x.loads
      (c.content s.disk) := by
    have hturn := (h.goes i x hx hi hb).2
    obtain ⟨b,w,a,l⟩ := x
    obtain rfl : a = .next .done := hdone
    exact hturn
  have hexec : c.content s.disk = serial progs (order ++ [i]) v₀ := by
    rw [serial_append]
    exact hrest.exec
  have hnext : ∀ (j : ℕ) (z : Process S), s.processes[j]? = some z → j ∉ order ++ [i] →
      z.begun = true → writer = none := fun j z hz hj hbz => by
    cases writer with
    | none => rfl
    | some k =>
      have hk := h.one_of_begun hi hx hb k rfl
      have hj' := h.one_of_begun (fun hm => hj (List.mem_append_left _ hm)) hz hbz k rfl
      exact absurd (List.mem_append_right _ (List.mem_singleton.mpr (hj'.symm.trans hk))) hj
  refine ⟨h.length,?_,fun j hj => ?_,fun j z hz hj => ?_,fun j z hz hj => ?_,
    fun j z hz hj hbz => ?_,fun _ => hexec,by simp⟩
  · refine List.nodup_append.mpr ⟨h.nodup,by simp,?_⟩
    rintro j hj k hk rfl
    exact hi (List.mem_singleton.mp hk ▸ hj)
  · rcases List.mem_append.mp hj with hj | hj
    · exact h.lt j hj
    · obtain rfl := List.mem_singleton.mp hj
      exact h.length ▸ (List.getElem?_eq_some_iff.mp hx).1
  · rcases List.mem_append.mp hj with hj | hj
    · rw [serialLoads_append hj]
      exact h.settled j z hz hj
    · obtain rfl := List.mem_singleton.mp hj
      obtain rfl := Option.some.inj (hx.symm.trans hz)
      refine ⟨hdone,?_⟩
      rw [serialLoads_self hi,← hrest.loads]
      exact (List.append_nil _).symm
  · exact h.waits j z hz (fun hm => hj (List.mem_append_left _ hm))
  · have hw := hnext j z hz hj hbz
    have hgoes := h.goes j z hz (fun hm => hj (List.mem_append_left _ hm)) hbz
    rwa [hw,← h.idle hw,hexec] at hgoes

end Turns

/-- Those that have begun and are not in `order` have something left to do. -/
def Going (order : List ℕ) (s : State S) : Prop :=
  ∀ (i : ℕ) (x : Process S), s.processes[i]? = some x → i ∉ order → x.begun = true →
    x.access.ended = false

def Inv (c : Codec S) (progs : List (Program S)) (v₀ : S) (s : State S) : Prop :=
  ∃ (order : List ℕ) (writer : Option ℕ), Turns c progs v₀ order writer s ∧ Going order s

/-- After a step the process joins the order or has something left to do. -/
theorem Inv.of_move {d : Disk Unit} {y : Process S} (hg : Going order s) (hi : i ∉ order)
    (hx : s.processes[i]? = some x) (hb : y.begun = true)
    (h : Turns c progs v₀ order writer ⟨d,s.processes.set i y⟩) :
    Inv c progs v₀ ⟨d,s.processes.set i y⟩ := by
  cases he : y.access.ended with
  | true =>
    refine ⟨_,_,h.settle hi (getElem?_set_self_of_some hx) hb he,fun j z hz hj hbz => ?_⟩
    rcases getElem?_set_cases hz with ⟨rfl,-⟩ | ⟨-,hz⟩
    · exact absurd (List.mem_append_right _ (List.mem_singleton_self j)) hj
    · exact hg j z hz (fun hm => hj (List.mem_append_left _ hm)) hbz
  | false =>
    refine ⟨_,_,h,fun j z hz hj hbz => ?_⟩
    rcases getElem?_set_cases hz with ⟨-,rfl⟩ | ⟨-,hz⟩
    · exact he
    · exact hg j z hz hj hbz

theorem Turns.not_mem (h : Turns c progs v₀ order writer s) (hx : s.processes[i]? = some x)
    (he : x.access ≠ .next .done) : i ∉ order :=
  fun hm => he (h.settled i x hx hm).1

theorem Turns.begun (h : Turns c progs v₀ order writer s) (hx : s.processes[i]? = some x)
    (hi : i ∉ order) (he : x.access ≠ .next (progAt progs i)) : x.begun = true := by
  by_contra hb
  rw [h.waits i x hx hi (by simpa using hb)] at he
  exact he rfl

theorem inv_step (h : Inv c progs v₀ s) {a : Act} (ha : Apart s a) (hs : step c s a = some s') :
    Inv c progs v₀ s' := by
  obtain ⟨order,writer,ht,hg⟩ := h
  cases a with
  | openRead i =>
    simp only [step] at hs
    split at hs
    · rename_i b w k l hx
      have hi := ht.not_mem hx (by simp)
      have hone : ∀ j, writer = some j → j = i := by
        rintro j hj
        by_contra hne
        obtain ⟨hjo,⟨y,hy,hby⟩,-⟩ := ht.alone j hj
        have hended := ha.of_get hy hne ((ht.goes j y hy hjo hby).1.mpr hj)
        rw [hg j y hy hjo hby] at hended
        cases hended
      have hturn := (ht.ready hi hx hone).2
      split at hs
      · rename_i f hf
        cases hs
        exact .of_move hg hi hx rfl (ht.stay hi hx hone rfl rfl (hturn.openRead hf))
      · rename_i hf
        cases hs
        exact .of_move hg hi hx rfl (ht.stay hi hx hone rfl rfl (hturn.missing hf))
    · cases hs
  | read i n =>
    simp only [step] at hs
    split at hs
    · rename_i b w k f data l hx
      have hi := ht.not_mem hx (by simp)
      have hb := ht.begun hx hi (by simp)
      have hone := ht.one_of_begun hi hx hb
      have hturn := (ht.ready hi hx hone).2
      obtain ⟨hn,hs⟩ := Option.ite_none_right_eq_some.mp hs
      split at hs
      · rename_i hr
        cases hs
        exact .of_move hg hi hx hb (ht.stay hi hx hone hb rfl (hturn.loaded hn hr))
      · cases hs
        exact .of_move hg hi hx hb (ht.stay hi hx hone hb rfl (hturn.read n))
    · cases hs
  | openWrite i =>
    simp only [step] at hs
    split at hs
    · rename_i b w v p l hx
      have hi := ht.not_mem hx (by simp)
      have hothers : ∀ (j : ℕ) (z : Process S), s.processes[j]? = some z → j ≠ i → j ∉ order →
          z.begun = false := fun j z hz hne hj => by
        by_contra hbz
        have hb : z.begun = true := by simpa using hbz
        have hended := ha.of_get hz hne hb
        rw [hg j z hz hj hb] at hended
        cases hended
      have hone : ∀ j, writer = some j → j = i := by
        rintro j hj
        by_contra hne
        obtain ⟨hjo,⟨y,hy,hby⟩,-⟩ := ht.alone j hj
        rw [hothers j y hy hne hjo] at hby
        cases hby
      cases hs
      exact .of_move hg hi hx rfl
        (ht.change hi hx hothers rfl rfl (ht.ready hi hx hone).2.openWrite)
    · cases hs
  | write i n =>
    simp only [step] at hs
    split at hs
    · rename_i b w p f written rest l hx
      have hi := ht.not_mem hx (by simp)
      have hb := ht.begun hx hi (by simp)
      obtain ⟨hsaved,hturn⟩ := ht.goes i _ hx hi hb
      cases hs
      exact .of_move hg hi hx hb (ht.change hi hx (ht.alone i (hsaved.mp hturn.1)).2.2 hb hturn.1
        (hturn.write n))
    · cases hs
  | close i =>
    simp only [step] at hs
    split at hs
    · rename_i b w p f written l hx
      have hi := ht.not_mem hx (by simp)
      have hb := ht.begun hx hi (by simp)
      obtain ⟨hsaved,hturn⟩ := ht.goes i _ hx hi hb
      cases hs
      exact .of_move hg hi hx hb (ht.change hi hx (ht.alone i (hsaved.mp hturn.1)).2.2 hb hturn.1
        hturn.close)
    · cases hs

/-- The programs that have not begun, in any order after the others. -/
def late (progs : List (Program S)) (begun : List ℕ) : List ℕ :=
  (List.range progs.length).filter (fun i => i ∉ begun)

theorem perm_late {begun : List ℕ} (hn : begun.Nodup) (hlt : ∀ i ∈ begun, i < progs.length) :
    (begun ++ late progs begun).Perm (List.range progs.length) := by
  refine (List.perm_ext_iff_of_nodup ?_ List.nodup_range).mpr (fun i => ?_)
  · refine List.nodup_append.mpr ⟨hn,List.nodup_range.filter _,?_⟩
    rintro i hi j hj rfl
    simp [late,hi] at hj
  · by_cases hi : i ∈ begun
    · simp [hi,hlt i hi]
    · simp [late,hi]

/-- Programs that do nothing leave what is there. -/
theorem serial_idle {more : List ℕ} (h : ∀ i ∈ more, progAt progs i = .done) (v : S) :
    serial progs more v = v := by
  induction more with
  | nil => rfl
  | cons i more ih =>
    rw [serial,List.foldl_cons,h i (.head _)]
    exact ih (fun j hj => h j (.tail _ hj))

/-- When all are through, those outside the order had nothing to do. -/
theorem Turns.nothing (h : Turns c progs v₀ order writer s) (hg : Going order s)
    (hall : ∀ x ∈ s.processes, x.access.ended = true) (hi : i ∉ order)
    (hx : s.processes[i]? = some x) : x = waiting progs i ∧ progAt progs i = .done := by
  have he := hall x (List.mem_of_getElem? hx)
  have hb : x.begun = false := by
    by_contra hb
    rw [hg i x hx hi (by simpa using hb)] at he
    cases he
  obtain rfl := h.waits i x hx hi hb
  refine ⟨rfl,?_⟩
  revert he
  rw [waiting]
  cases progAt progs i <;> simp [Access.ended]

/-- Each process has loaded what it loads after those that are through, in the order in which
the programs would run alone; when all are through, the file holds what that run leaves. -/
theorem in_turn {d : Disk Unit} (h : Reach (step c) Apart (start progs d) s) :
    ∃ order : List ℕ, order.Nodup ∧ (∀ i ∈ order, i < progs.length) ∧
      (∀ (i : ℕ) (x : Process S), s.processes[i]? = some x →
        x.loads <+: serialLoads progs order (c.content d) i) ∧
      ((∀ x ∈ s.processes, x.access.ended = true) → order.Perm (List.range progs.length) ∧
        c.content s.disk = serial progs order (c.content d)) := by
  have hinv : Inv c progs (c.content d) s := by
    refine h.inv ⟨[],none,Turns.start c progs d,fun i x hx _ hb => ?_⟩
      (fun _ _ _ hi ha hs => inv_step hi ha hs)
    rw [Turns.get_start hx] at hb
    cases hb
  obtain ⟨order,writer,ht,hg⟩ := hinv
  by_cases hall : ∀ x ∈ s.processes, x.access.ended = true
  · have hlate : ∀ i ∈ late progs order, progAt progs i = .done := fun i hi => by
      obtain ⟨hlt,hout⟩ := List.mem_filter.mp hi
      obtain ⟨x,hx⟩ := ht.get (List.mem_range.mp hlt)
      exact (ht.nothing hg hall (of_decide_eq_true hout) hx).2
    have hperm := perm_late ht.nodup ht.lt
    refine ⟨order ++ late progs order,hperm.nodup_iff.mpr List.nodup_range,
      fun i hi => List.mem_range.mp (hperm.mem_iff.mp hi),fun i x hx => ?_,fun _ => ⟨hperm,?_⟩⟩
    · by_cases hi : i ∈ order
      · rw [serialLoads_append hi]
        exact (ht.settled i x hx hi).2 ▸ List.prefix_rfl
      · rw [(ht.nothing hg hall hi hx).1]
        exact List.nil_prefix
    · have hw : writer = none := by
        cases writer with
        | none => rfl
        | some i =>
          obtain ⟨hi,⟨x,hx,hb⟩,-⟩ := ht.alone i rfl
          rw [(ht.nothing hg hall hi hx).1] at hb
          cases hb
      rw [serial_append,serial_idle hlate,ht.idle hw]
  · refine ⟨order,ht.nodup,ht.lt,fun i x hx => ?_,fun h => absurd h hall⟩
    by_cases hi : i ∈ order
    · exact (ht.settled i x hx hi).2 ▸ List.prefix_rfl
    · cases hb : x.begun with
      | false =>
        rw [ht.waits i x hx hi hb]
        exact List.nil_prefix
      | true =>
        rw [serialLoads,takeWhile_ne_of_not_mem hi]
        exact (ht.goes i x hx hi hb).2.prefix_loads

end SharedFile
