import Limux.Lib.Hex
import Limux.Lib.Number

/-! Dial addresses `host:port`: IP literals, names, and how Go's `net` joins and splits
them. -/
namespace Address

open Text

inductive Host
  | ipv4 (octets : List ℕ)
  | ipv6 (groups : List ℕ)
  | name (text : Text)
  deriving DecidableEq

/-- `a.b.c.d`. -/
def dotted (octets : List ℕ) : Text := ['.'].intercalate (octets.map ofNat)

def hexDigits (n : ℕ) : Text := Nat.toDigits 16 n

def colonHex (groups : List ℕ) : Text := [':'].intercalate (groups.map hexDigits)

/-- At most 255, without leading zeros. -/
def octet (s : Text) : Option ℕ := (digits s).filter (fun n => n < 256 ∧ ofNat n = s)

def parse4 (s : Text) : Option (List ℕ) :=
  ((s.splitOn '.').mapM octet).filter (fun l => l.length = 4)

def hexNumber (s : Text) : Option ℕ :=
  s.foldlM (fun n c => (Hex.value c).map (fun d => n*16+d)) 0

def group (s : Text) : Option ℕ :=
  if s ≠ [] ∧ s.length ≤ 4 then hexNumber s else none

/-- Groups between colons; an IPv4 address may stand for the last two. -/
def groupsOf : List Text → Option (List ℕ)
  | [] => some []
  | [s] => ((group s).map (fun n => [n])).or
      ((parse4 s).map (fun l => [l.getD 0 0*256+l.getD 1 0,l.getD 2 0*256+l.getD 3 0]))
  | s :: ss => do
    let n ← group s
    let l ← groupsOf ss
    some (n :: l)

/-- The texts before and after the first `::`. -/
def cutEllipsis : Text → Option (Text × Text)
  | ':' :: ':' :: s => some ([],s)
  | c :: s => (cutEllipsis s).map (fun p => (c :: p.1,p.2))
  | [] => none

def side (s : Text) : Option (List ℕ) := if s = [] then some [] else groupsOf (s.splitOn ':')

def parse6 (s : Text) : Option (List ℕ) :=
  match cutEllipsis s with
  | none => (groupsOf (s.splitOn ':')).filter (fun l => l.length = 8)
  | some (a,b) =>
    if '.' ∈ a then none
    else do
      let l ← side a
      let r ← side b
      if l.length+r.length < 8 then some (l ++ List.replicate (8-l.length-r.length) 0 ++ r) else none

/-- A name that is no literal and has no syntax of its own. -/
def isName (s : Text) : Bool :=
  s ≠ [] && s.all (fun c => !isWhitespace c && c ≠ ':' && c ≠ '[' && c ≠ ']') && (parse4 s).isNone

def denoteHost (s : Text) : Option Host :=
  if ':' ∈ s then (parse6 s).map .ipv6
  else ((parse4 s).map .ipv4).or (if isName s then some (.name s) else none)

def joinHostPort (host port : Text) : Text :=
  if ':' ∈ host then '[' :: host ++ ']' :: ':' :: port else host ++ ':' :: port

def splitHostPort (s : Text) : Option (Text × Text) :=
  match splitLast ':' s with
  | none => none
  | some (before,port) =>
    if s.head? = some '[' then
      match splitOnce ']' before with
      | some (host,[]) => if '[' ∈ s.tail ∨ ']' ∈ port then none else some (host.tail,port)
      | _ => none
    else if ':' ∈ before ∨ '[' ∈ s ∨ ']' ∈ s then none
    else some (before,port)

/-- What a dial address stands for, if it is well formed. -/
def denote (s : Text) : Option (Host × ℕ) := do
  let (host,port) ← splitHostPort s
  let p ← (digits port).filter (fun n => 0 < n ∧ n < 65536)
  let h ← denoteHost host
  some (h,p)

example : denote "[2001:DB8::1.2.3.4]:80".toList =
    some (.ipv6 [0x2001,0xdb8,0,0,0,0,0x102,0x304],80) := by decide +kernel

example : denote "::1:80".toList = none := by decide +kernel

/-! ## Literals are read back -/

theorem intercalate_cons {c : Char} {w v : Text} {ws : List Text} :
    [c].intercalate (w :: v :: ws) = w ++ c :: [c].intercalate (v :: ws) := by
  simp [List.intercalate]

theorem mem_intercalate {c d : Char} {ws : List Text} (h : d ∈ [c].intercalate ws) :
    d = c ∨ ∃ w ∈ ws, d ∈ w := by
  induction ws with
  | nil => cases h
  | cons w ws ih =>
    cases ws with
    | nil =>
      rw [List.intercalate_singleton] at h
      exact .inr ⟨w,by simp,h⟩
    | cons v ws =>
      rw [intercalate_cons] at h
      rcases List.mem_append.mp h with hw | hc
      · exact .inr ⟨w,by simp,hw⟩
      · rcases List.mem_cons.mp hc with rfl | hv
        · exact .inl rfl
        · obtain hd | ⟨u,hu,hd⟩ := ih hv
          · exact .inl hd
          · exact .inr ⟨u,by simp [hu],hd⟩

theorem dot_notMem_ofNat (n : ℕ) : '.' ∉ ofNat n :=
  fun hm => absurd (isDigit_of_mem_ofNat hm) (by decide)

theorem octet_ofNat {n : ℕ} (h : n < 256) : octet (ofNat n) = some n := by
  rw [octet,digits_ofNat]
  simp [h]

theorem parse4_dotted {octets : List ℕ} (hl : octets.length = 4) (h : ∀ n ∈ octets, n < 256) :
    parse4 (dotted octets) = some octets := by
  have hs : (dotted octets).splitOn '.' = octets.map ofNat := by
    apply List.splitOn_intercalate
    · intro l hm
      obtain ⟨n,-,rfl⟩ := List.mem_map.mp hm
      exact dot_notMem_ofNat n
    · intro hn
      rw [List.map_eq_nil_iff.mp hn] at hl
      cases hl
  have hm : (octets.map ofNat).mapM octet = some octets := by
    clear hl hs
    induction octets with
    | nil => rfl
    | cons n l ih =>
      rw [List.map_cons,List.mapM_cons,octet_ofNat (h n (by simp)),
        ih (fun m hm => h m (by simp [hm]))]
      rfl
  rw [parse4,hs,hm]
  simp [hl]

theorem mem_dotted {octets : List ℕ} {c : Char} (h : c ∈ dotted octets) :
    c = '.' ∨ c.isDigit = true := by
  obtain hc | ⟨w,hw,hc⟩ := mem_intercalate h
  · exact .inl hc
  · obtain ⟨n,-,rfl⟩ := List.mem_map.mp hw
    exact .inr (isDigit_of_mem_ofNat hc)

theorem value_digitChar : ∀ d < 16, Hex.value (Nat.digitChar d) = some d := by decide +kernel

theorem hexNumber_hexDigits (n : ℕ) : hexNumber (hexDigits n) = some n := by
  induction n using Nat.strong_induction_on with
  | _ n ih =>
    by_cases hn : n < 16
    · rw [hexDigits,Nat.toDigits_of_lt_base hn,hexNumber]
      simp [value_digitChar n hn]
    · have hd : hexNumber (hexDigits (n/16)) = some (n/16) := ih (n/16) (by omega)
      rw [hexNumber,hexDigits] at hd
      rw [hexDigits,Nat.toDigits_of_base_le (by decide) (by omega),hexNumber,List.foldlM_append,hd]
      simp only [Option.bind_eq_bind,Option.bind_some,List.foldlM_cons,List.foldlM_nil,
        value_digitChar (n%16) (by omega),Option.map_some]
      exact congrArg some (by omega)

theorem group_hexDigits {n : ℕ} (h : n < 65536) : group (hexDigits n) = some n := by
  have hl : (hexDigits n).length ≤ 4 := (Nat.length_toDigits_le_iff (by decide) (by decide)).mpr h
  rw [group,if_pos ⟨Nat.toDigits_ne_nil,hl⟩,hexNumber_hexDigits]

theorem mem_hexDigits {n : ℕ} {c : Char} (h : c ∈ hexDigits n) : ∃ d < 16, c = Nat.digitChar d := by
  induction n using Nat.strong_induction_on with
  | _ n ih =>
    by_cases hn : n < 16
    · rw [hexDigits,Nat.toDigits_of_lt_base hn] at h
      exact ⟨n,hn,List.mem_singleton.mp h⟩
    · rw [hexDigits,Nat.toDigits_of_base_le (by decide) (by omega)] at h
      rcases List.mem_append.mp h with h | h
      · exact ih (n/16) (by omega) h
      · exact ⟨n%16,by omega,List.mem_singleton.mp h⟩

theorem digitChar_plain : ∀ d < 16, Nat.digitChar d ≠ ':' ∧ Nat.digitChar d ≠ '[' ∧
    Nat.digitChar d ≠ ']' := by decide +kernel

theorem colon_notMem_hexDigits (n : ℕ) : ':' ∉ hexDigits n := by
  intro hm
  obtain ⟨d,hd,hc⟩ := mem_hexDigits hm
  exact (digitChar_plain d hd).1 hc.symm

theorem mem_colonHex {groups : List ℕ} {c : Char} (h : c ∈ colonHex groups) :
    c ≠ '[' ∧ c ≠ ']' := by
  obtain rfl | ⟨w,hw,hc⟩ := mem_intercalate h
  · exact ⟨by decide,by decide⟩
  · obtain ⟨n,-,rfl⟩ := List.mem_map.mp hw
    obtain ⟨d,hd,rfl⟩ := mem_hexDigits hc
    exact (digitChar_plain d hd).2

theorem cutEllipsis_of_notMem {w : Text} (h : ':' ∉ w) : cutEllipsis w = none := by
  induction w with
  | nil => rfl
  | cons c w ih =>
    rw [List.mem_cons,not_or] at h
    rw [cutEllipsis,ih h.2]
    · rfl
    · rintro s rfl -
      exact h.1 rfl

theorem cutEllipsis_group {w : Text} (h : ':' ∉ w) {s : Text} (hs : s.head? ≠ some ':')
    (hn : cutEllipsis s = none) : cutEllipsis (w ++ ':' :: s) = none := by
  induction w with
  | nil =>
    rw [List.nil_append,cutEllipsis,hn]
    · rfl
    · rintro s' - rfl
      exact hs rfl
  | cons c w ih =>
    rw [List.mem_cons,not_or] at h
    rw [List.cons_append,cutEllipsis,ih h.2]
    · rfl
    · rintro s rfl -
      exact h.1 rfl

theorem cutEllipsis_intercalate {ws : List Text} (h : ∀ w ∈ ws, w ≠ [] ∧ ':' ∉ w) :
    cutEllipsis ([':'].intercalate ws) = none := by
  induction ws with
  | nil => rfl
  | cons w ws ih =>
    cases ws with
    | nil =>
      rw [List.intercalate_singleton]
      exact cutEllipsis_of_notMem (h w (by simp)).2
    | cons v ws =>
      rw [intercalate_cons]
      refine cutEllipsis_group (h w (by simp)).2 ?_ (ih (fun u hu => h u (by simp [hu])))
      obtain ⟨hne,hv⟩ := h v (by simp)
      obtain ⟨c,v,rfl⟩ := List.exists_cons_of_ne_nil hne
      rw [List.mem_cons,not_or] at hv
      cases ws <;> simp [Ne.symm hv.1]

theorem groupsOf_hexDigits {groups : List ℕ} (h : ∀ n ∈ groups, n < 65536) :
    groupsOf (groups.map hexDigits) = some groups := by
  induction groups with
  | nil => rfl
  | cons n groups ih =>
    have hg := group_hexDigits (h n (by simp))
    have ih := ih (fun m hm => h m (by simp [hm]))
    cases groups with
    | nil =>
      rw [List.map_cons,List.map_nil,groupsOf,hg]
      rfl
    | cons m groups =>
      rw [List.map_cons,List.map_cons,groupsOf,hg]
      · rw [List.map_cons] at ih
        rw [ih]
        rfl
      · simp

theorem parse6_colonHex {groups : List ℕ} (hl : groups.length = 8) (h : ∀ n ∈ groups, n < 65536) :
    parse6 (colonHex groups) = some groups := by
  have hc : ∀ w ∈ groups.map hexDigits, w ≠ [] ∧ ':' ∉ w := by
    intro w hw
    obtain ⟨n,-,rfl⟩ := List.mem_map.mp hw
    exact ⟨Nat.toDigits_ne_nil,colon_notMem_hexDigits n⟩
  have hs : (colonHex groups).splitOn ':' = groups.map hexDigits := by
    apply List.splitOn_intercalate _ (fun w hw => (hc w hw).2)
    intro hn
    rw [List.map_eq_nil_iff.mp hn] at hl
    cases hl
  have he : cutEllipsis (colonHex groups) = none := cutEllipsis_intercalate hc
  simp only [parse6,he,hs,groupsOf_hexDigits h]
  simp [hl]

theorem colon_mem_colonHex {groups : List ℕ} (hl : 2 ≤ groups.length) : ':' ∈ colonHex groups := by
  match groups,hl with
  | n :: m :: groups,_ => simp [colonHex]

theorem denoteHost_colonHex {groups : List ℕ} (hl : groups.length = 8)
    (h : ∀ n ∈ groups, n < 65536) : denoteHost (colonHex groups) = some (.ipv6 groups) := by
  rw [denoteHost,if_pos (colon_mem_colonHex (by omega)),parse6_colonHex hl h]
  rfl

theorem denoteHost_dotted {octets : List ℕ} (hl : octets.length = 4) (h : ∀ n ∈ octets, n < 256) :
    denoteHost (dotted octets) = some (.ipv4 octets) := by
  have hc : ':' ∉ dotted octets := by
    intro hm
    rcases mem_dotted hm with hm | hm
    · exact absurd hm (by decide)
    · exact absurd hm (by decide)
  rw [denoteHost,if_neg hc,parse4_dotted hl h]
  rfl

theorem denoteHost_name {s : Text} (h : isName s = true) : denoteHost s = some (.name s) := by
  have hn := h
  simp only [isName,Bool.and_eq_true,Option.isNone_iff_eq_none,List.all_eq_true] at hn
  have hc : ':' ∉ s := fun hm => by simpa using hn.1.2 _ hm
  rw [denoteHost,if_neg hc,hn.2,if_pos h]
  rfl

/-! ## Joining and splitting -/

/-- A host without brackets comes back, with the port. -/
theorem splitHostPort_joinHostPort {host port : Text} (ho : '[' ∉ host) (hc : ']' ∉ host)
    (hp : ∀ c ∈ port, c.isDigit = true) :
    splitHostPort (joinHostPort host port) = some (host,port) := by
  have hcolon : ':' ∉ port := fun hm => absurd (hp _ hm) (by decide)
  have hopen : '[' ∉ port := fun hm => absurd (hp _ hm) (by decide)
  have hclose : ']' ∉ port := fun hm => absurd (hp _ hm) (by decide)
  by_cases hm : ':' ∈ host
  · have hs : splitLast ':' ('[' :: host ++ ']' :: ':' :: port) =
        some ('[' :: host ++ [']'],port) := by
      have := splitLast_append hcolon ('[' :: host ++ [']'])
      rwa [List.append_assoc] at this
    have ho' : splitOnce ']' ('[' :: host ++ [']']) = some ('[' :: host,[]) :=
      splitOnce_append (by simp [hc]) []
    rw [joinHostPort,if_pos hm,splitHostPort,hs]
    simp only [ho']
    simp [ho,hopen,hclose]
  · have hh : (host ++ ':' :: port).head? ≠ some '[' := by
      cases host with
      | nil => simp
      | cons c host =>
        intro he
        rw [Option.some.inj he] at ho
        simp at ho
    rw [joinHostPort,if_neg hm,splitHostPort,splitLast_append hcolon]
    simp only [if_neg hh]
    rw [if_neg (by simp [hm,ho,hc,hopen,hclose])]

theorem denote_joinHostPort {host : Text} {port : ℕ} (ho : '[' ∉ host) (hc : ']' ∉ host)
    (hpos : 0 < port) (hlt : port < 65536) :
    denote (joinHostPort host (ofNat port)) = (denoteHost host).map (fun h => (h,port)) := by
  rw [denote,splitHostPort_joinHostPort ho hc (fun _ => isDigit_of_mem_ofNat)]
  simp only [Option.bind_eq_bind,Option.bind_some,digits_ofNat]
  cases denoteHost host <;> simp [Option.filter_some,hpos,hlt]

/-- A literal that has its brackets already gets a second pair: that is no address. -/
theorem denote_bracketed {literal port : Text} (hm : ':' ∈ literal) (hp : ':' ∉ port) :
    denote (joinHostPort ('[' :: literal ++ [']']) port) = none := by
  have hm' : ':' ∈ '[' :: literal ++ [']'] := by simp [hm]
  have hs : splitLast ':' ('[' :: ('[' :: literal ++ [']']) ++ ']' :: ':' :: port) =
      some ('[' :: ('[' :: literal ++ [']']) ++ [']'],port) := by
    have := splitLast_append hp ('[' :: ('[' :: literal ++ [']']) ++ [']'])
    rwa [List.append_assoc] at this
  have hn : splitHostPort (joinHostPort ('[' :: literal ++ [']']) port) = none := by
    rw [joinHostPort,if_pos hm',splitHostPort,hs]
    simp only [List.cons_append,List.head?_cons,if_true]
    split
    · rename_i a ha
      obtain ⟨he,hclose⟩ := splitOnce_eq_some ha
      -- The first of the two closing brackets is not the last one.
      have hl : ('[' :: '[' :: literal ++ [']']) ++ [']'] = a ++ [']'] := he
      rw [← List.append_cancel_right hl] at hclose
      simp at hclose
    · rfl
  rw [denote,hn]
  rfl

end Address
