import Limux.Lib.Lines

/-! UTF-8 texts as byte lists: encoding, and decoding that replaces invalid
sequences by U+FFFD. -/
namespace Utf8

def encode (s : List Char) : List UInt8 := s.flatMap String.utf8EncodeChar

def inRange (lo hi : UInt8) (b : UInt8) : Bool := lo ≤ b && b ≤ hi

def isCont : UInt8 → Bool := inRange 0x80 0xbf

/-- May the second byte follow the first one of a longer sequence? -/
def second (b c : UInt8) : Bool :=
  if b = 0xe0 then inRange 0xa0 0xbf c
  else if b = 0xed then inRange 0x80 0x9f c
  else if b = 0xf0 then inRange 0x90 0xbf c
  else if b = 0xf4 then inRange 0x80 0x8f c
  else inRange 0xe1 0xf3 b && isCont c

/-- Bytes of a maximal prefix of an ill-formed sequence, at least one. -/
def invalidLen : List UInt8 → ℕ
  | b :: c :: d :: _ =>
    if second b c then if inRange 0xf0 0xf4 b && isCont d then 3 else 2 else 1
  | [b,c] => if second b c then 2 else 1
  | _ => 1

def decodeStep (s : List UInt8) : Char × List UInt8 :=
  match ByteArray.utf8DecodeChar? s.toByteArray 0 with
  | some c => (c,s.drop c.utf8Size)
  | none => (Char.ofNat 0xfffd,s.drop (invalidLen s))

def decodeAux : ℕ → List UInt8 → List Char
  | 0, _ => []
  | _+1, [] => []
  | fuel+1, s => (decodeStep s).1 :: decodeAux fuel (decodeStep s).2

/-- `String::from_utf8_lossy`. -/
def decodeLossy (s : List UInt8) : List Char := decodeAux s.length s

theorem decodeStep_encode (c : Char) (s : List UInt8) :
    decodeStep (String.utf8EncodeChar c ++ s) = (c,s) := by
  unfold decodeStep
  rw [List.toByteArray_append,ByteArray.utf8DecodeChar?_utf8EncodeChar_append]
  simp only [Prod.mk.injEq,true_and]
  rw [← String.length_utf8EncodeChar,List.drop_left]

theorem encode_cons (c : Char) (s : List Char) :
    encode (c :: s) = String.utf8EncodeChar c ++ encode s := List.flatMap_cons

theorem encode_append (a b : List Char) : encode (a ++ b) = encode a ++ encode b :=
  List.flatMap_append

/-- A valid text decodes to itself, whatever follows it. -/
theorem decodeAux_append (s : List Char) (b : List UInt8) (fuel : ℕ) (h : s.length ≤ fuel) :
    decodeAux fuel (encode s ++ b) = s ++ decodeAux (fuel-s.length) b := by
  induction s generalizing fuel with
  | nil => rfl
  | cons c s ih =>
    obtain ⟨fuel,rfl⟩ : ∃ n, fuel = n+1 := ⟨fuel-1,by simp at h; omega⟩
    have he : encode (c :: s) ++ b = String.utf8EncodeChar c ++ (encode s ++ b) := by
      rw [encode_cons,List.append_assoc]
    have hne : encode (c :: s) ++ b ≠ [] := by
      intro hn
      have := congrArg List.length hn
      rw [he,List.length_append,String.length_utf8EncodeChar] at this
      have := c.utf8Size_pos
      simp at *
      omega
    obtain ⟨x,xs,hx⟩ := List.exists_cons_of_ne_nil hne
    have hf : fuel+1-(c :: s).length = fuel-s.length := by
      rw [List.length_cons]
      omega
    rw [hx,decodeAux,← hx,he,decodeStep_encode,hf]
    · exact congrArg (c :: ·) (ih fuel (by simpa using h))
    · simp

theorem decodeAux_nil (fuel : ℕ) : decodeAux fuel [] = [] := by cases fuel <;> rfl

theorem decodeAux_encode (s : List Char) (fuel : ℕ) (h : s.length ≤ fuel) :
    decodeAux fuel (encode s) = s := by
  have ha := decodeAux_append s [] fuel h
  rwa [List.append_nil,decodeAux_nil,List.append_nil] at ha

theorem length_le_encode (s : List Char) : s.length ≤ (encode s).length := by
  induction s with
  | nil => simp
  | cons c s ih =>
    have := c.utf8Size_pos
    simp only [encode,List.flatMap_cons,List.length_append,String.length_utf8EncodeChar,
      List.length_cons] at ih ⊢
    omega

theorem decodeLossy_encode (s : List Char) : decodeLossy (encode s) = s :=
  decodeAux_encode s _ (length_le_encode s)

/-- What valid text at the start decodes to. -/
theorem decodeLossy_append (s : List Char) (b : List UInt8) :
    ∃ t, decodeLossy (encode s ++ b) = s ++ t := by
  refine ⟨_,decodeAux_append s b _ ?_⟩
  have := length_le_encode s
  rw [List.length_append]
  omega

/-- `String::from_utf8`: nothing may have to be replaced. -/
def decode? (s : List UInt8) : Option (List Char) :=
  if encode (decodeLossy s) = s then some (decodeLossy s) else none

theorem decode?_encode (s : List Char) : decode? (encode s) = some s := by
  rw [decode?,decodeLossy_encode,if_pos rfl]

theorem encode_of_decode? {s : List UInt8} {t : List Char} (h : decode? s = some t) :
    encode t = s := by
  obtain ⟨he,ht⟩ := Option.ite_none_right_eq_some.mp h
  rw [← Option.some.inj ht]
  exact he

theorem newline_notMem {c : Char} (h : c ≠ '\n') : (10 : UInt8) ∉ String.utf8EncodeChar c := by
  have hne : c.val.toNat ≠ 10 := by
    intro he
    apply h
    apply Char.ext
    apply UInt32.toNat_inj.mp
    exact he
  have hval : ∀ n, n < 256 → n ≠ 10 → (10 : UInt8) ≠ UInt8.ofNat n := by
    intro n hn hne he
    have := congrArg UInt8.toNat he
    simp only [UInt8.toNat_ofNat] at this
    rw [UInt8.toNat_ofNat',Nat.mod_eq_of_lt hn] at this
    exact hne this.symm
  unfold String.utf8EncodeChar
  simp only
  split_ifs with h1 h2 h3 <;> simp only [List.mem_cons,List.not_mem_nil,or_false,not_or]
  · exact hval _ (by omega) hne
  · exact ⟨hval _ (by omega) (by omega),hval _ (by omega) (by omega)⟩
  · exact ⟨hval _ (by omega) (by omega),hval _ (by omega) (by omega),
      hval _ (by omega) (by omega)⟩
  · exact ⟨hval _ (by omega) (by omega),hval _ (by omega) (by omega),
      hval _ (by omega) (by omega),hval _ (by omega) (by omega)⟩

theorem newline_mem_encode {s : List Char} : (10 : UInt8) ∈ encode s ↔ '\n' ∈ s := by
  rw [encode,List.mem_flatMap]
  constructor
  · rintro ⟨c,hc,hm⟩
    by_contra hn
    exact newline_notMem (fun he => hn (he ▸ hc)) hm
  · exact fun h => ⟨'\n',h,by decide⟩

/-- Lines of an encoded text are its encoded lines. -/
theorem complete_encode (s : List Char) :
    Lines.complete 10 (encode s) = (Lines.complete '\n' s).map encode :=
  Lines.complete_flatMap (by decide) (fun _ => newline_notMem) s

end Utf8
