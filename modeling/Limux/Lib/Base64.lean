import Limux.Lib.Text

/-! Standard base64 with padding. -/

namespace Base64

def alphabet : List Char :=
  "ABCDEFGHIJKLMNOPQRSTUVWXYZabcdefghijklmnopqrstuvwxyz0123456789+/".toList

def digit (n : ℕ) : Char := alphabet.getD n 'A'

def value (c : Char) : Option ℕ := alphabet.idxOf? c

def encode : List UInt8 → Text
  | [] => []
  | [a] => [digit (a.toNat/4),digit (a.toNat%4*16),'=','=']
  | [a,b] => [digit (a.toNat/4),digit (a.toNat%4*16+b.toNat/16),digit (b.toNat%16*4),'=']
  | a :: b :: c :: l =>
    digit (a.toNat/4) :: digit (a.toNat%4*16+b.toNat/16) ::
      digit (b.toNat%16*4+c.toNat/64) :: digit (c.toNat%64) :: encode l

/-- A strict decoder wants the bits after the last byte to be zero. -/
def decode (strict : Bool) : Text → Option (List UInt8)
  | [] => some []
  | a :: b :: c :: d :: l => do
    let x ← value a
    let y ← value b
    if d = '=' then
      if l ≠ [] then none
      else if c = '=' then
        if strict ∧ y%16 ≠ 0 then none else some [.ofNat (x*4+y/16)]
      else do
        let z ← value c
        if strict ∧ z%4 ≠ 0 then none
        else some [.ofNat (x*4+y/16),.ofNat (y%16*16+z/4)]
    else do
      let z ← value c
      let w ← value d
      let m ← decode strict l
      some (.ofNat (x*4+y/16) :: .ofNat (y%16*16+z/4) :: .ofNat (z%4*64+w) :: m)
  | _ => none

theorem value_digit : ∀ n < 64, value (digit n) = some n := by decide +kernel

theorem digit_ne_pad : ∀ n < 64, digit n ≠ '=' := by decide +kernel

theorem ofNat_eq {a : UInt8} {n : ℕ} (h : n = a.toNat) : UInt8.ofNat n = a := by
  rw [h,UInt8.ofNat_toNat]

theorem decode_encode (strict : Bool) (l : List UInt8) : decode strict (encode l) = some l := by
  fun_induction encode l with
  | case1 => rfl
  | case2 a =>
    have ha := a.toNat_lt
    simp (disch := omega) only [decode,value_digit,Option.bind_eq_bind,Option.bind_some,if_true]
    have hz : a.toNat%4*16%16 = 0 := by omega
    simp only [hz,ne_eq,not_true,and_false,if_false]
    rw [ofNat_eq (a := a) (by omega)]
  | case3 a b =>
    have ha := a.toNat_lt
    have hb := b.toNat_lt
    simp (disch := omega) only [decode,value_digit,digit_ne_pad,Option.bind_eq_bind,
      Option.bind_some,if_true,if_false]
    have hz : b.toNat%16*4%4 = 0 := by omega
    simp only [hz,ne_eq,not_true,and_false,if_false]
    rw [ofNat_eq (a := a) (by omega),ofNat_eq (a := b) (by omega)]
  | case4 a b c l ih =>
    have ha := a.toNat_lt
    have hb := b.toNat_lt
    have hc := c.toNat_lt
    simp (disch := omega) only [decode,value_digit,digit_ne_pad,Option.bind_eq_bind,
      Option.bind_some,if_false,ih]
    rw [ofNat_eq (a := a) (by omega),ofNat_eq (a := b) (by omega),ofNat_eq (a := c) (by omega)]

theorem digit_mem (n : ℕ) : digit n ∈ alphabet := by
  rw [digit,List.getD_eq_getElem?_getD]
  cases h : alphabet[n]? with
  | none => decide
  | some c => exact List.mem_of_getElem? h

theorem mem_encode {l : List UInt8} {c : Char} (h : c ∈ encode l) : c = '=' ∨ c ∈ alphabet := by
  fun_induction encode l with
  | case1 => cases h
  | case2 a | case3 a b =>
    simp only [List.mem_cons,List.not_mem_nil,or_false] at h
    grind [digit_mem]
  | case4 a b d l ih =>
    simp only [List.mem_cons] at h
    grind [digit_mem]

end Base64
