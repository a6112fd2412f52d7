import Limux.Lib.Text

/-! Bytes as hexadecimal digits. -/
namespace Hex

def alphabet : List Char := "0123456789abcdef".toList

def digit (n : ℕ) : Char := alphabet.getD n '0'

def encode (l : List UInt8) : Text :=
  l.flatMap (fun b => [digit (b.toNat/16),digit (b.toNat%16)])

def value (c : Char) : Option ℕ :=
  (alphabet.idxOf? c).or ("0123456789ABCDEF".toList.idxOf? c)

def decode : Text → Option (List UInt8)
  | [] => some []
  | [_] => none
  | a :: b :: l => do
    let x ← value a
    let y ← value b
    let m ← decode l
    some (.ofNat (x*16+y) :: m)

theorem value_digit : ∀ n < 16, value (digit n) = some n := by decide +kernel

theorem digit_mem : ∀ n < 16, digit n ∈ alphabet := by decide +kernel

theorem encode_cons (b : UInt8) (l : List UInt8) :
    encode (b :: l) = digit (b.toNat/16) :: digit (b.toNat%16) :: encode l := rfl

theorem ofNat_halves (b : UInt8) : UInt8.ofNat (b.toNat/16*16+b.toNat%16) = b := by
  rw [Nat.div_add_mod',UInt8.ofNat_toNat]

theorem decode_encode (l : List UInt8) : decode (encode l) = some l := by
  induction l with
  | nil => rfl
  | cons b l ih =>
    have hb := b.toNat_lt
    rw [encode_cons,decode,value_digit _ (by omega),value_digit _ (by omega),ih]
    simp only [Option.bind_eq_bind,Option.bind_some,ofNat_halves]

theorem mem_alphabet {l : List UInt8} {c : Char} (h : c ∈ encode l) : c ∈ alphabet := by
  obtain ⟨b,-,hc⟩ := List.mem_flatMap.mp h
  have hb := b.toNat_lt
  rcases List.mem_cons.mp hc with rfl | hc
  · exact digit_mem _ (by omega)
  · rw [List.mem_singleton.mp hc]
    exact digit_mem _ (by omega)

theorem encode_ne_nil {l : List UInt8} (h : l ≠ []) : encode l ≠ [] := by
  cases l with
  | nil => exact absurd rfl h
  | cons b l => exact List.cons_ne_nil _ _

end Hex
