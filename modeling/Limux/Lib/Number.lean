import Limux.Lib.Words
import Mathlib.Algebra.GroupWithZero.Nat

/-! Decimal numbers as texts: `Display` and `from_str` of the bounded integers. -/
namespace Text

def ofNat (n : ℕ) : Text := Nat.toDigits 10 n

def ofInt : ℤ → Text
  | .ofNat n => ofNat n
  | .negSucc n => '-' :: ofNat (n+1)

def digits (s : Text) : Option ℕ :=
  if s ≠ [] ∧ s.all Char.isDigit then some (Nat.ofDigitChars 10 s 0) else none

/-- `from_str` of an unsigned type with `bound` values. -/
def parseUnsigned (bound : ℕ) : Text → Option ℕ
  | '+' :: s => (digits s).filter (fun n => n < bound)
  | s => (digits s).filter (fun n => n < bound)

/-- `from_str` of a signed type with values from `-bound` to `bound-1`. -/
def parseSigned (bound : ℕ) : Text → Option ℤ
  | '-' :: s => ((digits s).filter (fun n => n ≤ bound)).map (fun n => -Int.ofNat n)
  | '+' :: s => ((digits s).filter (fun n => n < bound)).map Int.ofNat
  | s => ((digits s).filter (fun n => n < bound)).map Int.ofNat

theorem isDigit_of_mem_ofNat {n : ℕ} {c : Char} (h : c ∈ ofNat n) : c.isDigit = true :=
  Nat.isDigit_of_mem_toDigits (by decide) (by decide) h

theorem ofNat_ne_nil (n : ℕ) : ofNat n ≠ [] := Nat.toDigits_ne_nil

theorem digits_ofNat (n : ℕ) : digits (ofNat n) = some n := by
  rw [digits,if_pos ⟨ofNat_ne_nil n,List.all_eq_true.mpr fun _ => isDigit_of_mem_ofNat⟩]
  exact congrArg some Nat.ofDigitChars_ten_toDigits

theorem isWhitespace_of_isDigit {c : Char} (h : c.isDigit = true) : isWhitespace c = false := by
  simp only [Char.isDigit,Bool.and_eq_true,decide_eq_true_eq,ge_iff_le,UInt32.le_iff_toNat_le] at h
  have h1 : 48 ≤ c.toNat := h.1
  have h2 : c.toNat ≤ 57 := h.2
  simp only [isWhitespace,Bool.or_eq_false_iff,Bool.and_eq_false_iff,decide_eq_false_iff_not]
  omega

theorem word_ofNat (n : ℕ) : Word (ofNat n) :=
  ⟨ofNat_ne_nil n,fun _ hc => isWhitespace_of_isDigit (isDigit_of_mem_ofNat hc)⟩

theorem ofNat_cases (n : ℕ) : ∃ c s, ofNat n = c :: s ∧ c.isDigit = true := by
  obtain ⟨c,s,h⟩ := List.exists_cons_of_ne_nil (ofNat_ne_nil n)
  exact ⟨c,s,h,isDigit_of_mem_ofNat (h ▸ List.mem_cons_self)⟩

theorem of_digits {s : Text} {n : ℕ} (h : digits s = some n) :
    s ≠ [] ∧ ∀ c ∈ s, c.isDigit = true := by
  obtain ⟨⟨hne,hd⟩,-⟩ := Option.ite_none_right_eq_some.mp h
  exact ⟨hne,List.all_eq_true.mp hd⟩

theorem parseUnsigned_of_digits {s : Text} {n : ℕ} (bound : ℕ) (h : digits s = some n) :
    parseUnsigned bound s = if n < bound then some n else none := by
  have hd := (of_digits h).2
  have he : parseUnsigned bound s = (digits s).filter (fun n => n < bound) := by
    unfold parseUnsigned
    split
    · exact absurd (hd '+' List.mem_cons_self) (by decide)
    · rfl
  rw [he,h]
  by_cases hn : n < bound
  · simp [hn]
  · simp [hn,Nat.le_of_not_lt hn]

theorem parseUnsigned_ofNat_eq (bound n : ℕ) :
    parseUnsigned bound (ofNat n) = if n < bound then some n else none :=
  parseUnsigned_of_digits bound (digits_ofNat n)

theorem parseUnsigned_of_le {b c : ℕ} (h : b ≤ c) (s : Text) :
    parseUnsigned b s = (parseUnsigned c s).filter (fun n => n < b) := by
  have hf : ∀ o : Option ℕ, o.filter (fun n => n < b) =
      (o.filter (fun n => n < c)).filter (fun n => n < b) := by
    intro o
    cases o with
    | none => rfl
    | some n =>
      by_cases hn : n < b
      · simp [Option.filter_some,hn,show n < c by omega]
      · by_cases hc : n < c <;> simp [Option.filter_some,hn,hc]
  unfold parseUnsigned
  split <;> exact hf _

theorem parseUnsigned_ofNat {bound n : ℕ} (h : n < bound) :
    parseUnsigned bound (ofNat n) = some n := by
  rw [parseUnsigned_ofNat_eq,if_pos h]

theorem parseSigned_ofInt {bound : ℕ} {i : ℤ} (hlo : -(bound : ℤ) ≤ i) (hhi : i < bound) :
    parseSigned bound (ofInt i) = some i := by
  cases i with
  | ofNat n =>
    obtain ⟨c,s,hc,hd⟩ := ofNat_cases n
    have h1 : c ≠ '+' := by rintro rfl; exact absurd hd (by decide)
    have h2 : c ≠ '-' := by rintro rfl; exact absurd hd (by decide)
    have he : parseSigned bound (ofNat n) =
        ((digits (ofNat n)).filter (fun n => n < bound)).map Int.ofNat := by
      rw [hc]
      unfold parseSigned
      split
      · rename_i heq
        exact absurd (List.cons.inj heq).1 h2
      · rename_i heq
        exact absurd (List.cons.inj heq).1 h1
      · rfl
    have hn : n < bound := by simpa using hhi
    rw [ofInt,he,digits_ofNat]
    simp [hn]
  | negSucc n =>
    have hn : n+1 ≤ bound := by rw [Int.negSucc_eq] at hlo; omega
    rw [ofInt,parseSigned,digits_ofNat]
    simp only [Option.filter,hn,decide_true,if_true,Option.map_some]
    rfl

theorem word_ofInt (i : ℤ) : Word (ofInt i) := by
  cases i with
  | ofNat n => exact word_ofNat n
  | negSucc n =>
    refine ⟨by simp [ofInt],fun c hc => ?_⟩
    rcases List.mem_cons.mp hc with rfl | hc
    · decide
    · exact (word_ofNat (n+1)).2 c hc

/-- A word that is not an option. -/
def Plain (w : Text) : Prop := Word w ∧ stripDashes w = none

instance (w : Text) : Decidable (Plain w) := inferInstanceAs (Decidable (_ ∧ _))

theorem plain_ofNat (n : ℕ) : Plain (ofNat n) := by
  refine ⟨word_ofNat n,?_⟩
  obtain ⟨c,s,hc,hd⟩ := ofNat_cases n
  rw [hc]
  unfold stripDashes
  split
  · rename_i heq
    obtain ⟨rfl,-⟩ := List.cons.inj heq
    exact absurd hd (by decide)
  · rfl

end Text
