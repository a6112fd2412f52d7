import Limux.Lib.Number
import Mathlib.Data.Rat.Lemmas

/-! Rational numbers with infinities and NaN: exact arithmetic with the special
values of floating point, and its texts. Zero has no sign. -/

inductive Extended
  | finite (q : ℚ)
  | infinity (negative : Bool)
  | nan
  deriving DecidableEq, Repr

namespace Extended

def neg : Extended → Extended
  | finite q => finite (-q)
  | infinity s => infinity (!s)
  | nan => nan

def add : Extended → Extended → Extended
  | finite a, finite b => finite (a+b)
  | infinity s, infinity t => if s = t then infinity s else nan
  | infinity s, finite _ => infinity s
  | finite _, infinity t => infinity t
  | _, _ => nan

def sub (a b : Extended) : Extended := add a (neg b)

def mul : Extended → Extended → Extended
  | finite a, finite b => finite (a*b)
  | infinity s, infinity t => infinity (s != t)
  | infinity s, finite b => if b = 0 then nan else infinity (s != decide (b < 0))
  | finite a, infinity t => if a = 0 then nan else infinity (t != decide (a < 0))
  | _, _ => nan

def div : Extended → Extended → Extended
  | finite a, finite b =>
    if b = 0 then (if a = 0 then nan else infinity (decide (a < 0))) else finite (a/b)
  | infinity s, finite b => infinity (s != decide (b < 0))
  | finite _, infinity _ => finite 0
  | _, _ => nan

def abs : Extended → Extended
  | finite q => finite (if q < 0 then -q else q)
  | infinity _ => infinity false
  | nan => nan

def le : Extended → Extended → Bool
  | finite a, finite b => decide (a ≤ b)
  | infinity s, infinity t => s || !t
  | infinity s, finite _ => s
  | finite _, infinity t => !t
  | _, _ => false

def lt : Extended → Extended → Bool
  | finite a, finite b => decide (a < b)
  | infinity s, infinity t => s && !t
  | infinity s, finite _ => s
  | finite _, infinity t => !t
  | _, _ => false

def isFinite : Extended → Bool
  | finite _ => true
  | _ => false

/-! Texts. A number that is not whole is written as a fraction. -/

open Text

def parseInt : Text → Option ℤ
  | '-' :: s => (digits s).map (fun n => -Int.ofNat n)
  | s => (digits s).map Int.ofNat

def fraction (q : ℚ) : Text :=
  if q.den = 1 then ofInt q.num else ofInt q.num ++ '/' :: ofNat q.den

def display : Extended → Text
  | finite q => fraction q
  | infinity false => "inf".toList
  | infinity true => "-inf".toList
  | nan => "NaN".toList

def parseFraction (s : Text) : Option ℚ :=
  match splitOnce '/' s with
  | some (a,b) => (parseInt a).bind (fun n => (digits b).map (fun d => mkRat n d))
  | none => (parseInt s).map (fun n : ℤ => (n : ℚ))

def parse (s : Text) : Option Extended :=
  if s = "inf".toList then some (infinity false)
  else if s = "-inf".toList then some (infinity true)
  else if s = "NaN".toList then some nan
  else (parseFraction s).map finite

theorem parseInt_ofInt (i : ℤ) : parseInt (ofInt i) = some i := by
  cases i with
  | ofNat n =>
    obtain ⟨c,s,hc,hd⟩ := ofNat_cases n
    have hne : c ≠ '-' := by rintro rfl; exact absurd hd (by decide)
    have he : parseInt (ofNat n) = (digits (ofNat n)).map Int.ofNat := by
      rw [hc]
      unfold parseInt
      split
      · rename_i heq
        exact absurd (List.cons.inj heq).1 hne
      · rfl
    rw [ofInt,he,digits_ofNat]
    rfl
  | negSucc n =>
    rw [ofInt,parseInt,digits_ofNat]
    rfl

theorem mem_ofInt {i : ℤ} {c : Char} (h : c ∈ ofInt i) : c = '-' ∨ c.isDigit = true := by
  cases i with
  | ofNat n => exact .inr (isDigit_of_mem_ofNat h)
  | negSucc n =>
    rcases List.mem_cons.mp h with h | h
    · exact .inl h
    · exact .inr (isDigit_of_mem_ofNat h)

theorem slash_notMem_ofInt (i : ℤ) : '/' ∉ ofInt i := fun h => by
  rcases mem_ofInt h with h | h
  · exact absurd h (by decide)
  · exact absurd h (by decide)

theorem parseFraction_fraction (q : ℚ) : parseFraction (fraction q) = some q := by
  unfold fraction parseFraction
  split_ifs with h
  · rw [splitOnce_of_notMem (slash_notMem_ofInt _)]
    simp only [parseInt_ofInt,Option.map_some,Option.some.injEq]
    exact (Rat.den_eq_one_iff q).mp h
  · rw [splitOnce_append (slash_notMem_ofInt _)]
    simp only [parseInt_ofInt,digits_ofNat,Option.bind_some,Option.map_some,Option.some.injEq]
    exact Rat.mkRat_self q

theorem mem_fraction {q : ℚ} {c : Char} (h : c ∈ fraction q) :
    c = '-' ∨ c = '/' ∨ c.isDigit = true := by
  unfold fraction at h
  split_ifs at h
  · exact (mem_ofInt h).imp_right .inr
  · rcases List.mem_append.mp h with h | h
    · exact (mem_ofInt h).imp_right .inr
    · rcases List.mem_cons.mp h with h | h
      · exact .inr (.inl h)
      · exact .inr (.inr (isDigit_of_mem_ofNat h))

theorem fraction_ne {q : ℚ} {s : Text} (hs : ∃ c ∈ s, c ≠ '-' ∧ c ≠ '/' ∧ c.isDigit = false) :
    fraction q ≠ s := by
  rintro rfl
  obtain ⟨c,hc,h1,h2,h3⟩ := hs
  rcases mem_fraction hc with h | h | h
  · exact h1 h
  · exact h2 h
  · rw [h3] at h
    cases h

theorem parse_display (x : Extended) : parse (display x) = some x := by
  rcases x with q | (_ | _) | _
  · rw [display,parse,if_neg (fraction_ne ⟨'i',by decide,by decide⟩),
      if_neg (fraction_ne ⟨'i',by decide,by decide⟩),
      if_neg (fraction_ne ⟨'N',by decide,by decide⟩),parseFraction_fraction]
    rfl
  · rfl
  · rfl
  · rfl

theorem plain_ofInt_append (i : ℤ) {t : Text} (ht : Tight t) : Plain (ofInt i ++ t) := by
  have hw : Word (ofInt i ++ t) := by
    refine ⟨by simp [(word_ofInt i).1],fun c hc => ?_⟩
    rcases List.mem_append.mp hc with hc | hc
    · exact (word_ofInt i).2 c hc
    · exact ht c hc
  refine ⟨hw,?_⟩
  cases i with
  | ofNat n =>
    obtain ⟨c,s,hc,hd⟩ := ofNat_cases n
    rw [ofInt,hc,List.cons_append]
    unfold stripDashes
    split
    · rename_i heq
      obtain ⟨rfl,-⟩ := List.cons.inj heq
      exact absurd hd (by decide)
    · rfl
  | negSucc n =>
    obtain ⟨c,s,hc,hd⟩ := ofNat_cases (n+1)
    rw [ofInt,hc,List.cons_append,List.cons_append]
    unfold stripDashes
    split
    · rename_i heq
      obtain ⟨-,heq⟩ := List.cons.inj heq
      obtain ⟨rfl,-⟩ := List.cons.inj heq
      exact absurd hd (by decide)
    · rfl

theorem plain_display (x : Extended) : Plain (display x) := by
  rcases x with q | (_ | _) | _
  · rw [display,fraction]
    split_ifs
    · have h := plain_ofInt_append q.num (t := []) (by decide)
      rwa [List.append_nil] at h
    · refine plain_ofInt_append q.num fun c hc => ?_
      rcases List.mem_cons.mp hc with rfl | hc
      · decide
      · exact (word_ofNat _).2 c hc
  · exact (by decide : Plain "inf".toList)
  · exact (by decide : Plain "-inf".toList)
  · exact (by decide : Plain "NaN".toList)

end Extended
