import Formula.Decimal.Numeral
import Mathlib.Tactic.Ring

/-! Numbers as they are read from digits. No digit is dropped from a decimal below `10^800`, nor
from a whole number below the limit, so these are read with their exact values. -/

namespace Formula.Decimal

variable {cs whole fraction : List Char} {c : Char}

theorem isDigit_of_mem_toDigits {n : Nat} : ∀ c ∈ Nat.toDigits 10 n, c.isDigit := fun _ =>
  Nat.isDigit_of_mem_toDigits (by decide) (by decide)

theorem digit_bounds (h : c.isDigit) : '0'.toNat ≤ c.toNat ∧ c.toNat ≤ '9'.toNat := by
  simpa [Char.isDigit, UInt32.le_iff_toNat_le] using h

/-- Digits after one that is not zero denote at least the power of ten that their number gives. -/
theorem le_ofDigitChars (h : c.isDigit) (hc : c ≠ '0') (cs : List Char) :
    10 ^ cs.length ≤ Nat.ofDigitChars 10 (c :: cs) 0 := by
  have hDigit := digit_bounds h
  have hZero : c.toNat ≠ '0'.toNat := fun heq => hc (Char.toNat_inj.mp heq)
  simp only [Char.reduceToNat] at hDigit hZero
  rw [Nat.ofDigitChars_cons, Nat.ofDigitChars_eq_ofDigitChars_zero]
  simp only [Char.reduceToNat]
  calc 10 ^ cs.length = 10 ^ cs.length * 1 := (mul_one _).symm
    _ ≤ 10 ^ cs.length * (10 * 0 + (c.toNat - 48)) := Nat.mul_le_mul_left _ (by omega)
    _ ≤ _ := Nat.le_add_right _ _

theorem ofDigitChars_dropWhile (cs : List Char) :
    Nat.ofDigitChars 10 (cs.dropWhile (· == '0')) 0 = Nat.ofDigitChars 10 cs 0 := by
  induction cs with
  | nil => rfl
  | cons c cs ih =>
    by_cases hc : c = '0'
    · rw [List.dropWhile_cons_of_pos (by simpa using hc), ih, hc]
      simp [Nat.ofDigitChars_cons]
    · rw [List.dropWhile_cons_of_neg (by simpa using hc)]

/-- Without the zeros in front, a number below a power of ten has no more digits than the power
says. -/
theorem length_dropWhile_le {k : Nat} (h : ∀ c ∈ cs, c.isDigit)
    (hk : Nat.ofDigitChars 10 cs 0 < 10 ^ k) : (cs.dropWhile (· == '0')).length ≤ k := by
  rcases hDrop : cs.dropWhile (· == '0') with _ | ⟨c, rest⟩
  · exact Nat.zero_le k
  · have hMem : c ∈ cs := (List.dropWhile_sublist _).subset (hDrop ▸ List.mem_cons_self)
    have hHead : c ≠ '0' := by
      have hNot := List.head?_dropWhile_not (· == '0') cs
      simpa [hDrop] using hNot
    have hLow := le_ofDigitChars (h c hMem) hHead rest
    rw [← hDrop, ofDigitChars_dropWhile] at hLow
    exact (Nat.pow_lt_pow_iff_right (by decide)).mp (Nat.lt_of_le_of_lt hLow hk)

/-- A number below `10^800` is read with all its digits. -/
theorem ofDigits_eq (h : ∀ c ∈ whole ++ fraction, c.isDigit)
    (hSize : Nat.ofDigitChars 10 (whole ++ fraction) 0 < 10 ^ maxDigits) :
    ofDigits whole fraction 0 =
      ⟨Nat.ofDigitChars 10 (whole ++ fraction) 0, -fraction.length⟩ := by
  have hLength := length_dropWhile_le h hSize
  rw [ofDigits]
  simp only [List.drop_eq_nil_of_le hLength, List.take_of_length_le hLength,
    ofDigitChars_dropWhile, Int.zero_sub]

end Formula.Decimal

namespace Formula.Numeral

theorem foldl_digits_eq {limit : Nat} (cs : List Char) {n : Nat}
    (h : Nat.ofDigitChars 10 cs n < limit) :
    cs.foldl (fun n c => if n < limit then 10 * n + (c.toNat - '0'.toNat) else n) n =
      Nat.ofDigitChars 10 cs n := by
  induction cs generalizing n with
  | nil => simp
  | cons c cs ih =>
    rw [Nat.ofDigitChars_cons] at h ⊢
    have hStep : 10 * n + (c.toNat - '0'.toNat) < limit := by
      rw [Nat.ofDigitChars_eq_ofDigitChars_zero] at h
      have hPow : 0 < 10 ^ cs.length := Nat.pow_pos (by decide)
      have hGrow := Nat.le_mul_of_pos_left (10 * n + (c.toNat - '0'.toNat)) hPow
      omega
    rw [List.foldl_cons, if_pos (by omega), ih h]

theorem le_foldl_digits {limit : Nat} (cs : List Char) {n : Nat}
    (h : limit ≤ Nat.ofDigitChars 10 cs n) :
    limit ≤ cs.foldl (fun n c => if n < limit then 10 * n + (c.toNat - '0'.toNat) else n) n := by
  induction cs generalizing n with
  | nil => simpa using h
  | cons c cs ih =>
    rw [List.foldl_cons]
    by_cases hLimit : n < limit
    · rw [if_pos hLimit]
      exact ih (by rwa [Nat.ofDigitChars_cons] at h)
    · -- No digit is read any more, and more digits make no number smaller.
      rw [if_neg hLimit]
      refine ih ?_
      rw [Nat.ofDigitChars_eq_ofDigitChars_zero]
      have hGrow := Nat.le_mul_of_pos_left n (Nat.pow_pos (n := cs.length) (show 0 < 10 by decide))
      omega

/-- A number below the limit is read to its end. -/
theorem readUpTo_eq {limit : Nat} {cs : List Char} (h : Nat.ofDigitChars 10 cs 0 < limit) :
    readUpTo limit cs = Nat.ofDigitChars 10 cs 0 :=
  foldl_digits_eq cs h

/-- No other number is read as one below the limit. -/
theorem le_readUpTo {limit : Nat} {cs : List Char} (h : limit ≤ Nat.ofDigitChars 10 cs 0) :
    limit ≤ readUpTo limit cs :=
  le_foldl_digits cs h

theorem fits_natCast (n : Nat) : fits n = true ↔ (n : Int) ≤ maxInt := by
  have hMin : minInt ≤ (n : Int) := (show minInt ≤ 0 by decide).trans (Int.natCast_nonneg n)
  rw [fits, decide_eq_true hMin, Bool.true_and, decide_eq_true_iff]

/-- What is read of a number tells whether it has at most 64 bits. -/
theorem fits_readUpTo (cs : List Char) :
    fits (readUpTo tooLarge cs) = true ↔ (Nat.ofDigitChars 10 cs 0 : Int) ≤ maxInt := by
  rw [fits_natCast]
  by_cases h : Nat.ofDigitChars 10 cs 0 < tooLarge
  · rw [readUpTo_eq h]
  · have hRead := le_readUpTo (Nat.le_of_not_lt h)
    unfold tooLarge maxInt at *
    omega

theorem readUpTo_eq_of_le {cs : List Char} (h : (Nat.ofDigitChars 10 cs 0 : Int) ≤ maxInt) :
    readUpTo tooLarge cs = Nat.ofDigitChars 10 cs 0 := by
  apply readUpTo_eq
  unfold tooLarge maxInt at *
  omega

end Formula.Numeral
