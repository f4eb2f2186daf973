import Formula.Decimal.Layout
import Formula.Proofs.Decimal.Digits
import Formula.Proofs.Decimal.Shortest

/-! The text of a number as a literal reads back, if the number is finite. -/

namespace Formula.Decimal

/-- `cs` is digits with a point among them, and reads as the number that `code` stands for. -/
def ReadsAs (cs : List Char) (code : Nat) : Prop :=
  ∃ whole fraction, cs = whole ++ '.' :: fraction ∧ whole ≠ [] ∧
    (∀ c ∈ whole ++ fraction, c.isDigit) ∧ (ofDigits whole fraction 0).code = code

/-- The value of digits is that of the decimal they are read as. -/
theorem readsAs_of_digits {whole fraction : List Char} {n : Nat} {d : Decimal} (hne : whole ≠ [])
    (h : ∀ c ∈ whole ++ fraction, c.isDigit)
    (hn : Nat.ofDigitChars 10 (whole ++ fraction) 0 = n) (hSize : n < 10 ^ maxDigits)
    (hCode : (⟨n, -fraction.length⟩ : Decimal).code = d.code) :
    ReadsAs (whole ++ '.' :: fraction) d.code := by
  refine ⟨whole, fraction, rfl, hne, h, ?_⟩
  rw [ofDigits_eq h (by rw [hn]; exact hSize), hn, hCode]

theorem isDigit_of_mem_replicate {n : Nat} {c : Char} (h : c ∈ List.replicate n '0') :
    c.isDigit := by
  rw [List.eq_of_mem_replicate h]
  rfl

/-- Zeros that take the place of a power of ten keep the number. -/
theorem code_expand (n e : Nat) :
    (⟨n * 10 ^ (e + 1), -1⟩ : Decimal).code = (⟨n, e⟩ : Decimal).code := by
  apply code_congr
  simp only [numerator, denominator, Int.toNat_natCast, Int.toNat_neg_natCast, Int.neg_neg,
    Int.toNat_one, show (-1 : Int).toNat = 0 by rfl]
  ring

/-- The digits of a decimal read back wherever the point stands, with room for the zeros that a
power of ten takes. -/
theorem positional_readsAs (d : Decimal)
    (hRoom : d.size < 10 ^ 799) : ReadsAs d.positional d.code := by
  obtain ⟨n, e⟩ := d
  have hSize : n * 10 ^ (e.toNat + 1) < 10 ^ maxDigits := by
    rw [pow_succ, ← Nat.mul_assoc, maxDigits, pow_succ]
    exact Nat.mul_lt_mul_of_pos_right hRoom (by decide)
  have hDigits : ∀ c ∈ Nat.toDigits 10 n, c.isDigit := isDigit_of_mem_toDigits
  have hValue : Nat.ofDigitChars 10 (Nat.toDigits 10 n) 0 = n := Nat.ofDigitChars_ten_toDigits
  have hPos : 0 < (Nat.toDigits 10 n).length := Nat.length_toDigits_pos
  have hPlain : n < 10 ^ maxDigits :=
    Nat.lt_of_le_of_lt (Nat.le_mul_of_pos_right _ (Nat.pow_pos (by decide))) hSize
  simp only [positional]
  generalize Nat.toDigits 10 n = ds at hDigits hValue hPos ⊢
  split
  · next hPoint =>
    show ReadsAs (['0'] ++ '.' :: (List.replicate _ '0' ++ ds)) _
    refine readsAs_of_digits (List.cons_ne_nil _ _) ?_ ?_ hPlain ?_
    · simp only [List.mem_append, List.mem_singleton]
      rintro c (rfl | hc | hc)
      · rfl
      · exact isDigit_of_mem_replicate hc
      · exact hDigits c hc
    · simpa [Nat.ofDigitChars_append, Nat.ofDigitChars_cons] using hValue
    · congr 2
      simp only [List.length_append, List.length_replicate]
      omega
  · split
    · next hPoint =>
      obtain ⟨k, rfl⟩ := Int.eq_ofNat_of_zero_le (show 0 ≤ e by omega)
      rw [show ((ds.length + k : Int) - ds.length).toNat = k by omega, ← code_expand n k]
      refine readsAs_of_digits (fun hNil => ?_) ?_ ?_ hSize rfl
      · rw [List.append_eq_nil_iff] at hNil
        simp [hNil.1] at hPos
      · simp only [List.mem_append, List.mem_singleton]
        rintro c ((hc | hc) | rfl)
        · exact hDigits c hc
        · exact isDigit_of_mem_replicate hc
        · rfl
      · rw [Nat.ofDigitChars_append, Nat.ofDigitChars_append, hValue,
          Nat.ofDigitChars_replicate_zero, Nat.ofDigitChars_cons, Nat.ofDigitChars_nil]
        simp only [Nat.sub_self, Int.toNat_natCast]
        ring
    · next hLow hHigh =>
      refine readsAs_of_digits ?_ ?_ ?_ hPlain ?_
      · rw [ne_eq, List.take_eq_nil_iff]
        rintro (hZero | rfl)
        · omega
        · exact absurd hPos (by simp)
      · rwa [List.take_append_drop]
      · rwa [List.take_append_drop]
      · congr 2
        rw [List.length_drop]
        omega

end Formula.Decimal

namespace Formula.Double

open Decimal (ReadsAs)

theorem wholeText_eq (x : Double) :
    x.wholeText = (⟨x.units / unitsPerOne, 0⟩ : Decimal).positional := by
  have hPos := Nat.length_toDigits_pos (b := 10) (n := x.units / unitsPerOne)
  simp only [wholeText, Decimal.positional]
  generalize Nat.toDigits 10 (x.units / unitsPerOne) = ds at hPos ⊢
  rw [if_neg (by omega), if_pos (by omega),
    show ((ds.length + 0 : Int) - ds.length).toNat = 0 by omega, List.replicate_zero,
    List.append_nil]

/-- A whole number is a decimal without places, with room for a digit after the point. -/
theorem whole_code {code : Nat} (h : code < infinityCode)
    (hWhole : unitsOf code % unitsPerOne = 0) :
    (⟨unitsOf code / unitsPerOne, 0⟩ : Decimal).code = code := by
  rw [Decimal.code_eq, Decimal.numerator, Decimal.denominator]
  show nearestCode (unitsOf code / unitsPerOne * 10 ^ 0 * unitsPerOne) (10 ^ 0) = code
  rw [pow_zero, Nat.mul_one, Nat.div_mul_cancel (Nat.dvd_of_mod_eq_zero hWhole),
    nearestCode_unitsOf h]

theorem whole_size_lt {code : Nat} (h : code < infinityCode) :
    (⟨unitsOf code / unitsPerOne, 0⟩ : Decimal).size < 10 ^ 799 := by
  have hTen : (2 : Nat) ^ 1024 * 1 < 10 ^ 799 := by decide +kernel
  have hWhole := Decimal.div_unitsPerOne_lt (unitsOf_lt h) Nat.one_pos
  rw [Nat.mul_one] at hWhole
  rw [Decimal.size, Int.toNat_zero, pow_zero, Nat.mul_one]
  exact hWhole.trans hTen

section Finite

variable {x : Double}

theorem wholeText_readsAs (hFinite : x.isFinite) (hWhole : x.isWhole) :
    ReadsAs x.wholeText x.code := by
  have hCode : x.code < infinityCode := of_decide_eq_true hFinite
  have hUnits : unitsOf x.code % unitsPerOne = 0 := by
    simpa [isWhole, hFinite, units] using hWhole
  have hReads := Decimal.positional_readsAs _ (whole_size_lt hCode)
  rwa [whole_code hCode hUnits, ← units, ← wholeText_eq] at hReads

theorem positional_shortest_readsAs (hFinite : x.isFinite) (hFraction : x.isWhole = false) :
    ReadsAs (Decimal.shortest x.code).positional x.code := by
  have hCode : x.code < infinityCode := of_decide_eq_true hFinite
  have hUnits : unitsOf x.code % unitsPerOne ≠ 0 := by
    simpa [isWhole, hFinite, units] using hFraction
  have hReads := Decimal.positional_readsAs _ (Decimal.shortest_size_lt hCode hUnits)
  rwa [Decimal.shortest_code hCode] at hReads

/-- The text of a finite literal reads back. -/
theorem literalText_readsAs (hSign : x.negative = false) (hFinite : x.isFinite) :
    ReadsAs x.literalText x.code := by
  simp only [literalText, isNaN_of_isFinite hFinite, isInfinite_of_isFinite hFinite, signed, hSign,
    Bool.false_eq_true, if_false]
  split
  · next hWhole => exact wholeText_readsAs hFinite hWhole
  · next hFraction =>
    exact positional_shortest_readsAs hFinite (eq_false_of_ne_true hFraction)

end Finite

end Formula.Double
