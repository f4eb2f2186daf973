import Formula.Decimal.Shortest
import Formula.Proofs.Double.Nearest

/-! The binary64 number nearest to a decimal depends on the value of the decimal alone. -/

namespace Formula.Decimal

open Double (nearestCode unitsPerOne)

/-- The numerator of the magnitude of a decimal in units. -/
def numerator (d : Decimal) : Nat := d.digits * 10 ^ d.exponent.toNat * unitsPerOne

/-- The denominator of the magnitude of a decimal in units. -/
def denominator (d : Decimal) : Nat := 10 ^ (-d.exponent).toNat

theorem denominator_pos (d : Decimal) : 0 < d.denominator := Nat.pow_pos (by decide)

theorem unitsPerOne_eq : unitsPerOne = 2 ^ 1074 := Nat.one_shiftLeft 1074

/-- The bounds past which a decimal is not looked at are safe. -/
theorem code_eq (d : Decimal) : d.code = nearestCode d.numerator d.denominator := by
  unfold code
  split
  · next hZero =>
    rw [numerator, hZero, Nat.zero_mul, Nat.zero_mul,
      Double.nearestCode_eq_zero (by simpa using d.denominator_pos)]
  · next hDigits =>
    have hPos : 0 < d.digits := Nat.pos_of_ne_zero hDigits
    split
    · next hLarge =>
      have hTen : (2 : Nat) ^ 1025 ≤ 10 ^ 311 := by decide +kernel
      have hPow : (2 : Nat) ^ 1025 ≤ 10 ^ d.exponent.toNat :=
        hTen.trans (Nat.pow_le_pow_right (by decide) (by omega))
      have hDenominator : d.denominator = 1 := by
        rw [denominator, show (-d.exponent).toNat = 0 by omega, pow_zero]
      rw [hDenominator]
      refine (Double.nearestCode_eq_infinity (k := 1025 + 1074) (by decide) ?_).symm
      calc 2 ^ (1025 + 1074) = 1 * 2 ^ 1025 * 2 ^ 1074 := by rw [one_mul, pow_add]
        _ ≤ d.digits * 10 ^ d.exponent.toNat * 2 ^ 1074 :=
          Nat.mul_le_mul_right _ (Nat.mul_le_mul hPos hPow)
        _ = d.numerator / 1 := by rw [numerator, unitsPerOne_eq, Nat.div_one]
    · split
      · next hSmall =>
        have hTen : 4 * 2 ^ 1074 ≤ 10 ^ 400 := by decide +kernel
        refine (Double.nearestCode_eq_zero ?_).symm
        calc 2 * d.numerator = 2 * (d.digits * 2 ^ 1074) := by
              rw [numerator, show d.exponent.toNat = 0 by omega, pow_zero, mul_one, unitsPerOne_eq]
          _ < 2 * (2 ^ (d.digits.log2 + 1) * 2 ^ 1074) :=
            Nat.mul_lt_mul_of_pos_left
              (Nat.mul_lt_mul_of_pos_right Nat.lt_log2_self (Nat.two_pow_pos _)) (by decide)
          _ = 2 ^ d.digits.log2 * (4 * 2 ^ 1074) := by ring
          _ ≤ 10 ^ d.digits.log2 * 10 ^ 400 :=
            Nat.mul_le_mul (Nat.pow_le_pow_left (by decide) _) hTen
          _ ≤ d.denominator := by
            rw [← pow_add, denominator]
            exact Nat.pow_le_pow_right (by decide) (by omega)
      · split
        · next hWhole =>
          rw [denominator, show (-d.exponent).toNat = 0 by omega, pow_zero]
          rfl
        · next hFraction =>
          rw [numerator, show d.exponent.toNat = 0 by omega, pow_zero, mul_one]
          rfl

/-- Decimals of the same value are nearest to the same number. -/
theorem code_congr {d d' : Decimal}
    (h : d.numerator * d'.denominator = d'.numerator * d.denominator) : d.code = d'.code := by
  rw [code_eq, code_eq, Double.nearestCode_congr d.denominator_pos d'.denominator_pos h]

end Formula.Decimal
