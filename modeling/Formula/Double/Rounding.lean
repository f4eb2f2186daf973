import Formula.Double

/-! The nearest binary64 number of a quotient of natural numbers. Ties go to the even code. -/

namespace Formula.Double

/-- `n / d` to the nearest whole number, ties to the even one. -/
def roundDiv (n d : Nat) : Nat :=
  match compare (2 * (n % d)) d with
  | .lt => n / d
  | .eq => n / d + n / d % 2
  | .gt => n / d + 1

/-- The code nearest to `n / d` units. A significand of 53 bits is what remains after the
quotient is shifted right, and rounding it up past 53 bits carries into the exponent. -/
def nearestCode (n d : Nat) : Nat :=
  let shift := (n / d).log2 - 52
  min (shift * leadingBit + roundDiv n (d <<< shift)) infinityCode

theorem nearestCode_lt (n d : Nat) : nearestCode n d < signBit :=
  Nat.lt_of_le_of_lt (Nat.min_le_right _ _) (by decide)

/-- The number nearest to `n / d` units, with the given sign. -/
def ofUnits (negative : Bool) (n d : Nat) : Double :=
  ⟨negative, nearestCode n d, nearestCode_lt n d⟩

/-- The number nearest to the whole number `n`. -/
def ofInt (n : Int) : Double := ofUnits (n < 0) (n.natAbs * unitsPerOne) 1

end Formula.Double
