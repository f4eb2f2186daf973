import Formula.Decimal

/-! The decimal with the fewest digits among those that read back as a given binary64 magnitude,
and of these the nearest to it. -/

namespace Formula.Decimal

/-- The exponent of the leading digit of `units` units. -/
def leadingExponent (units : Nat) : Int :=
  (Nat.toDigits 10 (units * Nat.pow 10 324 / Double.unitsPerOne)).length - 325

/-- `units` units, divided by `10 ^ exponent`, as a fraction. -/
def scaled (units : Nat) (exponent : Int) : Nat × Nat :=
  if 0 ≤ exponent then (units, Double.unitsPerOne * Nat.pow 10 exponent.toNat)
  else (units * Nat.pow 10 (-exponent).toNat, Double.unitsPerOne)

/-- The multiple of `10 ^ exponent` next to the magnitude that `code` stands for which reads back
as `code`. Of two the nearer is taken, and the larger if they are equally near. -/
def onGrid? (code : Nat) (exponent : Int) : Option Decimal :=
  let (n, d) := scaled (Double.unitsOf code) exponent
  let below := normal ⟨n / d, exponent⟩
  let above := normal ⟨n / d + 1, exponent⟩
  if below.code = code then
    if above.code = code && d ≤ 2 * (n % d) then some above else some below
  else if above.code = code then some above
  else none

/-- The first of the `count` grids from `exponent` downwards that has a multiple which reads
back. -/
def firstOnGrid? (code : Nat) : Nat → Int → Option Decimal
  | 0, _ => none
  | count + 1, exponent =>
    (onGrid? code exponent).or (firstOnGrid? code count (exponent - 1))

/-- All digits of the magnitude that `code` stands for: a unit is `5^1074 / 10^1074`. -/
def exact (code : Nat) : Decimal := normal ⟨Double.unitsOf code * Nat.pow 5 1074, -1074⟩

/-- The shortest decimal that reads back as `code`; seventeen digits are always enough. -/
def shortest (code : Nat) : Decimal :=
  (firstOnGrid? code 17 (leadingExponent (Double.unitsOf code))).getD (exact code)

end Formula.Decimal
