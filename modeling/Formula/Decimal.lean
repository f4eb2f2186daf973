import Formula.Double.Rounding

/-! Decimal numbers, and the binary64 number nearest to each. -/

namespace Formula

/-- The number `digits · 10 ^ exponent`. -/
structure Decimal where
  digits : Nat
  exponent : Int
deriving DecidableEq

namespace Decimal

/-- The number of digits that a decimal is read with. Halfway between two binary64 numbers lies no
decimal of more than 767 digits, so of further digits it matters only whether all are zero. -/
def maxDigits : Nat := 800

/-- The decimal that the digits `whole` and `fraction`, before and after a point, denote times
`10 ^ power`. Digits past the greatest number of them are replaced by a one, unless all are zero. -/
def ofDigits (whole fraction : List Char) (power : Int) : Decimal :=
  let digits := (whole ++ fraction).dropWhile (· == '0')
  let kept := Nat.ofDigitChars 10 (digits.take maxDigits) 0
  match digits.drop maxDigits with
  | [] => ⟨kept, power - fraction.length⟩
  | rest =>
    ⟨10 * kept + (if rest.all (· == '0') then 0 else 1), power - fraction.length + rest.length - 1⟩

/-- The code of the binary64 number nearest to a decimal. Past `10^310` every magnitude is
infinite, and far below `2^-1074` every magnitude is zero, whatever the digits. -/
def code (d : Decimal) : Nat :=
  if d.digits = 0 then 0
  else if 310 < d.exponent then Double.infinityCode
  else if d.exponent < -(400 + d.digits.log2 : Int) then 0
  else if 0 ≤ d.exponent then
    Double.nearestCode (d.digits * Nat.pow 10 d.exponent.toNat * Double.unitsPerOne) 1
  else Double.nearestCode (d.digits * Double.unitsPerOne) (Nat.pow 10 (-d.exponent).toNat)

theorem code_lt (d : Decimal) : d.code < Double.signBit := by
  unfold code
  split
  · decide
  · split
    · decide
    · split
      · decide
      · split <;> exact Double.nearestCode_lt _ _

/-- The binary64 number nearest to a decimal, with the given sign. -/
def toDouble (negative : Bool) (d : Decimal) : Double := ⟨negative, d.code, d.code_lt⟩

/-- The same number without zeros at the end of its digits. -/
def normal (d : Decimal) : Decimal :=
  if d.digits ≠ 0 ∧ d.digits % 10 = 0 then normal ⟨d.digits / 10, d.exponent + 1⟩ else d
termination_by d.digits
decreasing_by exact Nat.div_lt_self (by omega) (by decide)

end Decimal

end Formula
