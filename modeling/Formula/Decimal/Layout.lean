import Formula.Decimal.Shortest
import Formula.Double.Arithmetic

/-! The text of decimals and of binary64 numbers. -/

namespace Formula

namespace Decimal

/-- The digits with a point among them, and at least one digit on either side of it. -/
def positional (d : Decimal) : List Char :=
  let ds := Nat.toDigits 10 d.digits
  let point := ds.length + d.exponent
  if point ≤ 0 then ['0', '.'] ++ List.replicate (-point).toNat '0' ++ ds
  else if ds.length ≤ point then ds ++ List.replicate (point - ds.length).toNat '0' ++ ['.', '0']
  else ds.take point.toNat ++ '.' :: ds.drop point.toNat

/-- One digit, the other digits after a point if there are any, and the power of ten. -/
def scientific (d : Decimal) : List Char :=
  let ds := Nat.toDigits 10 d.digits
  let power : Int := ds.length + d.exponent - 1
  (match ds with
    | first :: second :: rest => first :: '.' :: second :: rest
    | ds => ds) ++ 'e' :: (toString power).toList

end Decimal

/-- Where the text of numbers changes from positional to a power of ten. -/
structure NumberFormat where
  /-- The least positive magnitude that is written positionally, as a power of ten. -/
  smallest : Int
  /-- The least magnitude that is not written positionally, as a power of ten. -/
  large : Nat

namespace Double

/-- Numbers are written positionally from `10^-4` to below `10^16`. -/
def format : NumberFormat := ⟨-4, 16⟩

/-- `x` with a sign in front of the text of its magnitude. -/
def signed (x : Double) (text : List Char) : List Char := if x.negative then '-' :: text else text

/-- The text of a whole number: all its digits and a zero after the point. -/
def wholeText (x : Double) : List Char := Nat.toDigits 10 (x.units / unitsPerOne) ++ ['.', '0']

/-- The text of `x` as a value: the shortest digits that read back, positional or with a power of
ten according to `format`. -/
def text (x : Double) : List Char :=
  if x.isNaN then ['n', 'a', 'n']
  else if x.isInfinite then x.signed ['i', 'n', 'f']
  else
    let d := Decimal.shortest x.code
    let small := x.units * Nat.pow 10 (-format.smallest).toNat < unitsPerOne
    let large := Nat.pow 10 format.large * unitsPerOne ≤ x.units
    x.signed <|
      if x.isWhole && !large then x.wholeText
      else if small || large then d.scientific
      else d.positional

/-- The text of `x` as a literal, which never has a power of ten. -/
def literalText (x : Double) : List Char :=
  if x.isNaN then ['N', 'a', 'N']
  else if x.isInfinite then x.signed ['i', 'n', 'f']
  else x.signed (if x.isWhole then x.wholeText else (Decimal.shortest x.code).positional)

end Double

end Formula
