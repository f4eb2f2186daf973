import Formula.Complaint
import Formula.Decimal.Numeral
import Formula.Double.Arithmetic
import Formula.Text.Blank
import Formula.Value.Equality

/-! The conversions between types. Each takes one value, or none and gives the empty value of its
type. -/

namespace Formula.Conversion

/-- The only argument of a conversion, if there is one. -/
def argument? (c : Conversion) : List Value → Except Complaint (Option Value)
  | [] => .ok none
  | [v] => .ok (some v)
  | args => .error (.argumentCount c.name .optional args.length)

/-- The failure of a conversion to a number, of what is no number and no text. -/
def wrongType (c : Conversion) (v : Value) : Complaint :=
  .argumentType c.name "a string or a number" v

/-- The number that `v` denotes by `read`, apart from white space around it. -/
def readNumber {α : Type} (c : Conversion) (read : List Char → Option α) (s : String) :
    Except Complaint α :=
  match read (Text.trim Text.isBlank s.toList) with
  | some x => .ok x
  | none => .error (.invalidLiteral c.name (.str s))

/-- The whole number that is left of `x` without its fraction. -/
def truncate (x : Double) : Except Complaint Int :=
  if x.isNaN then .error (.invalidValue "cannot convert float NaN to integer")
  else if x.isInfinite then .error (.invalidValue "cannot convert float infinity to integer")
  else if Numeral.fits x.truncate then .ok x.truncate
  else .error (.integerOverflow "int()")

def toInt (v : Value) : Except Complaint Int :=
  match v with
  | .int n => .ok n
  | .bool b => .ok (if b then 1 else 0)
  | .float x => truncate x
  | .str s => readNumber int Numeral.int? s
  | v => .error (wrongType int v)

def toFloat (v : Value) : Except Complaint Double :=
  match v with
  | .float x => .ok x
  | .int n => .ok (.ofInt n)
  | .bool b => .ok (.ofInt (if b then 1 else 0))
  | .str s => readNumber float Numeral.double? s
  | v => .error (wrongType float v)

end Formula.Conversion
