import Formula.Double.Rounding

/-! Arithmetic on binary64 numbers: the exact result on whole numbers of units, rounded once. The
power alone is the platform's. -/

namespace Formula.Double

/-- The number nearest to `p` units, where a zero gets the sign `zeroSign`. -/
def ofPlace (zeroSign : Bool) (p : Int) : Double :=
  if p = 0 then zero.withSign zeroSign else ofUnits (p < 0) p.natAbs 1

/-- The units of `x` with its sign. -/
def signedUnits (x : Double) : Int := if x.negative then -(x.units : Int) else x.units

/-- The sum. Opposite numbers add up to positive zero, two negative zeros to a negative one. -/
def add (x y : Double) : Double :=
  if x.isNaN || y.isNaN then nan
  else if x.isInfinite then
    if y.isInfinite && x.negative != y.negative then nan else x
  else if y.isInfinite then y
  else ofPlace (x.negative && y.negative) (x.signedUnits + y.signedUnits)

def sub (x y : Double) : Double := add x y.neg

/-- The product, negative if the signs differ. -/
def mul (x y : Double) : Double :=
  let negative := x.negative != y.negative
  if x.isNaN || y.isNaN then nan
  else if x.isInfinite || y.isInfinite then
    if x.isZero || y.isZero then nan else infinity.withSign negative
  else ofUnits negative (x.units * y.units) unitsPerOne

/-- The quotient, negative if the signs differ. -/
def div (x y : Double) : Double :=
  let negative := x.negative != y.negative
  if x.isNaN || y.isNaN then nan
  else if x.isInfinite then
    if y.isInfinite then nan else infinity.withSign negative
  else if y.isInfinite then zero.withSign negative
  else if y.isZero then
    if x.isZero then nan else infinity.withSign negative
  else ofUnits negative (x.units * unitsPerOne) y.units

/-- The largest whole number that is at most `x`. -/
def floor (x : Double) : Double :=
  if x.isFinite then ofPlace x.negative (x.signedUnits.fdiv unitsPerOne * unitsPerOne) else x

/-- What remains of `x` after the multiple of `y` next to it towards zero is taken away; it has
the sign of `x`. -/
def rem (x y : Double) : Double :=
  if x.isNaN || y.isNaN || x.isInfinite || y.isZero then nan
  else if y.isInfinite then x
  else ofUnits x.negative (x.units % y.units) 1

/-- The whole number that a finite `x` becomes when its fraction is dropped. -/
def truncate (x : Double) : Int := x.signedUnits.tdiv unitsPerOne

def pow (x y : Double) : Double :=
  ofBits (Float.pow (Float.ofBits x.bits) (Float.ofBits y.bits)).toBits

end Formula.Double
