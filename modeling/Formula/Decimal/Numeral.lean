import Formula.Decimal

/-! Numbers read from text: whole numbers with an optional sign, and binary64 numbers in decimal
notation or by name. -/

namespace Formula.Numeral

def minInt : Int := -9223372036854775808

def maxInt : Int := 9223372036854775807

/-- Whether `n` is a whole number of 64 bits. -/
def fits (n : Int) : Bool := minInt ≤ n && n ≤ maxInt

/-- The number that `digits` denote, read up to the digit that takes it to `limit` or beyond. -/
def readUpTo (limit : Nat) (digits : List Char) : Nat :=
  digits.foldl (fun n c => if n < limit then 10 * n + (c.toNat - '0'.toNat) else n) 0

/-- The number that the digits `cs` denote, if there are any and nothing else. It is not read beyond
`limit`. -/
def digits? (limit : Nat) (cs : List Char) : Option Nat :=
  if cs.isEmpty || !cs.all Char.isDigit then none else some (readUpTo limit cs)

/-- A leading sign, as whether it is a minus, and what follows it. -/
def takeSign : List Char → Bool × List Char
  | '-' :: rest => (true, rest)
  | '+' :: rest => (false, rest)
  | cs => (false, cs)

/-- The whole number that an optional sign and digits denote. Its magnitude is not read beyond
`limit`. -/
def signedDigits? (limit : Nat) (cs : List Char) : Option Int :=
  let (negative, rest) := takeSign cs
  (digits? limit rest).map fun n => if negative then -(n : Int) else n

/-- The least magnitude that no whole number of 64 bits has. -/
def tooLarge : Nat := 9223372036854775809

/-- The whole number of 64 bits that `cs` denotes. -/
def int? (cs : List Char) : Option Int := (signedDigits? tooLarge cs).filter fits

/-- Powers of ten are not read beyond this one. -/
def maxPower : Nat := 65536

/-- The power of ten after the digits of a number: nothing, or an `e`, an optional sign and
digits. -/
def power? : List Char → Option Int
  | [] => some 0
  | c :: rest => if c = 'e' || c = 'E' then signedDigits? maxPower rest else none

/-- The decimal that digits denote: some before or after an optional point, and an optional power
of ten. -/
def decimal? (cs : List Char) : Option Decimal :=
  let whole := cs.takeWhile Char.isDigit
  let (fraction, rest) :=
    match cs.dropWhile Char.isDigit with
    | '.' :: rest => (rest.takeWhile Char.isDigit, rest.dropWhile Char.isDigit)
    | rest => ([], rest)
  if whole.isEmpty && fraction.isEmpty then none
  else (power? rest).map (Decimal.ofDigits whole fraction)

/-- What a number may be called instead of being written in digits, in any case. -/
def named? (cs : List Char) : Option Double :=
  match String.ofList (cs.map Char.toLower) with
  | "inf" => some .infinity
  | "infinity" => some .infinity
  | "nan" => some .nan
  | _ => none

/-- The binary64 number that `cs` denotes: an optional sign, and digits or a name. -/
def double? (cs : List Char) : Option Double :=
  let (negative, rest) := takeSign cs
  ((named? rest).or ((decimal? rest).map (Decimal.toDouble false))).map (Double.withSign negative)

end Formula.Numeral
