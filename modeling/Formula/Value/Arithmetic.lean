import Formula.Complaint
import Formula.Decimal.Numeral
import Formula.Double.Arithmetic
import Formula.Value.Equality

/-! Arithmetic on values. Whole numbers stay within 64 bits or overflow; where one operand is a
binary64 number, or the operator is `/`, the result is one too. Text and lists are joined by `+` and
repeated by `*`. -/

namespace Formula.Value

/-- The whole number `n` as the result of `op`, if it has 64 bits. -/
def checked (op : String) (n : Int) : Except Complaint Value :=
  if Numeral.fits n then .ok (.int n) else .error (.integerOverflow op)

/-- The greatest exponent of a power of whole numbers. -/
def maxExponent : Nat := 4294967295

/-- `x` to the power `y`, if it has 64 bits. The powers of zero and of one up to its sign depend
only on whether `y` is even, and every other number is too large from its 64th power on. -/
def intPower (x : Int) (y : Nat) : Except Complaint Value :=
  let op := BinaryOp.pow.text
  if maxExponent < y then .error (.integerOverflow op)
  else if x.natAbs ≤ 1 then checked op (x.pow (if y = 0 then 0 else 2 - y % 2))
  else if 64 ≤ y then .error (.integerOverflow op)
  else checked op (x.pow y)

/-- Arithmetic on whole numbers. `//` rounds down, and `%` has the sign of its right operand. -/
def intArithmetic (op : BinaryOp) (x y : Int) : Except Complaint Value :=
  match op with
  | .add => checked op.text (x + y)
  | .sub => checked op.text (x - y)
  | .mul => checked op.text (x * y)
  | .div =>
    if y = 0 then .error .divisionByZero else .ok (.float ((Double.ofInt x).div (.ofInt y)))
  | .floorDiv => if y = 0 then .error .divisionByZero else checked op.text (x.fdiv y)
  | .mod => if y = 0 then .error .divisionByZero else .ok (.int (x.fmod y))
  | .pow =>
    if 0 ≤ y then intPower x y.toNat
    else if x = 0 then .error .divisionByZero
    else .ok (.float ((Double.ofInt x).pow (.ofInt y)))

/-- The remainder of a division that rounds down: it has the sign of `y`. -/
def floorRem (x y : Double) : Double :=
  let r := x.rem y
  if !r.isZero && r.isBelowZero != y.isBelowZero then r.add y else r

def floatArithmetic (op : BinaryOp) (x y : Double) : Except Complaint Value :=
  match op with
  | .add => .ok (.float (x.add y))
  | .sub => .ok (.float (x.sub y))
  | .mul => .ok (.float (x.mul y))
  | .div => if y.isZero then .error .divisionByZero else .ok (.float (x.div y))
  | .floorDiv => if y.isZero then .error .divisionByZero else .ok (.float (x.div y).floor)
  | .mod => if y.isZero then .error .divisionByZero else .ok (.float (floorRem x y))
  | .pow =>
    if x.isZero && y.isBelowZero then .error .divisionByZero else .ok (.float (x.pow y))

/-- How often a value repeats what it is multiplied with. -/
def repeatCount? : Value → Option Nat
  | bool b => some (if b then 1 else 0)
  | int n => some n.toNat
  | _ => Option.none

/-- `s` joined to itself until there are `count` of it, if the text is not too long in bytes. -/
def repeatText (s : String) (count : Nat) : Except Complaint Value :=
  if maxRepeatLength < s.utf8ByteSize * count then .error (.repeatTooLarge "str")
  else .ok (.str (if s.isEmpty then s else String.join (List.replicate count s)))

/-- `items` joined to themselves until there are `count` of them, if the list is not too long. -/
def repeatItems (items : List Value) (count : Nat) : Except Complaint Value :=
  if maxRepeatLength < items.length * count then .error (.repeatTooLarge "list")
  else .ok (.list (if items.isEmpty then items else (List.replicate count items).flatten))

def arithmetic (op : BinaryOp) (a b : Value) : Except Complaint Value :=
  match number? a, number? b with
  | some (.int x), some (.int y) => intArithmetic op x y
  | some x, some y => floatArithmetic op x.toDouble y.toDouble
  | _, _ => .error (.unsupportedOperands op a b)

/-- A product. Text or a list on either side is repeated, if there is a count on the other. -/
def multiply (a b : Value) : Except Complaint Value :=
  match a, repeatCount? b, repeatCount? a, b with
  | str s, some count, _, _ => repeatText s count
  | _, _, some count, str s => repeatText s count
  | list items, some count, _, _ => repeatItems items count
  | _, _, some count, list items => repeatItems items count
  | a, _, _, b => arithmetic .mul a b

def binary (op : BinaryOp) (a b : Value) : Except Complaint Value :=
  match op, a, b with
  | .add, str s, str t => .ok (.str (s ++ t))
  | .add, list xs, list ys => .ok (.list (xs ++ ys))
  | .mul, a, b => multiply a b
  | op, a, b => arithmetic op a b

def signed (op : UnaryOp) (negateInt : Int → Except Complaint Value)
    (negateFloat : Double → Double) (v : Value) : Except Complaint Value :=
  match number? v with
  | some (.int n) => negateInt n
  | some (.float x) => .ok (.float (negateFloat x))
  | Option.none => .error (.badOperand op v)

def negative (v : Value) : Except Complaint Value :=
  signed .neg (fun n => checked UnaryOp.neg.text (-n)) Double.neg v

/-- A number as it is; a truth value becomes one. -/
def positive (v : Value) : Except Complaint Value :=
  signed .pos (fun n => .ok (.int n)) id v

end Formula.Value
