/-! Numbers of the binary64 format, as a sign and a code. Codes grow with the magnitude: the first
ones are the multiples of `2^-1074`, the last of them is infinity, and those past infinity are no
numbers. Every finite magnitude is a whole number of units of `2^-1074`, so numbers are ordered by
whole numbers, and infinity takes the place that follows the largest finite magnitude. -/

namespace Formula

/-- A binary64 number: its sign bit, and the 63 bits below it as a natural number. -/
structure Double where
  negative : Bool
  code : Nat
  code_lt : code < 0x8000000000000000 := by decide
deriving DecidableEq

namespace Double

/-- The number of codes with the same exponent, which is the leading bit of a significand. -/
def leadingBit : Nat := 0x10000000000000

def infinityCode : Nat := 2047 * leadingBit

def signBit : Nat := 0x8000000000000000

/-- The number of units of `2^-1074` in one. -/
def unitsPerOne : Nat := 1 <<< 1074

def zero : Double := ⟨false, 0, by decide⟩

def infinity : Double := ⟨false, infinityCode, by decide⟩

def nan : Double := ⟨false, infinityCode + leadingBit / 2, by decide⟩

def neg (x : Double) : Double := { x with negative := !x.negative }

def withSign (negative : Bool) (x : Double) : Double := { x with negative }

def isNaN (x : Double) : Bool := infinityCode < x.code

def isInfinite (x : Double) : Bool := x.code == infinityCode

def isFinite (x : Double) : Bool := x.code < infinityCode

/-- Whether `x` is zero of either sign. -/
def isZero (x : Double) : Bool := x.code == 0

/-- The magnitude that `code` stands for, in units of `2^-1074`: the low 52 bits are the
significand, and the bits above them the exponent, with a leading bit unless the exponent is
zero. -/
def unitsOf (code : Nat) : Nat :=
  if code < leadingBit then code
  else (leadingBit + code % leadingBit) <<< (code / leadingBit - 1)

/-- The magnitude of `x` in units of `2^-1074`. -/
def units (x : Double) : Nat := unitsOf x.code

/-- The place of `x` on the line, in units of `2^-1074`. -/
def place? (x : Double) : Option Int :=
  if x.isNaN then none
  else some (if x.negative then -(x.units : Int) else x.units)

/-- Equality of numbers: both zeros are equal, and what is no number equals nothing. -/
def equals (x y : Double) : Bool :=
  match x.place?, y.place? with
  | some p, some q => p == q
  | _, _ => false

/-- How `x` compares to `y`, if both are numbers. -/
def order? (x y : Double) : Option Ordering :=
  match x.place?, y.place? with
  | some p, some q => some (compare p q)
  | _, _ => none

def isBelowZero (x : Double) : Bool := !x.isNaN && x.negative && x.code != 0

/-- Whether `x` is a finite whole number. -/
def isWhole (x : Double) : Bool := x.isFinite && x.units % unitsPerOne == 0

def bits (x : Double) : UInt64 := UInt64.ofNat ((if x.negative then signBit else 0) + x.code)

def ofBits (bits : UInt64) : Double :=
  ⟨signBit ≤ bits.toNat, bits.toNat % signBit, Nat.mod_lt _ (by decide)⟩

end Double

end Formula
