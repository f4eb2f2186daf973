import Formula.RuntimeError
import Formula.Value

/-! What operations on values complain of. A complaint holds the values that its message is about.
How the host's objects among them are called is up to the host, so a complaint becomes a failure of
an evaluation only when it is told. -/

namespace Formula

/-- Why an operation on values has no result. -/
inductive Complaint where
  | unsupportedOperands (op : BinaryOp) (left right : Value)
  | badOperand (op : UnaryOp) (operand : Value)
  | notComparable (op : Comparison) (left right : Value)
  | attributeNotFound (v : Value) (attr : String)
  | notCallable (v : Value)
  | notSubscriptable (v : Value)
  | invalidIndex (target index : Value)
  | invalidSliceIndex (bound : Value)
  | zeroSliceStep
  | indexOutOfBounds (target : Value) (index : Int) (length : Nat)
  | keyNotFound (key : Value)
  | divisionByZero
  | integerOverflow (op : String)
  | repeatTooLarge (type : String)
  | argumentCount (function : String) (takes : Arity) (given : Nat)
  | argumentType (function expected : String) (found : Value)
  | invalidLiteral (function : String) (literal : Value)
  | invalidValue (message : String)
  | notInList (item : Value)

end Formula
