import Formula.Complaint
import Formula.Value.Written

/-! Complaints as failures of an evaluation. The host is asked for the names of types, and for how
values are written, in the order in which the message gives them. -/

namespace Formula

variable {σ α : Type}

/-- The failure that a complaint is, once the host has said what its message needs. -/
def Complaint.told (host : Host σ) : Complaint → StateM σ RuntimeError
  | unsupportedOperands op left right =>
    return .unsupportedOperands op (← left.typeName host) (← right.typeName host)
  | badOperand op operand => return .badOperand op (← operand.typeName host)
  | notComparable op left right =>
    return .notComparable op (← left.typeName host) (← right.typeName host)
  | attributeNotFound v attr => return .attributeNotFound (← v.typeName host) attr
  | notCallable v => return .notCallable (← v.typeName host)
  | notSubscriptable v => return .notSubscriptable (← v.typeName host)
  | invalidIndex target index =>
    return .invalidIndex (← target.typeName host) (← index.typeName host)
  | invalidSliceIndex bound => return .invalidSliceIndex (← bound.typeName host)
  | zeroSliceStep => return .zeroSliceStep
  | indexOutOfBounds target index length =>
    return .indexOutOfBounds (← target.typeName host) index length
  | keyNotFound key => return .keyNotFound (← key.repr host)
  | divisionByZero => return .divisionByZero
  | integerOverflow op => return .integerOverflow op
  | repeatTooLarge type => return .repeatTooLarge type
  | argumentCount function takes given => return .argumentCount function takes given
  | argumentType function expected found =>
    return .argumentType function expected (← found.typeName host)
  | invalidLiteral function literal => return .invalidLiteral function (← literal.repr host)
  | invalidValue message => return .invalidValue message
  | notInList item => return .invalidValue ((← item.repr host) ++ " is not in list")

namespace Run

/-- Fails for the reason that is complained of. -/
def complain (host : Host σ) (c : Complaint) : Run σ α := do throw (← c.told host)

/-- The result of an operation on values, or the failure that its complaint is. -/
def ofExcept (host : Host σ) : Except Complaint α → Run σ α
  | .ok a => pure a
  | .error c => complain host c

end Run

end Formula
