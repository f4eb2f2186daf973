import Formula.Expr

/-! What can go wrong while an expression is evaluated. -/

namespace Formula

/-- How many arguments something takes. -/
inductive Arity where
  | exactly (count : Nat)
  | optional
  | between (least most : Nat)
deriving DecidableEq

namespace Arity

def accepts (count : Nat) : Arity → Bool
  | exactly n => count == n
  | optional => count ≤ 1
  | between least most => least ≤ count && count ≤ most

def text : Arity → String
  | exactly n => toString n
  | optional => "0 or 1"
  | between least most => toString least ++ " to " ++ toString most

end Arity

/-- A failure of an evaluation. Types are given by their names, and values as they are written. -/
inductive RuntimeError where
  | nameNotFound (name : String)
  | unsupportedOperands (op : BinaryOp) (left right : String)
  | badOperand (op : UnaryOp) (operand : String)
  | notComparable (op : Comparison) (left right : String)
  | attributeNotFound (type attr : String)
  | notCallable (type : String)
  | notSubscriptable (type : String)
  | invalidIndex (type index : String)
  | invalidSliceIndex (index : String)
  | zeroSliceStep
  | indexOutOfBounds (type : String) (index : Int) (length : Nat)
  | keyNotFound (key : String)
  | divisionByZero
  | integerOverflow (op : String)
  | repeatTooLarge (type : String)
  | argumentCount (function : String) (takes : Arity) (given : Nat)
  | argumentType (function expected found : String)
  | invalidLiteral (function literal : String)
  | invalidValue (message : String)
  /-- Raised by the host. -/
  | host (message : String)
deriving DecidableEq

inductive RuntimeError.Kind where
  | lookup | type | attr | index | key | arithmetic | value | host
deriving DecidableEq

/-- The greatest length of a text, in bytes, or a list, in items, that repetition builds. -/
def maxRepeatLength : Nat := 16777216

namespace RuntimeError

def kind : RuntimeError → Kind
  | nameNotFound _ => .lookup
  | unsupportedOperands .. | badOperand .. | notComparable .. | notCallable _
  | notSubscriptable _ | invalidIndex .. | invalidSliceIndex _ | argumentCount ..
  | argumentType .. => .type
  | attributeNotFound .. => .attr
  | indexOutOfBounds .. => .index
  | keyNotFound _ => .key
  | divisionByZero | integerOverflow _ | repeatTooLarge _ => .arithmetic
  | zeroSliceStep | invalidLiteral .. | invalidValue _ => .value
  | host _ => .host

def message : RuntimeError → String
  | nameNotFound name => s!"name '{name}' is not defined"
  | unsupportedOperands op left right =>
    "unsupported operand type(s) for " ++ op.text ++ ": '" ++ left ++ "' and '" ++ right ++ "'"
  | badOperand op operand => "bad operand type for unary " ++ op.text ++ ": '" ++ operand ++ "'"
  | notComparable op left right =>
    "'" ++ op.text ++ "' not supported between instances of '" ++ left ++ "' and '" ++ right ++ "'"
  | attributeNotFound type attr => s!"'{type}' object has no attribute '{attr}'"
  | notCallable type => s!"'{type}' object is not callable"
  | notSubscriptable type => s!"'{type}' object is not subscriptable"
  | invalidIndex type index => s!"{type} indices must be integers, not '{index}'"
  | invalidSliceIndex index => s!"slice indices must be integers or None, not '{index}'"
  | zeroSliceStep => "slice step cannot be zero"
  | indexOutOfBounds type index length => s!"{type} index {index} out of range for length {length}"
  | keyNotFound key => s!"key not found: {key}"
  | divisionByZero => "division by zero"
  | integerOverflow op => s!"integer overflow in {op}"
  | repeatTooLarge type =>
    s!"repeated {type} would exceed the maximum length of {maxRepeatLength}"
  | argumentCount function takes given =>
    function ++ "() takes " ++ takes.text ++ s!" argument(s) ({given} given)"
  | argumentType function expected found =>
    s!"{function}() argument must be {expected}, not '{found}'"
  | invalidLiteral function literal => s!"invalid literal for {function}(): {literal}"
  | invalidValue message => message
  | host message => message

end RuntimeError

end Formula
