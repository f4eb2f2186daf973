import Formula.Complaint
import Formula.Value.Equality
import Formula.Text.Order

/-! The order of values. Text, numbers and lists are ordered among themselves; lists by their first
items that differ, or else by length. What is no number is neither before nor after anything. -/

namespace Formula.Value

mutual

/-- How `a` compares to `b`, where `op` asks. -/
def order (op : Comparison) : Value → Value → Except Complaint (Option Ordering)
  | str s, str t => .ok (some (Text.order s.toList t.toList))
  | list xs, list ys => orderItems op xs ys
  | a, b =>
    match number? a, number? b with
    | some x, some y => .ok (x.order? y)
    | _, _ => .error (.notComparable op a b)

def orderItems (op : Comparison) : List Value → List Value → Except Complaint (Option Ordering)
  | x :: xs, y :: ys => if equals x y then orderItems op xs ys else order op x y
  | xs, ys => .ok (some (compare xs.length ys.length))

end

def holds : Comparison → Ordering → Bool
  | .eq, o => o = .eq
  | .ne, o => o ≠ .eq
  | .gt, o => o = .gt
  | .lt, o => o = .lt
  | .ge, o => o ≠ .lt
  | .le, o => o ≠ .gt

/-- Whether a comparison of two values holds. Equality asks for no order. -/
def holdsBetween (op : Comparison) (a b : Value) : Except Complaint Bool :=
  match op with
  | .eq => .ok (equals a b)
  | .ne => .ok !(equals a b)
  | op => (order op a b).map fun
    | some o => holds op o
    | Option.none => false

def compare (op : Comparison) (a b : Value) : Except Complaint Value :=
  (holdsBetween op a b).map .bool

end Formula.Value
