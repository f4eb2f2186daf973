import Formula.Complaint.Told
import Formula.Value.Arithmetic
import Formula.Value.Conversion
import Formula.Value.Method
import Formula.Value.Order
import Formula.Value.Sequence

/-! Operations on values that may concern the host: whether a value is true, its attributes, items
and slices, and calls. -/

namespace Formula

variable {σ : Type}

namespace Value

/-- Whether a value is true. `None`, zero, and empty text and containers are not. -/
def truth (host : Host σ) : Value → StateM σ Bool
  | none => pure false
  | bool b => pure b
  | int n => pure (n != 0)
  | float x => pure (!x.isZero)
  | str s => pure (!s.isEmpty)
  | list items => pure (!items.isEmpty)
  | dict entries => pure (!entries.isEmpty)
  | function _ => pure true
  | method _ _ => pure true
  | object o => host.truth o

def applyUnary (host : Host σ) (op : UnaryOp) (v : Value) : Run σ Value :=
  match op with
  | .not => do return .bool !(← v.truth host)
  | .neg => Run.ofExcept host v.negative
  | .pos => Run.ofExcept host v.positive

/-- The attribute `name` of a value, which is one of its methods unless it is an object of the
host. -/
def getAttr (host : Host σ) (v : Value) (name : String) : Run σ Value := do
  let found ← match v with
    | object o => host.attr? o name
    | v => pure ((Method.resolve? v name).map (method v))
  match found with
  | some value => return value
  | Option.none => Run.complain host (.attributeNotFound v name)

def getItem (host : Host σ) (v key : Value) : Run σ Value :=
  match v with
  | object o => host.item o key
  | v => Run.ofExcept host (v.item key)

/-- The slice of a value, where `None` stands for a bound that is left out. -/
def getSlice (host : Host σ) (v start stop step : Value) : Run σ Value :=
  match v with
  | object o => host.slice o start stop step
  | v => Run.ofExcept host (v.slice start stop step)

def convert (host : Host σ) (c : Conversion) (args : List Value) : Run σ Value := do
  let arg? ← Run.ofExcept host (c.argument? args)
  match c, arg? with
  | .bool, Option.none => return .bool false
  | .bool, some v => return .bool (← v.truth host)
  | .int, Option.none => return .int 0
  | .int, some v => Run.ofExcept host ((Conversion.toInt v).map .int)
  | .float, Option.none => return .float .zero
  | .float, some v => Run.ofExcept host ((Conversion.toFloat v).map .float)
  | .str, Option.none => return .str ""
  | .str, some v => return .str (← v.display host)

/-- A function of the host called with arguments, whose number is checked before the host is
asked. -/
def callHost (host : Host σ) (f : HostFunction) (args : List Value) : Run σ Value :=
  match f.arity with
  | some n =>
    if args.length = n then host.call f args
    else throw (.argumentCount f.name (.exactly n) args.length)
  | Option.none => host.call f args

def call (host : Host σ) (v : Value) (args : List Value) : Run σ Value :=
  match v with
  | function (.conversion c) => convert host c args
  | function (.host f) => callHost host f args
  | method receiver m => Run.ofExcept host (m.call receiver args)
  | object o => host.invoke o args
  | v => Run.complain host (.notCallable v)

end Value

end Formula
