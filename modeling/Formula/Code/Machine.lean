import Formula.Code
import Formula.Evaluation

/-! The stack machine. Since jumps go forward only, what is left of a run is a tail of the
instructions and a stack, whose first value is the top. -/

namespace Formula.Machine

/-- What is wrong with code that no expression compiles to. -/
inductive Defect where
  | noLiteral (id : Nat)
  | noReference (id : Nat)
  | badItem (count : Nat)
  /-- The name of an attribute is not text but what is written here. -/
  | badAttribute (written : String)
  | underflow
  | underflowBy (count height : Nat)
  /-- More than one value is left at the end. -/
  | leftover
deriving DecidableEq

def Defect.message : Defect → String
  | noLiteral id => s!"LOAD_CONST {id} out of range (compiler bug)"
  | noReference id => s!"LOAD_REF {id} out of range (compiler bug)"
  | badItem count => s!"GET_ITEM expects 1 or 3 operands, got {count} (compiler bug)"
  | badAttribute written => s!"GET_ATTR name must be a string, got {written} (compiler bug)"
  | underflow => "VM stack underflow (compiler bug)"
  | underflowBy count height => s!"VM stack underflow: popping {count} of {height} (compiler bug)"
  | leftover => "Stack should be empty."

/-- Why a run ends without a value: the expression fails, or the code is defective. -/
inductive Fault where
  | runtime (e : RuntimeError)
  | defect (d : Defect)

/-- A run of the machine over the state of a host. -/
abbrev Exec (σ : Type) := ExceptT Fault (StateM σ)

/-- What an evaluation does, as part of a run. -/
def ofRun {σ α : Type} (r : Run σ α) : Exec σ α := r.adapt Fault.runtime

/-- Stops at a defect. -/
def broken {σ α : Type} (d : Defect) : Exec σ α := throw (.defect d)

variable {σ : Type}

/-- The value on top of a stack, and the stack below it. -/
def pop : List Value → Exec σ (Value × List Value)
  | [] => broken .underflow
  | v :: stack => pure (v, stack)

/-- The stack with the result of an operation on top. -/
def pushing (stack : List Value) (r : Run σ Value) : Exec σ (List Value × Nat) := do
  return ((← ofRun r) :: stack, 0)

/-- The number of instructions to skip, if a value is as true as `on`. -/
def skipIf (host : Host σ) (on : Bool) (offset : Nat) (v : Value) : Exec σ Nat := do
  return if (← v.truth host) == on then offset else 0

/-- One instruction: the stack after it, and the number of instructions to skip. -/
def step (host : Host σ) (env : Environment σ) (t : SymbolTable) (i : Instruction)
    (stack : List Value) : Exec σ (List Value × Nat) :=
  match i with
  | .loadConst id =>
    match t.literal? id with
    | some v => return (v :: stack, 0)
    | none => broken (.noLiteral id)
  | .loadRef id =>
    match t.reference? id with
    | some name => pushing stack (env.lookup name)
    | none => broken (.noReference id)
  | .unary op => do
    let (v, stack) ← pop stack
    pushing stack (v.applyUnary host op)
  | .binary op => do
    let (right, stack) ← pop stack
    let (left, stack) ← pop stack
    pushing stack (Run.ofExcept host (Value.binary op left right))
  | .compare op => do
    let (right, stack) ← pop stack
    let (left, stack) ← pop stack
    pushing stack (Run.ofExcept host (Value.compare op left right))
  | .call count => do
    if stack.length < count then broken (.underflowBy count stack.length)
    else
      let args := (stack.take count).reverse
      let (callee, stack) ← pop (stack.drop count)
      pushing stack (callee.call host args)
  | .getItem 1 => do
    let (key, stack) ← pop stack
    let (v, stack) ← pop stack
    pushing stack (v.getItem host key)
  | .getItem 3 => do
    let (c, stack) ← pop stack
    let (b, stack) ← pop stack
    let (a, stack) ← pop stack
    let (v, stack) ← pop stack
    pushing stack (v.getSlice host a b c)
  | .getItem count => broken (.badItem count)
  | .getAttr => do
    let (name, stack) ← pop stack
    let (v, stack) ← pop stack
    match name with
    | .str name => pushing stack (v.getAttr host name)
    | name => do broken (.badAttribute (← name.repr host))
  | .jump offset => return (stack, offset)
  | .popJumpIf on offset => do
    let (v, stack) ← pop stack
    return (stack, ← skipIf host on offset v)
  | .jumpIf on offset => do
    let (v, _) ← pop stack
    return (stack, ← skipIf host on offset v)
  | .pop => do
    let (_, stack) ← pop stack
    return (stack, 0)

/-- The stack after instructions. A jump past the end ends the run. -/
def run (host : Host σ) (env : Environment σ) (t : SymbolTable) :
    List Instruction → List Value → Exec σ (List Value)
  | [], stack => return stack
  | i :: rest, stack => do
    let (stack, skip) ← step host env t i stack
    run host env t (rest.drop skip) stack
termination_by code => code.length
decreasing_by simp only [List.length_cons, List.length_drop]; omega

/-- The one value of a stack at the end of a run. -/
def result : List Value → Exec σ Value
  | [] => broken .underflow
  | [v] => pure v
  | _ => broken .leftover

/-- The value that code leaves on the stack. -/
def exec (host : Host σ) (env : Environment σ) (c : Code) : Exec σ Value := do
  result (← run host env c.symbols c.instructions [])

end Formula.Machine
