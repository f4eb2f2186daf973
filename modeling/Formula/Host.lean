import Formula.Value
import Formula.RuntimeError

/-! The host of an evaluation. It looks up names, and answers for its functions and objects. What
it does may depend on a state and change it, so that a host can keep a log of what it is asked. -/

namespace Formula

/-- A computation that may fail, over the state of a host. -/
abbrev Run (σ : Type) := ExceptT RuntimeError (StateM σ)

/-- What a host does with its functions and objects. An object says at least what its type is
called. One that says nothing more is written by its type, is true, has no attributes, and can be
neither called nor subscripted. -/
structure Host (σ : Type) where
  call : HostFunction → List Value → Run σ Value
  typeName : HostObject → StateM σ String
  repr : HostObject → StateM σ String := fun o => return s!"<{← typeName o} object>"
  truth : HostObject → StateM σ Bool := fun _ => pure true
  attr? : HostObject → String → StateM σ (Option Value) := fun _ _ => pure none
  invoke : HostObject → List Value → Run σ Value := fun o _ => do
    throw (.notCallable (← typeName o))
  item : HostObject → Value → Run σ Value := fun o _ => do
    throw (.notSubscriptable (← typeName o))
  slice : HostObject → Value → Value → Value → Run σ Value := fun o _ _ _ => do
    throw (.notSubscriptable (← typeName o))

/-- The host without functions and objects. -/
def Host.none : Host Unit where
  call f _ := throw (.host s!"no function {f.name}")
  typeName _ := pure "object"

/-- Where names are looked up. -/
def Environment (σ : Type) := String → StateM σ (Option Value)

namespace Environment

variable {σ : Type}

/-- What `name` is known as. -/
def lookup (env : Environment σ) (name : String) : Run σ Value := do
  match ← env name with
  | some v => return v
  | Option.none => throw (.nameNotFound name)

/-- `env`, and `fallback` for the names that it does not know. -/
def orElse (env fallback : Environment σ) : Environment σ := fun name => do
  match ← env name with
  | some v => return some v
  | Option.none => fallback name

end Environment

end Formula
