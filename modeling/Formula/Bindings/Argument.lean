import Formula.Bindings
import Formula.Expression

/-! Bindings given as text: a name, an equals sign and an expression. -/

namespace Formula.Bindings.Argument

/-- Why a text binds no name. -/
inductive Fault where
  | noEquals (arg : String)
  | badName (name : String)
deriving DecidableEq

def Fault.message : Fault → String
  | noEquals arg => s!"expected NAME=EXPR, got '{arg}'"
  | badName name => s!"'{name}' is not a valid name"

/-- The text before the first equals sign and the text after it. -/
def cutAtEquals : List Char → Option (List Char × List Char)
  | [] => none
  | c :: cs =>
    if c = '=' then some ([], cs)
    else (cutAtEquals cs).map fun (before, rest) => (c :: before, rest)

/-- The name and the source of its value that a text gives. White space around the name does not
count. -/
def parse (arg : String) : Except Fault (String × String) :=
  match cutAtEquals arg.toList with
  | none => .error (.noEquals arg)
  | some (before, source) =>
    let name := Text.trim Text.isBlank before
    if Text.isName name then .ok (String.ofList name, String.ofList source)
    else .error (.badName (String.ofList name))

/-- The value of a source by itself. -/
def constant (source : String) : Except Error Value :=
  let e := Expression.ofSource Expr.defaultLimit source
  (e.evaluate Host.none empty.environment .default ()).1.1

/-- Binds each name to the value of its source, from left to right. -/
def bindAll (b : Builder) : List (String × String) → Except Error Builder
  | [] => .ok b
  | (name, source) :: rest => do bindAll (b.bind name (← constant source)) rest

/-- The bindings of names to the values of sources. -/
def build (args : List (String × String)) : Except Error Bindings := do
  ((← bindAll .empty args).build).mapError .duplicateBindings

end Formula.Bindings.Argument
