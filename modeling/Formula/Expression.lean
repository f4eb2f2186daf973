import Formula.Bindings
import Formula.Code.Compiler
import Formula.Code.Machine
import Formula.Expr.Source

/-! Expressions that are evaluated again and again. The tree and the code are made when they are
first needed, and kept. -/

namespace Formula

/-- Why an expression has no value. -/
inductive Error where
  | unreadable (e : SyntaxError)
  | uncompiled (e : CompileError)
  | failed (e : RuntimeError)
  | duplicateBindings (names : List String)
  | defective (d : Machine.Defect)
deriving DecidableEq

def Error.message : Error → String
  | unreadable e => String.ofList e.text
  | uncompiled e => e.message
  | failed e => e.message
  | duplicateBindings names => "duplicate binding(s): " ++ String.intercalate ", " names
  | defective d => d.message

inductive Engine where
  | tree | machine
deriving DecidableEq

/-- Evaluates by `engine` where none is given. -/
def Engine.default : Engine := .machine

/-- A source with its limit on nesting, and its tree and code if they are there already. -/
structure Expression where
  source : String
  limit : Nat
  tree? : Option Expr
  code? : Option Code

namespace Expression

/-- An expression of which nothing but the source is there. -/
def ofSource (limit : Nat) (source : String) : Expression :=
  ⟨source, limit, none, none⟩

/-- The tree of an expression, and the expression that keeps it. A fault is not kept. -/
def tree (e : Expression) : Except Error Expr × Expression :=
  match e.tree? with
  | some tree => (.ok tree, e)
  | none =>
    match Expr.parse e.limit e.source with
    | .error fault => (.error (.unreadable fault), e)
    | .ok tree => (.ok tree, { e with tree? := some tree })

/-- The code of an expression, and the expression that keeps it with its tree. -/
def code (e : Expression) : Except Error Code × Expression :=
  match e.code? with
  | some code => (.ok code, e)
  | none =>
    match e.tree with
    | (.error fault, e) => (.error fault, e)
    | (.ok tree, e) =>
      match tree.compile with
      | .error fault => (.error (.uncompiled fault), e)
      | .ok code => (.ok code, { e with code? := some code })

variable {σ : Type}

def ofFault : Machine.Fault → Error
  | .runtime e => .failed e
  | .defect d => .defective d

/-- The value of an expression, and the expression with what it keeps from now on. Names that `env`
does not know are looked up in the prelude. -/
def evaluate (host : Host σ) (env : Environment σ) (engine : Engine) (e : Expression) :
    StateM σ (Except Error Value × Expression) := do
  let env := env.orElse Bindings.prelude.environment
  match engine with
  | .tree =>
    match e.tree with
    | (.error fault, e) => return (.error fault, e)
    | (.ok tree, e) =>
      let result ← (tree.eval host env).run
      return (result.mapError .failed, e)
  | .machine =>
    match e.code with
    | (.error fault, e) => return (.error fault, e)
    | (.ok code, e) =>
      let result ← (Machine.exec host env code).run
      return (result.mapError ofFault, e)

end Expression

end Formula
