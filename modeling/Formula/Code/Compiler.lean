import Formula.Code

/-! From expressions to code. The code of an expression pushes its value and touches nothing below
it:

* `-x` is `x; NEGATE`, and `x + y` is `x; y; BINARY_OP +`;
* `x || y` is `x; JUMP_IF_TRUE end; POP; y`, and `&&` jumps if `x` is false;
* `c ? x : y` is `c; POP_JUMP_IF_FALSE else; x; JUMP_FORWARD end; y`;
* `x.a` is `x; 'a'; GET_ATTR`, `f(x, y)` is `f; x; y; CALL 2`, and `x[y]` is `x; y; GET_ITEM 1`;
* `x[a:b:c]` is `x; a; b; c; GET_ITEM 3`, with `None` for a bound that is left out.

The compiler keeps the height of the stack as it emits code, and the greatest height. -/

namespace Formula.Compiler

/-- The code emitted so far, the symbols that it refers to, and the height of the stack after it
with the greatest height before. -/
structure State where
  symbols : SymbolTable
  code : List Instruction
  height : Nat
  maxHeight : Nat

/-- A step of the compiler. -/
abbrev Compile := StateT State (Except CompileError)

/-- Nothing emitted, and an empty stack. -/
def State.initial : State := ⟨.empty, [], 0, 0⟩

def emit (code : List Instruction) : Compile Unit :=
  modify fun s => { s with code := s.code ++ code }

/-- Counts one value more on the stack. -/
def push : Compile Unit :=
  modify fun s => { s with height := s.height + 1, maxHeight := max s.maxHeight (s.height + 1) }

/-- Counts `n` values fewer on the stack. -/
def drop (n : Nat) : Compile Unit := modify fun s => { s with height := s.height - n }

/-- The code that `m` emits, which is not emitted yet. -/
def aside (m : Compile Unit) : Compile (List Instruction) := fun s =>
  match m { s with code := [] } with
  | .error e => .error e
  | .ok (_, s') => .ok (s'.code, { s' with code := s.code })

def literal (v : Value) : Compile Nat := fun s =>
  match s.symbols.addLiteral v with
  | (.ok id, symbols) => .ok (id, { s with symbols })
  | (.error e, _) => .error e

def reference (name : String) : Compile Nat := fun s =>
  match s.symbols.addReference name with
  | (.ok id, symbols) => .ok (id, { s with symbols })
  | (.error e, _) => .error e

/-- Checks that a number has 32 bits. -/
def limited (n : Nat) (e : CompileError) : Compile Unit :=
  if n < numberLimit then pure () else throw e

/-- Emits the push of a literal. -/
def loadConst (v : Value) : Compile Unit := do
  emit [.loadConst (← literal v)]
  push

/-- The truth with which a connective keeps its left operand. -/
def decisive : Connective → Bool
  | .or => true
  | .and => false

mutual

/-- Emits the code of an expression. -/
def compileExpr : Expr → Compile Unit
  | .literal l => loadConst l.value
  | .reference name => do
    emit [.loadRef (← reference name)]
    push
  | .unary op e => do
    compileExpr e
    emit [.unary op]
  | .binary op l r => do
    compileExpr l
    compileExpr r
    emit [.binary op]
    drop 1
  | .compare op l r => do
    compileExpr l
    compileExpr r
    emit [.compare op]
    drop 1
  | .connect op l r => do
    compileExpr l
    drop 1
    let right ← aside (compileExpr r)
    limited (right.length + 1) .jumpTooFar
    emit ([.jumpIf (decisive op) (right.length + 1), .pop] ++ right)
  | .ternary c y n => do
    compileExpr c
    drop 1
    let yes ← aside (compileExpr y)
    limited (yes.length + 1) .jumpTooFar
    drop 1
    let no ← aside (compileExpr n)
    limited no.length .jumpTooFar
    emit ([.popJumpIf false (yes.length + 1)] ++ yes ++ [.jump no.length] ++ no)
  | .access e attr => do
    compileExpr e
    loadConst (.str attr)
    emit [.getAttr]
    drop 1
  | .call callee args => do
    compileExpr callee
    compileArgs args
    limited args.length .tooManyArguments
    emit [.call args.length]
    drop args.length
  | .item e key => do
    compileExpr e
    compileExpr key
    emit [.getItem 1]
    drop 1
  | .slice e start stop step => do
    compileExpr e
    compileBound start
    compileBound stop
    compileBound step
    emit [.getItem 3]
    drop 3

def compileArgs : List Expr → Compile Unit
  | [] => pure ()
  | e :: es => do
    compileExpr e
    compileArgs es

/-- Emits the code of a bound, which is `None` if it is left out. -/
def compileBound : Option Expr → Compile Unit
  | none => loadConst .none
  | some e => compileExpr e

end

end Compiler

def Expr.compile (e : Expr) : Except CompileError Code :=
  (Compiler.compileExpr e .initial).map fun (_, s) => ⟨s.code, s.symbols, s.maxHeight⟩

end Formula
