import Formula.Expr
import Formula.Token

/-! From tokens to expressions, by recursive descent. The rungs of the grammar, loosest first, are
`ternary`, `disjunction`, `conjunction`, `negation`, `comparison`, `additive`, `multiplicative`,
`unary`, `power`, `postfixed` and `primary`. The parser sees the kinds of the tokens alone, so a
fault names the position of a token, not a place in the source. It reaches them, the levels and what
is pending by small steps alone, and any monad that has these has the readers of the grammar.

Nesting is limited: a ternary, each link of a chain, and the right-hand side of a power charge one
level while they are read. `levels` counts down along the recursion and bounds it. It starts at
the limit, and each step that uses up one of `levels` has charged one level, so `levels` never runs
out before the limit does. -/

namespace Formula.Parser

/-- What must come next. -/
inductive Expectation where
  | expression | subscript | name | colon | rightParen | rightBracket
deriving DecidableEq

def Expectation.text : Expectation → String
  | expression => "expr"
  | subscript => "expr | :"
  | name => "identifier"
  | colon => ":"
  | rightParen => ")"
  | rightBracket => "]"

/-- Why tokens are no expression, and the position of the first token that was not consumed. -/
inductive Fault where
  | unexpected (position : Nat)
  | expected (what : Expectation) (position : Nat)
  | tooDeep (position : Nat)
deriving DecidableEq

/-- The tokens that are left and the number of those consumed, the levels charged, and what is
pending, latest first. -/
structure State where
  rest : List Token.Kind
  position : Nat
  depth : Nat
  pending : List Expectation
deriving DecidableEq

/-- A step of the parser. -/
abbrev Parse := StateT State (Except Fault)

/-- The small steps that readers are made of. -/
class SmallSteps (m : Type → Type) where
  /-- The next token. -/
  peek : m (Option Token.Kind)
  /-- The number of tokens that are left. -/
  left : m Nat
  advance : m Unit
  /-- Adds what must come next. -/
  expect (what : Expectation) : m Unit
  /-- Drops what was pending last. -/
  fulfil : m Unit
  /-- Charges a level, of which there are at most `limit`. -/
  enter (limit : Nat) : m Unit
  /-- Gives back `links` levels. -/
  leave (links : Nat) : m Unit
  /-- Fails for want of what is pending, or because of the next token. -/
  fail {α : Type} : m α
  tooDeep {α : Type} : m α
  /-- What becomes of a subscript whose only part is left out. -/
  noKey {α : Type} : m α
  /-- Calls a reader, which is made only then. -/
  called {α : Type} (reader : Unit → m α) : m α

export SmallSteps (peek left advance expect fulfil enter leave fail tooDeep noKey called)

/-- A fault at the current position: what is pending is missing, or the next token is wrong. -/
def State.fault (s : State) : Fault :=
  match s.pending with
  | what :: _ => .expected what s.position
  | [] => .unexpected s.position

instance : SmallSteps Parse where
  peek s := .ok (s.rest.head?, s)
  left s := .ok (s.rest.length, s)
  advance s :=
    match s.rest with
    | [] => .ok ((), s)
    | _ :: rest => .ok ((), { s with rest, position := s.position + 1 })
  expect what s := .ok ((), { s with pending := what :: s.pending })
  fulfil s := .ok ((), { s with pending := s.pending.tail })
  enter limit s :=
    if s.depth + 1 ≤ limit then .ok ((), { s with depth := s.depth + 1 })
    else .error (.tooDeep s.position)
  leave links s := .ok ((), { s with depth := s.depth - links })
  fail s := .error s.fault
  tooDeep s := .error (.tooDeep s.position)
  noKey s := .error s.fault
  called reader s := reader () s

/-! ### Symbols -/

def comparison? : Symbol → Option Comparison
  | .equal => some .eq
  | .notEqual => some .ne
  | .greater => some .gt
  | .less => some .lt
  | .greaterEqual => some .ge
  | .lessEqual => some .le
  | _ => none

/-- The operator that a symbol stands for between terms. -/
def additive? : Symbol → Option BinaryOp
  | .plus => some .add
  | .minus => some .sub
  | _ => none

/-- The operator that a symbol stands for between factors. -/
def multiplicative? : Symbol → Option BinaryOp
  | .star => some .mul
  | .slash => some .div
  | .doubleSlash => some .floorDiv
  | .percent => some .mod
  | _ => none

/-- The operator that a symbol stands for in front of an operand of arithmetic. -/
def sign? : Symbol → Option UnaryOp
  | .minus => some .neg
  | .plus => some .pos
  | _ => none

/-- The connective `op`, if the symbol is `symbol`. -/
def connective? (symbol : Symbol) (op : Connective) (s : Symbol) : Option Connective :=
  if s = symbol then some op else none

/-! ### Readers -/

section

variable {m : Type → Type} [Monad m] [SmallSteps m]

def peekIs (symbol : Symbol) : m Bool := do
  return (← peek) = some (.symbol symbol)

/-- The next token, if it is a symbol. -/
def peekSymbol : m (Option Symbol) := do
  match ← peek with
  | some (.symbol symbol) => return some symbol
  | _ => return none

/-- Consumes the next token if it is `symbol`, and says whether it is. -/
def eat (symbol : Symbol) : m Bool := do
  if ← peekIs symbol then
    advance
    return true
  else return false

/-- Consumes `symbol` and drops what was pending for it. -/
def require (symbol : Symbol) : m Unit := do
  if ← eat symbol then fulfil else fail

/-! In what follows, `limit` is the limit on nesting, `levels` the levels that are left for chains,
and `nested` reads an expression of any form. -/

/-- One more link of a chain, or its end. A link is an operator that `op?` knows and an operand;
`join` makes it a tree with what is on its left, and `next` goes on. -/
def chainStep {op : Type} (limit : Nat) (op? : Symbol → Option op)
    (join : op → Expr → Expr → Expr) (operand : m Expr) (next : Expr → Nat → m Expr)
    (left : Expr) (links : Nat) : m Expr := do
  match (← peekSymbol).bind op? with
  | none =>
    leave links
    return left
  | some o =>
    advance
    enter limit
    expect .expression
    let right ← operand
    fulfil
    next (join o left right) (links + 1)

/-- The rest of a chain of which `left` has been read, with `links` links. -/
def chainFrom {op : Type} (limit : Nat) (op? : Symbol → Option op)
    (join : op → Expr → Expr → Expr) (operand : m Expr) : Nat → Expr → Nat → m Expr
  | 0 => chainStep limit op? join operand fun _ _ => tooDeep
  | levels + 1 =>
    chainStep limit op? join operand (chainFrom limit op? join operand levels)

/-- Operands with operators between them that group to the left. -/
def chain {op : Type} (limit levels : Nat) (op? : Symbol → Option op)
    (join : op → Expr → Expr → Expr) (operand : m Expr) : m Expr := do
  let left ← operand
  chainFrom limit op? join operand levels left 0

/-- A name, a literal, or an expression in parentheses. -/
def primary (nested : m Expr) : m Expr := called fun _ => do
  match ← peek with
  | some (.symbol .leftParen) =>
    advance
    expect .rightParen
    let inner ← nested
    require .rightParen
    return inner
  | some (.name name) =>
    advance
    return .reference name
  | some (.int n) =>
    advance
    return .literal (.int n)
  | some (.float x) =>
    advance
    return .literal (.float x)
  | some (.str s) =>
    advance
    return .literal (.str s)
  | some (.symbol _) => fail
  | some (.stray _) => fail
  | none => fail

/-- A point and the name of an attribute. -/
def accessor (operand : Expr) : m Expr := called fun _ => do
  expect .name
  advance
  match ← peek with
  | some (.name attr) =>
    advance
    fulfil
    return .access operand attr
  | _ => fail

/-- What is written after a colon between brackets: nothing, or an expression. -/
def slot (nested : m Expr) : m (Option Expr) := do
  if (← peekIs .colon) || (← peekIs .rightBracket) then return none
  else return some (← nested)

/-- The parts of a slice after its first one, of which there are at most the given number. -/
def moreSlots (nested : m Expr) : Nat → m (List (Option Expr))
  | 0 => do
    if ← peekIs .colon then fail else return []
  | n + 1 => do
    if ← peekIs .colon then
      expect .subscript
      advance
      let first ← slot nested
      fulfil
      return first :: (← moreSlots nested n)
    else return []

/-- The item or the slice of `operand` that the parts between brackets select: one part is a key,
two or three are bounds. -/
def subscripted (operand : Expr) : List (Option Expr) → Option Expr
  | [] => none
  | [key] => key.map operand.item
  | start :: stop :: rest => some (.slice operand start stop rest.head?.join)

/-- The rest of a subscript after its first part. -/
def subscriptFrom (nested : m Expr) (operand : Expr) (first? : Option Expr) : m Expr := do
  let others ← moreSlots nested 2
  require .rightBracket
  match subscripted operand (first? :: others) with
  | some e => return e
  | none => noKey

/-- A key or up to three bounds between brackets. -/
def index (nested : m Expr) (operand : Expr) : m Expr := called fun _ => do
  expect .rightBracket
  advance
  if (← peek) = none || (← peekIs .rightBracket) then
    expect .subscript
    fail
  else
    let first? ← if ← peekIs .colon then pure none else some <$> nested
    subscriptFrom nested operand first?

/-- Arguments that each follow a comma, of which there are at most the given number. -/
def moreArgs (nested : m Expr) : Nat → m (List Expr)
  | 0 => return []
  | n + 1 => do
    if ← eat .comma then
      expect .expression
      let arg ← nested
      fulfil
      return arg :: (← moreArgs nested n)
    else return []

/-- The arguments of a call, of which there is at least one. -/
def argsFrom (nested : m Expr) (callee : Expr) : m Expr := do
  let first ← nested
  let others ← moreArgs nested (← left)
  require .rightParen
  return .call callee (first :: others)

def call (nested : m Expr) (callee : Expr) : m Expr := called fun _ => do
  advance
  expect .rightParen
  match ← peek with
  | none => fail
  | some (.symbol .rightParen) =>
    require .rightParen
    return .call callee []
  | some _ => argsFrom nested callee

/-- What reads the rest of an accessor, a subscript or a call, from its first symbol on. -/
def suffix? (nested : m Expr) : Symbol → Option (Expr → m Expr)
  | .dot => some accessor
  | .leftBracket => some (index nested)
  | .leftParen => some (call nested)
  | _ => none

/-- One more accessor, subscript or call, or the end of a chain of them. -/
def postfixStep (limit : Nat) (nested : m Expr) (next : Expr → Nat → m Expr) (operand : Expr)
    (links : Nat) : m Expr := do
  match (← peekSymbol).bind (suffix? nested) with
  | some suffix =>
    enter limit
    next (← suffix operand) (links + 1)
  | none =>
    leave links
    return operand

/-- The rest of a chain of accessors, subscripts and calls after `operand`. -/
def postfixFrom (limit : Nat) (nested : m Expr) : Nat → Expr → Nat → m Expr
  | 0 => postfixStep limit nested fun _ _ => tooDeep
  | levels + 1 => postfixStep limit nested (postfixFrom limit nested levels)

/-- A primary with accessors, subscripts and calls after it. -/
def postfixed (limit levels : Nat) (nested : m Expr) : m Expr := called fun _ => do
  let operand ← primary nested
  postfixFrom limit nested levels operand 0

/-- A power, whose right-hand side is read by `exponent`. -/
def powerStep (limit : Nat) (base exponent : m Expr) : m Expr := do
  let left ← base
  if ← eat .doubleStar then
    enter limit
    expect .expression
    let right ← exponent
    fulfil
    leave 1
    return .binary .pow left right
  else return left

/-- Powers of `base`, which group to the right. -/
def powers (limit : Nat) (base : m Expr) : Nat → m Expr
  | 0 => called fun _ => powerStep limit base tooDeep
  | levels + 1 => called fun _ => powerStep limit base (powers limit base levels)

def power (limit levels : Nat) (nested : m Expr) : m Expr :=
  powers limit (postfixed limit levels nested) levels

/-- The operand of a sign or of `!`. -/
def signed (op : UnaryOp) (operand : m Expr) : m Expr := do
  expect .expression
  let e ← operand
  fulfil
  return .unary op e

/-- A power with at most one sign. -/
def unary (limit levels : Nat) (nested : m Expr) : m Expr := called fun _ => do
  match (← peekSymbol).bind sign? with
  | some op =>
    advance
    signed op (power limit levels nested)
  | none => power limit levels nested

def multiplicative (limit levels : Nat) (nested : m Expr) : m Expr := called fun _ =>
  chain limit levels multiplicative? .binary (unary limit levels nested)

def additive (limit levels : Nat) (nested : m Expr) : m Expr := called fun _ =>
  chain limit levels additive? .binary (multiplicative limit levels nested)

def comparison (limit levels : Nat) (nested : m Expr) : m Expr := called fun _ =>
  chain limit levels comparison? .compare (additive limit levels nested)

/-- A comparison with at most one `!`. -/
def negation (limit levels : Nat) (nested : m Expr) : m Expr := called fun _ => do
  if ← eat .not then signed .not (comparison limit levels nested)
  else comparison limit levels nested

def conjunction (limit levels : Nat) (nested : m Expr) : m Expr := called fun _ =>
  chain limit levels (connective? .and .and) .connect (negation limit levels nested)

def disjunction (limit levels : Nat) (nested : m Expr) : m Expr := called fun _ =>
  chain limit levels (connective? .or .or) .connect (conjunction limit levels nested)

/-- A condition with two branches, or the condition alone. -/
def ternaryStep (limit : Nat) (condition nested : m Expr) : m Expr := do
  enter limit
  let cond ← condition
  if ← eat .question then
    expect .expression
    let yes ← nested
    expect .colon
    require .colon
    let no ← nested
    fulfil
    leave 1
    return .ternary cond yes no
  else
    leave 1
    return cond

/-- An expression of any form. -/
def ternary (limit : Nat) : Nat → m Expr
  | 0 => called fun _ => tooDeep
  | levels + 1 => called fun _ =>
    ternaryStep limit (disjunction limit levels (ternary limit levels)) (ternary limit levels)

/-- All tokens as one expression, where `levels` are left. -/
def complete (limit levels : Nat) : m Expr := do
  let e ← ternary limit levels
  match ← peek with
  | none => return e
  | some _ => fail

end

/-- The expression that tokens of the given kinds form, with at most `limit` levels of nesting. -/
def parse (limit : Nat) (kinds : List Token.Kind) : Except Fault Expr :=
  ((complete limit limit : Parse Expr) ⟨kinds, 0, 0, []⟩).map (·.1)

end Formula.Parser
