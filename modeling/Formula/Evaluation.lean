import Formula.Value.Hosted

/-! The value of an expression, by recursion over its tree. Operands are evaluated from left to
right. -/

namespace Formula.Expr

variable {σ : Type}

/-- Whether a connective gives its left operand, which is true or not. -/
def decides (op : Connective) (truth : Bool) : Bool :=
  match op with
  | .or => truth
  | .and => !truth

mutual

/-- The value of an expression. -/
def eval (host : Host σ) (env : Environment σ) : Expr → Run σ Value
  | literal l => return l.value
  | reference name => env.lookup name
  | unary op e => do (← eval host env e).applyUnary host op
  | binary op l r => do
    let l ← eval host env l
    let r ← eval host env r
    Run.ofExcept host (Value.binary op l r)
  | compare op l r => do
    let l ← eval host env l
    let r ← eval host env r
    Run.ofExcept host (Value.compare op l r)
  | connect op l r => do
    let v ← eval host env l
    if decides op (← v.truth host) then return v else eval host env r
  | ternary c y n => do
    let v ← eval host env c
    if ← v.truth host then eval host env y else eval host env n
  | access e attr => do (← eval host env e).getAttr host attr
  | call callee args => do
    let f ← eval host env callee
    let vs ← evalArgs host env args
    f.call host vs
  | item e key => do
    let v ← eval host env e
    let k ← eval host env key
    v.getItem host k
  | slice e start stop step => do
    let v ← eval host env e
    let a ← evalBound host env start
    let b ← evalBound host env stop
    let c ← evalBound host env step
    v.getSlice host a b c

def evalArgs (host : Host σ) (env : Environment σ) : List Expr → Run σ (List Value)
  | [] => return []
  | e :: es => do
    let v ← eval host env e
    return v :: (← evalArgs host env es)

/-- The value of a bound, which is `None` if it is left out. -/
def evalBound (host : Host σ) (env : Environment σ) : Option Expr → Run σ Value
  | none => return .none
  | some e => eval host env e

end

end Formula.Expr
