import Formula.Code.Instruction
import Formula.Code.SymbolTable
import Formula.Value.Written

/-! Code for the stack machine, and its listing. -/

namespace Formula

/-- Instructions with the literals and names that they refer to, and the height that the stack
reaches. -/
structure Code where
  instructions : List Instruction
  symbols : SymbolTable
  maxStack : Nat

namespace Code

variable {σ : Type}

/-- What instruction number `index` refers to: a literal, a name, or the instruction that it jumps
to. -/
def remark? (host : Host σ) (t : SymbolTable) (index : Nat) (i : Instruction) :
    StateM σ (Option String) :=
  match i with
  | .loadConst id =>
    match t.literal? id with
    | some v => return some (← v.repr host)
    | none => return none
  | .loadRef id => return t.reference? id
  | i => return i.offset?.map fun offset => "to " ++ toString (index + 1 + offset)

/-- Instruction number `index` as a line of a listing. -/
def line (host : Host σ) (t : SymbolTable) (index : Nat) (i : Instruction) : StateM σ String := do
  let remark := match ← remark? host t index i with
    | some remark => " (" ++ remark ++ ")"
    | none => ""
  return toString index ++ "  " ++ i.text ++ remark

/-- The listing of code, one line for each instruction. -/
def listing (host : Host σ) (c : Code) : StateM σ (List String) :=
  c.instructions.zipIdx.mapM fun (i, index) => line host c.symbols index i

end Code

end Formula
