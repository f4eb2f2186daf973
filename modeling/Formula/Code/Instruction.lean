import Formula.Expr

/-! The instructions of the stack machine. -/

namespace Formula

/-- An instruction. Jumps go forward, over the given number of the instructions after them. -/
inductive Instruction where
  /-- Pushes the literal with the given number. -/
  | loadConst (id : Nat)
  /-- Pushes what the name with the given number is known as. -/
  | loadRef (id : Nat)
  | unary (op : UnaryOp)
  | binary (op : BinaryOp)
  | compare (op : Comparison)
  /-- Pops arguments and what is called below them, and pushes the result. -/
  | call (count : Nat)
  /-- Pops a key or three bounds and a value below them, and pushes the item or the slice. -/
  | getItem (count : Nat)
  /-- Pops a name and a value below it, and pushes the attribute. -/
  | getAttr
  | jump (offset : Nat)
  /-- Pops a value, and jumps if it is as true as `on`. -/
  | popJumpIf (on : Bool) (offset : Nat)
  /-- Leaves the value on top, and jumps if it is as true as `on`. -/
  | jumpIf (on : Bool) (offset : Nat)
  | pop
deriving DecidableEq

namespace Instruction

def name : Instruction → String
  | loadConst _ => "LOAD_CONST"
  | loadRef _ => "LOAD_REF"
  | unary .not => "NOT"
  | unary .neg => "NEGATE"
  | unary .pos => "POSITIVE"
  | binary _ => "BINARY_OP"
  | compare _ => "COMPARE_OP"
  | call _ => "CALL"
  | getItem _ => "GET_ITEM"
  | getAttr => "GET_ATTR"
  | jump _ => "JUMP_FORWARD"
  | popJumpIf true _ => "POP_JUMP_IF_TRUE"
  | popJumpIf false _ => "POP_JUMP_IF_FALSE"
  | jumpIf true _ => "JUMP_IF_TRUE"
  | jumpIf false _ => "JUMP_IF_FALSE"
  | pop => "POP"

/-- The number of instructions that a jump skips. -/
def offset? : Instruction → Option Nat
  | jump offset | popJumpIf _ offset | jumpIf _ offset => some offset
  | _ => none

/-- What is written after the name of an instruction. -/
def operand? : Instruction → Option String
  | loadConst n | loadRef n | call n | getItem n | jump n | popJumpIf _ n | jumpIf _ n =>
    some (toString n)
  | binary op => some op.text
  | compare op => some op.text
  | unary _ | getAttr | pop => none

def text (i : Instruction) : String :=
  match i.operand? with
  | some operand => i.name ++ " " ++ operand
  | none => i.name

end Instruction

end Formula
