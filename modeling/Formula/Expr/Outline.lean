import Formula.Decimal.Layout
import Formula.Expr
import Formula.Outline

/-! Expressions as outlines, which name every part of the tree. -/

namespace Formula

/-- A word that stands by itself. -/
def Outline.name (s : String) : Outline := .word s.toList

def UnaryOp.outline : UnaryOp → Outline
  | not => .name "Not"
  | neg => .name "Neg"
  | pos => .name "Pos"

def BinaryOp.outline : BinaryOp → Outline
  | add => .name "Add"
  | sub => .name "Sub"
  | mul => .name "Mul"
  | div => .name "Div"
  | floorDiv => .name "FloorDiv"
  | mod => .name "Mod"
  | pow => .name "Pow"

def Comparison.outline : Comparison → Outline
  | eq => .name "Eq"
  | ne => .name "NotEq"
  | gt => .name "Greater"
  | lt => .name "Less"
  | ge => .name "GreaterEq"
  | le => .name "LessEq"

def Connective.outline : Connective → Outline
  | and => .name "And"
  | or => .name "Or"

def Literal.outline : Literal → Outline
  | int n => .applied "Int" (.name (toString n))
  | float x => .applied "Float" (.word x.text)
  | str s => .applied "Str" (.quoted s)

namespace Expr

mutual

def outline : Expr → Outline
  | literal l => .applied "Literal" l.outline
  | reference name => .applied "Reference" (.quoted name)
  | unary op e => .named "Unary" [("op", op.outline), ("operand", outline e)]
  | binary op l r =>
    .named "Binary" [("op", op.outline), ("left", outline l), ("right", outline r)]
  | compare op l r =>
    .named "Comparison" [("op", op.outline), ("left", outline l), ("right", outline r)]
  | connect op l r =>
    .named "Boolean" [("op", op.outline), ("left", outline l), ("right", outline r)]
  | ternary c y n =>
    .named "Ternary"
      [("cond", outline c), ("then_branch", outline y), ("else_branch", outline n)]
  | access e attr => .named "Accessor" [("operand", outline e), ("attr", .quoted attr)]
  | call callee args =>
    .named "Call" [("callee", outline callee), ("args", .list (outlines args))]
  | item e key =>
    .named "Index" [("operand", outline e), ("subscript", .applied "Item" (outline key))]
  | slice e start stop step =>
    .named "Index"
      [("operand", outline e),
        ("subscript", .named "Slice"
          [("start", boundOutline start), ("stop", boundOutline stop),
            ("step", boundOutline step)])]

def outlines : List Expr → List Outline
  | [] => []
  | e :: es => outline e :: outlines es

def boundOutline : Option Expr → Outline
  | none => .name "None"
  | some e => .applied "Some" (outline e)

end

end Expr

end Formula
