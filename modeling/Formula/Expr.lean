import Formula.Double

/-! Expressions as trees. -/

namespace Formula

/-- The operators in front of one operand. -/
inductive UnaryOp where
  | not | neg | pos
deriving DecidableEq

/-- The arithmetic operators between two operands. -/
inductive BinaryOp where
  | add | sub | mul | div | floorDiv | mod | pow
deriving DecidableEq

inductive Comparison where
  | eq | ne | gt | lt | ge | le
deriving DecidableEq

/-- The operators that give one of their operands, and skip the right one when the left one
decides. -/
inductive Connective where
  | and | or
deriving DecidableEq

def UnaryOp.text : UnaryOp → String
  | not => "!"
  | neg => "-"
  | pos => "+"

def BinaryOp.text : BinaryOp → String
  | add => "+"
  | sub => "-"
  | mul => "*"
  | div => "/"
  | floorDiv => "//"
  | mod => "%"
  | pow => "**"

def Comparison.text : Comparison → String
  | eq => "=="
  | ne => "!="
  | gt => ">"
  | lt => "<"
  | ge => ">="
  | le => "<="

def Connective.text : Connective → String
  | and => "&&"
  | or => "||"

/-- The constants that can be written in an expression. -/
inductive Literal where
  | int (n : Int)
  | float (x : Double)
  | str (s : String)
deriving DecidableEq

/-- An expression. The bounds of a slice may each be left out. -/
inductive Expr where
  | literal (l : Literal)
  | reference (name : String)
  | unary (op : UnaryOp) (operand : Expr)
  | binary (op : BinaryOp) (left right : Expr)
  | compare (op : Comparison) (left right : Expr)
  | connect (op : Connective) (left right : Expr)
  | ternary (cond yes no : Expr)
  | access (operand : Expr) (attr : String)
  | call (callee : Expr) (args : List Expr)
  | item (operand key : Expr)
  | slice (operand : Expr) (start stop step : Option Expr)

namespace Expr

mutual

/-- Whether two expressions are the same tree. -/
def same : Expr → Expr → Bool
  | literal l, literal l' => l = l'
  | reference name, reference name' => name = name'
  | unary op e, unary op' e' => op = op' && same e e'
  | binary op l r, binary op' l' r' => op = op' && same l l' && same r r'
  | compare op l r, compare op' l' r' => op = op' && same l l' && same r r'
  | connect op l r, connect op' l' r' => op = op' && same l l' && same r r'
  | ternary c y n, ternary c' y' n' => same c c' && same y y' && same n n'
  | access e a, access e' a' => same e e' && a = a'
  | call f args, call f' args' => same f f' && sameAll args args'
  | item e k, item e' k' => same e e' && same k k'
  | slice e a b c, slice e' a' b' c' =>
    same e e' && sameBound a a' && sameBound b b' && sameBound c c'
  | _, _ => false

def sameAll : List Expr → List Expr → Bool
  | [], [] => true
  | e :: es, e' :: es' => same e e' && sameAll es es'
  | _, _ => false

/-- Whether two bounds of slices are the same tree, or both left out. -/
def sameBound : Option Expr → Option Expr → Bool
  | none, none => true
  | some e, some e' => same e e'
  | _, _ => false

end

mutual

theorem same_iff (e e' : Expr) : same e e' ↔ e = e' := by
  cases e <;> cases e' <;> simp [same, same_iff, sameAll_iff, sameBound_iff, and_assoc]

theorem sameAll_iff (es es' : List Expr) : sameAll es es' ↔ es = es' := by
  cases es <;> cases es' <;> simp [sameAll, same_iff, sameAll_iff]

theorem sameBound_iff (bound? bound?' : Option Expr) :
    sameBound bound? bound?' ↔ bound? = bound?' := by
  cases bound? <;> cases bound?' <;> simp [sameBound, same_iff]

end

instance : DecidableEq Expr := fun e e' => decidable_of_iff _ (same_iff e e')

end Expr

end Formula
