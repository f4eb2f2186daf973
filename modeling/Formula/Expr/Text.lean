import Formula.Expr
import Formula.Decimal.Layout
import Formula.Text.Quoted

/-! Expressions as text. Every compound operand is put in parentheses, so that the text reads the
same whatever binds tighter. -/

namespace Formula

def Literal.text : Literal → List Char
  | int n => (toString n).toList
  | float x => x.literalText
  | str s => Text.quoted s.toList

namespace Expr

/-- Whether an attribute can follow the text of an expression only after parentheses: after the
digits of a whole number, the point would belong to the number. -/
def isWholeNumber : Expr → Bool
  | literal (.int _) => true
  | _ => false

def parenthesized (text : List Char) : List Char := '(' :: text ++ [')']

/-- Two operands with an operator between them, in parentheses. -/
def between (left : List Char) (op : String) (right : List Char) : List Char :=
  parenthesized (left ++ ' ' :: op.toList ++ ' ' :: right)

mutual

def text : Expr → List Char
  | literal l => l.text
  | reference name => name.toList
  | unary op e => parenthesized (op.text.toList ++ text e)
  | binary op l r => between (text l) op.text (text r)
  | compare op l r => between (text l) op.text (text r)
  | connect op l r => between (text l) op.text (text r)
  | ternary c y n =>
    parenthesized (text c ++ [' ', '?', ' '] ++ text y ++ [' ', ':', ' '] ++ text n)
  | access e attr =>
    (if isWholeNumber e then parenthesized (text e) else text e) ++ '.' :: attr.toList
  | call callee args => text callee ++ parenthesized (argsText args)
  | item e key => text e ++ '[' :: text key ++ [']']
  | slice e start stop step =>
    text e ++ '[' :: boundText start ++ ':' :: boundText stop ++ stepText step ++ [']']

def argsText : List Expr → List Char
  | [] => []
  | [e] => text e
  | e :: es => text e ++ [',', ' '] ++ argsText es

/-- The text of a bound, which is empty if it is left out. -/
def boundText : Option Expr → List Char
  | none => []
  | some e => text e

/-- The text of a step with its colon, which is empty if it is left out. -/
def stepText : Option Expr → List Char
  | none => []
  | some e => ':' :: text e

end

end Expr

end Formula
