import Formula.Span
import Formula.Text.Quoted
import Formula.Decimal.Layout

/-! The tokens of an expression. -/

namespace Formula

/-- Operators and punctuation. -/
inductive Symbol where
  | equal | notEqual | greaterEqual | lessEqual | greater | less
  | and | or | not
  | doubleSlash | doubleStar | plus | minus | star | slash | percent
  | question | colon | dot | comma
  | leftParen | rightParen | leftBracket | rightBracket
deriving DecidableEq

namespace Symbol

def text : Symbol → String
  | equal => "=="
  | notEqual => "!="
  | greaterEqual => ">="
  | lessEqual => "<="
  | greater => ">"
  | less => "<"
  | and => "&&"
  | or => "||"
  | not => "!"
  | doubleSlash => "//"
  | doubleStar => "**"
  | plus => "+"
  | minus => "-"
  | star => "*"
  | slash => "/"
  | percent => "%"
  | question => "?"
  | colon => ":"
  | dot => "."
  | comma => ","
  | leftParen => "("
  | rightParen => ")"
  | leftBracket => "["
  | rightBracket => "]"

/-- All symbols, those of two characters first. -/
def all : List Symbol :=
  [equal, notEqual, greaterEqual, lessEqual, and, or, doubleSlash, doubleStar,
    greater, less, not, plus, minus, star, slash, percent, question, colon, dot, comma,
    leftParen, rightParen, leftBracket, rightBracket]

end Symbol

/-- What a token is, with the value it denotes. -/
inductive Token.Kind where
  | name (s : String)
  | int (n : Int)
  | float (x : Double)
  | str (s : String)
  | symbol (s : Symbol)
  /-- A character that starts no token. -/
  | stray (c : Char)
deriving DecidableEq

namespace Token.Kind

def isLiteral : Kind → Bool
  | int _ | float _ | str _ => true
  | name _ | symbol _ | stray _ => false

/-- The heading of the token in listings. -/
def label : Kind → String
  | name _ => "IDENT"
  | int _ => "INT"
  | float _ => "FLOAT"
  | str _ => "STR"
  | symbol _ => "OP"
  | stray _ => "ERROR"

def text : Kind → List Char
  | name s => s.toList
  | int n => (toString n).toList
  | float x => x.text
  | str s => Text.quoted s.toList
  | symbol s => s.text.toList
  | stray c => [c]

end Token.Kind

/-- A token and the characters of the source that it covers. -/
structure Token where
  kind : Token.Kind
  span : Span
deriving DecidableEq

end Formula
