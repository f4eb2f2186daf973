import Formula.Expr.Parser
import Formula.Token.Lexer

/-! Expressions read from source text, and the reports of faults in it. -/

namespace Formula

namespace Parser.Fault

def message (limit : Nat) : Fault → String
  | unexpected _ => "Unexpected token encountered while parsing"
  | expected what _ => "Expected '" ++ what.text ++ "' was not found"
  | tooDeep _ => "Expression nesting depth exceeds maximum of " ++ toString limit ++ " levels"

/-- The characters of the token at `position`, or `fallback` if there is none. -/
def offsetsAt (tokens : List Token) (position : Nat) (fallback : List Nat) : List Nat :=
  match tokens[position]? with
  | some token => token.span.offsets
  | none => fallback

/-- The characters that a fault in a source of `length` characters points at: the token that
cannot stand where it does, the last one before what is missing, and the one at which the limit
is passed. -/
def offsets (length : Nat) (tokens : List Token) : Fault → List Nat
  | unexpected 0 => offsetsAt tokens 0 [0]
  | unexpected position => offsetsAt tokens position [length - 1]
  | expected _ 0 => [0]
  | expected _ (position + 1) => offsetsAt tokens position [0]
  | tooDeep position => offsetsAt tokens position [length]

end Parser.Fault

namespace Expr

/-- The limit on nesting where none is given. -/
def defaultLimit : Nat := 128

/-- The expression that `source` holds, with at most `limit` levels of nesting. -/
def parse (limit : Nat) (source : String) : Except SyntaxError Expr :=
  match Lexer.tokens source.toList with
  | .error fault => .error (fault.toSyntaxError source)
  | .ok tokens =>
    match Parser.parse limit (tokens.map (·.kind)) with
    | .error fault =>
      .error (.about (fault.message limit) source (fault.offsets source.toList.length tokens))
    | .ok e => .ok e

end Expr

end Formula
