import Formula.Expr.Source
import Formula.Proofs.Offsets

/-! What a source is parsed to, or how a fault in it is reported: the offsets of the report are
those that the fault points at. -/

namespace Formula

namespace Parser.Fault

variable {tokens : List Token} {token : Token} {position : Nat}

/-- The report of a fault in a source of these tokens. -/
def report (limit : Nat) (source : String) (tokens : List Token) (fault : Fault) : SyntaxError :=
  .about (fault.message limit) source (fault.offsets source.toList.length tokens)

theorem offsetsAt_increasing (fallback : Nat) :
    (offsetsAt tokens position [fallback]).Pairwise (· < ·) := by
  unfold offsetsAt
  split
  · exact Span.offsets_increasing _
  · exact List.pairwise_singleton _ _

theorem offsets_increasing (fault : Fault) (length : Nat) (tokens : List Token) :
    (fault.offsets length tokens).Pairwise (· < ·) := by
  unfold offsets
  split
  · exact offsetsAt_increasing 0
  · exact offsetsAt_increasing _
  · exact List.pairwise_singleton _ _
  · exact offsetsAt_increasing 0
  · exact offsetsAt_increasing length

theorem offsets_report (limit : Nat) (source : String) (tokens : List Token) (fault : Fault) :
    (fault.report limit source tokens).offsets = fault.offsets source.toList.length tokens :=
  SyntaxError.about_offsets (fault.offsets_increasing _ tokens) _ _

theorem offsets_unexpected (h : tokens[position]? = some token) (length : Nat) :
    (unexpected position).offsets length tokens = token.span.offsets := by
  cases position <;> simp only [offsets, offsetsAt, h]

theorem offsets_expected {what : Expectation} (h : tokens[position]? = some token)
    (length : Nat) : (expected what (position + 1)).offsets length tokens = token.span.offsets := by
  simp only [offsets, offsetsAt, h]

end Parser.Fault

namespace Expr

variable {source : String}

theorem parse_of_fault {fault : Lexer.Fault} (h : Lexer.tokens source.toList = .error fault)
    (limit : Nat) : parse limit source = .error (fault.toSyntaxError source) := by
  rw [parse, h]

theorem parse_of_tokens {found : List Token} (h : Lexer.tokens source.toList = .ok found)
    (limit : Nat) :
    parse limit source =
      match Parser.parse limit (found.map (·.kind)) with
      | .error fault => .error (fault.report limit source found)
      | .ok e => .ok e := by
  rw [parse, h]
  rfl

/-- An expression is read from a source if the tokens of the source are. -/
theorem parse_eq_ok_iff {limit : Nat} {e : Expr} :
    parse limit source = .ok e ↔ ∃ found, Lexer.tokens source.toList = .ok found ∧
      Parser.parse limit (found.map (·.kind)) = .ok e := by
  cases hTokens : Lexer.tokens source.toList with
  | error fault =>
    rw [parse_of_fault hTokens]
    simp
  | ok found =>
    rw [parse_of_tokens hTokens]
    cases hParse : Parser.parse limit (found.map (·.kind)) <;> simp [hParse]

end Expr

end Formula
