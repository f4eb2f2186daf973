import Formula.Proofs.Parser.Grammar
import Formula.Proofs.Parser.Steps

/-! What reads each rung of the grammar. The rungs that group to the left are read alike, with their
operators as the only difference. -/

namespace Formula

namespace Parser

/-- The step that reads what a rung derives. -/
def reader (limit levels : Nat) : Rung → Parse Expr
  | .ternary => ternary limit levels
  | .disjunction => disjunction limit levels (ternary limit levels)
  | .conjunction => conjunction limit levels (ternary limit levels)
  | .negation => negation limit levels (ternary limit levels)
  | .comparison => comparison limit levels (ternary limit levels)
  | .additive => additive limit levels (ternary limit levels)
  | .multiplicative => multiplicative limit levels (ternary limit levels)
  | .unary => unary limit levels (ternary limit levels)
  | .power => power limit levels (ternary limit levels)
  | .postfixed => postfixed limit levels (ternary limit levels)
  | .primary => primary (ternary limit levels)

variable {limit levels : Nat} {op : Type} {op? : Symbol → Option op}
  {join : op → Expr → Expr → Expr} {operand : Parse Expr}

/-- Operators may be taken as the trees that they make. -/
theorem chainStep_map {next : Expr → Nat → Parse Expr} :
    chainStep limit op? join operand next =
      chainStep limit (fun s => (op? s).map join) (fun join => join) operand next := by
  funext left links s
  obtain ⟨rest, position, depth, pending⟩ := s
  simp only [chainStep, peekSymbol_bind]
  cases symbol? rest with
  | none => rfl
  | some symbol =>
    simp only [Option.bind_some]
    cases op? symbol <;> rfl

theorem chain_map :
    chain limit levels op? join operand =
      chain limit levels (fun s => (op? s).map join) (fun join => join) operand := by
  have hFrom : ∀ levels, chainFrom limit op? join operand levels =
      chainFrom limit (fun s => (op? s).map join) (fun join => join) operand levels := by
    intro levels
    induction levels with
    | zero => rw [chainFrom, chainFrom, chainStep_map]
    | succ levels ih => rw [chainFrom, chainFrom, ih, chainStep_map]
  rw [chain, chain, hFrom]

theorem call_other {nested : Parse Expr} {callee : Expr} {k : Token.Kind}
    {rest : List Token.Kind} {position depth : Nat} {pending : List Expectation}
    (h : k ≠ .symbol .rightParen) :
    call nested callee ⟨.symbol .leftParen :: k :: rest, position, depth, pending⟩ =
      argsFrom nested callee ⟨k :: rest, position + 1, depth, .rightParen :: pending⟩ := by
  rw [call, called_eq, advance_bind, expect_bind, peek_bind]
  cases k with
  | symbol symbol => cases symbol <;> first | rfl | exact absurd rfl h
  | _ => rfl

theorem postfixStep_suffix {nested : Parse Expr} {next : Expr → Nat → Parse Expr} {operand : Expr}
    {links : Nat} {tokens : List Token.Kind} {symbol : Symbol} {p : Expr → Parse Expr}
    {position depth : Nat} {pending : List Expectation} (hSymbol : symbol? tokens = some symbol)
    (hp : suffix? nested symbol = some p) :
    postfixStep limit nested next operand links ⟨tokens, position, depth, pending⟩ =
      (do enter limit; next (← p operand) (links + 1) : Parse Expr)
        ⟨tokens, position, depth, pending⟩ := by
  rw [postfixStep, peekSymbol_bind, hSymbol, Option.bind_some, hp]

theorem postfixStep_stop {nested : Parse Expr} {next : Expr → Nat → Parse Expr} {operand : Expr}
    {links : Nat} {tokens : List Token.Kind} {position depth : Nat} {pending : List Expectation}
    (h : (symbol? tokens).bind (suffix? nested) = none) :
    postfixStep limit nested next operand links ⟨tokens, position, depth, pending⟩ =
      .ok (operand, ⟨tokens, position, depth - links, pending⟩) := by
  rw [postfixStep, peekSymbol_bind, h]
  rfl

end Parser

namespace Rung

/-- A rung that groups to the left, with operators between its operands. -/
def IsChain (r : Rung) : Prop := ∃ s join, r.link? s = some join

open Formula.Parser

theorem IsChain.reader {r : Rung} (h : r.IsChain) (limit levels : Nat) :
    reader limit levels r =
      chain limit levels r.link? (fun join => join) (reader limit levels r.next) := by
  obtain ⟨s, join, hs⟩ := h
  cases r with
  | disjunction | conjunction | comparison | additive | multiplicative =>
    refine chain_map.trans ?_
    congr 1
    funext s
    cases s <;> rfl
  | _ => simp [link?] at hs

/-- What holds of the tightest rungs, and of the others if it holds of the next one, holds of all
rungs below a ternary. -/
theorem climb {P : Rung → Prop} (hPrimary : P .primary) (hPostfixed : P .postfixed)
    (hPower : P .power) (hUnary : P .power → P .unary) (hNegation : P .comparison → P .negation)
    (hChain : ∀ r : Rung, r.IsChain → P r.next → P r) (r : Rung) (hr : r ≠ .ternary) : P r := by
  have hMultiplicative := hChain .multiplicative ⟨.star, _, rfl⟩ (hUnary hPower)
  have hAdditive := hChain .additive ⟨.plus, _, rfl⟩ hMultiplicative
  have hComparison := hChain .comparison ⟨.equal, _, rfl⟩ hAdditive
  have hConjunction := hChain .conjunction ⟨.and, _, rfl⟩ (hNegation hComparison)
  have hDisjunction := hChain .disjunction ⟨.or, _, rfl⟩ hConjunction
  cases r with
  | ternary => exact absurd rfl hr
  | unary => exact hUnary hPower
  | negation => exact hNegation hComparison
  | _ => assumption

theorem sign?_unary : Parser.sign? = unary.sign? := by
  funext s
  cases s <;> rfl

end Rung

end Formula
