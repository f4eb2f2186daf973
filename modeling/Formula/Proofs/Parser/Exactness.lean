import Mathlib.Control.Monad.Basic
import Formula.Proofs.Parser.Completeness
import Formula.Proofs.Parser.Soundness

/-! The parser gives what the grammar derives, and nothing else. -/

namespace Formula.Parser

/-- What is derived is read, if the limit is above twice the number of the tokens. -/
theorem ternary_of_derives {limit : Nat} {ts rest : List Token.Kind} {e : Expr}
    (h : Derives .ternary ts e) (hEnds : Rung.ternary.Ends rest)
    (hLimit : 2 * (ts ++ rest).length + 1 ≤ limit) :
    (ternary limit limit : Parse Expr) ⟨ts ++ rest, 0, 0, []⟩ =
      .ok (e, ⟨rest, 0 + ts.length, 0, []⟩) := by
  have hRoom : Room limit limit limit 0 :=
    ⟨Nat.le_of_eq (Nat.zero_add limit), Nat.le_of_eq (Nat.zero_add limit).symm⟩
  rw [List.length_append] at hLimit
  exact (reads_of_derives h).complete limit (by omega) limit limit rest 0 0 [] hRoom hEnds

theorem parse_of_derives {limit : Nat} {kinds : List Token.Kind} {e : Expr}
    (h : Derives .ternary kinds e) (hLimit : 2 * kinds.length + 1 ≤ limit) :
    parse limit kinds = .ok e := by
  have hLong : 2 * (kinds ++ []).length + 1 ≤ limit := by rwa [List.append_nil]
  have hRun := ternary_of_derives h (Rung.ends_nil _) hLong
  rw [List.append_nil] at hRun
  rw [parse, complete, Steps.bind_eq hRun]
  rfl

/-- The parser accepts exactly what the grammar derives: a tree that it gives within any limit is
derived from all the tokens, a derived tree is given within any limit above twice the number of the
tokens, and no other tree is derived from the same tokens. -/
theorem parse_exact (kinds : List Token.Kind) :
    (∀ limit e, parse limit kinds = .ok e → Derives .ternary kinds e) ∧
    (∀ limit e, Derives .ternary kinds e → 2 * kinds.length + 1 ≤ limit →
      parse limit kinds = .ok e) ∧
    ∀ e e', Derives .ternary kinds e → Derives .ternary kinds e' → e = e' := by
  refine ⟨fun limit e h => derives_of_parse h, fun limit e h hLimit => parse_of_derives h hLimit,
    fun e e' h h' => ?_⟩
  have hParse := parse_of_derives h (Nat.le_refl _)
  rw [parse_of_derives h' (Nat.le_refl _)] at hParse
  cases hParse
  rfl

/-- The tokens of `-x[:1] ** y` derive one tree, those of `x ** -y` derive none. -/
theorem parse_exact_power :
    (∀ e, Derives .ternary
      [.symbol .minus, .name "x", .symbol .leftBracket, .symbol .colon, .int 1,
        .symbol .rightBracket, .symbol .doubleStar, .name "y"] e ↔
      e = .unary .neg (.binary .pow
        (.slice (.reference "x") none (some (.literal (.int 1))) none) (.reference "y"))) ∧
    ∀ e, ¬Derives .ternary [.name "x", .symbol .doubleStar, .symbol .minus, .name "y"] e := by
  have hTree : parse 3
      [.symbol .minus, .name "x", .symbol .leftBracket, .symbol .colon, .int 1,
        .symbol .rightBracket, .symbol .doubleStar, .name "y"] =
      .ok (.unary .neg (.binary .pow
        (.slice (.reference "x") none (some (.literal (.int 1))) none) (.reference "y"))) := by
    decide +kernel
  have hFault : parse 9 [.name "x", .symbol .doubleStar, .symbol .minus, .name "y"] =
      .error (.expected .expression 2) := by decide +kernel
  have hDerives := (parse_exact _).1 3 _ hTree
  refine ⟨fun e => ⟨fun h => (parse_exact _).2.2 _ _ h hDerives, ?_⟩, fun e h => ?_⟩
  · rintro rfl
    exact hDerives
  · have hParse := (parse_exact _).2.1 9 e h (Nat.le_refl 9)
    rw [hFault] at hParse
    cases hParse

end Formula.Parser
