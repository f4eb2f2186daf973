import Formula.Token.Lexer

/-! The tokens of a text without their places. What a text is cut into does not depend on where it
starts, so it is read token by token. -/

namespace Formula.Lexer

open Token

/-- The kinds of the tokens of a text that has no faults. -/
def kinds? : List Char → Option (List Kind)
  | [] => some []
  | c :: rest =>
    if Text.isBlank c then kinds? rest
    else
      match lexeme c rest with
      | .token kind more => (kinds? (rest.drop more)).map (kind :: ·)
      | _ => none
termination_by cs => cs.length
decreasing_by all_goals simp only [List.length_cons, List.length_drop]; omega

theorem kinds?_nil : kinds? [] = some [] := by rw [kinds?]

theorem kinds?_blank {c : Char} (h : Text.isBlank c) (rest : List Char) :
    kinds? (c :: rest) = kinds? rest := by
  rw [kinds?, if_pos h]

theorem kinds?_token {c : Char} {rest : List Char} {kind : Kind} {more : Nat}
    (hBlank : Text.isBlank c = false) (h : lexeme c rest = .token kind more) :
    kinds? (c :: rest) = (kinds? (rest.drop more)).map (kind :: ·) := by
  rw [kinds?, if_neg (by simp [hBlank]), h]

/-- The kinds that are left of what `scan` gives. -/
def kindsOf : Except Fault (List Token × List Nat) → Option (List Kind)
  | .ok (tokens, []) => some (tokens.map (·.kind))
  | _ => none

/-- Wherever a text starts, its tokens are of the same kinds. -/
theorem kindsOf_scan (start : Nat) (cs : List Char) : kindsOf (scan start cs) = kinds? cs := by
  fun_induction scan start cs with
  | case1 => rw [kinds?_nil]; rfl
  | case2 start c rest hBlank ih => rw [kinds?_blank hBlank, ih]
  | case3 start c rest hBlank kind more hLexeme stop ih =>
    rw [kinds?_token (by simpa using hBlank) hLexeme, ← ih]
    rcases scan stop (rest.drop more) with _ | ⟨tokens, _ | _⟩ <;> rfl
  | case4 start c rest hBlank hLexeme ih =>
    rw [kinds?, if_neg hBlank, hLexeme]
    rcases scan (start + 1) rest with _ | ⟨tokens, unknown⟩ <;> rfl
  | case5 start c rest hBlank hLexeme =>
    rw [kinds?, if_neg hBlank, hLexeme]
    rfl
  | case6 start c rest hBlank more hLexeme =>
    rw [kinds?, if_neg hBlank, hLexeme]
    rfl

/-- A source has tokens if it can be read, and they are what is read. -/
theorem kinds?_eq_some {source : List Char} {kinds : List Kind} :
    kinds? source = some kinds ↔
      ∃ found, tokens source = .ok found ∧ found.map (·.kind) = kinds := by
  rw [← kindsOf_scan 0, tokens]
  rcases scan 0 source with fault | ⟨found, _ | _⟩ <;> simp [kindsOf]

end Formula.Lexer
