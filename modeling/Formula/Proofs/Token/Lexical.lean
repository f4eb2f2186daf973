import Formula.Expr.Text
import Formula.Proofs.Decimal.Code
import Formula.Proofs.Token.Reading

/-! What the tokens of every source have in common: names are names, and numbers have no sign and
are in range. -/

namespace Formula

namespace Token.Kind

/-- Whether some source has a token of a kind. -/
def Lexical : Kind → Prop
  | name s => ∃ c rest, s.toList = c :: rest ∧ Text.isBlank c = false ∧ Text.startsName c ∧
      ∀ d ∈ rest, Text.continuesName d
  | int n => 0 ≤ n ∧ n ≤ Numeral.maxInt
  | float x => x.negative = false ∧ x.code ≤ Double.infinityCode
  | str _ | symbol _ => True
  | stray _ => False

end Token.Kind

namespace Decimal

theorem code_le_infinityCode (d : Decimal) : d.code ≤ Double.infinityCode := by
  rw [code_eq]
  exact Nat.min_le_right _ _

end Decimal

namespace Lexer

open Token

variable {c : Char} {cs rest : List Char} {kind : Kind} {more : Nat}

theorem lexical_of_number (h : number c rest = .token kind more) : kind.Lexical := by
  simp only [number] at h
  split at h
  · cases h
    exact ⟨rfl, Decimal.code_le_infinityCode _⟩
  · split at h
    · next hFits =>
      cases h
      exact ⟨Int.natCast_nonneg _, of_decide_eq_true (Bool.and_eq_true_iff.mp hFits).2⟩
    · cases h

theorem lexical_of_lexeme (hBlank : Text.isBlank c = false)
    (h : lexeme c rest = .token kind more) : kind.Lexical := by
  simp only [lexeme] at h
  split at h
  · next hStarts =>
    cases h
    exact ⟨c, _, String.toList_ofList, hBlank, hStarts, List.all_eq_true.mp List.all_takeWhile⟩
  · split at h
    · split at h
      · cases h
        trivial
      · cases h
    · split at h
      · exact lexical_of_number h
      · split at h
        · cases h
          trivial
        · cases h

theorem lexical_of_kinds? {kinds : List Kind} (h : kinds? cs = some kinds) :
    ∀ kind ∈ kinds, kind.Lexical := by
  fun_induction kinds? cs generalizing kinds with
  | case1 =>
    cases h
    simp
  | case2 c rest hBlank ih => exact ih h
  | case3 c rest hBlank kind more hLexeme ih =>
    obtain ⟨others, hOthers, rfl⟩ := Option.map_eq_some_iff.mp h
    exact List.forall_mem_cons.mpr
      ⟨lexical_of_lexeme (by simpa using hBlank) hLexeme, ih hOthers⟩
  | case4 => cases h

end Lexer

end Formula
