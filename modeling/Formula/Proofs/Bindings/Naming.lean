import Formula.Bindings.Argument
import Formula.Proofs.Expr.Reports
import Formula.Proofs.Parser.Lookahead
import Formula.Proofs.Token.Single

/-! The names that can be bound. They are looked for apart from the tokens of expressions, by what
their characters are, but they are the names that can stand in an expression: what is bound can be
referred to, and what can be referred to can be bound. -/

namespace Formula

namespace Expr

/-- A name by itself is an expression that refers to it, if there is a level to read it on. -/
theorem parse_name {name : String} (h : Text.isName name.toList) (limit : Nat) :
    parse (limit + 1) name = .ok (.reference name) := by
  have hTokens : Lexer.tokens name.toList = .ok [⟨.name name, ⟨0, name.toList.length⟩⟩] := by
    refine Lexer.tokens_eq_single.mpr ⟨⟨[], name.toList, [], nofun, nofun, by simp, ?_, ?_⟩, nofun⟩
    · exact Lexer.spells_name_iff.mpr ⟨h, String.ofList_toList⟩
    · simp
  have hOne : Parser.parse 1 [.name name] = .ok (.reference name) := rfl
  exact parse_eq_ok_iff.mpr ⟨_, hTokens, Parser.parse_ok_mono (Nat.le_add_left 1 limit) hOne⟩

end Expr

namespace Bindings.Argument

variable {cs before rest : List Char} {arg name source : String}

/-- What is cut is the first equals sign. -/
theorem cutAtEquals_eq_some :
    cutAtEquals cs = some (before, rest) ↔ cs = before ++ '=' :: rest ∧ '=' ∉ before := by
  induction cs generalizing before rest with
  | nil => simp [cutAtEquals]
  | cons c cs ih =>
    rw [cutAtEquals]
    split
    · next hEqual =>
      subst hEqual
      cases before with
      | nil => simp
      | cons d before =>
        refine iff_of_false nofun ?_
        rintro ⟨hText, hFirst⟩
        cases hText
        exact hFirst List.mem_cons_self
    · next hEqual =>
      cases before with
      | nil => simp [hEqual]
      | cons d before =>
        simp only [Option.map_eq_some_iff, Prod.exists, Prod.mk.injEq, List.cons.injEq, ih,
          List.cons_append, List.mem_cons, not_or]
        constructor
        · rintro ⟨_, _, ⟨rfl, hFirst⟩, ⟨rfl, rfl⟩, rfl⟩
          exact ⟨⟨rfl, rfl⟩, Ne.symm hEqual, hFirst⟩
        · rintro ⟨⟨rfl, rfl⟩, -, hFirst⟩
          exact ⟨_, _, ⟨rfl, hFirst⟩, ⟨rfl, rfl⟩, rfl⟩

/-- A text gives a name and a source if there is an equals sign between them and the tokens of what
stands in front of the first one are that name. -/
theorem parse_eq_ok : parse arg = .ok (name, source) ↔
    ∃ before, (arg.toList = before ++ '=' :: source.toList ∧ '=' ∉ before) ∧
      ∃ t, Lexer.tokens before = .ok [t] ∧ t.kind = .name name := by
  simp only [Lexer.exists_tokens_name, ← cutAtEquals_eq_some]
  rw [parse]
  cases hCut : cutAtEquals arg.toList with
  | none => simp
  | some cut =>
    obtain ⟨before, rest⟩ := cut
    dsimp only
    split
    · next hName =>
      constructor
      · intro hParse
        cases hParse
        exact ⟨before, by rw [String.toList_ofList], hName, rfl⟩
      · rintro ⟨before', hSame, -, rfl⟩
        cases hSame
        rw [String.ofList_toList]
    · next hName =>
      refine iff_of_false nofun ?_
      rintro ⟨before', hSame, hName', -⟩
      cases hSame
      exact hName hName'

/-- A text gives a binding if there is an equals sign in it and one token in front of the first one,
which is a name. The binding is of that name, as it stands there, to the source that follows the
sign, and the name by itself is an expression that refers to it. -/
theorem parse_names (arg : String) :
    ((∃ b, parse arg = .ok b) ↔
      ∃ before rest t name, (arg.toList = before ++ '=' :: rest ∧ '=' ∉ before) ∧
        Lexer.tokens before = .ok [t] ∧ t.kind = .name name) ∧
    ∀ before rest t name, arg.toList = before ++ '=' :: rest → '=' ∉ before →
      Lexer.tokens before = .ok [t] → t.kind = .name name →
      parse arg = .ok (name, String.ofList rest) ∧ t.span.text before = name.toList ∧
        ∀ limit, Expr.parse (limit + 1) name = .ok (.reference name) := by
  have hParses : ∀ {before rest t name}, arg.toList = before ++ '=' :: rest → '=' ∉ before →
      Lexer.tokens before = .ok [t] → t.kind = .name name →
      parse arg = .ok (name, String.ofList rest) := fun hText hFirst hTokens hKind =>
    parse_eq_ok.mpr ⟨_, ⟨by rw [hText, String.toList_ofList], hFirst⟩, _, hTokens, hKind⟩
  refine ⟨⟨?_, ?_⟩, fun before rest t name hText hFirst hTokens hKind =>
    ⟨hParses hText hFirst hTokens hKind, Lexer.text_of_tokens_name hTokens hKind, ?_⟩⟩
  · rintro ⟨⟨name, source⟩, hParse⟩
    obtain ⟨before, hCut, t, hTokens, hKind⟩ := parse_eq_ok.mp hParse
    exact ⟨before, _, t, name, hCut, hTokens, hKind⟩
  · rintro ⟨before, rest, t, name, ⟨hText, hFirst⟩, hTokens, hKind⟩
    exact ⟨_, hParses hText hFirst hTokens hKind⟩
  · obtain ⟨hName, rfl⟩ := Lexer.exists_tokens_name.mp ⟨t, hTokens, hKind⟩
    exact Expr.parse_name (by rwa [String.toList_ofList])

/-- The equals signs after the first one belong to the source, and white space around the name does
not count. -/
theorem parse_names_accented :
    Lexer.tokens " é ".toList = .ok [⟨.name "é", ⟨1, 2⟩⟩] ∧
      parse " é =a == b" = .ok ("é", "a == b") ∧
      Expr.parse 1 "é" = .ok (.reference "é") := by
  have hBlank : ∀ c ∈ [' '], Text.isBlank c := List.forall_mem_singleton.mpr (by decide)
  have hTokens : Lexer.tokens " é ".toList = .ok [⟨.name "é", ⟨1, 2⟩⟩] :=
    Lexer.tokens_eq_single.mpr ⟨⟨[' '], ['é'], [' '], hBlank, hBlank, rfl,
      Lexer.spells_name_iff.mpr ⟨by decide, rfl⟩, rfl⟩, nofun⟩
  obtain ⟨hParse, -, hRefers⟩ :=
    (parse_names " é =a == b").2 " é ".toList "a == b".toList _ "é" rfl (by decide) hTokens rfl
  exact ⟨hTokens, hParse, hRefers 0⟩

end Bindings.Argument

end Formula
