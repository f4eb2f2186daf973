import Mathlib.Control.Monad.Basic
import Formula.Proofs.Expr.Reports
import Formula.Proofs.Expr.Spacing
import Formula.Proofs.Parser.Exactness

/-! The text of an expression that has been read from a source reads back as the same tree exactly
if the expression is plain. -/

namespace Formula

open Token Piece

namespace Lexer

variable {ps : List Piece}

/-- Pieces that fit each other are read as the tokens among them, if these are plain. -/
theorem kinds?_spelled (hFit : ps.IsChain (fits · ·)) (hLexical : ∀ k ∈ kinds ps, k.Lexical)
    (hPlain : ∀ k ∈ kinds ps, k.isPlain) : kinds? (spelled ps) = some (kinds ps) := by
  induction ps with
  | nil => exact kinds?_nil
  | cons p ps ih =>
    obtain ⟨hFirst, hRest⟩ := List.isChain_cons.mp hFit
    cases p with
    | none =>
      rw [spelled_cons, kinds_none]
      exact (kinds?_blank (by decide) _).trans (ih hRest hLexical hPlain)
    | some k =>
      rw [kinds_some] at hLexical hPlain ⊢
      obtain ⟨hk, hks⟩ := List.forall_mem_cons.mp hLexical
      obtain ⟨hkPlain, hksPlain⟩ := List.forall_mem_cons.mp hPlain
      rw [spelled_cons, Piece.text, kinds?_written hk hkPlain (endsAt_of_fits hFirst hks),
        ih hRest hks hksPlain]
      rfl

/-- If what is read from pieces that fit each other has the same names and literals, they are
plain: in place of the first one that is not, another one would be read. -/
theorem plain_of_kinds? {found : List Kind} (hFit : ps.IsChain (fits · ·))
    (hLexical : ∀ k ∈ kinds ps, k.Lexical) (h : kinds? (spelled ps) = some found)
    (hLeaves : Grammar.leaves found = Grammar.leaves (kinds ps)) : ∀ k ∈ kinds ps, k.isPlain := by
  induction ps generalizing found with
  | nil => simp
  | cons p ps ih =>
    obtain ⟨hFirst, hRest⟩ := List.isChain_cons.mp hFit
    cases p with
    | none =>
      rw [spelled_cons] at h
      exact ih hRest hLexical ((kinds?_blank (by decide) _).symm.trans h) hLeaves
    | some k =>
      rw [kinds_some] at hLexical hLeaves ⊢
      obtain ⟨hk, hks⟩ := List.forall_mem_cons.mp hLexical
      rw [spelled_cons, Piece.text] at h
      cases hPlain : k.isPlain with
      | true =>
        rw [kinds?_written hk hPlain (endsAt_of_fits hFirst hks)] at h
        obtain ⟨others, hOthers, rfl⟩ := Option.map_eq_some_iff.mp h
        refine List.forall_mem_cons.mpr ⟨hPlain, ih hRest hks hOthers ?_⟩
        cases hSymbol : k.isSymbol with
        | true =>
          obtain ⟨s, rfl⟩ := Kind.exists_symbol hSymbol
          exact hLeaves
        | false =>
          rw [Grammar.leaves_leaf hSymbol, Grammar.leaves_leaf hSymbol] at hLeaves
          exact (List.cons.inj hLeaves).2
      | false =>
        obtain ⟨hSymbol, k', others, rfl, hne, hSymbol'⟩ := kinds?_garbled hk hPlain h
        rw [Grammar.leaves_leaf hSymbol, Grammar.leaves_leaf hSymbol'] at hLeaves
        exact absurd (List.cons.inj hLeaves).1 hne

end Lexer

namespace Expr

variable {limit : Nat} {source : String} {e : Expr}

/-- The tokens in the text of an expression have its names and literals. -/
theorem leaves_kinds (e : Expr) : Grammar.leaves e.kinds = e.leaves := e.derives_kinds.leaves_eq

theorem plain_iff (e : Expr) : (∀ k ∈ e.kinds, k.isPlain) ↔ e.Plain := by
  rw [Plain, ← leaves_kinds]
  refine ⟨fun h k hk => h k (Grammar.mem_leaves.mp hk).1, fun h k hk => ?_⟩
  cases hSymbol : k.isSymbol with
  | true =>
    obtain ⟨s, rfl⟩ := Kind.exists_symbol hSymbol
    rfl
  | false => exact h k (Grammar.mem_leaves.mpr ⟨hk, hSymbol⟩)

/-- The tokens in the text of an expression that has been read can stand in a source. -/
theorem lexical_of_parse (h : parse limit source = .ok e) : ∀ k ∈ e.kinds, k.Lexical := by
  obtain ⟨tokens, hTokens, hParse⟩ := parse_eq_ok_iff.mp h
  have hLexical := Lexer.lexical_of_kinds? (Lexer.kinds?_eq_some.mpr ⟨tokens, hTokens, rfl⟩)
  have hLeaves := (Parser.derives_of_parse hParse).leaves_eq
  rw [← leaves_kinds] at hLeaves
  intro k hk
  cases hSymbol : k.isSymbol with
  | true =>
    obtain ⟨s, rfl⟩ := Kind.exists_symbol hSymbol
    trivial
  | false =>
    have hLeaf : k ∈ Grammar.leaves e.kinds := Grammar.mem_leaves.mpr ⟨hk, hSymbol⟩
    rw [← hLeaves] at hLeaf
    exact hLexical k (Grammar.mem_leaves.mp hLeaf).1

theorem isChain_pieces (e : Expr) : e.pieces.IsChain (fits · ·) := by
  have hJoins := e.follows [] Joins.nil (by simp)
  rw [List.append_nil] at hJoins
  exact hJoins.chain

/-- The text of an expression that has been read from a source is read as the same tree, within any
limit above twice the number of its tokens, exactly if no text in the expression holds a backslash,
a line feed, a carriage return or a tab, and every binary64 number in it is finite. -/
theorem parse_text_iff (h : parse limit source = .ok e) (limit' : Nat)
    (hLimit : ∀ tokens, Lexer.tokens e.text = .ok tokens → 2 * tokens.length + 1 ≤ limit') :
    parse limit' (String.ofList e.text) = .ok e ↔ e.Plain := by
  have hLexical := lexical_of_parse h
  rw [parse_eq_ok_iff, String.toList_ofList]
  constructor
  · rintro ⟨tokens, hTokens, hParse⟩
    have hFound := Lexer.kinds?_eq_some.mpr ⟨tokens, hTokens, rfl⟩
    have hLeaves := (Parser.derives_of_parse hParse).leaves_eq
    rw [← leaves_kinds] at hLeaves
    rw [← spelled_pieces] at hFound
    exact e.plain_iff.mp (Lexer.plain_of_kinds? e.isChain_pieces hLexical hFound hLeaves)
  · intro hPlain
    have hFound := Lexer.kinds?_spelled e.isChain_pieces hLexical (e.plain_iff.mpr hPlain)
    rw [spelled_pieces] at hFound
    obtain ⟨tokens, hTokens, hKinds⟩ := Lexer.kinds?_eq_some.mp hFound
    have hDerives : Derives .ternary (tokens.map (·.kind)) e := by
      rw [hKinds]
      exact e.derives_kinds.widen (Nat.zero_le _)
    refine ⟨tokens, hTokens, Parser.parse_of_derives hDerives ?_⟩
    rw [List.length_map]
    exact hLimit tokens hTokens

/-- The text of `1 .x`, which is `(1).x`, is read as the same tree. That of `'a\b'`, which has two
backslashes, is not. -/
theorem parse_text_iff_point :
    parse 11 (String.ofList (access (literal (.int 1)) "x").text) =
      .ok (access (literal (.int 1)) "x") ∧
    parse 11 (String.ofList (literal (.str "a\\b")).text) ≠ .ok (literal (.str "a\\b")) := by
  have hPoint : parse 2 "1 .x" = .ok (access (literal (.int 1)) "x") := by decide +kernel
  have hBackslash : parse 2 "'a\\b'" = .ok (literal (.str "a\\b")) := by decide +kernel
  have hPointTokens : Lexer.tokens (access (literal (.int 1)) "x").text =
      .ok [⟨.symbol .leftParen, ⟨0, 1⟩⟩, ⟨.int 1, ⟨1, 2⟩⟩, ⟨.symbol .rightParen, ⟨2, 3⟩⟩,
        ⟨.symbol .dot, ⟨3, 4⟩⟩, ⟨.name "x", ⟨4, 5⟩⟩] := by decide +kernel
  have hBackslashTokens : Lexer.tokens (literal (.str "a\\b")).text =
      .ok [⟨.str "a\\\\b", ⟨0, 6⟩⟩] := by decide +kernel
  constructor
  · refine (parse_text_iff hPoint 11 fun tokens hTokens => ?_).mpr (by decide)
    rw [hPointTokens] at hTokens
    cases hTokens
    decide
  · intro hParse
    refine absurd ((parse_text_iff hBackslash 11 fun tokens hTokens => ?_).mp hParse) (by decide)
    rw [hBackslashTokens] at hTokens
    cases hTokens
    decide

end Expr

end Formula
