import Mathlib.Control.Monad.Basic
import Formula.Proofs.Expr.Reports
import Formula.Proofs.Parser.Soundness
import Formula.Proofs.Token.Cutting

/-! Sources that more text could complete. An expression closes as many brackets as it opens, so no
source that is parsed is held back. A source that breaks off is held back if quoted text or a
bracket is open there. -/

namespace Formula

open Token Grammar

namespace Token.Kind

def isOpening (k : Kind) : Bool := k = .symbol .leftParen || k = .symbol .leftBracket

def isClosing (k : Kind) : Bool := k = .symbol .rightParen || k = .symbol .rightBracket

def isBracket (k : Kind) : Bool := k.isOpening || k.isClosing

end Token.Kind

/-! ### The brackets of an expression -/

namespace Grammar

variable {ts us : List Kind} {k : Kind}

/-- The number of brackets that tokens open. -/
def opened (ts : List Kind) : Nat := ts.countP Kind.isOpening

/-- The number of brackets that tokens close. -/
def closed (ts : List Kind) : Nat := ts.countP Kind.isClosing

/-- Whether tokens close as many brackets as they open. -/
def Balanced (ts : List Kind) : Prop := opened ts = closed ts

theorem balanced_nil : Balanced [] := rfl

theorem Balanced.cons (h : Balanced ts) (hk : k.isBracket = false) : Balanced (k :: ts) := by
  obtain ⟨hOpening, hClosing⟩ := Bool.or_eq_false_iff.mp hk
  unfold Balanced opened closed
  rw [List.countP_cons_of_neg (by simp [hOpening]), List.countP_cons_of_neg (by simp [hClosing])]
  exact h

theorem Balanced.append (h : Balanced ts) (h' : Balanced us) : Balanced (ts ++ us) := by
  unfold Balanced opened closed at *
  rw [List.countP_append, List.countP_append, h, h']

theorem Balanced.enclosed {left right : Kind} (h : Balanced ts)
    (hLeft : left.isOpening ∧ left.isClosing = false)
    (hRight : right.isOpening = false ∧ right.isClosing) :
    Balanced (left :: (ts ++ [right])) := by
  unfold Balanced opened closed at *
  simp [hLeft, hRight, h]

theorem balanced_commaArgs {args : List Phrase} (h : ∀ arg ∈ args, Balanced arg.1) :
    Balanced (commaArgs args) := by
  induction args with
  | nil => exact balanced_nil
  | cons arg args ih =>
    obtain ⟨hArg, hArgs⟩ := List.forall_mem_cons.mp h
    exact (hArg.cons rfl).append (ih hArgs)

theorem balanced_separated {args : List Phrase} (h : ∀ arg ∈ args, Balanced arg.1) :
    Balanced (separated args) := by
  cases args with
  | nil => exact balanced_nil
  | cons arg args =>
    obtain ⟨hArg, hArgs⟩ := List.forall_mem_cons.mp h
    exact hArg.append (balanced_commaArgs hArgs)

theorem balanced_slot {bound? : Option Phrase} (h : ∀ bound ∈ bound?, Balanced bound.1) :
    Balanced (slot bound?) := by
  cases bound? with
  | none => exact balanced_nil
  | some bound => exact h bound rfl

end Grammar

namespace Rung

variable {r : Rung} {s : Symbol}

theorem isBracket_of_link {join : Expr → Expr → Expr} (h : r.link? s = some join) :
    (Kind.symbol s).isBracket = false := by
  unfold link? at h
  split at h <;> first | rfl | cases h

theorem isBracket_of_sign {op : UnaryOp} (h : r.sign? s = some op) :
    (Kind.symbol s).isBracket = false := by
  unfold sign? at h
  split at h <;> first | rfl | cases h

end Rung

theorem Grammar.isBracket_of_leaf {k : Kind} {e : Expr} (h : leaf? k = some e) :
    k.isBracket = false := by
  cases k <;> first | rfl | cases h

/-- What is derived closes as many brackets as it opens. -/
theorem Derives.balanced {r : Rung} {ts : List Kind} {e : Expr} (h : Derives r ts e) :
    Balanced ts := by
  induction h with
  | tighter _ ih => exact ih
  | condition _ _ _ ihc ihy ihn =>
    exact ihc.append (.cons (ihy.append (ihn.cons rfl)) rfl)
  | link operator _ _ ihl ihr =>
    exact ihl.append (ihr.cons (Rung.isBracket_of_link operator))
  | sign operator _ ih => exact ih.cons (Rung.isBracket_of_sign operator)
  | power _ _ ihb ihx => exact ihb.append (ihx.cons rfl)
  | access _ ih => exact ih.append (.cons (.cons balanced_nil rfl) rfl)
  | call args _ _ ihf ihargs =>
    exact ihf.append ((balanced_separated ihargs).enclosed ⟨rfl, rfl⟩ ⟨rfl, rfl⟩)
  | item _ _ ih ihkey => exact ih.append (ihkey.enclosed ⟨rfl, rfl⟩ ⟨rfl, rfl⟩)
  | slice start stop _ _ _ ih ihstart ihstop =>
    have hBounds : Balanced (slot start ++ .symbol .colon :: slot stop) :=
      (balanced_slot ihstart).append (.cons (balanced_slot ihstop) rfl)
    apply ih.append
    simpa using hBounds.enclosed ⟨rfl, rfl⟩ ⟨rfl, rfl⟩
  | steppedSlice start stop step _ _ _ _ ih ihstart ihstop ihstep =>
    have hLater : Balanced (slot stop ++ .symbol .colon :: slot step) :=
      (balanced_slot ihstop).append (.cons (balanced_slot ihstep) rfl)
    have hBounds : Balanced
        (slot start ++ .symbol .colon :: (slot stop ++ .symbol .colon :: slot step)) :=
      (balanced_slot ihstart).append (.cons hLater rfl)
    apply ih.append
    simpa using hBounds.enclosed ⟨rfl, rfl⟩ ⟨rfl, rfl⟩
  | group _ ih => exact ih.enclosed ⟨rfl, rfl⟩ ⟨rfl, rfl⟩
  | leaf h => exact .cons balanced_nil (isBracket_of_leaf h)

/-! ### Sources -/

namespace Lexer

variable {source : List Char} {found : List Token}

theorem isIncomplete_of_tokens (h : tokens source = .ok found) :
    isIncomplete source ↔ closed (found.map (·.kind)) < opened (found.map (·.kind)) := by
  rw [isIncomplete, h, closed, opened, List.countP_map, List.countP_map]
  exact decide_eq_true_iff

theorem isIncomplete_of_unterminated {start : Nat}
    (h : tokens source = .error (.unterminated start)) : isIncomplete source := by
  rw [isIncomplete, h]

/-- A source that breaks off inside quoted text or outside tokens is incomplete if the text or a
bracket is open. -/
theorem isIncomplete_take (h : tokens source = .ok found) {cut : Nat}
    (hCut : InText found cut ∨ ¬InToken found cut) :
    isIncomplete (source.take cut) ↔ InText found cut ∨
      let before := (found.filter (·.span.stop ≤ cut)).map (·.kind)
      closed before < opened before := by
  by_cases hText : InText found cut
  · obtain ⟨t, hMem, ⟨s, hKind⟩, hInside⟩ := hText
    have hTokens := tokens_take_quoted h hMem hKind hInside
    exact iff_of_true (isIncomplete_of_unterminated hTokens)
      (.inl ⟨t, hMem, ⟨s, hKind⟩, hInside⟩)
  · have hTokens := tokens_take h (hCut.resolve_left hText)
    rw [isIncomplete_of_tokens hTokens, or_iff_right hText]

end Lexer

namespace Expr

open Lexer

/-- An expression that is read from a source is not held back. -/
theorem isIncomplete_of_parse {limit : Nat} {source : String} {e : Expr}
    (h : parse limit source = .ok e) : isIncomplete source.toList = false := by
  obtain ⟨found, hFound, hParse⟩ := parse_eq_ok_iff.mp h
  have hBalanced := (Parser.derives_of_parse hParse).balanced
  rw [← Bool.not_eq_true, isIncomplete_of_tokens hFound]
  exact (Nat.le_of_eq hBalanced).not_gt

/-- More text is asked for exactly where it is missing. Where a source that is parsed breaks off,
inside quoted text or outside tokens, it is incomplete if the text is open, or if the tokens up to
there open more brackets than they close. No source that is incomplete is parsed within any
limit. -/
theorem incomplete_iff_open (source : String) :
    (∀ limit e, parse limit source = .ok e →
      ∃ found, tokens source.toList = .ok found ∧
        ∀ cut, InText found cut ∨ ¬InToken found cut →
          (isIncomplete (source.toList.take cut) ↔ InText found cut ∨
            let before := (found.filter (·.span.stop ≤ cut)).map (·.kind)
            closed before < opened before)) ∧
    (isIncomplete source.toList → ∀ limit, ∃ report, parse limit source = .error report) := by
  constructor
  · intro limit e hParse
    obtain ⟨found, hFound, -⟩ := parse_eq_ok_iff.mp hParse
    exact ⟨found, hFound, fun cut hCut => isIncomplete_take hFound hCut⟩
  · intro hIncomplete limit
    cases hParse : parse limit source with
    | error report => exact ⟨report, rfl⟩
    | ok e =>
      rw [isIncomplete_of_parse hParse] at hIncomplete
      cases hIncomplete

/-- Behind the backslash in `f('a\'b')` the quoted text is open, and behind the name no bracket is
open yet. -/
theorem incomplete_iff_open_escape :
    let source := "f('a\\'b')"
    parse 4 source = .ok (.call (.reference "f") [.literal (.str "a'b")]) ∧
      isIncomplete (source.toList.take 5) ∧ isIncomplete (source.toList.take 2) ∧
      ¬isIncomplete (source.toList.take 1) := by
  intro source
  have hParse : parse 4 source = .ok (.call (.reference "f") [.literal (.str "a'b")]) := by
    decide +kernel
  have hTokens : tokens source.toList = .ok [⟨.name "f", ⟨0, 1⟩⟩, ⟨.symbol .leftParen, ⟨1, 2⟩⟩,
      ⟨.str "a'b", ⟨2, 8⟩⟩, ⟨.symbol .rightParen, ⟨8, 9⟩⟩] := by decide +kernel
  obtain ⟨found, hFound, hCuts⟩ := (incomplete_iff_open source).1 4 _ hParse
  rw [hTokens] at hFound
  cases hFound
  refine ⟨hParse, ?_, ?_, ?_⟩
  · have hInside : InText [⟨.name "f", ⟨0, 1⟩⟩, ⟨.symbol .leftParen, ⟨1, 2⟩⟩,
        ⟨.str "a'b", ⟨2, 8⟩⟩, ⟨.symbol .rightParen, ⟨8, 9⟩⟩] 5 := by
      simp [InText, Span.Inside]
    exact (hCuts 5 (.inl hInside)).mpr (.inl hInside)
  · rw [hCuts 2 (.inr (by simp [InToken, Span.Inside]))]
    exact .inr (by decide)
  · rw [hCuts 1 (.inr (by simp [InToken, Span.Inside]))]
    simp [InText, Span.Inside, opened, closed, Kind.isOpening]

end Expr

end Formula
