import Mathlib.Control.Monad.Basic
import Formula.Proofs.Parser.Blame
import Formula.Proofs.Token.Layout

/-! The layout of a source does not matter. The parser sees the kinds of the tokens alone, so a
source that is laid out anew is parsed to the same tree, or reported with the same message at the
same token. -/

namespace Formula

open Token Lexer

namespace Parser

variable {limit length length' : Nat} {found found' : List Token} {fault : Fault}

/-- Offsets that point at the same place of two lists of tokens, in sources of the given lengths: at
one token, at the start where there are no tokens, or behind the last token, where the limit on
nesting is passed. -/
inductive PointsAlike (limit length length' : Nat) (found found' : List Token) :
    List Nat → List Nat → Prop
  | token {i : Nat} {t t' : Token} (h : found[i]? = some t) (h' : found'[i]? = some t') :
      PointsAlike limit length length' found found' t.span.offsets t'.span.offsets
  | start (noTokens : found = []) (limited : limit ≠ 0) :
      PointsAlike limit length length' found found' [0] [0]
  | behind (h : parse limit (found.map (·.kind)) = .error (.tooDeep found.length)) :
      PointsAlike limit length length' found found' [length] [length']

theorem Fault.offsets_tooDeep {t : Token} {k : Nat} (h : found[k]? = some t) (length : Nat) :
    (tooDeep k).offsets length found = t.span.offsets := by
  simp only [offsets, offsetsAt, h]

theorem Fault.offsets_tooDeep_end {k : Nat} (h : found.length = k) (length : Nat) :
    (tooDeep k).offsets length found = [length] := by
  simp only [offsets, offsetsAt, List.getElem?_eq_none h.le]

/-- A fault points at the same place of two lists of tokens of the same kinds. -/
theorem pointsAlike_of_fault (hKinds : found'.map (·.kind) = found.map (·.kind))
    (h : parse limit (found.map (·.kind)) = .error fault) :
    PointsAlike limit length length' found found' (fault.offsets length found)
      (fault.offsets length' found') := by
  have hLength : found'.length = found.length := by simpa using congrArg List.length hKinds
  have hPartner : ∀ {i : Nat}, i < found.length →
      ∃ t t', found[i]? = some t ∧ found'[i]? = some t' := by
    intro i hi
    exact ⟨_, _, List.getElem?_eq_getElem hi, List.getElem?_eq_getElem (hLength ▸ hi)⟩
  have hEnd : fault.position ≤ found.length := by simpa using position_le_of_parse h
  cases fault with
  | unexpected k =>
    rcases accepted_of_unexpected h with rfl | ⟨ts, next, rest, hSplit, rfl, -⟩
    · cases found with
      | nil =>
        obtain rfl := List.eq_nil_of_length_eq_zero hLength
        apply PointsAlike.start rfl
        rintro rfl
        cases h
      | cons first found =>
        obtain ⟨t, t', ht, ht'⟩ := hPartner (Nat.zero_lt_succ found.length)
        rw [Fault.offsets_unexpected ht, Fault.offsets_unexpected ht']
        exact .token ht ht'
    · have hInside : ts.length < found.length := by
        have hCount := congrArg List.length hSplit
        rw [List.length_map, List.length_append, List.length_cons] at hCount
        omega
      obtain ⟨t, t', ht, ht'⟩ := hPartner hInside
      rw [Fault.offsets_unexpected ht, Fault.offsets_unexpected ht']
      exact .token ht ht'
  | expected what k =>
    have hPos := pos_of_expected h
    have hInside : k ≤ found.length := hEnd
    obtain ⟨last, rfl⟩ : ∃ last, k = last + 1 := ⟨k - 1, by omega⟩
    obtain ⟨t, t', ht, ht'⟩ := hPartner hInside
    rw [Fault.offsets_expected ht, Fault.offsets_expected ht']
    exact .token ht ht'
  | tooDeep k =>
    have hInside : k ≤ found.length := hEnd
    rcases Nat.lt_or_eq_of_le hInside with hLess | rfl
    · obtain ⟨t, t', ht, ht'⟩ := hPartner hLess
      rw [Fault.offsets_tooDeep ht, Fault.offsets_tooDeep ht']
      exact .token ht ht'
    · rw [Fault.offsets_tooDeep_end rfl, Fault.offsets_tooDeep_end hLength]
      exact .behind h

end Parser

namespace Expr

open Formula.Parser

variable {source source' : String} {found found' : List Token}

/-- Sources with tokens of the same kinds are parsed to the same tree, or reported with the same
message at the same place. -/
theorem parse_alike (h : tokens source.toList = .ok found) (h' : tokens source'.toList = .ok found')
    (hKinds : found'.map (·.kind) = found.map (·.kind)) (limit : Nat) :
    (∃ e, parse limit source = .ok e ∧ parse limit source' = .ok e) ∨
    ∃ report report', parse limit source = .error report ∧ parse limit source' = .error report' ∧
      report'.message = report.message ∧ PointsAlike limit source.toList.length
        source'.toList.length found found' report.offsets report'.offsets := by
  rw [parse_of_tokens h, parse_of_tokens h', hKinds]
  cases hParse : Parser.parse limit (found.map (·.kind)) with
  | ok e => exact .inl ⟨e, rfl, rfl⟩
  | error fault =>
    refine .inr ⟨_, _, rfl, rfl, rfl, ?_⟩
    rw [Fault.offsets_report, Fault.offsets_report]
    exact pointsAlike_of_fault hKinds hParse

/-- Layout does not matter. However white space is put between the texts of the tokens of a source,
so that it keeps them apart, the tokens are of the same kinds, each at the text that it had, and
within any limit the source is parsed to the same tree, or reported with the same message at the
same token. -/
theorem parse_laidOut (h : tokens source.toList = .ok found) {gap : Nat → List Char}
    (hSpaces : Spaces gap found.length) :
    let texts := found.map (·.span.text source.toList)
    let source' := String.ofList (laidOut gap texts)
    ∃ found', tokens source'.toList = .ok found' ∧
      found'.map (·.kind) = found.map (·.kind) ∧
      (∀ i t t', found[i]? = some t → found'[i]? = some t' →
        let before := laidOut gap (texts.take i)
        let text := t.span.text source.toList
        t'.span = ⟨before.length, before.length + text.length⟩ ∧
          t'.span.text source'.toList = text) ∧
      ∀ limit,
        (∃ e, parse limit source = .ok e ∧ parse limit source' = .ok e) ∨
        ∃ report report', parse limit source = .error report ∧
          parse limit source' = .error report' ∧ report'.message = report.message ∧
          PointsAlike limit source.toList.length source'.toList.length found found'
            report.offsets report'.offsets := by
  intro texts source'
  have hTokens := tokens_laidOut h hSpaces
  rw [← String.toList_ofList (l := laidOut gap _)] at hTokens
  have hKinds := kinds_placed gap (·.span.text source.toList) 0 found
  refine ⟨_, hTokens, hKinds, ?_, parse_alike h hTokens hKinds⟩
  intro i t t' ht ht' before text
  have hText : texts[i]? = some text := by
    rw [List.getElem?_map, ht]
    rfl
  have hSpan : t'.span = ⟨before.length, before.length + text.length⟩ := by
    rw [getElem?_placed, ht] at ht'
    cases ht'
    simp only [Nat.zero_add]
    rfl
  obtain ⟨after, hAfter⟩ := @laidOut_eq gap texts i text hText
  refine ⟨hSpan, ?_⟩
  rw [hSpan, String.toList_ofList, hAfter]
  exact Span.text_append before text after

/-- With a tab and an ideographic space between its tokens, `x<'a b'*12` has the same trees, and the
space inside the quotes stays. -/
theorem parse_laidOut_wide :
    let source := "x<'a b'*12"
    let found : List Token := [⟨.name "x", ⟨0, 1⟩⟩, ⟨.symbol .less, ⟨1, 2⟩⟩, ⟨.str "a b", ⟨2, 7⟩⟩,
      ⟨.symbol .star, ⟨7, 8⟩⟩, ⟨.int 12, ⟨8, 10⟩⟩]
    let gap := fun i : Nat => if i = 0 then [] else ['\t', '\u3000']
    let source' := "x\t\u3000<\t\u3000'a b'\t\u3000*\t\u300012\t\u3000"
    tokens source.toList = .ok found ∧ Spaces gap found.length ∧
      (∃ found', tokens source'.toList = .ok found' ∧
        found'.map (·.kind) = found.map (·.kind)) ∧
      ∀ limit e, parse limit source = .ok e → parse limit source' = .ok e := by
  intro source found gap source'
  have hFound : tokens source.toList = .ok found := by decide +kernel
  have hSpaces : Spaces gap found.length := by
    constructor
    · intro i _ c hc
      have hWhite : c = '\t' ∨ c = '\u3000' := by
        by_cases hFirst : i = 0 <;> simp [gap, hFirst] at hc
        exact hc
      rcases hWhite with rfl | rfl <;> decide
    · intro i hPos _
      have hGap : gap i = ['\t', '\u3000'] := if_neg (Nat.ne_of_gt hPos)
      simp [hGap]
  have hText : String.ofList (laidOut gap (found.map (·.span.text source.toList))) = source' := by
    decide +kernel
  obtain ⟨found', hTokens, hKinds, -, hParses⟩ := parse_laidOut hFound hSpaces
  rw [hText] at hTokens hParses
  refine ⟨hFound, hSpaces, ⟨found', hTokens, hKinds⟩, fun limit e he => ?_⟩
  rcases hParses limit with ⟨e', he', hSame⟩ | ⟨report, -, hError, -⟩
  · rw [he] at he'
    cases he'
    exact hSame
  · rw [he] at hError
    cases hError

end Expr

end Formula
