import Formula.Proofs.Expr.Reports
import Formula.Proofs.Parser.Faults
import Formula.Proofs.Parser.Lookahead
import Formula.Proofs.Token.LongestMatch
import Mathlib.Data.Nat.Find

/-! The limit on nesting is a threshold: below the number of levels that a source needs, it is too
deep, and from there on the limit does not matter. -/

namespace Formula

open Token

namespace Parser

variable {limit limit' : Nat} {kinds : List Kind}

/-- Whether tokens are nested too deep for `limit`. -/
def isTooDeep (limit : Nat) (kinds : List Kind) : Bool :=
  match parse limit kinds with
  | .ok _ => false
  | .error fault => fault.isTooDeep

theorem isTooDeep_eq_true :
    isTooDeep limit kinds = true ↔ ∃ n, parse limit kinds = .error (.tooDeep n) := by
  unfold isTooDeep
  rcases parse limit kinds with (_ | _ | _) | _ <;> simp [Fault.isTooDeep]

/-- Where tokens are not nested too deep, a higher limit makes no difference. -/
theorem parse_eq_of_le (hLimit : limit ≤ limit') (h : isTooDeep limit kinds = false) :
    parse limit' kinds = parse limit kinds := by
  unfold isTooDeep at h
  cases hParse : parse limit kinds with
  | ok e => exact parse_ok_mono hLimit hParse
  | error fault =>
    rw [hParse] at h
    have hRun := parse_error_mono hLimit (Eq.refl ([] : List Kind).head?)
      (by rwa [List.append_nil]) h (position_le_of_parse hParse)
    rwa [List.append_nil] at hRun

/-- Without any levels, the first token is too deep. -/
theorem isTooDeep_zero (kinds : List Kind) : isTooDeep 0 kinds = true :=
  isTooDeep_eq_true.mpr ⟨0, rfl⟩

theorem exists_not_tooDeep (kinds : List Kind) : ∃ limit, isTooDeep limit kinds = false := by
  refine ⟨2 * kinds.length + 2, ?_⟩
  rw [← Bool.not_eq_true, isTooDeep_eq_true]
  rintro ⟨n, h⟩
  have hLimit := limit_le_of_tooDeep h
  omega

/-- The number of levels that tokens need. -/
def needed (kinds : List Kind) : Nat := Nat.find (exists_not_tooDeep kinds)

theorem isTooDeep_iff : isTooDeep limit kinds = true ↔ limit < needed kinds := by
  constructor
  · intro h
    by_contra hLimit
    have hNeeded : isTooDeep (needed kinds) kinds = false :=
      Nat.find_spec (exists_not_tooDeep kinds)
    have hParse := parse_eq_of_le (Nat.le_of_not_lt hLimit) hNeeded
    unfold isTooDeep at h hNeeded
    rw [hParse, hNeeded] at h
    cases h
  · intro hLimit
    have hDeep := Nat.find_min (exists_not_tooDeep kinds) hLimit
    simpa using hDeep

theorem needed_pos (kinds : List Kind) : 1 ≤ needed kinds :=
  isTooDeep_iff.mp (isTooDeep_zero kinds)

/-! ### Reports -/

/-- The message for tokens that are nested too deep for `limit`. -/
def nestingMessage (limit : Nat) : String := (Fault.tooDeep 0).message limit

namespace Fault

variable {fault : Fault}

/-- A message that another text follows starts with the same characters. -/
theorem getElem?_message {start : String} (rest : String) {n : Nat} (h : n < start.toList.length) :
    (start ++ rest).toList[n]? = start.toList[n]? := by
  rw [String.toList_append, List.getElem?_append_left h]

/-- Only a nesting that is too deep is reported as such. -/
theorem message_ne_nesting (h : fault.isTooDeep = false) (limit limit' : Nat) :
    fault.message limit ≠ nestingMessage limit' := by
  -- Messages are told apart by the fifth character.
  have hNesting : (nestingMessage limit').toList[4]? = some 'e' := by
    show (("Expression nesting depth exceeds maximum of " ++ toString limit') ++
      " levels").toList[4]? = _
    rw [String.append_assoc, getElem?_message _ (by decide)]
    decide
  intro hMessage
  rw [← hMessage] at hNesting
  cases fault with
  | tooDeep n => cases h
  | unexpected n =>
    have hUnexpected : "Unexpected token encountered while parsing".toList[4]? ≠ some 'e' := by
      decide
    exact hUnexpected hNesting
  | expected what n =>
    have hExpected : ((Fault.expected what n).message limit).toList[4]? = some 'c' := by
      show (("Expected '" ++ what.text) ++ "' was not found").toList[4]? = _
      rw [String.append_assoc, getElem?_message _ (by decide)]
      decide
    rw [hExpected] at hNesting
    cases hNesting

theorem message_eq (h : fault.isTooDeep = false) (limit limit' : Nat) :
    fault.message limit = fault.message limit' := by
  cases fault with
  | tooDeep n => cases h
  | unexpected n | expected what n => rfl

/-- Where the token at `position` starts, or a source of `length` characters ends. -/
def startAt (length : Nat) (found : List Token) (position : Nat) : Nat :=
  match found[position]? with
  | some token => token.span.start
  | none => length

variable {length : Nat} {found : List Token}

theorem head?_offsetsAt (hSpans : ∀ t ∈ found, t.span.start ≤ t.span.stop) (position : Nat) :
    (offsetsAt found position [length]).head? = some (startAt length found position) := by
  unfold offsetsAt startAt
  cases hToken : found[position]? with
  | none => rfl
  | some token => exact Span.head?_offsets (hSpans token (List.mem_of_getElem? hToken))

theorem startAt_mono (hOrder : found.Pairwise (·.span.start < ·.span.start))
    (hInside : ∀ t ∈ found, t.span.start < length) {position position' : Nat}
    (h : position ≤ position') :
    startAt length found position ≤ startAt length found position' := by
  unfold startAt
  rcases Nat.eq_or_lt_of_le h with rfl | hLt
  · exact Nat.le_refl _
  · cases hToken' : found[position']? with
    | none =>
      cases hToken : found[position]? with
      | none => exact Nat.le_refl _
      | some token => exact Nat.le_of_lt (hInside token (List.mem_of_getElem? hToken))
    | some token' =>
      obtain ⟨hBound', rfl⟩ := List.getElem?_eq_some_iff.mp hToken'
      rw [List.getElem?_eq_getElem (hLt.trans hBound')]
      exact Nat.le_of_lt (List.pairwise_iff_getElem.mp hOrder _ _ _ _ hLt)

end Fault

end Parser

namespace Expr

open Formula.Parser

section

variable {limit limit' : Nat} {source : String} {found : List Token}

variable (hTokens : Lexer.tokens source.toList = .ok found)
include hTokens

theorem parse_of_tooDeep {n : Nat}
    (h : Parser.parse limit (found.map (·.kind)) = .error (.tooDeep n)) :
    ∃ report, parse limit source = .error report ∧ report.message = nestingMessage limit ∧
      report.offsets.head? = some (Fault.startAt source.toList.length found n) := by
  have hSpans := (Lexer.tokens_ordered hTokens).2
  refine ⟨_, by rw [parse_of_tokens hTokens, h], rfl, ?_⟩
  rw [Fault.offsets_report]
  exact Fault.head?_offsetsAt (fun t hMem => (hSpans t hMem).1) n

/-- Where a source is not nested too deep, it is given or reported alike within any other limit of
which that is so. -/
theorem parse_congr (hDeep : isTooDeep limit (found.map (·.kind)) = false)
    (h : Parser.parse limit' (found.map (·.kind)) = Parser.parse limit (found.map (·.kind))) :
    parse limit' source = parse limit source := by
  rw [parse_of_tokens hTokens, parse_of_tokens hTokens, h]
  unfold isTooDeep at hDeep
  cases hParse : Parser.parse limit (found.map (·.kind)) with
  | ok e => rfl
  | error fault =>
    rw [hParse] at hDeep
    show Except.error (fault.report limit' source found) = .error (fault.report limit source found)
    rw [Fault.report, Fault.message_eq hDeep limit' limit, Fault.report]

theorem message_of_parse (hDeep : isTooDeep limit (found.map (·.kind)) = false)
    {report : SyntaxError} (h : parse limit source = .error report) :
    report.message ≠ nestingMessage limit' := by
  rw [parse_of_tokens hTokens] at h
  unfold isTooDeep at hDeep
  cases hParse : Parser.parse limit (found.map (·.kind)) with
  | ok e =>
    rw [hParse] at h
    cases h
  | error fault =>
    rw [hParse] at h hDeep
    cases h
    exact Fault.message_ne_nesting hDeep limit limit'

end

/-- The limit on nesting is a threshold. A source that has tokens needs a number of levels: within
any limit from there on it is given or reported alike, and not for its nesting, and within any lower
limit its nesting is reported, not earlier the higher the limit is. A source without tokens is
reported alike within any limit. -/
theorem parse_threshold (source : String) :
    (∀ found, Lexer.tokens source.toList = .ok found →
      ∃ (levels : Nat) (outcome : Except SyntaxError Expr) (first : Nat → Nat),
        1 ≤ levels ∧
        (∀ limit, levels ≤ limit → parse limit source = outcome) ∧
        (∀ report, outcome = .error report → ∀ limit, report.message ≠ nestingMessage limit) ∧
        (∀ limit, limit < levels → ∃ report, parse limit source = .error report ∧
          report.message = nestingMessage limit ∧ report.offsets.head? = some (first limit)) ∧
        ∀ limit limit', limit ≤ limit' → limit' < levels → first limit ≤ first limit') ∧
    ∀ fault, Lexer.tokens source.toList = .error fault →
      ∀ limit, parse limit source = .error (fault.toSyntaxError source) := by
  refine ⟨fun found hTokens => ?_, fun fault hFault => parse_of_fault hFault⟩
  let kinds := found.map (·.kind)
  have hNeeded : isTooDeep (needed kinds) kinds = false := by
    rw [← Bool.not_eq_true, isTooDeep_iff]
    exact Nat.lt_irrefl _
  have hDeep : ∀ limit, ∃ n, limit < needed kinds →
      Parser.parse limit kinds = .error (.tooDeep n) := by
    intro limit
    by_cases hLimit : limit < needed kinds
    · obtain ⟨n, hParse⟩ := isTooDeep_eq_true.mp (isTooDeep_iff.mpr hLimit)
      exact ⟨n, fun _ => hParse⟩
    · exact ⟨0, fun h => absurd h hLimit⟩
  choose position hPosition using hDeep
  obtain ⟨hOrder, hInside⟩ := Lexer.tokens_ordered hTokens
  refine ⟨needed kinds, parse (needed kinds) source,
    fun limit => Fault.startAt source.toList.length found (position limit), needed_pos kinds,
    fun limit hLimit => parse_congr hTokens hNeeded (parse_eq_of_le hLimit hNeeded),
    fun report hReport limit => message_of_parse hTokens hNeeded hReport,
    fun limit hLimit => parse_of_tooDeep hTokens (hPosition limit hLimit), ?_⟩
  intro limit limit' hLe hLimit'
  exact Fault.startAt_mono hOrder (fun t hMem => (hInside t hMem).2)
    (tooDeep_mono hLe (hPosition limit (hLe.trans_lt hLimit')) (hPosition limit' hLimit'))

end Expr

end Formula
