import Formula.Proofs.Expr.Reports
import Formula.Proofs.Parser.Exactness
import Formula.Proofs.Parser.Faults

/-! Where the parser points at a fault other than nesting. The tokens in front of the position of
the fault begin an expression, and with the next token they do not. If they are an expression, or
there are none, the next token is unexpected. Otherwise something is expected after the last of
them. -/

namespace Formula.Parser

open Token Grammar

variable {limit : Nat} {kinds ts rest : List Kind} {fault : Fault}

/-- A fault remains if the limit is raised and the tokens after the next one change. -/
theorem fault_stays (h : parse limit (ts ++ rest) = .error fault)
    (hNesting : fault.isTooDeep = false) (hPosition : fault.position = ts.length)
    {rest' : List Kind} (hRest : rest.head? = rest'.head?) {limit' : Nat}
    (hLimit : limit ≤ limit') :
    parse limit' (ts ++ rest') = .error fault :=
  parse_error_mono hLimit hRest h hNesting (Nat.le_of_eq hPosition)

theorem not_accepted_of_fault (h : parse limit (ts ++ rest) = .error fault)
    (hNesting : fault.isTooDeep = false) (hPosition : fault.position = ts.length)
    {rest' : List Kind} (hRest : rest.head? = rest'.head?) : ¬Accepted (ts ++ rest') := by
  rintro ⟨e, he⟩
  have hFault := fault_stays h hNesting hPosition hRest
    (Nat.le_max_left limit (2 * (ts ++ rest').length + 1))
  rw [parse_of_derives he (Nat.le_max_right _ _)] at hFault
  cases hFault

/-- The next token is none that goes on. -/
theorem not_viable_of_fault {k : Kind} (h : parse limit (ts ++ k :: rest) = .error fault)
    (hNesting : fault.isTooDeep = false) (hPosition : fault.position = ts.length) :
    ¬Viable (ts ++ [k]) := by
  rintro ⟨more, hAccepted⟩
  have hHead : (k :: rest).head? = (k :: more).head? := rfl
  rw [List.append_assoc, List.singleton_append] at hAccepted
  exact not_accepted_of_fault h hNesting hPosition hHead hAccepted

/-- What comes before a fault begins an expression. -/
theorem viable_of_fault (h : parse limit kinds = .error fault)
    (hNesting : fault.isTooDeep = false) :
    ∃ ts rest, kinds = ts ++ rest ∧ fault.position = ts.length ∧ Viable ts := by
  rcases fault_of_parse h with hFault | ⟨ts, k, rest, rfl, hAccepted, rfl⟩
  · cases fault with
    | tooDeep n => cases hNesting
    | unexpected n =>
      have hName : Accepted [.name "x"] := ⟨_, derives_name .ternary "x"⟩
      exact ⟨[], kinds, rfl, hFault.2, .of_append [.name "x"] hName.viable⟩
    | expected what n =>
      obtain ⟨ts, ⟨rest, rfl⟩, hPosition, hViable, -⟩ := hFault
      exact ⟨ts, rest, rfl, hPosition.trans (Nat.zero_add _), hViable⟩
  · exact ⟨ts, k :: rest, rfl, rfl, hAccepted.viable⟩

/-- A token is unexpected at the start or after an expression. -/
theorem accepted_of_unexpected {n : Nat} (h : parse limit kinds = .error (.unexpected n)) :
    n = 0 ∨ ∃ ts k rest, kinds = ts ++ k :: rest ∧ n = ts.length ∧ Accepted ts := by
  rcases fault_of_parse h with ⟨-, hStart⟩ | ⟨ts, k, rest, rfl, hAccepted, hFault⟩
  · exact .inl hStart
  · cases hFault
    exact .inr ⟨ts, k, rest, rfl, rfl, hAccepted⟩

/-- Where an expression ends, a token that cannot follow it is unexpected. -/
theorem parse_of_accepted {k : Kind} {e : Expr} (h : Derives .ternary ts e)
    (hEnds : Rung.ternary.Ends (k :: rest)) :
    parse (2 * (ts ++ k :: rest).length + 1) (ts ++ k :: rest) =
      .error (.unexpected ts.length) := by
  have hRun := ternary_of_derives h hEnds (Nat.le_refl _)
  rw [parse_eq_error, complete, Steps.bind_eq hRun, peek_bind, Nat.zero_add]
  rfl

/-- Something is expected only where the tokens so far are no expression. -/
theorem not_accepted_of_expected {what : Expectation} {n : Nat}
    (h : parse limit (ts ++ rest) = .error (.expected what n)) (hPosition : n = ts.length) :
    ¬Accepted ts := by
  rintro ⟨e, he⟩
  cases rest with
  | nil =>
    exact not_accepted_of_fault h rfl hPosition (Eq.refl ([] : List Kind).head?)
      ⟨e, by rwa [List.append_nil]⟩
  | cons k rest =>
    by_cases hEnds : Rung.ternary.Ends (k :: rest)
    · -- The expression would be read, and the token after it would be unexpected.
      have hFault := fault_stays h rfl hPosition (Eq.refl (k :: rest).head?)
        (Nat.le_max_left limit (2 * (ts ++ k :: rest).length + 1))
      have hUnexpected := parse_error_mono
        (Nat.le_max_right limit (2 * (ts ++ k :: rest).length + 1)) (Eq.refl (k :: rest).head?)
        (parse_of_accepted he hEnds) rfl (Nat.le_refl ts.length)
      rw [hFault] at hUnexpected
      cases hUnexpected
    · -- The token would go on with the expression.
      obtain ⟨s, hs, r, hFollows, -⟩ : ∃ s, (k :: rest).head? = some (.symbol s) ∧
          ∃ r, Rung.follows? s = some r ∧ Rung.ternary.place ≤ r.place := by
        simpa [Rung.Ends] using hEnds
      cases hs
      obtain ⟨more, e', he'⟩ := he.continued hFollows (Nat.zero_le _)
      have hViable : Viable (ts ++ [Kind.symbol s]) := ⟨more, e', by simpa using he'⟩
      exact not_viable_of_fault h rfl hPosition hViable

theorem pos_of_expected {what : Expectation} {n : Nat}
    (h : parse limit kinds = .error (.expected what n)) : 0 < n := by
  rcases fault_of_parse h with ⟨ts, -, rfl, -, hne⟩ | ⟨_, _, _, _, _, ⟨⟩⟩
  rw [List.length_nil, Nat.zero_add]
  exact List.length_pos_iff.mpr (hne rfl)

/-! ### Tokens with their places -/

section

variable {tokens : List Token} {k : Nat}

theorem misfit_of_fault (h : parse limit (tokens.map (·.kind)) = .error fault)
    (hNesting : fault.isTooDeep = false) :
    Viable ((tokens.take fault.position).map (·.kind)) ∧
    (fault.position < tokens.length →
      ¬Viable ((tokens.take (fault.position + 1)).map (·.kind))) := by
  obtain ⟨ts, rest, hKinds, hPosition, hViable⟩ := viable_of_fault h hNesting
  rw [List.map_take, List.map_take, hKinds, hPosition, List.take_left]
  refine ⟨hViable, fun hNext => ?_⟩
  cases rest with
  | nil =>
    have hLength := congrArg List.length hKinds
    rw [List.append_nil, List.length_map] at hLength
    omega
  | cons k rest =>
    rw [List.take_length_add_append]
    rw [hKinds] at h
    exact not_viable_of_fault h hNesting hPosition

theorem report_of_unexpected
    (h : parse limit (tokens.map (·.kind)) = .error (.unexpected k)) :
    (k = 0 ∨ Accepted ((tokens.take k).map (·.kind))) ∧
    (tokens = [] ∧ (∀ source, ((Fault.unexpected k).report limit source tokens).offsets = [0]) ∨
      ∃ token, tokens[k]? = some token ∧
        ∀ source, ((Fault.unexpected k).report limit source tokens).offsets =
          token.span.offsets) := by
  have hToken : k < tokens.length → ∃ token, tokens[k]? = some token ∧
      ∀ source, ((Fault.unexpected k).report limit source tokens).offsets =
        token.span.offsets := by
    intro hNext
    have hAt : tokens[k]? = some tokens[k] := List.getElem?_eq_getElem hNext
    exact ⟨_, hAt, fun source => by rw [Fault.offsets_report, Fault.offsets_unexpected hAt]⟩
  rcases accepted_of_unexpected h with rfl | ⟨ts, next, rest, hKinds, rfl, hAccepted⟩
  · cases tokens with
    | nil => exact ⟨.inl rfl, .inl ⟨rfl, fun source => Fault.offsets_report ..⟩⟩
    | cons token tokens => exact ⟨.inl rfl, .inr (hToken (Nat.zero_lt_succ _))⟩
  · have hLength := congrArg List.length hKinds
    rw [List.length_map, List.length_append, List.length_cons] at hLength
    rw [List.map_take, hKinds, List.take_left]
    exact ⟨.inr hAccepted, .inr (hToken (by omega))⟩

theorem report_of_expected {what : Expectation}
    (h : parse limit (tokens.map (·.kind)) = .error (.expected what k)) :
    0 < k ∧ ¬Accepted ((tokens.take k).map (·.kind)) ∧
      ∃ token, tokens[k - 1]? = some token ∧
        ∀ source, ((Fault.expected what k).report limit source tokens).offsets =
          token.span.offsets := by
  have hPos := pos_of_expected h
  have hEnd : k ≤ (tokens.map (·.kind)).length := position_le_of_parse h
  rw [List.length_map] at hEnd
  obtain ⟨last, rfl⟩ : ∃ last, k = last + 1 := ⟨k - 1, by omega⟩
  obtain ⟨ts, rest, hKinds, hPosition, -⟩ := viable_of_fault h rfl
  replace hPosition : last + 1 = ts.length := hPosition
  have hAt : tokens[last]? = some tokens[last] := List.getElem?_eq_getElem hEnd
  refine ⟨hPos, ?_, tokens[last], hAt, fun source => ?_⟩
  · rw [List.map_take, hKinds, hPosition, List.take_left]
    rw [hKinds] at h
    exact not_accepted_of_expected h hPosition
  · rw [Fault.offsets_report, Fault.offsets_expected hAt]

/-- A fault other than nesting is at the first token that does not go on with those before it. That
token is unexpected, and pointed at, if those before it are an expression or there are none. If
something is expected, they are no expression, and the last of them is pointed at. -/
theorem fault_at_first_misfit (h : parse limit (tokens.map (·.kind)) = .error fault)
    (hNesting : fault.isTooDeep = false) :
    fault.position ≤ tokens.length ∧
    Viable ((tokens.take fault.position).map (·.kind)) ∧
    (fault.position < tokens.length →
      ¬Viable ((tokens.take (fault.position + 1)).map (·.kind))) ∧
    (∀ k, fault = .unexpected k →
      (k = 0 ∨ Accepted ((tokens.take k).map (·.kind))) ∧
      (tokens = [] ∧ (∀ source, (fault.report limit source tokens).offsets = [0]) ∨
        ∃ token, tokens[k]? = some token ∧
          ∀ source, (fault.report limit source tokens).offsets = token.span.offsets)) ∧
    ∀ what k, fault = .expected what k →
      0 < k ∧ ¬Accepted ((tokens.take k).map (·.kind)) ∧
        ∃ token, tokens[k - 1]? = some token ∧
          ∀ source, (fault.report limit source tokens).offsets = token.span.offsets := by
  obtain ⟨hViable, hMisfit⟩ := misfit_of_fault h hNesting
  refine ⟨by simpa using position_le_of_parse h, hViable, hMisfit, ?_, ?_⟩
  · rintro k rfl
    exact report_of_unexpected h
  · rintro what k rfl
    exact report_of_expected h

end

/-- In `x + * y`, the star is the first token that does not go on, and an expression is expected
after the plus. -/
theorem fault_at_star :
    let tokens : List Token := [⟨.name "x", ⟨0, 1⟩⟩, ⟨.symbol .plus, ⟨2, 3⟩⟩,
      ⟨.symbol .star, ⟨4, 5⟩⟩, ⟨.name "y", ⟨6, 7⟩⟩]
    Viable [.name "x", .symbol .plus] ∧ ¬Viable [.name "x", .symbol .plus, .symbol .star] ∧
      ¬Accepted [.name "x", .symbol .plus] ∧
      ((Fault.expected .expression 2).report 9 "x + * y" tokens).offsets = [2] := by
  intro tokens
  have hParse : parse 9 (tokens.map (·.kind)) = .error (.expected .expression 2) := by rfl
  obtain ⟨-, hViable, hMisfit, -, hExpected⟩ := fault_at_first_misfit hParse rfl
  obtain ⟨-, hNot, token, hToken, hReport⟩ := hExpected .expression 2 rfl
  refine ⟨hViable, hMisfit (by decide), hNot, ?_⟩
  cases hToken
  exact hReport "x + * y"

end Formula.Parser
