import Formula.Proofs.Parser.Congruence
import Formula.Proofs.Parser.Reader
import Formula.Proofs.Parser.Tracks

/-! The readers of the grammar look at one token ahead at most, and depend on the limit only where
they are too deep. So a fault depends on the tokens up to its position alone, and a higher limit
changes nothing but where the parser is too deep. -/

namespace Formula.Parser

open Token

variable {α : Type}

/-! ### The steps of the grammar -/

variable {limit limit' : Nat} {nested nested' operand operand' : Parse Expr}

theorem tracks_congruence : Congruence @Tracks where
  pure := tracks_pure
  fail := tracks_fail
  noKey := tracks_fail
  peek := tracks_peek
  advance := tracks_advance
  expect := tracks_expect
  fulfil := tracks_fulfil
  bind := Tracks.bind

theorem tracks_calls : Calls @Tracks @Tracks := fun h => h

theorem Tracks.ite {p q p' q' : Parse α} (c : Bool) (ht : Tracks p q) (hf : Tracks p' q') :
    Tracks (if c then p else p') (if c then q else q') :=
  related_ite (R := @Tracks) c ht hf

theorem tracks_chainStep {op : Type} {op? : Symbol → Option op} {join : op → Expr → Expr → Expr}
    {next next' : Expr → Nat → Parse Expr} (hLimit : limit ≤ limit')
    (hOperand : Tracks operand operand') (hNext : ∀ e links, Tracks (next e links) (next' e links))
    (left : Expr) (links : Nat) :
    Tracks (chainStep limit op? join operand next left links)
      (chainStep limit' op? join operand' next' left links) := by
  refine tracks_congruence.peekSymbol.bind fun symbol? => ?_
  cases symbol?.bind op? with
  | none => exact (tracks_leave links).bind fun _ => tracks_pure left
  | some o =>
    exact tracks_advance.bind fun _ => (tracks_enter hLimit).bind fun _ =>
      (tracks_expect .expression).bind fun _ => hOperand.bind fun right =>
        tracks_fulfil.bind fun _ => hNext (join o left right) (links + 1)

theorem moreArgs_stop {n : Nat} {rest : List Kind} {position depth : Nat}
    {pending : List Expectation} (h : rest.head? ≠ some (.symbol .comma)) :
    moreArgs nested n ⟨rest, position, depth, pending⟩ =
      .ok ([], ⟨rest, position, depth, pending⟩) := by
  cases n with
  | zero => rfl
  | succ n =>
    rw [moreArgs, eat_bind_other h]
    rfl

/-- The room for arguments makes no difference, if there is one for each token. -/
theorem moreArgs_room (h : Forward nested) {n m : Nat} (rest : List Kind) (position depth : Nat)
    (pending : List Expectation) (hn : rest.length ≤ n) (hm : rest.length ≤ m) :
    moreArgs nested n ⟨rest, position, depth, pending⟩ =
      moreArgs nested m ⟨rest, position, depth, pending⟩ := by
  induction n generalizing m rest position depth pending with
  | zero =>
    obtain rfl : rest = [] := List.eq_nil_of_length_eq_zero (Nat.le_zero.mp hn)
    rw [moreArgs_stop (by simp), moreArgs_stop (by simp)]
  | succ n ih =>
    by_cases hComma : rest.head? = some (.symbol .comma)
    · obtain ⟨rest, rfl⟩ := List.head?_eq_some_iff.mp hComma
      obtain ⟨m, rfl⟩ : ∃ k, m = k + 1 := ⟨m - 1, by simp at hm; omega⟩
      rw [moreArgs, moreArgs, eat_bind, eat_bind, if_pos rfl, if_pos rfl, expect_bind, expect_bind]
      refine Steps.bind_congr fun arg s hArg => ?_
      obtain ⟨ts, hTokens, -⟩ := h.ok hArg
      -- The comma alone makes one token less for the arguments after it.
      have hLength : s.rest.length ≤ rest.length := by
        have hAll := congrArg List.length hTokens
        simp only [List.length_append] at hAll
        omega
      refine Steps.bind_congr fun _ s' hFulfil => ?_
      cases hFulfil
      exact Steps.bind_congr_left
        (ih _ _ _ _ (by simp at hn; omega) (by simp at hm; omega))
    · rw [moreArgs_stop hComma, moreArgs_stop hComma]

/-- All arguments that are left. -/
theorem tracks_allArgs (h : Tracks nested nested') {f f' : List Expr → Parse α}
    (hNext : ∀ args, Tracks (f args) (f' args)) :
    Tracks (do f (← moreArgs nested (← left)))
      (do f' (← moreArgs nested' (← left))) := by
  -- With room for the arguments of both runs, the number of tokens does not matter.
  have hRoom : ∀ {nested : Parse Expr} {f : List Expr → Parse α} (n : Nat) (s : State),
      Forward nested → s.rest.length ≤ n →
      (do f (← moreArgs nested (← left)) : Parse α) s = (moreArgs nested n >>= f) s := by
    intro nested f n s hForward hn
    rw [left_bind]
    exact Steps.bind_congr_left
      (moreArgs_room hForward s.rest s.position s.depth s.pending (Nat.le_refl _) hn)
  have hTracks : ∀ n, Tracks (moreArgs nested n >>= f) (moreArgs nested' n >>= f') := fun n =>
    (tracks_congruence.moreArgs h n).bind hNext
  refine ⟨⟨?_, ?_⟩, ⟨?_, ?_⟩, fun ts rest rest' position depth pending hHead => ?_⟩
  · intro s a s' hRun
    rw [hRoom s.rest.length s h.left (Nat.le_refl _)] at hRun
    exact (hTracks _).left.ok hRun
  · intro s fault hRun
    rw [hRoom s.rest.length s h.left (Nat.le_refl _)] at hRun
    exact (hTracks _).left.error hRun
  · intro s a s' hRun
    rw [hRoom s.rest.length s h.right (Nat.le_refl _)] at hRun
    exact (hTracks _).right.ok hRun
  · intro s fault hRun
    rw [hRoom s.rest.length s h.right (Nat.le_refl _)] at hRun
    exact (hTracks _).right.error hRun
  · rw [hRoom ((ts ++ rest).length + (ts ++ rest').length) _ h.left (Nat.le_add_right _ _),
      hRoom ((ts ++ rest).length + (ts ++ rest').length) _ h.right (Nat.le_add_left _ _)]
    exact (hTracks _).agree ts position depth pending hHead

theorem tracks_call (h : Tracks nested nested') (e : Expr) :
    Tracks (call nested e) (call nested' e) :=
  tracks_congruence.call tracks_calls e <| h.bind fun _ => tracks_allArgs h fun _ =>
    (tracks_congruence.require .rightParen).bind fun _ => tracks_pure _

theorem tracks_postfixStep {next next' : Expr → Nat → Parse Expr} (hLimit : limit ≤ limit')
    (h : Tracks nested nested') (hNext : ∀ e links, Tracks (next e links) (next' e links))
    (e : Expr) (links : Nat) :
    Tracks (postfixStep limit nested next e links) (postfixStep limit' nested' next' e links) := by
  have hLink : ∀ {p p' : Parse Expr}, Tracks p p' →
      Tracks (do enter limit; next (← p) (links + 1)) (do enter limit'; next' (← p') (links + 1)) :=
    fun hp => (tracks_enter hLimit).bind fun _ => hp.bind fun e => hNext e (links + 1)
  have hStop := (tracks_leave links).bind fun _ => tracks_pure e
  refine tracks_congruence.peekSymbol.bind fun symbol? => ?_
  cases symbol? with
  | none => exact hStop
  | some symbol =>
    cases symbol with
    | dot => exact hLink (tracks_congruence.accessor tracks_calls e)
    | leftBracket => exact hLink (tracks_congruence.index h tracks_calls e)
    | leftParen => exact hLink (tracks_call h e)
    | _ => exact hStop

theorem tracks_powerStep {exponent exponent' : Parse Expr} (hLimit : limit ≤ limit')
    (hBase : Tracks operand operand') (hExponent : Tracks exponent exponent') :
    Tracks (powerStep limit operand exponent) (powerStep limit' operand' exponent') :=
  hBase.bind fun left => (tracks_congruence.eat .doubleStar).bind fun found => .ite found
    ((tracks_enter hLimit).bind fun _ => (tracks_expect .expression).bind fun _ =>
      hExponent.bind fun right => tracks_fulfil.bind fun _ => (tracks_leave 1).bind fun _ =>
        tracks_pure (Expr.binary .pow left right))
    (tracks_pure left)

theorem tracks_ternaryStep {condition condition' : Parse Expr} (hLimit : limit ≤ limit')
    (hCondition : Tracks condition condition') (h : Tracks nested nested') :
    Tracks (ternaryStep limit condition nested) (ternaryStep limit' condition' nested') :=
  (tracks_enter hLimit).bind fun _ => hCondition.bind fun cond =>
    (tracks_congruence.eat .question).bind fun found => .ite found
      ((tracks_expect .expression).bind fun _ => h.bind fun yes =>
        (tracks_expect .colon).bind fun _ => (tracks_congruence.require .colon).bind fun _ =>
          h.bind fun no => tracks_fulfil.bind fun _ => (tracks_leave 1).bind fun _ =>
            tracks_pure (Expr.ternary cond yes no))
      ((tracks_leave 1).bind fun _ => tracks_pure cond)

/-! ### Levels -/

section

variable {m : Type → Type} [Monad m] [SmallSteps m] {nested operand : m Expr}

/-- A loop that is too deep once the levels run out. -/
def looped {ι : Type} (step : (ι → m Expr) → ι → m Expr) : Nat → ι → m Expr
  | 0 => step fun _ => tooDeep
  | levels + 1 => step (looped step levels)

theorem chainFrom_eq_looped {op : Type} {op? : Symbol → Option op}
    {join : op → Expr → Expr → Expr} (levels : Nat) (left : Expr) (links : Nat) :
    chainFrom limit op? join operand levels left links =
      looped (fun next i => chainStep limit op? join operand (fun e n => next (e, n)) i.1 i.2)
        levels (left, links) := by
  have hAll : chainFrom limit op? join operand levels = fun e n =>
      looped (fun next i => chainStep limit op? join operand (fun e n => next (e, n)) i.1 i.2)
        levels (e, n) := by
    induction levels with
    | zero => rfl
    | succ levels ih =>
      rw [chainFrom, ih]
      rfl
  rw [hAll]

theorem postfixFrom_eq_looped (levels : Nat) (e : Expr) (links : Nat) :
    postfixFrom limit nested levels e links =
      looped (fun next i => postfixStep limit nested (fun e n => next (e, n)) i.1 i.2)
        levels (e, links) := by
  have hAll : postfixFrom limit nested levels = fun e n =>
      looped (fun next i => postfixStep limit nested (fun e n => next (e, n)) i.1 i.2)
        levels (e, n) := by
    induction levels with
    | zero => rfl
    | succ levels ih =>
      rw [postfixFrom, ih]
      rfl
  rw [hAll]

theorem powers_eq_looped (levels : Nat) :
    powers limit operand levels =
      looped (fun next (_ : Unit) => called fun _ => powerStep limit operand (next ())) levels
        () := by
  induction levels with
  | zero => rfl
  | succ levels ih =>
    rw [powers, ih]
    rfl

end

/-- A loop with more levels does what one with fewer levels does. -/
theorem tracks_looped {ι : Type} {step step' : (ι → Parse Expr) → ι → Parse Expr}
    (hStep : ∀ {next next'}, (∀ i, Tracks (next i) (next' i)) →
      ∀ i, Tracks (step next i) (step' next' i))
    (hSelf : ∀ {next}, (∀ i, Tracks (next i) (next i)) → ∀ i, Tracks (step' next i) (step' next i))
    {levels levels' : Nat} (hLevels : levels ≤ levels') (i : ι) :
    Tracks (looped step levels i) (looped step' levels' i) := by
  have hForward : ∀ n i, Tracks (looped step' n i) (looped step' n i) := by
    intro n
    induction n with
    | zero => exact hSelf fun _ => tracks_tooDeep forward_tooDeep
    | succ n ih => exact hSelf ih
  -- The loop with fewer levels runs out first, and from there on the other need only go forward.
  induction levels generalizing levels' i with
  | zero =>
    cases levels' with
    | zero => exact hStep (fun _ => tracks_tooDeep forward_tooDeep) i
    | succ n => exact hStep (fun i => tracks_tooDeep (hForward n i).right) i
  | succ m ih =>
    obtain ⟨n, rfl⟩ : ∃ n, levels' = n + 1 := ⟨levels' - 1, by omega⟩
    exact hStep (fun i => ih (Nat.le_of_succ_le_succ hLevels) i) i

variable {levels levels' : Nat}

theorem tracks_chain {op : Type} {op? : Symbol → Option op} {join : op → Expr → Expr → Expr}
    (hLimit : limit ≤ limit') (hLevels : levels ≤ levels') (hOperand : Tracks operand operand')
    (hSelf : Tracks operand' operand') :
    Tracks (chain limit levels op? join operand) (chain limit' levels' op? join operand') := by
  refine hOperand.bind fun left => ?_
  rw [chainFrom_eq_looped, chainFrom_eq_looped]
  exact tracks_looped
    (fun hNext i => tracks_chainStep hLimit hOperand (fun e n => hNext (e, n)) i.1 i.2)
    (fun hNext i => tracks_chainStep (Nat.le_refl _) hSelf (fun e n => hNext (e, n)) i.1 i.2)
    hLevels _

theorem tracks_postfixed (hLimit : limit ≤ limit') (hLevels : levels ≤ levels')
    (h : Tracks nested nested') (hSelf : Tracks nested' nested') :
    Tracks (postfixed limit levels nested) (postfixed limit' levels' nested') := by
  refine (tracks_congruence.primary h tracks_calls).bind fun operand => ?_
  rw [postfixFrom_eq_looped, postfixFrom_eq_looped]
  exact tracks_looped
    (fun hNext i => tracks_postfixStep hLimit h (fun e n => hNext (e, n)) i.1 i.2)
    (fun hNext i => tracks_postfixStep (Nat.le_refl _) hSelf (fun e n => hNext (e, n)) i.1 i.2)
    hLevels _

theorem tracks_powers (hLimit : limit ≤ limit') (hLevels : levels ≤ levels')
    (hBase : Tracks operand operand') (hSelf : Tracks operand' operand') :
    Tracks (powers limit operand levels) (powers limit' operand' levels') := by
  rw [powers_eq_looped, powers_eq_looped]
  exact tracks_looped (fun hNext _ => tracks_powerStep hLimit hBase (hNext ()))
    (fun hNext _ => tracks_powerStep (Nat.le_refl _) hSelf (hNext ())) hLevels _

/-- The readers of a rung keep up with those of a higher limit, and with themselves. -/
def KeepsUp (limit limit' levels levels' : Nat) (r : Rung) : Prop :=
  Tracks (reader limit levels r) (reader limit' levels' r) ∧
    Tracks (reader limit' levels' r) (reader limit' levels' r)

/-- If the readers of nested expressions keep up, so do those of all rungs. -/
theorem keepsUp_of_nested (hLimit : limit ≤ limit') (hLevels : levels ≤ levels')
    (hNested : KeepsUp limit limit' levels levels' .ternary) (r : Rung) :
    KeepsUp limit limit' levels levels' r := by
  obtain ⟨h, hSelf⟩ : Tracks (ternary limit levels) (ternary limit' levels') ∧
    Tracks (ternary limit' levels') (ternary limit' levels') := hNested
  have hChain : ∀ r : Rung, r.IsChain → KeepsUp limit limit' levels levels' r.next →
      KeepsUp limit limit' levels levels' r := by
    rintro r hr ⟨hOperand, hOperandSelf⟩
    unfold KeepsUp
    rw [hr.reader, hr.reader]
    exact ⟨tracks_chain hLimit hLevels hOperand hOperandSelf,
      tracks_chain (Nat.le_refl _) (Nat.le_refl _) hOperandSelf hOperandSelf⟩
  have hPrimary : KeepsUp limit limit' levels levels' .primary :=
    ⟨tracks_congruence.primary h tracks_calls, tracks_congruence.primary hSelf tracks_calls⟩
  have hPostfixed : KeepsUp limit limit' levels levels' .postfixed :=
    ⟨tracks_postfixed hLimit hLevels h hSelf,
      tracks_postfixed (Nat.le_refl _) (Nat.le_refl _) hSelf hSelf⟩
  have hPower : KeepsUp limit limit' levels levels' .power :=
    ⟨tracks_powers hLimit hLevels hPostfixed.1 hPostfixed.2,
      tracks_powers (Nat.le_refl _) (Nat.le_refl _) hPostfixed.2 hPostfixed.2⟩
  by_cases hr : r = .ternary
  · subst hr
    exact ⟨h, hSelf⟩
  · refine Rung.climb hPrimary hPostfixed hPower (fun hp => ?_) (fun hc => ?_) hChain r hr
    · exact ⟨tracks_congruence.unary tracks_calls hp.1, tracks_congruence.unary tracks_calls hp.2⟩
    · exact ⟨tracks_congruence.negation tracks_calls hc.1,
        tracks_congruence.negation tracks_calls hc.2⟩

/-- The readers of a rung do the same on tokens that begin alike, whatever the limit. -/
theorem tracks_reader (hLimit : limit ≤ limit') (hLevels : levels ≤ levels') (r : Rung) :
    Tracks (reader limit levels r) (reader limit' levels' r) := by
  have hTernary : ∀ {levels levels' : Nat}, levels ≤ levels' →
      ∀ {limit limit' : Nat}, limit ≤ limit' →
        Tracks (ternary limit levels) (ternary limit' levels') := by
    intro levels levels' hLevels
    induction levels' generalizing levels with
    | zero =>
      intro limit limit' _
      obtain rfl : levels = 0 := Nat.le_zero.mp hLevels
      exact tracks_tooDeep forward_tooDeep
    | succ n ih =>
      have hStep : ∀ {m limit limit' : Nat}, m ≤ n → limit ≤ limit' →
          Tracks (ternary limit (m + 1)) (ternary limit' (n + 1)) := by
        intro m limit limit' hm hLimit
        have hNested := ih hm hLimit
        have hSelf := ih (Nat.le_refl n) (Nat.le_refl limit')
        exact tracks_ternaryStep hLimit
          (keepsUp_of_nested hLimit hm ⟨hNested, hSelf⟩ .disjunction).1 hNested
      intro limit limit' hLimit
      cases levels with
      | zero => exact tracks_tooDeep (hStep (Nat.le_refl n) (Nat.le_refl limit')).right
      | succ m => exact hStep (Nat.le_of_succ_le_succ hLevels) hLimit
  exact (keepsUp_of_nested hLimit hLevels
    ⟨hTernary hLevels hLimit, hTernary (Nat.le_refl _) (Nat.le_refl _)⟩ r).1

theorem tracks_complete (hLimit : limit ≤ limit') :
    Tracks (complete limit limit) (complete limit' limit') := by
  refine (tracks_reader hLimit hLimit .ternary).bind fun e => tracks_peek.bind fun next? => ?_
  split
  · exact tracks_pure e
  · exact tracks_fail

/-! ### Whole runs -/

/-- Two runs on the same tokens. -/
theorem Tracks.agree_same {p q : Parse α} (h : Tracks p q) (s : State) :
    Agree (s.position + s.rest.length) [] [] (p s) (q s) := by
  have hAgree := h.agree s.rest s.position s.depth s.pending (Eq.refl ([] : List Kind).head?)
  rwa [List.append_nil] at hAgree

variable {kinds : List Kind} {fault : Fault}

theorem parse_eq_error :
    parse limit kinds = .error fault ↔
      (complete limit limit : Parse Expr) ⟨kinds, 0, 0, []⟩ = .error fault := by
  unfold parse
  cases (complete limit limit : Parse Expr) ⟨kinds, 0, 0, []⟩ <;> simp [Except.map]

theorem parse_eq_ok {e : Expr} :
    parse limit kinds = .ok e ↔
      ∃ s, (complete limit limit : Parse Expr) ⟨kinds, 0, 0, []⟩ = .ok (e, s) := by
  unfold parse
  cases (complete limit limit : Parse Expr) ⟨kinds, 0, 0, []⟩ with
  | error fault => simp [Except.map]
  | ok out =>
    obtain ⟨tree, s⟩ := out
    simp [Except.map]

/-- A fault is at one of the tokens or at the end. -/
theorem position_le_of_parse (h : parse limit kinds = .error fault) :
    fault.position ≤ kinds.length := by
  have hBounds := (tracks_complete (Nat.le_refl limit)).left.error (parse_eq_error.mp h)
  simpa using hBounds.2

/-- A higher limit does not change what the parser gives. -/
theorem parse_ok_mono (hLimit : limit ≤ limit') {e : Expr} (h : parse limit kinds = .ok e) :
    parse limit' kinds = .ok e := by
  obtain ⟨s, hRun⟩ := parse_eq_ok.mp h
  have hAgree := (tracks_complete hLimit).agree_same ⟨kinds, 0, 0, []⟩
  exact parse_eq_ok.mpr ⟨_, hAgree.ok hRun (List.append_nil _).symm⟩

/-- A fault other than a nesting that is too deep remains if the limit is raised and the tokens
after it change. -/
theorem parse_error_mono (hLimit : limit ≤ limit') {ts rest rest' : List Kind}
    (hRest : rest.head? = rest'.head?) (h : parse limit (ts ++ rest) = .error fault)
    (hFault : fault.isTooDeep = false) (hPosition : fault.position ≤ ts.length) :
    parse limit' (ts ++ rest') = .error fault := by
  have hAgree := (tracks_complete hLimit).agree ts 0 0 [] hRest
  exact parse_eq_error.mpr (hAgree.error (parse_eq_error.mp h) hFault (by omega))

/-- With a higher limit the parser is not too deep earlier. -/
theorem tooDeep_mono (hLimit : limit ≤ limit') {n n' : Nat}
    (h : parse limit kinds = .error (.tooDeep n)) (h' : parse limit' kinds = .error (.tooDeep n')) :
    n ≤ n' := by
  have hAgree := (tracks_complete hLimit).agree_same ⟨kinds, 0, 0, []⟩
  have hLater := hAgree.tooDeep (parse_eq_error.mp h) (by
    have hBound : n ≤ kinds.length := position_le_of_parse h
    simpa using hBound)
  rw [parse_eq_error.mp h'] at hLater
  exact hLater

end Formula.Parser
