import Formula.Proofs.Parser.Reader

/-! What the parser reads is derived by the grammar. Each step consumes the tokens of what it
gives, and restores the levels and what was pending. -/

namespace Formula.Parser

open Grammar Steps

variable {s' : State} {tokens : List Token.Kind} {position depth : Nat}
  {pending : List Expectation}

/-- What `p` gives comes from the tokens that it consumes as `Q` says. -/
def Sound {α : Type} (p : Parse α) (Q : List Token.Kind → α → Prop) : Prop :=
  ∀ tokens position depth pending a s', p ⟨tokens, position, depth, pending⟩ = .ok (a, s') →
    ∃ ts rest, tokens = ts ++ rest ∧ s' = ⟨rest, position + ts.length, depth, pending⟩ ∧ Q ts a

/-- A step after `p` begins once the tokens of what `p` gives are consumed. -/
theorem Sound.bind_ok {α β : Type} {p : Parse α} {Q : List Token.Kind → α → Prop}
    {f : α → Parse β} {b : β} (hp : Sound p Q)
    (h : (p >>= f) ⟨tokens, position, depth, pending⟩ = .ok (b, s')) :
    ∃ ts rest a, tokens = ts ++ rest ∧ Q ts a ∧
      f a ⟨rest, position + ts.length, depth, pending⟩ = .ok (b, s') := by
  obtain ⟨a, _, hRun, h⟩ := Steps.bind_ok.mp h
  obtain ⟨ts, rest, hRest, rfl, ha⟩ := hp _ _ _ _ _ _ hRun
  exact ⟨ts, rest, a, hRest, ha, h⟩

/-- A step after `p` fails where `p` does, or once the tokens of what `p` gives are consumed. -/
theorem Sound.bind_error {α β : Type} {p : Parse α} {Q : List Token.Kind → α → Prop}
    {f : α → Parse β} {fault : Fault} (hp : Sound p Q)
    (h : (p >>= f) ⟨tokens, position, depth, pending⟩ = .error fault) :
    p ⟨tokens, position, depth, pending⟩ = .error fault ∨
      ∃ ts rest a, tokens = ts ++ rest ∧ Q ts a ∧
        f a ⟨rest, position + ts.length, depth, pending⟩ = .error fault := by
  rcases Steps.bind_error.mp h with hFail | ⟨a, _, hRun, h⟩
  · exact .inl hFail
  · obtain ⟨ts, rest, hRest, rfl, ha⟩ := hp _ _ _ _ _ _ hRun
    exact .inr ⟨ts, rest, a, hRest, ha, h⟩

variable {limit : Nat} {nested operand : Parse Expr} {r : Rung}

/-- What goes on with a tree that `r` derives gives such a tree, and gives back the levels of the
links before. -/
def GoesOn (r : Rung) (next : Expr → Nat → Parse Expr) : Prop :=
  ∀ left links tokens position depth pending e s' ts, Derives r ts left →
    next left links ⟨tokens, position, depth, pending⟩ = .ok (e, s') →
      ∃ us rest, tokens = us ++ rest ∧
        s' = ⟨rest, position + us.length, depth - links, pending⟩ ∧ Derives r (ts ++ us) e

theorem GoesOn.sound {next : Expr → Nat → Parse Expr} (hNext : GoesOn r next)
    (hOperand : Sound operand (Derives r.next)) :
    Sound (operand >>= fun left => next left 0) (Derives r) := by
  intro tokens position depth pending e s' h
  obtain ⟨ts, rest, left, rfl, hl, h⟩ := hOperand.bind_ok h
  obtain ⟨us, rest, rfl, rfl, he⟩ := hNext _ _ _ _ _ _ _ _ _ (.tighter hl) h
  exact ⟨ts ++ us, rest, by simp, by simp [Nat.add_assoc], he⟩

theorem goesOn_tooDeep : GoesOn r fun _ _ => tooDeep :=
  fun _ _ _ _ _ _ _ _ _ _ h => absurd h tooDeep_ok

theorem chainStep_goesOn {next : Expr → Nat → Parse Expr}
    (hOperand : Sound operand (Derives r.next))
    (hNext : GoesOn r next) :
    GoesOn r (chainStep limit r.link? (fun join => join) operand next) := by
  intro left links tokens position depth pending e s' ts hl h
  rw [chainStep, peekSymbol_bind] at h
  cases hJoin : (symbol? tokens).bind r.link? with
  | none =>
    rw [hJoin] at h
    simp only [leave_bind, pure_ok] at h
    obtain ⟨rfl, rfl⟩ := h
    exact ⟨[], tokens, rfl, rfl, by simpa using hl⟩
  | some join =>
    obtain ⟨symbol, hSymbol, operator⟩ := Option.bind_eq_some_iff.mp hJoin
    obtain ⟨rest, rfl⟩ := symbol?_eq_some.mp hSymbol
    rw [hJoin] at h
    simp only [advance_bind] at h
    replace h := enter_bind_ok h
    rw [expect_bind] at h
    obtain ⟨us, rest, right, rfl, hr, h⟩ := hOperand.bind_ok h
    rw [fulfil_bind] at h
    obtain ⟨vs, rest, rfl, rfl, he⟩ := hNext _ _ _ _ _ _ _ _ _ (.link operator hl hr) h
    refine ⟨.symbol symbol :: us ++ vs, rest, by simp, ?_, by simpa using he⟩
    simp only [List.length_append, List.length_cons, State.mk.injEq, true_and, and_true]
    omega

theorem chain_sound (hOperand : Sound operand (Derives r.next)) (levels : Nat) :
    Sound (chain limit levels r.link? (fun join => join) operand) (Derives r) := by
  have hFrom : GoesOn r (chainFrom limit r.link? (fun join => join) operand levels) := by
    induction levels with
    | zero => exact chainStep_goesOn hOperand goesOn_tooDeep
    | succ levels ih => exact chainStep_goesOn hOperand ih
  exact hFrom.sound hOperand

/-! ### Primaries and what comes after them -/

theorem primary_sound (hNested : Sound nested (Derives .ternary)) :
    Sound (primary nested) (Derives .primary) := by
  intro tokens position depth pending e s' h
  rw [primary, called_eq, peek_bind] at h
  cases tokens with
  | nil => exact absurd h fail_ok
  | cons k rest =>
    cases hLeaf : leaf? k with
    | some l =>
      have hRun : (advance >>= fun _ => pure l : Parse Expr) ⟨k :: rest, position, depth, pending⟩ =
          .ok (e, s') := by
        cases k <;> simp_all [leaf?]
      rw [advance_bind, pure_ok] at hRun
      obtain ⟨rfl, rfl⟩ := hRun
      exact ⟨[k], rest, rfl, rfl, .leaf hLeaf⟩
    | none =>
      by_cases hParen : k = .symbol .leftParen
      · subst hParen
        simp only [List.head?_cons, advance_bind, expect_bind] at h
        obtain ⟨ts, rest, inner, rfl, hInner, h⟩ := hNested.bind_ok h
        obtain ⟨rest, rfl, h⟩ := require_bind_ok h
        obtain ⟨rfl, rfl⟩ := pure_ok.mp h
        refine ⟨_, rest, ?_, ?_, .group hInner⟩
        · simp
        · simp
          omega
      · have hFail : (fail : Parse Expr) ⟨k :: rest, position, depth, pending⟩ = .ok (e, s') := by
          cases k with
          | symbol symbol => cases symbol <;> simp_all
          | stray c => exact h
          | _ => cases hLeaf
        exact absurd hFail fail_ok

/-- After `symbol`, `p` reads what makes a longer operand of an operand. -/
def Appends (symbol : Symbol) (p : Expr → Parse Expr) : Prop :=
  ∀ operand ts tokens position depth pending e s', Derives .postfixed ts operand →
    p operand ⟨.symbol symbol :: tokens, position, depth, pending⟩ = .ok (e, s') →
      ∃ us rest, tokens = us ++ rest ∧
        s' = ⟨rest, position + 1 + us.length, depth, pending⟩ ∧
        Derives .postfixed (ts ++ .symbol symbol :: us) e

theorem accessor_appends : Appends .dot accessor := by
  intro operand ts tokens position depth pending e s' ho h
  rw [accessor, called_eq, expect_bind, advance_bind, peek_bind] at h
  match tokens with
  | [] => exact absurd h fail_ok
  | .name attr :: rest =>
    simp only [List.head?_cons, advance_bind, fulfil_bind, pure_ok] at h
    obtain ⟨rfl, rfl⟩ := h
    exact ⟨[.name attr], rest, rfl, rfl, .access ho⟩
  | .int _ :: _ | .float _ :: _ | .str _ :: _ | .symbol _ :: _ => exact absurd h fail_ok

/-- Each of `bounds` is left out or derived. -/
def Bounds (bounds : List (Option Phrase)) : Prop :=
  ∀ bound? ∈ bounds, ∀ bound ∈ bound?, Derives .ternary bound.1 bound.2

theorem slot_sound (hNested : Sound nested (Derives .ternary)) :
    Sound (slot nested) fun ts bound? =>
      ∃ phrase?, Bounds [phrase?] ∧ ts = Grammar.slot phrase? ∧ bound? = phrase?.map (·.2) := by
  intro tokens position depth pending bound? s' h
  rw [slot, peekIs_bind, peekIs_bind] at h
  split at h
  · obtain ⟨rfl, rfl⟩ := pure_ok.mp h
    exact ⟨[], tokens, rfl, rfl, none, by simp [Bounds], rfl, rfl⟩
  · obtain ⟨ts, rest, e, rfl, he, h⟩ := hNested.bind_ok h
    obtain ⟨rfl, rfl⟩ := pure_ok.mp h
    exact ⟨ts, rest, rfl, rfl, some (ts, e), by simpa [Bounds] using he, rfl, rfl⟩

theorem moreSlots_sound (hNested : Sound nested (Derives .ternary)) (n : Nat) :
    Sound (moreSlots nested n) fun ts bounds =>
      ∃ phrases, Bounds phrases ∧ phrases.length ≤ n ∧ ts = colonSlots phrases ∧
        bounds = phrases.map (·.map (·.2)) := by
  induction n with
  | zero =>
    intro tokens position depth pending bounds s' h
    rw [moreSlots, peekIs_bind] at h
    split at h
    · exact absurd h fail_ok
    · obtain ⟨rfl, rfl⟩ := pure_ok.mp h
      exact ⟨[], tokens, rfl, rfl, [], by simp [Bounds], Nat.le_refl 0, rfl, rfl⟩
  | succ n ih =>
    intro tokens position depth pending bounds s' h
    rw [moreSlots, peekIs_bind] at h
    split at h
    · rename_i hColon
      obtain ⟨rest, rfl⟩ := List.head?_eq_some_iff.mp (of_decide_eq_true hColon)
      rw [expect_bind, advance_bind] at h
      obtain ⟨ts, rest, bound?, rfl, ⟨phrase?, hBound, rfl, rfl⟩, h⟩ :=
        (slot_sound hNested).bind_ok h
      rw [fulfil_bind] at h
      obtain ⟨us, rest, others, rfl, ⟨phrases, hBounds, hLength, rfl, rfl⟩, h⟩ := ih.bind_ok h
      obtain ⟨rfl, rfl⟩ := pure_ok.mp h
      refine ⟨colonSlots (phrase? :: phrases), rest, by simp [colonSlots], ?_, phrase? :: phrases,
        ?_, by simpa using hLength, rfl, rfl⟩
      · simp only [colonSlots, List.flatMap_cons, List.length_append, List.length_cons,
          State.mk.injEq, true_and, and_true]
        omega
      · simpa [Bounds] using And.intro (hBound phrase? List.mem_cons_self) hBounds
    · obtain ⟨rfl, rfl⟩ := pure_ok.mp h
      exact ⟨[], tokens, rfl, rfl, [], by simp [Bounds], Nat.zero_le _, rfl, rfl⟩

/-- One part between brackets is a key, two or three are bounds. -/
theorem derives_subscripted {ts : List Token.Kind} {operand e : Expr} {first? : Option Phrase}
    {others : List (Option Phrase)} (ho : Derives .postfixed ts operand)
    (hBounds : Bounds (first? :: others)) (hLength : others.length ≤ 2)
    (h : subscripted operand (first?.map (·.2) :: others.map (·.map (·.2))) = some e) :
    Derives .postfixed
      (ts ++ Token.Kind.symbol .leftBracket ::
        (Grammar.slot first? ++ (colonSlots others ++ [Token.Kind.symbol .rightBracket]))) e := by
  match others, hLength with
  | [], _ =>
    cases first? with
    | none => simp [subscripted] at h
    | some key =>
      simp only [subscripted, List.map_nil, Option.map_some, Option.some.injEq] at h
      subst h
      exact .item ho (hBounds _ List.mem_cons_self key rfl)
  | [stop], _ =>
    simp only [Bounds, List.forall_mem_cons] at hBounds
    simp only [subscripted, List.map_cons, List.map_nil, List.head?_nil, Option.join_none,
      Option.some.injEq] at h
    subst h
    simpa [colonSlots] using Derives.slice first? stop ho hBounds.1 hBounds.2.1
  | [stop, step], _ =>
    simp only [Bounds, List.forall_mem_cons] at hBounds
    simp only [subscripted, List.map_cons, List.map_nil, List.head?_cons, Option.join_some,
      Option.some.injEq] at h
    subst h
    simpa [colonSlots] using
      Derives.steppedSlice first? stop step ho hBounds.1 hBounds.2.1 hBounds.2.2.1

theorem subscriptFrom_sound (hNested : Sound nested (Derives .ternary)) {ts : List Token.Kind}
    {operand e : Expr} (first? : Option Phrase) (ho : Derives .postfixed ts operand)
    (hFirst : Bounds [first?])
    (h : subscriptFrom nested operand (first?.map (·.2))
      ⟨tokens, position, depth, .rightBracket :: pending⟩ = .ok (e, s')) :
    ∃ us rest, tokens = us ++ rest ∧ s' = ⟨rest, position + us.length, depth, pending⟩ ∧
      Derives .postfixed (ts ++ Token.Kind.symbol .leftBracket :: (Grammar.slot first? ++ us))
        e := by
  obtain ⟨us, rest, others, rfl, ⟨phrases, hBounds, hLength, rfl, rfl⟩, h⟩ :=
    (moreSlots_sound hNested 2).bind_ok h
  obtain ⟨rest, rfl, h⟩ := require_bind_ok h
  cases hTree : subscripted operand (first?.map (·.2) :: phrases.map (·.map (·.2))) with
  | none =>
    rw [hTree] at h
    exact absurd h fail_ok
  | some tree =>
    rw [hTree] at h
    obtain ⟨rfl, rfl⟩ := pure_ok.mp h
    refine ⟨colonSlots phrases ++ [Token.Kind.symbol .rightBracket], rest, by simp,
      by simp [Nat.add_assoc], derives_subscripted ho ?_ hLength hTree⟩
    simpa [Bounds] using And.intro (hFirst first? List.mem_cons_self) hBounds

theorem index_appends (hNested : Sound nested (Derives .ternary)) :
    Appends .leftBracket (index nested) := by
  intro operand ts tokens position depth pending e s' ho h
  rw [index, called_eq, expect_bind, advance_bind, peek_bind, peekIs_bind] at h
  split at h
  · rw [expect_bind] at h
    exact absurd h fail_ok
  · rw [peekIs_bind] at h
    split at h
    · rw [pure_bind] at h
      exact subscriptFrom_sound hNested none ho (by simp [Bounds]) h
    · rw [bind_map_left] at h
      obtain ⟨us, rest, key, rfl, hKey, h⟩ := hNested.bind_ok h
      obtain ⟨vs, rest, rfl, rfl, he⟩ := subscriptFrom_sound hNested (some (us, key)) ho
        (by simpa [Bounds] using hKey) h
      exact ⟨us ++ vs, rest, by simp, by simp [Nat.add_assoc], he⟩

theorem moreArgs_sound (hNested : Sound nested (Derives .ternary)) (n : Nat) :
    Sound (moreArgs nested n) fun ts es =>
      ∃ args : List Phrase, (∀ arg ∈ args, Derives .ternary arg.1 arg.2) ∧ ts = commaArgs args ∧
        es = args.map (·.2) := by
  induction n with
  | zero =>
    intro tokens position depth pending es s' h
    obtain ⟨rfl, rfl⟩ := pure_ok.mp h
    exact ⟨[], tokens, rfl, rfl, [], by simp, rfl, rfl⟩
  | succ n ih =>
    intro tokens position depth pending es s' h
    rw [moreArgs] at h
    by_cases hComma : tokens.head? = some (.symbol .comma)
    · obtain ⟨rest, rfl⟩ := List.head?_eq_some_iff.mp hComma
      rw [eat_bind, if_pos rfl, expect_bind] at h
      obtain ⟨ts, rest, e, rfl, he, h⟩ := hNested.bind_ok h
      rw [fulfil_bind] at h
      obtain ⟨us, rest, es, rfl, ⟨args, hArgs, rfl, rfl⟩, h⟩ := ih.bind_ok h
      obtain ⟨rfl, rfl⟩ := pure_ok.mp h
      refine ⟨commaArgs ((ts, e) :: args), rest, by simp [commaArgs], ?_, (ts, e) :: args,
        by simpa using And.intro he hArgs, rfl, rfl⟩
      simp only [commaArgs, List.flatMap_cons, List.length_append, List.length_cons,
        State.mk.injEq, true_and, and_true]
      omega
    · rw [eat_bind_other hComma, if_neg Bool.false_ne_true] at h
      obtain ⟨rfl, rfl⟩ := pure_ok.mp h
      exact ⟨[], tokens, rfl, rfl, [], by simp, rfl, rfl⟩

theorem call_appends (hNested : Sound nested (Derives .ternary)) :
    Appends .leftParen (call nested) := by
  intro callee ts tokens position depth pending e s' hf h
  cases tokens with
  | nil =>
    rw [call, called_eq, advance_bind, expect_bind, peek_bind] at h
    exact absurd h fail_ok
  | cons k tokens =>
    by_cases hClose : k = .symbol .rightParen
    · subst hClose
      simp only [call, called_eq, advance_bind, expect_bind, peek_bind, List.head?_cons,
        require_bind, pure_ok] at h
      obtain ⟨rfl, rfl⟩ := h
      exact ⟨[.symbol .rightParen], tokens, rfl, rfl, .call [] hf (by simp)⟩
    · rw [call_other hClose, argsFrom] at h
      obtain ⟨us, rest, first, hTokens, hFirst, h⟩ := hNested.bind_ok h
      rw [left_bind] at h
      obtain ⟨vs, rest, es, rfl, ⟨others, hOthers, rfl, rfl⟩, h⟩ :=
        (moreArgs_sound hNested _).bind_ok h
      obtain ⟨rest, rfl, hEnd⟩ := require_bind_ok h
      obtain ⟨rfl, rfl⟩ := pure_ok.mp hEnd
      refine ⟨separated ((us, first) :: others) ++ [Token.Kind.symbol .rightParen], rest, ?_, ?_,
        .call ((us, first) :: others) hf (by simpa using And.intro hFirst hOthers)⟩
      · simp [separated, hTokens]
      · simp [separated, Nat.add_assoc]

theorem suffix_appends (hNested : Sound nested (Derives .ternary)) {symbol : Symbol}
    {p : Expr → Parse Expr} (hp : suffix? nested symbol = some p) : Appends symbol p := by
  cases symbol with
  | dot => exact Option.some_inj.mp hp ▸ accessor_appends
  | leftBracket => exact Option.some_inj.mp hp ▸ index_appends hNested
  | leftParen => exact Option.some_inj.mp hp ▸ call_appends hNested
  | _ => cases hp

theorem postfixStep_goesOn (hNested : Sound nested (Derives .ternary))
    {next : Expr → Nat → Parse Expr} (hNext : GoesOn .postfixed next) :
    GoesOn .postfixed (postfixStep limit nested next) := by
  intro operand links tokens position depth pending e s' ts ho h
  cases hSuffix : (symbol? tokens).bind (suffix? nested) with
  | none =>
    rw [postfixStep_stop hSuffix] at h
    cases h
    exact ⟨[], tokens, rfl, rfl, by simpa using ho⟩
  | some p =>
    obtain ⟨symbol, hSymbol, hp⟩ := Option.bind_eq_some_iff.mp hSuffix
    rw [postfixStep_suffix hSymbol hp] at h
    obtain ⟨rest, rfl⟩ := symbol?_eq_some.mp hSymbol
    obtain ⟨longer, _, hLonger, h⟩ := bind_ok.mp (enter_bind_ok h)
    obtain ⟨us, rest, rfl, rfl, hl⟩ := suffix_appends hNested hp _ _ _ _ _ _ _ _ ho hLonger
    obtain ⟨vs, rest, rfl, rfl, he⟩ := hNext _ _ _ _ _ _ _ _ _ hl h
    refine ⟨.symbol symbol :: us ++ vs, rest, by simp, ?_, by simpa using he⟩
    simp only [List.length_append, List.length_cons, State.mk.injEq, true_and, and_true]
    omega

theorem postfixed_sound (hNested : Sound nested (Derives .ternary)) (levels : Nat) :
    Sound (postfixed limit levels nested) (Derives .postfixed) := by
  have hFrom : GoesOn .postfixed (postfixFrom limit nested levels) := by
    induction levels with
    | zero => exact postfixStep_goesOn hNested goesOn_tooDeep
    | succ levels ih => exact postfixStep_goesOn hNested ih
  exact hFrom.sound (primary_sound hNested)

/-! ### The other rungs -/

theorem powers_sound {base : Parse Expr} (hBase : Sound base (Derives .postfixed)) (levels : Nat) :
    Sound (powers limit base levels) (Derives .power) := by
  have hStep : ∀ exponent, Sound exponent (Derives .power) →
      Sound (powerStep limit base exponent) (Derives .power) := by
    intro exponent hExponent tokens position depth pending e s' h
    rw [powerStep] at h
    obtain ⟨ts, rest, left, rfl, hl, h⟩ := hBase.bind_ok h
    by_cases hPower : rest.head? = some (.symbol .doubleStar)
    · obtain ⟨rest, rfl⟩ := List.head?_eq_some_iff.mp hPower
      rw [eat_bind, if_pos rfl] at h
      replace h := enter_bind_ok h
      rw [expect_bind] at h
      obtain ⟨us, rest, right, rfl, hr, h⟩ := hExponent.bind_ok h
      rw [fulfil_bind, leave_bind, pure_ok] at h
      obtain ⟨rfl, rfl⟩ := h
      refine ⟨ts ++ .symbol .doubleStar :: us, rest, by simp, ?_, .power hl hr⟩
      simp [Nat.add_assoc, Nat.add_comm 1]
    · rw [eat_bind_other hPower, if_neg Bool.false_ne_true, pure_ok] at h
      obtain ⟨rfl, rfl⟩ := h
      exact ⟨ts, rest, rfl, rfl, .tighter hl⟩
  induction levels with
  | zero => exact hStep _ fun _ _ _ _ _ _ h => absurd h tooDeep_ok
  | succ levels ih => exact hStep _ ih

/-- A sign in front of what the next rung derives. -/
theorem sign_sound {symbol : Symbol} {op : UnaryOp} (operator : r.sign? symbol = some op)
    (hOperand : Sound operand (Derives r.next)) {rest : List Token.Kind} {e : Expr}
    (h : signed op operand ⟨rest, position + 1, depth, pending⟩ = .ok (e, s')) :
    ∃ ts more, .symbol symbol :: rest = ts ++ more ∧
      s' = ⟨more, position + ts.length, depth, pending⟩ ∧ Derives r ts e := by
  rw [signed, expect_bind] at h
  obtain ⟨ts, more, e, rfl, he, h⟩ := hOperand.bind_ok h
  rw [fulfil_bind, pure_ok] at h
  obtain ⟨rfl, rfl⟩ := h
  exact ⟨.symbol symbol :: ts, more, rfl, by simp [Nat.add_assoc, Nat.add_comm 1],
    .sign operator he⟩

theorem unary_sound {limit levels : Nat}
    (hOperand : Sound (reader limit levels .power) (Derives .power)) :
    Sound (reader limit levels .unary) (Derives .unary) := by
  intro tokens position depth pending e s' h
  rw [reader, unary, called_eq, peekSymbol_bind, Rung.sign?_unary] at h
  cases hSign : (symbol? tokens).bind Rung.unary.sign? with
  | none =>
    rw [hSign] at h
    obtain ⟨ts, rest, hTokens, hs', he⟩ := hOperand _ _ _ _ _ _ h
    exact ⟨ts, rest, hTokens, hs', .tighter he⟩
  | some op =>
    obtain ⟨symbol, hSymbol, operator⟩ := Option.bind_eq_some_iff.mp hSign
    obtain ⟨rest, rfl⟩ := symbol?_eq_some.mp hSymbol
    rw [hSign] at h
    exact sign_sound operator hOperand h

theorem negation_sound {limit levels : Nat}
    (hOperand : Sound (reader limit levels .comparison) (Derives .comparison)) :
    Sound (reader limit levels .negation) (Derives .negation) := by
  intro tokens position depth pending e s' h
  rw [reader, negation, called_eq] at h
  by_cases hNot : tokens.head? = some (.symbol .not)
  · obtain ⟨rest, rfl⟩ := List.head?_eq_some_iff.mp hNot
    rw [eat_bind] at h
    exact sign_sound (r := .negation) rfl hOperand h
  · rw [eat_bind_other hNot] at h
    obtain ⟨ts, rest, hTokens, hs', he⟩ := hOperand _ _ _ _ _ _ h
    exact ⟨ts, rest, hTokens, hs', .tighter he⟩

theorem ternaryStep_sound {condition : Parse Expr}
    (hCondition : Sound condition (Derives .disjunction))
    (hNested : Sound nested (Derives .ternary)) :
    Sound (ternaryStep limit condition nested) (Derives .ternary) := by
  intro tokens position depth pending e s' h
  replace h := enter_bind_ok h
  obtain ⟨ts, rest, c, rfl, hc, h⟩ := hCondition.bind_ok h
  by_cases hQuestion : rest.head? = some (.symbol .question)
  · obtain ⟨rest, rfl⟩ := List.head?_eq_some_iff.mp hQuestion
    rw [eat_bind, if_pos rfl, expect_bind] at h
    obtain ⟨us, rest, y, rfl, hy, h⟩ := hNested.bind_ok h
    rw [expect_bind] at h
    obtain ⟨rest, rfl, hElse⟩ := require_bind_ok h
    obtain ⟨vs, rest, n, rfl, hn, hEnd⟩ := hNested.bind_ok hElse
    rw [fulfil_bind, leave_bind, pure_ok] at hEnd
    obtain ⟨rfl, rfl⟩ := hEnd
    refine ⟨_, rest, ?_, ?_, .condition hc hy hn⟩
    · simp
    · simp
      omega
  · rw [eat_bind_other hQuestion, if_neg Bool.false_ne_true, leave_bind, pure_ok] at h
    obtain ⟨rfl, rfl⟩ := h
    exact ⟨ts, rest, rfl, rfl, .tighter hc⟩

/-- If the readers of a rung within a given number of levels are sound, so are those of the looser
rungs. -/
theorem reader_sound_of_nested {limit levels : Nat}
    (hNested : Sound (ternary limit levels) (Derives .ternary)) (r : Rung) :
    Sound (reader limit levels r) (Derives r) := by
  have hChain : ∀ r : Rung, r.IsChain → Sound (reader limit levels r.next) (Derives r.next) →
      Sound (reader limit levels r) (Derives r) := by
    intro r hr hOperand
    rw [hr.reader]
    exact chain_sound hOperand levels
  have hPostfixed : Sound (reader limit levels .postfixed) (Derives .postfixed) :=
    postfixed_sound hNested levels
  by_cases hr : r = .ternary
  · subst hr
    exact hNested
  · exact Rung.climb (P := fun r => Sound (reader limit levels r) (Derives r))
      (primary_sound hNested) hPostfixed (powers_sound hPostfixed levels) unary_sound
      negation_sound hChain r hr

/-- What a reader gives is derived from the tokens that it consumes. -/
theorem reader_sound (limit levels : Nat) (r : Rung) :
    Sound (reader limit levels r) (Derives r) := by
  have hTernary : Sound (ternary limit levels) (Derives .ternary) := by
    induction levels with
    | zero => exact fun _ _ _ _ _ _ h => absurd h tooDeep_ok
    | succ levels ih =>
      exact ternaryStep_sound (reader_sound_of_nested ih .disjunction) ih
  exact reader_sound_of_nested hTernary r

/-- An expression that the parser gives is derived from all the tokens. -/
theorem derives_of_parse {limit : Nat} {kinds : List Token.Kind} {e : Expr}
    (h : parse limit kinds = .ok e) : Derives .ternary kinds e := by
  unfold parse at h
  cases hRun : (complete limit limit : Parse Expr) ⟨kinds, 0, 0, []⟩ with
  | error fault => simp [hRun, Except.map] at h
  | ok p =>
    obtain ⟨tree, s'⟩ := p
    simp only [hRun, Except.map, Except.ok.injEq] at h
    subst h
    obtain ⟨ts, rest, e, rfl, he, hRun⟩ := (reader_sound limit limit .ternary).bind_ok hRun
    rw [peek_bind] at hRun
    cases rest with
    | nil =>
      obtain ⟨rfl, -⟩ := pure_ok.mp hRun
      rwa [List.append_nil]
    | cons k rest => exact absurd hRun fail_ok

end Formula.Parser
