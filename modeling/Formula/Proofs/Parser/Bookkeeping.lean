import Mathlib.Control.Monad.Basic
import Formula.Proofs.Parser.Reader

/-! The bookkeeping of the parser. A checked run stands at an index among all the tokens, and stops
with a breach where it would step past their end, blame a token that is not there, give back levels
that it has not charged, or subscript by a part that was left out. It never does: from every cursor
each reader does what the reader of the parser does, and where it succeeds it has consumed a token
and left the levels charged and what is pending as they were. -/

namespace Formula.Parser

open Token

/-! ### Checked runs -/

/-- The index of the next token, the levels charged, and what is pending, latest first. -/
structure Cursor where
  position : Nat
  depth : Nat
  pending : List Expectation

/-- What the bookkeeping must never do. -/
inductive Breach where
  /-- To step past the end of the tokens. -/
  | pastEnd
  /-- To give back more levels than are charged. -/
  | refund
  /-- To blame a token in front of the next one where there is none. -/
  | noToken
  /-- To subscript by a single part that was left out. -/
  | noKey
deriving DecidableEq

/-- Why a checked run ends without a tree. -/
inductive Stop where
  | fault (fault : Fault)
  | breach (breach : Breach)
deriving DecidableEq

/-- A step of a checked run, which knows all the tokens. -/
abbrev Walk := ReaderT (List Kind) (StateT Cursor (Except Stop))

/-- The small steps of a checked run. A failure with something pending blames the token in front of
the next one, if a token has been consumed. -/
instance : SmallSteps Walk where
  peek tokens c := .ok (tokens[c.position]?, c)
  left tokens c := .ok (tokens.length - c.position, c)
  advance tokens c :=
    if c.position < tokens.length then .ok ((), { c with position := c.position + 1 })
    else .error (.breach .pastEnd)
  expect what _ c := .ok ((), { c with pending := what :: c.pending })
  fulfil _ c := .ok ((), { c with pending := c.pending.tail })
  enter limit _ c :=
    if c.depth + 1 ≤ limit then .ok ((), { c with depth := c.depth + 1 })
    else .error (.fault (.tooDeep c.position))
  leave links _ c :=
    if links ≤ c.depth then .ok ((), { c with depth := c.depth - links })
    else .error (.breach .refund)
  fail tokens c :=
    match c.pending with
    | [] => .error (.fault (.unexpected c.position))
    | what :: _ =>
      if c.position = 0 ∨ c.position - 1 < tokens.length then
        .error (.fault (.expected what c.position))
      else .error (.breach .noToken)
  tooDeep _ c := .error (.fault (.tooDeep c.position))
  noKey _ _ := .error (.breach .noKey)
  called reader := reader ()

/-! ### Runs that agree -/

variable {α β : Type} {tokens : List Kind} {limit n n₁ n₂ d d₁ : Nat}
  {ps ps₁ : List Expectation} {c c₁ c₂ : Cursor} {P Q : α → Prop} {R : β → Prop}

/-- The state of the parser at a cursor. -/
def Cursor.view (tokens : List Kind) (c : Cursor) : State :=
  ⟨tokens.drop c.position, c.position, c.depth, c.pending⟩

/-- What comes of a run of the parser and of a checked run: the same fault, or the same result,
which satisfies `Q`, in the same state, which is that at `c` but for the tokens consumed, of which
there are at least as many. -/
inductive SameOutcome (tokens : List Kind) (c : Cursor) (Q : α → Prop) :
    Except Fault (α × State) → Except Stop (α × Cursor) → Prop
  | fault (fault : Fault) : SameOutcome tokens c Q (.error fault) (.error (.fault fault))
  | ok {a : α} {n : Nat} (result : Q a) (lower : c.position ≤ n) (upper : n ≤ tokens.length) :
    SameOutcome tokens c Q (.ok (a, ({ c with position := n } : Cursor).view tokens))
      (.ok (a, { c with position := n }))

/-- From `c` on, a step of the parser and a checked one do the same: both fail, or both lead to `c₁`
or further along the tokens. The checked one meets no breach. -/
def Safe (tokens : List Kind) (c c₁ : Cursor) (Q : α → Prop) (p : Parse α) (q : Walk α) : Prop :=
  c.position ≤ tokens.length → SameOutcome tokens c₁ Q (p (c.view tokens)) (q tokens c)

theorem walk_bind_eq {q : Walk α} {g : α → Walk β} {a : α} (h : q tokens c = .ok (a, c₁)) :
    (q >>= g) tokens c = g a tokens c₁ := by
  show (q tokens >>= fun a => g a tokens) c = _
  exact Steps.bind_eq h

theorem walk_bind_error {q : Walk α} {g : α → Walk β} {stop : Stop}
    (h : q tokens c = .error stop) : (q >>= g) tokens c = .error stop := by
  show (q tokens >>= fun a => g a tokens) c = _
  exact Steps.bind_error.mpr (.inl h)

theorem Safe.bind {p : Parse α} {q : Walk α} {f : α → Parse β} {g : α → Walk β}
    (hp : Safe tokens c ⟨n₁, d₁, ps₁⟩ P p q)
    (hf : ∀ a n, P a → n₁ ≤ n → Safe tokens ⟨n, d₁, ps₁⟩ c₂ R (f a) (g a)) :
    Safe tokens c c₂ R (p >>= f) (q >>= g) := by
  intro hc
  have hFirst := hp hc
  show SameOutcome tokens c₂ R (p (c.view tokens) >>= fun r => f r.1 r.2)
    (q tokens c >>= fun r => g r.1 tokens r.2)
  generalize p (c.view tokens) = x, q tokens c = y at hFirst ⊢
  cases hFirst with
  | fault fault => exact .fault fault
  | ok result lower upper => exact hf _ _ result lower upper

/-- What consumes more than is asked for. -/
theorem Safe.further {p : Parse α} {q : Walk α} (h : Safe tokens c ⟨n₂, d₁, ps₁⟩ Q p q)
    (hn : n₁ ≤ n₂) : Safe tokens c ⟨n₁, d₁, ps₁⟩ Q p q := by
  intro hc
  have hRun := h hc
  generalize p (c.view tokens) = x, q tokens c = y at hRun ⊢
  cases hRun with
  | fault fault => exact .fault fault
  | ok result lower upper => exact .ok result (Nat.le_trans hn lower) upper

theorem safe_pure {a : α} (ha : Q a) (hn : n₁ ≤ n) :
    Safe tokens ⟨n, d, ps⟩ ⟨n₁, d, ps⟩ Q (pure a) (pure a) :=
  fun hc => .ok ha hn hc

theorem safe_fail : Safe tokens c c₁ Q fail fail := by
  intro hc
  obtain ⟨n, d, ps⟩ := c
  cases ps with
  | nil => exact .fault (.unexpected n)
  | cons what ps =>
    have hToken : n = 0 ∨ n - 1 < tokens.length := by
      replace hc : n ≤ tokens.length := hc
      omega
    show SameOutcome tokens c₁ Q _ (if n = 0 ∨ n - 1 < tokens.length then _ else _)
    rw [if_pos hToken]
    exact .fault (.expected what n)

theorem safe_tooDeep :
    Safe tokens c c₁ Q tooDeep tooDeep :=
  fun _ => .fault (.tooDeep c.position)

theorem safe_peek {f : Option Kind → Parse β} {g : Option Kind → Walk β}
    (h : ∀ next?, tokens[n]? = next? → Safe tokens ⟨n, d, ps⟩ c₁ R (f next?) (g next?)) :
    Safe tokens ⟨n, d, ps⟩ c₁ R (peek >>= f) (peek >>= g) := by
  intro hc
  have hNext : (tokens.drop n).head? = tokens[n]? := List.head?_drop
  show SameOutcome tokens c₁ R (f (tokens.drop n).head? _) (g tokens[n]? tokens _)
  rw [hNext]
  exact h _ rfl hc

theorem safe_left {f : Nat → Parse β} {g : Nat → Walk β}
    (h : ∀ count, Safe tokens ⟨n, d, ps⟩ c₁ R (f count) (g count)) :
    Safe tokens ⟨n, d, ps⟩ c₁ R (left >>= f) (left >>= g) := by
  intro hc
  have hLeft : (tokens.drop n).length = tokens.length - n := List.length_drop
  show SameOutcome tokens c₁ R (f (tokens.drop n).length _) (g (tokens.length - n) tokens _)
  rw [hLeft]
  exact h _ hc

section Unit

variable {f : Unit → Parse β} {g : Unit → Walk β}

theorem safe_advance (hn : n < tokens.length)
    (h : Safe tokens ⟨n + 1, d, ps⟩ c₁ R (f ()) (g ())) :
    Safe tokens ⟨n, d, ps⟩ c₁ R (advance >>= f)
      (advance >>= g) := by
  intro _
  have hDrop : tokens.drop n = tokens[n] :: tokens.drop (n + 1) := List.drop_eq_getElem_cons hn
  have hPlain : (advance : Parse Unit) (Cursor.view tokens ⟨n, d, ps⟩) =
      .ok ((), Cursor.view tokens ⟨n + 1, d, ps⟩) := by
    rw [Cursor.view, hDrop]
    rfl
  have hChecked : (advance : Walk Unit) tokens ⟨n, d, ps⟩ = .ok ((), ⟨n + 1, d, ps⟩) :=
    if_pos hn
  rw [Steps.bind_eq hPlain, walk_bind_eq hChecked]
  exact h hn

theorem safe_expect {what : Expectation}
    (h : Safe tokens ⟨n, d, what :: ps⟩ c₁ R (f ()) (g ())) :
    Safe tokens ⟨n, d, ps⟩ c₁ R (expect what >>= f)
      (expect what >>= g) :=
  h

theorem safe_fulfil {what : Expectation} (h : Safe tokens ⟨n, d, ps⟩ c₁ R (f ()) (g ())) :
    Safe tokens ⟨n, d, what :: ps⟩ c₁ R (fulfil >>= f)
      (fulfil >>= g) :=
  h

theorem safe_enter (h : Safe tokens ⟨n, d + 1, ps⟩ c₁ R (f ()) (g ())) :
    Safe tokens ⟨n, d, ps⟩ c₁ R (enter limit >>= f)
      (enter limit >>= g) := by
  intro hc
  by_cases hDepth : d + 1 ≤ limit
  · have hPlain : (enter limit : Parse Unit) (Cursor.view tokens ⟨n, d, ps⟩) =
        .ok ((), Cursor.view tokens ⟨n, d + 1, ps⟩) := if_pos hDepth
    have hChecked : (enter limit : Walk Unit) tokens ⟨n, d, ps⟩ = .ok ((), ⟨n, d + 1, ps⟩) :=
      if_pos hDepth
    rw [Steps.bind_eq hPlain, walk_bind_eq hChecked]
    exact h hc
  · have hPlain : (enter limit : Parse Unit) (Cursor.view tokens ⟨n, d, ps⟩) =
        .error (.tooDeep n) := if_neg hDepth
    have hChecked : (enter limit : Walk Unit) tokens ⟨n, d, ps⟩ = .error (.fault (.tooDeep n)) :=
      if_neg hDepth
    rw [Steps.bind_error.mpr (.inl hPlain), walk_bind_error hChecked]
    exact .fault (.tooDeep n)

theorem safe_leave {links : Nat} (h : Safe tokens ⟨n, d, ps⟩ c₁ R (f ()) (g ())) :
    Safe tokens ⟨n, d + links, ps⟩ c₁ R (leave links >>= f)
      (leave links >>= g) := by
  intro hc
  have hPlain : (leave links : Parse Unit) (Cursor.view tokens ⟨n, d + links, ps⟩) =
      .ok ((), Cursor.view tokens ⟨n, d, ps⟩) := by
    show Except.ok ((), (⟨_, _, d + links - links, _⟩ : State)) = _
    rw [Nat.add_sub_cancel]
    rfl
  have hChecked : (leave links : Walk Unit) tokens ⟨n, d + links, ps⟩ = .ok ((), ⟨n, d, ps⟩) := by
    refine (if_pos (Nat.le_add_left links d)).trans ?_
    rw [Nat.add_sub_cancel]
  rw [Steps.bind_eq hPlain, walk_bind_eq hChecked]
  exact h hc

end Unit

/-! ### Steps that look for a symbol -/

section

variable {symbol : Symbol}

theorem safe_peekIs {f : Bool → Parse β} {g : Bool → Walk β}
    (h : ∀ found : Bool, (found = true → tokens[n]? = some (.symbol symbol)) →
      (found = false → tokens[n]? ≠ some (.symbol symbol)) →
      Safe tokens ⟨n, d, ps⟩ c₁ R (f found) (g found)) :
    Safe tokens ⟨n, d, ps⟩ c₁ R (peekIs symbol >>= f)
      (peekIs symbol >>= g) := by
  simp only [peekIs, bind_assoc, pure_bind]
  refine safe_peek fun next? hNext => h _ (fun hFound => ?_) fun hFound => ?_
  · exact hNext.trans (of_decide_eq_true hFound)
  · rw [hNext]
    exact of_decide_eq_false hFound

theorem safe_peekSymbol {f : Option Symbol → Parse β} {g : Option Symbol → Walk β}
    (h : ∀ symbol? : Option Symbol,
      (∀ symbol, symbol? = some symbol → tokens[n]? = some (.symbol symbol)) →
      Safe tokens ⟨n, d, ps⟩ c₁ R (f symbol?) (g symbol?)) :
    Safe tokens ⟨n, d, ps⟩ c₁ R (peekSymbol >>= f)
      (peekSymbol >>= g) := by
  simp only [peekSymbol, bind_assoc]
  refine safe_peek fun next? hNext => ?_
  split
  · next symbol =>
    simp only [pure_bind]
    exact h (some symbol) fun _ hSymbol => by cases hSymbol; exact hNext
  · simp only [pure_bind]
    exact h none nofun

theorem lt_length_of_next {k : Kind} (h : tokens[n]? = some k) : n < tokens.length :=
  (List.getElem?_eq_some_iff.mp h).1

theorem safe_eat {f : Bool → Parse β} {g : Bool → Walk β}
    (hFound : tokens[n]? = some (.symbol symbol) →
      Safe tokens ⟨n + 1, d, ps⟩ c₁ R (f true) (g true))
    (hNot : Safe tokens ⟨n, d, ps⟩ c₁ R (f false) (g false)) :
    Safe tokens ⟨n, d, ps⟩ c₁ R (eat symbol >>= f)
      (eat symbol >>= g) := by
  simp only [eat, bind_assoc]
  refine safe_peekIs fun found hNext _ => ?_
  cases found with
  | false => exact hNot
  | true =>
    simp only [↓reduceIte, bind_assoc, pure_bind]
    exact safe_advance (lt_length_of_next (hNext rfl)) (hFound (hNext rfl))

theorem safe_require {what : Expectation} {f : Unit → Parse β} {g : Unit → Walk β}
    (h : tokens[n]? = some (.symbol symbol) → Safe tokens ⟨n + 1, d, ps⟩ c₁ R (f ()) (g ())) :
    Safe tokens ⟨n, d, what :: ps⟩ c₁ R (require symbol >>= f)
      (require symbol >>= g) := by
  rw [require, require, bind_assoc, bind_assoc]
  have hFail : Safe tokens ⟨n, d, what :: ps⟩ ⟨n, d, what :: ps⟩ (fun _ => False)
      (fail : Parse Unit) (fail : Walk Unit) := safe_fail
  exact safe_eat (fun hNext => safe_fulfil (h hNext)) (hFail.bind fun _ _ hNone => hNone.elim)

end

/-! ### Readers -/

/-- A reader of the parser and a checked one that agree, consume a token and leave the levels
charged and what is pending as they were. -/
def Balanced (tokens : List Kind) (p : Parse Expr) (q : Walk Expr) : Prop :=
  ∀ n d ps, Safe tokens ⟨n, d, ps⟩ ⟨n + 1, d, ps⟩ (fun _ => True) p q

/-- What goes on with a tree that charged `links` levels: it gives them back. -/
def Refunds (tokens : List Kind) (next : Expr → Nat → Parse Expr) (next' : Expr → Nat → Walk Expr) :
    Prop :=
  ∀ e links n d ps,
    Safe tokens ⟨n, d + links, ps⟩ ⟨n, d, ps⟩ (fun _ => True) (next e links) (next' e links)

variable {op : Type} {op? : Symbol → Option op} {join : op → Expr → Expr → Expr}
  {operand nested : Parse Expr} {operand' nested' : Walk Expr}

theorem refunds_tooDeep :
    Refunds tokens (fun _ _ => tooDeep) fun _ _ => tooDeep :=
  fun _ _ _ _ _ => safe_tooDeep

theorem refunds_chainStep (hOperand : Balanced tokens operand operand')
    {next : Expr → Nat → Parse Expr} {next' : Expr → Nat → Walk Expr}
    (hNext : Refunds tokens next next') :
    Refunds tokens (chainStep limit op? join operand next)
      (chainStep limit op? join operand' next') := by
  intro left links n d ps
  refine safe_peekSymbol fun symbol? hSymbol => ?_
  cases symbol? with
  | none => exact safe_leave (safe_pure trivial (Nat.le_refl n))
  | some symbol =>
    simp only [Option.bind_some]
    cases op? symbol with
    | none => exact safe_leave (safe_pure trivial (Nat.le_refl n))
    | some o =>
      refine safe_advance (lt_length_of_next (hSymbol symbol rfl)) <| safe_enter <| safe_expect <|
        (hOperand (n + 1) _ _).bind fun right m _ hm => safe_fulfil ?_
      -- the level that was charged for this link is among those that `next` gives back
      exact (hNext (join o left right) (links + 1) m d ps).further (by omega)

theorem balanced_chain (levels : Nat) (hOperand : Balanced tokens operand operand') :
    Balanced tokens (chain limit levels op? join operand)
      (chain limit levels op? join operand') := by
  have hFrom : Refunds tokens (chainFrom limit op? join operand levels)
      (chainFrom limit op? join operand' levels) := by
    induction levels with
    | zero => exact refunds_chainStep hOperand refunds_tooDeep
    | succ levels ih => exact refunds_chainStep hOperand ih
  intro n d ps
  exact (hOperand n d ps).bind fun left m _ hm => (hFrom left 0 m d ps).further hm

theorem balanced_signed (o : UnaryOp) (hOperand : Balanced tokens operand operand') :
    Balanced tokens (signed o operand) (signed o operand') :=
  fun n d _ =>
    safe_expect <| (hOperand n d _).bind fun _ _ _ hm => safe_fulfil (safe_pure trivial hm)

theorem balanced_primary (hNested : Balanced tokens nested nested') :
    Balanced tokens (primary nested) (primary nested') := by
  intro n d ps
  have hLeaf : ∀ (k : Kind) (e : Expr), tokens[n]? = some k →
      Safe tokens ⟨n, d, ps⟩ ⟨n + 1, d, ps⟩ (fun _ => True)
        (advance >>= fun _ => pure e)
        (advance >>= fun _ => pure e) :=
    fun k e hk => safe_advance (lt_length_of_next hk) (safe_pure trivial (Nat.le_refl _))
  refine safe_peek fun next? hNext => ?_
  split
  · refine safe_advance (lt_length_of_next hNext) <| safe_expect <|
      (hNested (n + 1) d _).bind fun inner m _ hm => safe_require fun _ => safe_pure trivial ?_
    omega
  · exact hLeaf _ _ hNext
  · exact hLeaf _ _ hNext
  · exact hLeaf _ _ hNext
  · exact hLeaf _ _ hNext
  · exact safe_fail
  · exact safe_fail
  · exact safe_fail

/-- Readers of a suffix, whose first token is there: it is stepped over without a look. -/
def BalancedSuffix (tokens : List Kind) (p : Expr → Parse Expr) (q : Expr → Walk Expr) : Prop :=
  ∀ e n d ps, n < tokens.length →
    Safe tokens ⟨n, d, ps⟩ ⟨n + 1, d, ps⟩ (fun _ => True) (p e) (q e)

theorem balanced_accessor :
    BalancedSuffix tokens accessor accessor := by
  intro e n d ps hn
  refine safe_expect <| safe_advance hn <| safe_peek fun next? hNext => ?_
  split
  · exact safe_advance (lt_length_of_next hNext) (safe_fulfil (safe_pure trivial (by omega)))
  · exact safe_fail

theorem safe_slot (hNested : Balanced tokens nested nested') :
    Safe tokens ⟨n, d, ps⟩ ⟨n, d, ps⟩ (fun _ => True) (slot nested)
      (slot nested') := by
  refine safe_peekIs fun colon _ _ => safe_peekIs fun bracket _ _ => ?_
  cases colon || bracket with
  | true => exact safe_pure trivial (Nat.le_refl n)
  | false =>
    exact (hNested n d ps).bind fun e m _ hm => safe_pure trivial (Nat.le_of_succ_le hm)

/-- If a colon is next, there is at least one more part. -/
theorem safe_moreSlots (hNested : Balanced tokens nested nested') (count : Nat) :
    Safe tokens ⟨n, d, ps⟩ ⟨n, d, ps⟩
      (fun others => count ≠ 0 → tokens[n]? = some (.symbol .colon) → others ≠ [])
      (moreSlots nested count) (moreSlots nested' count) := by
  induction count generalizing n with
  | zero =>
    refine safe_peekIs fun found _ _ => ?_
    cases found with
    | true => exact safe_fail
    | false => exact safe_pure (fun h => absurd rfl h) (Nat.le_refl n)
  | succ count ih =>
    refine safe_peekIs fun found hFound hNot => ?_
    cases found with
    | true =>
      refine safe_expect <| safe_advance (lt_length_of_next (hFound rfl)) <|
        (safe_slot hNested).bind fun first m _ hm => safe_fulfil <| ih.bind fun others k _ hk =>
          safe_pure (fun _ _ => List.cons_ne_nil first others) ?_
      omega
    | false => exact safe_pure (fun _ h => absurd h (hNot rfl)) (Nat.le_refl n)

/-- A subscript is never empty: without a first part there is a colon, and so a second part. -/
theorem balanced_subscriptFrom (hNested : Balanced tokens nested nested') (e : Expr)
    (first? : Option Expr) (hFirst : first? = none → tokens[n]? = some (.symbol .colon)) :
    Safe tokens ⟨n, d, .rightBracket :: ps⟩ ⟨n, d, ps⟩ (fun _ => True)
      (subscriptFrom nested e first?)
      (subscriptFrom nested' e first?) := by
  refine (safe_moreSlots hNested 2).bind fun others m hOthers hm => safe_require fun _ => ?_
  have hKey : ∃ tree, subscripted e (first? :: others) = some tree := by
    cases others with
    | cons stop others => exact ⟨_, rfl⟩
    | nil =>
      cases first? with
      | some key => exact ⟨_, rfl⟩
      | none => exact absurd rfl (hOthers (by omega) (hFirst rfl))
  obtain ⟨tree, hTree⟩ := hKey
  rw [hTree]
  exact safe_pure trivial (Nat.le_succ_of_le hm)

theorem balanced_index (hNested : Balanced tokens nested nested') :
    BalancedSuffix tokens (index nested) (index nested') := by
  intro e n d ps hn
  refine safe_expect <| safe_advance hn <| safe_peek fun next? _ =>
    safe_peekIs fun bracket _ _ => ?_
  cases decide (next? = none) || bracket with
  | true => exact safe_expect safe_fail
  | false =>
    simp only [Bool.false_eq_true, ↓reduceIte]
    refine safe_peekIs fun colon hColon _ => ?_
    cases colon with
    | true => exact balanced_subscriptFrom hNested e none fun _ => hColon rfl
    | false =>
      simp only [Bool.false_eq_true, ↓reduceIte, map_eq_pure_bind, bind_assoc, pure_bind]
      refine (hNested (n + 1) d _).bind fun key m _ hm => ?_
      exact (balanced_subscriptFrom hNested e (some key) nofun).further (by omega)

theorem safe_moreArgs (hNested : Balanced tokens nested nested') (count : Nat) :
    Safe tokens ⟨n, d, ps⟩ ⟨n, d, ps⟩ (fun _ => True) (moreArgs nested count)
      (moreArgs nested' count) := by
  induction count generalizing n with
  | zero => exact safe_pure trivial (Nat.le_refl n)
  | succ count ih =>
    refine safe_eat (fun _ => ?_) (safe_pure trivial (Nat.le_refl n))
    refine safe_expect <| (hNested (n + 1) d _).bind fun arg m _ hm => safe_fulfil <|
      ih.bind fun others k _ hk => safe_pure trivial ?_
    omega

theorem balanced_call (hNested : Balanced tokens nested nested') :
    BalancedSuffix tokens (call nested) (call nested') := by
  intro e n d ps hn
  refine safe_advance hn <| safe_expect <| safe_peek fun next? _ => ?_
  split
  · exact safe_fail
  · exact safe_require fun _ => safe_pure trivial (by omega)
  · refine (hNested (n + 1) d _).bind fun first m _ hm => safe_left fun count =>
      (safe_moreArgs hNested count).bind fun others k _ hk => safe_require fun _ =>
        safe_pure trivial ?_
    omega

theorem balanced_suffix? (hNested : Balanced tokens nested nested') (symbol : Symbol) :
    (suffix? nested symbol = none ∧
      suffix? nested' symbol = none) ∨
    ∃ p q, suffix? nested symbol = some p ∧
      suffix? nested' symbol = some q ∧ BalancedSuffix tokens p q := by
  cases symbol with
  | dot => exact .inr ⟨_, _, rfl, rfl, balanced_accessor⟩
  | leftBracket => exact .inr ⟨_, _, rfl, rfl, balanced_index hNested⟩
  | leftParen => exact .inr ⟨_, _, rfl, rfl, balanced_call hNested⟩
  | _ => exact .inl ⟨rfl, rfl⟩

theorem refunds_postfixStep (hNested : Balanced tokens nested nested')
    {next : Expr → Nat → Parse Expr} {next' : Expr → Nat → Walk Expr}
    (hNext : Refunds tokens next next') :
    Refunds tokens (postfixStep limit nested next)
      (postfixStep limit nested' next') := by
  intro e links n d ps
  refine safe_peekSymbol fun symbol? hSymbol => ?_
  cases symbol? with
  | none => exact safe_leave (safe_pure trivial (Nat.le_refl n))
  | some symbol =>
    simp only [Option.bind_some]
    rcases balanced_suffix? hNested symbol with ⟨hp, hq⟩ | ⟨p, q, hp, hq, hSuffix⟩ <;> rw [hp, hq]
    · exact safe_leave (safe_pure trivial (Nat.le_refl n))
    · refine safe_enter <| (hSuffix e n _ ps (lt_length_of_next (hSymbol symbol rfl))).bind
        fun e' m _ hm => ?_
      exact (hNext e' (links + 1) m d ps).further (by omega)

theorem balanced_postfixed (levels : Nat) (hNested : Balanced tokens nested nested') :
    Balanced tokens (postfixed limit levels nested)
      (postfixed limit levels nested') := by
  have hFrom : Refunds tokens (postfixFrom limit nested levels)
      (postfixFrom limit nested' levels) := by
    induction levels with
    | zero => exact refunds_postfixStep hNested refunds_tooDeep
    | succ levels ih => exact refunds_postfixStep hNested ih
  intro n d ps
  exact (balanced_primary hNested n d ps).bind fun operand m _ hm =>
    (hFrom operand 0 m d ps).further hm

theorem balanced_powerStep {base exponent : Parse Expr} {base' exponent' : Walk Expr}
    (hBase : Balanced tokens base base') (hExponent : Balanced tokens exponent exponent') :
    Balanced tokens (powerStep limit base exponent)
      (powerStep limit base' exponent') := by
  intro n d ps
  refine (hBase n d ps).bind fun left m _ hm => safe_eat (fun _ => ?_) (safe_pure trivial hm)
  refine safe_enter <| safe_expect <| (hExponent (m + 1) _ _).bind fun right k _ hk =>
    safe_fulfil <| safe_leave <| safe_pure trivial ?_
  omega

theorem balanced_power (levels : Nat) (hNested : Balanced tokens nested nested') :
    Balanced tokens (power limit levels nested)
      (power limit levels nested') := by
  have hBase : Balanced tokens (postfixed limit levels nested)
      (postfixed limit levels nested') := balanced_postfixed levels hNested
  have hPowers : ∀ count, Balanced tokens
      (powers limit (postfixed limit levels nested) count)
      (powers limit (postfixed limit levels nested') count) := by
    intro count
    induction count with
    | zero => exact balanced_powerStep hBase fun _ _ _ => safe_tooDeep
    | succ count ih => exact balanced_powerStep hBase ih
  exact hPowers levels

theorem balanced_unary (levels : Nat) (hNested : Balanced tokens nested nested') :
    Balanced tokens (unary limit levels nested)
      (unary limit levels nested') := by
  have hPower : Balanced tokens (power limit levels nested)
      (power limit levels nested') := balanced_power levels hNested
  intro n d ps
  refine safe_peekSymbol fun symbol? hSymbol => ?_
  cases symbol? with
  | none => exact hPower n d ps
  | some symbol =>
    simp only [Option.bind_some]
    cases sign? symbol with
    | none => exact hPower n d ps
    | some o =>
      refine safe_advance (lt_length_of_next (hSymbol symbol rfl)) ?_
      exact (balanced_signed o hPower (n + 1) d ps).further (by omega)

theorem balanced_comparison (levels : Nat) (hNested : Balanced tokens nested nested') :
    Balanced tokens (comparison limit levels nested)
      (comparison limit levels nested') :=
  balanced_chain levels <| balanced_chain levels <| balanced_chain levels <|
    balanced_unary levels hNested

theorem balanced_negation (levels : Nat) (hNested : Balanced tokens nested nested') :
    Balanced tokens (negation limit levels nested)
      (negation limit levels nested') := by
  have hComparison : Balanced tokens (comparison limit levels nested)
      (comparison limit levels nested') := balanced_comparison levels hNested
  intro n d ps
  refine safe_eat (fun _ => ?_) (hComparison n d ps)
  exact (balanced_signed .not hComparison (n + 1) d ps).further (by omega)

theorem balanced_ternaryStep {condition : Parse Expr} {condition' : Walk Expr}
    (hCondition : Balanced tokens condition condition') (hNested : Balanced tokens nested nested') :
    Balanced tokens (ternaryStep limit condition nested)
      (ternaryStep limit condition' nested') := by
  intro n d ps
  refine safe_enter <| (hCondition n (d + 1) ps).bind fun cond m _ hm =>
    safe_eat (fun _ => ?_) (safe_leave (safe_pure trivial hm))
  refine safe_expect <| (hNested (m + 1) _ _).bind fun yes k _ hk => safe_expect <|
    safe_require fun _ => (hNested (k + 1) _ _).bind fun no l _ hl =>
      safe_fulfil <| safe_leave <| safe_pure trivial ?_
  omega

theorem balanced_ternary (limit levels : Nat) :
    Balanced tokens (ternary limit levels) (ternary limit levels) := by
  induction levels with
  | zero => exact fun _ _ _ => safe_tooDeep
  | succ levels ih =>
    refine balanced_ternaryStep ?_ ih
    exact balanced_chain levels (balanced_chain levels (balanced_negation levels ih))

theorem balanced_reader (limit levels : Nat) (r : Rung) :
    ∃ q : Walk Expr, Balanced tokens (reader limit levels r) q := by
  have hNested : Balanced tokens (ternary limit levels) (ternary limit levels) :=
    balanced_ternary limit levels
  have hUnary : Balanced tokens (unary limit levels (ternary limit levels))
      (unary limit levels (ternary limit levels)) := balanced_unary levels hNested
  have hNegation : Balanced tokens (negation limit levels (ternary limit levels))
      (negation limit levels (ternary limit levels)) := balanced_negation levels hNested
  cases r with
  | ternary => exact ⟨_, hNested⟩
  | disjunction => exact ⟨_, balanced_chain levels (balanced_chain levels hNegation)⟩
  | conjunction => exact ⟨_, balanced_chain levels hNegation⟩
  | negation => exact ⟨_, hNegation⟩
  | comparison => exact ⟨_, balanced_comparison levels hNested⟩
  | additive => exact ⟨_, balanced_chain levels (balanced_chain levels hUnary)⟩
  | multiplicative => exact ⟨_, balanced_chain levels hUnary⟩
  | unary => exact ⟨_, hUnary⟩
  | power => exact ⟨_, balanced_power levels hNested⟩
  | postfixed => exact ⟨_, balanced_postfixed levels hNested⟩
  | primary => exact ⟨_, balanced_primary hNested⟩

theorem safe_complete (limit levels : Nat) :
    Safe tokens ⟨0, 0, []⟩ ⟨1, 0, []⟩ (fun _ => True) (complete limit levels)
      (complete limit levels) := by
  refine (balanced_ternary limit levels 0 0 []).bind fun e n _ hn => safe_peek fun next? _ => ?_
  cases next? with
  | none => exact safe_pure trivial hn
  | some _ => exact safe_fail

/-! ### What a reader leaves as it was -/

/-- The tokens that are left in `s'` are those in `s` without at least one that has been consumed,
and nothing else has changed. -/
structure Restored (s s' : State) : Prop where
  consumed : ∃ ts, ts ≠ [] ∧ s.rest = ts ++ s'.rest ∧ s'.position = s.position + ts.length
  depth : s'.depth = s.depth
  pending : s'.pending = s.pending

/-- What reads a part of the grammar: what a rung derives, or a suffix of an operand. -/
inductive IsReader (limit levels : Nat) : Parse Expr → Prop
  | rung (r : Rung) : IsReader limit levels (reader limit levels r)
  | accessor (operand : Expr) : IsReader limit levels (accessor operand)
  | index (operand : Expr) : IsReader limit levels (index (ternary limit levels) operand)
  | call (callee : Expr) : IsReader limit levels (call (ternary limit levels) callee)

/-- Tokens of which those that `s` has consumed come first; which ones they are does not matter. -/
def State.whole (s : State) : List Kind := List.replicate s.position (.int 0) ++ s.rest

theorem State.view_whole (s : State) :
    Cursor.view s.whole ⟨s.position, s.depth, s.pending⟩ = s := by
  obtain ⟨rest, position, depth, pending⟩ := s
  simp [Cursor.view, State.whole]

theorem Safe.restored {s s' : State} {p : Parse Expr} {q : Walk Expr} {e : Expr}
    (h : Safe s.whole ⟨s.position, s.depth, s.pending⟩ ⟨s.position + 1, s.depth, s.pending⟩
      (fun _ => True) p q)
    (hRun : p s = .ok (e, s')) : Restored s s' := by
  have hLength : s.whole.length = s.position + s.rest.length := by simp [State.whole]
  have hAgree := h (show s.position ≤ s.whole.length by omega)
  rw [State.view_whole, hRun] at hAgree
  generalize q s.whole ⟨s.position, s.depth, s.pending⟩ = y at hAgree
  cases hAgree with
  | @ok _ n _ lower upper =>
    obtain ⟨count, rfl⟩ := Nat.exists_eq_add_of_le (Nat.le_of_succ_le lower)
    replace lower : s.position + 1 ≤ s.position + count := lower
    have hCount : (s.rest.take count).length = count := List.length_take_of_le (by omega)
    have hRest : s.whole.drop (s.position + count) = s.rest.drop count := by
      simp [State.whole, List.drop_append]
    refine ⟨⟨s.rest.take count, ?_, ?_, ?_⟩, rfl, rfl⟩
    · exact List.ne_nil_of_length_pos (by omega)
    · show s.rest = s.rest.take count ++ s.whole.drop (s.position + count)
      rw [hRest, List.take_append_drop]
    · rw [hCount]
      rfl

theorem Balanced.restored {s s' : State} {p : Parse Expr} {q : Walk Expr} {e : Expr}
    (h : Balanced s.whole p q) (hRun : p s = .ok (e, s')) : Restored s s' :=
  (h s.position s.depth s.pending).restored hRun

theorem BalancedSuffix.restored {s s' : State} {p : Expr → Parse Expr} {q : Expr → Walk Expr}
    {operand e : Expr} (h : BalancedSuffix s.whole p q) (hRest : s.rest ≠ [])
    (hRun : p operand s = .ok (e, s')) : Restored s s' := by
  have hPosition : s.position < s.whole.length := by
    simpa [State.whole] using List.length_pos_iff.mpr hRest
  exact (h operand s.position s.depth s.pending hPosition).restored hRun

/-- Without a token left there is no suffix to read. -/
theorem rest_of_suffix (nested : Parse Expr) {operand e : Expr} {s s' : State}
    (h : (accessor operand : Parse Expr) s = .ok (e, s') ∨ index nested operand s = .ok (e, s') ∨
      call nested operand s = .ok (e, s')) : s.rest ≠ [] := by
  obtain ⟨rest, position, depth, pending⟩ := s
  rintro rfl
  rcases h with ⟨⟨⟩⟩ | ⟨⟨⟩⟩ | ⟨⟨⟩⟩

theorem IsReader.restored {levels : Nat} {p : Parse Expr} {s s' : State} {e : Expr}
    (h : IsReader limit levels p) (hRun : p s = .ok (e, s')) : Restored s s' := by
  have hNested : Balanced s.whole (ternary limit levels) (ternary limit levels) :=
    balanced_ternary limit levels
  cases h with
  | rung r =>
    obtain ⟨q, hReader⟩ : ∃ q : Walk Expr, Balanced s.whole (reader limit levels r) q :=
      balanced_reader limit levels r
    exact hReader.restored hRun
  | accessor operand =>
    exact balanced_accessor.restored (rest_of_suffix (ternary limit levels) (.inl hRun)) hRun
  | index operand =>
    exact (balanced_index hNested).restored (rest_of_suffix _ (.inr (.inl hRun))) hRun
  | call callee =>
    exact (balanced_call hNested).restored (rest_of_suffix _ (.inr (.inr hRun))) hRun

/-! ### Whole runs -/

/-- From any state, whatever reads a part of the grammar consumes a token if it succeeds, and leaves
the levels charged and what is pending as they were. A run of the parser over any tokens takes none
of the steps that its bookkeeping forbids: the checked run, which the same readers take with checked
small steps, gives the tree or the fault that the parser gives. -/
theorem readers_restore (limit : Nat) (tokens : List Kind) :
    (∀ levels p, IsReader limit levels p →
      ∀ s e s', p s = .ok (e, s') → Restored s s') ∧
    ((complete limit limit : Walk Expr) tokens ⟨0, 0, []⟩).map (·.1) =
      (parse limit tokens).mapError .fault := by
  refine ⟨fun levels p hp s e s' hRun => hp.restored hRun, ?_⟩
  have hRun : SameOutcome tokens ⟨1, 0, []⟩ (fun _ => True)
      ((complete limit limit : Parse Expr) ⟨tokens, 0, 0, []⟩)
      ((complete limit limit : Walk Expr) tokens ⟨0, 0, []⟩) :=
    safe_complete limit limit (Nat.zero_le _)
  rw [parse]
  generalize (complete limit limit : Parse Expr) ⟨tokens, 0, 0, []⟩ = x,
    (complete limit limit : Walk Expr) tokens ⟨0, 0, []⟩ = y at hRun
  cases hRun with
  | fault fault => rfl
  | ok result lower upper => rfl

/-- The tokens `f(x)` in parentheses, and `x[]`, which blames the bracket that opens. -/
theorem readers_restore_call :
    Restored
      ⟨[.name "f", .symbol .leftParen, .name "x", .symbol .rightParen, .symbol .rightParen], 1, 1,
        [.rightParen]⟩
      ⟨[.symbol .rightParen], 5, 1, [.rightParen]⟩ ∧
    ((complete 3 3 : Walk Expr) [.name "x", .symbol .leftBracket, .symbol .rightBracket]
      ⟨0, 0, []⟩).map (·.1) = .error (.fault (.expected .subscript 2)) := by
  refine ⟨(readers_restore 3 []).1 2 _ (.rung .power) _ (.call (.reference "f") [.reference "x"]) _
    ?_, (readers_restore 3 _).2.trans ?_⟩ <;>
    decide +kernel

end Formula.Parser
