import Formula.Proofs.Parser.Reader

/-! What the grammar derives is read by the parser, if enough levels are left. A reader goes on as
long as it can, so what comes after the tokens of a tree must not be able to continue it. About
twice as many levels as tokens are enough, as each link of a chain takes two tokens. -/

namespace Formula

namespace Rung

/-- The rung in which a symbol can come after an operand. -/
def follows? : Symbol → Option Rung
  | .question => some ternary
  | .or => some disjunction
  | .and => some conjunction
  | .equal | .notEqual | .greater | .less | .greaterEqual | .lessEqual => some comparison
  | .plus | .minus => some additive
  | .star | .slash | .doubleSlash | .percent => some multiplicative
  | .doubleStar => some power
  | .dot | .leftBracket | .leftParen => some postfixed
  | .not | .colon | .comma | .rightParen | .rightBracket => none

/-- What comes next does not continue what the rung derives. -/
def Ends (r : Rung) (rest : List Token.Kind) : Prop :=
  ∀ s, rest.head? = some (.symbol s) → ∀ r', follows? s = some r' → r'.place < r.place

variable {r : Rung} {rest : List Token.Kind} {s : Symbol}

theorem Ends.next (h : r.Ends rest) : r.next.Ends rest :=
  fun s hs r' hr => Nat.lt_of_lt_of_le (h s hs r' hr) r.place_le_next

theorem ends_nil (r : Rung) : r.Ends [] := by
  simp [Ends]

theorem ends_symbol (h : ∀ r', follows? s = some r' → r'.place < r.place) :
    r.Ends (.symbol s :: rest) := by
  rintro _ ⟨⟩
  exact h

/-- No tree goes on at a symbol that follows no operand. -/
theorem ends_closing (h : follows? s = none) : r.Ends (.symbol s :: rest) :=
  ends_symbol (by simp [h])

theorem follows?_of_link {join : Expr → Expr → Expr} (h : r.link? s = some join) :
    follows? s = some r := by
  unfold link? at h
  split at h <;> first | rfl | cases h

/-- The operators of a rung do not continue its operands. -/
theorem ends_of_link {join : Expr → Expr → Expr} (h : r.link? s = some join) :
    r.next.Ends (.symbol s :: rest) := by
  refine ends_symbol fun r' hr => ?_
  rw [follows?_of_link h] at hr
  cases hr
  cases r <;> first | decide | cases h

theorem Ends.not_follows (h : r.Ends rest) (hs : follows? s = some r) :
    rest.head? ≠ some (.symbol s) :=
  fun hHead => Nat.lt_irrefl _ (h s hHead r hs)

theorem Ends.link?_eq_none (h : r.Ends rest) : (Parser.symbol? rest).bind r.link? = none := by
  rw [Option.bind_eq_none_iff]
  intro s hs
  obtain ⟨more, rfl⟩ := Parser.symbol?_eq_some.mp hs
  cases hLink : r.link? s with
  | none => rfl
  | some join => exact absurd rfl (h.not_follows (follows?_of_link hLink))

end Rung

namespace Parser

open Grammar (Phrase colonSlots commaArgs separated)

/-- At `depth`, there are `n` levels left, and `levels` do not run out before the limit does. -/
structure Room (limit levels n depth : Nat) : Prop where
  le_limit : depth + n ≤ limit
  limit_le : limit ≤ depth + levels

/-- The room `k` levels deeper. -/
theorem Room.deeper {limit levels n m k depth : Nat} (h : Room limit levels n depth)
    (hk : k + m ≤ n) : Room limit levels m (depth + k) := by
  have hLimit := h.le_limit
  have hLevels := h.limit_le
  exact ⟨by omega, by omega⟩

/-- The levels that the ternary around a rung has charged before the rung is read. -/
def slack : Rung → Nat
  | .ternary => 0
  | _ => 1

/-- With `n` levels left, a reader reads `e` from `ts`, whatever comes after. -/
def Complete (r : Rung) (n : Nat) (ts : List Token.Kind) (e : Expr) : Prop :=
  ∀ limit levels rest position depth pending, Room limit levels n depth → r.Ends rest →
    reader limit levels r ⟨ts ++ rest, position, depth, pending⟩ =
      .ok (e, ⟨rest, position + ts.length, depth, pending⟩)

/-- What reads the rest of a chain of a rung. -/
def more (limit levels : Nat) : Rung → Nat → Expr → Nat → Parse Expr
  | .postfixed => postfixFrom limit (ternary limit levels)
  | r => chainFrom limit r.link? (fun join => join) (reader limit levels r.next)

/-- With `n` levels left, a reader reads `e`, which has `links` links, from `ts` and is about to go
on, if what comes after can continue `e` at most as a link. -/
def Linked (r : Rung) (n links : Nat) (ts : List Token.Kind) (e : Expr) : Prop :=
  ∀ limit levels rest position depth pending, Room limit levels n depth → r.next.Ends rest →
    reader limit levels r ⟨ts ++ rest, position, depth, pending⟩ =
      more limit levels r (levels - links) e links
        ⟨rest, position + ts.length, depth + links, pending⟩

variable {r : Rung} {n m links : Nat} {ts : List Token.Kind} {e : Expr}

theorem more_chain (h : r.IsChain) (limit levels : Nat) :
    more limit levels r =
      chainFrom limit r.link? (fun join => join) (reader limit levels r.next) := by
  obtain ⟨s, join, hs⟩ := h
  cases r <;> first | rfl | cases hs

theorem slack_next (r : Rung) : slack r.next = 1 := by
  cases r <;> rfl

theorem slack_le_one (r : Rung) : slack r ≤ 1 := by
  cases r <;> decide

theorem slack_of_chain (h : r.IsChain) : slack r = 1 := by
  obtain ⟨s, join, hs⟩ := h
  cases r <;> first | rfl | cases hs

/-! ### Chains -/

theorem Complete.linked (hr : r.IsChain ∨ r = .postfixed) (h : Complete r.next n ts e) :
    Linked r n 0 ts e := by
  intro limit levels rest position depth pending room ends
  have hFirst := h limit levels rest position depth pending room ends
  rcases hr with hr | rfl
  · rw [hr.reader, chain, Steps.bind_eq hFirst, more_chain hr]
    rfl
  · exact Steps.bind_eq hFirst

/-- One more link. -/
theorem Linked.link {s : Symbol} {join : Expr → Expr → Expr} {right : List Token.Kind}
    {left e : Expr} (operator : r.link? s = some join) (hl : Linked r n links ts left)
    (hr : Complete r.next m right e) (hm : links + 1 + m ≤ n) :
    Linked r n (links + 1) (ts ++ .symbol s :: right) (join left e) := by
  intro limit levels rest position depth pending room ends
  have hChain : r.IsChain := ⟨s, join, operator⟩
  have hRun := hl limit levels (.symbol s :: (right ++ rest)) position depth pending room
    (Rung.ends_of_link operator)
  have hRight := hr limit levels rest (position + ts.length + 1) (depth + (links + 1))
    (.expression :: pending) (room.deeper hm) ends
  have hLimit := room.le_limit
  have hLevel := room.limit_le
  -- Each link so far has taken a level, and this one takes the next.
  obtain ⟨l, hl⟩ : ∃ l, levels - links = l + 1 := ⟨levels - links - 1, by omega⟩
  have hLeft : levels - (links + 1) = l := by omega
  have hEnter : depth + links + 1 ≤ limit := by omega
  rw [List.append_assoc, List.cons_append, hRun, more_chain hChain, hl, chainFrom, chainStep,
    peekSymbol_bind]
  simp only [symbol?, Option.bind_some, operator]
  have hPosition : position + ts.length + 1 + right.length =
      position + (ts ++ .symbol s :: right).length := by
    simp
    omega
  rw [advance_bind, enter_bind hEnter, expect_bind, Nat.add_assoc depth, Steps.bind_eq hRight,
    fulfil_bind, hLeft, hPosition]

theorem chainFrom_stop {operand : Parse Expr} {limit n links position depth : Nat}
    {rest : List Token.Kind} {pending : List Expectation} (ends : r.Ends rest) :
    chainFrom limit r.link? (fun join => join) operand n e links
        ⟨rest, position, depth, pending⟩ =
      .ok (e, ⟨rest, position, depth - links, pending⟩) := by
  cases n <;> rw [chainFrom, chainStep, peekSymbol_bind, ends.link?_eq_none] <;> rfl

theorem postfixFrom_stop {nested : Parse Expr} {limit n links position depth : Nat}
    {rest : List Token.Kind} {pending : List Expectation} (ends : Rung.postfixed.Ends rest) :
    postfixFrom limit nested n e links ⟨rest, position, depth, pending⟩ =
      .ok (e, ⟨rest, position, depth - links, pending⟩) := by
  have hStop : (symbol? rest).bind (suffix? nested) = none := by
    rw [Option.bind_eq_none_iff]
    intro s hs
    obtain ⟨more, rfl⟩ := symbol?_eq_some.mp hs
    cases s <;> first | rfl | exact absurd rfl (ends.not_follows rfl)
  cases n <;> exact postfixStep_stop hStop

/-- A chain that nothing can continue has been read. -/
theorem Linked.complete (hr : r.IsChain ∨ r = .postfixed) (h : Linked r n links ts e) :
    Complete r n ts e := by
  intro limit levels rest position depth pending room ends
  rw [h limit levels rest position depth pending room ends.next]
  have hDepth : depth + links - links = depth := by omega
  rcases hr with hr | rfl
  · rw [more_chain hr, chainFrom_stop ends, hDepth]
  · rw [more, postfixFrom_stop ends, hDepth]

/-- One more accessor, subscript or call. -/
theorem Linked.suffix {s : Symbol} {us : List Token.Kind} {operand : Expr}
    (ho : Linked .postfixed n links ts operand) (hs : Rung.follows? s = some .postfixed)
    (hm : links + 1 + m ≤ n)
    (hSuffix : ∀ limit levels rest position depth pending, Room limit levels m depth →
      ∃ p : Expr → Parse Expr, suffix? (ternary limit levels) s = some p ∧
        p operand ⟨.symbol s :: (us ++ rest), position, depth, pending⟩ =
          .ok (e, ⟨rest, position + 1 + us.length, depth, pending⟩)) :
    Linked .postfixed n (links + 1) (ts ++ .symbol s :: us) e := by
  intro limit levels rest position depth pending room ends
  have hEnds : Rung.primary.Ends (.symbol s :: (us ++ rest)) := by
    refine Rung.ends_symbol fun r' hr => ?_
    rw [hs] at hr
    cases hr
    decide
  have hRun := ho limit levels (.symbol s :: (us ++ rest)) position depth pending room hEnds
  obtain ⟨p, hp, hRead⟩ := hSuffix limit levels rest (position + ts.length) (depth + (links + 1))
    pending (room.deeper hm)
  have hLimit := room.le_limit
  have hLevel := room.limit_le
  obtain ⟨l, hl⟩ : ∃ l, levels - links = l + 1 := ⟨levels - links - 1, by omega⟩
  have hLeft : levels - (links + 1) = l := by omega
  have hEnter : depth + links + 1 ≤ limit := by omega
  have hPosition : position + ts.length + 1 + us.length =
      position + (ts ++ .symbol s :: us).length := by
    simp
    omega
  rw [List.append_assoc, List.cons_append, hRun, more, hl, postfixFrom, postfixStep_suffix rfl hp,
    enter_bind hEnter, Nat.add_assoc depth, Steps.bind_eq hRead, hLeft, hPosition]

/-! ### Accessors, subscripts and calls -/

/-- A phrase that is derived, and read with `n` levels left. -/
def Read (n : Nat) (p : Phrase) : Prop := Derives .ternary p.1 p.2 ∧ Complete .ternary n p.1 p.2

variable {limit levels position depth : Nat} {rest : List Token.Kind} {pending : List Expectation}

theorem Read.bind {α : Type} {p : Phrase} (h : Read n p) (room : Room limit levels n depth)
    {s : Symbol} (hClosing : rest.head? = some (.symbol s)) (hs : Rung.follows? s = none)
    {f : Expr → Parse α} :
    (ternary limit levels >>= f) ⟨p.1 ++ rest, position, depth, pending⟩ =
      f p.2 ⟨rest, position + p.1.length, depth, pending⟩ := by
  obtain ⟨more, rfl⟩ := List.head?_eq_some_iff.mp hClosing
  exact Steps.bind_eq (h.2 limit levels _ position depth pending room (Rung.ends_closing hs))

/-- `rest` begins with a symbol that ends a bound. -/
def Closes (rest : List Token.Kind) : Prop :=
  ∃ s more, rest = .symbol s :: more ∧ (s = .colon ∨ s = .rightBracket)

theorem closes_colonSlots (bounds : List (Option Phrase)) (rest : List Token.Kind) :
    Closes (colonSlots bounds ++ .symbol .rightBracket :: rest) := by
  cases bounds with
  | nil => exact ⟨.rightBracket, rest, rfl, .inr rfl⟩
  | cons bound? bounds => exact ⟨.colon, _, rfl, .inl rfl⟩

theorem slot_bind {α : Type} {bound? : Option Phrase} (h : ∀ bound ∈ bound?, Read n bound)
    (room : Room limit levels n depth) (hClosing : Closes rest) {f : Option Expr → Parse α} :
    (slot (ternary limit levels) >>= f)
        ⟨Grammar.slot bound? ++ rest, position, depth, pending⟩ =
      f (bound?.map (·.2)) ⟨rest, position + (Grammar.slot bound?).length, depth, pending⟩ := by
  obtain ⟨s, more, rfl, hs⟩ := hClosing
  apply Steps.bind_eq
  cases bound? with
  | none =>
    show (slot _ : Parse _) ⟨.symbol s :: more, position, depth, pending⟩ = _
    rw [slot, peekIs_bind, peekIs_bind, if_pos (by rcases hs with rfl | rfl <;> rfl)]
    rfl
  | some bound =>
    have hBound := h bound rfl
    have hColon := hBound.1.head?_ne (s := .colon) (by simp [Rung.opens])
      (Token.Kind.symbol s :: more)
    have hBracket := hBound.1.head?_ne (s := .rightBracket) (by simp [Rung.opens])
      (Token.Kind.symbol s :: more)
    have hs' : Rung.follows? s = none := by rcases hs with rfl | rfl <;> rfl
    show (slot _ : Parse _) ⟨bound.1 ++ .symbol s :: more, position, depth, pending⟩ = _
    rw [slot, peekIs_bind_other hColon, peekIs_bind_other hBracket, if_neg (by simp),
      hBound.bind room rfl hs']
    rfl

theorem moreSlots_bind {α : Type} {bounds : List (Option Phrase)}
    (h : ∀ bound? ∈ bounds, ∀ bound ∈ bound?, Read n bound) {count : Nat}
    (hLength : bounds.length ≤ count) (room : Room limit levels n depth)
    {f : List (Option Expr) → Parse α} :
    (moreSlots (ternary limit levels) count >>= f)
        ⟨colonSlots bounds ++ .symbol .rightBracket :: rest, position, depth, pending⟩ =
      f (bounds.map (·.map (·.2)))
        ⟨.symbol .rightBracket :: rest, position + (colonSlots bounds).length, depth, pending⟩ := by
  apply Steps.bind_eq
  induction bounds generalizing count position with
  | nil => cases count <;> rfl
  | cons bound? bounds ih =>
    obtain ⟨count, rfl⟩ : ∃ c, count = c + 1 := ⟨count - 1, by simp at hLength; omega⟩
    obtain ⟨hFirst, hOthers⟩ := List.forall_mem_cons.mp h
    have hTokens : colonSlots (bound? :: bounds) ++ .symbol .rightBracket :: rest =
        .symbol .colon :: (Grammar.slot bound? ++
          (colonSlots bounds ++ .symbol .rightBracket :: rest)) := by
      simp [colonSlots]
    rw [hTokens, moreSlots, peekIs_bind_next, if_pos rfl, expect_bind, advance_bind,
      slot_bind hFirst room (closes_colonSlots bounds rest), fulfil_bind,
      Steps.bind_eq (ih hOthers (by simpa using hLength))]
    simp [colonSlots]
    omega

theorem subscriptFrom_eq {operand : Expr} (first? : Option Phrase) {others : List (Option Phrase)}
    (pending : List Expectation)
    (h : ∀ bound? ∈ others, ∀ bound ∈ bound?, Read n bound) (hLength : others.length ≤ 2)
    (hTree : subscripted operand (first?.map (·.2) :: others.map (·.map (·.2))) = some e)
    (room : Room limit levels n depth) :
    (subscriptFrom (ternary limit levels) operand (first?.map (·.2)) : Parse Expr)
        ⟨colonSlots others ++ .symbol .rightBracket :: rest, position, depth,
          .rightBracket :: pending⟩ =
      .ok (e, ⟨rest, position + (colonSlots others).length + 1, depth, pending⟩) := by
  rw [subscriptFrom, moreSlots_bind h hLength room, require_bind, hTree]
  rfl

/-- A key or bounds between brackets. -/
theorem index_eq {operand : Expr} {first? : Option Phrase} {others : List (Option Phrase)}
    (h : ∀ bound? ∈ first? :: others, ∀ bound ∈ bound?, Read n bound) (hLength : others.length ≤ 2)
    (hTree : subscripted operand (first?.map (·.2) :: others.map (·.map (·.2))) = some e)
    {tokens : List Token.Kind}
    (hTokens : tokens =
      Grammar.slot first? ++ (colonSlots others ++ .symbol .rightBracket :: rest))
    (room : Room limit levels n depth) :
    (index (ternary limit levels) operand : Parse Expr)
        ⟨.symbol .leftBracket :: tokens, position, depth, pending⟩ =
      .ok (e, ⟨rest, position + 1 + (Grammar.slot first?).length + (colonSlots others).length + 1,
        depth, pending⟩) := by
  obtain ⟨hFirst, hOthers⟩ := List.forall_mem_cons.mp h
  rw [index, called_eq, expect_bind, advance_bind, peek_bind]
  cases first? with
  | none =>
    -- A subscript with nothing in it has no tree, so there is a colon next.
    obtain ⟨stop, others', rfl⟩ : ∃ stop others', others = stop :: others' := by
      cases others with
      | nil => simp [subscripted] at hTree
      | cons stop others' => exact ⟨stop, others', rfl⟩
    rw [hTokens, peekIs_bind_other (by simp [Grammar.slot, colonSlots]),
      if_neg (by simp [Grammar.slot, colonSlots])]
    exact subscriptFrom_eq none pending hOthers hLength hTree room
  | some key =>
    have hKey : Read n key := hFirst key rfl
    obtain ⟨s, more, hMore, hs⟩ := closes_colonSlots others rest
    have hs' : Rung.follows? s = none := by rcases hs with rfl | rfl <;> rfl
    have hBracket := hKey.1.head?_ne (s := .rightBracket) (by simp [Rung.opens])
      (colonSlots others ++ .symbol .rightBracket :: rest)
    have hColon := hKey.1.head?_ne (s := .colon) (by simp [Rung.opens])
      (colonSlots others ++ .symbol .rightBracket :: rest)
    rw [hTokens, Grammar.slot, Option.elim_some, peekIs_bind_other hBracket,
      if_neg (by simp), peekIs_bind_other hColon]
    show (some <$> ternary limit levels >>= subscriptFrom _ operand : Parse Expr) _ = _
    rw [bind_map_left, hKey.bind room (by rw [hMore]; rfl) hs']
    exact subscriptFrom_eq (some key) pending hOthers hLength hTree room

theorem commaArgs_head (args : List Phrase) (rest : List Token.Kind) :
    ∃ s, (commaArgs args ++ .symbol .rightParen :: rest).head? = some (.symbol s) ∧
      Rung.follows? s = none := by
  cases args with
  | nil => exact ⟨.rightParen, rfl, rfl⟩
  | cons arg args => exact ⟨.comma, rfl, rfl⟩

/-- Arguments with a comma before each. -/
theorem moreArgs_bind {α : Type} {args : List Phrase} (h : ∀ arg ∈ args, Read n arg) {count : Nat}
    (hLength : args.length ≤ count) (room : Room limit levels n depth) {f : List Expr → Parse α} :
    (moreArgs (ternary limit levels) count >>= f)
        ⟨commaArgs args ++ .symbol .rightParen :: rest, position, depth, pending⟩ =
      f (args.map (·.2))
        ⟨.symbol .rightParen :: rest, position + (commaArgs args).length, depth, pending⟩ := by
  apply Steps.bind_eq
  induction args generalizing count position with
  | nil =>
    cases count with
    | zero => rfl
    | succ count =>
      show (moreArgs _ _ : Parse _) ⟨.symbol .rightParen :: rest, position, depth, pending⟩ = _
      rw [moreArgs, eat_bind_other (by simp)]
      rfl
  | cons arg args ih =>
    obtain ⟨count, rfl⟩ : ∃ c, count = c + 1 := ⟨count - 1, by simp at hLength; omega⟩
    obtain ⟨hFirst, hOthers⟩ := List.forall_mem_cons.mp h
    have hTokens : commaArgs (arg :: args) ++ .symbol .rightParen :: rest =
        .symbol .comma :: (arg.1 ++ (commaArgs args ++ .symbol .rightParen :: rest)) := by
      simp [commaArgs]
    obtain ⟨s, hHead, hs⟩ := commaArgs_head args rest
    rw [hTokens, moreArgs, eat_bind, if_pos rfl, expect_bind, hFirst.bind room hHead hs,
      fulfil_bind, Steps.bind_eq (ih hOthers (by simpa using hLength))]
    simp [commaArgs]
    omega

theorem length_le_commaArgs (args : List Phrase) : args.length ≤ (commaArgs args).length := by
  induction args with
  | nil => exact Nat.le_refl 0
  | cons arg args ih =>
    simp only [commaArgs, List.flatMap_cons, List.length_append, List.length_cons] at ih ⊢
    omega

/-- Arguments between parentheses. -/
theorem call_eq {callee : Expr} {args : List Phrase} (h : ∀ arg ∈ args, Read n arg)
    (room : Room limit levels n depth) :
    (call (ternary limit levels) callee : Parse Expr)
        ⟨.symbol .leftParen :: (separated args ++ .symbol .rightParen :: rest), position, depth,
          pending⟩ =
      .ok (.call callee (args.map (·.2)),
        ⟨rest, position + 1 + (separated args).length + 1, depth, pending⟩) := by
  cases args with
  | nil => rfl
  | cons first others =>
    obtain ⟨hFirst, hOthers⟩ := List.forall_mem_cons.mp h
    have hTokens : separated (first :: others) ++ .symbol .rightParen :: rest =
        first.1 ++ (commaArgs others ++ .symbol .rightParen :: rest) := by
      simp [separated]
    rw [hTokens]
    have hRun : (call (ternary limit levels) callee : Parse Expr)
        ⟨.symbol .leftParen :: (first.1 ++ (commaArgs others ++ .symbol .rightParen :: rest)),
          position, depth, pending⟩ =
        (argsFrom (ternary limit levels) callee : Parse Expr)
          ⟨first.1 ++ (commaArgs others ++ .symbol .rightParen :: rest), position + 1, depth,
            .rightParen :: pending⟩ := by
      -- No argument begins with the parenthesis that would end the call.
      obtain ⟨k, more, hMore, hk⟩ := hFirst.1.opens
      rw [hMore]
      refine call_other ?_
      rintro rfl
      exact hk
    obtain ⟨s, hHead, hs⟩ := commaArgs_head others rest
    rw [hRun, argsFrom, hFirst.bind room hHead hs, left_bind,
      moreArgs_bind hOthers (by have := length_le_commaArgs others; simp; omega) room,
      require_bind]
    simp [separated]
    omega

/-! ### The other rungs -/

theorem complete_leaf {k : Token.Kind} (h : Grammar.leaf? k = some e) :
    Complete .primary n [k] e := by
  intro limit levels rest position depth pending _ _
  cases k <;> cases h <;> rfl

theorem Complete.group (h : Complete .ternary n ts e) :
    Complete .primary n (.symbol .leftParen :: (ts ++ [Token.Kind.symbol .rightParen])) e := by
  intro limit levels rest position depth pending room _
  have hTokens : Token.Kind.symbol .leftParen :: (ts ++ [Token.Kind.symbol .rightParen]) ++ rest =
      Token.Kind.symbol .leftParen :: (ts ++ Token.Kind.symbol .rightParen :: rest) := by
    simp
  have hInner := h limit levels (.symbol .rightParen :: rest) (position + 1) depth
    (.rightParen :: pending) room (Rung.ends_closing rfl)
  rw [reader] at hInner
  rw [hTokens, reader, primary, called_eq, peek_bind]
  show (advance >>= _ : Parse Expr) _ = _
  rw [advance_bind, expect_bind, Steps.bind_eq hInner, require_bind]
  simp
  omega

/-- With `n` levels left, a power is read from `ts`, as long as its own levels last. -/
def Powered (n : Nat) (ts : List Token.Kind) (e : Expr) : Prop :=
  ∀ limit levels own rest position depth pending,
    Room limit levels n depth → limit ≤ depth + own → Rung.power.Ends rest →
    powers limit (reader limit levels .postfixed) own ⟨ts ++ rest, position, depth, pending⟩ =
      .ok (e, ⟨rest, position + ts.length, depth, pending⟩)

theorem Powered.complete (h : Powered n ts e) : Complete .power n ts e :=
  fun limit levels rest position depth pending room ends =>
    h limit levels levels rest position depth pending room room.limit_le ends

theorem Complete.powered (h : Complete .postfixed n ts e) : Powered n ts e := by
  intro limit levels own rest position depth pending room _ ends
  have hBase := h limit levels rest position depth pending room ends.next
  cases own <;>
    rw [powers, called_eq, powerStep, Steps.bind_eq hBase,
      eat_bind_other (ends.not_follows rfl)] <;> rfl

theorem Powered.power {base : List Token.Kind} {b x : Expr} (hb : Complete .postfixed n base b)
    (hx : Powered m ts x) (hm : 1 + m ≤ n) :
    Powered n (base ++ .symbol .doubleStar :: ts) (.binary .pow b x) := by
  intro limit levels own rest position depth pending room hOwn ends
  have hLimit := room.le_limit
  obtain ⟨own, rfl⟩ : ∃ l, own = l + 1 := ⟨own - 1, by omega⟩
  have hBase := hb limit levels (.symbol .doubleStar :: (ts ++ rest)) position depth pending room
    (Rung.ends_symbol (by rintro _ ⟨⟩; decide))
  have hExponent := hx limit levels own rest (position + base.length + 1) (depth + 1)
    (.expression :: pending) (room.deeper hm) (by omega) ends
  rw [List.append_assoc, List.cons_append, powers, called_eq, powerStep, Steps.bind_eq hBase,
    eat_bind, if_pos rfl, enter_bind (by omega), expect_bind, Steps.bind_eq hExponent, fulfil_bind,
    leave_bind]
  simp
  omega

/-- A sign in front of an operand. -/
theorem Complete.sign {s : Symbol} {op : UnaryOp} (operator : r.sign? s = some op)
    (h : Complete r.next n ts e) : Complete r n (.symbol s :: ts) (.unary op e) := by
  intro limit levels rest position depth pending room ends
  have hOperand := h limit levels rest (position + 1) depth (.expression :: pending) room ends.next
  have hRun : reader limit levels r ⟨.symbol s :: (ts ++ rest), position, depth, pending⟩ =
      signed op (reader limit levels r.next) ⟨ts ++ rest, position + 1, depth, pending⟩ := by
    cases r with
    | negation =>
      obtain rfl : s = .not := by cases s <;> first | rfl | cases operator
      cases operator
      rw [reader, negation, called_eq, eat_bind]
      rfl
    | unary =>
      rw [reader, unary, called_eq, peekSymbol_bind, Rung.sign?_unary]
      simp only [symbol?, Option.bind_some, operator]
      rfl
    | _ => cases operator
  rw [List.cons_append, hRun, signed, expect_bind, Steps.bind_eq hOperand, fulfil_bind]
  simp
  omega

/-- An operand of a rung that may have a sign, without one. -/
theorem Complete.unsigned (hr : r = .negation ∨ r = .unary) (hd : Derives r.next ts e)
    (h : Complete r.next n ts e) : Complete r n ts e := by
  intro limit levels rest position depth pending room ends
  have hOperand := h limit levels rest position depth pending room ends.next
  have hRun : reader limit levels r ⟨ts ++ rest, position, depth, pending⟩ =
      reader limit levels r.next ⟨ts ++ rest, position, depth, pending⟩ := by
    rcases hr with rfl | rfl
    · have hNot := hd.head?_ne (s := .not) (by simp [Rung.opens, Rung.next, Rung.place]) rest
      rw [reader, negation, called_eq, eat_bind_other hNot]
      rfl
    · have hSign : (symbol? (ts ++ rest)).bind Rung.unary.sign? = none := by
        rw [Option.bind_eq_none_iff]
        intro s hs
        obtain ⟨more, hMore⟩ := symbol?_eq_some.mp hs
        have hHead : (ts ++ rest).head? = some (.symbol s) := by rw [hMore]; rfl
        cases s with
        | minus | plus =>
          exact absurd hHead (hd.head?_ne (by simp [Rung.opens, Rung.next, Rung.place]) rest)
        | _ => rfl
      rw [reader, unary, called_eq, peekSymbol_bind, Rung.sign?_unary, hSign]
      rfl
  rw [hRun, hOperand]

/-- The room inside a ternary, which charges a level. -/
theorem Room.enter (h : Room limit levels (n + 1) depth) :
    depth + 1 ≤ limit ∧ ∃ l, levels = l + 1 ∧ Room limit l n (depth + 1) := by
  have hLimit := h.le_limit
  have hLevel := h.limit_le
  exact ⟨by omega, levels - 1, by omega, by omega, by omega⟩

/-- A condition alone. -/
theorem Complete.ternary (h : Complete .disjunction n ts e) : Complete .ternary (n + 1) ts e := by
  intro limit levels rest position depth pending room ends
  obtain ⟨hEnter, l, rfl, hRoom⟩ := room.enter
  have hTest := h limit l rest position (depth + 1) pending hRoom ends.next
  rw [reader] at hTest
  rw [reader, Parser.ternary, called_eq, ternaryStep, enter_bind hEnter, Steps.bind_eq hTest,
    eat_bind_other (ends.not_follows rfl), if_neg Bool.false_ne_true, leave_bind]
  rfl

/-- A condition with two branches. -/
theorem Complete.condition {yes no : List Token.Kind} {c y x : Expr}
    (hc : Complete .disjunction n ts c) (hy : Complete .ternary n yes y)
    (hx : Complete .ternary n no x) :
    Complete .ternary (n + 1) (ts ++ .symbol .question :: (yes ++ .symbol .colon :: no))
      (.ternary c y x) := by
  intro limit levels rest position depth pending room ends
  have hTokens : ts ++ .symbol .question :: (yes ++ .symbol .colon :: no) ++ rest =
      ts ++ .symbol .question :: (yes ++ .symbol .colon :: (no ++ rest)) := by
    simp
  obtain ⟨hEnter, l, rfl, hRoom⟩ := room.enter
  have hTest := hc limit l (.symbol .question :: (yes ++ .symbol .colon :: (no ++ rest))) position
    (depth + 1) pending hRoom (Rung.ends_symbol (by rintro _ ⟨⟩; decide))
  have hYes := hy limit l (.symbol .colon :: (no ++ rest)) (position + ts.length + 1) (depth + 1)
    (.expression :: pending) hRoom (Rung.ends_closing rfl)
  have hNo := hx limit l rest (position + ts.length + 1 + yes.length + 1) (depth + 1)
    (.expression :: pending) hRoom ends
  simp only [reader] at hTest hYes hNo
  rw [hTokens, reader, Parser.ternary, called_eq, ternaryStep, enter_bind hEnter,
    Steps.bind_eq hTest, eat_bind, if_pos rfl, expect_bind, Steps.bind_eq hYes, expect_bind,
    require_bind, Steps.bind_eq hNo, fulfil_bind, leave_bind]
  simp
  omega

/-! ### Everything that is derived -/

/-- What holds of the reader of a rung if the levels are about twice as many as the tokens: a chain
can also go on, and a power can also be the right operand of a power. -/
structure Reads (r : Rung) (ts : List Token.Kind) (e : Expr) : Prop where
  complete : ∀ n, 2 * ts.length ≤ n + 1 + slack r → Complete r n ts e
  linked : r.IsChain ∨ r = .postfixed →
    ∃ links, 2 * links < ts.length ∧ ∀ n, 2 * ts.length ≤ n + 2 → Linked r n links ts e
  powered : r = .power → ∀ n, 2 * ts.length ≤ n + 2 → Powered n ts e

theorem reads_of_linked (hr : r.IsChain ∨ r = .postfixed) (hLinks : 2 * links < ts.length)
    (h : ∀ n, 2 * ts.length ≤ n + 2 → Linked r n links ts e) : Reads r ts e where
  complete n hn := by
    have hSlack : slack r = 1 := by
      rcases hr with hr | rfl
      · exact slack_of_chain hr
      · rfl
    exact (h n (by omega)).complete hr
  linked _ := ⟨links, hLinks, h⟩
  powered := by
    rintro rfl
    rcases hr with ⟨s, join, hs⟩ | hr
    · cases hs
    · cases hr

theorem reads_of_powered (h : ∀ n, 2 * ts.length ≤ n + 2 → Powered n ts e) :
    Reads .power ts e where
  complete n hn := (h n hn).complete
  linked := by
    rintro (⟨s, join, hs⟩ | hr)
    · cases hs
    · cases hr
  powered _ := h

theorem reads_of_complete (hr : r = .ternary ∨ r = .negation ∨ r = .unary ∨ r = .primary)
    (h : ∀ n, 2 * ts.length ≤ n + 1 + slack r → Complete r n ts e) : Reads r ts e where
  complete := h
  linked := by
    rintro (⟨s, join, hs⟩ | rfl)
    · rcases hr with rfl | rfl | rfl | rfl <;> cases hs
    · simp at hr
  powered := by
    rintro rfl
    simp at hr

/-- What the next rung derives is read by a rung. -/
theorem Reads.tighter (hd : Derives r.next ts e) (h : Reads r.next ts e) : Reads r ts e := by
  have hNonempty := List.length_pos_iff.mpr hd.ne_nil
  have hNext : ∀ n, 2 * ts.length ≤ n + 2 → Complete r.next n ts e :=
    fun n hn => h.complete n (by rw [slack_next]; exact hn)
  have hLinked : r.IsChain ∨ r = .postfixed → Reads r ts e := fun hr =>
    reads_of_linked hr (by omega) fun n hn => (hNext n hn).linked hr
  cases r with
  | ternary =>
    refine reads_of_complete (by simp) fun n hn => ?_
    obtain ⟨n, rfl⟩ : ∃ m, n = m + 1 := ⟨n - 1, by simp only [slack] at hn; omega⟩
    exact (hNext n hn).ternary
  | disjunction => exact hLinked (.inl ⟨.or, _, rfl⟩)
  | conjunction => exact hLinked (.inl ⟨.and, _, rfl⟩)
  | negation => exact reads_of_complete (by simp) fun n hn => (hNext n hn).unsigned (.inl rfl) hd
  | comparison => exact hLinked (.inl ⟨.equal, _, rfl⟩)
  | additive => exact hLinked (.inl ⟨.plus, _, rfl⟩)
  | multiplicative => exact hLinked (.inl ⟨.star, _, rfl⟩)
  | unary => exact reads_of_complete (by simp) fun n hn => (hNext n hn).unsigned (.inr rfl) hd
  | power => exact reads_of_powered fun n hn => (hNext n hn).powered
  | postfixed => exact hLinked (.inr rfl)
  | primary => exact h

/-- One more accessor, subscript or call, for whose parts twice as many levels as tokens are
left. -/
theorem Reads.suffix {s : Symbol} {us : List Token.Kind} {operand : Expr}
    (ho : Reads .postfixed ts operand) (hs : Rung.follows? s = some .postfixed) (hne : us ≠ [])
    (hSuffix : ∀ limit levels rest position depth pending, Room limit levels (2 * us.length) depth →
      ∃ p : Expr → Parse Expr, suffix? (ternary limit levels) s = some p ∧
        p operand ⟨.symbol s :: (us ++ rest), position, depth, pending⟩ =
          .ok (e, ⟨rest, position + 1 + us.length, depth, pending⟩)) :
    Reads .postfixed (ts ++ .symbol s :: us) e := by
  obtain ⟨links, hLinks, hLinked⟩ := ho.linked (.inr rfl)
  have hNonempty := List.length_pos_iff.mpr hne
  refine reads_of_linked (.inr rfl) (show 2 * (links + 1) < _ from ?_) fun n hn => ?_
  · rw [List.length_append, List.length_cons]
    omega
  · rw [List.length_append, List.length_cons] at hn
    exact (hLinked n (by omega)).suffix hs (by omega) hSuffix

theorem length_le_of_arg {arg : Phrase} {args : List Phrase} (h : arg ∈ args) :
    arg.1.length ≤ (separated args).length := by
  cases args with
  | nil => cases h
  | cons first others =>
    rcases List.mem_cons.mp h with rfl | hOther
    · simp [separated]
    · obtain ⟨before, after, rfl⟩ := List.append_of_mem hOther
      simp only [separated, commaArgs, List.flatMap_append, List.flatMap_cons, List.length_append,
        List.length_cons]
      omega

theorem length_le_of_bound {bound : Phrase} {first? : Option Phrase}
    {others : List (Option Phrase)} (h : some bound ∈ first? :: others) :
    bound.1.length ≤ (Grammar.slot first?).length + (colonSlots others).length := by
  rcases List.mem_cons.mp h with rfl | hOther
  · exact Nat.le_add_right _ _
  · obtain ⟨before, after, rfl⟩ := List.append_of_mem hOther
    simp only [colonSlots, Grammar.slot, Option.elim_some, List.flatMap_append, List.flatMap_cons,
      List.length_append, List.length_cons]
    omega

/-- A subscript after an operand. -/
theorem Reads.subscript {operand : Expr} (first? : Option Phrase) (others : List (Option Phrase))
    (ho : Reads .postfixed ts operand)
    (h : ∀ bound? ∈ first? :: others, ∀ bound ∈ bound?,
      Derives .ternary bound.1 bound.2 ∧ Reads .ternary bound.1 bound.2)
    (hLength : others.length ≤ 2)
    (hTree : subscripted operand (first?.map (·.2) :: others.map (·.map (·.2))) = some e) :
    Reads .postfixed (ts ++ Token.Kind.symbol .leftBracket ::
      (Grammar.slot first? ++ (colonSlots others ++ [Token.Kind.symbol .rightBracket]))) e := by
  refine ho.suffix rfl (by simp) ?_
  intro limit levels rest position depth pending room
  have hTokens :
      Grammar.slot first? ++ (colonSlots others ++ [Token.Kind.symbol .rightBracket]) ++ rest =
        Grammar.slot first? ++ (colonSlots others ++ Token.Kind.symbol .rightBracket :: rest) := by
    simp
  simp only [List.length_append] at room
  refine ⟨_, rfl, (index_eq (fun bound? hBound? bound hBound => ?_) hLength hTree hTokens
    room).trans ?_⟩
  · obtain ⟨hDerives, hReads⟩ := h bound? hBound? bound hBound
    obtain rfl : bound? = some bound := hBound
    have hShort := length_le_of_bound hBound?
    exact ⟨hDerives, hReads.complete _ (by omega)⟩
  · simp [Nat.add_assoc]

/-- What a rung derives is read by its reader. -/
theorem reads_of_derives (h : Derives r ts e) : Reads r ts e := by
  induction h with
  | tighter h ih => exact ih.tighter h
  | condition hc hy hx ihc ihy ihx =>
    refine reads_of_complete (by simp) fun n hn => ?_
    have hSlack : slack .ternary = 0 := rfl
    have hSlack' : slack .disjunction = 1 := rfl
    simp only [List.length_append, List.length_cons] at hn
    obtain ⟨n, rfl⟩ : ∃ m, n = m + 1 := ⟨n - 1, by omega⟩
    exact (ihc.complete n (by omega)).condition (ihy.complete n (by omega))
      (ihx.complete n (by omega))
  | @link r s join left right l e operator _ hr ihl ihr =>
    have hChain : r.IsChain := ⟨s, join, operator⟩
    obtain ⟨links, hLinks, hLinked⟩ := ihl.linked (.inl hChain)
    have hNonempty := List.length_pos_iff.mpr hr.ne_nil
    refine reads_of_linked (.inl hChain) (show 2 * (links + 1) < _ from ?_) fun n hn => ?_
    · rw [List.length_append, List.length_cons]
      omega
    · rw [List.length_append, List.length_cons] at hn
      -- The operator and the operand in front of it leave the levels that this operand needs.
      have hRight := ihr.complete (2 * right.length - 2) (by rw [slack_next]; omega)
      exact (hLinked n (by omega)).link operator hRight (by omega)
  | @sign r s op ts e operator _ ih =>
    have hSlack : slack r = 1 := by cases r <;> first | rfl | cases operator
    refine reads_of_complete ?_ fun n hn => ?_
    · cases r <;> first | cases operator | simp
    · rw [List.length_cons] at hn
      exact (ih.complete n (by rw [slack_next]; omega)).sign operator
  | @power base exponent b x hb hx ihb ihx =>
    refine reads_of_powered fun n hn => ?_
    have hSlack : slack .postfixed = 1 := rfl
    have hNonempty := List.length_pos_iff.mpr hx.ne_nil
    rw [List.length_append, List.length_cons] at hn
    have hExponent := ihx.powered rfl (n - 1) (by omega)
    exact Powered.power (ihb.complete n (by omega)) hExponent (by omega)
  | access _ ih =>
    exact ih.suffix rfl (by simp) fun _ _ _ _ _ _ _ => ⟨accessor, rfl, rfl⟩
  | call args _ hargs ihf ihargs =>
    refine ihf.suffix rfl (by simp) ?_
    intro limit levels rest position depth pending room
    have hArgs : ∀ arg ∈ args, Read
        (2 * (separated args ++ [Token.Kind.symbol .rightParen]).length) arg := by
      intro arg hArg
      have hShort := length_le_of_arg hArg
      refine ⟨hargs arg hArg, (ihargs arg hArg).complete _ ?_⟩
      rw [List.length_append]
      omega
    rw [List.append_assoc]
    refine ⟨_, rfl, (call_eq hArgs room).trans ?_⟩
    simp [Nat.add_assoc]
  | @item ts keyTokens e key _ hkey ih ihkey =>
    have hReads := ih.subscript (some (keyTokens, key)) [] (by simpa using ⟨hkey, ihkey⟩)
      (Nat.zero_le 2) rfl
    simpa [colonSlots, Grammar.slot] using hReads
  | slice start stop _ hstart hstop ih ihstart ihstop =>
    have hStart := fun p h => And.intro (hstart p h) (ihstart p h)
    have hStop := fun p h => And.intro (hstop p h) (ihstop p h)
    have hReads := ih.subscript start [stop]
      (by simpa using And.intro hStart hStop) (Nat.le_succ 1) rfl
    simpa [colonSlots] using hReads
  | steppedSlice start stop step _ hstart hstop hstep ih ihstart ihstop ihstep =>
    have hStart := fun p h => And.intro (hstart p h) (ihstart p h)
    have hStop := fun p h => And.intro (hstop p h) (ihstop p h)
    have hStep := fun p h => And.intro (hstep p h) (ihstep p h)
    have hReads := ih.subscript start [stop, step]
      (by simpa using And.intro hStart (And.intro hStop hStep)) (Nat.le_refl 2) rfl
    simpa [colonSlots] using hReads
  | group _ ih =>
    refine reads_of_complete (by simp) fun n hn => ?_
    have hSlack : slack .ternary = 0 := rfl
    have hSlack' : slack .primary = 1 := rfl
    simp only [List.length_append, List.length_cons] at hn
    exact (ih.complete n (by omega)).group
  | leaf h => exact reads_of_complete (by simp) fun _ _ => complete_leaf h

end Parser

end Formula
