import Formula.Proofs.Parser.Lookahead
import Formula.Proofs.Parser.Soundness
import Formula.Proofs.Parser.Viable

/-! Why the parser fails. Whatever the reader of a rung has consumed when it fails can still become
an expression. Nothing is pending only where nothing has been consumed, so a fault that names no
expectation is at the first token. And the parser is too deep only after about half as many tokens
as the limit has levels. -/

namespace Formula.Parser

open Grammar Steps Token

variable {limit levels position depth : Nat} {pre ts us tokens rest : List Kind}
  {pending : List Expectation} {what : Expectation} {fault : Fault} {e : Expr} {r : Rung}

/-- What a fault says of a run that has `pre` behind it, meets `tokens`, and was pending
`pending`. -/
def Explains (limit : Nat) (pre tokens : List Kind) (pending : List Expectation) : Fault → Prop
  | .tooDeep n => limit ≤ 2 * n + 1
  | .unexpected n => pending = [] ∧ n = pre.length
  | .expected _ n => ∃ ts, ts <+: tokens ∧ n = pre.length + ts.length ∧ Viable (pre ++ ts) ∧
      (pending = [] → ts ≠ [])

/-- A fault of a part that began after some tokens, while something was pending. -/
theorem Explains.later {outer : List Expectation} (hne : ts ≠ [])
    (h : Explains limit (pre ++ ts) rest (what :: pending) fault) :
    Explains limit pre (ts ++ rest) outer fault := by
  cases fault with
  | tooDeep n => exact h
  | unexpected n => exact absurd h.1 (by simp)
  | expected w n =>
    obtain ⟨us, hUs, rfl, hViable, -⟩ := h
    exact ⟨ts ++ us, (List.prefix_append_right_inj ts).mpr hUs, by simp [Nat.add_assoc],
      by rwa [← List.append_assoc], fun _ => by simp [hne]⟩

/-- Something is missing after some tokens. -/
theorem explains_missing (hFault : fault = .expected what position) (hne : ts ≠ [])
    (hViable : Viable (pre ++ ts)) (hPosition : position = pre.length + ts.length)
    (hTokens : ts <+: tokens) : Explains limit pre tokens pending fault := by
  subst hFault
  exact ⟨ts, hTokens, hPosition, hViable, fun _ => hne⟩

/-- Something is missing after what has been read while it was pending. -/
theorem explains_pending (hViable : Viable (pre ++ ts))
    (hPosition : position = pre.length + ts.length) (hTokens : ts <+: tokens) :
    Explains limit pre tokens (what :: pending) (.expected what position) :=
  ⟨ts, hTokens, hPosition, hViable, fun hNone => absurd hNone (List.cons_ne_nil _ _)⟩

/-- What a rung derives can come after `pre`. -/
def Awaits (r : Rung) (pre : List Kind) : Prop := ∀ ts e, Derives r ts e → Viable (pre ++ ts)

theorem Awaits.viable (h : Awaits r pre) : Viable pre := (h _ _ (derives_name r "x")).of_append _

theorem Awaits.next (h : Awaits r pre) : Awaits r.next pre := fun ts e he => h ts e he.tighter

/-- A fault of a reader is explained, if the tokens before are many enough for the levels. -/
def Accounts (limit levels : Nat) (r : Rung) (p : Parse Expr) : Prop :=
  ∀ pre tokens position depth pending fault, Awaits r pre → position = pre.length →
    depth ≤ 2 * position + slack r → limit ≤ depth + levels →
    p ⟨tokens, position, depth, pending⟩ = .error fault → Explains limit pre tokens pending fault

/-! ### Chains -/

/-- What goes on after a tree of `r` explains its faults. -/
def GoesOnAccounting (limit levels : Nat) (r : Rung) (next : Expr → Nat → Parse Expr) : Prop :=
  ∀ pre ts left links tokens position depth pending fault, Awaits r pre → Derives r ts left →
    position = pre.length + ts.length → depth < 2 * position → limit ≤ depth + levels →
    next left links ⟨tokens, position, depth, pending⟩ = .error fault →
    Explains limit pre (ts ++ tokens) pending fault

theorem goesOn_accounts {next : Expr → Nat → Parse Expr} {operand : Parse Expr}
    (hr : slack r = 1) (hSound : Sound operand (Derives r.next))
    (hOperand : Accounts limit levels r.next operand)
    (hNext : GoesOnAccounting limit (levels + 1) r next) :
    Accounts limit levels r (operand >>= fun left => next left 0) := by
  intro pre tokens position depth pending fault hPre hPosition hDepth hLevels h
  rcases hSound.bind_error h with h | ⟨ts, rest, left, rfl, hl, h⟩
  · exact hOperand _ _ _ _ _ _ hPre.next hPosition (by rw [slack_next]; omega) hLevels h
  · -- The operand has a token, which makes up for the level that the next link takes.
    have hLength := List.length_pos_iff.mpr hl.ne_nil
    exact hNext _ _ _ _ _ _ _ _ _ hPre hl.tighter (by rw [hPosition]) (by omega) (by omega) h

theorem tooDeep_accounts : GoesOnAccounting limit 0 r fun _ _ => tooDeep := by
  intro pre ts left links tokens position depth pending fault _ _ hPosition hDepth hLevels h
  cases h
  show limit ≤ 2 * position + 1
  omega

theorem chainStep_accounts {next : Expr → Nat → Parse Expr} {operand : Parse Expr} {levels' : Nat}
    (hSound : Sound operand (Derives r.next)) (hOperand : Accounts limit levels' r.next operand)
    (hNext : GoesOnAccounting limit levels r next) (hMore : levels ≤ levels') :
    GoesOnAccounting limit (levels + 1) r
      (chainStep limit r.link? (fun join => join) operand next) := by
  intro pre ts left links tokens position depth pending fault hPre hl hPosition hDepth hLevels h
  rw [chainStep, peekSymbol_bind] at h
  cases hJoin : (symbol? tokens).bind r.link? with
  | none =>
    rw [hJoin] at h
    cases h
  | some join =>
    obtain ⟨symbol, hSymbol, operator⟩ := Option.bind_eq_some_iff.mp hJoin
    obtain ⟨rest, rfl⟩ := symbol?_eq_some.mp hSymbol
    rw [hJoin] at h
    simp only [advance_bind] at h
    rcases enter_bind_error h with ⟨hFull, rfl⟩ | ⟨-, h⟩
    · show limit ≤ 2 * (position + 1) + 1
      omega
    · rw [expect_bind] at h
      rcases hSound.bind_error h with h | ⟨us, rest, right, rfl, hr, h⟩
      · have hAwaits : Awaits r.next (pre ++ (ts ++ [Kind.symbol symbol])) := fun us e he => by
          simpa using hPre _ _ (.link operator hl he)
        have hFault := hOperand _ _ _ _ _ _ hAwaits (by simp [hPosition, Nat.add_assoc])
          (by rw [slack_next]; omega) (by omega) h
        simpa using hFault.later (by simp)
      · rw [fulfil_bind] at h
        have hFault := hNext pre (ts ++ Kind.symbol symbol :: us) _ _ _ _ _ _ _ hPre
          (.link operator hl hr) (by simp [hPosition]; omega) (by omega) (by omega) h
        simpa using hFault

theorem chain_accounts {operand : Parse Expr} (hr : slack r = 1)
    (hSound : Sound operand (Derives r.next)) (hOperand : Accounts limit levels r.next operand) :
    Accounts limit levels r (chain limit levels r.link? (fun join => join) operand) := by
  have hFrom : ∀ n ≤ levels, GoesOnAccounting limit (n + 1) r
      (chainFrom limit r.link? (fun join => join) operand n) := by
    intro n hn
    induction n with
    | zero => exact chainStep_accounts hSound hOperand tooDeep_accounts hn
    | succ n ih => exact chainStep_accounts hSound hOperand (ih (by omega)) hn
  exact goesOn_accounts hr hSound hOperand (hFrom levels (Nat.le_refl _))

/-! ### Primaries and what comes after them -/

variable {nested : Parse Expr}

theorem primary_accounts (hSound : Sound nested (Derives .ternary))
    (hNested : Accounts limit levels .ternary nested) :
    Accounts limit levels .primary (primary nested) := by
  intro pre tokens position depth pending fault hPre hPosition hDepth hLevels h
  have hFail : ∀ {tokens : List Kind}, (fail : Parse Expr) ⟨tokens, position, depth, pending⟩ =
      .error fault → Explains limit pre tokens pending fault := by
    intro tokens h
    cases pending with
    | nil => cases h; exact ⟨rfl, hPosition⟩
    | cons what pending =>
      cases h
      have hHere : Viable (pre ++ []) := by simpa using hPre.viable
      exact explains_pending hHere hPosition List.nil_prefix
  rw [primary, called_eq, peek_bind] at h
  cases tokens with
  | nil => exact hFail h
  | cons k rest =>
    by_cases hParen : k = .symbol .leftParen
    · subst hParen
      simp only [List.head?_cons, advance_bind, expect_bind] at h
      have hAwaits : Awaits .ternary (pre ++ [Kind.symbol .leftParen]) := fun us e he =>
        .of_append [.symbol .rightParen] (by simpa using hPre _ _ (.group he))
      rcases hSound.bind_error h with h | ⟨us, rest, inner, rfl, hInner, h⟩
      · have hBelow : depth ≤ 2 * position + 1 := hDepth
        have hFault := hNested _ _ _ _ _ _ hAwaits (by simp [hPosition]) (by omega) hLevels h
        exact hFault.later (by simp)
      · rcases require_bind_error h with hFault | ⟨more, rfl, h⟩
        · have hViable := hAwaits us inner hInner
          rw [List.append_assoc] at hViable
          exact explains_missing hFault (by simp) hViable (by simp [hPosition]; omega)
            ⟨rest, by simp⟩
        · cases h
    · cases k with
      | symbol s => cases s <;> first | exact hFail h | exact absurd rfl hParen
      | stray c => exact hFail h
      | _ => cases h

/-- What a suffix reads after `symbol`, or why it fails. -/
def AppendsAccounting (limit levels : Nat) (symbol : Symbol) (p : Expr → Parse Expr) : Prop :=
  ∀ pre ts operand tokens position depth pending fault, Awaits .postfixed pre →
    Derives .postfixed ts operand → position = pre.length + ts.length → depth ≤ 2 * position →
    limit ≤ depth + levels →
    p operand ⟨.symbol symbol :: tokens, position, depth, pending⟩ = .error fault →
    Explains limit pre (ts ++ .symbol symbol :: tokens) pending fault

theorem accessor_accounts : AppendsAccounting limit levels .dot accessor := by
  intro pre ts operand tokens position depth pending fault hPre ho hPosition hDepth hLevels h
  have hFault : fault = .expected .name (position + 1) := by
    rw [accessor, called_eq, expect_bind, advance_bind, peek_bind] at h
    cases tokens with
    | nil => exact fail_error h
    | cons k rest =>
      cases k with
      | name attr => cases h
      | _ => exact fail_error h
  have hViable : Viable (pre ++ (ts ++ [Kind.symbol .dot])) :=
    .of_append [.name "x"] (by simpa using hPre _ _ (@Derives.access _ _ "x" ho))
  exact explains_missing hFault (by simp) hViable (by simp [hPosition, Nat.add_assoc])
    ⟨tokens, by simp⟩

/-- Up to `n` more bounds can come after `pre`, each with its colon. -/
def AwaitsSlots (n : Nat) (pre : List Kind) : Prop :=
  ∀ bounds, Bounds bounds → bounds.length ≤ n → Viable (pre ++ colonSlots bounds)

theorem AwaitsSlots.viable {n : Nat} (h : AwaitsSlots n pre) : Viable pre := by
  simpa [colonSlots] using h [] (by simp [Bounds]) (Nat.zero_le n)

theorem slot_accounts (hSound : Sound nested (Derives .ternary))
    (hNested : Accounts limit levels .ternary nested) {α : Type} {f : Option Expr → Parse α}
    (hPre : Awaits .ternary pre) (hPosition : position = pre.length) (hDepth : depth ≤ 2 * position)
    (hLevels : limit ≤ depth + levels)
    (h : (slot nested >>= f) ⟨tokens, position, depth, pending⟩ = .error fault) :
    Explains limit pre tokens pending fault ∨
      ∃ bound? rest, Bounds [bound?] ∧ tokens = Grammar.slot bound? ++ rest ∧
        f (bound?.map (·.2)) ⟨rest, position + (Grammar.slot bound?).length, depth, pending⟩ =
          .error fault := by
  rcases (slot_sound hSound).bind_error h with h | ⟨ts, rest, _, rfl, ⟨bound?, hBound, rfl, rfl⟩, h⟩
  · rw [slot, peekIs_bind, peekIs_bind] at h
    split at h
    · cases h
    · rcases hSound.bind_error h with h | ⟨us, rest, e, rfl, he, h⟩
      · exact .inl (hNested _ _ _ _ _ _ hPre hPosition hDepth hLevels h)
      · cases h
  · exact .inr ⟨bound?, rest, hBound, rfl, h⟩

theorem moreSlots_accounts (hSound : Sound nested (Derives .ternary))
    (hNested : Accounts limit levels .ternary nested) {n : Nat} (hPre : AwaitsSlots n pre)
    (hPosition : position = pre.length) (hDepth : depth ≤ 2 * position)
    (hLevels : limit ≤ depth + levels)
    (h : moreSlots nested n ⟨tokens, position, depth, what :: pending⟩ = .error fault) :
    Explains limit pre tokens (what :: pending) fault := by
  induction n generalizing pre position tokens with
  | zero =>
    rw [moreSlots, peekIs_bind] at h
    split at h
    · rw [fail_error h]
      have hHere : Viable (pre ++ []) := by simpa using hPre.viable
      exact explains_pending hHere hPosition List.nil_prefix
    · cases h
  | succ n ih =>
    rw [moreSlots, peekIs_bind] at h
    split at h
    · next hColon =>
      obtain ⟨rest, rfl⟩ := List.head?_eq_some_iff.mp (of_decide_eq_true hColon)
      rw [expect_bind, advance_bind] at h
      have hAwaits : Awaits .ternary (pre ++ [Kind.symbol .colon]) := fun us e he => by
        simpa [colonSlots, Grammar.slot] using
          hPre [some (us, e)] (by simpa [Bounds] using he) (by simp)
      rcases slot_accounts hSound hNested hAwaits (by simp [hPosition]) (by omega) hLevels h with
        hFault | ⟨bound?, rest, hBound, rfl, hNext⟩
      · exact hFault.later (by simp)
      · rw [fulfil_bind] at hNext
        rcases (moreSlots_sound hSound n).bind_error hNext with h | ⟨_, _, _, rfl, -, h⟩
        · have hMore : AwaitsSlots n (pre ++ colonSlots [bound?]) := by
            intro bounds hBounds hLength
            have hAll : Bounds (bound? :: bounds) := by
              simpa [Bounds] using And.intro (hBound bound? List.mem_cons_self) hBounds
            simpa [colonSlots] using hPre (bound? :: bounds) hAll (by simpa using hLength)
          have hFault := ih hMore (by simp [colonSlots, hPosition, Nat.add_assoc, Nat.add_comm 1])
            (by omega) h
          simpa [colonSlots] using hFault.later (by simp [colonSlots])
        · cases h
    · cases h

/-- A part that is left out before a colon has the colon after it. -/
theorem moreSlots_ne_nil (hSound : Sound nested (Derives .ternary)) {n : Nat}
    {others : List (Option Expr)} {s' : State}
    (h : moreSlots nested (n + 1) ⟨.symbol .colon :: tokens, position, depth, pending⟩ =
      .ok (others, s')) : others ≠ [] := by
  rw [moreSlots, peekIs_bind_next, if_pos rfl, expect_bind, advance_bind] at h
  obtain ⟨_, _, _, -, -, h⟩ := (slot_sound hSound).bind_ok h
  rw [fulfil_bind] at h
  obtain ⟨_, _, _, -, -, h⟩ := (moreSlots_sound hSound n).bind_ok h
  obtain ⟨rfl, -⟩ := pure_ok.mp h
  simp

theorem subscriptFrom_accounts (hSound : Sound nested (Derives .ternary))
    (hNested : Accounts limit levels .ternary nested) {operand : Expr} {first? : Option Expr}
    (hPre : AwaitsSlots 2 pre) (hPosition : position = pre.length) (hDepth : depth ≤ 2 * position)
    (hLevels : limit ≤ depth + levels)
    (hFirst : first? = none → tokens.head? = some (.symbol .colon))
    (h : subscriptFrom nested operand first?
      ⟨tokens, position, depth, .rightBracket :: pending⟩ = .error fault) :
    Explains limit pre tokens (.rightBracket :: pending) fault := by
  rcases bind_error.mp h with h | ⟨others, s, hOthers, h⟩
  · exact moreSlots_accounts hSound hNested hPre hPosition hDepth hLevels h
  · -- Kept for the last case, where what has been read must have been more than nothing.
    have hSlots := hOthers
    obtain ⟨ts, rest, rfl, rfl, bounds, hBounds, hLength, rfl, rfl⟩ :=
      moreSlots_sound hSound 2 _ _ _ _ _ _ hOthers
    rcases require_bind_error h with rfl | ⟨more, rfl, h⟩
    · exact explains_pending (hPre _ hBounds hLength) (by rw [hPosition]) (List.prefix_append _ _)
    · -- A subscript without any part was refused before its first part was read.
      cases hTree : subscripted operand (first? :: bounds.map (·.map (·.2))) with
      | some e =>
        rw [hTree] at h
        cases h
      | none =>
        cases first? with
        | some key => cases bounds <;> simp [subscripted] at hTree
        | none =>
          obtain ⟨others, hColon⟩ := List.head?_eq_some_iff.mp (hFirst rfl)
          rw [hColon] at hSlots
          have hSome := moreSlots_ne_nil hSound hSlots
          cases bounds with
          | nil => exact absurd rfl hSome
          | cons bound? bounds => simp [subscripted] at hTree

theorem awaitsSlots_of_first {operand : Expr} (hPre : Awaits .postfixed pre)
    (ho : Derives .postfixed ts operand) {first? : Option Phrase} (hFirst : Bounds [first?]) :
    AwaitsSlots 2 (pre ++ (ts ++ Kind.symbol .leftBracket :: Grammar.slot first?)) := by
  have hAll : ∀ bounds, bounds ≠ [] → Bounds bounds → bounds.length ≤ 2 →
      Viable (pre ++ (ts ++ Kind.symbol .leftBracket :: Grammar.slot first?) ++
        colonSlots bounds) := by
    intro bounds hne hBounds hLength
    have hBoth : Bounds (first? :: bounds) := by
      simpa [Bounds] using And.intro (hFirst first? List.mem_cons_self) hBounds
    obtain ⟨e, he⟩ : ∃ e, subscripted operand
        (first?.map (·.2) :: bounds.map (·.map (·.2))) = some e := by
      cases bounds with
      | nil => exact absurd rfl hne
      | cons bound? bounds => exact ⟨_, rfl⟩
    exact .of_append [.symbol .rightBracket]
      (by simpa using hPre _ _ (derives_subscripted ho hBoth hLength he))
  intro bounds hBounds hLength
  cases bounds with
  | nil => exact .of_append (colonSlots [none]) (by
      simpa [colonSlots] using hAll [none] (by simp) (by simp [Bounds]) (by simp))
  | cons bound? bounds => exact hAll _ (by simp) hBounds hLength

theorem index_accounts (hSound : Sound nested (Derives .ternary))
    (hNested : Accounts limit levels .ternary nested) :
    AppendsAccounting limit levels .leftBracket (index nested) := by
  intro pre ts operand tokens position depth pending fault hPre ho hPosition hDepth hLevels h
  have hAwaits : Awaits .ternary (pre ++ (ts ++ [Kind.symbol .leftBracket])) := fun us e he =>
    .of_append [.symbol .rightBracket] (by simpa using hPre _ _ (.item ho he))
  rw [index, called_eq, expect_bind, advance_bind, peek_bind, peekIs_bind] at h
  split at h
  · rw [expect_bind] at h
    exact explains_missing (fail_error h) (by simp) hAwaits.viable
      (by simp [hPosition, Nat.add_assoc]) ⟨tokens, by simp⟩
  · rw [peekIs_bind] at h
    split at h
    · next hColon =>
      rw [pure_bind] at h
      have hSlots : AwaitsSlots 2 (pre ++ (ts ++ [Kind.symbol .leftBracket])) := by
        simpa [Grammar.slot] using awaitsSlots_of_first hPre ho (by simp [Bounds] : Bounds [none])
      have hFault := subscriptFrom_accounts hSound hNested hSlots
        (by simp [hPosition, Nat.add_assoc]) (by omega) hLevels
        (fun _ => of_decide_eq_true hColon) h
      simpa using hFault.later (by simp)
    · rw [bind_map_left] at h
      rcases hSound.bind_error h with h | ⟨us, rest, key, rfl, hKey, h⟩
      · have hFault := hNested _ _ _ _ _ _ hAwaits (by simp [hPosition, Nat.add_assoc])
          (by omega) hLevels h
        simpa using hFault.later (by simp)
      · have hSlots : AwaitsSlots 2 (pre ++ (ts ++ Kind.symbol .leftBracket :: us)) := by
          simpa [Grammar.slot] using
            awaitsSlots_of_first hPre ho (by simpa [Bounds] using hKey : Bounds [some (us, key)])
        have hRest : subscriptFrom nested operand (some key)
            ⟨rest, position + 1 + us.length, depth, .rightBracket :: pending⟩ = .error fault := h
        have hFault : Explains limit (pre ++ (ts ++ Kind.symbol .leftBracket :: us)) rest
            (.rightBracket :: pending) fault := by
          refine subscriptFrom_accounts hSound hNested hSlots ?_ ?_ hLevels ?_ hRest
          · simp [hPosition]
            omega
          · omega
          · rintro ⟨⟩
        simpa using hFault.later (by simp)

/-- More arguments can come after `pre`, each with its comma. -/
def AwaitsArgs (pre : List Kind) : Prop :=
  ∀ args : List Phrase, (∀ arg ∈ args, Derives .ternary arg.1 arg.2) →
    Viable (pre ++ commaArgs args)

theorem moreArgs_accounts (hSound : Sound nested (Derives .ternary))
    (hNested : Accounts limit levels .ternary nested) {n : Nat} (hPre : AwaitsArgs pre)
    (hPosition : position = pre.length) (hDepth : depth ≤ 2 * position)
    (hLevels : limit ≤ depth + levels)
    (h : moreArgs nested n ⟨tokens, position, depth, what :: pending⟩ = .error fault) :
    Explains limit pre tokens (what :: pending) fault := by
  induction n generalizing pre position tokens with
  | zero => cases h
  | succ n ih =>
    rw [moreArgs] at h
    by_cases hComma : tokens.head? = some (.symbol .comma)
    · obtain ⟨rest, rfl⟩ := List.head?_eq_some_iff.mp hComma
      rw [eat_bind, if_pos rfl, expect_bind] at h
      have hAwaits : Awaits .ternary (pre ++ [Kind.symbol .comma]) := fun us e he => by
        simpa [commaArgs] using hPre [(us, e)] (by simpa using he)
      rcases hSound.bind_error h with h | ⟨us, rest, e, rfl, he, h⟩
      · have hFault := hNested _ _ _ _ _ _ hAwaits (by simp [hPosition]) (by omega) hLevels h
        exact hFault.later (by simp)
      · rw [fulfil_bind] at h
        rcases (moreArgs_sound hSound n).bind_error h with h | ⟨_, _, _, rfl, -, h⟩
        · have hMore : AwaitsArgs (pre ++ Kind.symbol .comma :: us) := fun args hArgs => by
            simpa [commaArgs] using hPre ((us, e) :: args) (by simpa using And.intro he hArgs)
          have hFault := ih hMore (by simp [hPosition]; omega) (by omega) h
          simpa using hFault.later (by simp)
        · cases h
    · rw [eat_bind_other hComma, if_neg Bool.false_ne_true] at h
      cases h

theorem call_accounts (hSound : Sound nested (Derives .ternary))
    (hNested : Accounts limit levels .ternary nested) :
    AppendsAccounting limit levels .leftParen (call nested) := by
  intro pre ts operand tokens position depth pending fault hPre ho hPosition hDepth hLevels h
  have hArgs : ∀ args : List Phrase, (∀ arg ∈ args, Derives .ternary arg.1 arg.2) →
      Viable (pre ++ (ts ++ Kind.symbol .leftParen :: separated args)) := fun args hArgs =>
    .of_append [.symbol .rightParen] (by simpa using hPre _ _ (.call args ho hArgs))
  have hOpen : Viable (pre ++ (ts ++ [Kind.symbol .leftParen])) := hArgs [] (by simp)
  -- The parser looks at the token after the parenthesis before it reads an argument.
  cases tokens with
  | nil =>
    rw [call, called_eq, advance_bind, expect_bind, peek_bind] at h
    exact explains_missing (fail_error h) (by simp) hOpen (by simp [hPosition, Nat.add_assoc])
      ⟨[], by simp⟩
  | cons k rest =>
    by_cases hClose : k = .symbol .rightParen
    · subst hClose
      cases h
    · rw [call_other hClose, argsFrom] at h
      have hAwaits : Awaits .ternary (pre ++ (ts ++ [Kind.symbol .leftParen])) := fun us e he => by
        simpa [separated, commaArgs] using hArgs [(us, e)] (by simpa using he)
      rcases hSound.bind_error h with h | ⟨us, rest', first, hTokens, hFirst, h⟩
      · have hFault := hNested _ _ _ _ _ _ hAwaits (by simp [hPosition, Nat.add_assoc])
          (by omega) hLevels h
        simpa using hFault.later (by simp)
      · rw [left_bind] at h
        have hMore : AwaitsArgs (pre ++ (ts ++ Kind.symbol .leftParen :: us)) := by
          intro args hDerives
          simpa [separated] using
            hArgs ((us, first) :: args) (by simpa using And.intro hFirst hDerives)
        rw [hTokens]
        rcases (moreArgs_sound hSound _).bind_error h with h |
          ⟨_, rest, _, rfl, ⟨args, hDerives, rfl, -⟩, h⟩
        · have hFault := moreArgs_accounts hSound hNested hMore (by simp [hPosition]; omega)
            (by omega) hLevels h
          simpa using hFault.later (by simp)
        · rcases require_bind_error h with hFault | ⟨more, rfl, h⟩
          · have hViable := hMore args hDerives
            rw [List.append_assoc] at hViable
            exact explains_missing hFault (by simp) hViable (by simp [hPosition]; omega)
              ⟨rest, by simp⟩
          · cases h

theorem suffix_accounts (hSound : Sound nested (Derives .ternary))
    (hNested : Accounts limit levels .ternary nested) {symbol : Symbol} {p : Expr → Parse Expr}
    (hp : suffix? nested symbol = some p) : AppendsAccounting limit levels symbol p := by
  cases symbol with
  | dot => exact Option.some_inj.mp hp ▸ accessor_accounts
  | leftBracket => exact Option.some_inj.mp hp ▸ index_accounts hSound hNested
  | leftParen => exact Option.some_inj.mp hp ▸ call_accounts hSound hNested
  | _ => cases hp

theorem postfixStep_accounts {next : Expr → Nat → Parse Expr} {levels' : Nat}
    (hSound : Sound nested (Derives .ternary)) (hNested : Accounts limit levels' .ternary nested)
    (hNext : GoesOnAccounting limit levels .postfixed next) (hMore : levels ≤ levels') :
    GoesOnAccounting limit (levels + 1) .postfixed (postfixStep limit nested next) := by
  intro pre ts operand links tokens position depth pending fault hPre ho hPosition hDepth hLevels h
  cases hSuffix : (symbol? tokens).bind (suffix? nested) with
  | none =>
    rw [postfixStep_stop hSuffix] at h
    cases h
  | some p =>
    obtain ⟨symbol, hSymbol, hp⟩ := Option.bind_eq_some_iff.mp hSuffix
    rw [postfixStep_suffix hSymbol hp] at h
    obtain ⟨rest, rfl⟩ := symbol?_eq_some.mp hSymbol
    rcases enter_bind_error h with ⟨hFull, rfl⟩ | ⟨-, h⟩
    · show limit ≤ 2 * position + 1
      omega
    · rcases bind_error.mp h with h | ⟨longer, _, hLonger, h⟩
      · exact suffix_accounts hSound hNested hp _ _ _ _ _ _ _ _ hPre ho hPosition (by omega)
          (by omega) h
      · obtain ⟨us, rest, rfl, rfl, hl⟩ := suffix_appends hSound hp _ _ _ _ _ _ _ _ ho hLonger
        have hFault := hNext _ _ _ _ _ _ _ _ _ hPre hl (by simp [hPosition]; omega) (by omega)
          (by omega) h
        simpa using hFault

theorem postfixed_accounts (hSound : Sound nested (Derives .ternary))
    (hNested : Accounts limit levels .ternary nested) :
    Accounts limit levels .postfixed (postfixed limit levels nested) := by
  have hFrom : ∀ n ≤ levels, GoesOnAccounting limit (n + 1) .postfixed
      (postfixFrom limit nested n) := by
    intro n hn
    induction n with
    | zero => exact postfixStep_accounts hSound hNested tooDeep_accounts hn
    | succ n ih => exact postfixStep_accounts hSound hNested (ih (by omega)) hn
  exact goesOn_accounts rfl (primary_sound hSound) (primary_accounts hSound hNested)
    (hFrom levels (Nat.le_refl _))

/-! ### The other rungs -/

theorem powerStep_accounts {base exponent : Parse Expr} {n m : Nat}
    (hSound : Sound base (Derives .postfixed)) (hBase : Accounts limit levels .postfixed base)
    (hExponent : Accounts limit m .power exponent) (hn : n ≤ levels) (hm : n ≤ m + 1) :
    Accounts limit n .power (powerStep limit base exponent) := by
  intro pre tokens position depth pending fault hPre hPosition hDepth hLevels h
  have hBelow : depth ≤ 2 * position + 1 := hDepth
  rcases hSound.bind_error h with h | ⟨ts, rest, left, rfl, hl, h⟩
  · exact hBase _ _ _ _ _ _ hPre.next hPosition hBelow (by omega) h
  · have hLength := List.length_pos_iff.mpr hl.ne_nil
    by_cases hPower : rest.head? = some (.symbol .doubleStar)
    · obtain ⟨rest, rfl⟩ := List.head?_eq_some_iff.mp hPower
      rw [eat_bind, if_pos rfl] at h
      rcases enter_bind_error h with ⟨hFull, rfl⟩ | ⟨-, h⟩
      · show limit ≤ 2 * (position + ts.length + 1) + 1
        omega
      · rw [expect_bind] at h
        have hAwaits : Awaits .power (pre ++ (ts ++ [Kind.symbol .doubleStar])) := fun us e he => by
          simpa using hPre _ _ (.power hl he)
        rcases bind_error.mp h with h | ⟨right, s, -, h⟩
        · have hAfter : depth + 1 ≤ 2 * (position + ts.length + 1) + 1 := by omega
          have hFault := hExponent _ _ _ _ _ _ hAwaits (by simp [hPosition, Nat.add_assoc]) hAfter
            (by omega) h
          simpa using hFault.later (by simp)
        · cases h
    · rw [eat_bind_other hPower, if_neg Bool.false_ne_true] at h
      cases h

theorem powers_accounts {base : Parse Expr} (hSound : Sound base (Derives .postfixed))
    (hBase : Accounts limit levels .postfixed base) {n : Nat} (hn : n ≤ levels) :
    Accounts limit n .power (powers limit base n) := by
  induction n with
  | zero =>
    have hTooDeep : Accounts limit 0 .power tooDeep := by
      intro pre tokens position depth pending fault _ _ hDepth hLevels h
      cases h
      exact Nat.le_trans hLevels hDepth
    exact powerStep_accounts hSound hBase hTooDeep hn (Nat.zero_le _)
  | succ n ih => exact powerStep_accounts hSound hBase (ih (by omega)) hn (Nat.le_refl _)

/-- A sign in front of what the next rung reads. -/
theorem sign_accounts {operand : Parse Expr} {symbol : Symbol} {op : UnaryOp}
    (operator : r.sign? symbol = some op) (hOperand : Accounts limit levels r.next operand)
    (hPre : Awaits r pre) (hPosition : position = pre.length)
    (hDepth : depth ≤ 2 * position + slack r) (hLevels : limit ≤ depth + levels)
    (h : signed op operand ⟨rest, position + 1, depth, pending⟩ = .error fault) :
    Explains limit pre (Kind.symbol symbol :: rest) pending fault := by
  rw [signed, expect_bind] at h
  have hAwaits : Awaits r.next (pre ++ [Kind.symbol symbol]) := fun us e he => by
    simpa using hPre _ _ (.sign operator he)
  have hSlack := slack_le_one r
  rcases bind_error.mp h with h | ⟨e, s, -, h⟩
  · have hFault := hOperand _ _ _ _ _ _ hAwaits (by simp [hPosition])
      (by rw [slack_next]; omega) hLevels h
    exact hFault.later (by simp)
  · cases h

theorem unary_accounts (hOperand : Accounts limit levels .power (reader limit levels .power)) :
    Accounts limit levels .unary (reader limit levels .unary) := by
  intro pre tokens position depth pending fault hPre hPosition hDepth hLevels h
  rw [reader, unary, called_eq, peekSymbol_bind, Rung.sign?_unary] at h
  cases hSign : (symbol? tokens).bind Rung.unary.sign? with
  | none =>
    rw [hSign] at h
    exact hOperand _ _ _ _ _ _ hPre.next hPosition hDepth hLevels h
  | some op =>
    obtain ⟨symbol, hSymbol, operator⟩ := Option.bind_eq_some_iff.mp hSign
    obtain ⟨rest, rfl⟩ := symbol?_eq_some.mp hSymbol
    rw [hSign] at h
    exact sign_accounts operator hOperand hPre hPosition hDepth hLevels h

theorem negation_accounts
    (hOperand : Accounts limit levels .comparison (reader limit levels .comparison)) :
    Accounts limit levels .negation (reader limit levels .negation) := by
  intro pre tokens position depth pending fault hPre hPosition hDepth hLevels h
  rw [reader, negation, called_eq] at h
  by_cases hNot : tokens.head? = some (.symbol .not)
  · obtain ⟨rest, rfl⟩ := List.head?_eq_some_iff.mp hNot
    rw [eat_bind] at h
    exact sign_accounts (r := .negation) rfl hOperand hPre hPosition hDepth hLevels h
  · rw [eat_bind_other hNot] at h
    exact hOperand _ _ _ _ _ _ hPre.next hPosition hDepth hLevels h

theorem ternaryStep_accounts {condition : Parse Expr}
    (hConditionSound : Sound condition (Derives .disjunction))
    (hCondition : Accounts limit levels .disjunction condition)
    (hSound : Sound nested (Derives .ternary)) (hNested : Accounts limit levels .ternary nested) :
    Accounts limit (levels + 1) .ternary (ternaryStep limit condition nested) := by
  intro pre tokens position depth pending fault hPre hPosition hDepth hLevels h
  have hBelow : depth ≤ 2 * position := hDepth
  rcases enter_bind_error h with ⟨hFull, rfl⟩ | ⟨-, h⟩
  · show limit ≤ 2 * position + 1
    omega
  rcases hConditionSound.bind_error h with h | ⟨ts, rest, c, rfl, hc, h⟩
  · exact hCondition _ _ _ _ _ _ hPre.next hPosition (Nat.succ_le_succ hBelow) (by omega) h
  by_cases hQuestion : rest.head? = some (.symbol .question)
  · obtain ⟨rest, rfl⟩ := List.head?_eq_some_iff.mp hQuestion
    rw [eat_bind, if_pos rfl, expect_bind] at h
    -- A name can stand for the branch that is still to come.
    have hAwaitsYes : Awaits .ternary (pre ++ (ts ++ [Kind.symbol .question])) := fun us y hy =>
      .of_append [.symbol .colon, .name "x"] (by
        simpa using hPre _ _ (.condition hc hy (derives_name .ternary "x")))
    rcases hSound.bind_error h with h | ⟨us, rest, y, rfl, hy, h⟩
    · have hAfter : depth + 1 ≤ 2 * (position + ts.length + 1) := by omega
      have hFault := hNested _ _ _ _ _ _ hAwaitsYes (by simp [hPosition, Nat.add_assoc]) hAfter
        (by omega) h
      simpa using hFault.later (by simp)
    · rw [expect_bind] at h
      rcases require_bind_error h with hFault | ⟨rest, rfl, hElse⟩
      · have hViable := hAwaitsYes us y hy
        rw [List.append_assoc] at hViable
        exact explains_missing hFault (by simp) hViable (by simp [hPosition]; omega)
          ⟨rest, by simp⟩
      · have hAwaitsNo : Awaits .ternary
            (pre ++ (ts ++ Kind.symbol .question :: (us ++ [Kind.symbol .colon]))) := by
          intro vs n hn
          simpa using hPre _ _ (.condition hc hy hn)
        rcases hSound.bind_error hElse with h | ⟨vs, rest, n, rfl, hn, h⟩
        · have hAfter : depth + 1 ≤ 2 * (position + ts.length + 1 + us.length + 1) := by omega
          have hFault := hNested _ _ _ _ _ _ hAwaitsNo (by simp [hPosition]; omega) hAfter
            (by omega) h
          simpa using hFault.later (by simp)
        · cases h
  · rw [eat_bind_other hQuestion, if_neg Bool.false_ne_true] at h
    cases h

/-- If nested expressions account for their faults, so do the readers of all rungs. -/
theorem accounts_of_nested (hNested : Accounts limit levels .ternary (ternary limit levels))
    (r : Rung) : Accounts limit levels r (reader limit levels r) := by
  have hSound : ∀ r, Sound (reader limit levels r) (Derives r) := reader_sound limit levels
  have hChain : ∀ r : Rung, r.IsChain → Accounts limit levels r.next (reader limit levels r.next) →
      Accounts limit levels r (reader limit levels r) := by
    intro r hr hOperand
    rw [hr.reader]
    exact chain_accounts (slack_of_chain hr) (hSound r.next) hOperand
  have hPostfixed : Accounts limit levels .postfixed (reader limit levels .postfixed) :=
    postfixed_accounts (hSound .ternary) hNested
  have hPower : Accounts limit levels .power (reader limit levels .power) :=
    powers_accounts (hSound .postfixed) hPostfixed (Nat.le_refl levels)
  by_cases hr : r = .ternary
  · subst hr
    exact hNested
  · exact Rung.climb (P := fun r => Accounts limit levels r (reader limit levels r))
      (primary_accounts (hSound .ternary) hNested) hPostfixed hPower unary_accounts
      negation_accounts hChain r hr

/-- Readers account for their faults. -/
theorem reader_accounts (limit levels : Nat) (r : Rung) :
    Accounts limit levels r (reader limit levels r) := by
  have hTernary : Accounts limit levels .ternary (ternary limit levels) := by
    induction levels with
    | zero =>
      intro pre tokens position depth pending fault _ _ hDepth hLevels h
      cases h
      exact Nat.le_trans (Nat.le_trans hLevels hDepth) (Nat.le_succ _)
    | succ levels ih =>
      exact ternaryStep_accounts (reader_sound limit levels .disjunction)
        (accounts_of_nested ih .disjunction) (reader_sound limit levels .ternary) ih
  exact accounts_of_nested hTernary r

/-- The parser fails in an expression or after one. -/
theorem fault_of_parse {kinds : List Kind} (h : parse limit kinds = .error fault) :
    Explains limit [] kinds [] fault ∨
      ∃ ts k rest, kinds = ts ++ k :: rest ∧ Accepted ts ∧ fault = .unexpected ts.length := by
  rcases (reader_sound limit limit .ternary).bind_error (parse_eq_error.mp h) with h |
    ⟨ts, rest, e, rfl, he, h⟩
  · refine .inl (reader_accounts limit limit .ternary _ _ _ _ _ _ ?_ rfl (Nat.zero_le _) ?_ h)
    · exact fun ts e he => Accepted.viable ⟨e, he⟩
    · exact Nat.le_add_left _ _
  · rw [peek_bind] at h
    cases rest with
    | nil => cases h
    | cons k rest =>
      cases h
      exact .inr ⟨ts, k, rest, rfl, ⟨e, he⟩, congrArg Fault.unexpected (Nat.zero_add _)⟩

/-- With about twice as many levels as tokens the parser is not too deep. -/
theorem limit_le_of_tooDeep {kinds : List Kind} {n : Nat}
    (h : parse limit kinds = .error (.tooDeep n)) : limit ≤ 2 * kinds.length + 1 := by
  have hBound := position_le_of_parse h
  rcases fault_of_parse h with hFault | ⟨_, _, _, _, _, ⟨⟩⟩
  exact Nat.le_trans hFault (by simp only [Fault.position] at hBound; omega)

end Formula.Parser
