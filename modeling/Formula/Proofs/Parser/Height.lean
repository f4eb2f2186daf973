import Formula.Proofs.Expr.Height
import Formula.Proofs.Parser.Reader
import Mathlib.Tactic.Ring

/-! How high the trees are that the parser gives within a limit. Each link of a chain makes a tree
higher by one and leaves one level less for its operand. But a chain gives its levels back at its
end, so the chains of all rungs add to the height of a tree, and each ternary does so again for what
is in parentheses. -/

namespace Formula.Parser

open Token Formula.Expr

variable {α β : Type} {limit n k : Nat}

/-- If `n` levels are left, `p` gives back `k` levels and gives only what satisfies `Q`. -/
def Gives (limit n k : Nat) (Q : α → Prop) (p : Parse α) : Prop :=
  ∀ s a s', limit - s.depth = n → p s = .ok (a, s') → s'.depth = s.depth - k ∧ Q a

/-! ### Small steps -/

section

variable {P Q : α → Prop} {R : β → Prop}

theorem Gives.bind {p : Parse α} {f : α → Parse β} (hp : Gives limit n 0 P p)
    (hf : ∀ a, P a → Gives limit n k R (f a)) : Gives limit n k R (p >>= f) := by
  intro s b s' hLevels h
  obtain ⟨a, s₁, hRun, h⟩ := Steps.bind_ok.mp h
  obtain ⟨hDepth, ha⟩ := hp s a s₁ hLevels hRun
  rw [Nat.sub_zero] at hDepth
  rw [← hDepth] at hLevels ⊢
  exact hf a ha s₁ b s' hLevels h

theorem Gives.mono {p : Parse α} (hp : Gives limit n k P p) (h : ∀ a, P a → Q a) :
    Gives limit n k Q p := by
  intro s a s' hLevels hRun
  obtain ⟨hDepth, ha⟩ := hp s a s' hLevels hRun
  exact ⟨hDepth, h a ha⟩

/-- A step that keeps the depth, whatever it gives, in front of another one. -/
theorem Gives.after {p : Parse α} {f : α → Parse β} (hp : Gives limit n 0 (fun _ => True) p)
    (hf : ∀ a, Gives limit n k R (f a)) : Gives limit n k R (p >>= f) :=
  hp.bind fun a _ => hf a

theorem gives_pure {a : α} (h : Q a) : Gives limit n 0 Q (pure a) := by
  rintro s _ _ - ⟨⟩
  exact ⟨rfl, h⟩

theorem gives_leave {a : α} (h : Q a) (links : Nat) :
    Gives limit n links Q (leave links >>= fun _ => pure a) := by
  rintro s _ _ - ⟨⟩
  exact ⟨rfl, h⟩

theorem gives_fail : Gives limit n k Q fail := fun _ _ _ _ h => absurd h fail_ok

theorem gives_tooDeep : Gives limit n k Q tooDeep := fun _ _ _ _ h => absurd h tooDeep_ok

/-- A level is charged, if there is one. -/
theorem gives_enter {f : Unit → Parse α}
    (h : ∀ m, n = m + 1 → Gives limit m (k + 1) Q (f ())) :
    Gives limit n k Q (enter limit >>= f) := by
  intro s a s' hLevels hRun
  obtain ⟨rest, position, depth, pending⟩ := s
  replace hLevels : limit - depth = n := hLevels
  by_cases hDepth : depth + 1 ≤ limit
  · rw [enter_bind hDepth] at hRun
    obtain ⟨m, rfl⟩ : ∃ m, n = m + 1 := ⟨n - 1, by omega⟩
    obtain ⟨hAfter, ha⟩ := h m rfl _ _ _ (show limit - (depth + 1) = m by omega) hRun
    rw [Nat.add_sub_add_right] at hAfter
    exact ⟨hAfter, ha⟩
  · obtain ⟨_, _, hEnter, -⟩ := Steps.bind_ok.mp hRun
    cases (if_neg hDepth).symm.trans hEnter

end

theorem gives_peek : Gives limit n 0 (fun _ => True) peek := by
  rintro s _ _ - ⟨⟩
  exact ⟨rfl, trivial⟩

theorem gives_peekIs (symbol : Symbol) : Gives limit n 0 (fun _ => True) (peekIs symbol) := by
  rintro s _ _ - ⟨⟩
  exact ⟨rfl, trivial⟩

theorem gives_peekSymbol : Gives limit n 0 (fun _ => True) peekSymbol := by
  refine gives_peek.after fun next? => ?_
  split
  · exact gives_pure trivial
  · exact gives_pure trivial

theorem gives_left : Gives limit n 0 (fun _ => True) left := by
  rintro s _ _ - ⟨⟩
  exact ⟨rfl, trivial⟩

theorem gives_expect (what : Expectation) : Gives limit n 0 (fun _ => True) (expect what) := by
  rintro s _ _ - ⟨⟩
  exact ⟨rfl, trivial⟩

theorem gives_fulfil : Gives limit n 0 (fun _ => True) fulfil := by
  rintro s _ _ - ⟨⟩
  exact ⟨rfl, trivial⟩

theorem gives_advance : Gives limit n 0 (fun _ => True) advance := by
  rintro ⟨rest, _, _, _⟩ _ _ - h
  cases rest <;> cases h <;> exact ⟨rfl, trivial⟩

theorem Gives.ite {Q : α → Prop} {p q : Parse α} (c : Bool) (hp : Gives limit n k Q p)
    (hq : Gives limit n k Q q) : Gives limit n k Q (if c then p else q) := by
  cases c
  · exact hq
  · exact hp

theorem gives_eat (symbol : Symbol) : Gives limit n 0 (fun _ => True) (eat symbol) :=
  (gives_peekIs symbol).after fun found =>
    .ite found (gives_advance.after fun _ => gives_pure trivial) (gives_pure trivial)

theorem gives_require (symbol : Symbol) : Gives limit n 0 (fun _ => True) (require symbol) :=
  (gives_eat symbol).after fun found => .ite found gives_fulfil gives_fail

/-! ### Chains -/

/-- What goes on after a tree makes it higher by one for each level that is left. -/
def GoesUp (limit : Nat) (height : Nat → Nat) (next : Expr → Nat → Parse Expr) : Prop :=
  ∀ n links m left, height n ≤ m → left.Within m →
    Gives limit n links (Within (m + n)) (next left links)

variable {height : Nat → Nat} {nested operand : Parse Expr}

theorem GoesUp.chain {next : Expr → Nat → Parse Expr} (hNext : GoesUp limit height next)
    (hOperand : ∀ n, Gives limit n 0 (Within (height n)) operand) (n : Nat) :
    Gives limit n 0 (Within (height n + n)) (operand >>= fun left => next left 0) :=
  (hOperand n).bind fun left hLeft => hNext n 0 (height n) left (Nat.le_refl _) hLeft

theorem goesUp_chainStep {op : Type} {op? : Symbol → Option op} {join : op → Expr → Expr → Expr}
    (hJoin : ∀ o l r, (join o l r).children = [l, r]) (hHeight : ∀ n, height n ≤ height (n + 1))
    (hOperand : ∀ n, Gives limit n 0 (Within (height n)) operand)
    {next : Expr → Nat → Parse Expr} (hNext : GoesUp limit height next) :
    GoesUp limit height (chainStep limit op? join operand next) := by
  intro n links m left hm hLeft
  refine gives_peekSymbol.after fun symbol? => ?_
  cases symbol?.bind op? with
  | none => exact gives_leave (hLeft.mono (Nat.le_add_right m n)) links
  | some o =>
    refine gives_advance.after fun _ => gives_enter fun n' hn => ?_
    subst hn
    refine (gives_expect .expression).after fun _ => (hOperand n').bind fun right hRight =>
      gives_fulfil.after fun _ => ?_
    -- The operand is read with a level less, so it is no higher than what it is joined to.
    have hBelow : height n' ≤ m := (hHeight n').trans hm
    have hTree : (join o left right).Within (m + 1) := by
      refine within_succ ?_
      rw [hJoin]
      simpa using And.intro hLeft (hRight.mono hBelow)
    have hRest := hNext n' (links + 1) (m + 1) _ (Nat.le_succ_of_le hBelow) hTree
    rwa [Nat.add_assoc, Nat.add_comm 1] at hRest

theorem gives_chain {op : Type} {op? : Symbol → Option op} {join : op → Expr → Expr → Expr}
    (hJoin : ∀ o l r, (join o l r).children = [l, r]) (hHeight : ∀ n, height n ≤ height (n + 1))
    (hOperand : ∀ n, Gives limit n 0 (Within (height n)) operand) (levels n : Nat) :
    Gives limit n 0 (Within (height n + n)) (chain limit levels op? join operand) := by
  have hFrom : GoesUp limit height (chainFrom limit op? join operand levels) := by
    induction levels with
    | zero => exact goesUp_chainStep hJoin hHeight hOperand fun _ _ _ _ _ _ => gives_tooDeep
    | succ levels ih => exact goesUp_chainStep hJoin hHeight hOperand ih
  exact hFrom.chain hOperand n

/-! ### Primaries and what comes after them -/

variable {m : Nat}

theorem gives_primary (hNested : Gives limit n 0 (Within m) nested) (hm : 1 ≤ m) :
    Gives limit n 0 (Within m) (primary nested) := by
  have hLeaf : ∀ e : Expr, e.children = [] →
      Gives limit n 0 (Within m) (advance >>= fun _ => pure e) := fun e he =>
    gives_advance.after fun _ => gives_pure ((within_one he).mono hm)
  refine gives_peek.after fun next? => ?_
  split
  · exact gives_advance.after fun _ => (gives_expect .rightParen).after fun _ =>
      hNested.bind fun inner hInner => (gives_require .rightParen).after fun _ => gives_pure hInner
  · exact hLeaf _ rfl
  · exact hLeaf _ rfl
  · exact hLeaf _ rfl
  · exact hLeaf _ rfl
  · exact gives_fail
  · exact gives_fail
  · exact gives_fail

theorem gives_accessor {e : Expr} (he : e.Within m) :
    Gives limit n 0 (Within (m + 1)) (accessor e) := by
  refine (gives_expect .name).after fun _ => gives_advance.after fun _ =>
    gives_peek.after fun next? => ?_
  split
  · exact gives_advance.after fun _ => gives_fulfil.after fun _ =>
      gives_pure (within_succ (by simpa [children] using he))
  · exact gives_fail

/-- Bounds that are there are no higher than `m`. -/
def SlotsWithin (m : Nat) (slots : List (Option Expr)) : Prop :=
  ∀ e, some e ∈ slots → e.Within m

theorem gives_slot (hNested : Gives limit n 0 (Within m) nested) :
    Gives limit n 0 (fun bound? => SlotsWithin m [bound?]) (slot nested) := by
  refine (gives_peekIs .colon).after fun colon => (gives_peekIs .rightBracket).after fun bracket =>
    .ite _ (gives_pure ?_) (hNested.bind fun e he => gives_pure ?_)
  · simp [SlotsWithin]
  · simpa [SlotsWithin] using he

theorem gives_moreSlots (hNested : Gives limit n 0 (Within m) nested) (count : Nat) :
    Gives limit n 0 (SlotsWithin m) (moreSlots nested count) := by
  have hNone : SlotsWithin m [] := by simp [SlotsWithin]
  induction count with
  | zero => exact (gives_peekIs .colon).after fun found => .ite found gives_fail (gives_pure hNone)
  | succ count ih =>
    refine (gives_peekIs .colon).after fun found => .ite found ?_ (gives_pure hNone)
    refine (gives_expect .subscript).after fun _ => gives_advance.after fun _ =>
      (gives_slot hNested).bind fun first hFirst => gives_fulfil.after fun _ =>
        ih.bind fun others hOthers => gives_pure fun e he => ?_
    rcases List.mem_cons.mp he with rfl | hOther
    · exact hFirst e List.mem_cons_self
    · exact hOthers e hOther

theorem within_slice {operand : Expr} {start stop step : Option Expr} (hOperand : operand.Within m)
    (hSlots : SlotsWithin m [start, stop, step]) :
    (Expr.slice operand start stop step).Within (m + 1) := by
  refine within_succ fun child hChild => ?_
  rcases List.mem_cons.mp hChild with rfl | hBound
  · exact hOperand
  · refine hSlots child ?_
    simp only [List.mem_append, Option.mem_toList] at hBound
    rcases hBound with (rfl | rfl) | rfl <;> simp

theorem within_subscripted {operand e : Expr} {slots : List (Option Expr)}
    (hOperand : operand.Within m) (hSlots : SlotsWithin m slots)
    (h : subscripted operand slots = some e) : e.Within (m + 1) := by
  cases slots with
  | nil => cases h
  | cons first? slots =>
    cases slots with
    | nil =>
      cases first? with
      | none => cases h
      | some key =>
        cases h
        have hKey : key.Within m := hSlots key List.mem_cons_self
        exact within_succ (by simpa [children] using And.intro hOperand hKey)
    | cons stop slots =>
      cases slots with
      | nil =>
        cases h
        exact within_slice hOperand (by simpa [SlotsWithin] using hSlots)
      | cons step others =>
        cases h
        have hFirst : [first?, stop, step] ⊆ first? :: stop :: step :: others :=
          List.subset_append_left _ others
        exact within_slice hOperand fun e he => hSlots e (hFirst he)

theorem gives_subscriptFrom {operand : Expr} {first? : Option Expr}
    (hNested : Gives limit n 0 (Within m) nested) (hOperand : operand.Within m)
    (hFirst : SlotsWithin m [first?]) :
    Gives limit n 0 (Within (m + 1)) (subscriptFrom nested operand first?) := by
  refine (gives_moreSlots hNested 2).bind fun others hOthers =>
    (gives_require .rightBracket).after fun _ => ?_
  have hSlots : SlotsWithin m (first? :: others) := by
    intro e he
    rcases List.mem_cons.mp he with rfl | hOther
    · exact hFirst e List.mem_cons_self
    · exact hOthers e hOther
  cases hTree : subscripted operand (first? :: others) with
  | none => exact gives_fail
  | some e => exact gives_pure (within_subscripted hOperand hSlots hTree)

theorem gives_index {operand : Expr} (hNested : Gives limit n 0 (Within m) nested)
    (hOperand : operand.Within m) : Gives limit n 0 (Within (m + 1)) (index nested operand) := by
  refine (gives_expect .rightBracket).after fun _ => gives_advance.after fun _ =>
    gives_peek.after fun next? => (gives_peekIs .rightBracket).after fun bracket => .ite _ ?_ ?_
  · exact (gives_expect .subscript).after fun _ => gives_fail
  · refine (gives_peekIs .colon).after fun colon => ?_
    cases colon with
    | true => exact gives_subscriptFrom hNested hOperand (by simp [SlotsWithin])
    | false =>
      have hKey : Gives limit n 0 (fun key? => SlotsWithin m [key?]) (some <$> nested) := by
        rw [map_eq_pure_bind]
        exact hNested.bind fun key hKey => gives_pure (by simpa [SlotsWithin] using hKey)
      exact hKey.bind fun first? hFirst => gives_subscriptFrom hNested hOperand hFirst

theorem gives_moreArgs (hNested : Gives limit n 0 (Within m) nested) (count : Nat) :
    Gives limit n 0 (fun args => ∀ arg ∈ args, arg.Within m) (moreArgs nested count) := by
  induction count with
  | zero => exact gives_pure (by simp)
  | succ count ih =>
    refine (gives_eat .comma).after fun found => .ite found ?_ (gives_pure (by simp))
    exact (gives_expect .expression).after fun _ => hNested.bind fun arg hArg =>
      gives_fulfil.after fun _ => ih.bind fun others hOthers =>
        gives_pure (List.forall_mem_cons.mpr ⟨hArg, hOthers⟩)

theorem gives_call {callee : Expr} (hNested : Gives limit n 0 (Within m) nested)
    (hCallee : callee.Within m) : Gives limit n 0 (Within (m + 1)) (call nested callee) := by
  have hTree : ∀ args : List Expr, (∀ arg ∈ args, arg.Within m) →
      (Expr.call callee args).Within (m + 1) := fun args hArgs =>
    within_succ (List.forall_mem_cons.mpr ⟨hCallee, hArgs⟩)
  refine gives_advance.after fun _ => (gives_expect .rightParen).after fun _ =>
    gives_peek.after fun next? => ?_
  split
  · exact gives_fail
  · exact (gives_require .rightParen).after fun _ => gives_pure (hTree [] (by simp))
  · exact hNested.bind fun first hFirst => gives_left.after fun count =>
      (gives_moreArgs hNested _).bind fun others hOthers =>
        (gives_require .rightParen).after fun _ =>
          gives_pure (hTree _ (List.forall_mem_cons.mpr ⟨hFirst, hOthers⟩))

theorem goesUp_postfixStep (hHeight : ∀ n, height n ≤ height (n + 1))
    (hNested : ∀ n, Gives limit n 0 (Within (height n)) nested) {next : Expr → Nat → Parse Expr}
    (hNext : GoesUp limit height next) : GoesUp limit height (postfixStep limit nested next) := by
  intro n links m e hm he
  have hLink : ∀ {p : Parse Expr}, (∀ n', n = n' + 1 → Gives limit n' 0 (Within (m + 1)) p) →
      Gives limit n links (Within (m + n)) (do enter limit; next (← p) (links + 1)) := by
    intro p hp
    refine gives_enter fun n' hn => (hp n' hn).bind fun longer hLonger => ?_
    subst hn
    have hBelow : height n' ≤ m := (hHeight n').trans hm
    have hRest := hNext n' (links + 1) (m + 1) _ (Nat.le_succ_of_le hBelow) hLonger
    rwa [Nat.add_assoc, Nat.add_comm 1] at hRest
  have hInner : ∀ n', n = n' + 1 → Gives limit n' 0 (Within m) nested := by
    rintro n' rfl
    exact (hNested n').mono fun inner hInner => hInner.mono ((hHeight n').trans hm)
  have hStop : Gives limit n links (Within (m + n)) (leave links >>= fun _ => pure e) :=
    gives_leave (he.mono (Nat.le_add_right m n)) links
  refine gives_peekSymbol.after fun symbol? => ?_
  cases symbol? with
  | none => exact hStop
  | some symbol =>
    cases symbol with
    | dot => exact hLink fun _ _ => gives_accessor he
    | leftBracket => exact hLink fun n' hn => gives_index (hInner n' hn) he
    | leftParen => exact hLink fun n' hn => gives_call (hInner n' hn) he
    | _ => exact hStop

theorem gives_postfixed (hHeight : ∀ n, height n ≤ height (n + 1)) (hOne : ∀ n, 1 ≤ height n)
    (hNested : ∀ n, Gives limit n 0 (Within (height n)) nested) (levels n : Nat) :
    Gives limit n 0 (Within (height n + n)) (postfixed limit levels nested) := by
  have hFrom : GoesUp limit height (postfixFrom limit nested levels) := by
    induction levels with
    | zero => exact goesUp_postfixStep hHeight hNested fun _ _ _ _ _ _ => gives_tooDeep
    | succ levels ih => exact goesUp_postfixStep hHeight hNested ih
  exact hFrom.chain (fun n => gives_primary (hNested n) (hOne n)) n

/-! ### Powers and signs -/

variable {levels : Nat}

theorem gives_powerStep {base exponent : Parse Expr} (hHeight : ∀ n, height n + 1 ≤ height (n + 1))
    (hBase : ∀ n, Gives limit n 0 (Within (height n)) base)
    (hExponent : ∀ n, Gives limit n 0 (Within (height n + min n 1)) exponent) (n : Nat) :
    Gives limit n 0 (Within (height n + min n 1)) (powerStep limit base exponent) := by
  refine (hBase n).bind fun left hLeft => (gives_eat .doubleStar).after fun found => .ite found ?_
    (gives_pure (hLeft.mono (Nat.le_add_right _ _)))
  refine gives_enter fun n' hn => (gives_expect .expression).after fun _ =>
    (hExponent n').bind fun right hRight => gives_fulfil.after fun _ => gives_leave ?_ 1
  subst hn
  -- A level more makes a base higher, so the exponent is no higher than the base can be.
  have hLower := hHeight n'
  have hTree : (Expr.binary .pow left right).Within (height (n' + 1) + 1) := by
    refine within_succ ?_
    simpa [children] using And.intro hLeft (hRight.mono (by omega))
  exact hTree.mono (by omega)

theorem gives_powers {base : Parse Expr} (hHeight : ∀ n, height n + 1 ≤ height (n + 1))
    (hBase : ∀ n, Gives limit n 0 (Within (height n)) base) (levels n : Nat) :
    Gives limit n 0 (Within (height n + min n 1)) (powers limit base levels) := by
  induction levels generalizing n with
  | zero => exact gives_powerStep hHeight hBase (fun _ => gives_tooDeep) n
  | succ levels ih => exact gives_powerStep hHeight hBase ih n

theorem gives_signed (op : UnaryOp) (hOperand : Gives limit n 0 (Within m) operand) :
    Gives limit n 0 (Within (m + 1)) (signed op operand) :=
  (gives_expect .expression).after fun _ => hOperand.bind fun e he => gives_fulfil.after fun _ =>
    gives_pure (within_succ (by simpa [children] using he))

theorem gives_unary (hPower : Gives limit n 0 (Within m) (power limit levels nested)) :
    Gives limit n 0 (Within (m + 1)) (unary limit levels nested) := by
  refine gives_peekSymbol.after fun symbol? => ?_
  cases symbol?.bind Parser.sign? with
  | none => exact hPower.mono fun _ he => he.mono (Nat.le_succ m)
  | some op => exact gives_advance.after fun _ => gives_signed op hPower

theorem gives_negation
    (hOperand : Gives limit n 0 (Within m) (comparison limit levels nested)) :
    Gives limit n 0 (Within (m + 1)) (negation limit levels nested) :=
  (gives_eat .not).after fun found => .ite found (gives_signed .not hOperand)
    (hOperand.mono fun _ he => he.mono (Nat.le_succ m))

/-! ### Every expression -/

/-- The greatest height of an expression that is read with `n` levels left. -/
def tallest (n : Nat) : Nat := 3 * n ^ 2 + n - 1

theorem tallest_succ (n : Nat) : tallest (n + 1) = 3 * n ^ 2 + 7 * n + 3 := by
  have hSquare : 3 * (n + 1) ^ 2 = 3 * n ^ 2 + 6 * n + 3 := by ring
  rw [tallest, hSquare]
  omega

/-- The height of what is read in front of the operators, with `n` levels left. -/
def powerHeight (n : Nat) : Nat := max 1 (tallest n) + n + min n 1

theorem powerHeight_le_succ (n : Nat) : powerHeight n ≤ powerHeight (n + 1) := by
  rw [powerHeight, powerHeight, tallest_succ, tallest]
  omega

theorem gives_power (hNested : ∀ n, Gives limit n 0 (Within (tallest n)) nested) (n : Nat) :
    Gives limit n 0 (Within (powerHeight n)) (power limit levels nested) := by
  have hInner : ∀ n, Gives limit n 0 (Within (max 1 (tallest n))) nested := fun n =>
    (hNested n).mono fun _ he => he.mono (Nat.le_max_right _ _)
  have hPostfixed : ∀ n, Gives limit n 0 (Within (max 1 (tallest n) + n))
      (postfixed limit levels nested) := by
    refine gives_postfixed (fun n => ?_) (fun n => Nat.le_max_left _ _) hInner levels
    rw [tallest_succ, tallest]
    omega
  refine gives_powers (fun n => ?_) hPostfixed levels n
  rw [tallest_succ, tallest]
  omega

/-- Each of the five rungs of operators adds a link for each level, and each of the two signs
adds one. -/
theorem gives_disjunction (hNested : ∀ n, Gives limit n 0 (Within (tallest n)) nested) (n : Nat) :
    Gives limit n 0 (Within (powerHeight n + 1 + n + n + n + 1 + n + n))
      (disjunction limit levels nested) := by
  have hPower := powerHeight_le_succ
  have hUnary : ∀ n, Gives limit n 0 (Within (powerHeight n + 1)) (unary limit levels nested) :=
    fun n => gives_unary (gives_power hNested n)
  have hMultiplicative : ∀ n, Gives limit n 0 (Within (powerHeight n + 1 + n))
      (multiplicative limit levels nested) :=
    gives_chain (fun _ _ _ => rfl) (fun n => by have := hPower n; omega) hUnary levels
  have hAdditive : ∀ n, Gives limit n 0 (Within (powerHeight n + 1 + n + n))
      (additive limit levels nested) :=
    gives_chain (fun _ _ _ => rfl) (fun n => by have := hPower n; omega) hMultiplicative levels
  have hComparison : ∀ n, Gives limit n 0 (Within (powerHeight n + 1 + n + n + n))
      (comparison limit levels nested) :=
    gives_chain (fun _ _ _ => rfl) (fun n => by have := hPower n; omega) hAdditive levels
  have hNegation : ∀ n, Gives limit n 0 (Within (powerHeight n + 1 + n + n + n + 1))
      (negation limit levels nested) := fun n => gives_negation (hComparison n)
  have hConjunction : ∀ n, Gives limit n 0 (Within (powerHeight n + 1 + n + n + n + 1 + n))
      (conjunction limit levels nested) :=
    gives_chain (fun _ _ _ => rfl) (fun n => by have := hPower n; omega) hNegation levels
  exact gives_chain (fun _ _ _ => rfl) (fun n => by have := hPower n; omega) hConjunction levels n

/-- What is read with `n` levels left is no higher than `tallest n`. -/
theorem gives_ternary (limit levels n : Nat) :
    Gives limit n 0 (Within (tallest n)) (ternary limit levels) := by
  induction levels generalizing n with
  | zero => exact gives_tooDeep
  | succ levels ih =>
    rw [ternary, called_eq, ternaryStep]
    refine gives_enter fun n' hn => (gives_disjunction ih n').bind fun cond hCond =>
      (gives_eat .question).after fun found => ?_
    subst hn
    have hAlone : powerHeight n' + 1 + n' + n' + n' + 1 + n' + n' ≤ tallest (n' + 1) := by
      rw [tallest_succ, powerHeight, tallest]
      omega
    refine .ite found ?_ (gives_leave (hCond.mono hAlone) 1)
    refine (gives_expect .expression).after fun _ => (ih n').bind fun yes hYes =>
      (gives_expect .colon).after fun _ => (gives_require .colon).after fun _ =>
        (ih n').bind fun no hNo => gives_fulfil.after fun _ => gives_leave ?_ 1
    -- A branch takes a level, so there is one left behind the condition.
    have hLevel : n' ≠ 0 := by
      rintro rfl
      exact not_within_zero hYes
    have hBelow : tallest n' ≤ powerHeight n' + 1 + n' + n' + n' + 1 + n' + n' := by
      rw [powerHeight]
      omega
    have hTree : (Expr.ternary cond yes no).Within
        (powerHeight n' + 1 + n' + n' + n' + 1 + n' + n' + 1) := by
      refine within_succ ?_
      simpa [children] using ⟨hCond, hYes.mono hBelow, hNo.mono hBelow⟩
    have hAbove : powerHeight n' + 1 + n' + n' + n' + 1 + n' + n' + 1 ≤ tallest (n' + 1) := by
      have hSquare : n' ≤ n' ^ 2 := Nat.le_self_pow (by decide) n'
      rw [tallest_succ, powerHeight, tallest]
      omega
    exact hTree.mono hAbove

/-- What the parser gives within a limit is no higher than the limit says. -/
theorem within_of_parse {kinds : List Kind} {e : Expr} (h : parse limit kinds = .ok e) :
    e.Within (tallest limit) := by
  unfold parse at h
  cases hRun : (complete limit limit : Parse Expr) ⟨kinds, 0, 0, []⟩ with
  | error fault =>
    rw [hRun] at h
    cases h
  | ok out =>
    obtain ⟨tree, s'⟩ := out
    rw [hRun] at h
    cases h
    have hComplete : Gives limit limit 0 (Within (tallest limit))
        (complete limit limit) := by
      refine (gives_ternary limit limit limit).bind fun e he => gives_peek.after fun next? => ?_
      split
      · exact gives_pure he
      · exact gives_fail
    exact (hComplete _ _ _ rfl hRun).2

end Formula.Parser
