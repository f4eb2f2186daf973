import Formula.Proofs.Parser.Steps

/-! Relations between runs of the readers in two monads. If the small steps are related to
themselves, and steps after each other are related where their parts are, then what reads a primary,
a suffix or a sign is related to itself as soon as the readers of the nested expressions are. -/

namespace Formula.Parser

variable {m m' : Type → Type} {R S : (α : Type) → m α → m' α → Prop}

theorem related_ite {α : Type} {p q : m α} {p' q' : m' α} (c : Bool) (ht : R α p p')
    (hf : R α q q') : R α (if c then p else q) (if c then p' else q') := by
  cases c
  · exact hf
  · exact ht

variable [Monad m] [Monad m'] [SmallSteps m] [SmallSteps m']

/-- A relation that the small steps which neither charge nor give back levels are in, and that steps
after each other are in if their parts are. -/
structure Congruence (R : (α : Type) → m α → m' α → Prop) : Prop where
  pure {α : Type} (a : α) : R α (pure a) (pure a)
  fail {α : Type} : R α fail fail
  noKey {α : Type} : R α noKey noKey
  peek : R _ peek peek
  advance : R _ advance advance
  expect (what : Expectation) : R _ (expect what) (expect what)
  fulfil : R _ fulfil fulfil
  bind {α β : Type} {p : m α} {q : m' α} {f : α → m β} {g : α → m' β} (first : R α p q)
    (next : ∀ a, R β (f a) (g a)) : R β (p >>= f) (q >>= g)

/-- Calls of readers are in `S` if the readers are in `R`. -/
def Calls (R S : (α : Type) → m α → m' α → Prop) : Prop :=
  ∀ {α : Type} {p : Unit → m α} {q : Unit → m' α}, R α (p ()) (q ()) → S α (called p) (called q)

namespace Congruence

variable (hR : Congruence R)
include hR

theorem peekIs (symbol : Symbol) : R _ (Parser.peekIs symbol) (Parser.peekIs symbol) :=
  hR.bind hR.peek fun next? => hR.pure (decide (next? = some (.symbol symbol)))

theorem peekSymbol : R _ Parser.peekSymbol Parser.peekSymbol := by
  refine hR.bind hR.peek fun next? => ?_
  split
  · exact hR.pure _
  · exact hR.pure none

theorem eat (symbol : Symbol) : R _ (Parser.eat symbol) (Parser.eat symbol) :=
  hR.bind (hR.peekIs symbol) fun found =>
    related_ite found (hR.bind hR.advance fun _ => hR.pure true) (hR.pure false)

theorem require (symbol : Symbol) : R _ (Parser.require symbol) (Parser.require symbol) :=
  hR.bind (hR.eat symbol) fun found => related_ite found hR.fulfil hR.fail

theorem accessor (hCalls : Calls R S) (e : Expr) :
    S _ (Parser.accessor e) (Parser.accessor e) := by
  refine hCalls <| hR.bind (hR.expect .name) fun _ => hR.bind hR.advance fun _ =>
    hR.bind hR.peek fun next? => ?_
  split
  · exact hR.bind hR.advance fun _ => hR.bind hR.fulfil fun _ => hR.pure _
  · exact hR.fail

variable {nested : m Expr} {nested' : m' Expr}

/-- What reads a call is related to itself if what reads its arguments is, however many there
are. -/
theorem call (hCalls : Calls R S) (e : Expr)
    (hArgs : R _ (argsFrom nested e) (argsFrom nested' e)) :
    S _ (Parser.call nested e) (Parser.call nested' e) := by
  refine hCalls <| hR.bind hR.advance fun _ => hR.bind (hR.expect .rightParen) fun _ =>
    hR.bind hR.peek fun next? => ?_
  split
  · exact hR.fail
  · exact hR.bind (hR.require .rightParen) fun _ => hR.pure _
  · exact hArgs

variable (h : R _ nested nested')
include h

theorem signed (op : UnaryOp) : R _ (Parser.signed op nested) (Parser.signed op nested') :=
  hR.bind (hR.expect .expression) fun _ => hR.bind h fun e => hR.bind hR.fulfil fun _ =>
    hR.pure (Expr.unary op e)

theorem primary (hCalls : Calls R S) :
    S _ (Parser.primary nested) (Parser.primary nested') := by
  refine hCalls <| hR.bind hR.peek fun next? => ?_
  split
  · exact hR.bind hR.advance fun _ => hR.bind (hR.expect .rightParen) fun _ =>
      hR.bind h fun inner => hR.bind (hR.require .rightParen) fun _ => hR.pure inner
  · exact hR.bind hR.advance fun _ => hR.pure _
  · exact hR.bind hR.advance fun _ => hR.pure _
  · exact hR.bind hR.advance fun _ => hR.pure _
  · exact hR.bind hR.advance fun _ => hR.pure _
  · exact hR.fail
  · exact hR.fail
  · exact hR.fail

theorem slot : R _ (Parser.slot nested) (Parser.slot nested') :=
  hR.bind (hR.peekIs .colon) fun colon => hR.bind (hR.peekIs .rightBracket) fun bracket =>
    related_ite (colon || bracket) (hR.pure none) (hR.bind h fun e => hR.pure (some e))

theorem moreSlots (n : Nat) : R _ (Parser.moreSlots nested n) (Parser.moreSlots nested' n) := by
  induction n with
  | zero => exact hR.bind (hR.peekIs .colon) fun colon => related_ite colon hR.fail (hR.pure [])
  | succ n ih =>
    refine hR.bind (hR.peekIs .colon) fun colon => related_ite colon ?_ (hR.pure [])
    exact hR.bind (hR.expect .subscript) fun _ => hR.bind hR.advance fun _ =>
      hR.bind (hR.slot h) fun first => hR.bind hR.fulfil fun _ => hR.bind ih fun others =>
        hR.pure (first :: others)

theorem subscriptFrom (e : Expr) (first? : Option Expr) :
    R _ (Parser.subscriptFrom nested e first?) (Parser.subscriptFrom nested' e first?) := by
  refine hR.bind (hR.moreSlots h 2) fun others => hR.bind (hR.require .rightBracket) fun _ => ?_
  cases subscripted e (first? :: others) with
  | none => exact hR.noKey
  | some tree => exact hR.pure tree

theorem index [LawfulMonad m] [LawfulMonad m'] (hCalls : Calls R S) (e : Expr) :
    S _ (Parser.index nested e) (Parser.index nested' e) := by
  refine hCalls <| hR.bind (hR.expect .rightBracket) fun _ => hR.bind hR.advance fun _ =>
    hR.bind hR.peek fun next? => hR.bind (hR.peekIs .rightBracket) fun bracket =>
      related_ite (decide (next? = none) || bracket) ?_ ?_
  · exact hR.bind (hR.expect .subscript) fun _ => hR.fail
  · refine hR.bind (hR.peekIs .colon) fun colon => related_ite colon ?_ ?_
    · exact hR.bind (hR.pure none) fun first? => hR.subscriptFrom h e first?
    · rw [map_eq_pure_bind, map_eq_pure_bind]
      exact hR.bind (hR.bind h fun key => hR.pure (some key)) fun first? =>
        hR.subscriptFrom h e first?

theorem moreArgs (n : Nat) : R _ (Parser.moreArgs nested n) (Parser.moreArgs nested' n) := by
  induction n with
  | zero => exact hR.pure []
  | succ n ih =>
    exact hR.bind (hR.eat .comma) fun comma => related_ite comma
      (hR.bind (hR.expect .expression) fun _ => hR.bind h fun arg => hR.bind hR.fulfil fun _ =>
        hR.bind ih fun others => hR.pure (arg :: others))
      (hR.pure [])

omit h

variable {limit limit' levels levels' : Nat}

theorem unary (hCalls : Calls R S)
    (h : R _ (power limit levels nested) (power limit' levels' nested')) :
    S _ (Parser.unary limit levels nested) (Parser.unary limit' levels' nested') := by
  refine hCalls <| hR.bind hR.peekSymbol fun symbol? => ?_
  cases symbol?.bind sign? with
  | none => exact h
  | some op => exact hR.bind hR.advance fun _ => hR.signed h op

theorem negation (hCalls : Calls R S)
    (h : R _ (comparison limit levels nested) (comparison limit' levels' nested')) :
    S _ (Parser.negation limit levels nested) (Parser.negation limit' levels' nested') :=
  hCalls <| hR.bind (hR.eat .not) fun found => related_ite found (hR.signed h .not) h

end Congruence

end Formula.Parser
