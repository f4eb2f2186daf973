import Formula.Expr.Parser
import Formula.Proofs.Steps

/-! The small steps of the parser, as equations of what comes after them. -/

namespace Formula.Parser

open Steps

variable {α : Type} {s' : State} {symbol : Symbol} {k : Token.Kind} {rest : List Token.Kind}
  {position depth : Nat} {pending : List Expectation}

/-- The first token, if it is a symbol. -/
def symbol? : List Token.Kind → Option Symbol
  | .symbol symbol :: _ => some symbol
  | _ => none

theorem symbol?_eq_some : symbol? rest = some symbol ↔ ∃ more, rest = .symbol symbol :: more := by
  unfold symbol?
  split <;> simp_all

/-- A call is what is called. -/
theorem called_eq {reader : Unit → Parse α} : called reader = reader () := rfl

theorem left_bind {f : Nat → Parse α} {s : State} : (left >>= f) s = f s.rest.length s := rfl

theorem peek_bind {f : Option Token.Kind → Parse α} :
    (peek >>= f) ⟨rest, position, depth, pending⟩ =
      f rest.head? ⟨rest, position, depth, pending⟩ := rfl

theorem peekIs_bind {f : Bool → Parse α} :
    (peekIs symbol >>= f) ⟨rest, position, depth, pending⟩ =
      f (rest.head? = some (.symbol symbol)) ⟨rest, position, depth, pending⟩ := rfl

theorem peekIs_bind_next {f : Bool → Parse α} :
    (peekIs symbol >>= f) ⟨.symbol symbol :: rest, position, depth, pending⟩ =
      f true ⟨.symbol symbol :: rest, position, depth, pending⟩ := by
  rw [peekIs_bind, List.head?_cons, decide_eq_true rfl]

theorem peekIs_bind_other {f : Bool → Parse α} (h : rest.head? ≠ some (.symbol symbol)) :
    (peekIs symbol >>= f) ⟨rest, position, depth, pending⟩ =
      f false ⟨rest, position, depth, pending⟩ := by
  rw [peekIs_bind, decide_eq_false h]

theorem peekSymbol_bind {f : Option Symbol → Parse α} :
    (peekSymbol >>= f) ⟨rest, position, depth, pending⟩ =
      f (symbol? rest) ⟨rest, position, depth, pending⟩ := by
  apply bind_eq
  cases rest with
  | nil => rfl
  | cons k rest => cases k <;> rfl

theorem advance_bind {f : Unit → Parse α} :
    (advance >>= f) ⟨k :: rest, position, depth, pending⟩ =
      f () ⟨rest, position + 1, depth, pending⟩ := rfl

theorem expect_bind {f : Unit → Parse α} {what : Expectation} :
    (expect what >>= f) ⟨rest, position, depth, pending⟩ =
      f () ⟨rest, position, depth, what :: pending⟩ := rfl

theorem fulfil_bind {f : Unit → Parse α} {what : Expectation} :
    (fulfil >>= f) ⟨rest, position, depth, what :: pending⟩ =
      f () ⟨rest, position, depth, pending⟩ := rfl

theorem leave_bind {f : Unit → Parse α} {links : Nat} :
    (leave links >>= f) ⟨rest, position, depth, pending⟩ =
      f () ⟨rest, position, depth - links, pending⟩ := rfl

theorem eat_bind {f : Bool → Parse α} :
    (eat symbol >>= f) ⟨.symbol symbol :: rest, position, depth, pending⟩ =
      f true ⟨rest, position + 1, depth, pending⟩ := by
  apply bind_eq
  rw [eat, peekIs_bind_next]
  rfl

theorem eat_bind_other {f : Bool → Parse α} (h : rest.head? ≠ some (.symbol symbol)) :
    (eat symbol >>= f) ⟨rest, position, depth, pending⟩ =
      f false ⟨rest, position, depth, pending⟩ := by
  apply bind_eq
  rw [eat, peekIs_bind_other h]
  rfl

theorem require_bind {f : Unit → Parse α} {what : Expectation} :
    (require symbol >>= f) ⟨.symbol symbol :: rest, position, depth, what :: pending⟩ =
      f () ⟨rest, position + 1, depth, pending⟩ := by
  apply bind_eq
  rw [require, eat_bind]
  rfl

theorem enter_bind {f : Unit → Parse α} {limit : Nat} (h : depth + 1 ≤ limit) :
    (enter limit >>= f) ⟨rest, position, depth, pending⟩ =
      f () ⟨rest, position, depth + 1, pending⟩ := by
  exact bind_eq (if_pos h)

/-! ### Steps that may fail -/

theorem fail_ok {s : State} {a : α} : ¬(fail : Parse α) s = .ok (a, s') := nofun

theorem tooDeep_ok {s : State} {a : α} : ¬(tooDeep : Parse α) s = .ok (a, s') := nofun

theorem enter_bind_ok {f : Unit → Parse α} {limit : Nat} {a : α}
    (h : (enter limit >>= f) ⟨rest, position, depth, pending⟩ = .ok (a, s')) :
    f () ⟨rest, position, depth + 1, pending⟩ = .ok (a, s') := by
  by_cases hDepth : depth + 1 ≤ limit
  · rwa [enter_bind hDepth] at h
  · obtain ⟨_, _, hEnter, -⟩ := bind_ok.mp h
    cases (if_neg hDepth).symm.trans hEnter

theorem require_bind_ok {f : Unit → Parse α} {a : α} {what : Expectation}
    (h : (require symbol >>= f) ⟨rest, position, depth, what :: pending⟩ = .ok (a, s')) :
    ∃ more, rest = .symbol symbol :: more ∧
      f () ⟨more, position + 1, depth, pending⟩ = .ok (a, s') := by
  by_cases hNext : rest.head? = some (.symbol symbol)
  · obtain ⟨more, rfl⟩ := List.head?_eq_some_iff.mp hNext
    rw [require_bind] at h
    exact ⟨more, rfl, h⟩
  · obtain ⟨_, _, hRequire, -⟩ := bind_ok.mp h
    rw [require, eat_bind_other hNext, if_neg Bool.false_ne_true] at hRequire
    exact absurd hRequire fail_ok

/-! ### Where steps fail -/

theorem fail_error {fault : Fault} {what : Expectation}
    (h : (fail : Parse α) ⟨rest, position, depth, what :: pending⟩ = .error fault) :
    fault = .expected what position := by
  cases h
  rfl

theorem enter_bind_error {f : Unit → Parse α} {limit : Nat} {fault : Fault}
    (h : (enter limit >>= f) ⟨rest, position, depth, pending⟩ = .error fault) :
    (limit ≤ depth ∧ fault = .tooDeep position) ∨
      (depth + 1 ≤ limit ∧ f () ⟨rest, position, depth + 1, pending⟩ = .error fault) := by
  by_cases hDepth : depth + 1 ≤ limit
  · rw [enter_bind hDepth] at h
    exact .inr ⟨hDepth, h⟩
  · rcases bind_error.mp h with hEnter | ⟨_, _, hEnter, -⟩ <;>
      cases (if_neg hDepth).symm.trans hEnter
    exact .inl ⟨by omega, rfl⟩

theorem require_bind_error {f : Unit → Parse α} {fault : Fault} {what : Expectation}
    (h : (require symbol >>= f) ⟨rest, position, depth, what :: pending⟩ = .error fault) :
    fault = .expected what position ∨
      ∃ more, rest = .symbol symbol :: more ∧
        f () ⟨more, position + 1, depth, pending⟩ = .error fault := by
  by_cases hNext : rest.head? = some (.symbol symbol)
  · obtain ⟨more, rfl⟩ := List.head?_eq_some_iff.mp hNext
    rw [require_bind] at h
    exact .inr ⟨more, rfl, h⟩
  · have hFail : (require symbol : Parse Unit) ⟨rest, position, depth, what :: pending⟩ =
        .error (.expected what position) := by
      rw [require, eat_bind_other hNext]
      rfl
    rcases bind_error.mp h with hRequire | ⟨_, _, hRequire, -⟩ <;> rw [hFail] at hRequire <;>
      cases hRequire
    exact .inl rfl

end Formula.Parser
