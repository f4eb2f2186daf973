import Mathlib.Control.Monad.Basic
import Formula.Expression
import Formula.Proofs.Code.Emission

/-! The machine and the evaluation by the tree agree. -/

namespace Formula

namespace Machine

variable {σ α β : Type}

theorem ofRun_pure (a : α) : ofRun (pure a : Run σ α) = pure a := rfl

theorem ofRun_apply (r : Run σ α) (s : σ) :
    ofRun r s = ((r s).1.mapError .runtime, (r s).2) := rfl

theorem ofRun_bind (r : Run σ α) (f : α → Run σ β) :
    ofRun (r >>= f) = ofRun r >>= fun a => ofRun (f a) := by
  funext s
  have hRun : (r >>= f) s = ExceptT.bindCont f (r s).1 (r s).2 := rfl
  show ofRun (r >>= f) s = ExceptT.bindCont (fun a => ofRun (f a)) (ofRun r s).1 (ofRun r s).2
  rw [ofRun_apply, ofRun_apply, hRun]
  cases (r s).1 with
  | ok a => rfl
  | error e => rfl

theorem ofRun_lift (m : StateM σ α) : ofRun (liftM m : Run σ α) = liftM m := rfl

variable {host : Host σ} {env : Environment σ} {t : SymbolTable} {rest : List Instruction}
  {stack : List Value}

theorem run_nil : run host env t [] stack = pure stack := by
  rw [run]

theorem run_cons (i : Instruction) :
    run host env t (i :: rest) stack =
      step host env t i stack >>= fun p => run host env t (rest.drop p.2) p.1 := by
  rw [run]

/-- An instruction that pushes the result of an operation. -/
theorem run_pushing {i : Instruction} {below : List Value} {r : Run σ Value}
    (h : step host env t i stack = pushing below r) :
    run host env t (i :: rest) stack = ofRun r >>= fun v => run host env t rest (v :: below) := by
  simp only [run_cons, h, pushing, bind_assoc, pure_bind, List.drop_zero]

theorem run_constant {v : Value} (h : t.Knows [.constant v]) :
    run host env t ((Operand.constant v).load t :: rest) stack =
      run host env t rest (v :: stack) := by
  obtain ⟨id, hid⟩ := h.number?
  simp only [Operand.load, hid, Option.getD_some, run_cons, step, SymbolTable.literal?_eq hid,
    pure_bind, List.drop_zero]

theorem run_name {name : String} (h : t.Knows [.name name]) :
    run host env t ((Operand.name name).load t :: rest) stack =
      ofRun (env.lookup name) >>= fun v => run host env t rest (v :: stack) := by
  obtain ⟨id, hid⟩ := h.number?
  apply run_pushing
  simp only [Operand.load, hid, Option.getD_some, step, SymbolTable.reference?_eq hid]

theorem run_jump (skipped : List Instruction) :
    run host env t (.jump skipped.length :: (skipped ++ rest)) stack =
      run host env t rest stack := by
  simp only [run_cons, step, pure_bind, List.drop_left]

/-- Two branches with their jumps: one of them is run. -/
theorem run_branch (yes no : List Instruction) (v : Value) :
    run host env t
        ([Instruction.popJumpIf false (yes.length + 1)] ++ yes ++ [Instruction.jump no.length] ++
          no ++ rest)
        (v :: stack) =
      liftM (v.truth host) >>= fun truth =>
        if truth then run host env t (yes ++ Instruction.jump no.length :: (no ++ rest)) stack
        else run host env t (no ++ rest) stack := by
  simp only [List.append_assoc, List.cons_append, List.nil_append, run_cons, step, pop, skipIf,
    pure_bind, bind_assoc]
  congr 1
  funext truth
  cases truth with
  | false => simp [List.drop_append, List.drop_of_length_le (Nat.le_succ yes.length)]
  | true => simp

/-- A connective between a value and the code of its right operand, which is skipped if the value
decides. -/
theorem run_connect (op : Connective) (right : List Instruction) (v : Value) :
    run host env t
        ([Instruction.jumpIf (Compiler.decisive op) (right.length + 1), .pop] ++ right ++ rest)
        (v :: stack) =
      liftM (v.truth host) >>= fun truth =>
        if Expr.decides op truth then run host env t rest (v :: stack)
        else run host env t (right ++ rest) stack := by
  simp only [List.cons_append, List.nil_append]
  rw [run_cons]
  simp only [step, pop, skipIf, pure_bind, bind_assoc]
  congr 1
  funext truth
  have hDecides : (truth == Compiler.decisive op) = Expr.decides op truth := by
    cases op <;> cases truth <;> rfl
  cases h : Expr.decides op truth with
  | false =>
    rw [h] at hDecides
    simp [hDecides, run_cons, step, pop]
  | true =>
    rw [h] at hDecides
    simp [hDecides]

/-- The call of a callee that lies below the arguments in `done`, once the other arguments are
there. -/
theorem run_call {args : List Expr} {callee : Value} (done : List Value)
    (ih : ∀ arg ∈ args, ∀ {rest stack}, t.Knows arg.operands →
      run host env t (arg.codeIn t ++ rest) stack =
        ofRun (arg.eval host env) >>= fun v => run host env t rest (v :: stack))
    (h : t.Knows (Expr.argsOperands args)) :
    run host env t (Expr.argsCodeIn t args ++ .call (done.length + args.length) :: rest)
        (done.reverse ++ callee :: stack) =
      ofRun (Expr.evalArgs host env args) >>= fun vs =>
        ofRun (callee.call host (done ++ vs)) >>= fun v => run host env t rest (v :: stack) := by
  induction args generalizing done with
  | nil =>
    simp only [Expr.argsCodeIn, Expr.evalArgs, ofRun_pure, pure_bind, List.append_nil,
      List.nil_append, List.length_nil, Nat.add_zero]
    have hHeight : ¬done.length + (stack.length + 1) < done.length := by omega
    exact run_pushing (by simp [step, pop, hHeight])
  | cons e es ihArgs =>
    obtain ⟨hFirst, hOthers⟩ := List.forall_mem_cons.mp ih
    simp only [Expr.argsOperands, SymbolTable.knows_append] at h
    simp only [Expr.argsCodeIn, Expr.evalArgs, List.append_assoc, hFirst h.1, ofRun_bind,
      ofRun_pure, bind_assoc, pure_bind]
    congr 1
    funext v
    have := ihArgs (done ++ [v]) hOthers h.2
    simpa [Nat.add_assoc, Nat.add_comm 1] using this

theorem run_bound {bound? : Option Expr}
    (ih : ∀ bound ∈ bound?, ∀ {rest stack}, t.Knows bound.operands →
      run host env t (bound.codeIn t ++ rest) stack =
        ofRun (bound.eval host env) >>= fun v => run host env t rest (v :: stack))
    (h : t.Knows (Expr.boundOperands bound?)) :
    run host env t (Expr.boundCodeIn t bound? ++ rest) stack =
      ofRun (Expr.evalBound host env bound?) >>= fun v => run host env t rest (v :: stack) := by
  cases bound? with
  | none => exact run_constant h
  | some e => exact ih e rfl h

/-- The code of an expression pushes its value, whatever comes after it and lies on the stack. -/
theorem run_codeIn {e : Expr} (h : t.Knows e.operands) :
    run host env t (e.codeIn t ++ rest) stack =
      ofRun (e.eval host env) >>= fun v => run host env t rest (v :: stack) := by
  induction e generalizing rest stack with
  | literal l => exact run_constant h
  | reference name => exact run_name h
  | unary op e ih =>
    simp only [Expr.codeIn, Expr.eval, List.append_assoc, ih h, ofRun_bind, bind_assoc]
    congr 1
    funext v
    exact run_pushing rfl
  | binary op l r ihl ihr | compare op l r ihl ihr =>
    obtain ⟨hl, hr⟩ := SymbolTable.knows_append.mp h
    simp only [Expr.codeIn, Expr.eval, List.append_assoc, ihl hl, ihr hr, ofRun_bind, bind_assoc]
    congr 1
    funext v
    congr 1
    funext w
    exact run_pushing rfl
  | connect op l r ihl ihr =>
    obtain ⟨hl, hr⟩ := SymbolTable.knows_append.mp h
    rw [Expr.codeIn, List.append_assoc, ihl hl]
    simp only [Expr.eval, ofRun_bind, ofRun_lift, bind_assoc, run_connect, ihr hr]
    congr 1
    funext v
    congr 1
    funext truth
    cases Expr.decides op truth <;> rfl
  | ternary c y n ihc ihy ihn =>
    simp only [Expr.operands, SymbolTable.knows_append] at h
    rw [Expr.codeIn, List.append_assoc, ihc h.1]
    simp only [Expr.eval, ofRun_bind, ofRun_lift, bind_assoc, run_branch, ihy h.2.1, ihn h.2.2,
      run_jump]
    congr 1
    funext v
    congr 1
    funext truth
    cases truth <;> rfl
  | access e attr ih =>
    obtain ⟨he, hattr⟩ := SymbolTable.knows_append.mp h
    simp only [Expr.codeIn, Expr.eval, List.append_assoc, ih he, ofRun_bind, bind_assoc]
    congr 1
    funext v
    rw [List.cons_append, run_constant hattr]
    exact run_pushing rfl
  | call f args ihf ihargs =>
    obtain ⟨hf, hargs⟩ := SymbolTable.knows_append.mp h
    simp only [Expr.codeIn, Expr.eval, List.append_assoc, ihf hf, ofRun_bind, bind_assoc]
    congr 1
    funext callee
    simpa using run_call [] ihargs hargs
  | item e key ihe ihkey =>
    obtain ⟨he, hkey⟩ := SymbolTable.knows_append.mp h
    simp only [Expr.codeIn, Expr.eval, List.append_assoc, ihe he, ihkey hkey, ofRun_bind,
      bind_assoc]
    congr 1
    funext v
    congr 1
    funext k
    exact run_pushing rfl
  | slice e start stop step ihe iha ihb ihc =>
    simp only [Expr.operands, SymbolTable.knows_append] at h
    obtain ⟨he, ha, hb, hc⟩ := h
    simp only [Expr.codeIn, Expr.eval, List.append_assoc, ihe he, run_bound iha ha,
      run_bound ihb hb, run_bound ihc hc, ofRun_bind, bind_assoc]
    congr 1; funext v
    congr 1; funext a
    congr 1; funext b
    congr 1; funext c
    exact run_pushing rfl

/-- Running the code of an expression evaluates it. -/
theorem exec_eq {e : Expr} {c : Code} (h : e.compile = .ok c) :
    exec host env c = ofRun (e.eval host env) := by
  obtain ⟨hKnows, hCode, -⟩ := e.compile_ok h
  have hRun : run host env c.symbols (e.codeIn c.symbols ++ []) [] =
      ofRun (e.eval host env) >>= fun v => run host env c.symbols [] [v] := run_codeIn hKnows
  rw [List.append_nil, ← hCode] at hRun
  simp only [exec, hRun, run_nil, bind_assoc, pure_bind, result, bind_pure]

end Machine

namespace Expression

variable {σ : Type}

theorem mapError_ofRun (r : Run σ Value) :
    Except.mapError ofFault <$> (Machine.ofRun r).run = Except.mapError .failed <$> r.run := by
  funext s
  show (Except.mapError ofFault (Machine.ofRun r s).1, (Machine.ofRun r s).2) =
    (Except.mapError .failed (r s).1, (r s).2)
  rw [Machine.ofRun_apply]
  cases (r s).1 <;> rfl

/-- Running the code of an expression and evaluating its tree are the same function of the host's
state: they give the same value or the same failure, and leave the same state, to which a host can
add whatever it is asked. So a source that has code, or no tree, has the same value or failure by
either engine. -/
theorem engines_agree (host : Host σ) (env : Environment σ) :
    (∀ (e : Expr) (c : Code), e.compile = .ok c →
      Machine.exec host env c = Machine.ofRun (e.eval host env)) ∧
    ∀ (limit : Nat) (source : String),
      (∀ tree, Expr.parse limit source = .ok tree → ∃ c, tree.compile = .ok c) →
      Prod.fst <$> (ofSource limit source).evaluate host env .machine =
        Prod.fst <$> (ofSource limit source).evaluate host env .tree := by
  refine ⟨fun e c h => Machine.exec_eq h, fun limit source hCode => ?_⟩
  cases hTree : Expr.parse limit source with
  | error fault => simp [evaluate, code, tree, ofSource, hTree]
  | ok tree =>
    obtain ⟨c, hc⟩ := hCode tree hTree
    have hRun := mapError_ofRun (tree.eval host (env.orElse Bindings.prelude.environment))
    rw [← Machine.exec_eq hc] at hRun
    simpa only [evaluate, code, Expression.tree, ofSource, hTree, hc, bind_pure_comp,
      Functor.map_map, id_map'] using hRun

/-- A host that writes down what it is asked, and fails when it is called. -/
def refusing : Host (List String) where
  call f _ := do
    modify (· ++ [f.name])
    throw (.host "refused")
  typeName _ := do
    modify (· ++ ["type"])
    return "refusal"

/-- An environment that writes down the names that are looked up, and knows the function `f`. -/
def noting : Environment (List String) := fun name => do
  modify (· ++ [name])
  return if name = "f" then some (.function (.host ⟨0, "f", some 1⟩)) else some (.int 0)

theorem engines_agree_on_refusal :
    (∃ c, (Expr.connect .or (.reference "x") (.call (.reference "f") [.literal (.int 1)])).compile =
        .ok c ∧
      Machine.exec refusing noting c = Machine.ofRun
        ((Expr.connect .or (.reference "x") (.call (.reference "f") [.literal (.int 1)])).eval
          refusing noting)) ∧
    Prod.fst <$> (ofSource 8 "x || f(1)").evaluate refusing noting .machine =
      Prod.fst <$> (ofSource 8 "x || f(1)").evaluate refusing noting .tree := by
  have hTree : Expr.parse 8 "x || f(1)" =
      .ok (.connect .or (.reference "x") (.call (.reference "f") [.literal (.int 1)])) := by
    decide +kernel
  refine ⟨⟨_, rfl, (engines_agree refusing noting).1 _ _ rfl⟩, ?_⟩
  refine (engines_agree refusing noting).2 8 "x || f(1)" fun tree h => ?_
  rw [hTree] at h
  cases h
  exact ⟨_, rfl⟩

end Expression

end Formula
