import Mathlib.Control.Monad.Basic
import Formula.CommandLine
import Formula.Report.OneLine
import Formula.Proofs.Bindings.Building
import Formula.Proofs.Expression.Names

/-! Runs of the program that evaluate an expression look the same whichever engines are asked for.
The value of the expression, or the error in its place, is printed once, and the engines are never
said to disagree. -/

namespace Formula

namespace Expression

/-- The tree of a source, if it has one, has code. -/
def HasCode (limit : Nat) (source : String) : Prop :=
  ∀ tree, Expr.parse limit source = .ok tree → ∃ c, tree.compile = .ok c

end Expression

namespace CommandLine

open Bindings.Argument (Rejected)

/-- Drawings without colour start with the word `Error`. -/
def Headed (draw : Report.Drawer) : Prop :=
  ∀ sketch, sketch.color = false → "Error".toList <+: draw sketch

/-! ### Outcomes -/

/-- A run that fails prints its complaint only. -/
def Outcome.Silent (o : Outcome) : Prop := o.exitCode ≠ 0 → o.stdout = []

/-- A run complains that the engines disagree. -/
def Outcome.Mismatch (o : Outcome) : Prop := "MISMATCH".toList <+: o.stderr

theorem silent_success (lines : List (List Char)) : (success lines).Silent := fun h => absurd rfl h

theorem silent_failure (text : List Char) : (failure text).Silent := fun _ => rfl

section Drawing

variable (draw : Report.Drawer) (noColor : Bool)

theorem silent_single (result : Except Error Value) : (single draw noColor result).Silent := by
  cases result with
  | ok v => exact silent_success _
  | error e => exact silent_failure _

theorem silent_ite {c : Prop} [Decidable c] {o o' : Outcome} (h : o.Silent) (h' : o'.Silent) :
    (if c then o else o').Silent := by
  split
  · exact h
  · exact h'

theorem silent_both :
    (result result' : Except Error Value) → (both draw noColor result result').Silent
  | .ok _, .ok _ => silent_ite (silent_success _) (silent_failure _)
  | .error _, .error _ => silent_ite (silent_failure _) (silent_failure _)
  | .ok _, .error _ | .error _, .ok _ => silent_failure _

theorem silent_evalSource (b : Bindings) (source : String) (runtime : Runtime) :
    (evalSource draw noColor b source runtime).Silent := by
  unfold evalSource
  split
  · exact silent_failure _
  · cases runtime with
    | evaluator | vm => exact silent_single draw noColor _
    | both => exact silent_both draw noColor _ _

theorem silent_showStage (stage : Stage) (source : String) :
    (showStage draw noColor stage source).Silent := by
  cases stage <;> simp only [showStage, showTokens, showTree, showCode] <;> split
  all_goals first | exact silent_failure _ | exact silent_success _

theorem silent_run (input : Except String String) (r : Request) : (r.run draw input).Silent := by
  unfold Request.run
  split
  · split
    · exact silent_failure _
    · split
      · exact silent_failure _
      · exact silent_evalSource draw _ _ _ _
  · split
    · exact silent_failure _
    · exact silent_showStage draw _ _ _

theorem both_self (result : Except Error Value) :
    both draw noColor result result = single draw noColor result := by
  cases result with
  | ok v => exact if_pos rfl
  | error e => exact if_pos rfl

end Drawing

/-- Text that starts like a report does not start like a complaint about the engines. -/
theorem not_mismatch_of_head {text : List Char}
    (h : text.head? = some 'E' ∨ text.head? = some 'C') : ¬(failure text).Mismatch := by
  rintro ⟨rest, hMismatch⟩
  have hHead : text.head? = some 'M' := congrArg List.head? hMismatch.symm
  rw [hHead] at h
  rcases h with h | h <;> cases h

variable {draw : Report.Drawer}

theorem head_report (h : Headed draw) (e : Error) :
    (report draw true e).head? = some 'E' ∨ (report draw true e).head? = some 'C' := by
  cases e with
  | unreadable e =>
    obtain ⟨rest, hText⟩ := h (Report.sketch ⟨!true, none, .unicode⟩ e) rfl
    exact .inl (congrArg List.head? hText.symm)
  | uncompiled e => simp [report, Report.text, Report.line]
  | failed | duplicateBindings | defective => simp [report, Report.text, Report.line]

theorem not_mismatch_single (h : Headed draw) (result : Except Error Value) :
    ¬(single draw true result).Mismatch := by
  cases result with
  | ok v =>
    intro hMismatch
    cases List.prefix_nil.mp hMismatch
  | error e => exact not_mismatch_of_head (head_report h e)

/-! ### Runs -/

/-- The value of a source under bindings that are given with their sources. -/
def valueOf (pairs : List (String × String)) (source : String) : Except Error Value := do
  let b ← Bindings.Argument.build pairs
  (evaluate b .tree (Expression.ofSource Expr.defaultLimit source)).1

theorem evaluate_fst {source : String} {e : Expression}
    (h : Expression.Keeps Expr.defaultLimit source e)
    (hCode : Expression.HasCode Expr.defaultLimit source) (b : Bindings) (engine : Engine) :
    (evaluate b engine e).1 =
      (evaluate b .tree (Expression.ofSource Expr.defaultLimit source)).1 := by
  have hNew := Expression.keeps_ofSource Expr.defaultLimit source
  have hEngine := h.fst_evaluate Host.none b.environment engine fun _ => hCode
  rw [← hNew.fst_evaluate Host.none b.environment .tree fun _ => hCode] at hEngine
  exact congrArg (fun m : StateM Unit (Except Error Value) => (m.run ()).1) hEngine

theorem evaluate_tree_eq (b : Bindings) (e : Expression) :
    evaluate b .tree e =
      ((Expression.treeValue Host.none (b.environment.orElse Bindings.prelude.environment) e.tree.1
        ()).1, e.tree.2) := by
  rw [evaluate, Expression.evaluate_tree]
  rfl

/-- A source that cannot be read has the same error by every runtime, and any other has the same
value or failure. -/
theorem evalSource_eq (draw : Report.Drawer) (noColor : Bool) {source : String}
    (hCode : Expression.HasCode Expr.defaultLimit source) (b : Bindings) (runtime : Runtime) :
    evalSource draw noColor b source runtime =
      single draw noColor (evaluate b .tree (Expression.ofSource Expr.defaultLimit source)).1 := by
  have hNew := Expression.keeps_ofSource Expr.defaultLimit source
  have hKept := hNew.tree_snd
  unfold evalSource
  split
  case h_1 fault e hTree =>
    rw [evaluate_tree_eq, hTree]
    rfl
  case h_2 tree e hTree =>
    rw [hTree] at hKept
    have hAfter : Expression.Keeps Expr.defaultLimit source (evaluate b .tree e).2 := by
      rw [evaluate_tree_eq]
      exact hKept.tree_snd
    cases runtime with
    | evaluator | vm => exact congrArg (single draw noColor) (evaluate_fst hKept hCode b _)
    | both =>
      show both draw noColor (evaluate b .tree e).1
        (evaluate b .machine (evaluate b .tree e).2).1 = _
      rw [evaluate_fst hKept hCode b, evaluate_fst hAfter hCode b, both_self]

/-! ### Sources that are one token -/

theorem hasCode_of_parse {source : String} {tree : Expr}
    (hTree : Expr.parse Expr.defaultLimit source = .ok tree)
    (hCode : ∃ c, tree.compile = .ok c) : Expression.HasCode Expr.defaultLimit source := by
  intro tree' hTree'
  rw [hTree] at hTree'
  cases hTree'
  exact hCode

theorem constant_of_literal {source : String} {l : Literal}
    (h : Expr.parse Expr.defaultLimit source = .ok (.literal l)) :
    Bindings.Argument.constant source = .ok l.value := by
  have hCode : ∃ c, (Expr.literal l).compile = .ok c := by cases l <;> exact ⟨_, rfl⟩
  have hRun := (Expression.keeps_ofSource Expr.defaultLimit source).fst_evaluate Host.none
    Bindings.empty.environment .default fun _ => hasCode_of_parse h hCode
  rw [Expression.readTree_eq_ok.mpr h] at hRun
  exact congrArg (fun m : StateM Unit (Except Error Value) => (m.run ()).1) hRun

theorem evaluate_name {source name : String} {b : Bindings} {v : Value}
    (h : Expr.parse Expr.defaultLimit source = .ok (.reference name)) (hv : b.find? name = some v)
    (engine : Engine) :
    (evaluate b engine (Expression.ofSource Expr.defaultLimit source)).1 = .ok v := by
  have hRun := (Expression.keeps_ofSource Expr.defaultLimit source).evaluate_reference Host.none
    engine b.environment h ()
  have hAnswer : (b.environment (σ := Unit) name).run () = (some v, ()) := Prod.ext hv rfl
  rw [hAnswer, Option.some_or, Option.elim_some] at hRun
  exact congrArg Prod.fst hRun

section Runs

variable {noColor : Bool} {pairs : List (String × String)} {expression source : String}
  {runtime : Runtime} {input : Except String String}

theorem run_eval (hSource : sourceOf expression input = .ok source)
    (hCode : Expression.HasCode Expr.defaultLimit source) :
    Request.run draw input ⟨.eval expression pairs runtime, noColor⟩ =
      single draw noColor (valueOf pairs source) := by
  simp only [Request.run, hSource, valueOf, bind, Except.bind]
  cases Bindings.Argument.build pairs with
  | error e => rfl
  | ok b => exact evalSource_eq draw noColor hCode b runtime

theorem run_unreadable {reason : String} (hSource : sourceOf expression input = .error reason) :
    Request.run draw input ⟨.eval expression pairs runtime, noColor⟩ = unreadable reason := by
  simp only [Request.run, hSource]

theorem not_mismatch_run (hDraw : Headed draw)
    (hCode : ∀ source, sourceOf expression input = .ok source →
      Expression.HasCode Expr.defaultLimit source) :
    ¬(Request.run draw input ⟨.eval expression pairs runtime, true⟩).Mismatch := by
  cases hSource : sourceOf expression input with
  | error reason =>
    rw [run_unreadable hSource]
    exact not_mismatch_of_head (.inl (by simp [Report.line]))
  | ok source =>
    rw [run_eval hSource (hCode source hSource)]
    exact not_mismatch_single hDraw _

/-- An expression is evaluated with the same lines and the same exit code by every runtime, whatever
draws the faults in sources: its value is printed, if there is code for it, or one error in place of
the value. Where the input is the expression and cannot be read, this is the error. Without colour,
the engines are never said to disagree. A run that fails prints nothing but its complaint. If a
binding fails or a name is bound twice, this is the complaint, whatever the expression says.
Nothing is asked of the bindings but that they are names with sources. -/
theorem runtimes_look_alike (draw : Report.Drawer) (noColor : Bool)
    (pairs : List (String × String)) (expression : String) (input : Except String String) :
    (∀ source, sourceOf expression input = .ok source →
      (Expression.HasCode Expr.defaultLimit source → ∀ runtime,
        Request.run draw input ⟨.eval expression pairs runtime, noColor⟩ =
          single draw noColor (valueOf pairs source)) ∧
      ∀ e runtime, Rejected pairs e →
        Request.run draw input ⟨.eval expression pairs runtime, noColor⟩ =
          failure (report draw noColor e)) ∧
    (∀ reason runtime, sourceOf expression input = .error reason →
      Request.run draw input ⟨.eval expression pairs runtime, noColor⟩ = unreadable reason) ∧
    (Headed draw →
      (∀ source, sourceOf expression input = .ok source →
        Expression.HasCode Expr.defaultLimit source) →
      ∀ runtime, ¬(Request.run draw input ⟨.eval expression pairs runtime, true⟩).Mismatch) ∧
    (∀ runtime, (Request.run draw input ⟨.eval expression pairs runtime, noColor⟩).Silent) ∧
    ∀ e, Bindings.Argument.build pairs = .error e ↔ Rejected pairs e := by
  refine ⟨fun source hSource => ⟨fun hCode runtime => run_eval hSource hCode,
      fun e runtime hRejected => ?_⟩,
    fun reason runtime hSource => run_unreadable hSource,
    fun hDraw hCode runtime => not_mismatch_run hDraw hCode,
    fun runtime => silent_run draw input _,
    fun e => Bindings.Argument.build_eq_error_iff⟩
  simp only [Request.run, hSource, hRejected.build_eq]

end Runs

theorem headed_oneLine : Headed Report.OneLine.draw := by
  intro sketch _
  simp [Report.OneLine.draw, Report.line]

/-- A name that is bound to two is two, whether the input can be read or not. If it is bound twice,
this is reported, although the expression makes no sense, but not if there is no expression. -/
theorem runtimes_look_alike_two :
    (sourceOf "x" (.error "closed") = .ok "x" ∧ Expression.HasCode Expr.defaultLimit "x" ∧
      Headed Report.OneLine.draw ∧ ∀ runtime,
        Request.run Report.OneLine.draw (.error "closed") ⟨.eval "x" [("x", "2")] runtime, true⟩ =
            success ["2".toList] ∧
          ¬(Request.run Report.OneLine.draw (.error "closed")
            ⟨.eval "x" [("x", "2")] runtime, true⟩).Mismatch) ∧
    (sourceOf "-" (.ok "$\n") = .ok "$" ∧
      Rejected [("x", "1"), ("x", "2")] (.duplicateBindings ["x"]) ∧ ∀ runtime,
        Request.run Report.OneLine.draw (.ok "$\n")
            ⟨.eval "-" [("x", "1"), ("x", "2")] runtime, true⟩ =
          failure "Error: duplicate binding(s): x\n".toList) ∧
    sourceOf "-" (.error "closed") = .error "<stdin>: closed" ∧ ∀ runtime,
      Request.run Report.OneLine.draw (.error "closed")
          ⟨.eval "-" [("x", "1"), ("x", "2")] runtime, true⟩ =
        failure "Error: <stdin>: closed\n".toList := by
  have hOne : Bindings.Argument.constant "1" = .ok (.int 1) :=
    constant_of_literal (l := .int 1) (by decide +kernel)
  have hTwo : Bindings.Argument.constant "2" = .ok (.int 2) :=
    constant_of_literal (l := .int 2) (by decide +kernel)
  have hTree : Expr.parse Expr.defaultLimit "x" = .ok (.reference "x") := by decide +kernel
  have hCode := hasCode_of_parse hTree (Expression.compile_reference "x")
  have hValue : valueOf [("x", "2")] "x" = .ok (.int 2) := by
    have hOnce : Bindings.Argument.Valued [("x", "2")] [("x", .int 2)] := .cons ⟨rfl, hTwo⟩ .nil
    rw [valueOf, Bindings.Argument.build_of_valued hOnce, if_pos (by decide)]
    exact evaluate_name hTree (by simp [Bindings.find?_ofList]) .tree
  have hValued : Bindings.Argument.Valued [("x", "1"), ("x", "2")] [("x", .int 1), ("x", .int 2)] :=
    .cons ⟨rfl, hOne⟩ (.cons ⟨rfl, hTwo⟩ .nil)
  have hRejected : Rejected [("x", "1"), ("x", "2")] (.duplicateBindings ["x"]) :=
    .repeating hValued (by decide)
  have hRead : sourceOf "x" (.error "closed") = .ok "x" := rfl
  have hInput : sourceOf "-" (.ok "$\n") = .ok "$" := by decide +kernel
  have hClosed : sourceOf "-" (.error "closed") = .error "<stdin>: closed" := rfl
  have hCodes : ∀ source, sourceOf "x" (.error "closed") = .ok source →
      Expression.HasCode Expr.defaultLimit source := by
    intro source hSource
    rw [hRead] at hSource
    cases hSource
    exact hCode
  obtain ⟨hRuns, -, hSame, -⟩ := runtimes_look_alike Report.OneLine.draw true [("x", "2")] "x"
    (.error "closed")
  refine ⟨⟨hRead, hCode, headed_oneLine, fun runtime => ⟨?_, hSame headed_oneLine hCodes runtime⟩⟩,
    ⟨hInput, hRejected, fun runtime => ?_⟩, hClosed, fun runtime => ?_⟩
  · rw [(hRuns "x" hRead).1 hCode runtime, hValue]
    rfl
  · exact ((runtimes_look_alike Report.OneLine.draw true _ "-" (.ok "$\n")).1 "$" hInput).2
      _ runtime hRejected
  · exact (runtimes_look_alike Report.OneLine.draw true _ "-" (.error "closed")).2.1 _ runtime
      hClosed

end CommandLine

end Formula
