import Mathlib.Data.List.Forall2
import Formula.Code.Machine
import Formula.Proofs.Code.WellFormed

/-! The machine stops at no defect of code that is well formed. It follows a path through the code:
its stack has what is known on the path. -/

namespace Formula

namespace Machine

variable {σ α β : Type}

/-- A run that stops at no defect, and has a result with `Q` unless the expression fails. -/
def Safe (m : Exec σ α) (Q : α → Prop) : Prop :=
  ∀ s, (∀ d, (m.run s).1 ≠ .error (.defect d)) ∧ ∀ a, (m.run s).1 = .ok a → Q a

namespace Safe

variable {m : Exec σ α} {f : α → Exec σ β} {P Q : α → Prop} {R : β → Prop}

theorem pure {a : α} (h : Q a) : Safe (pure a : Exec σ α) Q := by
  refine fun s => ⟨nofun, ?_⟩
  rintro _ ⟨⟩
  exact h

theorem bind (h : Safe m Q) (hf : ∀ a, Q a → Safe (f a) R) : Safe (m >>= f) R := by
  intro s
  have hRun : (m >>= f).run s = ExceptT.bindCont f (m.run s).1 (m.run s).2 := rfl
  obtain ⟨hDefect, hResult⟩ := h s
  rw [hRun]
  cases hm : (m.run s).1 with
  | error fault =>
    refine ⟨?_, nofun⟩
    rintro d ⟨⟩
    exact hDefect d hm
  | ok a => exact hf a (hResult a hm) (m.run s).2

/-- An evaluation may fail, but it finds no defect. -/
theorem ofRun (r : Run σ α) : Safe (ofRun r) fun _ => True := by
  refine fun s => ⟨fun d => ?_, fun _ _ => trivial⟩
  show (Except.mapError Fault.runtime (r.run s).1) ≠ .error (.defect d)
  cases (r.run s).1 <;> simp [Except.mapError]

theorem lift (m : StateM σ α) : Safe (liftM m : Exec σ α) fun _ => True :=
  fun _ => ⟨nofun, fun _ _ => trivial⟩

end Safe

/-- A stack has the values that are known before the run. -/
def Matches (stack : List Value) (known : List (Option Value)) : Prop :=
  List.Forall₂ (fun v known? => ∀ w ∈ known?, v = w) stack known

namespace Matches

variable {stack : List Value} {known : List (Option Value)}

theorem push (h : Matches stack known) (v : Value) : Matches (v :: stack) (none :: known) :=
  .cons (by simp) h

theorem drop (h : Matches stack known) (n : Nat) : Matches (stack.drop n) (known.drop n) :=
  List.forall₂_drop n h

theorem tail (h : Matches stack known) : Matches stack.tail known.tail := by
  simpa only [List.drop_one] using h.drop 1

theorem length_eq (h : Matches stack known) : stack.length = known.length :=
  List.Forall₂.length_eq h

theorem head_eq {v w : Value} (h : Matches (v :: stack) known)
    (hHead : known.head? = some (some w)) : v = w := by
  cases h with
  | cons hv _ => exact hv w (Option.some_inj.mp hHead)

end Matches

variable {host : Host σ} {env : Environment σ} {t : SymbolTable}

/-- An instruction that leads to an outcome with a stack that matches it, or fails. -/
def Follows (t : SymbolTable) (i : Instruction) (known : List (Option Value))
    (m : Exec σ (List Value × Nat)) : Prop :=
  Safe m fun next => ∃ known', (next.2, known') ∈ i.outcomes t known ∧ Matches next.1 known'

/-- An operation takes what it needs and pushes a result. -/
theorem follows_pushing {i : Instruction} {stack : List Value} {known : List (Option Value)}
    (h : Matches stack known)
    (hOutcomes : i.outcomes t known = [(0, none :: known.drop i.needs)]) (r : Run σ Value) :
    Follows t i known (pushing (stack.drop i.needs) r) := by
  refine (Safe.ofRun r).bind fun v _ => Safe.pure ⟨_, ?_, (h.drop i.needs).push v⟩
  rw [hOutcomes]
  exact List.mem_singleton_self _

/-- A conditional jump has two outcomes. -/
theorem safe_skipIf {on : Bool} {offset : Nat} (v : Value) :
    Safe (skipIf host on offset v) fun skip => skip = 0 ∨ skip = offset := by
  refine (Safe.lift (v.truth host)).bind fun truth _ => Safe.pure ?_
  split
  · exact .inr rfl
  · exact .inl rfl

/-- An instruction that fits a stack follows one of its outcomes. -/
theorem follows_step {i : Instruction} {stack : List Value} {known : List (Option Value)}
    (h : Matches stack known) (hSound : i.Sound t) (hEnough : i.needs ≤ known.length)
    (hAttr : i = .getAttr → ∃ name, known.head? = some (some (.str name))) :
    Follows t i known (step host env t i stack) := by
  rw [← h.length_eq] at hEnough
  cases i with
  | loadConst id =>
    have hLiteral : t.literal? id = some t.literals[id] := List.getElem?_eq_getElem hSound
    simp only [step, hLiteral]
    exact Safe.pure ⟨_, List.mem_singleton_self _, .cons (by simp [hLiteral]) h⟩
  | loadRef id =>
    have hReference : t.reference? id = some t.references[id] := List.getElem?_eq_getElem hSound
    simp only [step, hReference]
    exact follows_pushing h rfl _
  | unary op =>
    obtain _ | ⟨v, stack⟩ := stack
    · contradiction
    · exact follows_pushing (i := .unary op) h rfl _
  | binary op =>
    obtain _ | ⟨r, _ | ⟨l, stack⟩⟩ := stack
    · contradiction
    · simp [Instruction.needs] at hEnough
    · exact follows_pushing (i := .binary op) h rfl (Run.ofExcept host (Value.binary op l r))
  | compare op =>
    obtain _ | ⟨r, _ | ⟨l, stack⟩⟩ := stack
    · contradiction
    · simp [Instruction.needs] at hEnough
    · exact follows_pushing (i := .compare op) h rfl (Run.ofExcept host (Value.compare op l r))
  | call count =>
    have hHeight : ¬stack.length < count := Nat.not_lt.mpr (Nat.le_of_succ_le hEnough)
    have hCallee : stack.drop count = stack[count] :: stack.drop (count + 1) :=
      List.drop_eq_getElem_cons hEnough
    simp only [step, hHeight, if_false, hCallee]
    exact follows_pushing (i := .call count) h rfl _
  | getItem count =>
    rcases hSound with rfl | rfl
    · obtain _ | ⟨k, _ | ⟨v, stack⟩⟩ := stack
      · contradiction
      · simp [Instruction.needs] at hEnough
      · exact follows_pushing (i := .getItem 1) h rfl _
    · obtain _ | ⟨c, _ | ⟨b, _ | ⟨a, _ | ⟨v, stack⟩⟩⟩⟩ := stack
      · contradiction
      · simp [Instruction.needs] at hEnough
      · simp [Instruction.needs] at hEnough
      · simp [Instruction.needs] at hEnough
      · exact follows_pushing (i := .getItem 3) h rfl _
  | getAttr =>
    obtain ⟨name, hName⟩ := hAttr rfl
    obtain _ | ⟨top, _ | ⟨v, stack⟩⟩ := stack
    · contradiction
    · simp [Instruction.needs] at hEnough
    · obtain rfl := h.head_eq hName
      exact follows_pushing (i := .getAttr) h rfl _
  | jump offset => exact Safe.pure ⟨_, List.mem_singleton_self _, h⟩
  | popJumpIf on offset =>
    obtain _ | ⟨v, stack⟩ := stack
    · contradiction
    · have hRun : step host env t (.popJumpIf on offset) (v :: stack) =
          skipIf host on offset v >>= fun skip => pure (stack, skip) := rfl
      rw [hRun]
      refine (safe_skipIf v).bind fun skip hSkip => Safe.pure ⟨known.tail, ?_, h.tail⟩
      rcases hSkip with rfl | rfl <;> simp [Instruction.outcomes]
  | jumpIf on offset =>
    obtain _ | ⟨v, stack⟩ := stack
    · contradiction
    · have hRun : step host env t (.jumpIf on offset) (v :: stack) =
          skipIf host on offset v >>= fun skip => pure (v :: stack, skip) := rfl
      rw [hRun]
      refine (safe_skipIf v).bind fun skip hSkip => Safe.pure ⟨known, ?_, h⟩
      rcases hSkip with rfl | rfl <;> simp [Instruction.outcomes]
  | pop =>
    obtain _ | ⟨v, stack⟩ := stack
    · contradiction
    · exact Safe.pure ⟨_, List.mem_singleton_self _, h.tail⟩

/-- Well-formed code, run from a point on a path with a stack that matches it, comes to the end of a
path or fails. -/
theorem safe_run {c : Code} (hc : c.WellFormed) {rest : List Instruction} {stack : List Value}
    {index : Nat} {known : List (Option Value)} (hRest : c.instructions.drop index = rest)
    (hReach : c.Reaches index known) (h : Matches stack known) :
    Safe (run host env c.symbols rest stack) fun stack' =>
      ∃ known', c.Reaches c.instructions.length known' ∧ Matches stack' known' := by
  induction hLength : rest.length using Nat.strongRecOn generalizing rest stack index known with
  | ind length ih =>
    cases rest with
    | nil =>
      rw [run]
      have hEnd : index = c.instructions.length :=
        Nat.le_antisymm (hc.reaches_le hReach) (List.drop_eq_nil_iff.mp hRest)
      exact Safe.pure ⟨known, hEnd ▸ hReach, h⟩
    | cons i rest =>
      rw [run]
      have hi : c.instructions[index]? = some i := by
        rw [← List.head?_drop, hRest, List.head?_cons]
      refine (follows_step h (hc.sound hi) (hc.enough index known i hReach hi) ?_).bind ?_
      · rintro rfl
        exact hc.attr index known hReach hi
      · rintro ⟨stack', skip⟩ ⟨known', outcome, h'⟩
        refine ih _ ?_ ?_ (hReach.step hi outcome) h' rfl
        · subst hLength
          simp only [List.length_drop, List.length_cons]
          omega
        · rw [← List.drop_drop, ← List.tail_drop, hRest, List.tail_cons]

/-- The machine stops at no defect of well-formed code. -/
theorem safe_exec {c : Code} (hc : c.WellFormed) : Safe (exec host env c) fun _ => True := by
  refine (safe_run hc rfl .start .nil).bind ?_
  rintro stack ⟨known, hReach, h⟩
  have hLength := h.length_eq.trans (hc.ending.2 known hReach)
  obtain ⟨v, rfl⟩ := List.length_eq_one_iff.mp hLength
  exact Safe.pure trivial

end Machine

/-- The code of an expression is well formed, so that the machine stops at no defect in it, whatever
the host does. -/
theorem Expr.compile_wellFormed {e : Expr} {c : Code} (h : e.compile = .ok c) :
    c.WellFormed ∧ ∀ {σ : Type} (host : Host σ) (env : Environment σ) (s : σ) (d : Machine.Defect),
      ((Machine.exec host env c).run s).1 ≠ .error (.defect d) := by
  obtain ⟨hKnows, hCode, hPeak⟩ := e.compile_ok h
  have hFragment := Expr.fragment (c := c) 0 hKnows
  rw [← hCode, ← hPeak, Nat.zero_add, Nat.zero_add] at hFragment
  have hc := Code.wellFormed hFragment
  exact ⟨hc, fun host env s d => (Machine.safe_exec hc s).1 d⟩

/-- The tree of `x ? x[:2] : 'a'.upper()`. -/
def Expr.sliceOrUpper : Expr :=
  .ternary (.reference "x") (.slice (.reference "x") none (some (.literal (.int 2))) none)
    (.call (.access (.literal (.str "a")) "upper") [])

theorem Expr.compile_wellFormed_slice :
    ∃ c, sliceOrUpper.compile = .ok c ∧ c.maxStack = 4 ∧ c.WellFormed ∧
      ∀ {σ : Type} (host : Host σ) (env : Environment σ) (s : σ) (d : Machine.Defect),
        ((Machine.exec host env c).run s).1 ≠ .error (.defect d) := by
  have hStack : sliceOrUpper.compile.toOption.map (·.maxStack) = some 4 := by decide +kernel
  cases hCode : sliceOrUpper.compile with
  | error fault =>
    rw [hCode] at hStack
    cases hStack
  | ok c =>
    rw [hCode] at hStack
    exact ⟨c, rfl, Option.some.inj hStack, Expr.compile_wellFormed hCode⟩

end Formula
