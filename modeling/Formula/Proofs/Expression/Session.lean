import Mathlib.Control.Monad.Basic
import Formula.Expression

/-! Sessions with one expression: it is asked for its tree, its code and its values, in any order
and under any bindings. What it keeps is made of its source and nothing else, so that it answers
each request as if it had just been made. -/

namespace Formula.Expression

/-- What an expression can be asked for. -/
inductive Request (σ : Type) where
  | tree
  | code
  | value (env : Environment σ) (engine : Engine)

inductive Answer where
  | tree (result : Except Error Expr)
  | code (result : Except Error Code)
  | value (result : Except Error Value)

def Answer.error? : Answer → Option Error
  | tree (.error e) | code (.error e) | value (.error e) => some e
  | _ => none

variable {σ : Type}

/-- The answer to a request, and the expression with what it keeps from now on. -/
def ask (host : Host σ) (e : Expression) : Request σ → StateM σ (Answer × Expression)
  | .tree => return (.tree e.tree.1, e.tree.2)
  | .code => return (.code e.code.1, e.code.2)
  | .value env engine => do
    let (result, e) ← e.evaluate host env engine
    return (.value result, e)

/-- The answers to requests that are made one after the other, and the expression after them. -/
def askAll (host : Host σ) (e : Expression) : List (Request σ) → StateM σ (List Answer × Expression)
  | [] => return ([], e)
  | r :: rs => do
    let (answer, e) ← e.ask host r
    let (answers, e) ← e.askAll host rs
    return (answer :: answers, e)

/-- An expression is that of `source`, and keeps the tree of the source, if any, and the code of
the tree that it keeps, if any. -/
structure Keeps (limit : Nat) (source : String) (e : Expression) : Prop where
  source_eq : e.source = source
  limit_eq : e.limit = limit
  tree : ∀ tree, e.tree? = some tree → Expr.parse limit source = .ok tree
  code : ∀ code, e.code? = some code → ∃ tree, e.tree? = some tree ∧ tree.compile = .ok code

def readTree (limit : Nat) (source : String) : Except Error Expr :=
  (Expr.parse limit source).mapError .unreadable

def readCode (limit : Nat) (source : String) : Except Error Code :=
  match readTree limit source with
  | .error fault => .error fault
  | .ok tree => tree.compile.mapError .uncompiled

def after (e : Expression) : Request σ → Expression
  | .tree | .value _ .tree => e.tree.2
  | .code | .value _ .machine => e.code.2

variable {limit : Nat} {source : String} {e : Expression} {host : Host σ}

theorem readTree_eq_ok {tree : Expr} :
    readTree limit source = .ok tree ↔ Expr.parse limit source = .ok tree := by
  unfold readTree
  cases Expr.parse limit source <;> simp [Except.mapError]

theorem tree_eq_ok {tree : Expr} {e' : Expression} (h : e.tree = (.ok tree, e')) :
    e' = { e with tree? := some tree } := by
  unfold Expression.tree at h
  split at h
  case h_1 hTree =>
    cases h
    rw [← hTree]
  case h_2 =>
    split at h <;> cases h
    rfl

theorem tree_eq_error {fault : Error} {e' : Expression} (h : e.tree = (.error fault, e')) :
    e' = e := by
  unfold Expression.tree at h
  split at h
  case h_1 => cases h
  case h_2 => split at h <;> cases h; rfl

theorem keeps_ofSource (limit : Nat) (source : String) :
    Keeps limit source (ofSource limit source) :=
  ⟨rfl, rfl, nofun, nofun⟩

namespace Keeps

/-- The tree of an expression is that of its source, read now or before. -/
theorem tree_fst (h : Keeps limit source e) : e.tree.1 = readTree limit source := by
  unfold Expression.tree
  split
  case h_1 tree hTree => rw [readTree_eq_ok.mpr (h.tree tree hTree)]
  case h_2 =>
    rw [h.limit_eq, h.source_eq, readTree]
    cases Expr.parse limit source <;> rfl

theorem tree_snd (h : Keeps limit source e) : Keeps limit source e.tree.2 := by
  have hRead := h.tree_fst
  cases hTree : e.tree with
  | mk result e' =>
    rw [hTree] at hRead
    cases result with
    | error fault => exact tree_eq_error hTree ▸ h
    | ok tree =>
      rw [tree_eq_ok hTree]
      have hParse := readTree_eq_ok.mp hRead.symm
      refine ⟨h.source_eq, h.limit_eq, ?_, fun code hCode => ?_⟩
      · rintro _ ⟨⟩
        exact hParse
      · obtain ⟨kept, hKept, hCompile⟩ := h.code code hCode
        cases hParse.symm.trans (h.tree kept hKept)
        exact ⟨tree, rfl, hCompile⟩

/-- The code of an expression is that of the tree of its source, made now or before. -/
theorem code_fst (h : Keeps limit source e) : e.code.1 = readCode limit source := by
  unfold Expression.code
  split
  case h_1 code hCode =>
    obtain ⟨tree, hTree, hCompile⟩ := h.code code hCode
    simp only [readCode, readTree_eq_ok.mpr (h.tree tree hTree), hCompile, Except.mapError]
  case h_2 =>
    rw [readCode, ← h.tree_fst]
    rcases e.tree with ⟨_ | tree, e'⟩
    · rfl
    · cases hCompile : tree.compile <;> simp [hCompile, Except.mapError]

theorem code_snd (h : Keeps limit source e) : Keeps limit source e.code.2 := by
  unfold Expression.code
  split
  case h_1 => exact h
  case h_2 =>
    have hTree := h.tree_snd
    cases hRun : e.tree with
    | mk result e' =>
      rw [hRun] at hTree
      cases result with
      | error fault => exact hTree
      | ok tree =>
        cases hCompile : tree.compile with
        | error fault => simpa only [hCompile] using hTree
        | ok code =>
          simp only [hCompile]
          refine ⟨hTree.source_eq, hTree.limit_eq, hTree.tree, ?_⟩
          rintro _ ⟨⟩
          exact ⟨tree, by rw [tree_eq_ok hRun], hCompile⟩

theorem after (h : Keeps limit source e) (r : Request σ) : Keeps limit source (e.after r) :=
  match r with
  | .tree | .value _ .tree => h.tree_snd
  | .code | .value _ .machine => h.code_snd

end Keeps

/-- The value of a tree that was read. -/
def treeValue (host : Host σ) (env : Environment σ) :
    Except Error Expr → StateM σ (Except Error Value)
  | .error fault => pure (.error fault)
  | .ok tree => Except.mapError .failed <$> (tree.eval host env).run

/-- The value of code that was made. -/
def codeValue (host : Host σ) (env : Environment σ) :
    Except Error Code → StateM σ (Except Error Value)
  | .error fault => pure (.error fault)
  | .ok code => Except.mapError ofFault <$> (Machine.exec host env code).run

theorem evaluate_tree (env : Environment σ) :
    e.evaluate host env .tree =
      (·, e.tree.2) <$> treeValue host (env.orElse Bindings.prelude.environment) e.tree.1 := by
  simp only [evaluate]
  rcases e.tree with ⟨_ | tree, e'⟩ <;> simp [treeValue]

theorem evaluate_machine (env : Environment σ) :
    e.evaluate host env .machine =
      (·, e.code.2) <$> codeValue host (env.orElse Bindings.prelude.environment) e.code.1 := by
  simp only [evaluate]
  rcases e.code with ⟨_ | code, e'⟩ <;> simp [codeValue]

/-- An expression answers as if it had just been made. -/
theorem Keeps.ask_eq (h : Keeps limit source e) (r : Request σ) :
    e.ask host r = (·, e.after r) <$> (Prod.fst <$> (ofSource limit source).ask host r) := by
  have hNew := keeps_ofSource limit source
  cases r with
  | tree => simp [ask, Expression.after, h.tree_fst, hNew.tree_fst]
  | code => simp [ask, Expression.after, h.code_fst, hNew.code_fst]
  | value env engine =>
    cases engine with
    | tree => simp [ask, Expression.after, evaluate_tree, h.tree_fst, hNew.tree_fst]
    | machine => simp [ask, Expression.after, evaluate_machine, h.code_fst, hNew.code_fst]

/-- The answers of a session are those of expressions that have just been made. -/
theorem Keeps.askAll_eq (h : Keeps limit source e) (rs : List (Request σ)) :
    e.askAll host rs =
      (·, rs.foldl Expression.after e) <$>
        rs.mapM fun r => Prod.fst <$> (ofSource limit source).ask host r := by
  induction rs generalizing e with
  | nil => simp [askAll]
  | cons r rs ih => simp [askAll, h.ask_eq r, ih (h.after r)]

theorem Keeps.afterAll (h : Keeps limit source e) (rs : List (Request σ)) :
    Keeps limit source (rs.foldl Expression.after e) := by
  induction rs generalizing e with
  | nil => exact h
  | cons r rs ih => exact ih (h.after r)

theorem treeValue_run (host : Host σ) (env : Environment σ) (tree : Expr) (s : σ) :
    ((treeValue host env (.ok tree)).run s).1 =
      (((tree.eval host env).run).run s).1.mapError .failed := rfl

theorem codeValue_run (host : Host σ) (env : Environment σ) (code : Code) (s : σ) :
    ((codeValue host env (.ok code)).run s).1 =
      (((Machine.exec host env code).run).run s).1.mapError ofFault := rfl

theorem ask_value_run (env : Environment σ) (engine : Engine) (s : σ) :
    ((e.ask host (.value env engine)).run s).1.1 =
      .value ((e.evaluate host env engine).run s).1.1 := rfl

/-- Where a source has a tree, no answer reports a fault of the source. -/
theorem error?_ne_unreadable {tree : Expr} (h : Expr.parse limit source = .ok tree)
    (r : Request σ) (s : σ) (fault : SyntaxError) :
    (((ofSource limit source).ask host r).run s).1.1.error? ≠ some (.unreadable fault) := by
  have hNew := keeps_ofSource limit source
  have hTree : (ofSource limit source).tree.1 = .ok tree :=
    hNew.tree_fst.trans (readTree_eq_ok.mpr h)
  have hCode : (ofSource limit source).code.1 = tree.compile.mapError .uncompiled := by
    rw [hNew.code_fst, readCode, readTree_eq_ok.mpr h]
  cases r with
  | tree =>
    show (Answer.tree (ofSource limit source).tree.1).error? ≠ _
    rw [hTree]
    simp [Answer.error?]
  | code =>
    show (Answer.code (ofSource limit source).code.1).error? ≠ _
    rw [hCode]
    cases tree.compile <;> simp [Except.mapError, Answer.error?]
  | value env engine =>
    rw [ask_value_run]
    cases engine with
    | tree =>
      rw [evaluate_tree, hTree]
      show (Answer.value ((treeValue host _ (.ok tree)).run s).1).error? ≠ _
      rw [treeValue_run]
      cases ((tree.eval host (env.orElse Bindings.prelude.environment)).run.run s).1 <;>
        simp [Except.mapError, Answer.error?]
    | machine =>
      rw [evaluate_machine, hCode]
      cases tree.compile with
      | error fault => nofun
      | ok code =>
        show (Answer.value ((codeValue host _ (.ok code)).run s).1).error? ≠ _
        rw [codeValue_run]
        cases ((Machine.exec host (env.orElse Bindings.prelude.environment) code).run.run s).1 with
        | error fault => cases fault <;> simp [Except.mapError, ofFault, Answer.error?]
        | ok v => simp [Except.mapError, Answer.error?]

theorem mem_answers {rs : List (Request σ)} {s : σ} {a : Answer}
    (h : a ∈ ((rs.mapM fun r => Prod.fst <$> (ofSource limit source).ask host r).run s).1) :
    ∃ r ∈ rs, ∃ s', a = (((ofSource limit source).ask host r).run s').1.1 := by
  induction rs generalizing s with
  | nil => cases h
  | cons r rs ih =>
    rw [List.mapM_cons] at h
    rcases List.mem_cons.mp h with rfl | h
    · exact ⟨r, List.mem_cons_self, s, rfl⟩
    · obtain ⟨r', hMem, hAnswer⟩ := ih h
      exact ⟨r', List.mem_cons_of_mem r hMem, hAnswer⟩

/-- An expression that is evaluated by its tree makes no code. -/
theorem code?_evaluate_tree (env : Environment σ) (s : σ) :
    ((e.evaluate host env .tree).run s).1.2.code? = e.code? := by
  rw [evaluate_tree]
  show e.tree.2.code? = e.code?
  cases hTree : e.tree with
  | mk result e' =>
    cases result with
    | error fault => rw [tree_eq_error hTree]
    | ok tree => rw [tree_eq_ok hTree]

/-- In a session each request is answered as by an expression that has just been made. At every
point, the expression keeps the tree of its source and the code of this tree, or less; values that
are found by the tree add no code; and once a fault of the source is reported, nothing is kept. -/
theorem answers_as_fresh (host : Host σ) (limit : Nat) (source : String) :
    (∀ rs, Prod.fst <$> (ofSource limit source).askAll host rs =
      rs.mapM fun r => Prod.fst <$> (ofSource limit source).ask host r) ∧
    ∀ (rs : List (Request σ)) (s s' : σ) (answers : List Answer) (e : Expression),
      ((ofSource limit source).askAll host rs).run s = ((answers, e), s') →
      Keeps limit source e ∧
      (∀ env s, ((e.evaluate host env .tree).run s).1.2.code? = e.code?) ∧
      ∀ a ∈ answers, ∀ fault, a.error? = some (.unreadable fault) →
        e.tree? = none ∧ e.code? = none := by
  have hNew := keeps_ofSource limit source
  refine ⟨fun rs => by simp [hNew.askAll_eq rs], ?_⟩
  intro rs s s' answers e hRun
  rw [hNew.askAll_eq rs] at hRun
  cases hRun
  have hKeeps := hNew.afterAll rs
  refine ⟨hKeeps, fun env s => code?_evaluate_tree env s, fun a hMem fault hFault => ?_⟩
  obtain ⟨r, -, s', rfl⟩ := mem_answers hMem
  have hNone : (rs.foldl Expression.after (ofSource limit source)).tree? = none :=
    Option.eq_none_iff_forall_ne_some.mpr fun tree hTree =>
      error?_ne_unreadable (hKeeps.tree tree hTree) r s' fault hFault
  refine ⟨hNone, Option.eq_none_iff_forall_ne_some.mpr fun code hCode => ?_⟩
  obtain ⟨tree, hTree, -⟩ := hKeeps.code code hCode
  rw [hNone] at hTree
  cases hTree

theorem answers_as_fresh_unreadable :
    ∃ fault e, ((ofSource 8 "$").askAll Host.none
        [.code, .value (fun _ => pure none) .tree, .tree]).run () =
        (([.code (.error (.unreadable fault)), .value (.error (.unreadable fault)),
          .tree (.error (.unreadable fault))], e), ()) ∧
      Keeps 8 "$" e ∧ e.tree? = none ∧ e.code? = none := by
  have hParse : Expr.parse 8 "$" = .error ((Lexer.Fault.unknown [0]).toSyntaxError "$") := by
    decide +kernel
  generalize (Lexer.Fault.unknown [0]).toSyntaxError "$" = fault at hParse
  have hRun : ((ofSource 8 "$").askAll Host.none
      [.code, .value (fun _ => pure none) .tree, .tree]).run () =
      (([.code (.error (.unreadable fault)), .value (.error (.unreadable fault)),
        .tree (.error (.unreadable fault))], ofSource 8 "$"), ()) := by
    simp only [askAll, ask, evaluate, code, tree, ofSource, hParse, pure_bind]
    rfl
  obtain ⟨hKeeps, -, hEmpty⟩ := (answers_as_fresh Host.none 8 "$").2 _ _ _ _ _ hRun
  exact ⟨fault, _, hRun, hKeeps, hEmpty _ List.mem_cons_self fault rfl⟩

end Formula.Expression
