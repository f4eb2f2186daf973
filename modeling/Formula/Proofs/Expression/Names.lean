import Mathlib.Control.Monad.Basic
import Formula.Proofs.Bindings.Lookup
import Formula.Proofs.Code.Agreement
import Formula.Proofs.Expr.Height
import Formula.Proofs.Expression.Session

/-! An expression is evaluated under bindings of all sorts of names, but only those that it mentions
matter. Two environments that agree on these cannot be told apart by any value, failure, or call of
the host, whichever engine is used. -/

namespace Formula

variable {σ : Type}

namespace Expr

/-- A name stands somewhere in an expression, as an expression by itself. -/
inductive Mentions (name : String) : Expr → Prop
  | here : Mentions name (.reference name)
  | inside {e child : Expr} (h : child ∈ e.children) (rest : Mentions name child) :
      Mentions name e

/-- Two environments know the same of every name that an expression mentions. -/
def AgreeOn (e : Expr) (env env' : Environment σ) : Prop :=
  ∀ name, e.Mentions name → env name = env' name

variable {e child : Expr} {env env' : Environment σ} {host : Host σ}

theorem mentions_iff {name : String} :
    e.Mentions name ↔ e = .reference name ∨ ∃ child ∈ e.children, child.Mentions name := by
  constructor
  · rintro (_ | ⟨hChild, hRest⟩)
    · exact .inl rfl
    · exact .inr ⟨_, hChild, hRest⟩
  · rintro (rfl | ⟨child, hChild, hRest⟩)
    · exact .here
    · exact .inside hChild hRest

theorem AgreeOn.of_mem (h : e.AgreeOn env env') (hChild : child ∈ e.children) :
    child.AgreeOn env env' :=
  fun name hName => h name (.inside hChild hName)

theorem evalArgs_congr {args : List Expr}
    (h : ∀ arg ∈ args, arg.eval host env = arg.eval host env') :
    evalArgs host env args = evalArgs host env' args := by
  induction args with
  | nil => rfl
  | cons arg args ih =>
    obtain ⟨hFirst, hRest⟩ := List.forall_mem_cons.mp h
    simp only [evalArgs, hFirst, ih hRest]

theorem evalBound_congr {bound? : Option Expr}
    (h : ∀ bound ∈ bound?, bound.eval host env = bound.eval host env') :
    evalBound host env bound? = evalBound host env' bound? := by
  cases bound? with
  | none => rfl
  | some bound => exact h bound rfl

/-- The value of an expression depends on the names that it mentions. -/
theorem AgreeOn.eval_eq (h : e.AgreeOn env env') : e.eval host env = e.eval host env' := by
  induction e with
  | literal l => rfl
  | reference name =>
    have hName := h name .here
    simp only [eval, Environment.lookup, hName]
  | unary op e ih | access e attr ih => simp only [eval, ih (h.of_mem (by simp [children]))]
  | binary op l r ihl ihr | compare op l r ihl ihr | connect op l r ihl ihr =>
    simp only [eval, ihl (h.of_mem (by simp [children])), ihr (h.of_mem (by simp [children]))]
  | ternary c y n ihc ihy ihn =>
    simp only [eval, ihc (h.of_mem (by simp [children])), ihy (h.of_mem (by simp [children])),
      ihn (h.of_mem (by simp [children]))]
  | call f args ihf ihargs =>
    have hArgs := evalArgs_congr fun arg hArg =>
      ihargs arg hArg (h.of_mem (List.mem_cons_of_mem f hArg))
    simp only [eval, ihf (h.of_mem (by simp [children])), hArgs]
  | item e key ihe ihkey =>
    simp only [eval, ihe (h.of_mem (by simp [children])), ihkey (h.of_mem (by simp [children]))]
  | slice e start stop step ihe iha ihb ihc =>
    have hStart := evalBound_congr fun bound hBound =>
      iha bound hBound (h.of_mem (by simp_all [children]))
    have hStop := evalBound_congr fun bound hBound =>
      ihb bound hBound (h.of_mem (by simp_all [children]))
    have hStep := evalBound_congr fun bound hBound =>
      ihc bound hBound (h.of_mem (by simp_all [children]))
    simp only [eval, ihe (h.of_mem (by simp [children])), hStart, hStop, hStep]

theorem AgreeOn.orElse (h : e.AgreeOn env env') (fallback : Environment σ) :
    e.AgreeOn (env.orElse fallback) (env'.orElse fallback) := by
  intro name hName
  rw [Environment.orElse, Environment.orElse, h name hName]

end Expr

/-! ### Lookups -/

namespace Environment

variable {env seen : Environment σ} {name : String}

/-- A name is seen as what `env` knows it as or, where `env` does not know it, as what it is in the
prelude. -/
def Hides (env seen : Environment σ) (name : String) : Prop :=
  ∀ s, (seen name).run s =
    (((env name).run s).1.or (Bindings.prelude.find? name), ((env name).run s).2)

theorem hides_orElse (env : Environment σ) (name : String) :
    env.Hides (env.orElse Bindings.prelude.environment) name := by
  intro s
  show (env name >>= _).run s = _
  rw [StateT.run_bind]
  rcases (env name).run s with ⟨_ | v, s'⟩ <;> rfl

theorem Hides.eq (h : env.Hides seen name) :
    env.orElse Bindings.prelude.environment name = seen name := by
  funext s
  exact (hides_orElse env name s).trans (h s).symm

/-- A name that is known wherever it is looked up is seen as it is. -/
theorem hides_self (h : ∀ s, ((env name).run s).1.isSome) : env.Hides env name := by
  intro s
  obtain ⟨v, hv⟩ := Option.isSome_iff_exists.mp (h s)
  exact Prod.ext (by rw [hv, Option.some_or]) rfl

theorem lookup_run (env : Environment σ) (name : String) (s : σ) :
    (env.lookup name).run.run s =
      (((env name).run s).1.elim (.error (.nameNotFound name)) .ok, ((env name).run s).2) := by
  have hRun : ((liftM (env name) : Run σ (Option Value)).run).run s =
      (.ok ((env name).run s).1, ((env name).run s).2) := by
    rw [ExceptT.run_liftM, StateT.run_map]
    rfl
  rw [lookup, ExceptT.run_bind, StateT.run_bind, hRun]
  rcases (env name).run s with ⟨_ | v, s'⟩ <;> rfl

end Environment

namespace Bindings

theorem lookup_filter (pairs : List (String × Value)) (name : String) :
    (pairs.filter (·.1 == name)).lookup name = pairs.lookup name := by
  induction pairs with
  | nil => rfl
  | cons pair pairs ih =>
    obtain ⟨n, v⟩ := pair
    by_cases hn : n = name
    · simp [hn]
    · simp [lookup_cons, hn, ih, Ne.symm hn]

/-- What a name is bound to depends on the pairs with that name. -/
theorem environment_ofList_congr {pairs pairs' : List (String × Value)} {name : String}
    (h : pairs.filter (·.1 == name) = pairs'.filter (·.1 == name)) :
    (ofList pairs).environment (σ := σ) name = (ofList pairs').environment name := by
  rw [environment, environment, find?_ofList, find?_ofList, ← lookup_filter pairs.reverse,
    ← lookup_filter pairs'.reverse, List.filter_reverse, List.filter_reverse, h]

end Bindings

namespace Expression

variable {limit : Nat} {source : String} {e : Expression} {env env' : Environment σ}

/-- Environments that agree on what a source mentions give it the same value by either engine. -/
theorem Keeps.evaluate_congr (h : Keeps limit source e) (host : Host σ) (engine : Engine)
    (hAgree : ∀ tree, Expr.parse limit source = .ok tree → tree.AgreeOn env env') :
    e.evaluate host env engine = e.evaluate host env' engine := by
  have hEval : ∀ tree, readTree limit source = .ok tree →
      tree.eval host (env.orElse Bindings.prelude.environment) =
        tree.eval host (env'.orElse Bindings.prelude.environment) :=
    fun tree hTree => ((hAgree tree (readTree_eq_ok.mp hTree)).orElse _).eval_eq
  cases engine with
  | tree =>
    rw [evaluate_tree, evaluate_tree, h.tree_fst]
    cases hTree : readTree limit source with
    | error fault => rfl
    | ok tree => rw [treeValue, treeValue, hEval tree hTree]
  | machine =>
    rw [evaluate_machine, evaluate_machine, h.code_fst]
    cases hTree : readTree limit source with
    | error fault => rw [readCode, hTree]; rfl
    | ok tree =>
      simp only [readCode, hTree]
      cases hCompile : tree.compile with
      | error fault => rfl
      | ok code =>
        -- the code does what the tree does
        simp only [Except.mapError, codeValue, Machine.exec_eq hCompile, hEval tree hTree]

/-- An expression has the value of the tree of its source, by the machine if the tree has code. -/
theorem Keeps.fst_evaluate (h : Keeps limit source e) (host : Host σ) (env : Environment σ)
    (engine : Engine)
    (hCode : engine = .machine →
      ∀ tree, Expr.parse limit source = .ok tree → ∃ code, tree.compile = .ok code) :
    Prod.fst <$> e.evaluate host env engine =
      treeValue host (env.orElse Bindings.prelude.environment) (readTree limit source) := by
  cases engine with
  | tree => rw [evaluate_tree, h.tree_fst, Functor.map_map, id_map']
  | machine =>
    rw [evaluate_machine, h.code_fst, Functor.map_map, id_map', readCode]
    cases hRead : readTree limit source with
    | error fault => rfl
    | ok tree =>
      obtain ⟨code, hCompile⟩ := hCode rfl tree (readTree_eq_ok.mp hRead)
      simp only [hCompile, Except.mapError, codeValue, treeValue, Machine.exec_eq hCompile,
        mapError_ofRun]

/-- The value of a source with a tree is that of the tree where its names are seen. -/
theorem Keeps.evaluate_eq (h : Keeps limit source e) (host : Host σ) {engine : Engine} {tree : Expr}
    (hTree : Expr.parse limit source = .ok tree)
    (hCode : engine = .machine → ∃ code, tree.compile = .ok code) {seen : Environment σ}
    (hSeen : ∀ name, tree.Mentions name → env.Hides seen name) :
    Prod.fst <$> e.evaluate host env engine =
      Except.mapError .failed <$> (tree.eval host seen).run := by
  have hCodes : engine = .machine →
      ∀ tree, Expr.parse limit source = .ok tree → ∃ code, tree.compile = .ok code := by
    intro hMachine tree' hTree'
    cases hTree.symm.trans hTree'
    exact hCode hMachine
  have hEval : tree.eval host (env.orElse Bindings.prelude.environment) = tree.eval host seen :=
    Expr.AgreeOn.eval_eq fun name hName => (hSeen name hName).eq
  rw [h.fst_evaluate host env engine hCodes, readTree_eq_ok.mpr hTree, treeValue, hEval]

/-- A name by itself has code. -/
theorem compile_reference (name : String) : ∃ code, (Expr.reference name).compile = .ok code :=
  ⟨_, rfl⟩

/-- The value of a source that is a name. -/
theorem Keeps.evaluate_reference (h : Keeps limit source e) (host : Host σ) (engine : Engine)
    (env : Environment σ) {name : String} (hTree : Expr.parse limit source = .ok (.reference name))
    (s : σ) :
    (Prod.fst <$> e.evaluate host env engine).run s =
      ((((env name).run s).1.or (Bindings.prelude.find? name)).elim
        (.error (.failed (.nameNotFound name))) .ok, ((env name).run s).2) := by
  rw [h.evaluate_eq host hTree (fun _ => compile_reference name)
    fun name _ => Environment.hides_orElse env name, StateT.run_map]
  show (fun p => (Except.mapError Error.failed p.1, p.2)) <$>
    ((env.orElse Bindings.prelude.environment).lookup name).run.run s = _
  rw [Environment.lookup_run, Environment.hides_orElse env name s]
  cases ((env name).run s).1.or (Bindings.prelude.find? name) <;> rfl

/-- An expression is evaluated alike, with the same calls of the host, in any two environments that
agree on the names that it mentions, whatever they are made of. Of pairs that are collected to
bindings, those with other names do not matter. A name that is bound hides the prelude: a source is
worth what its tree is worth where each name is what the environment knows it as and, if that knows
nothing, what the prelude does. So the prelude does not matter where the environment knows all names
that are mentioned, and a source that is a name is worth what that name is bound to. -/
theorem evaluate_of_mentioned (h : Keeps limit source e) (host : Host σ) (engine : Engine) :
    (∀ env env' : Environment σ,
      (∀ tree, Expr.parse limit source = .ok tree → tree.AgreeOn env env') →
      e.evaluate host env engine = e.evaluate host env' engine) ∧
    (∀ pairs pairs' : List (String × Value),
      (∀ tree, Expr.parse limit source = .ok tree → ∀ name, tree.Mentions name →
        pairs.filter (·.1 == name) = pairs'.filter (·.1 == name)) →
      e.evaluate host (Bindings.ofList pairs).environment engine =
        e.evaluate host (Bindings.ofList pairs').environment engine) ∧
    (∀ tree, Expr.parse limit source = .ok tree →
      (engine = .machine → ∃ code, tree.compile = .ok code) →
      (∀ env seen : Environment σ, (∀ name, tree.Mentions name → env.Hides seen name) →
        Prod.fst <$> e.evaluate host env engine =
          Except.mapError .failed <$> (tree.eval host seen).run) ∧
      ∀ env : Environment σ, (∀ name, tree.Mentions name → ∀ s, ((env name).run s).1.isSome) →
        Prod.fst <$> e.evaluate host env engine =
          Except.mapError .failed <$> (tree.eval host env).run) ∧
    ∀ name, Expr.parse limit source = .ok (.reference name) → ∀ (env : Environment σ) (s : σ),
      (Prod.fst <$> e.evaluate host env engine).run s =
        ((((env name).run s).1.or (Bindings.prelude.find? name)).elim
          (.error (.failed (.nameNotFound name))) .ok, ((env name).run s).2) := by
  refine ⟨fun _ _ => h.evaluate_congr host engine, fun pairs pairs' hPairs => ?_,
    fun tree hTree hCode => ⟨fun env seen hSeen => ?_, fun env hBound => ?_⟩,
    fun name hTree env s => ?_⟩
  · refine h.evaluate_congr host engine fun tree hTree name hName => ?_
    exact Bindings.environment_ofList_congr (hPairs tree hTree name hName)
  · exact h.evaluate_eq host hTree hCode hSeen
  · exact h.evaluate_eq host hTree hCode fun name hName =>
      Environment.hides_self (hBound name hName)
  · exact h.evaluate_reference host engine env hTree s

/-- A method that is called and a text are no names that are mentioned, and a name of the prelude is
what the caller binds it to. -/
theorem evaluate_of_mentioned_method :
    Keeps 99 "s.upper() + 'k'" (ofSource 99 "s.upper() + 'k'") ∧
      (ofSource 99 "s.upper() + 'k'").evaluate Host.none
          (Bindings.ofList [("s", .str "a")]).environment .machine =
        (ofSource 99 "s.upper() + 'k'").evaluate Host.none
          (Bindings.ofList [("upper", .int 1), ("s", .str "a"), ("k", .none)]).environment
          .machine ∧
      (Prod.fst <$> (ofSource 99 "str").evaluate Host.none
        (Bindings.ofList [("str", .int 5)]).environment .machine).run () = (.ok (.int 5), ()) := by
  have hKeeps := keeps_ofSource 99 "s.upper() + 'k'"
  refine ⟨hKeeps, (evaluate_of_mentioned hKeeps Host.none .machine).2.1 _ _ ?_, ?_⟩
  · intro tree hTree name hName
    have hParse : Expr.parse 99 "s.upper() + 'k'" = .ok (.binary .add
        (.call (.access (.reference "s") "upper") []) (.literal (.str "k"))) := by
      decide +kernel
    cases hTree.symm.trans hParse
    have hOnly : name = "s" := by
      simpa [Expr.children, Expr.mentions_iff (e := .binary _ _ _),
        Expr.mentions_iff (e := .call _ _), Expr.mentions_iff (e := .access _ _),
        Expr.mentions_iff (e := .reference _), Expr.mentions_iff (e := .literal _),
        eq_comm] using hName
    subst hOnly
    rfl
  · have hParse : Expr.parse 99 "str" = .ok (.reference "str") := by decide +kernel
    have hBound : (Bindings.ofList [("str", .int 5)]).find? "str" = some (.int 5) := by
      simp [Bindings.find?_ofList]
    obtain ⟨-, -, -, hName⟩ := evaluate_of_mentioned (keeps_ofSource 99 "str") Host.none .machine
    rw [hName "str" hParse]
    have hAnswer : ((Bindings.ofList [("str", .int 5)]).environment "str").run () =
        (some (.int 5), ()) := Prod.ext hBound rfl
    rw [hAnswer, Option.some_or, Option.elim_some]

end Expression

end Formula
