import Formula.Proofs.Expr.Induction

/-! How high expressions are: paths from a tree down to a leaf, and bounds on their lengths. -/

namespace Formula.Expr

/-- The trees directly below the root. -/
def children : Expr → List Expr
  | literal _ | reference _ => []
  | unary _ e | access e _ => [e]
  | binary _ l r | compare _ l r | connect _ l r => [l, r]
  | ternary c y n => [c, y, n]
  | call f args => f :: args
  | item e key => [e, key]
  | slice e start stop step => e :: (start.toList ++ stop.toList ++ step.toList)

/-- Induction from the trees directly below a tree to the tree. -/
theorem induct_children {P : Expr → Prop} (step : ∀ e, (∀ child ∈ e.children, P child) → P e)
    (e : Expr) : P e := by
  induction e with
  | literal | reference => exact step _ nofun
  | unary _ _ ih | access _ _ ih => exact step _ (by simpa [children] using ih)
  | binary _ _ _ ihl ihr | compare _ _ _ ihl ihr | connect _ _ _ ihl ihr | item _ _ ihl ihr =>
    exact step _ (by simp [children, ihl, ihr])
  | ternary _ _ _ ihc ihy ihn => exact step _ (by simp [children, ihc, ihy, ihn])
  | call _ _ ihf ihargs => exact step _ (List.forall_mem_cons.mpr ⟨ihf, ihargs⟩)
  | slice _ _ _ _ ihe iha ihb ihc =>
    refine step _ (List.forall_mem_cons.mpr ⟨ihe, ?_⟩)
    simp only [List.forall_mem_append, Option.mem_toList]
    exact ⟨⟨iha, ihb⟩, ihc⟩

/-- A path from the root of a tree to one of its leaves has `n` nodes. -/
inductive Path : Expr → Nat → Prop
  | leaf {e : Expr} (h : e.children = []) : Path e 1
  | step {e child : Expr} {n : Nat} (h : child ∈ e.children) (rest : Path child n) :
      Path e (n + 1)

/-- No path from the root of a tree to a leaf has more than `n` nodes. -/
def Within (n : Nat) (e : Expr) : Prop := ∀ k, e.Path k → k ≤ n

variable {e : Expr} {n m : Nat}

theorem exists_path (e : Expr) : ∃ n, e.Path (n + 1) := by
  induction e with
  | literal | reference => exact ⟨0, .leaf rfl⟩
  | binary _ _ _ ih | compare _ _ _ ih | connect _ _ _ ih | ternary _ _ _ ih | call _ _ ih
  | item _ _ ih | slice _ _ _ _ ih | unary _ _ ih | access _ _ ih =>
    obtain ⟨n, hPath⟩ := ih
    exact ⟨n + 1, .step (by simp [children]) hPath⟩

theorem Within.mono (h : Within n e) (hLe : n ≤ m) : Within m e :=
  fun k hPath => Nat.le_trans (h k hPath) hLe

/-- A tree is higher by one than the highest of those below its root. -/
theorem within_succ (h : ∀ child ∈ e.children, Within n child) : Within (n + 1) e := by
  intro k hPath
  cases hPath with
  | leaf => exact Nat.le_add_left 1 n
  | step hChild hRest => exact Nat.succ_le_succ (h _ hChild _ hRest)

theorem within_one (h : e.children = []) : Within 1 e :=
  within_succ (by simp [h])

theorem not_within_zero : ¬Within 0 e := by
  obtain ⟨n, hPath⟩ := e.exists_path
  intro h
  exact absurd (h _ hPath) (Nat.not_succ_le_zero n)

end Formula.Expr
