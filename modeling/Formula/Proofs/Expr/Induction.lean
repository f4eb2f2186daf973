import Formula.Expr

/-! Induction over expressions, with one hypothesis for each argument of a call and for each bound
of a slice that is there. -/

namespace Formula.Expr

variable {P : Expr → Prop}

@[elab_as_elim, induction_eliminator]
theorem induct
    (literal : ∀ l, P (literal l))
    (reference : ∀ name, P (reference name))
    (unary : ∀ op e, P e → P (unary op e))
    (binary : ∀ op l r, P l → P r → P (binary op l r))
    (compare : ∀ op l r, P l → P r → P (compare op l r))
    (connect : ∀ op l r, P l → P r → P (connect op l r))
    (ternary : ∀ c y n, P c → P y → P n → P (ternary c y n))
    (access : ∀ e attr, P e → P (access e attr))
    (call : ∀ f args, P f → (∀ arg ∈ args, P arg) → P (call f args))
    (item : ∀ e key, P e → P key → P (item e key))
    (slice : ∀ e start stop step, P e → (∀ bound ∈ start, P bound) → (∀ bound ∈ stop, P bound) →
      (∀ bound ∈ step, P bound) → P (slice e start stop step))
    (e : Expr) : P e :=
  @Expr.rec P (fun args => ∀ arg ∈ args, P arg) (fun bound? => ∀ bound ∈ bound?, P bound)
    literal reference unary binary compare connect ternary access call item slice
    (by simp) (fun _ _ first others => List.forall_mem_cons.mpr ⟨first, others⟩) (by simp)
    (fun _ inner _ here => Option.some_inj.mp here ▸ inner) e

end Formula.Expr
