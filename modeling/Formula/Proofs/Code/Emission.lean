import Formula.Proofs.Code.Fragment
import Formula.Proofs.Steps

/-! What the compiler does to its state: it adds symbols, appends the code of the expression in the
table that results, counts one value more, and counts the greatest height that this code reaches. -/

namespace Formula.Compiler

open Steps

/-- From `s` to `s'`, the compiler comes to know `operands` and appends `code`, which leaves `rise`
values more on the stack and at most `peak` while it runs. -/
structure Emits (s s' : State) (operands : List Operand) (code : SymbolTable → List Instruction)
    (rise peak : Nat) : Prop where
  grows : s.symbols.Extends s'.symbols
  knows : s'.symbols.Knows operands
  /-- The code is the same in every later table. -/
  stable : ∀ t, s'.symbols.Extends t → code t = code s'.symbols
  code_eq : s'.code = s.code ++ code s'.symbols
  height : s'.height = s.height + rise
  rise_le : rise ≤ peak
  maxHeight : s'.maxHeight = max s.maxHeight (s.height + peak)

variable {s s₁ s₂ : State} {operands others : List Operand}
  {code more : SymbolTable → List Instruction} {rise rise' peak peak' : Nat}

theorem Emits.trans (h : Emits s s₁ operands code rise peak)
    (h' : Emits s₁ s₂ others more rise' peak') :
    Emits s s₂ (operands ++ others) (fun t => code t ++ more t) (rise + rise')
      (max peak (rise + peak')) where
  grows := h.grows.trans h'.grows
  knows := SymbolTable.knows_append.mpr ⟨h.knows.mono h'.grows, h'.knows⟩
  stable t ht := by
    rw [h.stable t (h'.grows.trans ht), h.stable _ h'.grows, h'.stable t ht]
  code_eq := by rw [h'.code_eq, h.code_eq, h.stable _ h'.grows, List.append_assoc]
  height := by rw [h'.height, h.height, Nat.add_assoc]
  rise_le := by have := h'.rise_le; omega
  maxHeight := by rw [h'.maxHeight, h.maxHeight, h.height]; omega

/-- Instructions without operands. -/
theorem Emits.append (h : Emits s s₁ operands code rise peak) (is : List Instruction) :
    Emits s { s₁ with code := s₁.code ++ is } operands (fun t => code t ++ is) rise peak where
  grows := h.grows
  knows := h.knows
  stable t ht := by rw [h.stable t ht]
  code_eq := by simp only [h.code_eq, List.append_assoc]
  height := h.height
  rise_le := h.rise_le
  maxHeight := h.maxHeight

theorem Emits.drop (h : Emits s s₁ operands code rise peak) {n : Nat} (hn : n ≤ rise) :
    Emits s { s₁ with height := s₁.height - n } operands code (rise - n) peak where
  grows := h.grows
  knows := h.knows
  stable := h.stable
  code_eq := h.code_eq
  height := by simp only [h.height]; omega
  rise_le := by have := h.rise_le; omega
  maxHeight := h.maxHeight

/-- The code that was set aside, with the jumps around it. -/
theorem Emits.wrap (h : Emits s s₁ operands code rise peak)
    (h' : Emits { s₁ with code := [] } s₂ others more rise' peak')
    (around : List Instruction → List Instruction) :
    Emits s { s₂ with code := s₁.code ++ around s₂.code } (operands ++ others)
      (fun t => code t ++ around (more t)) (rise + rise') (max peak (rise + peak')) where
  grows := h.grows.trans h'.grows
  knows := SymbolTable.knows_append.mpr ⟨h.knows.mono h'.grows, h'.knows⟩
  stable t ht := by
    rw [h.stable t (h'.grows.trans ht), h.stable _ h'.grows, h'.stable t ht]
  code_eq := by
    simp only [h'.code_eq, h.code_eq, h.stable _ h'.grows, List.nil_append, List.append_assoc]
  height := by simp only [h'.height, h.height, Nat.add_assoc]
  rise_le := by have := h'.rise_le; omega
  maxHeight := by simp only [h'.maxHeight, h.maxHeight, h.height]; omega

/-- Two branches that were set aside, with the jumps around them. -/
theorem Emits.branch {operands' : List Operand} {code' : SymbolTable → List Instruction}
    {rise'' peak'' : Nat} {s₃ : State} (h : Emits s s₁ operands code rise peak)
    (hy : Emits { s₁ with code := [] } s₂ others more rise' peak')
    (hn : Emits { s₂ with code := [] } s₃ operands' code' rise'' peak'')
    (around : List Instruction → List Instruction → List Instruction) :
    Emits s { s₃ with code := s₁.code ++ around s₂.code s₃.code }
      (operands ++ (others ++ operands')) (fun t => code t ++ around (more t) (code' t))
      (rise + (rise' + rise'')) (max peak (rise + max peak' (rise' + peak''))) where
  grows := h.grows.trans (hy.grows.trans hn.grows)
  knows := by
    simp only [SymbolTable.knows_append]
    exact ⟨h.knows.mono (hy.grows.trans hn.grows), hy.knows.mono hn.grows, hn.knows⟩
  stable t ht := by
    rw [h.stable t (hy.grows.trans (hn.grows.trans ht)), h.stable _ (hy.grows.trans hn.grows),
      hy.stable t (hn.grows.trans ht), hy.stable _ hn.grows, hn.stable t ht]
  code_eq := by
    simp only [hn.code_eq, hy.code_eq, h.code_eq, h.stable _ (hy.grows.trans hn.grows),
      hy.stable _ hn.grows, List.nil_append, List.append_assoc]
  height := by simp only [hn.height, hy.height, h.height, Nat.add_assoc]
  rise_le := by have := hn.rise_le; omega
  maxHeight := by simp only [hn.maxHeight, hy.maxHeight, hy.height, h.maxHeight, h.height]; omega

theorem literal_ok {v : Value} {id : Nat} :
    literal v s = .ok (id, s₁) ↔
      ∃ symbols, s.symbols.addLiteral v = (.ok id, symbols) ∧ s₁ = { s with symbols } := by
  unfold literal
  rcases s.symbols.addLiteral v with ⟨fault | id', symbols⟩ <;> simp [and_assoc, eq_comm]

theorem reference_ok {name : String} {id : Nat} :
    reference name s = .ok (id, s₁) ↔
      ∃ symbols, s.symbols.addReference name = (.ok id, symbols) ∧ s₁ = { s with symbols } := by
  unfold reference
  rcases s.symbols.addReference name with ⟨fault | id', symbols⟩ <;> simp [and_assoc, eq_comm]

theorem emit_ok {is : List Instruction} {u : Unit} :
    emit is s = .ok (u, s₁) ↔ s₁ = { s with code := s.code ++ is } := by
  show Except.ok _ = Except.ok _ ↔ _
  simp [eq_comm]

theorem push_ok {u : Unit} :
    push s = .ok (u, s₁) ↔
      s₁ = { s with height := s.height + 1, maxHeight := max s.maxHeight (s.height + 1) } := by
  show Except.ok _ = Except.ok _ ↔ _
  simp [eq_comm]

theorem drop_ok {n : Nat} {u : Unit} :
    drop n s = .ok (u, s₁) ↔ s₁ = { s with height := s.height - n } := by
  show Except.ok _ = Except.ok _ ↔ _
  simp [eq_comm]

theorem limited_ok {n : Nat} {fault : CompileError} {u : Unit} :
    limited n fault s = .ok (u, s₁) ↔ n < numberLimit ∧ s₁ = s := by
  unfold limited
  split
  case isTrue hn =>
    rw [pure_ok]
    simp [hn, eq_comm]
  case isFalse hn => simp [throw, throwThe, MonadExceptOf.throw, StateT.lift, bind, Except.bind, hn]

/-- What code that is set aside is emitted from, and what it leaves. -/
theorem aside_ok {m : Compile Unit} {is : List Instruction} :
    aside m s = .ok (is, s₁) ↔
      ∃ s₂, m { s with code := [] } = .ok ((), s₂) ∧ is = s₂.code ∧
        s₁ = { s₂ with code := s.code } := by
  unfold aside
  cases m { s with code := [] } with
  | error fault => simp
  | ok p => simp [Prod.ext_iff, eq_comm]

/-- A load of an operand, once its number is known. -/
theorem Emits.load {o : Operand} {symbols : SymbolTable} {id : Nat}
    (grows : s.symbols.Extends symbols) (number : o.number? symbols = some id) :
    Emits s ⟨symbols, s.code ++ [o.load symbols], s.height + 1, max s.maxHeight (s.height + 1)⟩ [o]
      (fun t => [o.load t]) 1 1 where
  grows := grows
  knows := SymbolTable.knows_singleton number
  stable t ht := by rw [Operand.load_eq (SymbolTable.knows_singleton number) ht]
  code_eq := rfl
  height := rfl
  rise_le := Nat.le_refl 1
  maxHeight := rfl

theorem loadConst_emits {v : Value} (hv : v.isAtom) (h : loadConst v s = .ok ((), s₁)) :
    Emits s s₁ [.constant v] (fun t => [(Operand.constant v).load t]) 1 1 := by
  simp only [loadConst, bind_ok, literal_ok, emit_ok, push_ok] at h
  obtain ⟨id, _, ⟨symbols, hadd, rfl⟩, _, _, rfl, rfl⟩ := h
  have hAdded := SymbolTable.added_of_eq (o := .constant v) hadd
  have number := hAdded.number?_eq hv
  simpa only [Operand.load, number, Option.getD_some] using Emits.load hAdded.extends_ number

theorem loadRef_emits {name : String}
    (h : (do emit [.loadRef (← reference name)]; push : Compile Unit) s = .ok ((), s₁)) :
    Emits s s₁ [.name name] (fun t => [(Operand.name name).load t]) 1 1 := by
  simp only [bind_ok, reference_ok, emit_ok, push_ok] at h
  obtain ⟨id, _, ⟨symbols, hadd, rfl⟩, _, _, rfl, rfl⟩ := h
  have hAdded := SymbolTable.added_of_eq (o := .name name) hadd
  have number := hAdded.number?_eq rfl
  simpa only [Operand.load, number, Option.getD_some] using Emits.load hAdded.extends_ number

theorem isAtom_literal (l : Literal) : l.value.isAtom := by
  cases l <;> rfl

theorem compileArgs_emits {args : List Expr}
    (ih : ∀ arg ∈ args, ∀ {s s₁}, compileExpr arg s = .ok ((), s₁) →
      Emits s s₁ arg.operands (arg.codeIn ·) 1 arg.peak)
    (h₀ : Emits s s₁ operands code rise peak) (h : compileArgs args s₁ = .ok ((), s₂)) :
    Emits s s₂ (operands ++ Expr.argsOperands args) (fun t => code t ++ Expr.argsCodeIn t args)
      (rise + args.length) (max peak (rise + Expr.argsPeak args)) := by
  induction args generalizing s₁ operands code rise peak with
  | nil =>
    cases h
    simpa [Expr.argsOperands, Expr.argsCodeIn, Expr.argsPeak, Nat.max_eq_left h₀.rise_le] using h₀
  | cons e es ihArgs =>
    simp only [compileArgs, bind_ok] at h
    obtain ⟨_, s', he, h⟩ := h
    obtain ⟨hFirst, hOthers⟩ := List.forall_mem_cons.mp ih
    have := ihArgs hOthers (h₀.trans (hFirst he)) h
    simpa only [Expr.argsOperands, Expr.argsCodeIn, Expr.argsPeak, List.length_cons,
      List.append_assoc, Nat.add_assoc, Nat.add_comm 1 es.length, Nat.max_assoc,
      Nat.add_max_add_left] using this

theorem compileBound_emits {bound? : Option Expr}
    (ih : ∀ bound ∈ bound?, ∀ {s s₁}, compileExpr bound s = .ok ((), s₁) →
      Emits s s₁ bound.operands bound.codeIn 1 bound.peak)
    (h : compileBound bound? s = .ok ((), s₁)) :
    Emits s s₁ (Expr.boundOperands bound?) (fun t => Expr.boundCodeIn t bound?) 1
      (Expr.boundPeak bound?) := by
  cases bound? with
  | none => exact loadConst_emits rfl h
  | some e => exact ih e rfl h

/-- The compiler emits the code of an expression in the table that it ends up with. -/
theorem compileExpr_emits {e : Expr} (h : compileExpr e s = .ok ((), s₁)) :
    Emits s s₁ e.operands (e.codeIn ·) 1 e.peak := by
  induction e generalizing s s₁ with
  | literal l => exact loadConst_emits (isAtom_literal l) h
  | reference name => exact loadRef_emits h
  | unary op e ih =>
    simp only [compileExpr, bind_ok, emit_ok] at h
    obtain ⟨_, s', he, rfl⟩ := h
    exact (ih he).append [.unary op]
  | binary op l r ihl ihr | compare op l r ihl ihr =>
    simp only [compileExpr, bind_ok, emit_ok, drop_ok] at h
    obtain ⟨_, s', hl, _, s'', hr, _, _, rfl, rfl⟩ := h
    simpa only [Expr.operands, Expr.codeIn, Expr.peak, List.append_assoc] using
      (((ihl hl).trans (ihr hr)).append _).drop (Nat.le_add_left 1 1)
  | connect op l r ihl ihr =>
    simp only [compileExpr, bind_ok, emit_ok, drop_ok, limited_ok, aside_ok] at h
    obtain ⟨_, s', hl, _, _, rfl, right, _, ⟨s'', hr, rfl, rfl⟩, _, _, ⟨-, rfl⟩, rfl⟩ := h
    simpa only [Expr.operands, Expr.codeIn, Expr.peak, Nat.sub_self, Nat.zero_add] using
      ((ihl hl).drop (Nat.le_refl 1)).wrap (ihr hr)
        fun right => [Instruction.jumpIf (decisive op) (right.length + 1), .pop] ++ right
  | ternary c y n ihc ihy ihn =>
    simp only [compileExpr, bind_ok, emit_ok, drop_ok, limited_ok, aside_ok] at h
    obtain ⟨_, s', hc, _, _, rfl, yes, _, ⟨sy, hy, rfl, rfl⟩, _, _, ⟨-, rfl⟩, _, _, rfl,
      no, _, ⟨sn, hn, rfl, rfl⟩, _, _, ⟨-, rfl⟩, rfl⟩ := h
    simpa only [Expr.operands, Expr.codeIn, Expr.peak, Nat.sub_self, Nat.zero_add] using
      ((ihc hc).drop (Nat.le_refl 1)).branch ((ihy hy).drop (Nat.le_refl 1)) (ihn hn)
        fun yes no => [Instruction.popJumpIf false (yes.length + 1)] ++ yes ++
          [Instruction.jump no.length] ++ no
  | access e attr ih =>
    simp only [compileExpr, bind_ok, emit_ok, drop_ok] at h
    obtain ⟨_, s', he, _, s'', hattr, _, _, rfl, rfl⟩ := h
    simpa only [Expr.operands, Expr.codeIn, Expr.peak, List.append_assoc,
      List.singleton_append] using
      (((ih he).trans (loadConst_emits rfl hattr)).append _).drop (Nat.le_add_left 1 1)
  | call f args ihf ihargs =>
    simp only [compileExpr, bind_ok, emit_ok, drop_ok, limited_ok] at h
    obtain ⟨_, s', hf, _, s'', hargs, _, _, ⟨-, rfl⟩, _, _, rfl, rfl⟩ := h
    simpa only [Expr.operands, Expr.codeIn, Expr.peak, List.append_assoc, Nat.add_sub_cancel] using
      ((compileArgs_emits ihargs (ihf hf) hargs).append _).drop (Nat.le_add_left _ 1)
  | item e key ihe ihkey =>
    simp only [compileExpr, bind_ok, emit_ok, drop_ok] at h
    obtain ⟨_, s', he, _, s'', hkey, _, _, rfl, rfl⟩ := h
    simpa only [Expr.operands, Expr.codeIn, Expr.peak, List.append_assoc] using
      (((ihe he).trans (ihkey hkey)).append _).drop (Nat.le_add_left 1 1)
  | slice e start stop step ihe iha ihb ihc =>
    simp only [compileExpr, bind_ok, emit_ok, drop_ok] at h
    obtain ⟨_, s', he, _, sa, ha, _, sb, hb, _, sc, hc, _, _, rfl, rfl⟩ := h
    have hBounds := (compileBound_emits iha ha).trans
      ((compileBound_emits ihb hb).trans (compileBound_emits ihc hc))
    simpa only [Expr.operands, Expr.codeIn, Expr.peak, List.append_assoc] using
      (((ihe he).trans hBounds).append _).drop (n := 3) (by omega)

end Formula.Compiler

/-- The parts of the code of an expression. -/
theorem Formula.Expr.compile_ok {e : Expr} {c : Code} (h : e.compile = .ok c) :
    c.symbols.Knows e.operands ∧ c.instructions = e.codeIn c.symbols ∧ c.maxStack = e.peak := by
  unfold Expr.compile at h
  cases hRun : Compiler.compileExpr e .initial with
  | error fault => simp [hRun, Except.map] at h
  | ok p =>
    obtain ⟨_, s⟩ := p
    simp only [hRun, Except.map, Except.ok.injEq] at h
    subst h
    have emits := Compiler.compileExpr_emits hRun
    exact ⟨emits.knows, emits.code_eq, by
      simpa only [Compiler.State.initial, Nat.zero_max, Nat.zero_add] using emits.maxHeight⟩
