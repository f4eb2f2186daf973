import Formula.Proofs.Code.Emission
import Formula.Proofs.Code.Interning
import Formula.Proofs.Expr.Height

/-! The numbers of compiled code. The compiler adds what an expression loads to its table, one
operand after the other, in the order in which the code loads them. So the numbers of the literals
that are loaded first come in the order 0, 1, 2 and so on, those of the names do, and the table
holds what is loaded, without repetitions, in that order. -/

namespace Formula

/-! ### The operands of a tree -/

namespace Expr

/-- `part` is a tree in `e`, which may be `e`. -/
inductive Part : Expr → Expr → Prop
  | here {e : Expr} : Part e e
  | inside {e child part : Expr} (h : child ∈ e.children) (rest : Part child part) : Part e part

/-- What is loaded for the root of a tree. -/
def own : Expr → List Operand
  | literal l => [.constant l.value]
  | reference name => [.name name]
  | access _ attr => [.constant (.str attr)]
  | slice _ start stop step =>
    if start.isSome ∧ stop.isSome ∧ step.isSome then [] else [.constant .none]
  | _ => []

theorem exists_part_iff {e : Expr} {P : Expr → Prop} :
    (∃ part, e.Part part ∧ P part) ↔
      P e ∨ ∃ child ∈ e.children, ∃ part, child.Part part ∧ P part := by
  constructor
  · rintro ⟨part, _ | ⟨hChild, hRest⟩, hPart⟩
    · exact .inl hPart
    · exact .inr ⟨_, hChild, part, hRest, hPart⟩
  · rintro (hRoot | ⟨child, hChild, part, hRest, hPart⟩)
    · exact ⟨e, .here, hRoot⟩
    · exact ⟨part, .inside hChild hRest, hPart⟩

theorem mem_argsOperands {o : Operand} {args : List Expr} :
    o ∈ argsOperands args ↔ ∃ arg ∈ args, o ∈ arg.operands := by
  induction args with
  | nil => simp [argsOperands]
  | cons arg args ih => simp [argsOperands, ih]

theorem mem_operands_children {e : Expr} {o : Operand} :
    o ∈ e.operands ↔ o ∈ e.own ∨ ∃ child ∈ e.children, o ∈ child.operands := by
  cases e with
  | slice e start stop step =>
    cases start <;> cases stop <;> cases step <;>
      simp [operands, boundOperands, own, children] <;> grind
  | _ => simp [operands, own, children, mem_argsOperands, or_comm]

/-- The operands of a tree are what is loaded for the trees in it. -/
theorem mem_operands_iff {e : Expr} {o : Operand} :
    o ∈ e.operands ↔ ∃ part, e.Part part ∧ o ∈ part.own := by
  induction e using induct_children with
  | step e ih =>
    rw [mem_operands_children, exists_part_iff]
    exact or_congr_right (exists_congr fun child => and_congr_right (ih child))

end Expr

/-! ### Loads -/

namespace Instruction

/-- The number of the literal that is loaded. -/
def literalId? : Instruction → Option Nat
  | loadConst id => some id
  | _ => none

/-- The number of the name that is loaded. -/
def referenceId? : Instruction → Option Nat
  | loadRef id => some id
  | _ => none

def isLoad : Instruction → Bool
  | loadConst _ | loadRef _ => true
  | _ => false

theorem literalId?_eq_none (i : Instruction) (h : ¬i.isLoad) : i.literalId? = none := by
  cases i <;> first | rfl | exact absurd rfl h

theorem referenceId?_eq_none (i : Instruction) (h : ¬i.isLoad) : i.referenceId? = none := by
  cases i <;> first | rfl | exact absurd rfl h

end Instruction

namespace Expr

variable {t : SymbolTable}

theorem isLoad_load (t : SymbolTable) (o : Operand) : (o.load t).isLoad := by
  cases o <;> rfl

theorem loads_argsCodeIn {args : List Expr}
    (h : ∀ arg ∈ args, (arg.codeIn t).filter Instruction.isLoad = arg.operands.map (·.load t)) :
    (argsCodeIn t args).filter Instruction.isLoad = (argsOperands args).map (·.load t) := by
  induction args with
  | nil => rfl
  | cons arg args ih =>
    obtain ⟨hFirst, hRest⟩ := List.forall_mem_cons.mp h
    rw [argsCodeIn, argsOperands, List.filter_append, List.map_append, hFirst, ih hRest]

theorem loads_boundCodeIn {bound? : Option Expr}
    (h : ∀ bound ∈ bound?,
      (bound.codeIn t).filter Instruction.isLoad = bound.operands.map (·.load t)) :
    (boundCodeIn t bound?).filter Instruction.isLoad = (boundOperands bound?).map (·.load t) := by
  cases bound? with
  | none => rfl
  | some bound => exact h bound rfl

/-- The loads in the code of a tree are those of its operands, in their order. -/
theorem loads_codeIn (t : SymbolTable) (e : Expr) :
    (e.codeIn t).filter Instruction.isLoad = e.operands.map (·.load t) := by
  induction e with
  | literal l | reference name => rfl
  | unary op e ih => simp [codeIn, operands, ih, Instruction.isLoad]
  | binary op l r ihl ihr | compare op l r ihl ihr | connect op l r ihl ihr =>
    simp [codeIn, operands, ihl, ihr, Instruction.isLoad]
  | ternary c y n ihc ihy ihn => simp [codeIn, operands, ihc, ihy, ihn, Instruction.isLoad]
  | access e attr ih => simp [codeIn, operands, ih, List.filter_cons, isLoad_load]; rfl
  | call f args ihf ihargs =>
    simp [codeIn, operands, ihf, loads_argsCodeIn ihargs, Instruction.isLoad]
  | item e key ihe ihkey => simp [codeIn, operands, ihe, ihkey, Instruction.isLoad]
  | slice e start stop step ihe iha ihb ihc =>
    simp [codeIn, operands, ihe, loads_boundCodeIn iha, loads_boundCodeIn ihb,
      loads_boundCodeIn ihc, Instruction.isLoad]

end Expr

/-! ### Tables -/

namespace SymbolTable

variable {t t' t'' : SymbolTable} {os os' : List Operand} {o : Operand} {id : Nat}

/-- The table after operands are added to it, one after the other. -/
def addAll (t : SymbolTable) (os : List Operand) : Except CompileError SymbolTable :=
  os.foldlM (fun t o => (t.add o).1.map fun _ => (t.add o).2) t

theorem addAll_append (h : t.addAll os = .ok t') (h' : t'.addAll os' = .ok t'') :
    t.addAll (os ++ os') = .ok t'' := by
  rw [addAll, List.foldlM_append]
  rw [addAll] at h
  rw [h]
  exact h'

theorem addAll_singleton (h : t.add o = (.ok id, t')) : t.addAll [o] = .ok t' := by
  rw [addAll, List.foldlM_cons, h]
  rfl

theorem addAll_cons (h : t.addAll (o :: os) = .ok t') :
    ∃ id t₁, t.add o = (.ok id, t₁) ∧ t₁.addAll os = .ok t' := by
  rw [addAll, List.foldlM_cons] at h
  rcases hAdd : t.add o with ⟨e | id, t₁⟩
  · rw [hAdd] at h
    cases h
  · rw [hAdd] at h
    exact ⟨id, t₁, rfl, h⟩

/-- Only what is found again is known. -/
theorem Knows.isAtom (h : t.Knows [o]) : o.isAtom := by
  obtain ⟨id, hNumber⟩ := h.number?
  cases o with
  | constant v =>
    obtain ⟨_, hSame, -⟩ := List.findIdx?_eq_some_iff_getElem.mp hNumber
    exact (Value.sameConstant_iff.mp hSame).1
  | name s => rfl

theorem extends_of_addAll (h : t.addAll os = .ok t') : t.Extends t' := by
  induction os generalizing t with
  | nil =>
    cases h
    exact .refl _
  | cons o os ih =>
    obtain ⟨id, t₁, hAdd, hRest⟩ := addAll_cons h
    exact (added_of_eq hAdd).extends_.trans (ih hRest)

/-- Operands that are added get the numbers that they keep. -/
theorem History.addAll {calls : List (Operand × Nat)} (h : History calls t)
    (hAdd : t.addAll os = .ok t') (hKnown : t'.Knows os) :
    History (calls ++ os.map fun o => (o, (o.number? t').getD 0)) t' := by
  induction os generalizing t calls with
  | nil =>
    cases hAdd
    simpa using h
  | cons o os ih =>
    obtain ⟨id, t₁, hFirst, hRest⟩ := addAll_cons hAdd
    obtain ⟨hKnown, hOthers⟩ := knows_append.mp (show t'.Knows ([o] ++ os) from hKnown)
    have hNumber : o.number? t' = some id :=
      (extends_of_addAll hRest).number?_eq ((added_of_eq hFirst).number?_eq hKnown.isAtom)
    have hHistory := ih (h.step hFirst) hRest hOthers
    rw [List.append_assoc, List.singleton_append] at hHistory
    simpa only [List.map_cons, hNumber, Option.getD_some] using hHistory

end SymbolTable

/-! ### Symbols in the order in which they first come -/

theorem eraseDupsBy_concat {α : Type} (r : α → α → Bool) (as : List α) (a : α) :
    (as ++ [a]).eraseDupsBy r =
      if (as.eraseDupsBy r).any (r a) then as.eraseDupsBy r else as.eraseDupsBy r ++ [a] := by
  have hLoop : ∀ known : List α, List.eraseDupsBy.loop r (as ++ [a]) known =
      if (List.eraseDupsBy.loop r as known).any (r a) then List.eraseDupsBy.loop r as known
      else List.eraseDupsBy.loop r as known ++ [a] := by
    induction as with
    | nil =>
      intro known
      simp only [List.nil_append, List.eraseDupsBy.loop, List.any_reverse]
      cases known.any (r a) <;> simp
    | cons b as ih =>
      intro known
      cases hAny : known.any (r b) <;>
        simp only [List.cons_append, List.eraseDupsBy.loop, hAny] <;> exact ih _
  exact hLoop []

/-- The known symbols are those that were numbered, without those that came before. -/
theorem Numbered.known_eq {α : Type} {same : α → α → Bool} {calls : List (α × Nat)}
    {known : List α} (h : Numbered same calls known) :
    known = (calls.map (·.1)).eraseDupsBy same := by
  induction h with
  | start => rfl
  | @again calls known a id before found ih =>
    have hAny : known.any (same a) := by
      obtain ⟨hLt, hSame, -⟩ := List.findIdx?_eq_some_iff_getElem.mp found
      exact List.any_eq_true.mpr ⟨_, List.getElem_mem hLt, hSame⟩
    rw [List.map_append, List.map_singleton, eraseDupsBy_concat, ← ih, if_pos hAny]
  | @new calls known a before missing room ih =>
    have hAny : ¬known.any (same a) := by
      simpa using List.findIdx?_eq_none_iff.mp missing
    rw [List.map_append, List.map_singleton, eraseDupsBy_concat, ← ih, if_neg hAny]

/-! ### The table of the compiler -/

namespace Compiler

open Steps SymbolTable

variable {s s₁ : State}

theorem loadConst_adds {v : Value} (h : loadConst v s = .ok ((), s₁)) :
    s.symbols.addAll [.constant v] = .ok s₁.symbols := by
  simp only [loadConst, bind_ok, literal_ok, emit_ok, push_ok] at h
  obtain ⟨id, _, ⟨symbols, hAdd, rfl⟩, _, _, rfl, rfl⟩ := h
  exact addAll_singleton (o := .constant v) hAdd

theorem loadRef_adds {name : String}
    (h : (do emit [.loadRef (← reference name)]; push : Compile Unit) s = .ok ((), s₁)) :
    s.symbols.addAll [.name name] = .ok s₁.symbols := by
  simp only [bind_ok, reference_ok, emit_ok, push_ok] at h
  obtain ⟨id, _, ⟨symbols, hAdd, rfl⟩, _, _, rfl, rfl⟩ := h
  exact addAll_singleton (o := .name name) hAdd

theorem compileArgs_adds {args : List Expr}
    (ih : ∀ arg ∈ args, ∀ {s s₁}, compileExpr arg s = .ok ((), s₁) →
      s.symbols.addAll arg.operands = .ok s₁.symbols)
    (h : compileArgs args s = .ok ((), s₁)) :
    s.symbols.addAll (Expr.argsOperands args) = .ok s₁.symbols := by
  induction args generalizing s with
  | nil =>
    cases h
    rfl
  | cons arg args ihArgs =>
    simp only [compileArgs, bind_ok] at h
    obtain ⟨_, s', hFirst, hRest⟩ := h
    obtain ⟨ihFirst, ihRest⟩ := List.forall_mem_cons.mp ih
    exact addAll_append (ihFirst hFirst) (ihArgs ihRest hRest)

theorem compileBound_adds {bound? : Option Expr}
    (ih : ∀ bound ∈ bound?, ∀ {s s₁}, compileExpr bound s = .ok ((), s₁) →
      s.symbols.addAll bound.operands = .ok s₁.symbols)
    (h : compileBound bound? s = .ok ((), s₁)) :
    s.symbols.addAll (Expr.boundOperands bound?) = .ok s₁.symbols := by
  cases bound? with
  | none => exact loadConst_adds h
  | some bound => exact ih bound rfl h

/-- The compiler adds the operands of an expression to its table. -/
theorem compileExpr_adds {e : Expr} (h : compileExpr e s = .ok ((), s₁)) :
    s.symbols.addAll e.operands = .ok s₁.symbols := by
  -- what is emitted last leaves the table alone, so the last fact is stated of the state before
  induction e generalizing s s₁ with
  | literal l => exact loadConst_adds h
  | reference name => exact loadRef_adds h
  | unary op e ih =>
    simp only [compileExpr, bind_ok, emit_ok] at h
    obtain ⟨_, s', he, rfl⟩ := h
    have hAdd := ih he
    exact hAdd
  | binary op l r ihl ihr | compare op l r ihl ihr =>
    simp only [compileExpr, bind_ok, emit_ok, drop_ok] at h
    obtain ⟨_, s', hl, _, s'', hr, _, _, rfl, rfl⟩ := h
    have hRight := ihr hr
    exact addAll_append (ihl hl) hRight
  | connect op l r ihl ihr =>
    simp only [compileExpr, bind_ok, emit_ok, drop_ok, limited_ok, aside_ok] at h
    obtain ⟨_, s', hl, _, _, rfl, right, _, ⟨s'', hr, rfl, rfl⟩, _, _, ⟨-, rfl⟩, rfl⟩ := h
    have hRight := ihr hr
    exact addAll_append (ihl hl) hRight
  | ternary c y n ihc ihy ihn =>
    simp only [compileExpr, bind_ok, emit_ok, drop_ok, limited_ok, aside_ok] at h
    obtain ⟨_, s', hc, _, _, rfl, yes, _, ⟨sy, hy, rfl, rfl⟩, _, _, ⟨-, rfl⟩, _, _, rfl,
      no, _, ⟨sn, hn, rfl, rfl⟩, _, _, ⟨-, rfl⟩, rfl⟩ := h
    have hYes := ihy hy
    have hNo := ihn hn
    exact addAll_append (ihc hc) (addAll_append hYes hNo)
  | access e attr ih =>
    simp only [compileExpr, bind_ok, emit_ok, drop_ok] at h
    obtain ⟨_, s', he, _, s'', hAttr, _, _, rfl, rfl⟩ := h
    have hName := loadConst_adds hAttr
    exact addAll_append (ih he) hName
  | call f args ihf ihargs =>
    simp only [compileExpr, bind_ok, emit_ok, drop_ok, limited_ok] at h
    obtain ⟨_, s', hf, _, s'', hArgs, _, _, ⟨-, rfl⟩, _, _, rfl, rfl⟩ := h
    have hOthers := compileArgs_adds ihargs hArgs
    exact addAll_append (ihf hf) hOthers
  | item e key ihe ihkey =>
    simp only [compileExpr, bind_ok, emit_ok, drop_ok] at h
    obtain ⟨_, s', he, _, s'', hKey, _, _, rfl, rfl⟩ := h
    have hKey := ihkey hKey
    exact addAll_append (ihe he) hKey
  | slice e start stop step ihe iha ihb ihc =>
    simp only [compileExpr, bind_ok, emit_ok, drop_ok] at h
    obtain ⟨_, s', he, _, sa, ha, _, sb, hb, _, sc, hc, _, _, rfl, rfl⟩ := h
    have hStep := compileBound_adds ihc hc
    have hBounds := addAll_append (compileBound_adds iha ha)
      (addAll_append (compileBound_adds ihb hb) hStep)
    exact addAll_append (ihe he) hBounds

end Compiler

namespace Expr

variable {e : Expr} {c : Code}

/-- The operands of a tree with the numbers that they have in a table. -/
def numberedOperands (t : SymbolTable) (e : Expr) : List (Operand × Nat) :=
  e.operands.map fun o => (o, (o.number? t).getD 0)

/-- What is added to the table of compiled code, with the numbers that it has there. -/
theorem history_of_compile (h : e.compile = .ok c) :
    SymbolTable.History (e.numberedOperands c.symbols) c.symbols := by
  have hKnown := (compile_ok h).1
  unfold compile at h
  cases hRun : Compiler.compileExpr e .initial with
  | error fault =>
    rw [hRun] at h
    cases h
  | ok p =>
    rw [hRun] at h
    cases h
    exact SymbolTable.History.start.addAll (Compiler.compileExpr_adds hRun) hKnown

/-- What is read off the loads in the code of a tree. -/
theorem filterMap_codeIn {α : Type} {f : Instruction → Option α}
    (hf : ∀ i : Instruction, ¬i.isLoad → f i = none) (t : SymbolTable) (e : Expr) :
    (e.codeIn t).filterMap f = e.operands.filterMap fun o => f (o.load t) := by
  have hLoads : (fun i : Instruction => if i.isLoad then f i else none) = f := by
    funext i
    by_cases hLoad : i.isLoad
    · rw [if_pos hLoad]
    · rw [if_neg hLoad, hf i hLoad]
  rw [← hLoads, ← List.filterMap_filter, loads_codeIn, List.filterMap_map, hLoads]
  rfl

section Kind

variable {α : Type} (kind? : Operand → Option α) (t : SymbolTable)

/-- The symbols of one kind among the operands of a tree. -/
theorem symbols_numberedOperands (e : Expr) :
    ((e.numberedOperands t).filterMap fun c => (kind? c.1).map (·, c.2)).map (·.1) =
      e.operands.filterMap kind? := by
  rw [numberedOperands, List.filterMap_map, List.map_filterMap]
  congr 1
  funext o
  cases hKind : kind? o <;> simp [hKind]

/-- The numbers of one kind in the code of a tree. -/
theorem ids_codeIn {id? : Instruction → Option Nat} (hId : ∀ i, ¬i.isLoad → id? i = none)
    (hKind : ∀ o, id? (o.load t) = (kind? o).map fun _ => (o.number? t).getD 0) (e : Expr) :
    (e.codeIn t).filterMap id? =
      ((e.numberedOperands t).filterMap fun c => (kind? c.1).map (·, c.2)).map (·.2) := by
  rw [filterMap_codeIn hId, numberedOperands, List.filterMap_map, List.map_filterMap]
  congr 1
  funext o
  rw [hKind]
  cases hOther : kind? o <;> simp [hOther]

end Kind

theorem literalIds_codeIn (t : SymbolTable) (e : Expr) :
    (e.codeIn t).filterMap Instruction.literalId? =
      (SymbolTable.literalCalls (e.numberedOperands t)).map (·.2) :=
  ids_codeIn Operand.constant? t Instruction.literalId?_eq_none
    (by rintro (_ | _) <;> rfl) e

theorem referenceIds_codeIn (t : SymbolTable) (e : Expr) :
    (e.codeIn t).filterMap Instruction.referenceId? =
      (SymbolTable.nameCalls (e.numberedOperands t)).map (·.2) :=
  ids_codeIn Operand.name? t Instruction.referenceId?_eq_none
    (by rintro (_ | _) <;> rfl) e

theorem constants_numberedOperands (t : SymbolTable) (e : Expr) :
    (SymbolTable.literalCalls (e.numberedOperands t)).map (·.1) =
      e.operands.filterMap Operand.constant? :=
  symbols_numberedOperands Operand.constant? t e

theorem names_numberedOperands (t : SymbolTable) (e : Expr) :
    (SymbolTable.nameCalls (e.numberedOperands t)).map (·.1) =
      e.operands.filterMap Operand.name? :=
  symbols_numberedOperands Operand.name? t e

/-- The numbers of `c` are those that the operands of `e` get in the order in which they first
come. -/
structure Canonical (e : Expr) (c : Code) : Prop where
  literals_dense : (c.instructions.filterMap Instruction.literalId?).eraseDups =
    List.range c.symbols.literals.length
  references_dense : (c.instructions.filterMap Instruction.referenceId?).eraseDups =
    List.range c.symbols.references.length
  literals : c.symbols.literals =
    (e.operands.filterMap Operand.constant?).eraseDupsBy Value.sameConstant
  references : c.symbols.references = (e.operands.filterMap Operand.name?).eraseDups
  /-- Each load of a literal is of the next one in the tree. -/
  literals_loaded : (c.instructions.filterMap Instruction.literalId?).map c.symbols.literal? =
    (e.operands.filterMap Operand.constant?).map some
  references_loaded :
    (c.instructions.filterMap Instruction.referenceId?).map c.symbols.reference? =
      (e.operands.filterMap Operand.name?).map some

theorem canonical_of_compile (h : e.compile = .ok c) : Canonical e c := by
  have hHistory := history_of_compile h
  have hCode := (compile_ok h).2.1
  have hLiterals := hHistory.literals
  have hReferences := hHistory.references
  have hFaithful := hHistory.faithful
  constructor
  · rw [hCode, literalIds_codeIn, hLiterals.eraseDups_eq_range]
  · rw [hCode, referenceIds_codeIn, hReferences.eraseDups_eq_range]
  · rw [← constants_numberedOperands c.symbols]
    exact hLiterals.known_eq
  · have hSame : (fun name known : String => known == name) = (· == ·) := by
      funext name known
      exact Bool.beq_comm
    rw [← names_numberedOperands c.symbols, List.eraseDups, ← hSame]
    exact hReferences.known_eq
  · rw [hCode, literalIds_codeIn, ← constants_numberedOperands c.symbols, List.map_map,
      List.map_map]
    refine List.map_congr_left fun call hMem => ?_
    exact hFaithful.literal _ _ (SymbolTable.mem_literalCalls.mp hMem)
  · rw [hCode, referenceIds_codeIn, ← names_numberedOperands c.symbols, List.map_map,
      List.map_map]
    refine List.map_congr_left fun call hMem => ?_
    exact hFaithful.reference _ _ (SymbolTable.mem_nameCalls.mp hMem)

/-- Compiled code numbers the literals and the names of a tree in the order in which they first
come, and they are what is loaded for the trees in it: the values of its literals, the names of its
attributes, `None` for the bounds that it leaves out, and the names that it refers to. -/
theorem compile_canonical (h : e.compile = .ok c) :
    Canonical e c ∧ ∀ o, o ∈ e.operands ↔ ∃ part, e.Part part ∧ o ∈ part.own :=
  ⟨canonical_of_compile h, fun _ => mem_operands_iff⟩

/-- The tree of `x[1:].x`. -/
def tailAttr : Expr := access (slice (.reference "x") (some (.literal (.int 1))) none none) "x"

/-- The table that its operands make. -/
def tailAttrSymbols : SymbolTable :=
  (SymbolTable.empty.addEach
    [.name "x", .constant (.int 1), .constant .none, .constant (.str "x")]).2

def tailAttrCode : Code where
  instructions := [.loadRef 0, .loadConst 0, .loadConst 1, .loadConst 1, .getItem 3, .loadConst 2,
    .getAttr]
  symbols := tailAttrSymbols
  maxStack := 4

/-- Two bounds that are left out are one literal, and an attribute is another thing than a name. -/
theorem compile_canonical_tailAttr :
    tailAttr.compile = .ok tailAttrCode ∧ Canonical tailAttr tailAttrCode := by
  have hCompile : tailAttr.compile = .ok tailAttrCode := rfl
  exact ⟨hCompile, (compile_canonical hCompile).1⟩

end Expr

end Formula
