import Formula.Proofs.Code.Numbering
import Formula.Proofs.Code.Patching
import Formula.Proofs.Code.WellFormed
import Mathlib.Data.List.Nodup
import Mathlib.Data.List.Perm.Subperm

/-! Where the code of an expression is placed. The compiler appends the same instructions whatever
has been emitted and whatever is on the stack. What has been numbered before shows only in the
numbers of the literals and the names: the code has those of the final table in place of those of a
table that starts empty. -/

namespace Formula

/-- Other numbers for the literals and the names that are loaded. A jump stays as it is. -/
def Instruction.rename (literal reference : Nat → Nat) : Instruction → Instruction
  | loadConst id => loadConst (literal id)
  | loadRef id => loadRef (reference id)
  | i => i

/-! ### Renamings -/

namespace SymbolTable

variable {t t' t'' t₁ : SymbolTable} {o : Operand} {os os' : List Operand}

/-- The numbers of `t` become numbers of `t'` that mean the same, and no two of them become one. -/
structure Renaming (t t' : SymbolTable) (literal reference : Nat → Nat) : Prop where
  literal_eq : ∀ id v, t.literal? id = some v → t'.literal? (literal id) = some v
  reference_eq : ∀ id name, t.reference? id = some name → t'.reference? (reference id) = some name
  literal_injective : ∀ id < t.literals.length, ∀ id' < t.literals.length,
    literal id = literal id' → id = id'
  reference_injective : ∀ id < t.references.length, ∀ id' < t.references.length,
    reference id = reference id' → id = id'

/-- The number in `t'` of the literal that has number `id` in `t`. -/
def literalId (t t' : SymbolTable) (id : Nat) : Nat :=
  ((t.literal? id).bind fun v => (Operand.constant v).number? t').getD 0

def referenceId (t t' : SymbolTable) (id : Nat) : Nat :=
  ((t.reference? id).bind fun name => (Operand.name name).number? t').getD 0

/-- The symbols of `t` are known to `t'`, and `t` has none of them twice. -/
structure Within (t t' : SymbolTable) : Prop where
  literals_nodup : t.literals.Nodup
  references_nodup : t.references.Nodup
  literals_known : ∀ v ∈ t.literals, t'.Knows [.constant v]
  references_known : ∀ name ∈ t.references, t'.Knows [.name name]

theorem within_empty (t : SymbolTable) : Within .empty t :=
  ⟨List.nodup_nil, List.nodup_nil, nofun, nofun⟩

theorem Knows.mem_literals {v : Value} (h : t.Knows [.constant v]) : v ∈ t.literals := by
  obtain ⟨id, hNumber⟩ := h.number?
  exact List.mem_of_getElem? (literal?_eq hNumber)

theorem Knows.mem_references {name : String} (h : t.Knows [.name name]) : name ∈ t.references := by
  obtain ⟨id, hNumber⟩ := h.number?
  exact List.mem_of_getElem? (reference?_eq hNumber)

theorem literal?_literalId {id : Nat} {v : Value} (h : t.literal? id = some v)
    (hKnown : t'.Knows [.constant v]) : t'.literal? (literalId t t' id) = some v := by
  obtain ⟨id', hNumber⟩ := hKnown.number?
  rw [literalId, h, Option.bind_some, hNumber]
  exact literal?_eq hNumber

theorem reference?_referenceId {id : Nat} {name : String} (h : t.reference? id = some name)
    (hKnown : t'.Knows [.name name]) : t'.reference? (referenceId t t' id) = some name := by
  obtain ⟨id', hNumber⟩ := hKnown.number?
  rw [referenceId, h, Option.bind_some, hNumber]
  exact reference?_eq hNumber

theorem Within.renaming (h : Within t t') :
    Renaming t t' (literalId t t') (referenceId t t') := by
  have hLiteral : ∀ id v, t.literal? id = some v →
      t'.literal? (literalId t t' id) = some v := fun id v hId =>
    literal?_literalId hId (h.literals_known v (List.mem_of_getElem? hId))
  have hReference : ∀ id name, t.reference? id = some name →
      t'.reference? (referenceId t t' id) = some name := fun id name hId =>
    reference?_referenceId hId (h.references_known name (List.mem_of_getElem? hId))
  refine ⟨hLiteral, hReference, fun id hId id' hId' hSame => ?_, fun id hId id' hId' hSame => ?_⟩
  · have hValue := hLiteral id _ (List.getElem?_eq_getElem hId)
    rw [hSame, hLiteral id' _ (List.getElem?_eq_getElem hId'), Option.some_inj] at hValue
    exact (h.literals_nodup.getElem_inj_iff.mp hValue).symm
  · have hName := hReference id _ (List.getElem?_eq_getElem hId)
    rw [hSame, hReference id' _ (List.getElem?_eq_getElem hId'), Option.some_inj] at hName
    exact (h.references_nodup.getElem_inj_iff.mp hName).symm

theorem Extends.literal?_eq {id : Nat} {v : Value} (h : t.Extends t')
    (hId : t.literal? id = some v) : t'.literal? id = some v := by
  obtain ⟨hLt, rfl⟩ := List.getElem?_eq_some_iff.mp hId
  exact List.prefix_iff_getElem?.mp h.literals id hLt

theorem Extends.reference?_eq {id : Nat} {name : String} (h : t.Extends t')
    (hId : t.reference? id = some name) : t'.reference? id = some name := by
  obtain ⟨hLt, rfl⟩ := List.getElem?_eq_some_iff.mp hId
  exact List.prefix_iff_getElem?.mp h.references id hLt

/-! ### Room for the symbols of another table -/

/-- A list without repetitions is shorter than one that has its elements and another one. -/
theorem length_lt_of_new {α : Type} {known others : List α} {a : α} (hNodup : known.Nodup)
    (hKnown : ∀ b ∈ known, b ∈ others) (hNew : a ∉ known) (ha : a ∈ others) :
    known.length < others.length :=
  ((List.nodup_cons.mpr ⟨hNew, hNodup⟩).subperm (List.forall_mem_cons.mpr ⟨ha, hKnown⟩)).length_le

theorem not_mem_literals {v : Value} (hNew : (Operand.constant v).number? t = none)
    (hv : v.isAtom) : v ∉ t.literals := fun hMem => by
  have hOther := List.findIdx?_eq_none_iff.mp hNew v hMem
  rw [Value.sameConstant_iff.mpr ⟨hv, rfl⟩] at hOther
  cases hOther

theorem not_mem_references {name : String} (hNew : (Operand.name name).number? t = none) :
    name ∉ t.references := fun hMem => by
  simpa using List.findIdx?_eq_none_iff.mp hNew name hMem

/-- There is room for what another table knows that fits. -/
theorem Within.size_lt (h : Within t t') (hKnown : t'.Knows [o]) (hSize : t'.size o ≤ numberLimit)
    (hNew : o.number? t = none) : t.size o < numberLimit := by
  cases o with
  | constant v =>
    exact (length_lt_of_new h.literals_nodup (fun w hw => (h.literals_known w hw).mem_literals)
      (not_mem_literals hNew hKnown.isAtom) hKnown.mem_literals).trans_le hSize
  | name name =>
    exact (length_lt_of_new h.references_nodup
      (fun other hOther => (h.references_known other hOther).mem_references)
      (not_mem_references hNew) hKnown.mem_references).trans_le hSize

theorem Within.added {answer : Except CompileError Nat} (h : Within t t')
    (hAdded : Added t o answer t₁) (hKnown : t'.Knows [o]) : Within t₁ t' := by
  cases hAdded with
  | found | full => exact h
  | new hNew _ literals references =>
    cases o with
    | constant v =>
      have hReferences : t₁.references = t.references := references.trans (List.append_nil _)
      exact {
        literals_nodup := by
          rw [literals, Operand.constant?, Option.toList_some, ← List.concat_eq_append]
          exact h.literals_nodup.concat (not_mem_literals hNew hKnown.isAtom)
        references_nodup := hReferences ▸ h.references_nodup
        literals_known := literals ▸ List.forall_mem_append.mpr
          ⟨h.literals_known, List.forall_mem_singleton.mpr hKnown⟩
        references_known := hReferences ▸ h.references_known }
    | name name =>
      have hLiterals : t₁.literals = t.literals := literals.trans (List.append_nil _)
      exact {
        literals_nodup := hLiterals ▸ h.literals_nodup
        references_nodup := by
          rw [references, Operand.name?, Option.toList_some, ← List.concat_eq_append]
          exact h.references_nodup.concat (not_mem_references hNew)
        literals_known := hLiterals ▸ h.literals_known
        references_known := references ▸ List.forall_mem_append.mpr
          ⟨h.references_known, List.forall_mem_singleton.mpr hKnown⟩ }

theorem Within.addAll (h : Within t t') (hKnown : t'.Knows os)
    (hSize : ∀ o, t'.size o ≤ numberLimit) :
    ∃ t₁, t.addAll os = .ok t₁ ∧ Within t₁ t' := by
  induction os generalizing t with
  | nil => exact ⟨t, rfl, h⟩
  | cons o os ih =>
    obtain ⟨hFirst, hRest⟩ := knows_append.mp (show t'.Knows ([o] ++ os) from hKnown)
    obtain ⟨id, t₁, hAdd⟩ := exists_add (h.size_lt hFirst (hSize o))
    obtain ⟨t₂, hAddAll, hWithin⟩ := ih (h.added (added_of_eq hAdd) hFirst) hRest
    exact ⟨t₂, addAll_append (addAll_singleton hAdd) hAddAll, hWithin⟩

theorem addAll_append_ok (h : t.addAll (os ++ os') = .ok t'') :
    ∃ t', t.addAll os = .ok t' ∧ t'.addAll os' = .ok t'' := by
  rw [SymbolTable.addAll, List.foldlM_append] at h
  cases hAdd : t.addAll os with
  | error e =>
    rw [SymbolTable.addAll] at hAdd
    rw [hAdd] at h
    cases h
  | ok t' =>
    rw [SymbolTable.addAll] at hAdd
    rw [hAdd] at h
    exact ⟨t', rfl, h⟩

end SymbolTable

theorem Numbered.length_le {α : Type} {same : α → α → Bool} {calls : List (α × Nat)}
    {known : List α} (h : Numbered same calls known) : known.length ≤ numberLimit := by
  induction h with
  | start => exact Nat.zero_le _
  | again before found ih => exact ih
  | new before missing room ih =>
    rw [List.length_append]
    exact room

theorem SymbolTable.History.size_le {calls : List (Operand × Nat)} {t : SymbolTable}
    (h : History calls t) (o : Operand) : t.size o ≤ numberLimit := by
  cases o with
  | constant v => exact h.literals.length_le
  | name name => exact h.references.length_le

/-! ### Code in another table -/

namespace Expr

open SymbolTable (literalId referenceId)

variable {t t' : SymbolTable}

/-- The numbers that operands have in `t'` in place of those in `t`. -/
def moved (t t' : SymbolTable) (code : List Instruction) : List Instruction :=
  code.map (Instruction.rename (literalId t t') (referenceId t t'))

theorem moved_append (code more : List Instruction) :
    moved t t' (code ++ more) = moved t t' code ++ moved t t' more :=
  List.map_append

theorem moved_load {o : Operand} (h : t.Knows [o]) : moved t t' [o.load t] = [o.load t'] := by
  obtain ⟨id, hNumber⟩ := h.number?
  cases o with
  | constant v =>
    have hLiteral := SymbolTable.literal?_eq hNumber
    simp [moved, Operand.load, Instruction.rename, literalId, hNumber, hLiteral]
  | name name =>
    have hReference := SymbolTable.reference?_eq hNumber
    simp [moved, Operand.load, Instruction.rename, referenceId, hNumber, hReference]

theorem moved_argsCodeIn {args : List Expr}
    (ih : ∀ arg ∈ args, t.Knows arg.operands → moved t t' (arg.codeIn t) = arg.codeIn t')
    (h : t.Knows (argsOperands args)) :
    moved t t' (argsCodeIn t args) = argsCodeIn t' args := by
  induction args with
  | nil => rfl
  | cons arg args ihArgs =>
    obtain ⟨ihFirst, ihRest⟩ := List.forall_mem_cons.mp ih
    obtain ⟨hFirst, hRest⟩ := SymbolTable.knows_append.mp h
    rw [argsCodeIn, argsCodeIn, moved_append, ihFirst hFirst, ihArgs ihRest hRest]

theorem moved_boundCodeIn {bound? : Option Expr}
    (ih : ∀ bound ∈ bound?, t.Knows bound.operands → moved t t' (bound.codeIn t) = bound.codeIn t')
    (h : t.Knows (boundOperands bound?)) :
    moved t t' (boundCodeIn t bound?) = boundCodeIn t' bound? := by
  cases bound? with
  | none => exact moved_load h
  | some bound => exact ih bound rfl h

/-- The code of an expression in another table has other numbers, and the same jumps. -/
theorem moved_codeIn {e : Expr} (h : t.Knows e.operands) :
    moved t t' (e.codeIn t) = e.codeIn t' := by
  induction e with
  | literal l | reference name => exact moved_load h
  | unary op e ih =>
    rw [codeIn, codeIn, moved_append, ih h]
    rfl
  | binary op l r ihl ihr | compare op l r ihl ihr | item l r ihl ihr =>
    obtain ⟨hl, hr⟩ := SymbolTable.knows_append.mp h
    rw [codeIn, codeIn, moved_append, moved_append, ihl hl, ihr hr]
    rfl
  | connect op l r ihl ihr =>
    obtain ⟨hl, hr⟩ := SymbolTable.knows_append.mp h
    have hLength : (r.codeIn t').length = (r.codeIn t).length := by
      rw [← ihr hr, moved, List.length_map]
    rw [codeIn, codeIn, moved_append, moved_append, ihl hl, ihr hr, hLength]
    rfl
  | ternary c y n ihc ihy ihn =>
    simp only [operands, SymbolTable.knows_append] at h
    obtain ⟨hc, hy, hn⟩ := h
    have hYes : (y.codeIn t').length = (y.codeIn t).length := by
      rw [← ihy hy, moved, List.length_map]
    have hNo : (n.codeIn t').length = (n.codeIn t).length := by
      rw [← ihn hn, moved, List.length_map]
    rw [codeIn, codeIn, moved_append, moved_append, moved_append, moved_append, ihc hc, ihy hy,
      ihn hn, hYes, hNo]
    rfl
  | access e attr ih =>
    obtain ⟨he, hAttr⟩ := SymbolTable.knows_append.mp h
    rw [codeIn, codeIn, moved_append, ih he]
    show _ ++ (moved t t' [(Operand.constant (.str attr)).load t] ++ [Instruction.getAttr]) = _
    rw [moved_load hAttr]
    rfl
  | call f args ihf ihargs =>
    obtain ⟨hf, hArgs⟩ := SymbolTable.knows_append.mp h
    rw [codeIn, codeIn, moved_append, moved_append, ihf hf, moved_argsCodeIn ihargs hArgs]
    rfl
  | slice e start stop step ihe iha ihb ihc =>
    simp only [operands, SymbolTable.knows_append] at h
    obtain ⟨he, ha, hb, hc⟩ := h
    rw [codeIn, codeIn, moved_append, moved_append, moved_append, moved_append, ihe he,
      moved_boundCodeIn iha ha, moved_boundCodeIn ihb hb, moved_boundCodeIn ihc hc]
    rfl

end Expr

/-! ### Runs from other states -/

namespace Compiler

open Steps SymbolTable

variable {m : Compile Unit} {os os' : List Operand} {s s₁ : State} {e : Expr}

/-- Wherever there is room for `os`, the step succeeds and adds them. -/
def Repeats (m : Compile Unit) (os : List Operand) : Prop :=
  ∀ s t, s.symbols.addAll os = .ok t → ∃ s₁, m s = .ok ((), s₁) ∧ s₁.symbols = t

theorem Repeats.bind {f : Unit → Compile Unit} (hm : Repeats m os) (hf : Repeats (f ()) os') :
    Repeats (m >>= f) (os ++ os') := by
  intro s t hAdd
  obtain ⟨t₁, hFirst, hRest⟩ := addAll_append_ok hAdd
  obtain ⟨s₁, hRun, rfl⟩ := hm s t₁ hFirst
  obtain ⟨s₂, hNext, hSymbols⟩ := hf s₁ t hRest
  exact ⟨s₂, bind_ok.mpr ⟨(), s₁, hRun, hNext⟩, hSymbols⟩

/-- What comes next adds nothing. -/
theorem Repeats.after {f : Unit → Compile Unit} (hm : Repeats m os) (hf : Repeats (f ()) []) :
    Repeats (m >>= f) os := by
  simpa only [List.append_nil] using hm.bind hf

theorem repeats_emit (is : List Instruction) : Repeats (emit is) [] := by
  rintro s _ ⟨⟩
  exact ⟨_, rfl, rfl⟩

theorem repeats_drop (n : Nat) : Repeats (drop n) [] := by
  rintro s _ ⟨⟩
  exact ⟨_, rfl, rfl⟩

/-- An instruction that takes `n` values more than it leaves. -/
theorem repeats_operate (is : List Instruction) (n : Nat) :
    Repeats (emit is >>= fun _ => drop n) [] :=
  (repeats_emit is).after (repeats_drop n)

theorem repeats_limited {n : Nat} {fault : CompileError} (h : n < numberLimit) :
    Repeats (limited n fault) [] := by
  rintro s _ ⟨⟩
  exact ⟨s, limited_ok.mpr ⟨h, rfl⟩, rfl⟩

theorem addAll_singleton_ok {t t' : SymbolTable} {o : Operand} (h : t.addAll [o] = .ok t') :
    ∃ id, t.add o = (.ok id, t') := by
  obtain ⟨id, t₁, hAdd, ⟨⟩⟩ := addAll_cons h
  exact ⟨id, hAdd⟩

theorem repeats_loadConst (v : Value) : Repeats (loadConst v) [.constant v] := by
  intro s t hAdd
  obtain ⟨id, hAdd⟩ := addAll_singleton_ok hAdd
  have hLiteral : literal v s = .ok (id, { s with symbols := t }) := literal_ok.mpr ⟨t, hAdd, rfl⟩
  exact ⟨_, bind_eq hLiteral, rfl⟩

theorem repeats_loadRef (name : String) :
    Repeats (do emit [.loadRef (← reference name)]; push) [.name name] := by
  intro s t hAdd
  obtain ⟨id, hAdd⟩ := addAll_singleton_ok hAdd
  have hReference : reference name s = .ok (id, { s with symbols := t }) :=
    reference_ok.mpr ⟨t, hAdd, rfl⟩
  exact ⟨_, bind_eq hReference, rfl⟩

/-- The number of instructions of an expression, which is the same in every table. -/
def codeLength (e : Expr) : Nat := (e.codeIn .empty).length

theorem aside_length {is : List Instruction} (h : aside (compileExpr e) s = .ok (is, s₁)) :
    is.length = codeLength e := by
  obtain ⟨s₂, hRun, rfl, rfl⟩ := aside_ok.mp h
  have hEmits := compileExpr_emits hRun
  have hCode : s₂.code = e.codeIn s₂.symbols := hEmits.code_eq
  have hMoved : Expr.moved s₂.symbols .empty (e.codeIn s₂.symbols) = e.codeIn .empty :=
    Expr.moved_codeIn hEmits.knows
  rw [hCode, codeLength, ← hMoved, Expr.moved, List.length_map]

theorem Repeats.aside {f : List Instruction → Compile Unit} (h : Repeats (compileExpr e) os)
    (hNext : ∀ is, is.length = codeLength e → Repeats (f is) os') :
    Repeats (aside (compileExpr e) >>= f) (os ++ os') := by
  intro s t hAdd
  obtain ⟨t₁, hFirst, hRest⟩ := addAll_append_ok hAdd
  obtain ⟨s₁, hRun, rfl⟩ := h { s with code := [] } t₁ hFirst
  have hAside := aside_ok.mpr ⟨s₁, hRun, rfl, rfl⟩
  obtain ⟨s₂, hFollows, hSymbols⟩ :=
    hNext s₁.code (aside_length hAside) { s₁ with code := s.code } t hRest
  exact ⟨s₂, bind_ok.mpr ⟨_, _, hAside, hFollows⟩, hSymbols⟩

theorem Repeats.aside_after {f : List Instruction → Compile Unit}
    (h : Repeats (compileExpr e) os) (hNext : ∀ is, is.length = codeLength e → Repeats (f is) []) :
    Repeats (Compiler.aside (compileExpr e) >>= f) os := by
  simpa only [List.append_nil] using h.aside hNext

theorem repeats_compileArgs {args : List Expr}
    (ih : ∀ arg ∈ args, ∀ {s s₁}, compileExpr arg s = .ok ((), s₁) →
      Repeats (compileExpr arg) arg.operands)
    (h : compileArgs args s = .ok ((), s₁)) :
    Repeats (compileArgs args) (Expr.argsOperands args) := by
  induction args generalizing s with
  | nil =>
    rintro s _ ⟨⟩
    exact ⟨s, rfl, rfl⟩
  | cons arg args ihArgs =>
    simp only [compileArgs, bind_ok] at h
    obtain ⟨_, s', hFirst, hRest⟩ := h
    obtain ⟨ihFirst, ihRest⟩ := List.forall_mem_cons.mp ih
    exact (ihFirst hFirst).bind (ihArgs ihRest hRest)

theorem repeats_compileBound {bound? : Option Expr}
    (ih : ∀ bound ∈ bound?, ∀ {s s₁}, compileExpr bound s = .ok ((), s₁) →
      Repeats (compileExpr bound) bound.operands)
    (h : compileBound bound? s = .ok ((), s₁)) :
    Repeats (compileBound bound?) (Expr.boundOperands bound?) := by
  cases bound? with
  | none => exact repeats_loadConst .none
  | some bound => exact ih bound rfl h

/-- What compiles somewhere compiles wherever there is room for its symbols. -/
theorem repeats_compileExpr (h : compileExpr e s = .ok ((), s₁)) :
    Repeats (compileExpr e) e.operands := by
  induction e generalizing s s₁ with
  | literal l => exact repeats_loadConst l.value
  | reference name => exact repeats_loadRef name
  | unary op e ih =>
    simp only [compileExpr, bind_ok, emit_ok] at h
    obtain ⟨_, s', he, rfl⟩ := h
    exact (ih he).after (repeats_emit [.unary op])
  | binary op l r ihl ihr | compare op l r ihl ihr | item l r ihl ihr =>
    simp only [compileExpr, bind_ok, emit_ok, drop_ok] at h
    obtain ⟨_, s', hl, _, s'', hr, _, _, rfl, rfl⟩ := h
    exact (ihl hl).bind ((ihr hr).after (repeats_operate _ 1))
  | connect op l r ihl ihr =>
    simp only [compileExpr, bind_ok, emit_ok, drop_ok, limited_ok] at h
    obtain ⟨_, s', hl, _, _, rfl, right, _, hAside, _, _, ⟨hRoom, rfl⟩, rfl⟩ := h
    -- the jump fits wherever it is compiled, as the code that it skips is as long in every table
    rw [aside_length hAside] at hRoom
    obtain ⟨s'', hr, -, -⟩ := aside_ok.mp hAside
    refine (ihl hl).bind ((repeats_drop 1).bind ((ihr hr).aside_after fun is hLength => ?_))
    rw [← hLength] at hRoom
    exact (repeats_limited hRoom).after (repeats_emit _)
  | ternary c y n ihc ihy ihn =>
    simp only [compileExpr, bind_ok, emit_ok, drop_ok, limited_ok] at h
    obtain ⟨_, s', hc, _, _, rfl, yes, _, hYes, _, _, ⟨hRoomYes, rfl⟩, _, _, rfl,
      no, _, hNo, _, _, ⟨hRoomNo, rfl⟩, rfl⟩ := h
    rw [aside_length hYes] at hRoomYes
    rw [aside_length hNo] at hRoomNo
    obtain ⟨sy, hy, -, -⟩ := aside_ok.mp hYes
    obtain ⟨sn, hn, -, -⟩ := aside_ok.mp hNo
    refine (ihc hc).bind ((repeats_drop 1).bind ((ihy hy).aside fun is hLength => ?_))
    rw [← hLength] at hRoomYes
    refine (repeats_limited hRoomYes).bind ((repeats_drop 1).bind ((ihn hn).aside_after
      fun is' hLength' => ?_))
    rw [← hLength'] at hRoomNo
    exact (repeats_limited hRoomNo).after (repeats_emit _)
  | access e attr ih =>
    simp only [compileExpr, bind_ok] at h
    obtain ⟨_, s', he, _⟩ := h
    exact (ih he).bind ((repeats_loadConst (.str attr)).after (repeats_operate _ 1))
  | call f args ihf ihargs =>
    simp only [compileExpr, bind_ok, emit_ok, drop_ok, limited_ok] at h
    obtain ⟨_, s', hf, _, s'', hArgs, _, _, ⟨hRoom, rfl⟩, _, _, rfl, rfl⟩ := h
    exact (ihf hf).bind ((repeats_compileArgs ihargs hArgs).after
      ((repeats_limited hRoom).after (repeats_operate _ args.length)))
  | slice e start stop step ihe iha ihb ihc =>
    simp only [compileExpr, bind_ok, emit_ok, drop_ok] at h
    obtain ⟨_, s', he, _, sa, ha, _, sb, hb, _, sc, hc, _, _, rfl, rfl⟩ := h
    exact (ihe he).bind ((repeats_compileBound iha ha).bind ((repeats_compileBound ihb hb).bind
      ((repeats_compileBound ihc hc).after (repeats_operate _ 3))))

/-! ### Fragments -/

/-- No jump of `code` leads out of it. -/
def JumpsInside (code : List Instruction) : Prop :=
  ∀ (index : Nat) (i : Instruction) (offset : Nat), code[index]? = some i →
    i.offset? = some offset → index + 1 + offset ≤ code.length

theorem jumpsInside_codeIn {t : SymbolTable} (h : t.Knows e.operands) :
    JumpsInside (e.codeIn t) := by
  let c : Code := ⟨e.codeIn t, t, 0 + e.peak⟩
  have hFragment : Fragment c ⟨0, false⟩ ⟨1, false⟩ c.instructions c.maxStack :=
    Expr.fragment (c := c) 0 h
  exact (Code.wellFormed hFragment).jump

/-- From `s` to `s'`, the code of `e` is appended, and nothing else is changed that was there. -/
structure Appends (e : Expr) (s s' : State) : Prop where
  literal : ∀ id v, s.symbols.literal? id = some v → s'.symbols.literal? id = some v
  reference : ∀ id name, s.symbols.reference? id = some name →
    s'.symbols.reference? id = some name
  height : s'.height = s.height + 1
  /-- The compiler that emits in place overwrites nothing that was there at the start, and the
  height never falls below that at the start. -/
  in_place : Patching.compileExpr s.height s.code.length e s = .ok ((), s')
  /-- The code is that of a compiler that starts empty, with other numbers. -/
  placed : ∃ s₀ literal reference, compileExpr e .initial = .ok ((), s₀) ∧
    s₀.symbols.Renaming s'.symbols literal reference ∧
    s'.code = s.code ++ s₀.code.map (Instruction.rename literal reference) ∧
    JumpsInside s₀.code

variable {calls : List (Operand × Nat)}

/-- Compiling an expression only appends, from every state whose symbols were numbered one after the
other: any instructions may have been emitted, and any values may be on the stack. -/
theorem compileExpr_appends (hTable : History calls s.symbols)
    (h : compileExpr e s = .ok ((), s₁)) : Appends e s s₁ := by
  have hEmits := compileExpr_emits h
  -- An empty table takes the symbols of `e`, for the final table knows them all and is within the
  -- limit.
  have hSize : ∀ o, s₁.symbols.size o ≤ numberLimit :=
    (hTable.addAll (compileExpr_adds h) hEmits.knows).size_le
  obtain ⟨t, hAdd, hWithin⟩ := (within_empty s₁.symbols).addAll hEmits.knows hSize
  obtain ⟨s₀, hInitial, rfl⟩ := repeats_compileExpr h .initial t hAdd
  have hEmits₀ := compileExpr_emits hInitial
  have hCode : s₀.code = e.codeIn s₀.symbols := hEmits₀.code_eq
  refine ⟨?_, ?_, hEmits.height, ?_, s₀, _, _, hInitial, hWithin.renaming, ?_, ?_⟩
  · exact fun id v hId => hEmits.grows.literal?_eq hId
  · exact fun id name hId => hEmits.grows.reference?_eq hId
  · rw [Patching.mirrored e s ⟨Nat.le_refl _, Nat.le_refl _⟩, h]
    rfl
  · rw [hEmits.code_eq, hCode]
    exact congrArg (s.code ++ ·) (Expr.moved_codeIn hEmits₀.knows).symm
  · rw [hCode]
    exact jumpsInside_codeIn hEmits₀.knows

/-- The tree of `y || x.x`. -/
def orAttr : Expr := .connect .or (.reference "y") (.access (.reference "x") "x")

/-- The table that became of `1` and `x`. -/
def loadedSymbols : SymbolTable :=
  (SymbolTable.empty.addEach [.constant (.int 1), .name "x"]).2

/-- The state after the loads of `1` and `x`. -/
def loaded : State := ⟨loadedSymbols, [.loadConst 0, .loadRef 0], 2, 2⟩

/-- The state after the code of `y || x.x` is appended to it. -/
def loadedOrAttr : State where
  symbols := (loadedSymbols.addEach [.name "y", .constant (.str "x")]).2
  code := [.loadConst 0, .loadRef 0, .loadRef 1, .jumpIf true 4, .pop, .loadRef 0, .loadConst 1,
    .getAttr]
  height := 3
  maxHeight := 4

/-- The name `x` keeps its number, and the attribute `x` is a literal behind the `1`. -/
theorem compileExpr_appends_orAttr :
    compileExpr orAttr loaded = .ok ((), loadedOrAttr) ∧ Appends orAttr loaded loadedOrAttr := by
  have hTable : History [(.constant (.int 1), 0), (.name "x", 0)] loaded.symbols :=
    History.start.addEach [.constant (.int 1), .name "x"]
  exact ⟨rfl, compileExpr_appends hTable rfl⟩

end Compiler

end Formula
