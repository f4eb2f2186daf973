import Formula.Proofs.Code.Emission

/-! Code that is emitted in place. A jump is emitted before the code that it skips, so it is left
open, without an offset, and overwritten when its target is known. The compiler here does so, and
stops with a breach where it would overwrite anything but an open jump that it has emitted itself,
jump backward, or count fewer values on the stack than there were when it started. It never does: it
emits what the compiler emits that sets the skipped code aside. -/

namespace Formula.Compiler

open Steps

variable {α β : Type} {s : State}

namespace Patching

/-- What the compiler must never do. -/
inductive Breach where
  /-- To count fewer values on the stack than there were at the start. -/
  | underflow
  /-- To overwrite an instruction that was there at the start. -/
  | outside
  /-- To jump backward. -/
  | backward
  /-- To overwrite what is not an open jump. -/
  | closed
deriving DecidableEq

/-- Why nothing comes of a run. -/
inductive Stop where
  | error (e : CompileError)
  | breach (b : Breach)
deriving DecidableEq

/-- A step of the compiler that emits in place. -/
abbrev Patch := StateT State (Except Stop)

/-- A step that overwrites nothing and gives up no value. -/
def lift (m : Compile α) : Patch α := fun s => (m s).mapError .error

/-- The number of the next instruction. -/
def label : Patch Nat := fun s => .ok (s.code.length, s)

/-- Emits an open jump. -/
def placeholder (jump : Nat → Instruction) : Patch Nat := do
  let index ← label
  lift (emit [jump 0])
  return index

/-! In what follows, `floor` is the height of the stack at the start, and `start` the number of
instructions. -/

/-- Counts `n` values fewer on the stack. -/
def drop (floor n : Nat) : Patch Unit := fun s =>
  if floor + n ≤ s.height then .ok ((), { s with height := s.height - n })
  else .error (.breach .underflow)

/-- Overwrites the open jump number `index` with a jump to instruction number `target`. -/
def patch (start index target : Nat) (jump : Nat → Instruction) : Patch Unit := fun s =>
  if index < start then .error (.breach .outside)
  else if target ≤ index then .error (.breach .backward)
  else if s.code[index]? ≠ some (jump 0) then .error (.breach .closed)
  else if target - index - 1 < numberLimit then
    .ok ((), { s with code := s.code.set index (jump (target - index - 1)) })
  else .error (.error .jumpTooFar)

section

variable (floor start : Nat)

mutual

def compileExpr : Expr → Patch Unit
  | .literal l => lift (loadConst l.value)
  | .reference name => lift do
    emit [.loadRef (← reference name)]
    push
  | .unary op e => do
    compileExpr e
    lift (emit [.unary op])
  | .binary op l r => do
    compileExpr l
    compileExpr r
    lift (emit [.binary op])
    drop floor 1
  | .compare op l r => do
    compileExpr l
    compileExpr r
    lift (emit [.compare op])
    drop floor 1
  | .connect op l r => do
    compileExpr l
    let jump ← placeholder (.jumpIf (decisive op))
    lift (emit [.pop])
    drop floor 1
    compileExpr r
    patch start jump (← label) (.jumpIf (decisive op))
  | .ternary c y n => do
    compileExpr c
    let elseJump ← placeholder (.popJumpIf false)
    drop floor 1
    compileExpr y
    let endJump ← placeholder .jump
    patch start elseJump (← label) (.popJumpIf false)
    drop floor 1
    compileExpr n
    patch start endJump (← label) .jump
  | .access e attr => do
    compileExpr e
    lift (loadConst (.str attr))
    lift (emit [.getAttr])
    drop floor 1
  | .call callee args => do
    compileExpr callee
    compileArgs args
    lift (limited args.length .tooManyArguments)
    lift (emit [.call args.length])
    drop floor args.length
  | .item e key => do
    compileExpr e
    compileExpr key
    lift (emit [.getItem 1])
    drop floor 1
  | .slice e start stop step => do
    compileExpr e
    compileBound start
    compileBound stop
    compileBound step
    lift (emit [.getItem 3])
    drop floor 3

def compileArgs : List Expr → Patch Unit
  | [] => pure ()
  | e :: es => do
    compileExpr e
    compileArgs es

def compileBound : Option Expr → Patch Unit
  | none => lift (loadConst .none)
  | some e => compileExpr e

end

end

end Patching

/-! ### Instructions in front -/

/-- A state with more instructions in front. -/
def State.after (before : List Instruction) (s : State) : State :=
  { s with code := before ++ s.code }

/-- A step to which it does not matter which instructions have been emitted. -/
def Frames (m : Compile α) : Prop :=
  ∀ before s, m (s.after before) = (m s).map fun (a, s') => (a, s'.after before)

theorem Frames.bind {m : Compile α} {f : α → Compile β} (hm : Frames m) (hf : ∀ a, Frames (f a)) :
    Frames (m >>= f) := by
  intro before s
  show (m (s.after before) >>= fun p => f p.1 p.2) = Except.map _ (m s >>= fun p => f p.1 p.2)
  rw [hm before s]
  cases m s with
  | error e => rfl
  | ok p => exact hf p.1 before p.2

theorem frames_emit (is : List Instruction) : Frames (emit is) := by
  intro before s
  show Except.ok ((), State.mk _ (before ++ s.code ++ is) _ _) = _
  rw [List.append_assoc]
  rfl

theorem frames_push : Frames push := fun _ _ => rfl

theorem frames_drop (n : Nat) : Frames (drop n) := fun _ _ => rfl

theorem frames_literal (v : Value) : Frames (literal v) := by
  intro before s
  have hSymbols : (s.after before).symbols = s.symbols := rfl
  rw [literal, literal, hSymbols]
  rcases s.symbols.addLiteral v with ⟨e | id, symbols⟩ <;> rfl

theorem frames_reference (name : String) : Frames (reference name) := by
  intro before s
  have hSymbols : (s.after before).symbols = s.symbols := rfl
  rw [reference, reference, hSymbols]
  rcases s.symbols.addReference name with ⟨e | id, symbols⟩ <;> rfl

theorem frames_limited (n : Nat) (e : CompileError) : Frames (limited n e) := by
  intro before s
  unfold limited
  split <;> rfl

/-- What is set aside does not know what has been emitted. -/
theorem frames_aside (m : Compile Unit) : Frames (aside m) := by
  intro before s
  have hSame : { s.after before with code := [] } = { s with code := [] } := rfl
  unfold aside
  rw [hSame]
  cases m { s with code := [] } <;> rfl

theorem frames_loadConst (v : Value) : Frames (loadConst v) :=
  (frames_literal v).bind fun id => (frames_emit [.loadConst id]).bind fun _ => frames_push

/-- An instruction that takes `n` values more than it leaves. -/
theorem frames_operate (is : List Instruction) (n : Nat) :
    Frames (emit is >>= fun _ => drop n) :=
  (frames_emit is).bind fun _ => frames_drop n

theorem frames_compileArgs {args : List Expr} (ih : ∀ arg ∈ args, Frames (compileExpr arg)) :
    Frames (compileArgs args) := by
  induction args with
  | nil => exact fun _ _ => rfl
  | cons arg args ihArgs =>
    obtain ⟨ihFirst, ihRest⟩ := List.forall_mem_cons.mp ih
    exact ihFirst.bind fun _ => ihArgs ihRest

theorem frames_compileBound {bound? : Option Expr}
    (ih : ∀ bound ∈ bound?, Frames (compileExpr bound)) : Frames (compileBound bound?) := by
  cases bound? with
  | none => exact frames_loadConst .none
  | some bound => exact ih bound rfl

theorem frames_compileExpr (e : Expr) : Frames (compileExpr e) := by
  induction e with
  | literal l => exact frames_loadConst l.value
  | reference name =>
    exact (frames_reference name).bind fun id =>
      (frames_emit [.loadRef id]).bind fun _ => frames_push
  | unary op e ih => exact ih.bind fun _ => frames_emit _
  | binary op l r ihl ihr | compare op l r ihl ihr =>
    exact ihl.bind fun _ => ihr.bind fun _ => frames_operate _ 1
  | connect op l r ihl ihr =>
    exact ihl.bind fun _ => (frames_drop 1).bind fun _ => (frames_aside _).bind fun right =>
      (frames_limited _ _).bind fun _ => frames_emit _
  | ternary c y n ihc ihy ihn =>
    exact ihc.bind fun _ => (frames_drop 1).bind fun _ => (frames_aside _).bind fun yes =>
      (frames_limited _ _).bind fun _ => (frames_drop 1).bind fun _ =>
        (frames_aside _).bind fun no => (frames_limited _ _).bind fun _ => frames_emit _
  | access e attr ih =>
    exact ih.bind fun _ => (frames_loadConst _).bind fun _ => frames_operate _ 1
  | call f args ihf ihargs =>
    exact ihf.bind fun _ => (frames_compileArgs ihargs).bind fun _ =>
      (frames_limited _ _).bind fun _ => frames_operate _ _
  | item e key ihe ihkey => exact ihe.bind fun _ => ihkey.bind fun _ => frames_operate _ 1
  | slice e start stop step ihe iha ihb ihc =>
    exact ihe.bind fun _ => (frames_compileBound iha).bind fun _ =>
      (frames_compileBound ihb).bind fun _ => (frames_compileBound ihc).bind fun _ =>
        frames_operate _ 3

/-- Compiling appends what is emitted from no instructions. -/
theorem compileExpr_bare (e : Expr) (s : State) :
    compileExpr e s =
      (compileExpr e { s with code := [] }).map fun (u, s') => (u, s'.after s.code) := by
  have hFrames := frames_compileExpr e s.code { s with code := [] }
  have hSame : ({ s with code := [] } : State).after s.code = s := by
    rw [State.after, List.append_nil]
  rwa [hSame] at hFrames

/-! ### Runs that agree -/

namespace Patching

variable {floor start : Nat}

/-- What comes of a run that emits in place is what comes of one that sets code aside, and no
breach. -/
def Mirrors (s : State) (p : Patch α) (m : Compile α) : Prop :=
  p s = (m s).mapError .error

theorem Mirrors.bind {p : Patch α} {m : Compile α} {f : α → Patch β} {g : α → Compile β}
    (h : Mirrors s p m) (hNext : ∀ a s₁, m s = .ok (a, s₁) → Mirrors s₁ (f a) (g a)) :
    Mirrors s (p >>= f) (m >>= g) := by
  show (p s >>= fun r => f r.1 r.2) = (m s >>= fun r => g r.1 r.2).mapError .error
  rw [h]
  cases hRun : m s with
  | error e => rfl
  | ok r => exact hNext r.1 r.2 hRun

theorem mirrors_lift (m : Compile α) : Mirrors s (lift m) m := rfl

theorem mirrors_drop {n : Nat} (h : floor + n ≤ s.height) :
    Mirrors s (drop floor n) (Compiler.drop n) :=
  if_pos h

/-- An instruction that takes `n` values more than it leaves. -/
theorem mirrors_operate (is : List Instruction) {n : Nat} (h : floor + n ≤ s.height) :
    Mirrors s (lift (emit is) >>= fun _ => drop floor n)
      (emit is >>= fun _ => Compiler.drop n) := by
  refine (mirrors_lift (emit is)).bind fun _ s₁ hEmit => mirrors_drop ?_
  rw [emit_ok.mp hEmit]
  exact h

/-- A state with at least `floor` values on the stack and `start` instructions. -/
structure Above (floor start : Nat) (s : State) : Prop where
  height : floor ≤ s.height
  code : start ≤ s.code.length

theorem Above.weaken {n : Nat} (h : Above (floor + n) start s) : Above floor start s :=
  ⟨Nat.le_of_add_right_le h.height, h.code⟩

theorem Above.emits {s₁ : State} {operands : List Operand}
    {code : SymbolTable → List Instruction} {rise peak : Nat} (h : Above floor start s)
    (hEmits : Emits s s₁ operands code rise peak) : Above (floor + rise) start s₁ where
  height := by
    rw [hEmits.height]
    exact Nat.add_le_add_right h.height rise
  code := by
    rw [hEmits.code_eq, List.length_append]
    exact Nat.le_add_right_of_le h.code

/-- The code of `e` that is emitted in place is that of the compiler, wherever it is emitted. -/
def Mirrored (floor start : Nat) (e : Expr) : Prop :=
  ∀ s, Above floor start s → Mirrors s (compileExpr floor start e) (Compiler.compileExpr e)

section Bind

variable {symbols : SymbolTable} {code : List Instruction} {height maxHeight : Nat}
  {jump : Nat → Instruction}

theorem placeholder_bind {f : Nat → Patch α} :
    (placeholder jump >>= f) ⟨symbols, code, height, maxHeight⟩ =
      f code.length ⟨symbols, code ++ [jump 0], height, maxHeight⟩ := rfl

theorem lift_emit_bind {is : List Instruction} {f : Unit → Patch α} :
    (lift (emit is) >>= f) ⟨symbols, code, height, maxHeight⟩ =
      f () ⟨symbols, code ++ is, height, maxHeight⟩ := rfl

theorem drop_bind {n : Nat} {f : Unit → Patch α} (h : floor + n ≤ height) :
    (drop floor n >>= f) ⟨symbols, code, height, maxHeight⟩ =
      f () ⟨symbols, code, height - n, maxHeight⟩ :=
  bind_eq (if_pos h)

/-- An open jump gets the number of the instructions after it as its offset. -/
theorem patch_open {before rest : List Instruction} (hStart : start ≤ before.length) :
    (label >>= fun target => patch start before.length target jump)
        ⟨symbols, before ++ jump 0 :: rest, height, maxHeight⟩ =
      if rest.length < numberLimit then
        .ok ((), ⟨symbols, before ++ jump rest.length :: rest, height, maxHeight⟩)
      else .error (.error .jumpTooFar) := by
  have hLength : (before ++ jump 0 :: rest).length = before.length + 1 + rest.length := by
    rw [List.length_append, List.length_cons]
    omega
  have hOpen : (before ++ jump 0 :: rest)[before.length]? = some (jump 0) := by simp
  have hOffset : before.length + 1 + rest.length - before.length - 1 = rest.length := by omega
  have hSet : (before ++ jump 0 :: rest).set before.length (jump rest.length) =
      before ++ jump rest.length :: rest := by simp
  show patch start before.length (before ++ jump 0 :: rest).length jump _ = _
  rw [hLength, patch, if_neg (by omega), if_neg (by omega), if_neg (not_not_intro hOpen), hOffset,
    hSet]

theorem patch_open_bind {before rest : List Instruction} {f : Unit → Patch α}
    (hStart : start ≤ before.length) :
    (label >>= fun target => patch start before.length target jump >>= f)
        ⟨symbols, before ++ jump 0 :: rest, height, maxHeight⟩ =
      if rest.length < numberLimit then
        f () ⟨symbols, before ++ jump rest.length :: rest, height, maxHeight⟩
      else .error (.error .jumpTooFar) := by
  rw [← bind_assoc]
  by_cases hRoom : rest.length < numberLimit
  · rw [if_pos hRoom, bind_eq ((patch_open hStart).trans (if_pos hRoom))]
  · rw [if_neg hRoom, bind_error.mpr (.inl ((patch_open hStart).trans (if_neg hRoom)))]

theorem counted_bind {n : Nat} {f : Unit → Compile α} :
    (Compiler.drop n >>= f) ⟨symbols, code, height, maxHeight⟩ =
      f () ⟨symbols, code, height - n, maxHeight⟩ := rfl

theorem limited_bind {n : Nat} {e : CompileError} {f : Unit → Compile α} {s : State} :
    (limited n e >>= f) s = if n < numberLimit then f () s else .error e := by
  unfold limited
  split <;> rfl

/-- An expression whose code is emitted after `is`, or set aside. -/
theorem nested_bind {e : Expr} (he : Mirrored floor start e) {is : List Instruction}
    {f : Unit → Patch α} {g : List Instruction → Compile α} (hFloor : floor ≤ height)
    (hStart : start ≤ is.length)
    (hNext : ∀ symbols' added height' maxHeight',
      Compiler.compileExpr e ⟨symbols, [], height, maxHeight⟩ =
        .ok ((), ⟨symbols', added, height', maxHeight'⟩) →
      f () ⟨symbols', is ++ added, height', maxHeight'⟩ =
        (g added ⟨symbols', code, height', maxHeight'⟩).mapError .error) :
    (compileExpr floor start e >>= f) ⟨symbols, is, height, maxHeight⟩ =
      ((aside (Compiler.compileExpr e) >>= g) ⟨symbols, code, height, maxHeight⟩).mapError
        .error := by
  have hPatched := (he ⟨symbols, is, height, maxHeight⟩ ⟨hFloor, hStart⟩).trans
    (congrArg (Except.mapError Stop.error) (compileExpr_bare e _))
  cases hRun : Compiler.compileExpr e ⟨symbols, [], height, maxHeight⟩ with
  | error fault =>
    rw [hRun] at hPatched
    have hAside : aside (Compiler.compileExpr e) ⟨symbols, code, height, maxHeight⟩ =
        .error fault := by
      rw [aside, hRun]
    rw [bind_error.mpr (.inl hPatched), bind_error.mpr (.inl hAside)]
    rfl
  | ok p =>
    obtain ⟨_, ⟨symbols', added, height', maxHeight'⟩⟩ := p
    rw [hRun] at hPatched
    rw [bind_eq hPatched, bind_eq (aside_ok.mpr ⟨_, hRun, rfl, rfl⟩)]
    exact hNext symbols' added height' maxHeight' hRun

theorem mirrors_connect {on : Bool} {r : Expr} (hr : Mirrored floor start r)
    (hFloor : floor + 1 ≤ height) (hStart : start ≤ code.length) :
    Mirrors ⟨symbols, code, height, maxHeight⟩
      (do
        let jump ← placeholder (.jumpIf on)
        lift (emit [.pop])
        drop floor 1
        compileExpr floor start r
        patch start jump (← label) (.jumpIf on))
      (do
        Compiler.drop 1
        let right ← aside (Compiler.compileExpr r)
        limited (right.length + 1) .jumpTooFar
        emit ([.jumpIf on (right.length + 1), .pop] ++ right)) := by
  rw [Mirrors, placeholder_bind, lift_emit_bind, drop_bind hFloor, counted_bind]
  refine nested_bind hr (by omega) ?_ fun symbols' right height' maxHeight' _ => ?_
  · simp only [List.length_append]
    omega
  · rw [List.append_assoc, List.append_assoc, List.singleton_append, List.singleton_append,
      patch_open hStart, limited_bind, List.length_cons]
    split <;> rfl

theorem mirrors_ternary {y n : Expr} (hy : Mirrored floor start y) (hn : Mirrored floor start n)
    (hFloor : floor + 1 ≤ height) (hStart : start ≤ code.length) :
    Mirrors ⟨symbols, code, height, maxHeight⟩
      (do
        let elseJump ← placeholder (.popJumpIf false)
        drop floor 1
        compileExpr floor start y
        let endJump ← placeholder .jump
        patch start elseJump (← label) (.popJumpIf false)
        drop floor 1
        compileExpr floor start n
        patch start endJump (← label) .jump)
      (do
        Compiler.drop 1
        let yes ← aside (Compiler.compileExpr y)
        limited (yes.length + 1) .jumpTooFar
        Compiler.drop 1
        let no ← aside (Compiler.compileExpr n)
        limited no.length .jumpTooFar
        emit ([.popJumpIf false (yes.length + 1)] ++ yes ++ [.jump no.length] ++ no)) := by
  rw [Mirrors, placeholder_bind, drop_bind hFloor, counted_bind]
  refine nested_bind hy (by omega) ?_ fun symbols₁ yes height₁ maxHeight₁ hYes => ?_
  · simp only [List.length_append]
    omega
  have hHeight : height₁ = height - 1 + 1 := (compileExpr_emits hYes).height
  -- The jump over the second branch is still open when the one to it is closed.
  have hElse : code ++ [Instruction.popJumpIf false 0] ++ yes ++ [.jump 0] =
      code ++ Instruction.popJumpIf false 0 :: (yes ++ [.jump 0]) := by simp
  rw [placeholder_bind, hElse, patch_open_bind hStart, limited_bind, List.length_append,
    List.length_singleton]
  split
  case isFalse => rfl
  rw [drop_bind (by omega), counted_bind]
  refine nested_bind hn (by omega) ?_ fun symbols₂ no height₂ maxHeight₂ _ => ?_
  · simp only [List.length_append]
    omega
  have hEnd : code ++ Instruction.popJumpIf false (yes.length + 1) :: (yes ++ [.jump 0]) ++ no =
      (code ++ Instruction.popJumpIf false (yes.length + 1) :: yes) ++ .jump 0 :: no := by simp
  have hIndex : (code ++ [Instruction.popJumpIf false 0] ++ yes).length =
      (code ++ Instruction.popJumpIf false (yes.length + 1) :: yes).length := by
    simp only [List.length_append, List.length_cons, List.length_nil]
    omega
  have hStart' : start ≤ (code ++ Instruction.popJumpIf false (yes.length + 1) :: yes).length := by
    rw [List.length_append]
    omega
  rw [hEnd, hIndex, patch_open hStart', limited_bind]
  split
  case isFalse => rfl
  have hWhole : (code ++ Instruction.popJumpIf false (yes.length + 1) :: yes) ++
      .jump no.length :: no = code ++ ([Instruction.popJumpIf false (yes.length + 1)] ++ yes ++
        [.jump no.length] ++ no) := by simp
  rw [hWhole]
  rfl

end Bind

variable {s₁ : State}

theorem Above.compileExpr {e : Expr} (h : Above floor start s)
    (hRun : Compiler.compileExpr e s = .ok ((), s₁)) : Above (floor + 1) start s₁ :=
  h.emits (compileExpr_emits hRun)

theorem Above.compileBound {bound? : Option Expr} (h : Above floor start s)
    (hRun : Compiler.compileBound bound? s = .ok ((), s₁)) : Above (floor + 1) start s₁ :=
  h.emits (compileBound_emits (fun _ _ => compileExpr_emits) hRun)

theorem mirrors_compileArgs {args : List Expr} (ih : ∀ arg ∈ args, Mirrored floor start arg)
    (h : Above floor start s) :
    Mirrors s (compileArgs floor start args) (Compiler.compileArgs args) := by
  induction args generalizing s with
  | nil => rfl
  | cons arg args ihArgs =>
    obtain ⟨ihFirst, ihRest⟩ := List.forall_mem_cons.mp ih
    exact (ihFirst s h).bind fun _ s₁ hRun => ihArgs ihRest (h.compileExpr hRun).weaken

theorem mirrors_compileBound {bound? : Option Expr}
    (ih : ∀ bound ∈ bound?, Mirrored floor start bound) (h : Above floor start s) :
    Mirrors s (compileBound floor start bound?) (Compiler.compileBound bound?) := by
  cases bound? with
  | none => exact mirrors_lift _
  | some bound => exact ih bound rfl s h

theorem mirrored (e : Expr) : Mirrored floor start e := by
  induction e with
  | literal l => exact fun _ _ => mirrors_lift _
  | reference name => exact fun _ _ => mirrors_lift _
  | unary op e ih => exact fun s h => (ih s h).bind fun _ _ _ => mirrors_lift _
  | binary op l r ihl ihr | compare op l r ihl ihr | item l r ihl ihr =>
    intro s h
    refine (ihl s h).bind fun _ s₁ hl => ?_
    have hLeft := h.compileExpr hl
    refine (ihr s₁ hLeft.weaken).bind fun _ s₂ hr => mirrors_operate _ ?_
    exact (hLeft.compileExpr hr).weaken.height
  | connect op l r ihl ihr =>
    intro s h
    refine (ihl s h).bind fun _ s₁ hl => ?_
    exact mirrors_connect ihr (h.compileExpr hl).height (h.compileExpr hl).code
  | ternary c y n ihc ihy ihn =>
    intro s h
    refine (ihc s h).bind fun _ s₁ hc => ?_
    exact mirrors_ternary ihy ihn (h.compileExpr hc).height (h.compileExpr hc).code
  | access e attr ih =>
    intro s h
    refine (ih s h).bind fun _ s₁ he => (mirrors_lift _).bind fun _ s₂ hAttr =>
      mirrors_operate _ ?_
    exact ((h.compileExpr he).emits (loadConst_emits rfl hAttr)).weaken.height
  | call f args ihf ihargs =>
    intro s h
    refine (ihf s h).bind fun _ s₁ hf =>
      (mirrors_compileArgs ihargs (h.compileExpr hf).weaken).bind fun _ s₂ hArgs =>
        (mirrors_lift _).bind fun _ s₃ hLimited => mirrors_operate _ ?_
    obtain ⟨-, rfl⟩ := limited_ok.mp hLimited
    have hArgs := compileArgs_emits (fun _ _ => compileExpr_emits) (compileExpr_emits hf) hArgs
    have hHeight := (h.emits hArgs).height
    omega
  | slice e a b c ihe iha ihb ihc =>
    intro s h
    refine (ihe s h).bind fun _ s₁ he => ?_
    have h₁ := h.compileExpr he
    refine (mirrors_compileBound iha h₁.weaken).bind fun _ s₂ ha => ?_
    have h₂ := h₁.compileBound ha
    refine (mirrors_compileBound ihb h₂.weaken.weaken).bind fun _ s₃ hb => ?_
    have h₃ := h₂.compileBound hb
    refine (mirrors_compileBound ihc h₃.weaken.weaken.weaken).bind fun _ s₄ hc => ?_
    exact mirrors_operate _ (Nat.le_of_succ_le (h₃.compileBound hc).height)

end Patching

end Formula.Compiler
