import Formula.Proofs.Parser.Height
import Formula.Proofs.Parser.Lookahead

/-! How many readers of the grammar are ever nested inside one another. In a metered run a reader
takes a unit from those of the reader that calls it, and gives up when there is none. Eleven units
for each level of the limit and one more are enough for every run of the parser, and one unit less
is not. A rung hands on one unit less than it has, and a ternary is reached again only below all
rungs, so a level of nesting takes eleven units; every other way back up the rungs takes a level and
fewer units. -/

namespace Formula.Parser

open Token

/-! ### Metered runs -/

/-- The units that are left for calls, and the fault of a call for which there is none. -/
structure Meter where
  stop : Fault
  units : Nat

/-- A step of a metered run. -/
abbrev Metered := ReaderT Meter Parse

instance : SmallSteps Metered where
  peek _ := peek
  left _ := left
  advance _ := advance
  expect what _ := expect what
  fulfil _ := fulfil
  enter limit _ := enter limit
  leave links _ := leave links
  fail _ := fail
  tooDeep _ := tooDeep
  noKey _ := noKey
  called reader meter :=
    match meter.units with
    | 0 => fun _ => .error meter.stop
    | units + 1 => reader () { meter with units }

/-- The expression that tokens of the given kinds form, with at most `limit` levels of nesting and
at most `units` calls of readers inside one another. A call too many fails with `stop`. The readers
count down from `levels`. -/
def Metered.parse (stop : Fault) (limit levels units : Nat) (kinds : List Kind) :
    Except Fault Expr :=
  ((complete limit levels : Metered Expr) ⟨stop, units⟩ ⟨kinds, 0, 0, []⟩).map (·.1)

/-! ### Runs with few levels left -/

variable {α β : Type} {limit n m k units : Nat} {stop : Fault} {meter : Meter}

/-- Where at most `n` levels are left, the metered run `q` does what `p` does, and both give back
`k` levels. -/
def Alike (limit n k : Nat) (meter : Meter) {α : Type} (p : Parse α) (q : Metered α) : Prop :=
  ∀ s, limit - s.depth ≤ n →
    q meter s = p s ∧ ∀ a s', p s = .ok (a, s') → s'.depth = s.depth - k

theorem Alike.mono {p : Parse α} {q : Metered α} (h : Alike limit n k meter p q) (hm : m ≤ n) :
    Alike limit m k meter p q :=
  fun s hs => h s (hs.trans hm)

/-- What does not look at the meter. -/
theorem Gives.alike {p : Parse α} (h : ∀ m, Gives limit m k (fun _ => True) p) :
    Alike limit n k meter p fun _ => p :=
  fun s _ => ⟨rfl, fun a s' hRun => (h _ s a s' rfl hRun).1⟩

theorem Alike.bind {p : Parse α} {q : Metered α} {f : α → Parse β} {g : α → Metered β}
    (h : Alike limit n 0 meter p q) (hNext : ∀ a, Alike limit n k meter (f a) (g a)) :
    Alike limit n k meter (p >>= f) (q >>= g) := by
  intro s hs
  obtain ⟨hSame, hDepth⟩ := h s hs
  have hLevels : ∀ a s₁, p s = .ok (a, s₁) → limit - s₁.depth ≤ n := by
    intro a s₁ hRun
    rw [hDepth a s₁ hRun]
    exact hs
  constructor
  · show (q meter >>= fun a => g a meter) s = _
    exact (Steps.bind_congr_left hSame).trans
      (Steps.bind_congr fun a s₁ hRun => (hNext a s₁ (hLevels a s₁ hRun)).1)
  · intro b s' hRun
    obtain ⟨a, s₁, hFirst, hSecond⟩ := Steps.bind_ok.mp hRun
    rw [(hNext a s₁ (hLevels a s₁ hFirst)).2 b s' hSecond, hDepth a s₁ hFirst, Nat.sub_zero]

theorem alike_congruence (limit n : Nat) (meter : Meter) :
    Congruence (@Alike limit n 0 meter) where
  pure _ := Gives.alike fun _ => gives_pure trivial
  fail := Gives.alike fun _ => gives_fail
  noKey := Gives.alike fun _ => gives_fail
  peek := Gives.alike fun _ => gives_peek
  advance := Gives.alike fun _ => gives_advance
  expect what := Gives.alike fun _ => gives_expect what
  fulfil := Gives.alike fun _ => gives_fulfil
  bind := Alike.bind

/-- A call takes a unit. -/
theorem alike_calls : Calls (@Alike limit n 0 ⟨stop, units⟩) (@Alike limit n 0 ⟨stop, units + 1⟩) :=
  fun h => h

theorem alike_left : Alike limit n 0 meter left left :=
  Gives.alike fun _ => gives_left

theorem alike_leave (links : Nat) (e : Expr) :
    Alike limit n links meter (leave links >>= fun _ => pure e)
      (leave links >>= fun _ => pure e) :=
  Gives.alike fun _ => gives_leave trivial links

theorem enter_bind_full {f : Unit → Parse α} {rest : List Kind} {position depth : Nat}
    {pending : List Expectation} (h : limit ≤ depth) :
    (enter limit >>= f) ⟨rest, position, depth, pending⟩ = .error (.tooDeep position) := by
  have hDepth : ¬depth + 1 ≤ limit := by omega
  exact Steps.bind_error.mpr (.inl (if_neg hDepth))

theorem Alike.ite {p p' : Parse α} {q q' : Metered α} (c : Bool) (ht : Alike limit n k meter p q)
    (hf : Alike limit n k meter p' q') :
    Alike limit n k meter (if c then p else p') (if c then q else q') :=
  related_ite (R := @Alike limit n k meter) c ht hf

/-- Without a level left both fail, and otherwise they go on with one level less. -/
theorem alike_enter {f : Unit → Parse α} {g : Unit → Metered α}
    (h : ∀ m, n = m + 1 → Alike limit m (k + 1) meter (f ()) (g ())) :
    Alike limit n k meter (enter limit >>= f) (enter limit >>= g) := by
  rintro ⟨rest, position, depth, pending⟩ hs
  replace hs : limit - depth ≤ n := hs
  show (enter limit >>= fun a => g a meter : Parse α) _ = _ ∧ _
  by_cases hDepth : depth + 1 ≤ limit
  · rw [enter_bind hDepth, enter_bind hDepth]
    obtain ⟨m, rfl⟩ : ∃ m, n = m + 1 := ⟨n - 1, by omega⟩
    obtain ⟨hSame, hAfter⟩ := h m rfl ⟨rest, position, depth + 1, pending⟩
      (show limit - (depth + 1) ≤ m by omega)
    refine ⟨hSame, fun a s' hRun => ?_⟩
    rw [hAfter a s' hRun]
    exact Nat.add_sub_add_right depth 1 k
  · rw [enter_bind_full (by omega), enter_bind_full (by omega)]
    exact ⟨rfl, by rintro _ _ ⟨⟩⟩

/-! ### Loops -/

theorem alike_looped {ι : Type} {step : (ι → Parse Expr) → ι → Parse Expr}
    {step' : (ι → Metered Expr) → ι → Metered Expr} (links : ι → Nat)
    (hStep : ∀ m ≤ n, ∀ {next next'},
      (∀ l, m = l + 1 → ∀ i, Alike limit l (links i) meter (next i) (next' i)) →
      ∀ i, Alike limit m (links i) meter (step next i) (step' next' i))
    {levels levels' : Nat} (hLevels : n ≤ levels) (hLevels' : n ≤ levels') (i : ι) :
    Alike limit n (links i) meter (looped step levels i) (looped step' levels' i) := by
  induction n generalizing levels levels' i with
  | zero =>
    -- Neither loop comes to what it does next.
    have hNone : ∀ {next : ι → Parse Expr} {next' : ι → Metered Expr}, ∀ l, 0 = l + 1 →
        ∀ i, Alike limit l (links i) meter (next i) (next' i) := nofun
    cases levels <;> cases levels' <;> exact hStep 0 (Nat.le_refl 0) hNone i
  | succ n ih =>
    obtain ⟨l, rfl⟩ : ∃ l, levels = l + 1 := ⟨levels - 1, by omega⟩
    obtain ⟨l', rfl⟩ : ∃ l', levels' = l' + 1 := ⟨levels' - 1, by omega⟩
    refine hStep (n + 1) (Nat.le_refl _) (fun m hm i => ?_) i
    obtain rfl : n = m := Nat.succ.inj hm
    exact ih (fun m hm => hStep m (Nat.le_succ_of_le hm)) (Nat.le_of_succ_le_succ hLevels)
      (Nat.le_of_succ_le_succ hLevels') i

variable {nested operand : Parse Expr} {nested' operand' : Metered Expr} {levels levels' : Nat}

theorem alike_chainStep {op : Type} {op? : Symbol → Option op} {join : op → Expr → Expr → Expr}
    {next : Expr → Nat → Parse Expr} {next' : Expr → Nat → Metered Expr}
    (hOperand : Alike limit n 0 meter operand operand')
    (hNext : ∀ m, n = m + 1 → ∀ e links, Alike limit m links meter (next e links) (next' e links))
    (left : Expr) (links : Nat) :
    Alike limit n links meter (chainStep limit op? join operand next left links)
      (chainStep limit op? join operand' next' left links) := by
  refine (alike_congruence limit n meter).peekSymbol.bind fun symbol? => ?_
  cases symbol?.bind op? with
  | none => exact alike_leave links left
  | some o =>
    refine (alike_congruence limit n meter).advance.bind fun _ => alike_enter fun m hm => ?_
    have hR := alike_congruence limit m meter
    exact (hR.expect .expression).bind fun _ => (hOperand.mono (by omega)).bind fun right =>
      hR.fulfil.bind fun _ => hNext m hm (join o left right) (links + 1)

theorem alike_chain {op : Type} {op? : Symbol → Option op} {join : op → Expr → Expr → Expr}
    (hOperand : Alike limit n 0 meter operand operand') (hLevels : n ≤ levels)
    (hLevels' : n ≤ levels') :
    Alike limit n 0 meter (chain limit levels op? join operand)
      (chain limit levels' op? join operand') := by
  refine hOperand.bind fun left => ?_
  rw [chainFrom_eq_looped, chainFrom_eq_looped]
  exact alike_looped (fun i : Expr × Nat => i.2)
    (fun m hm _ _ hNext i => alike_chainStep (hOperand.mono hm)
      (fun l hl e links => hNext l hl (e, links)) i.1 i.2) hLevels hLevels' (left, 0)

theorem alike_call (hNested : Alike limit n 0 ⟨stop, units⟩ nested nested') (e : Expr) :
    Alike limit n 0 ⟨stop, units + 1⟩ (call nested e) (call nested' e) := by
  have hR := alike_congruence limit n ⟨stop, units⟩
  refine hR.call alike_calls e (hNested.bind fun first => alike_left.bind fun count => ?_)
  exact (hR.moreArgs hNested count).bind fun others =>
    (hR.require .rightParen).bind fun _ => hR.pure _

theorem alike_postfixStep {next : Expr → Nat → Parse Expr} {next' : Expr → Nat → Metered Expr}
    (hNested : Alike limit n 0 ⟨stop, units⟩ nested nested')
    (hNext : ∀ m, n = m + 1 → ∀ e links,
      Alike limit m links ⟨stop, units + 1⟩ (next e links) (next' e links))
    (operand : Expr) (links : Nat) :
    Alike limit n links ⟨stop, units + 1⟩ (postfixStep limit nested next operand links)
      (postfixStep limit nested' next' operand links) := by
  have hR := alike_congruence limit n ⟨stop, units⟩
  have hStop : Alike limit n links ⟨stop, units + 1⟩ (leave links >>= fun _ => pure operand)
      (leave links >>= fun _ => pure operand) := alike_leave links operand
  have hLink : ∀ {p : Parse Expr} {q : Metered Expr}, Alike limit n 0 ⟨stop, units + 1⟩ p q →
      Alike limit n links ⟨stop, units + 1⟩ (do enter limit; next (← p) (links + 1))
        (do enter limit; next' (← q) (links + 1)) := fun hp =>
    alike_enter fun m hm => (hp.mono (by omega)).bind fun e => hNext m hm e (links + 1)
  refine (alike_congruence limit n _).peekSymbol.bind fun symbol? => ?_
  cases symbol? with
  | none => exact hStop
  | some symbol =>
    cases symbol with
    | dot => exact hLink (hR.accessor alike_calls operand)
    | leftBracket => exact hLink (hR.index hNested alike_calls operand)
    | leftParen => exact hLink (alike_call hNested operand)
    | _ => exact hStop

theorem alike_postfixFrom (hNested : Alike limit n 0 ⟨stop, units⟩ nested nested')
    (hLevels : n ≤ levels) (hLevels' : n ≤ levels') (operand : Expr) :
    Alike limit n 0 ⟨stop, units + 1⟩ (postfixFrom limit nested levels operand 0)
      (postfixFrom limit nested' levels' operand 0) := by
  rw [postfixFrom_eq_looped, postfixFrom_eq_looped]
  exact alike_looped (fun i : Expr × Nat => i.2)
    (fun m hm _ _ hNext i => alike_postfixStep (hNested.mono hm)
      (fun l hl e links => hNext l hl (e, links)) i.1 i.2) hLevels hLevels' (operand, 0)

theorem alike_powerStep {exponent : Parse Expr} {exponent' : Metered Expr}
    (hBase : Alike limit n 0 meter operand operand')
    (hExponent : ∀ m, n = m + 1 → Alike limit m 0 meter exponent exponent') :
    Alike limit n 0 meter (powerStep limit operand exponent)
      (powerStep limit operand' exponent') := by
  have hR := alike_congruence limit n meter
  refine hBase.bind fun left => (hR.eat .doubleStar).bind fun found =>
    .ite found (alike_enter fun m hm => ?_) (hR.pure left)
  have hBelow := alike_congruence limit m meter
  exact (hBelow.expect .expression).bind fun _ => (hExponent m hm).bind fun right =>
    hBelow.fulfil.bind fun _ => alike_leave 1 _

theorem alike_ternaryStep {condition : Parse Expr} {condition' : Metered Expr}
    (hCondition : ∀ m, n = m + 1 → Alike limit m 0 meter condition condition')
    (hNested : ∀ m, n = m + 1 → Alike limit m 0 meter nested nested') :
    Alike limit n 0 meter (ternaryStep limit condition nested)
      (ternaryStep limit condition' nested') := by
  refine alike_enter fun m hm => ?_
  have hR := alike_congruence limit m meter
  refine (hCondition m hm).bind fun cond => (hR.eat .question).bind fun found =>
    .ite found ?_ (alike_leave 1 cond)
  exact (hR.expect .expression).bind fun _ => (hNested m hm).bind fun yes =>
    (hR.expect .colon).bind fun _ => (hR.require .colon).bind fun _ =>
      (hNested m hm).bind fun no => hR.fulfil.bind fun _ => alike_leave 1 _

/-! ### Units -/

/-- With at most `n` levels left, eleven units for each of them and `r` more are enough for `q` to
do what `p` does. -/
def Covers (stop : Fault) (limit n r : Nat) (p : Parse Expr) (q : Metered Expr) : Prop :=
  ∀ m ≤ n, ∀ units, 11 * m + r ≤ units → Alike limit m 0 ⟨stop, units⟩ p q

/-- What a call needs is one unit more than what is called needs. -/
theorem covers_called {r : Nat} {p : Parse Expr} {q : Metered Expr}
    (h : ∀ m ≤ n, ∀ units, 11 * m + r ≤ units → Alike limit m 0 ⟨stop, units + 1⟩ p q) :
    Covers stop limit n (r + 1) p q := by
  intro m hm units hUnits
  obtain ⟨u, rfl⟩ : ∃ u, units = u + 1 := ⟨units - 1, by omega⟩
  exact h m hm u (by omega)

section Rungs

theorem covers_chain {r : Nat} {op : Type} {op? : Symbol → Option op}
    {join : op → Expr → Expr → Expr} (hOperand : Covers stop limit n r operand operand')
    (hLevels : n ≤ levels) (hLevels' : n ≤ levels') :
    Covers stop limit n (r + 1) (called fun _ => chain limit levels op? join operand)
      (called fun _ => chain limit levels' op? join operand') :=
  covers_called fun m hm units hUnits =>
    alike_calls (alike_chain (hOperand m hm units hUnits) (hm.trans hLevels) (hm.trans hLevels'))

variable (hNested : Covers stop limit n 1 nested nested') (hLevels : n ≤ levels)
  (hLevels' : n ≤ levels')
include hNested hLevels hLevels'

theorem covers_postfixed :
    Covers stop limit n 3 (postfixed limit levels nested) (postfixed limit levels' nested') := by
  refine covers_called fun m hm units hUnits => ?_
  obtain ⟨u, rfl⟩ : ∃ u, units = u + 1 := ⟨units - 1, by omega⟩
  have hInner := hNested m hm u (by omega)
  refine alike_calls (Alike.bind ?_ fun operand => ?_)
  · exact (alike_congruence limit m _).primary hInner alike_calls
  · exact alike_postfixFrom hInner (hm.trans hLevels) (hm.trans hLevels') operand

theorem covers_power :
    Covers stop limit n 4 (power limit levels nested) (power limit levels' nested') := by
  have hBase := covers_postfixed hNested hLevels hLevels'
  unfold power
  generalize postfixed limit levels nested = base, postfixed limit levels' nested' = base' at hBase
  intro m hm
  replace hLevels := hm.trans hLevels
  replace hLevels' := hm.trans hLevels'
  -- A power on the right takes one unit and one level, so it has units to spare.
  induction m generalizing levels levels' with
  | zero =>
    intro units hUnits
    obtain ⟨u, rfl⟩ : ∃ u, units = u + 1 := ⟨units - 1, by omega⟩
    cases levels <;> cases levels' <;>
      exact alike_calls (alike_powerStep (hBase 0 hm u (by omega)) nofun)
  | succ m ih =>
    intro units hUnits
    obtain ⟨u, rfl⟩ : ∃ u, units = u + 1 := ⟨units - 1, by omega⟩
    obtain ⟨l, rfl⟩ : ∃ l, levels = l + 1 := ⟨levels - 1, by omega⟩
    obtain ⟨l', rfl⟩ : ∃ l', levels' = l' + 1 := ⟨levels' - 1, by omega⟩
    refine alike_calls (alike_powerStep (hBase (m + 1) hm u (by omega)) fun m' hm' => ?_)
    obtain rfl : m = m' := Nat.succ.inj hm'
    exact ih (by omega) (by omega) (by omega) u (by omega)

theorem covers_unary :
    Covers stop limit n 5 (unary limit levels nested) (unary limit levels' nested') :=
  covers_called fun m hm units hUnits => (alike_congruence limit m _).unary alike_calls
    (covers_power hNested hLevels hLevels' m hm units hUnits)

theorem covers_comparison :
    Covers stop limit n 8 (comparison limit levels nested) (comparison limit levels' nested') :=
  covers_chain (covers_chain (covers_chain (covers_unary hNested hLevels hLevels') hLevels hLevels')
    hLevels hLevels') hLevels hLevels'

theorem covers_negation :
    Covers stop limit n 9 (negation limit levels nested) (negation limit levels' nested') :=
  covers_called fun m hm units hUnits => (alike_congruence limit m _).negation alike_calls
    (covers_comparison hNested hLevels hLevels' m hm units hUnits)

theorem covers_disjunction :
    Covers stop limit n 11 (disjunction limit levels nested) (disjunction limit levels' nested') :=
  covers_chain (covers_chain (covers_negation hNested hLevels hLevels') hLevels hLevels') hLevels
    hLevels'

end Rungs

theorem alike_tooDeep (condition : Metered Expr) :
    Alike limit 0 0 meter tooDeep (ternaryStep limit condition nested') := by
  rintro ⟨rest, position, depth, pending⟩ hs
  refine ⟨?_, fun a s' h => absurd h tooDeep_ok⟩
  show (enter limit >>= fun _ => _ : Parse Expr) _ = _
  exact enter_bind_full (Nat.sub_eq_zero_iff_le.mp (Nat.le_zero.mp hs))

theorem covers_ternary (stop : Fault) (hLevels : n ≤ levels) (hMore : levels ≤ levels') :
    Covers stop limit n 1 (ternary limit levels) (ternary limit levels') := by
  induction n generalizing levels levels' with
  | zero =>
    refine covers_called fun m hm units _ => ?_
    obtain rfl : m = 0 := Nat.le_zero.mp hm
    cases levels with
    | zero =>
      cases levels' with
      | zero => exact alike_calls (Gives.alike fun _ => gives_tooDeep)
      | succ l' => exact alike_calls (alike_tooDeep _)
    | succ l =>
      obtain ⟨l', rfl⟩ : ∃ l', levels' = l' + 1 := ⟨levels' - 1, by omega⟩
      exact alike_calls (alike_ternaryStep nofun nofun)
  | succ n ih =>
    obtain ⟨l, rfl⟩ : ∃ l, levels = l + 1 := ⟨levels - 1, by omega⟩
    obtain ⟨l', rfl⟩ : ∃ l', levels' = l' + 1 := ⟨levels' - 1, by omega⟩
    have hNested : Covers stop limit n 1 (ternary limit l) (ternary limit l') :=
      ih (by omega) (by omega)
    refine covers_called fun m hm units hUnits => alike_calls ?_
    refine alike_ternaryStep (fun m' hm' => ?_) fun m' hm' => ?_
    · exact covers_disjunction hNested (by omega) (by omega) m' (by omega) units (by omega)
    · exact hNested m' (by omega) units (by omega)

/-! ### Tokens that need all units -/

/-- Parentheses that are opened, one for each level that is left. -/
def opened (n : Nat) : List Kind := List.replicate n (.symbol .leftParen)

/-- Steps after each other starve where the first one does. -/
theorem starves_bind {p : Metered α} {f : α → Metered β} {s : State}
    (h : p meter s = .error meter.stop) : (p >>= f) meter s = .error meter.stop := by
  show (p meter >>= fun a => f a meter) s = _
  exact Steps.bind_error.mpr (.inl h)

theorem starves_called {reader : Unit → Metered α} {s : State}
    (h : reader () ⟨stop, units⟩ s = .error stop) :
    called reader ⟨stop, units + 1⟩ s = .error stop :=
  h

/-- Within one parenthesis for each level, the innermost expression is left without a unit. -/
theorem starves_opened (stop : Fault) {position depth : Nat} (pending : List Expectation)
    (hDepth : depth + n = limit) (hLevels : n ≤ levels) :
    (ternary limit levels : Metered Expr) ⟨stop, 11 * n⟩ ⟨opened n, position, depth, pending⟩ =
      .error stop := by
  induction n generalizing levels position depth pending with
  | zero => cases levels <;> rfl
  | succ n ih =>
    obtain ⟨l, rfl⟩ : ∃ l, levels = l + 1 := ⟨levels - 1, by omega⟩
    have hNested : (ternary limit l : Metered Expr) ⟨stop, 11 * n⟩
        ⟨opened n, position + 1, depth + 1, .rightParen :: pending⟩ = .error stop :=
      ih _ (by omega) (by omega)
    have hPrimary : (primary (ternary limit l) : Metered Expr) ⟨stop, 11 * n + 1⟩
        ⟨opened (n + 1), position, depth + 1, pending⟩ = .error stop := by
      show (do let inner ← ternary limit l; require .rightParen; return inner : Metered Expr)
        ⟨stop, 11 * n⟩ ⟨opened n, position + 1, depth + 1, .rightParen :: pending⟩ = _
      exact starves_bind hNested
    have hPower : (power limit l (ternary limit l) : Metered Expr) ⟨stop, 11 * n + 3⟩
        ⟨opened (n + 1), position, depth + 1, pending⟩ = .error stop := by
      have hPostfixed : (postfixed limit l (ternary limit l) : Metered Expr) ⟨stop, 11 * n + 2⟩
          ⟨opened (n + 1), position, depth + 1, pending⟩ = .error stop :=
        starves_called (starves_bind hPrimary)
      unfold power
      cases l <;> exact starves_called (starves_bind hPostfixed)
    have hComparison : (comparison limit l (ternary limit l) : Metered Expr) ⟨stop, 11 * n + 7⟩
        ⟨opened (n + 1), position, depth + 1, pending⟩ = .error stop := by
      have hUnary : (unary limit l (ternary limit l) : Metered Expr) ⟨stop, 11 * n + 4⟩
          ⟨opened (n + 1), position, depth + 1, pending⟩ = .error stop := starves_called hPower
      exact starves_called (starves_bind (starves_called (starves_bind (starves_called
        (starves_bind hUnary)))))
    have hDisjunction : (disjunction limit l (ternary limit l) : Metered Expr) ⟨stop, 11 * n + 10⟩
        ⟨opened (n + 1), position, depth + 1, pending⟩ = .error stop := by
      have hNegation : (negation limit l (ternary limit l) : Metered Expr) ⟨stop, 11 * n + 8⟩
          ⟨opened (n + 1), position, depth + 1, pending⟩ = .error stop :=
        starves_called hComparison
      exact starves_called (starves_bind (starves_called (starves_bind hNegation)))
    show (enter limit >>= fun _ => _ : Parse Expr) _ = _
    rw [enter_bind (by omega)]
    exact starves_bind hDisjunction

/-- The parser never nests more calls of readers than eleven for each level of the limit and one
more: with so many units it does the same as without a meter, whatever the fault of a call that is
left without a unit, and however many levels beyond the limit the readers count down from. One unit
less is not always enough. -/
theorem calls_bounded (stop : Fault) (limit : Nat) :
    (∀ more kinds,
      Metered.parse stop limit (limit + more) (11 * limit + 1) kinds = parse limit kinds) ∧
    ∃ kinds, ∀ more, Metered.parse stop limit (limit + more) (11 * limit) kinds = .error stop := by
  constructor
  · intro more kinds
    have hR := alike_congruence limit limit ⟨stop, 11 * limit + 1⟩
    have hTernary : Alike limit limit 0 ⟨stop, 11 * limit + 1⟩ (ternary limit limit)
        (ternary limit (limit + more)) :=
      covers_ternary stop (Nat.le_refl limit) (Nat.le_add_right limit more) limit
        (Nat.le_refl limit) _ (Nat.le_refl _)
    have hComplete : Alike limit limit 0 ⟨stop, 11 * limit + 1⟩ (complete limit limit)
        (complete limit (limit + more)) := by
      refine hTernary.bind fun e => hR.peek.bind fun next? => ?_
      split
      · exact hR.pure e
      · exact hR.fail
    rw [Metered.parse, (hComplete ⟨kinds, 0, 0, []⟩ (Nat.sub_le limit 0)).1, parse]
  · refine ⟨opened limit, fun more => ?_⟩
    have hRun : (complete limit (limit + more) : Metered Expr) ⟨stop, 11 * limit⟩
        ⟨opened limit, 0, 0, []⟩ = .error stop :=
      starves_bind (starves_opened stop [] (Nat.zero_add limit) (Nat.le_add_right limit more))
    rw [Metered.parse, hRun]
    rfl

end Formula.Parser
