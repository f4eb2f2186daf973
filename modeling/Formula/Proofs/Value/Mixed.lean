import Mathlib.Algebra.Order.Field.Rat
import Mathlib.Tactic.FieldSimp
import Formula.Proofs.Double.Order
import Formula.Proofs.Value.Order

/-! Whole numbers beside numbers of the binary64 format. A comparison takes the binary64 number that
is nearest to the whole one in its place. It goes by value all the same, unless the other number is
this nearest one and the whole number is not. -/

namespace Formula

/-- What `op` asks of two magnitudes. -/
def Comparison.Relates (op : Comparison) (p q : ℚ) : Prop :=
  match op with
  | eq => p = q
  | ne => p ≠ q
  | gt => q < p
  | lt => p < q
  | ge => q ≤ p
  | le => p ≤ q

namespace Double

/-- The magnitude that a finite number stands for, with its sign. -/
def value (x : Double) : ℚ := x.signedUnits / unitsPerOne

theorem unitsPerOne_pos : (0 : ℚ) < unitsPerOne := by
  have hPos : 0 < unitsPerOne := by decide
  exact_mod_cast hPos

theorem value_eq_iff {x y : Double} : x.value = y.value ↔ x.signedUnits = y.signedUnits := by
  rw [value, value, div_left_inj' unitsPerOne_pos.ne', Int.cast_inj]

theorem value_eq_intCast {x : Double} {n : Int} :
    x.value = n ↔ x.signedUnits = n * unitsPerOne := by
  rw [value, div_eq_iff unitsPerOne_pos.ne']
  exact_mod_cast Iff.rfl

end Double

namespace Value

variable {op : Comparison} {n : Int} {x : Double}

/-- Magnitudes are related as the whole numbers of units that they are. -/
theorem relates_iff (p q : Int) :
    op.Relates (p / Double.unitsPerOne) (q / Double.unitsPerOne) ↔ holds op (Ord.compare p q) := by
  have hUnit := Double.unitsPerOne_pos
  cases op with
  | eq | ne => simp [Comparison.Relates, holds, div_left_inj' hUnit.ne']
  | gt | lt => simp [Comparison.Relates, holds, div_lt_div_iff_of_pos_right hUnit,
      Int.compare_eq_lt, Int.compare_eq_gt]
  | ge | le => simp [Comparison.Relates, holds, div_le_div_iff_of_pos_right hUnit,
      Int.compare_eq_lt, Int.compare_eq_gt]

/-- Where numbers are compared as binary64 numbers, they are compared by the values of these. -/
theorem holds_doubles {a b : Value} {y : Double} (hx : x.isNaN = false) (hy : y.isNaN = false)
    (hOrder : ∀ op, order op a b = .ok (x.order? y)) (hEquals : equals a b = x.equals y)
    (op : Comparison) : Holds op a b ↔ op.Relates x.value y.value := by
  rw [Double.value, Double.value, relates_iff]
  apply Ranks.holds_iff
  · intro op
    rw [hOrder, Double.order?_eq hx hy]
  · rw [hEquals, Double.equals_eq hx hy, beq_iff_eq]
    exact Int.compare_eq_eq

/-- A whole number is compared as the number nearest to it. -/
theorem holds_mixed (hx : x.isNaN = false) (op : Comparison) :
    (Holds op (.int n) (.float x) ↔ op.Relates (Double.ofInt n).value x.value) ∧
    (Holds op (.float x) (.int n) ↔ op.Relates x.value (Double.ofInt n).value) := by
  have hNearest := Double.isNaN_ofInt n
  constructor
  · apply holds_doubles hNearest hx
    · intro op
      simp only [order, number?, Number.order?, Number.toDouble]
    · simp only [equals, number?, Number.equals, Number.toDouble]
  · apply holds_doubles hx hNearest
    · intro op
      simp only [order, number?, Number.order?, Number.toDouble]
    · simp only [equals, number?, Number.equals, Number.toDouble]

/-- Every comparison of `n` and `x`, either way round, goes by their values. -/
def ByValue (n : Int) (x : Double) : Prop :=
  ∀ op : Comparison, (Holds op (.int n) (.float x) ↔ op.Relates n x.value) ∧
    (Holds op (.float x) (.int n) ↔ op.Relates x.value n)

/-- Where `x` is not the number nearest to `n`, it lies on the same side of both. -/
theorem relates_nearest (hx : x.isFinite) (hNe : (Double.ofInt n).value ≠ x.value)
    (op : Comparison) :
    (op.Relates (Double.ofInt n).value x.value ↔ op.Relates n x.value) ∧
    (op.Relates x.value (Double.ofInt n).value ↔ op.Relates x.value n) := by
  rw [Ne, Double.value_eq_iff] at hNe
  have hSide := Double.compare_ofInt hx hNe
  have hWhole : (n : ℚ) = ((n * Double.unitsPerOne : Int) : ℚ) / Double.unitsPerOne := by
    rw [eq_div_iff Double.unitsPerOne_pos.ne']
    push_cast
    rfl
  rw [hWhole]
  simp only [Double.value, relates_iff]
  constructor
  · rw [hSide]
  · rw [← Int.compare_swap, hSide, Int.compare_swap]

theorem value_ofInt (h : n.natAbs ≤ 2 ^ 53) : (Double.ofInt n).value = n := by
  have hPlace := Double.place?_ofInt h
  rw [Double.place?_eq (Double.isNaN_ofInt n), Option.some_inj] at hPlace
  exact Double.value_eq_intCast.mpr hPlace

/-- A binary64 number is equal to one whole number up to `2^53` at most. -/
theorem eq_of_equals {m : Int} {y : Double} (hm : m.natAbs ≤ 2 ^ 53) (hn : n.natAbs ≤ 2 ^ 53)
    (h : Holds .eq (.int m) (.float y)) (h' : Holds .eq (.int n) (.float y)) : m = n := by
  have hPlace : ∀ {k : Int}, k.natAbs ≤ 2 ^ 53 → Holds .eq (.int k) (.float y) →
      y.place? = some (k * Double.unitsPerOne) := by
    intro k hk hEqual
    have hDouble : (Double.ofInt k).equals y := by
      simpa [Holds, compare, holdsBetween, Except.map, equals, number?, Number.equals,
        Number.toDouble] using hEqual
    rw [← (Double.equals_iff (Double.isNaN_ofInt k)).mp hDouble]
    exact Double.place?_ofInt hk
  have hUnits := (hPlace hm h).symm.trans (hPlace hn h')
  have hUnit : (Double.unitsPerOne : Int) ≠ 0 := by decide +kernel
  exact Int.eq_of_mul_eq_mul_right hUnit (Option.some_inj.mp hUnits)

theorem byValue_iff_nearest (hx : x.isFinite) (n : Int) :
    ByValue n x ↔ (x.value = (Double.ofInt n).value → x.value = n) := by
  have hHolds := holds_mixed (n := n) (Double.isNaN_of_isFinite hx)
  constructor
  · intro h hNearest
    have hEqual := (hHolds .eq).1.mpr hNearest.symm
    exact ((h .eq).1.mp hEqual).symm
  · intro h op
    rw [(hHolds op).1, (hHolds op).2]
    by_cases hNearest : x.value = (Double.ofInt n).value
    · rw [← hNearest, h hNearest]
      exact ⟨Iff.rfl, Iff.rfl⟩
    · exact relates_nearest hx (Ne.symm hNearest) op

/-- A whole number and a finite binary64 number are compared as the latter and the number nearest to
the former. All comparisons of them go by value if and only if the two differ or the whole number is
the nearest one itself, so up to `2^53` they do, and two whole numbers up to there that are equal to
the same binary64 number are the same. -/
theorem byValue_iff (hx : x.isFinite) (n : Int) :
    (∀ op : Comparison,
      (Holds op (.int n) (.float x) ↔ op.Relates (Double.ofInt n).value x.value) ∧
      (Holds op (.float x) (.int n) ↔ op.Relates x.value (Double.ofInt n).value)) ∧
    (ByValue n x ↔ (x.value = (Double.ofInt n).value → x.value = n)) ∧
    (n.natAbs ≤ 2 ^ 53 → ByValue n x ∧
      ∀ (m : Int) (y : Double), m.natAbs ≤ 2 ^ 53 → Holds .eq (.int m) (.float y) →
        Holds .eq (.int n) (.float y) → m = n) := by
  refine ⟨holds_mixed (Double.isNaN_of_isFinite hx), byValue_iff_nearest hx n, fun hn => ⟨?_, ?_⟩⟩
  · apply (byValue_iff_nearest hx n).mpr
    intro hNearest
    rw [hNearest, value_ofInt hn]
  · intro m y hm h h'
    exact eq_of_equals hm hn h h'

/-- Past `2^53`, a binary64 number that is not the nearest one still compares by value. -/
theorem byValue_beside_nearest :
    (Double.ofInt (2 ^ 53 + 2)).isFinite ∧ ByValue (2 ^ 53 + 1) (Double.ofInt (2 ^ 53 + 2)) := by
  have hFinite : (Double.ofInt (2 ^ 53 + 2)).isFinite := by decide +kernel
  have hOther :
      (Double.ofInt (2 ^ 53 + 2)).signedUnits ≠ (Double.ofInt (2 ^ 53 + 1)).signedUnits := by
    decide +kernel
  refine ⟨hFinite, (byValue_iff hFinite (2 ^ 53 + 1)).2.1.mpr fun hNearest => ?_⟩
  exact absurd (Double.value_eq_iff.mp hNearest) hOther

/-- The number nearest to `2^53 + 1` is `2^53`, so two whole numbers are equal to it. -/
theorem two_equal_nearest :
    Holds .eq (.int (2 ^ 53)) (.float (.ofInt (2 ^ 53))) ∧
      Holds .eq (.int (2 ^ 53 + 1)) (.float (.ofInt (2 ^ 53))) ∧
      ¬Holds .lt (.float (.ofInt (2 ^ 53))) (.int (2 ^ 53 + 1)) ∧
      ¬ByValue (2 ^ 53 + 1) (.ofInt (2 ^ 53)) := by
  have hNearest : (Double.ofInt (2 ^ 53 + 1)).value = (Double.ofInt (2 ^ 53)).value := by
    rw [Double.value_eq_iff]
    decide +kernel
  have hNumber := Double.isNaN_ofInt (2 ^ 53)
  have hEqual : Holds .eq (.int (2 ^ 53 + 1)) (.float (.ofInt (2 ^ 53))) :=
    (holds_mixed hNumber .eq).1.mpr hNearest
  refine ⟨(holds_mixed hNumber .eq).1.mpr rfl, hEqual, ?_, fun h => ?_⟩
  · rw [(holds_mixed hNumber .lt).2, hNearest]
    exact lt_irrefl _
  · have hValue := (h .eq).1.mp hEqual
    rw [value_ofInt (by decide)] at hValue
    norm_num [Comparison.Relates] at hValue

end Value

end Formula
