import Mathlib.Data.Rat.Floor
import Formula.Proofs.Value.Arithmetic

/-! Division of whole numbers of 64 bits that rounds down, and what it leaves. Words are divided
towards zero, and quotient and remainder are then corrected separately. The corrections agree, and
no step of them wraps around. -/

namespace Formula

/-- Divided by `y`, the number `x` rounds down to `q`, and leaves `r`: nothing, or less than `y`
with the sign of `y`. -/
structure Floors (x y q r : Int) : Prop where
  eq : x = q * y + r
  sign : r = 0 ∨ r.sign = y.sign
  lt : r.natAbs < y.natAbs

namespace Floors

variable {x y q r : Int}

/-- What is left lies between zero and the divisor. -/
theorem between (h : Floors x y q r) : (0 ≤ r ∧ r < y) ∨ (r ≤ 0 ∧ y < r) := by
  have hLt := h.lt
  rcases h.sign with rfl | hSign
  · omega
  · rcases Int.lt_trichotomy y 0 with hNeg | rfl | hPos
    · rw [Int.sign_eq_neg_one_of_neg hNeg, Int.sign_eq_neg_one_iff_neg] at hSign
      omega
    · cases hLt
    · rw [Int.sign_eq_one_of_pos hPos, Int.sign_eq_one_iff_pos] at hSign
      omega

theorem of_between (hEq : x = q * y + r) (h : (0 ≤ r ∧ r < y) ∨ (r ≤ 0 ∧ y < r)) :
    Floors x y q r := by
  refine ⟨hEq, ?_, by omega⟩
  rcases Int.lt_trichotomy r 0 with hNeg | hZero | hPos
  · rw [Int.sign_eq_neg_one_of_neg hNeg, Int.sign_eq_neg_one_of_neg (show y < 0 by omega)]
    exact .inr rfl
  · exact .inl hZero
  · rw [Int.sign_eq_one_of_pos hPos, Int.sign_eq_one_of_pos (show 0 < y by omega)]
    exact .inr rfl

theorem fdiv_fmod (h : Floors x y q r) : x.fdiv y = q ∧ x.fmod y = r := by
  have hEq : r + y * q = x := by rw [h.eq, Int.mul_comm, Int.add_comm]
  rcases h.between with ⟨hLow, hHigh⟩ | ⟨hHigh, hLow⟩
  · exact (Int.fdiv_fmod_unique (by omega)).mpr ⟨hEq, hLow, hHigh⟩
  · exact (Int.fdiv_fmod_unique' (by omega)).mpr ⟨hEq, hLow, hHigh⟩

/-- The quotient is the greatest whole number up to the fraction. -/
theorem floor_eq (h : Floors x y q r) : ⌊(x / y : ℚ)⌋ = q := by
  have hBetween := h.between
  obtain ⟨rfl, -, -⟩ := h
  rw [Int.floor_eq_iff]
  rcases hBetween with ⟨hLow, hHigh⟩ | ⟨hHigh, hLow⟩
  · have hPos : (0 : ℚ) < y := by exact_mod_cast (show 0 < y by omega)
    rw [le_div_iff₀ hPos, div_lt_iff₀ hPos]
    norm_cast
    rw [Int.add_mul]
    omega
  · have hNeg : (y : ℚ) < 0 := by exact_mod_cast (show y < 0 by omega)
    rw [le_div_iff_of_neg hNeg, div_lt_iff_of_neg hNeg]
    norm_cast
    rw [Int.add_mul]
    omega

/-- Rounding towards zero rounds up. -/
def RoundsUp (x y : Int) : Prop := x.tmod y ≠ 0 ∧ ¬(x < 0 ↔ y < 0)

/-- What is left by rounding towards zero has the sign of the dividend. -/
theorem tmod_neg_iff (h : x.tmod y ≠ 0) : x.tmod y < 0 ↔ x < 0 := by
  rcases Int.lt_or_le x 0 with hNeg | hNonneg
  · have hOpposite := Int.tmod_nonneg y (show 0 ≤ -x by omega)
    rw [Int.neg_tmod] at hOpposite
    omega
  · have hSame := Int.tmod_nonneg y hNonneg
    omega

theorem roundsUp_iff : RoundsUp x y ↔ x.tmod y ≠ 0 ∧ ¬(x.tmod y < 0 ↔ y < 0) :=
  and_congr_right fun h => not_congr (iff_congr (tmod_neg_iff h).symm Iff.rfl)

theorem natAbs_tmod_lt (x : Int) (hy : y ≠ 0) : (x.tmod y).natAbs < y.natAbs := by
  rw [Int.natAbs_tmod]
  exact Nat.mod_lt _ (by omega)

theorem natAbs_tdiv_le (x : Int) (hy : 2 ≤ y.natAbs) : (x.tdiv y).natAbs ≤ x.natAbs / 2 := by
  rw [Int.natAbs_tdiv]
  exact Nat.div_le_div_left hy (by decide)

/-- A quotient that was rounded up is one too great. -/
theorem of_roundsUp (h : RoundsUp x y) (hy : y ≠ 0) :
    Floors x y (x.tdiv y - 1) (x.tmod y + y) := by
  have hEq := Int.tmod_add_tdiv_mul x y
  have hLt := natAbs_tmod_lt x hy
  obtain ⟨hLeft, hSign⟩ := roundsUp_iff.mp h
  apply of_between
  · rw [Int.sub_mul]
    omega
  · omega

theorem of_not_roundsUp (h : ¬RoundsUp x y) (hy : y ≠ 0) : Floors x y (x.tdiv y) (x.tmod y) := by
  have hEq := Int.tmod_add_tdiv_mul x y
  have hLt := natAbs_tmod_lt x hy
  rw [roundsUp_iff] at h
  apply of_between <;> omega

/-- A quotient and what it leaves, from rounding down. -/
theorem floored (x : Int) (hy : y ≠ 0) : Floors x y (x.fdiv y) (x.fmod y) := by
  by_cases hUp : RoundsUp x y
  · have hFloors := of_roundsUp hUp hy
    rwa [hFloors.fdiv_fmod.1, hFloors.fdiv_fmod.2]
  · have hFloors := of_not_roundsUp hUp hy
    rwa [hFloors.fdiv_fmod.1, hFloors.fdiv_fmod.2]

end Floors

namespace Word

variable {x y : Int64}

theorem quotient?_eq_some {q : Int64} (hy : y ≠ 0) :
    quotient? x y = some q ↔ q.toInt = x.toInt.tdiv y.toInt := by
  rw [quotient?, if_neg hy]
  exact checked_eq_some (Int64.toInt_div x y)

/-- There is one quotient of words that is no word. -/
theorem quotient?_eq_none (hy : y ≠ 0) :
    quotient? x y = none ↔ x = Int64.minValue ∧ y = -1 := by
  have hMin : x = Int64.minValue ↔ x.toInt = -9223372036854775808 := Int64.toInt_inj.symm
  have hOne : y = -1 ↔ y.toInt = -1 := Int64.toInt_inj.symm
  have hBounds := bounds x
  have hZero := ne_zero_iff.mp hy
  rw [quotient?, if_neg hy, checked_eq_none, fits_iff, hMin, hOne]
  by_cases hUnit : y.toInt.natAbs = 1
  · obtain hPlus | hMinus : y.toInt = 1 ∨ y.toInt = -1 := by omega
    · rw [hPlus, Int.tdiv_one]
      omega
    · rw [hMinus, Int.tdiv_neg, Int.tdiv_one]
      omega
  · have hHalf := Floors.natAbs_tdiv_le x.toInt (y := y.toInt) (by omega)
    omega

theorem remainder?_eq_some {q : Int64} (h : quotient? x y = some q) :
    remainder? x y = some (x % y) := by
  rw [remainder?, h, Option.map_some]

/-- Where there is no quotient, nothing is left. -/
theorem remainder?_getD (hy : y ≠ 0) :
    ((remainder? x y).getD 0).toInt = x.toInt.tmod y.toInt := by
  cases hQuotient : quotient? x y with
  | some q =>
    rw [remainder?_eq_some hQuotient]
    exact Int64.toInt_mod x y
  | none =>
    obtain ⟨rfl, rfl⟩ := (quotient?_eq_none hy).mp hQuotient
    rfl

/-- Division that rounds down, on words: the quotient, less one where something is left and the
signs differ. There is an outcome if no step wraps around of which this is not checked. -/
def floorDiv? (x y : Int64) : Option (Except Complaint Value) :=
  if y = 0 then some (.error .divisionByZero)
  else
    match quotient? x y with
    | none => some (.error (.integerOverflow BinaryOp.floorDiv.text))
    | some q =>
      (remainder? x y).bind fun r =>
        if r ≠ 0 ∧ ¬(x < 0 ↔ y < 0) then (sub? q 1).map fun q => .ok (.int q.toInt)
        else some (.ok (.int q.toInt))

/-- What division that rounds down leaves, on words: the remainder, and the divisor added to it
where something is left and the signs differ. -/
def floorMod? (x y : Int64) : Option (Except Complaint Value) :=
  if y = 0 then some (.error .divisionByZero)
  else
    let r := (remainder? x y).getD 0
    if r ≠ 0 ∧ ¬(r < 0 ↔ y < 0) then (add? r y).map fun r => .ok (.int r.toInt)
    else some (.ok (.int r.toInt))

/-- A quotient that is rounded down is a word if it is one when it is rounded towards zero. -/
theorem fits_fdiv {q : Int64} (hy : y ≠ 0) (h : quotient? x y = some q) :
    Numeral.fits (x.toInt.fdiv y.toInt) := by
  have hZero := ne_zero_iff.mp hy
  by_cases hRounds : Floors.RoundsUp x.toInt y.toInt
  · -- something is left, so the divisor is not one or minus one and the quotient is not at an end
    have hLt := Floors.natAbs_tmod_lt x.toInt hZero
    have hLeft := hRounds.1
    have hHalf := Floors.natAbs_tdiv_le x.toInt (y := y.toInt) (by omega)
    have hBounds := bounds x
    rw [(Floors.of_roundsUp hRounds hZero).fdiv_fmod.1, fits_iff]
    omega
  · rw [(Floors.of_not_roundsUp hRounds hZero).fdiv_fmod.1, ← (quotient?_eq_some hy).mp h]
    exact fits_toInt q

theorem floorDiv?_eq (hy : y ≠ 0) :
    floorDiv? x y = some (Value.checked BinaryOp.floorDiv.text (x.toInt.fdiv y.toInt)) := by
  have hZero := ne_zero_iff.mp hy
  rw [floorDiv?, if_neg hy]
  cases hQuotient : quotient? x y with
  | none =>
    obtain ⟨rfl, rfl⟩ := (quotient?_eq_none hy).mp hQuotient
    rfl
  | some q =>
    have hExact := (quotient?_eq_some hy).mp hQuotient
    have hRem : (x % y).toInt = x.toInt.tmod y.toInt := Int64.toInt_mod x y
    have hUp : (x % y ≠ 0 ∧ ¬(x < 0 ↔ y < 0)) ↔ Floors.RoundsUp x.toInt y.toInt := by
      rw [ne_zero_iff, neg_iff, neg_iff, hRem, Floors.RoundsUp]
    simp only [remainder?_eq_some hQuotient, Option.bind_some]
    by_cases hRounds : Floors.RoundsUp x.toInt y.toInt
    · have hFloor := (Floors.of_roundsUp hRounds hZero).fdiv_fmod.1
      have hFits : Numeral.fits (q.toInt - (1 : Int64).toInt) := by
        rw [hExact, Int64.toInt_one, ← hFloor]
        exact fits_fdiv hy hQuotient
      obtain ⟨z, hz, hLess⟩ := sub?_of_fits hFits
      rw [Int64.toInt_one, hExact, ← hFloor] at hLess
      rw [if_pos (hUp.mpr hRounds), hz, ← hLess, Value.checked, if_pos (fits_toInt z)]
      rfl
    · have hFloor := (Floors.of_not_roundsUp hRounds hZero).fdiv_fmod.1
      rw [if_neg (mt hUp.mp hRounds), hFloor, ← hExact, Value.checked, if_pos (fits_toInt q)]

theorem floorMod?_eq (hy : y ≠ 0) :
    floorMod? x y = some (.ok (.int (x.toInt.fmod y.toInt))) := by
  have hZero := ne_zero_iff.mp hy
  have hRem := remainder?_getD (x := x) hy
  rw [floorMod?, if_neg hy]
  generalize (remainder? x y).getD 0 = r at hRem
  have hUp : (r ≠ 0 ∧ ¬(r < 0 ↔ y < 0)) ↔ Floors.RoundsUp x.toInt y.toInt := by
    rw [ne_zero_iff, neg_iff, neg_iff, hRem, Floors.roundsUp_iff]
  by_cases hRounds : Floors.RoundsUp x.toInt y.toInt
  · have hFloors := Floors.of_roundsUp hRounds hZero
    -- what is left and the divisor have different signs, so their sum is between them
    have hFits : Numeral.fits (r.toInt + y.toInt) := by
      have hLt := hFloors.lt
      have hBounds := bounds y
      rw [fits_iff, hRem]
      omega
    obtain ⟨z, hz, hSum⟩ := add?_of_fits hFits
    rw [if_pos (hUp.mpr hRounds), hz, hFloors.fdiv_fmod.2, ← hRem, ← hSum]
    rfl
  · rw [if_neg (mt hUp.mp hRounds), (Floors.of_not_roundsUp hRounds hZero).fdiv_fmod.2, hRem]

end Word

namespace Value

/-- Whole numbers of 64 bits are divided so that the quotient is rounded down, and what is left is
nothing or less than the divisor with its sign. Both come from words without a step that wraps
around. The one quotient that is no word overflows, although nothing is left there, and division by
zero fails. -/
theorem division_floors {a b : Value} {x y : Int64}
    (ha : number? a = some (.int x.toInt)) (hb : number? b = some (.int y.toInt)) :
    (y = 0 → binary .floorDiv a b = .error .divisionByZero ∧
      binary .mod a b = .error .divisionByZero) ∧
    (y ≠ 0 → ∃ q r : Int,
      q = ⌊(x.toInt / y.toInt : ℚ)⌋ ∧ x.toInt = q * y.toInt + r ∧
      (r = 0 ∨ r.sign = y.toInt.sign) ∧ r.natAbs < y.toInt.natAbs ∧
      binary .mod a b = .ok (.int r) ∧
      (¬(x = Int64.minValue ∧ y = -1) → binary .floorDiv a b = .ok (.int q)) ∧
      (x = Int64.minValue ∧ y = -1 →
        binary .floorDiv a b = .error (.integerOverflow BinaryOp.floorDiv.text) ∧ r = 0)) ∧
    Word.floorDiv? x y = some (binary .floorDiv a b) ∧
    Word.floorMod? x y = some (binary .mod a b) := by
  have hBinary := binary_eq ha hb
  rw [hBinary, hBinary]
  by_cases hy : y = 0
  · subst hy
    exact ⟨fun _ => ⟨rfl, rfl⟩, absurd rfl, rfl, rfl⟩
  · have hZero := Word.ne_zero_iff.mp hy
    have hDiv : intArithmetic .floorDiv x.toInt y.toInt =
        checked BinaryOp.floorDiv.text (x.toInt.fdiv y.toInt) := if_neg hZero
    have hMod : intArithmetic .mod x.toInt y.toInt = .ok (.int (x.toInt.fmod y.toInt)) :=
      if_neg hZero
    have hFloors := Floors.floored x.toInt hZero
    rw [hDiv, hMod]
    refine ⟨(absurd · hy), fun _ => ⟨_, _, hFloors.floor_eq.symm, hFloors.eq, hFloors.sign,
      hFloors.lt, rfl, fun hOther => ?_, ?_⟩, Word.floorDiv?_eq hy, Word.floorMod?_eq hy⟩
    · obtain ⟨q, hq⟩ := Option.ne_none_iff_exists'.mp (mt (Word.quotient?_eq_none hy).mp hOther)
      rw [checked, if_pos (Word.fits_fdiv hy hq)]
    · rintro ⟨rfl, rfl⟩
      exact ⟨rfl, rfl⟩

/-- The least word divided by minus one overflows, and leaves nothing. -/
theorem division_floors_least :
    number? (.int (-9223372036854775808)) = some (.int Int64.minValue.toInt) ∧
      number? (.int (-1)) = some (.int (-1 : Int64).toInt) ∧
      binary .floorDiv (.int (-9223372036854775808)) (.int (-1)) =
        .error (.integerOverflow "//") ∧
      binary .mod (.int (-9223372036854775808)) (.int (-1)) = .ok (.int 0) := by
  have hMin : number? (.int (-9223372036854775808)) = some (.int Int64.minValue.toInt) := rfl
  have hOne : number? (.int (-1)) = some (.int (-1 : Int64).toInt) := rfl
  have hNonzero : (-1 : Int64) ≠ 0 := by decide
  obtain ⟨q, r, -, -, -, -, hMod, -, hLeast⟩ := (division_floors hMin hOne).2.1 hNonzero
  obtain ⟨hDiv, rfl⟩ := hLeast ⟨rfl, rfl⟩
  exact ⟨hMin, hOne, hDiv, hMod⟩

end Value

end Formula
