import Formula.Double.Arithmetic
import Formula.Proofs.Double.Whole

/-! Rounding keeps order. Codes grow with the magnitudes that they stand for, and the number nearest
to a greater magnitude is no smaller, so no finite number lies between a whole number and the number
nearest to it. -/

namespace Formula.Double

variable {m n d code code' : Nat}

theorem roundDiv_eq (n d : Nat) :
    roundDiv n d = if 2 * (n % d) < d then n / d
      else if 2 * (n % d) = d then n / d + n / d % 2 else n / d + 1 := by
  unfold roundDiv
  rcases Nat.lt_trichotomy (2 * (n % d)) d with h | h | h
  · rw [Nat.compare_eq_lt.mpr h, if_pos h]
  · rw [Nat.compare_eq_eq.mpr h, if_neg (by omega), if_pos h]
  · rw [Nat.compare_eq_gt.mpr h, if_neg (by omega), if_neg (by omega)]

theorem roundDiv_bounds (n d : Nat) : n / d ≤ roundDiv n d ∧ roundDiv n d ≤ n / d + 1 := by
  rw [roundDiv_eq]
  split_ifs <;> omega

theorem roundDiv_mono (d : Nat) (h : m ≤ n) : roundDiv m d ≤ roundDiv n d := by
  rcases Nat.lt_or_eq_of_le (Nat.div_le_div_right (c := d) h) with hLess | hSame
  · have hLow := (roundDiv_bounds m d).2
    have hHigh := (roundDiv_bounds n d).1
    omega
  · have hRemainder : m % d ≤ n % d := by
      have hSplit := Nat.div_add_mod m d
      have hSplit' := Nat.div_add_mod n d
      rw [hSame] at hSplit
      omega
    rw [roundDiv_eq, roundDiv_eq, hSame]
    split_ifs <;> omega

/-- The number of bits by which a magnitude is shifted right until a significand is left. -/
def shift (n : Nat) : Nat := n.log2 - 52

theorem nearestCode_one (n : Nat) :
    nearestCode n 1 =
      min (shift n * leadingBit + roundDiv n (2 ^ shift n)) infinityCode := by
  rw [nearestCode, Nat.div_one, Nat.shiftLeft_eq, Nat.one_mul, shift]

/-- What a magnitude is shifted to has at most 53 bits. -/
theorem div_shift_lt (n : Nat) : n / 2 ^ shift n < 2 * leadingBit := by
  rw [Nat.div_lt_iff_lt_mul (Nat.two_pow_pos _)]
  rcases Nat.eq_zero_or_pos n with rfl | hPos
  · decide
  · have hBits : n < 2 ^ (n.log2 + 1) := Nat.lt_log2_self
    have hBit : 2 * leadingBit = 2 ^ 53 := rfl
    rw [hBit, ← pow_add]
    apply hBits.trans_le
    apply Nat.pow_le_pow_right (by decide)
    unfold shift
    omega

/-- What is left of a magnitude that is shifted at all has the leading bit. -/
theorem leadingBit_le_div_shift (h : 0 < shift n) : leadingBit ≤ n / 2 ^ shift n := by
  have hLog : n.log2 = 52 + shift n := by
    unfold shift at h ⊢
    omega
  have hNe : n ≠ 0 := by
    rintro rfl
    simp [shift] at h
  rw [Nat.le_div_iff_mul_le (Nat.two_pow_pos _), show leadingBit = 2 ^ 52 from rfl, ← pow_add,
    ← hLog]
  exact Nat.log2_self_le hNe

theorem nearestCode_mono (h : m ≤ n) : nearestCode m 1 ≤ nearestCode n 1 := by
  rw [nearestCode_one, nearestCode_one]
  apply min_le_min_right
  have hLog : m.log2 ≤ n.log2 := by
    rcases Nat.eq_zero_or_pos m with rfl | hPos
    · exact Nat.zero_le _
    · exact (Nat.le_log2 (by omega)).mpr ((Nat.log2_self_le hPos.ne').trans h)
  have hShift : shift m ≤ shift n := Nat.sub_le_sub_right hLog 52
  rcases Nat.lt_or_eq_of_le hShift with hLess | hSame
  · -- Rounding up the longest significand gives the next exponent, not more.
    have hTop := (roundDiv_bounds m (2 ^ shift m)).2
    have hBottom := (roundDiv_bounds n (2 ^ shift n)).1
    have hLow := div_shift_lt m
    have hHigh := leadingBit_le_div_shift (Nat.zero_lt_of_lt hLess)
    have hMul : (shift m + 1) * leadingBit ≤ shift n * leadingBit :=
      Nat.mul_le_mul_right leadingBit hLess
    rw [Nat.succ_mul] at hMul
    omega
  · rw [hSame]
    exact Nat.add_le_add_left (roundDiv_mono _ h) _

theorem unitsOf_infinityCode : unitsOf infinityCode = 2 ^ 2098 := by
  decide +kernel

/-- Codes up to infinity grow with their magnitudes. -/
theorem unitsOf_lt_unitsOf (h : code < code') (hMax : code' ≤ infinityCode) :
    unitsOf code < unitsOf code' := by
  rcases Nat.lt_or_eq_of_le hMax with hFinite | rfl
  · by_contra hNot
    have hNearest := nearestCode_mono (Nat.le_of_not_lt hNot)
    rw [nearestCode_unitsOf hFinite, nearestCode_unitsOf (h.trans hFinite)] at hNearest
    omega
  · rw [unitsOf_infinityCode]
    exact unitsOf_lt h

theorem unitsOf_le_unitsOf (h : code ≤ code') (hMax : code' ≤ infinityCode) :
    unitsOf code ≤ unitsOf code' := by
  rcases Nat.lt_or_eq_of_le h with hLess | rfl
  · exact (unitsOf_lt_unitsOf hLess hMax).le
  · exact Nat.le_refl _

/-! ### Whole numbers -/

variable {x : Double} {k : Int}

theorem isNaN_ofInt (k : Int) : (ofInt k).isNaN = false :=
  decide_eq_false (Nat.not_lt.mpr (Nat.min_le_right _ _))

theorem place?_eq (h : x.isNaN = false) : x.place? = some x.signedUnits := by
  rw [place?, h]
  rfl

theorem order?_eq {x y : Double} (hx : x.isNaN = false) (hy : y.isNaN = false) :
    x.order? y = some (compare x.signedUnits y.signedUnits) := by
  rw [order?, place?_eq hx, place?_eq hy]

theorem equals_eq {x y : Double} (hx : x.isNaN = false) (hy : y.isNaN = false) :
    x.equals y = (x.signedUnits == y.signedUnits) := by
  rw [equals, place?_eq hx, place?_eq hy]

/-- A finite magnitude up to that of a whole number is at most that of the number nearest to it. -/
theorem units_le_units_ofInt (hx : x.isFinite) (h : x.units ≤ k.natAbs * unitsPerOne) :
    x.units ≤ (ofInt k).units := by
  have hCode : x.code < infinityCode := of_decide_eq_true hx
  apply unitsOf_le_unitsOf
  · rw [← nearestCode_unitsOf hCode]
    exact nearestCode_mono h
  · exact Nat.min_le_right _ _

theorem units_ofInt_le_units (hx : x.isFinite) (h : k.natAbs * unitsPerOne ≤ x.units) :
    (ofInt k).units ≤ x.units := by
  have hCode : x.code < infinityCode := of_decide_eq_true hx
  apply unitsOf_le_unitsOf
  · rw [← nearestCode_unitsOf hCode]
    exact nearestCode_mono h
  · exact hCode.le

/-- No finite number lies between a whole number and the number nearest to it. -/
theorem between_ofInt (hx : x.isFinite) :
    (x.signedUnits ≤ k * unitsPerOne → x.signedUnits ≤ (ofInt k).signedUnits) ∧
    (k * unitsPerOne ≤ x.signedUnits → (ofInt k).signedUnits ≤ x.signedUnits) := by
  have hLow := units_le_units_ofInt (k := k) hx
  have hHigh := units_ofInt_le_units (k := k) hx
  have hSign : (ofInt k).negative = decide (k < 0) := rfl
  have hMagnitude : k * unitsPerOne =
      if k < 0 then -((k.natAbs * unitsPerOne : Nat) : Int)
      else (k.natAbs * unitsPerOne : Nat) := by
    rw [Nat.cast_mul]
    split_ifs with hNeg
    · rw [Int.ofNat_natAbs_of_nonpos hNeg.le, neg_mul, neg_neg]
    · rw [Int.natAbs_of_nonneg (by omega)]
  have hZero : k < 0 → 0 < k.natAbs * unitsPerOne := by
    intro hNeg
    exact Nat.mul_pos (by omega) (by decide)
  rw [hMagnitude, signedUnits, signedUnits, hSign]
  generalize k.natAbs * unitsPerOne = magnitude at hLow hHigh hZero ⊢
  generalize (ofInt k).units = nearest at hLow hHigh ⊢
  generalize x.units = units at hLow hHigh ⊢
  by_cases hNeg : k < 0 <;> cases x.negative <;> simp [hNeg] <;> omega

/-- A finite number that is not the one nearest to a whole number compares to both of them alike. -/
theorem compare_ofInt (hx : x.isFinite) (hNe : (ofInt k).signedUnits ≠ x.signedUnits) :
    compare (ofInt k).signedUnits x.signedUnits = compare (k * unitsPerOne) x.signedUnits := by
  obtain ⟨hLow, hHigh⟩ := between_ofInt (k := k) hx
  rcases lt_trichotomy (ofInt k).signedUnits x.signedUnits with h | h | h
  · rw [Int.compare_eq_lt.mpr h, Int.compare_eq_lt.mpr (by omega)]
  · exact absurd h hNe
  · rw [Int.compare_eq_gt.mpr h, Int.compare_eq_gt.mpr (by omega)]

end Formula.Double
