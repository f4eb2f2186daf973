import Formula.Proofs.Decimal.Code

/-! Whole numbers in the binary64 format. Up to `2^53` in magnitude, each is the place of the
number nearest to it. -/

namespace Formula.Double

variable {m s : Nat} {n : Int}

theorem unitsOf_significand (hm : leadingBit ≤ m) (hm' : m < 2 * leadingBit) (s : Nat) :
    unitsOf (s * leadingBit + m) = m * 2 ^ s := by
  have hPos : 0 < leadingBit := by decide
  have hSum : s * leadingBit + m = (m - leadingBit) + (s + 1) * leadingBit := by
    rw [Nat.succ_mul]
    omega
  have hDiv : (s * leadingBit + m) / leadingBit = s + 1 := by
    rw [hSum, Nat.add_mul_div_right _ _ hPos, Nat.div_eq_of_lt (by omega), Nat.zero_add]
  have hMod : (s * leadingBit + m) % leadingBit = m - leadingBit := by
    rw [hSum, Nat.add_mul_mod_self_right, Nat.mod_eq_of_lt (by omega)]
  rw [unitsOf_eq (by omega), hDiv, hMod, Nat.add_sub_cancel' hm, Nat.add_sub_cancel]

/-- A significand of up to 53 bits, shifted, is the magnitude of a finite number. -/
theorem exists_code (hm : m < 2 ^ 53) (hs : s ≤ 2045) :
    ∃ code < infinityCode, unitsOf code = m * 2 ^ s := by
  have hBit : 2 ^ 53 = 2 * leadingBit := rfl
  -- the leading bit is reached by doubling, unless the shift is used up before
  induction s generalizing m with
  | zero =>
    rcases Nat.lt_or_ge m leadingBit with hSmall | hLarge
    · refine ⟨m, hSmall.trans (by decide), ?_⟩
      rw [unitsOf, if_pos hSmall, pow_zero, Nat.mul_one]
    · refine ⟨0 * leadingBit + m, ?_, unitsOf_significand hLarge (by omega) 0⟩
      unfold infinityCode
      omega
  | succ s ih =>
    rcases Nat.lt_or_ge m leadingBit with hSmall | hLarge
    · obtain ⟨code, hCode, hUnits⟩ := ih (m := m * 2) (by omega) (by omega)
      exact ⟨code, hCode, by rw [hUnits, Nat.pow_succ', Nat.mul_assoc]⟩
    · have hMul := Nat.mul_le_mul_right leadingBit hs
      refine ⟨(s + 1) * leadingBit + m, ?_, unitsOf_significand hLarge (by omega) (s + 1)⟩
      unfold infinityCode
      omega

/-- The magnitudes of whole numbers up to `2^53` are those of finite numbers. -/
theorem exists_code_whole (hm : m ≤ 2 ^ 53) :
    ∃ code < infinityCode, unitsOf code = m * unitsPerOne := by
  rw [Decimal.unitsPerOne_eq]
  rcases Nat.lt_or_eq_of_le hm with hLt | rfl
  · exact exists_code hLt (by decide)
  · obtain ⟨code, hCode, hUnits⟩ := exists_code (m := 2 ^ 52) (s := 1075) (by decide) (by decide)
    exact ⟨code, hCode, by rw [hUnits, ← pow_add, ← pow_add]⟩

/-- A whole number up to `2^53` is where the number nearest to it is. -/
theorem place?_ofInt (h : n.natAbs ≤ 2 ^ 53) : (ofInt n).place? = some (n * unitsPerOne) := by
  obtain ⟨code, hCode, hUnits⟩ := exists_code_whole h
  have hNearest : nearestCode (n.natAbs * unitsPerOne) 1 = code := by
    rw [← hUnits, nearestCode_unitsOf hCode]
  have hNumber : (ofInt n).isNaN = false := by
    simp only [ofInt, ofUnits, isNaN, hNearest]
    exact decide_eq_false (Nat.not_lt.mpr hCode.le)
  have hMagnitude : (ofInt n).units = n.natAbs * unitsPerOne := by
    simp only [ofInt, ofUnits, units, hNearest, hUnits]
  have hSign : (ofInt n).negative = decide (n < 0) := rfl
  rw [place?, hNumber, hMagnitude, hSign, Nat.cast_mul]
  rcases Int.lt_or_le n 0 with hNeg | hPos
  · have hAbs : (n.natAbs : Int) = -n := Int.ofNat_natAbs_of_nonpos hNeg.le
    simp [hNeg, hAbs]
  · have hAbs : (n.natAbs : Int) = n := Int.natAbs_of_nonneg hPos
    simp [hPos, hAbs]

end Formula.Double
