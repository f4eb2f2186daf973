import Mathlib.Tactic.Ring
import Formula.Double.Rounding

/-! The nearest binary64 number depends on the quotient alone, and a magnitude is nearest to
itself. -/

namespace Formula.Double

variable {n d k code : Nat}

theorem isNaN_of_isFinite {x : Double} (h : x.isFinite) : x.isNaN = false := by
  have hCode : x.code < infinityCode := of_decide_eq_true h
  exact decide_eq_false (by omega)

theorem isInfinite_of_isFinite {x : Double} (h : x.isFinite) : x.isInfinite = false :=
  beq_false_of_ne (Nat.ne_of_lt (of_decide_eq_true h))

theorem roundDiv_one (n : Nat) : roundDiv n 1 = n := by
  simp [roundDiv, Nat.mod_one, compare, compareOfLessAndEq]

theorem roundDiv_mul_right (n d : Nat) (hk : 0 < k) : roundDiv (n * k) (d * k) = roundDiv n d := by
  have hCompare : compare (2 * (n * k % (d * k))) (d * k) = compare (2 * (n % d)) d := by
    rw [Nat.mul_mod_mul_right, ← Nat.mul_assoc]
    rcases Nat.lt_trichotomy (2 * (n % d)) d with h | h | h
    · rw [Nat.compare_eq_lt.mpr h, Nat.compare_eq_lt.mpr (Nat.mul_lt_mul_of_pos_right h hk)]
    · rw [h]
      simp
    · rw [Nat.compare_eq_gt.mpr h, Nat.compare_eq_gt.mpr (Nat.mul_lt_mul_of_pos_right h hk)]
  rw [roundDiv, roundDiv, hCompare, Nat.mul_div_mul_right n d hk]

/-- A fraction may be expanded. -/
theorem nearestCode_mul_right (n d : Nat) (hk : 0 < k) :
    nearestCode (n * k) (d * k) = nearestCode n d := by
  have hShift : ∀ s, (d * k) <<< s = (d <<< s) * k := by
    intro s
    simp only [Nat.shiftLeft_eq]
    ring
  simp only [nearestCode, Nat.mul_div_mul_right n d hk, hShift, roundDiv_mul_right n _ hk]

/-- Equal quotients are nearest to the same number. -/
theorem nearestCode_congr {n' d' : Nat} (hd : 0 < d) (hd' : 0 < d') (h : n * d' = n' * d) :
    nearestCode n d = nearestCode n' d' := by
  rw [← nearestCode_mul_right n d hd', h, Nat.mul_comm d, nearestCode_mul_right n' d' hd]

theorem unitsOf_eq (h : leadingBit ≤ code) :
    unitsOf code = (leadingBit + code % leadingBit) * 2 ^ (code / leadingBit - 1) := by
  rw [unitsOf, if_neg (Nat.not_lt.mpr h), Nat.shiftLeft_eq]

/-- A finite magnitude is a significand of 53 bits, shifted. -/
theorem exists_significand (h : code < infinityCode) :
    ∃ m s, m < 2 ^ 53 ∧ s ≤ 2045 ∧ unitsOf code = m * 2 ^ s := by
  have hBit : leadingBit = 2 ^ 52 := rfl
  rcases Nat.lt_or_ge code leadingBit with hlt | hge
  · refine ⟨code, 0, by omega, by decide, ?_⟩
    rw [unitsOf, if_pos hlt, pow_zero, mul_one]
  · have hMod : code % leadingBit < leadingBit := Nat.mod_lt _ (by decide)
    have hDiv : code / leadingBit < 2047 := (Nat.div_lt_iff_lt_mul (by decide)).mpr h
    exact ⟨leadingBit + code % leadingBit, code / leadingBit - 1, by omega, by omega,
      unitsOf_eq hge⟩

theorem unitsOf_lt (h : code < infinityCode) : unitsOf code < 2 ^ 2098 := by
  obtain ⟨m, s, hm, hs, hUnits⟩ := exists_significand h
  calc unitsOf code = m * 2 ^ s := hUnits
    _ < 2 ^ 53 * 2 ^ s := Nat.mul_lt_mul_of_pos_right hm (Nat.two_pow_pos s)
    _ ≤ 2 ^ 53 * 2 ^ 2045 := Nat.mul_le_mul_left _ (Nat.pow_le_pow_right (by decide) hs)
    _ = 2 ^ 2098 := by rw [← pow_add]

/-- A significand of 53 bits keeps its place when it is shifted. -/
theorem log2_mul_two_pow {m s : Nat} (hm : leadingBit ≤ m) (hm' : m < 2 * leadingBit) :
    (m * 2 ^ s).log2 = 52 + s := by
  have hPos : 0 < 2 ^ s := Nat.two_pow_pos s
  have hNe : m * 2 ^ s ≠ 0 := Nat.mul_ne_zero (by unfold leadingBit at hm; omega) hPos.ne'
  have hBit : (2 : Nat) ^ 52 = leadingBit := rfl
  refine (Nat.log2_eq_iff hNe).mpr ⟨?_, ?_⟩
  · rw [pow_add, hBit]
    exact Nat.mul_le_mul_right _ hm
  · rw [show 52 + s + 1 = 52 + 1 + s by omega, pow_add, pow_succ, hBit, Nat.mul_comm leadingBit]
    exact Nat.mul_lt_mul_of_pos_right hm' hPos

/-- A finite magnitude is nearest to itself. -/
theorem nearestCode_unitsOf (h : code < infinityCode) : nearestCode (unitsOf code) 1 = code := by
  rcases Nat.lt_or_ge code leadingBit with hlt | hge
  · have hShift : code.log2 - 52 = 0 := by
      rcases Nat.eq_zero_or_pos code with rfl | hPos
      · rfl
      · have := (Nat.log2_lt (k := 52) hPos.ne').mpr hlt
        omega
    rw [nearestCode, unitsOf, if_pos hlt, Nat.div_one, hShift, Nat.zero_mul, Nat.zero_add,
      Nat.shiftLeft_zero, roundDiv_one, Nat.min_eq_left h.le]
  · have hMod : code % leadingBit < leadingBit := Nat.mod_lt _ (by decide)
    have hDiv : 1 ≤ code / leadingBit := (Nat.one_le_div_iff (by decide)).mpr hge
    have hCode := Nat.div_add_mod' code leadingBit
    rw [unitsOf_eq hge]
    generalize code / leadingBit = q at hDiv hCode ⊢
    generalize code % leadingBit = f at hMod hCode ⊢
    have hLog := log2_mul_two_pow (m := leadingBit + f) (s := q - 1) (by omega) (by omega)
    have hRound : roundDiv ((leadingBit + f) * 2 ^ (q - 1)) (1 <<< (q - 1)) = leadingBit + f := by
      rw [Nat.shiftLeft_eq, roundDiv_mul_right _ _ (Nat.two_pow_pos _), roundDiv_one]
    have hSum : (q - 1) * leadingBit + (leadingBit + f) = code := by
      rw [← Nat.add_assoc, ← Nat.succ_mul, Nat.succ_eq_add_one, Nat.sub_add_cancel hDiv, hCode]
    rw [nearestCode, Nat.div_one, hLog, Nat.add_sub_cancel_left, hRound, hSum,
      Nat.min_eq_left h.le]

/-- Less than half a unit is nearest to zero. -/
theorem nearestCode_eq_zero (h : 2 * n < d) : nearestCode n d = 0 := by
  have hDiv : n / d = 0 := Nat.div_eq_of_lt (by omega)
  have hRound : roundDiv n d = 0 := by
    rw [roundDiv, Nat.mod_eq_of_lt (by omega), Nat.compare_eq_lt.mpr h, hDiv]
  rw [nearestCode, hDiv, Nat.log2_zero, Nat.zero_sub, Nat.zero_mul, Nat.zero_add,
    Nat.shiftLeft_zero, hRound, Nat.zero_min]

/-- From `2^2099` units on, every magnitude is nearest to infinity. -/
theorem nearestCode_eq_infinity (hk : 2099 ≤ k) (h : 2 ^ k ≤ n / d) :
    nearestCode n d = infinityCode := by
  have hNe : n / d ≠ 0 := (Nat.lt_of_lt_of_le (Nat.two_pow_pos k) h).ne'
  have hLog : k ≤ (n / d).log2 := (Nat.le_log2 hNe).mpr h
  refine Nat.min_eq_right (Nat.le_trans ?_ (Nat.le_add_right _ _))
  exact Nat.mul_le_mul_right leadingBit (by omega)

end Formula.Double
