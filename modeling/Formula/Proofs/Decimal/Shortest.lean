import Formula.Proofs.Decimal.Code

/-! The shortest decimal of a number reads back, and its digits are few enough to be read without a
loss. -/

namespace Formula.Decimal

open Double (infinityCode unitsOf unitsPerOne)

variable {code count : Nat} {exponent : Int} {d : Decimal}

/-- The digits of a decimal with the zeros that a power of ten above one takes. -/
def size (d : Decimal) : Nat := d.digits * 10 ^ d.exponent.toNat

/-- A zero at the end of the digits says as much as the exponent does. -/
theorem code_shift (n : Nat) (e : Int) :
    (⟨n, e + 1⟩ : Decimal).code = (⟨10 * n, e⟩ : Decimal).code := by
  apply code_congr
  simp only [numerator, denominator]
  rcases lt_or_ge e 0 with he | he
  · rw [show e.toNat = 0 by omega, show (e + 1).toNat = 0 by omega,
      show (-e).toNat = (-(e + 1)).toNat + 1 by omega]
    ring
  · rw [show (e + 1).toNat = e.toNat + 1 by omega, show (-(e + 1)).toNat = 0 by omega,
      show (-e).toNat = 0 by omega]
    ring

theorem size_shift_le (n : Nat) (e : Int) :
    (⟨n, e + 1⟩ : Decimal).size ≤ (⟨10 * n, e⟩ : Decimal).size := by
  simp only [size]
  rcases lt_or_ge e 0 with he | he
  · rw [show e.toNat = 0 by omega, show (e + 1).toNat = 0 by omega]
    omega
  · rw [show (e + 1).toNat = e.toNat + 1 by omega, pow_succ]
    exact Nat.le_of_eq (by ring)

/-- Without the zeros at its end a decimal stands for the same number, in no more room. -/
theorem normal_spec (d : Decimal) : d.normal.code = d.code ∧ d.normal.size ≤ d.size := by
  fun_induction normal d with
  | case1 d h ih =>
    have hDigits : 10 * (d.digits / 10) = d.digits := by omega
    have hCode := code_shift (d.digits / 10) d.exponent
    have hSize := size_shift_le (d.digits / 10) d.exponent
    rw [hDigits] at hCode hSize
    exact ⟨ih.1.trans hCode, ih.2.trans hSize⟩
  | case2 => exact ⟨rfl, Nat.le_refl _⟩

theorem normal_mul_pow {n : Nat} (hn : n ≠ 0) (s : Nat) (e : Int) :
    normal ⟨n * 10 ^ s, e⟩ = normal ⟨n, e + s⟩ := by
  induction s generalizing e with
  | zero => simp
  | succ s ih =>
    have hPos : 0 < n * 10 ^ s := Nat.mul_pos (Nat.pos_of_ne_zero hn) (Nat.pow_pos (by decide))
    rw [normal, pow_succ, ← Nat.mul_assoc, if_pos ⟨(Nat.mul_pos hPos (by decide)).ne',
      Nat.mul_mod_left _ _⟩, Nat.mul_div_cancel _ (by decide), ih]
    congr 2
    push_cast
    ring

/-- A decimal on a grid reads back, and is one of two multiples of the power of ten. -/
theorem onGrid?_spec (h : onGrid? code exponent = some d) :
    d.code = code ∧
    d.size ≤ ((scaled (unitsOf code) exponent).1 / (scaled (unitsOf code) exponent).2 + 1) *
      10 ^ exponent.toNat := by
  have hSize : ∀ n : Nat, (normal ⟨n, exponent⟩).size ≤ n * 10 ^ exponent.toNat := fun n =>
    (normal_spec _).2
  have hBelow : ∀ n : Nat, (normal ⟨n, exponent⟩).size ≤ (n + 1) * 10 ^ exponent.toNat := fun n =>
    (hSize n).trans (Nat.mul_le_mul_right _ (Nat.le_succ n))
  simp only [onGrid?] at h
  split at h
  · next hRead =>
    split at h
    · next hBoth =>
      simp only [Bool.and_eq_true, decide_eq_true_eq] at hBoth
      cases h
      exact ⟨hBoth.1, hSize _⟩
    · cases h
      exact ⟨hRead, hBelow _⟩
  · split at h
    · next hRead =>
      cases h
      exact ⟨hRead, hSize _⟩
    · cases h

theorem firstOnGrid?_spec (h : firstOnGrid? code count exponent = some d) :
    ∃ i, exponent - count < i ∧ i ≤ exponent ∧ onGrid? code i = some d := by
  induction count generalizing exponent with
  | zero => cases h
  | succ count ih =>
    rw [firstOnGrid?, Option.or_eq_some_iff] at h
    rcases h with h | ⟨-, h⟩
    · exact ⟨exponent, by omega, Int.le_refl _, h⟩
    · obtain ⟨i, hLow, hHigh, hGrid⟩ := ih h
      exact ⟨i, by omega, by omega, hGrid⟩

/-- A unit is a power of two, so it has as many decimal places as the power says. -/
theorem code_units (u : Nat) {k : Nat} (hk : unitsPerOne = 2 ^ k) :
    (⟨u * Nat.pow 5 k, -(k : Int)⟩ : Decimal).code = Double.nearestCode u 1 := by
  have hTen : (10 : Nat) ^ k = 5 ^ k * 2 ^ k := Nat.mul_pow 5 2 k
  rw [code_eq]
  refine Double.nearestCode_congr (denominator_pos _) Nat.one_pos ?_
  simp only [numerator, denominator, Int.neg_neg, Int.toNat_natCast, Int.toNat_neg_natCast, hk,
    Nat.pow_eq, hTen]
  ring

/-- The shortest decimal of a finite magnitude reads back. -/
theorem shortest_code (h : code < infinityCode) : (shortest code).code = code := by
  rw [shortest]
  cases hGrid : firstOnGrid? code 17 (leadingExponent (unitsOf code)) with
  | none =>
    rw [Option.getD_none, exact, (normal_spec _).1]
    exact (code_units _ unitsPerOne_eq).trans (Double.nearestCode_unitsOf h)
  | some d =>
    obtain ⟨i, -, -, hFound⟩ := firstOnGrid?_spec hGrid
    rw [Option.getD_some, (onGrid?_spec hFound).1]

/-- In units, a finite magnitude is below `2^2098`, so its whole part is below `2^1024`. -/
theorem div_unitsPerOne_lt {u k : Nat} (h : u < 2 ^ 2098) (hk : 0 < k) :
    u * k / unitsPerOne < 2 ^ 1024 * k := by
  rw [unitsPerOne_eq, Nat.div_lt_iff_lt_mul (Nat.two_pow_pos _), Nat.mul_right_comm, ← pow_add]
  exact Nat.mul_lt_mul_of_pos_right h hk

theorem leadingExponent_bounds {u : Nat} (h : u < 2 ^ 2098) :
    -324 ≤ leadingExponent u ∧ leadingExponent u ≤ 308 := by
  have hTen : (2 : Nat) ^ 1024 * 10 ^ 324 ≤ 10 ^ 633 := by decide +kernel
  have hPow : 0 < (10 : Nat) ^ 324 := Nat.pow_pos (by decide)
  rw [leadingExponent, Nat.pow_eq]
  generalize (10 : Nat) ^ 324 = k at hTen hPow
  have hWhole := Nat.lt_of_lt_of_le (div_unitsPerOne_lt h hPow) hTen
  have hPos := Nat.length_toDigits_pos (b := 10) (n := u * k / unitsPerOne)
  have hLength := (Nat.length_toDigits_le_iff (b := 10) (by decide) (by decide)).mpr hWhole
  omega

/-- The multiples on the grids that are tried leave room for the digits. -/
theorem scaled_lt {u : Nat} {e : Int} (h : u < 2 ^ 2098) (hLow : -345 ≤ e) (hHigh : e ≤ 308) :
    ((scaled u e).1 / (scaled u e).2 + 1) * 10 ^ e.toNat < 10 ^ 799 := by
  rw [scaled]
  split
  · next he =>
    have hTen : (2 : Nat) ^ 1024 * 1 + 10 ^ 308 < 10 ^ 799 := by decide +kernel
    have hWhole := div_unitsPerOne_lt h Nat.one_pos
    have hPow : (10 : Nat) ^ e.toNat ≤ 10 ^ 308 := Nat.pow_le_pow_right (by decide) (by omega)
    calc (u / (unitsPerOne * Nat.pow 10 e.toNat) + 1) * 10 ^ e.toNat
        = u * 1 / unitsPerOne / 10 ^ e.toNat * 10 ^ e.toNat + 10 ^ e.toNat := by
          rw [← Nat.div_div_eq_div_mul, Nat.add_mul, Nat.one_mul, Nat.mul_one]
          rfl
      _ ≤ u * 1 / unitsPerOne + 10 ^ e.toNat := Nat.add_le_add_right (Nat.div_mul_le_self _ _) _
      _ ≤ 2 ^ 1024 * 1 + 10 ^ 308 := Nat.add_le_add hWhole.le hPow
      _ < 10 ^ 799 := hTen
  · next he =>
    have hTen : (2 : Nat) ^ 1024 * 10 ^ 345 < 10 ^ 799 := by decide +kernel
    have hPow : (10 : Nat) ^ (-e).toNat ≤ 10 ^ 345 := Nat.pow_le_pow_right (by decide) (by omega)
    have hWhole := div_unitsPerOne_lt (k := 10 ^ (-e).toNat) h (Nat.pow_pos (by decide))
    rw [show e.toNat = 0 by omega, pow_zero, Nat.mul_one]
    calc u * 10 ^ (-e).toNat / unitsPerOne + 1
        ≤ 2 ^ 1024 * 10 ^ (-e).toNat := hWhole
      _ ≤ 2 ^ 1024 * 10 ^ 345 := Nat.mul_le_mul_left _ hPow
      _ < 10 ^ 799 := hTen

/-- The digits of a significand that is shifted by less than one end in as many zeros as it is
shifted by. -/
theorem size_significand_le {m : Nat} (hm : m ≠ 0) (s k : Nat) :
    (normal ⟨m * 2 ^ s * Nat.pow 5 (s + k), -(s + k : Nat)⟩).size ≤ m * 5 ^ k := by
  have hTen : (10 : Nat) ^ s = 2 ^ s * 5 ^ s := Nat.mul_pow 2 5 s
  have hDigits : m * 2 ^ s * Nat.pow 5 (s + k) = m * 5 ^ k * 10 ^ s := by
    rw [Nat.pow_eq, pow_add, hTen]
    ring
  have hSize := (normal_spec ⟨m * 5 ^ k, -(s + k : Nat) + (s : Int)⟩).2
  rw [← normal_mul_pow (Nat.mul_ne_zero hm (Nat.pow_pos (by decide)).ne') s, ← hDigits] at hSize
  refine hSize.trans (Nat.le_of_eq ?_)
  rw [size, show (-(s + k : Nat) + (s : Int)).toNat = 0 by omega, pow_zero, Nat.mul_one]

theorem exact_size_lt (h : code < infinityCode) (hFraction : unitsOf code % unitsPerOne ≠ 0) :
    (exact code).size < 10 ^ 799 := by
  obtain ⟨m, s, hm, -, hUnits⟩ := Double.exists_significand h
  have hTen : (2 : Nat) ^ 53 * 5 ^ 1074 < 10 ^ 799 := by decide +kernel
  have hNe : m ≠ 0 := by
    rintro rfl
    exact hFraction (by rw [hUnits, Nat.zero_mul, Nat.zero_mod])
  have hShift : s ≤ 1074 := by
    by_contra hLarge
    refine hFraction (Nat.mod_eq_zero_of_dvd ?_)
    rw [hUnits, unitsPerOne_eq]
    exact Dvd.dvd.mul_left (Nat.pow_dvd_pow 2 (by omega)) m
  obtain ⟨k, hk⟩ := Nat.exists_eq_add_of_le hShift
  have hExponent : (-1074 : Int) = -(s + k : Nat) := by omega
  rw [exact, hExponent, hUnits]
  generalize 1074 = places at hk ⊢
  subst hk
  have hPow : 5 ^ k ≤ 5 ^ 1074 := Nat.pow_le_pow_right (by decide) (by omega)
  exact Nat.lt_of_le_of_lt ((size_significand_le hNe s k).trans (Nat.mul_le_mul hm.le hPow)) hTen

/-- The shortest decimal of a finite magnitude that is no whole number leaves room for a digit after
the point. -/
theorem shortest_size_lt (h : code < infinityCode) (hFraction : unitsOf code % unitsPerOne ≠ 0) :
    (shortest code).size < 10 ^ 799 := by
  have hUnits := Double.unitsOf_lt h
  obtain ⟨hLow, hHigh⟩ := leadingExponent_bounds hUnits
  rw [shortest]
  cases hGrid : firstOnGrid? code 17 (leadingExponent (unitsOf code)) with
  | none =>
    rw [Option.getD_none]
    exact exact_size_lt h hFraction
  | some d =>
    obtain ⟨i, hFrom, hTo, hFound⟩ := firstOnGrid?_spec hGrid
    rw [Option.getD_some]
    exact Nat.lt_of_le_of_lt (onGrid?_spec hFound).2 (scaled_lt hUnits (by omega) (by omega))

end Formula.Decimal
