import Mathlib.Algebra.Order.Ring.Int
import Mathlib.Algebra.Group.Even
import Formula.Proofs.Words
import Formula.Value.Arithmetic

/-! Arithmetic on whole numbers of 64 bits. Sums, differences, products and negations are exact or
overflow, and so are powers, unless their exponent has more than 32 bits: such a power counts as an
overflow, which is wrong for the powers of zero, of one and of minus one. -/

namespace Formula

/-- The whole number that an operator is to find for two whole numbers. Division finds numbers of
other types, or rounds, and so do powers with an exponent below zero. -/
def BinaryOp.whole? (op : BinaryOp) (x y : Int) : Option Int :=
  match op with
  | add => some (x + y)
  | sub => some (x - y)
  | mul => some (x * y)
  | pow => if 0 ≤ y then some (x ^ y.toNat) else none
  | div | floorDiv | mod => none

namespace Value

/-- An outcome of the operator `op` is the whole number `n`, or an overflow if `n` does not have 64
bits. -/
structure Finds (op : String) (n : Int) (outcome : Except Complaint Value) : Prop where
  value : Numeral.fits n → outcome = .ok (.int n)
  overflow : ¬Numeral.fits n → outcome = .error (.integerOverflow op)

/-- The outcome of an operator that is found by a step on words. -/
def ofWord? (op : String) : Option Int64 → Except Complaint Value
  | some w => .ok (.int w.toInt)
  | Option.none => .error (.integerOverflow op)

/-- An exponent has more than 32 bits, but the power is zero, one or minus one. -/
def Narrowed (op : BinaryOp) (x y : Int) : Prop :=
  op = .pow ∧ x.natAbs ≤ 1 ∧ maxExponent < y

theorem finds_iff {op : String} {n : Int} {outcome : Except Complaint Value} :
    Finds op n outcome ↔ outcome = checked op n := by
  by_cases hFits : Numeral.fits n
  · rw [checked, if_pos hFits]
    exact ⟨fun h => h.value hFits, fun h => ⟨fun _ => h, absurd hFits⟩⟩
  · rw [checked, if_neg hFits]
    exact ⟨fun h => h.overflow hFits, fun h => ⟨fun h' => absurd h' hFits, fun _ => h⟩⟩

theorem checked_eq_ofWord? {n : Int} {w : Int64} (op : String) (h : w.toInt = n.bmod (2 ^ 64)) :
    checked op n = ofWord? op (Word.checked n w) := by
  cases hWord : Word.checked n w with
  | none => exact if_neg (Word.checked_eq_none.mp hWord)
  | some z =>
    have hExact := (Word.checked_eq_some h).mp hWord
    rw [← hExact]
    exact if_pos (Word.fits_toInt z)

/-! ### Powers -/

/-- The powers of zero, one and minus one depend on whether the exponent is zero, odd or even. -/
theorem pow_parity {x : Int} (h : x.natAbs ≤ 1) (y : Nat) :
    x ^ (if y = 0 then 0 else 2 - y % 2) = x ^ y := by
  split
  case isTrue hZero => rw [hZero]
  case isFalse hPos =>
    obtain rfl | rfl | rfl : x = 0 ∨ x = 1 ∨ x = -1 := by omega
    · rw [zero_pow (by omega), zero_pow hPos]
    · rw [one_pow, one_pow]
    · rcases Nat.even_or_odd y with hEven | hOdd
      · rw [hEven.neg_one_pow, Nat.even_iff.mp hEven]
        rfl
      · rw [hOdd.neg_one_pow, Nat.odd_iff.mp hOdd]
        rfl

/-- Every other number is too large from its 64th power on. -/
theorem not_fits_pow {x : Int} {y : Nat} (hBase : 2 ≤ x.natAbs) (hExponent : 64 ≤ y) :
    ¬Numeral.fits (x ^ y) := by
  have hLarge : 2 ^ 64 ≤ (x ^ y).natAbs :=
    calc 2 ^ 64 ≤ x.natAbs ^ 64 := Nat.pow_le_pow_left hBase 64
      _ ≤ x.natAbs ^ y := Nat.pow_le_pow_right (by omega) hExponent
      _ = (x ^ y).natAbs := (Int.natAbs_pow x y).symm
  rw [Word.fits_iff]
  omega

/-- A power is exact or overflows if its exponent has 32 bits. -/
theorem intPower_eq (x : Int) (y : Nat) :
    intPower x y = if maxExponent < y then .error (.integerOverflow BinaryOp.pow.text)
      else checked BinaryOp.pow.text (x ^ y) := by
  unfold intPower
  split
  case isTrue => rfl
  case isFalse =>
    split
    case isTrue hSmall =>
      rw [← pow_parity hSmall y]
      rfl
    case isFalse hLarge =>
      split
      case isTrue hHigh =>
        rw [checked, if_neg (not_fits_pow (by omega) hHigh)]
      case isFalse => rfl

/-! ### Operators -/

section Operators

variable {a b : Value} {x y : Int}

/-- Operands that are whole numbers are neither joined nor repeated. -/
theorem binary_eq (ha : number? a = some (.int x)) (hb : number? b = some (.int y))
    (op : BinaryOp) : binary op a b = intArithmetic op x y := by
  have hArithmetic : arithmetic op a b = intArithmetic op x y := by
    rw [arithmetic, ha, hb]
  rw [← hArithmetic]
  cases a <;> cases ha <;> cases b <;> cases hb <;> cases op <;> rfl

theorem negative_eq (ha : number? a = some (.int x)) :
    negative a = checked UnaryOp.neg.text (-x) := by
  rw [negative, signed, ha]

theorem intArithmetic_pow (hy : 0 ≤ y) :
    intArithmetic .pow x y =
      if maxExponent < y.toNat then .error (.integerOverflow BinaryOp.pow.text)
      else checked BinaryOp.pow.text (x ^ y.toNat) := by
  rw [← intPower_eq]
  exact if_pos hy

theorem fits_pow (h : x.natAbs ≤ 1) (y : Nat) : Numeral.fits (x ^ y) := by
  have hSmall : (x ^ y).natAbs ≤ 1 := by
    rw [Int.natAbs_pow]
    exact (Nat.pow_le_pow_left h y).trans_eq (Nat.one_pow y)
  rw [Word.fits_iff]
  omega

/-- The number that an operator is to find is found, or overflows, unless the exponent is too
great for a power of zero, one or minus one. -/
theorem finds_iff_not_narrowed {op : BinaryOp} {n : Int} (h : op.whole? x y = some n) :
    Finds op.text n (intArithmetic op x y) ↔ ¬Narrowed op x y := by
  have hOther : op ≠ .pow → ¬Narrowed op x y := fun hOp hNarrowed => hOp hNarrowed.1
  cases op with
  | add | sub | mul =>
    obtain rfl := Option.some.inj h
    exact iff_of_true (finds_iff.mpr rfl) (hOther nofun)
  | div | floorDiv | mod => cases h
  | pow =>
    obtain ⟨hy, rfl⟩ : 0 ≤ y ∧ x ^ y.toNat = n := by simpa [BinaryOp.whole?] using h
    rw [intArithmetic_pow hy]
    split
    case isFalse hShort =>
      refine iff_of_true (finds_iff.mpr rfl) fun hNarrowed => ?_
      have hLong := hNarrowed.2.2
      omega
    case isTrue hLong =>
      by_cases hBase : x.natAbs ≤ 1
      · refine iff_of_false (fun hFinds => ?_) fun hNot => hNot ⟨rfl, hBase, by omega⟩
        cases hFinds.value (fits_pow hBase y.toNat)
      · have hLarge : 64 ≤ y.toNat := by
          have hMax : maxExponent = 4294967295 := rfl
          omega
        refine iff_of_true ⟨fun hFits => ?_, fun _ => rfl⟩ fun hNarrowed => hBase hNarrowed.2.1
        exact absurd hFits (not_fits_pow (by omega) hLarge)

theorem narrowed_overflows {op : BinaryOp} (h : Narrowed op x y) :
    intArithmetic op x y = .error (.integerOverflow op.text) := by
  obtain ⟨rfl, -, hLong⟩ := h
  rw [intArithmetic_pow (by omega), if_pos (by omega)]

end Operators

/-- Operators on whole numbers of 64 bits, as which truth values count too, find the exact number or
overflow, unless the exponent of a power of zero, one or minus one has more than 32 bits: then they
overflow. Sums, differences, products and negations are found by words that do not wrap around. -/
theorem finds_unless_narrowed {a b : Value} {x y : Int64}
    (ha : number? a = some (.int x.toInt)) (hb : number? b = some (.int y.toInt)) :
    (∀ (op : BinaryOp) (n : Int), op.whole? x.toInt y.toInt = some n →
      (Finds op.text n (binary op a b) ↔ ¬Narrowed op x.toInt y.toInt)) ∧
    (∀ op : BinaryOp, Narrowed op x.toInt y.toInt →
      binary op a b = .error (.integerOverflow op.text)) ∧
    Finds UnaryOp.neg.text (-x.toInt) (negative a) ∧
    binary .add a b = ofWord? BinaryOp.add.text (Word.add? x y) ∧
    binary .sub a b = ofWord? BinaryOp.sub.text (Word.sub? x y) ∧
    binary .mul a b = ofWord? BinaryOp.mul.text (Word.mul? x y) ∧
    negative a = ofWord? UnaryOp.neg.text (Word.neg? x) := by
  have hBinary := binary_eq ha hb
  have hNegative := negative_eq ha
  refine ⟨fun op n hWhole => ?_, fun op hNarrowed => ?_, finds_iff.mpr hNegative, ?_, ?_, ?_, ?_⟩
  · rw [hBinary]
    exact finds_iff_not_narrowed hWhole
  · rw [hBinary]
    exact narrowed_overflows hNarrowed
  · exact (hBinary .add).trans (checked_eq_ofWord? _ (Int64.toInt_add x y))
  · exact (hBinary .sub).trans (checked_eq_ofWord? _ (Int64.toInt_sub x y))
  · exact (hBinary .mul).trans (checked_eq_ofWord? _ (Int64.toInt_mul x y))
  · exact hNegative.trans (checked_eq_ofWord? _ (Int64.toInt_neg x))

/-- One more than the greatest word overflows, also where the one is a truth value. -/
theorem finds_unless_narrowed_truth :
    number? (.bool true) = some (.int (1 : Int64).toInt) ∧
      number? (.int 9223372036854775807) = some (.int Int64.maxValue.toInt) ∧
      Finds "+" 9223372036854775808 (binary .add (.bool true) (.int 9223372036854775807)) := by
  have hTrue : number? (.bool true) = some (.int (1 : Int64).toInt) := rfl
  have hMax : number? (.int 9223372036854775807) = some (.int Int64.maxValue.toInt) := rfl
  refine ⟨hTrue, hMax, ((finds_unless_narrowed hTrue hMax).1 .add _ ?_).mpr (fun h => nomatch h.1)⟩
  decide

/-- The power of one with an exponent of 33 bits is one, but overflows. -/
theorem power_of_one_overflows :
    BinaryOp.pow.whole? 1 4294967296 = some 1 ∧
      binary .pow (.int 1) (.int 4294967296) = .error (.integerOverflow "**") ∧
      ¬Finds "**" 1 (binary .pow (.int 1) (.int 4294967296)) := by
  have hOne : BinaryOp.pow.whole? 1 4294967296 = some 1 := by simp [BinaryOp.whole?]
  have hOverflow : binary .pow (.int 1) (.int 4294967296) = .error (.integerOverflow "**") := rfl
  refine ⟨hOne, hOverflow, fun hFinds => ?_⟩
  rw [hOverflow] at hFinds
  cases hFinds.value (by decide)

end Value

end Formula
