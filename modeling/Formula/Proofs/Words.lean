import Mathlib.Algebra.Order.Ring.Int
import Formula.Decimal.Numeral

/-! Whole numbers in words of 64 bits. A step of arithmetic on words wraps around where its result
has more bits than a word. The steps below give no word where they would wrap, so a computation that
is made of them either is exact or says that it is not. -/

namespace Formula.Word

/-- The word `w` that a step leaves, unless the number `exact` that it is to find does not have 64
bits. -/
def checked (exact : Int) (w : Int64) : Option Int64 :=
  if Numeral.fits exact then some w else none

def add? (x y : Int64) : Option Int64 := checked (x.toInt + y.toInt) (x + y)

def sub? (x y : Int64) : Option Int64 := checked (x.toInt - y.toInt) (x - y)

def mul? (x y : Int64) : Option Int64 := checked (x.toInt * y.toInt) (x * y)

def neg? (x : Int64) : Option Int64 := checked (-x.toInt) (-x)

/-- The quotient, rounded towards zero. -/
def quotient? (x y : Int64) : Option Int64 :=
  if y = 0 then none else checked (x.toInt.tdiv y.toInt) (x / y)

/-- The remainder that the quotient leaves. There is none where there is no quotient. -/
def remainder? (x y : Int64) : Option Int64 := (quotient? x y).map fun _ => x % y

/-- The sum, or the word nearest to it. -/
def saturatingAdd (x y : Int64) : Int64 :=
  (add? x y).getD (if x < 0 then Int64.minValue else Int64.maxValue)

theorem fits_iff {n : Int} :
    Numeral.fits n ↔ -9223372036854775808 ≤ n ∧ n ≤ 9223372036854775807 := by
  rw [Numeral.fits, Bool.and_eq_true, decide_eq_true_iff, decide_eq_true_iff]
  rfl

theorem bounds (w : Int64) :
    -9223372036854775808 ≤ w.toInt ∧ w.toInt ≤ 9223372036854775807 :=
  ⟨w.le_toInt, Int.le_of_lt_add_one w.toInt_lt⟩

theorem fits_toInt (w : Int64) : Numeral.fits w.toInt := fits_iff.mpr (bounds w)

section Steps

variable {n : Int} {x y z w : Int64}

theorem checked_eq_none : checked n w = none ↔ ¬Numeral.fits n := by
  simp [checked]

/-- A step that wraps around where it has to is exact where it leaves a word. -/
theorem checked_eq_some (h : w.toInt = n.bmod (2 ^ 64)) : checked n w = some z ↔ z.toInt = n := by
  have hExact : Numeral.fits n → w.toInt = n := by
    intro hFits
    obtain ⟨hLow, hHigh⟩ := fits_iff.mp hFits
    rw [h, Int.bmod_eq_of_le (by omega) (by omega)]
  constructor
  · intro hSome
    obtain ⟨hFits, rfl⟩ := by simpa [checked] using hSome
    exact hExact hFits
  · rintro rfl
    have hFits := fits_toInt z
    rw [checked, if_pos hFits, Int64.toInt_inj.mp (hExact hFits)]

theorem add?_eq_some : add? x y = some z ↔ z.toInt = x.toInt + y.toInt :=
  checked_eq_some (Int64.toInt_add x y)

theorem exists_word (h : Numeral.fits n) : ∃ w : Int64, w.toInt = n := by
  obtain ⟨hLow, hHigh⟩ := fits_iff.mp h
  refine ⟨.ofInt n, ?_⟩
  have hSize : (Int64.size : Int) = 18446744073709551616 := rfl
  rw [Int64.toInt_ofInt, Int.bmod_eq_of_le (by omega) (by omega)]

theorem ne_zero_iff : w ≠ 0 ↔ w.toInt ≠ 0 := not_congr Int64.toInt_inj.symm

theorem neg_iff : w < 0 ↔ w.toInt < 0 := Int64.lt_iff_toInt_lt

/-- A step finds its result if it has 64 bits. -/
theorem checked_of_fits (h : w.toInt = n.bmod (2 ^ 64)) (hFits : Numeral.fits n) :
    ∃ z, checked n w = some z ∧ z.toInt = n := by
  obtain ⟨z, hz⟩ := exists_word hFits
  exact ⟨z, (checked_eq_some h).mpr hz, hz⟩

theorem add?_of_fits (h : Numeral.fits (x.toInt + y.toInt)) :
    ∃ z, add? x y = some z ∧ z.toInt = x.toInt + y.toInt :=
  checked_of_fits (Int64.toInt_add x y) h

theorem sub?_of_fits (h : Numeral.fits (x.toInt - y.toInt)) :
    ∃ z, sub? x y = some z ∧ z.toInt = x.toInt - y.toInt :=
  checked_of_fits (Int64.toInt_sub x y) h

end Steps

end Formula.Word
