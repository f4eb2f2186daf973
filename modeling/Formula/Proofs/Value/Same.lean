import Mathlib.Data.List.Forall2
import Formula.Proofs.Double.Whole
import Formula.Value.Equality

/-! What makes two values equal. Numbers that are exact in the binary64 format are equal if they are
at the same place on the line. -/

namespace Formula

theorem Double.equals_iff {x y : Double} (h : x.isNaN = false) :
    x.equals y ↔ x.place? = y.place? := by
  rw [equals, show x.place? = some _ by rw [place?, h]; rfl]
  cases y.place? <;> simp

namespace Number

/-- The place of a number on the line, in units of `2^-1074`. -/
def place? : Number → Option Int
  | int n => some (n * Double.unitsPerOne)
  | float x => x.place?

/-- Taking a number as a binary64 number loses nothing, and the number is no NaN. -/
def Exact : Number → Prop
  | int n => n.natAbs ≤ 2 ^ 53
  | float x => x.isNaN = false

variable {x y : Number}

theorem Exact.place?_toDouble (h : x.Exact) : x.toDouble.place? = x.place? := by
  cases x with
  | int n => exact Double.place?_ofInt h
  | float x => rfl

theorem Exact.isNaN_toDouble (h : x.Exact) : x.toDouble.isNaN = false := by
  cases x with
  | int n =>
    have hPlace := Double.place?_ofInt h
    rw [Double.place?] at hPlace
    split at hPlace
    case isTrue => cases hPlace
    case isFalse hNumber => exact eq_false_of_ne_true hNumber
  | float x => exact h

/-- Equal numbers are at the same place. -/
theorem equals_iff (hx : x.Exact) (hy : y.Exact) : x.equals y ↔ x.place? = y.place? := by
  have hDouble : x.toDouble.equals y.toDouble ↔ x.place? = y.place? := by
    rw [Double.equals_iff hx.isNaN_toDouble, hx.place?_toDouble, hy.place?_toDouble]
  cases x with
  | float x => exact hDouble
  | int m =>
    cases y with
    | float y => exact hDouble
    | int n =>
      have hUnit : Double.unitsPerOne ≠ 0 := by decide +kernel
      simp [equals, place?, hUnit]

end Number

/-- What a function is recognised by. -/
def Function.identity : Function → Conversion ⊕ Nat
  | conversion c => .inl c
  | host f => .inr f.id

theorem Function.same_iff {f g : Function} : f.same g ↔ f.identity = g.identity := by
  cases f <;> cases g <;> simp [same, identity]

namespace Value

variable {a b : Value}

/-- What makes two values equal. -/
inductive Same : Value → Value → Prop
  | none : Same .none .none
  | number {a b : Value} {x y : Number} (ha : a.number? = some x) (hb : b.number? = some y)
      (h : x.equals y) : Same a b
  | str (s : String) : Same (.str s) (.str s)
  | list {xs ys : List Value} (h : List.Forall₂ (fun x y => equals x y) xs ys) :
      Same (.list xs) (.list ys)
  | dict {xs ys : List (Value × Value)} (hLength : xs.length = ys.length)
      (h : ∀ x ∈ xs, ∃ v, lookup? x.1 ys = some v ∧ equals v x.2) : Same (.dict xs) (.dict ys)
  | function {f g : Function} (h : f.same g) : Same (.function f) (.function g)
  | method {r r' : Value} (m : Method) (h : equals r r') : Same (.method r m) (.method r' m)
  | object {o p : HostObject} (h : o.id = p.id) : Same (.object o) (.object p)

theorem equalItems_iff {xs ys : List Value} :
    equalItems xs ys ↔ List.Forall₂ (fun x y => equals x y) xs ys := by
  induction xs generalizing ys with
  | nil => cases ys <;> simp [equalItems]
  | cons x xs ih => cases ys <;> simp [equalItems, ih]

theorem entryIn_iff {k v : Value} {es : List (Value × Value)} :
    entryIn k v es ↔ ∃ v', lookup? k es = some v' ∧ equals v' v := by
  induction es with
  | nil => simp [entryIn, lookup?]
  | cons e es ih =>
    obtain ⟨k', v'⟩ := e
    by_cases h : equals k' k
    · simp [entryIn, lookup?, h]
    · simp [entryIn, lookup?, h, ih]

theorem entriesIn_iff {xs ys : List (Value × Value)} :
    entriesIn xs ys ↔ ∀ x ∈ xs, ∃ v, lookup? x.1 ys = some v ∧ equals v x.2 := by
  induction xs with
  | nil => simp [entriesIn]
  | cons x xs ih =>
    obtain ⟨k, v⟩ := x
    rw [entriesIn, Bool.and_eq_true, entryIn_iff, ih, List.forall_mem_cons]

theorem equals_iff_same : equals a b ↔ Same a b := by
  constructor
  · intro h
    unfold equals at h
    split at h
    case h_1 => exact .none
    case h_2 => exact eq_of_beq h ▸ .str _
    case h_3 => exact .list (equalItems_iff.mp h)
    case h_4 =>
      obtain ⟨hLength, hEntries⟩ := Bool.and_eq_true_iff.mp h
      exact .dict (eq_of_beq hLength) (entriesIn_iff.mp hEntries)
    case h_5 => exact .function h
    case h_6 =>
      obtain ⟨hMethod, hReceiver⟩ := Bool.and_eq_true_iff.mp h
      cases of_decide_eq_true hMethod
      exact .method _ hReceiver
    case h_7 => exact .object (eq_of_beq h)
    case h_8 =>
      split at h
      case h_1 x y hx hy => exact .number hx hy h
      case h_2 => cases h
  · intro h
    cases h with
    | none => simp [equals]
    | number ha hb h =>
      unfold equals
      split <;> simp_all [number?]
    | str s => simp [equals]
    | list h =>
      rw [equals, equalItems_iff]
      exact h
    | dict hLength h =>
      rw [equals, Bool.and_eq_true, entriesIn_iff]
      exact ⟨beq_iff_eq.mpr hLength, h⟩
    | function h => simpa [equals] using h
    | method m h => simpa [equals] using h
    | object h => simpa [equals] using h

end Value

end Formula
