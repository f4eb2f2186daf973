import Mathlib.Algebra.Order.Ring.Int
import Formula.Value.Arithmetic

/-! Text and lists repeated by `*`. What is joined are as many copies as the count says, and none
where it is below zero, unless they are longer than the limit together. Within the limit, repetition
turns sums of counts into what `+` joins. -/

namespace Formula.Value

/-- The length of text, in bytes, or of a list, in items. -/
def extent? : Value → Option Nat
  | str s => some s.utf8ByteSize
  | list items => some items.length
  | _ => Option.none

/-- What the type of text or of a list is called. -/
def sequenceType : Value → String
  | str _ => "str"
  | _ => "list"

/-- `count` copies of text or of a list, joined. -/
def copies (count : Nat) : Value → Value
  | str s => text (List.replicate count s.toList).flatten
  | list items => list (List.replicate count items).flatten
  | v => v

/-- The copies of text or of a list whose length is `length`, if they are not too long. -/
def repeated (v : Value) (length count : Nat) : Except Complaint Value :=
  if 2 ^ 24 < length * count then .error (.repeatTooLarge v.sequenceType) else .ok (v.copies count)

/-- An outcome is as many copies as `count` says, or a report that they are too long. -/
structure Repeats (v : Value) (length count : Nat) (outcome : Except Complaint Value) :
    Prop where
  tooLarge : outcome = .error (.repeatTooLarge v.sequenceType) ↔ 2 ^ 24 < length * count
  copies : length * count ≤ 2 ^ 24 → outcome = .ok (v.copies count)

variable {v c : Value} {length : Nat} {n : Int}

theorem repeats_repeated (v : Value) (length count : Nat) :
    Repeats v length count (repeated v length count) := by
  unfold repeated
  split
  case isTrue hLong => exact ⟨iff_of_true rfl hLong, fun h => absurd hLong (Nat.not_lt.mpr h)⟩
  case isFalse hShort => exact ⟨iff_of_false nofun hShort, fun _ => rfl⟩

theorem repeatText_eq (s : String) (count : Nat) :
    repeatText s count = repeated (.str s) s.utf8ByteSize count := by
  have hText : (if s.isEmpty then s else String.join (List.replicate count s)) =
      String.ofList (List.replicate count s.toList).flatten := by
    apply String.toList_injective
    split
    case isTrue hEmpty => simp [String.isEmpty_iff.mp hEmpty]
    case isFalse => simp [String.toList_join, List.flatMap]
  rw [repeatText, hText]
  rfl

theorem repeatItems_eq (items : List Value) (count : Nat) :
    repeatItems items count = repeated (.list items) items.length count := by
  have hItems : (if items.isEmpty then items else (List.replicate count items).flatten) =
      (List.replicate count items).flatten := by
    split
    case isTrue hEmpty => simp [List.isEmpty_iff.mp hEmpty]
    case isFalse => rfl
  rw [repeatItems, hItems]
  rfl

/-- A count may stand on either side. -/
theorem mul_count (hv : extent? v = some length) (hc : number? c = some (.int n)) :
    binary .mul v c = repeated v length n.toNat ∧ binary .mul c v = repeated v length n.toNat := by
  have hCount : repeatCount? c = some n.toNat := by
    cases c with
    | bool b => cases hc; cases b <;> rfl
    | int m => cases hc; rfl
    | _ => cases hc
  generalize n.toNat = count at hCount ⊢
  cases v with
  | str s =>
    cases hv
    rw [← repeatText_eq]
    cases c <;> cases hCount <;> exact ⟨rfl, rfl⟩
  | list items =>
    cases hv
    rw [← repeatItems_eq]
    cases c <;> cases hCount <;> exact ⟨rfl, rfl⟩
  | _ => cases hv

/-- Without a count, text and lists are no operands of `*`. -/
theorem mul_other (hv : extent? v = some length) (hc : ∀ n, number? c ≠ some (.int n)) :
    binary .mul v c = .error (.unsupportedOperands .mul v c) ∧
      binary .mul c v = .error (.unsupportedOperands .mul c v) := by
  cases v with
  | str s | list items =>
    cases c with
    | bool b | int m => exact absurd rfl (hc _)
    | _ => exact ⟨rfl, rfl⟩
  | _ => cases hv

theorem add_copies (hv : extent? v = some length) (m n : Nat) :
    binary .add (v.copies m) (v.copies n) = .ok (v.copies (m + n)) := by
  cases v with
  | str s =>
    rw [copies, copies, copies, ← List.replicate_append_replicate, List.flatten_append]
    exact congrArg (Except.ok ∘ Value.str) String.ofList_append.symm
  | list items =>
    rw [copies, copies, copies, ← List.replicate_append_replicate, List.flatten_append]
    rfl
  | _ => cases hv

/-- Text and lists times a count, which may be a truth value and stand on either side, are as many
copies joined, unless these are longer than `2^24` bytes or items. So where a sum of counts is not
too much, neither are its parts, and `+` joins what they give to the whole. Times anything else,
text and lists are unsupported. -/
theorem repetition_exact (hv : extent? v = some length) :
    (∀ c n, number? c = some (.int n) →
      Repeats v length n.toNat (binary .mul v c) ∧ Repeats v length n.toNat (binary .mul c v)) ∧
    (∀ (m n : Nat) (w : Value), binary .mul v (.int (m + n)) = .ok w →
      ∃ x y, binary .mul v (.int m) = .ok x ∧ binary .mul v (.int n) = .ok y ∧
        binary .add x y = .ok w) ∧
    ∀ c, (∀ n, number? c ≠ some (.int n)) →
      binary .mul v c = .error (.unsupportedOperands .mul v c) ∧
      binary .mul c v = .error (.unsupportedOperands .mul c v) := by
  have hCount : ∀ n : Nat, Repeats v length n (binary .mul v (.int n)) := by
    intro n
    rw [(mul_count hv (n := n) rfl).1, Int.toNat_natCast]
    exact repeats_repeated v length n
  refine ⟨fun c n hc => ?_, fun m n w hSum => ?_, fun c hc => mul_other hv hc⟩
  · obtain ⟨hLeft, hRight⟩ := mul_count hv hc
    rw [hLeft, hRight]
    exact ⟨repeats_repeated v length n.toNat, repeats_repeated v length n.toNat⟩
  · have hAll := hCount (m + n)
    rw [Int.natCast_add, hSum] at hAll
    have hLength : length * (m + n) ≤ 2 ^ 24 :=
      Nat.not_lt.mp fun hLong => nomatch hAll.tooLarge.mpr hLong
    obtain rfl := Except.ok.inj (hAll.copies hLength)
    have hPart : ∀ k ≤ m + n, length * k ≤ 2 ^ 24 := fun k hk =>
      (Nat.mul_le_mul_left length hk).trans hLength
    exact ⟨_, _, (hCount m).copies (hPart m (Nat.le_add_right m n)),
      (hCount n).copies (hPart n (Nat.le_add_left n m)), add_copies hv m n⟩

/-- The limit counts bytes: a letter of two bytes may be repeated up to half as often. -/
theorem repetition_exact_bytes :
    extent? (.str "é") = some 2 ∧
      binary .mul (.int 8388608) (.str "é") = .ok (copies 8388608 (.str "é")) ∧
      binary .mul (.str "é") (.int 8388609) = .error (.repeatTooLarge "str") := by
  have hTwo : extent? (.str "é") = some 2 := rfl
  have hCounts := (repetition_exact hTwo).1
  exact ⟨hTwo, (hCounts (.int 8388608) 8388608 rfl).2.copies (by decide),
    (hCounts (.int 8388609) 8388609 rfl).1.tooLarge.mpr (by decide)⟩

end Formula.Value
