import Formula.Text.Order

/-! The order of texts is total and transitive, and no two texts have the same place in it. -/

namespace Formula.Text

/-- Texts are ordered as lists of code points. -/
theorem order_eq_compareLex : order = List.compareLex (compareOn Char.toNat) := by
  funext s t
  induction s generalizing t with
  | nil => cases t <;> rfl
  | cons c s ih =>
    cases t with
    | nil => rfl
    | cons d t =>
      rw [order, ih t, List.compareLex_cons_cons]
      rfl

instance lawfulEqCmp_toNat : Std.LawfulEqCmp (compareOn Char.toNat) where
  compare_self := Std.ReflCmp.compare_self
  eq_of_compare h := Char.toNat_inj.mp (Nat.compare_eq_eq.mp h)

instance : Std.TransCmp order :=
  order_eq_compareLex ▸ (inferInstance : Std.TransCmp (List.compareLex (compareOn Char.toNat)))

instance : Std.LawfulEqCmp order :=
  order_eq_compareLex ▸ (inferInstance : Std.LawfulEqCmp (List.compareLex (compareOn Char.toNat)))

theorem order_eq_lt {s t : List Char} : order s t = .lt ↔ s < t := by
  induction s generalizing t with
  | nil => cases t <;> simp [order]
  | cons c s ih =>
    cases t with
    | nil => simp [order]
    | cons d t =>
      rw [order, Ordering.then_eq_lt, Nat.compare_eq_lt, Nat.compare_eq_eq, Char.toNat_inj, ih,
        List.cons_lt_cons_iff]
      rfl

end Formula.Text
