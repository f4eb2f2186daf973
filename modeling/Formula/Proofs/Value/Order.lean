import Formula.Proofs.Text.Order
import Formula.Proofs.Value.Equality
import Formula.Value.Order

/-! The order of well-formed values goes with their equality. Two values can be ordered whichever
operator asks, or by none, and equal values stand in the same place. Lists are ordered by the first
items that differ, so a value that is equal to one of these has to be ordered as that one is. -/

namespace Formula

/-- The operators that ask for an order. -/
def Comparison.asksOrder : Comparison → Bool
  | eq | ne => false
  | gt | lt | ge | le => true

namespace Number

variable {x y : Number}

theorem Exact.exists_place (h : x.Exact) : ∃ p, x.place? = some p := by
  cases x with
  | int n => exact ⟨_, rfl⟩
  | float x =>
    rw [place?, Double.place?, show x.isNaN = false from h]
    exact ⟨_, rfl⟩

/-- Exact numbers are ordered by their places on the line. -/
theorem order?_eq {p q : Int} (hx : x.Exact) (hy : y.Exact) (hp : x.place? = some p)
    (hq : y.place? = some q) : x.order? y = some (compare p q) := by
  have hDouble : x.toDouble.order? y.toDouble = some (compare p q) := by
    rw [Double.order?, hx.place?_toDouble, hy.place?_toDouble, hp, hq]
  cases x with
  | float x => exact hDouble
  | int m =>
    cases y with
    | float y => exact hDouble
    | int n =>
      cases hp
      cases hq
      have hUnit : (0 : Int) < Double.unitsPerOne := by decide +kernel
      have hLess : ∀ {k l : Int}, k * Double.unitsPerOne < l * Double.unitsPerOne ↔ k < l :=
        Int.mul_lt_mul_right hUnit
      rw [order?]
      rcases lt_trichotomy m n with h | h | h
      · rw [Int.compare_eq_lt.mpr h, Int.compare_eq_lt.mpr (hLess.mpr h)]
      · rw [h, Int.compare_eq_eq.mpr rfl, Int.compare_eq_eq.mpr rfl]
      · rw [Int.compare_eq_gt.mpr h, Int.compare_eq_gt.mpr (hLess.mpr h)]

end Number

namespace Value

variable {P : Value → Prop} {a a' b c : Value} {o : Ordering} {xs ys zs : List Value}

/-- How `a` stands to `b`, whichever operator asks. -/
def Ranks (a b : Value) (o : Ordering) : Prop := ∀ op, order op a b = .ok (some o)

/-- How a list stands to another: as the first of its items that differs from the other's does, or
else as its length does. -/
inductive RanksItems : List Value → List Value → Ordering → Prop
  | done : RanksItems [] [] .eq
  | shorter (y : Value) (ys : List Value) : RanksItems [] (y :: ys) .lt
  | longer (x : Value) (xs : List Value) : RanksItems (x :: xs) [] .gt
  | same {x y : Value} {xs ys : List Value} {o : Ordering} (h : equals x y)
      (later : RanksItems xs ys o) : RanksItems (x :: xs) (y :: ys) o
  | differ {x y : Value} {o : Ordering} (xs ys : List Value) (h : ¬equals x y)
      (ranks : Ranks x y o) : RanksItems (x :: xs) (y :: ys) o

/-- What lets two values be ordered. -/
inductive Placed : Value → Value → Ordering → Prop
  | number {a b : Value} {x y : Number} {o : Ordering} (ha : a.number? = some x)
      (hb : b.number? = some y) (h : x.order? y = some o) : Placed a b o
  | str {s t : String} {o : Ordering} (h : Text.order s.toList t.toList = o) :
      Placed (.str s) (.str t) o
  | list {xs ys : List Value} {o : Ordering} (h : RanksItems xs ys o) :
      Placed (.list xs) (.list ys) o

theorem orderItems_iff : (∀ op, orderItems op xs ys = .ok (some o)) ↔ RanksItems xs ys o := by
  constructor
  · intro h
    induction xs generalizing ys with
    | nil =>
      cases ys with
      | nil =>
        cases h .lt
        exact .done
      | cons y ys =>
        cases h .lt
        exact .shorter y ys
    | cons x xs ih =>
      cases ys with
      | nil =>
        cases h .lt
        exact .longer x xs
      | cons y ys =>
        by_cases hEq : equals x y
        · apply RanksItems.same hEq
          apply ih
          simpa [orderItems, hEq] using h
        · apply RanksItems.differ xs ys hEq
          simpa [orderItems, hEq, Ranks] using h
  · intro h op
    induction h with
    | done | shorter | longer => rfl
    | same h _ ih => rw [orderItems, if_pos h, ih]
    | differ xs ys h ranks => rw [orderItems, if_neg h, ranks op]

theorem ranks_iff_placed : Ranks a b o ↔ Placed a b o := by
  constructor
  · intro h
    have hLess := h .lt
    unfold order at hLess
    split at hLess
    · apply Placed.str
      simpa using hLess
    · apply Placed.list
      apply orderItems_iff.mp
      simpa [Ranks, order] using h
    · split at hLess
      · next hx hy =>
        apply Placed.number hx hy
        simpa using hLess
      · cases hLess
  · intro h op
    cases h with
    | str h =>
      rw [order]
      exact congrArg _ (congrArg _ h)
    | list h =>
      rw [order]
      exact orderItems_iff.mpr h op
    | number ha hb h =>
      unfold order
      split
      · cases ha
      · cases ha
      · rw [ha, hb]
        exact congrArg _ h

/-- If values can be ordered where one operator asks, they are ordered alike where another does. -/
theorem order_congr {r : Option Ordering} {op op' : Comparison} (h : order op a b = .ok r) :
    order op' a b = .ok r := by
  have hBoth : (∀ a b r, order op a b = .ok r → order op' a b = .ok r) ∧
      ∀ xs ys r, orderItems op xs ys = .ok r → orderItems op' xs ys = .ok r := by
    apply order.mutual_induct
    case case1 =>
      intro s t r h
      exact h
    case case2 =>
      intro xs ys ih r h
      rw [order] at h ⊢
      exact ih r h
    case case3 =>
      intro a b hStr hList x y hb ha r h
      rw [order, ha, hb] at h ⊢
      · exact h
      all_goals assumption
    case case4 =>
      intro a b hStr hList hNumber r h
      rw [order] at h
      · split at h
        · next x y ha hb => exact absurd hb (hNumber x y ha)
        · cases h
      all_goals assumption
    case case5 =>
      intro x xs y ys hEq ih r h
      rw [orderItems, if_pos hEq] at h ⊢
      exact ih r h
    case case6 =>
      intro x xs y ys hEq ih r h
      rw [orderItems, if_neg hEq] at h ⊢
      exact ih r h
    case case7 =>
      intro xs ys hEnd r h
      rw [orderItems] at h ⊢
      · exact h
      all_goals assumption
  exact hBoth.1 a b r h

/-- Order goes with equality among the values in `P`. -/
structure Orders (P : Value → Prop) : Prop extends Equates P where
  decided : ∀ op a b, P a → P b → order op a b ≠ .ok Option.none
  eq_iff : ∀ a b o, P a → P b → Ranks a b o → (o = .eq ↔ equals a b)
  swap : ∀ a b o, P a → P b → Ranks a b o → Ranks b a o.swap
  congr : ∀ a a' b o, P a → P a' → P b → equals a a' → Ranks a b o → Ranks a' b o
  lt_trans : ∀ a b c, P a → P b → P c → Ranks a b .lt → Ranks b c .lt → Ranks a c .lt

namespace Orders

/-- A value may be put in the place of an equal one on the right as well. -/
theorem congr_right (O : Orders P) (ha : P a) (hb : P b) (hc : P c) (h : equals b c)
    (hRanks : Ranks a b o) : Ranks a c o := by
  have hBack := O.congr b c a o.swap hb hc ha h (O.swap a b o ha hb hRanks)
  rw [← Ordering.swap_swap (o := o)]
  exact O.swap c a o.swap hc ha hBack

theorem ne_of_lt (O : Orders P) (ha : P a) (hb : P b) (h : Ranks a b .lt) : ¬equals a b := by
  rw [← O.eq_iff a b .lt ha hb h]
  decide

/-! ### Items -/

theorem items_decided (O : Orders P) (op : Comparison) (hx : ∀ x ∈ xs, P x) (hy : ∀ y ∈ ys, P y) :
    orderItems op xs ys ≠ .ok Option.none := by
  induction xs generalizing ys with
  | nil => nofun
  | cons x xs ih =>
    cases ys with
    | nil => nofun
    | cons y ys =>
      obtain ⟨hFirst, hRest⟩ := List.forall_mem_cons.mp hx
      obtain ⟨hFirst', hRest'⟩ := List.forall_mem_cons.mp hy
      rw [orderItems]
      split
      · exact ih hRest hRest'
      · exact O.decided op x y hFirst hFirst'

theorem items_eq_iff (O : Orders P) (hx : ∀ x ∈ xs, P x) (hy : ∀ y ∈ ys, P y)
    (h : RanksItems xs ys o) : o = .eq ↔ List.Forall₂ (fun x y => equals x y) xs ys := by
  induction h with
  | done => simp
  | shorter | longer => simp
  | same hEq _ ih =>
    rw [ih (List.forall_mem_cons.mp hx).2 (List.forall_mem_cons.mp hy).2, List.forall₂_cons]
    simp [hEq]
  | @differ x y o xs ys hNe hRanks =>
    have hFirst := O.eq_iff x y o (hx x List.mem_cons_self) (hy y List.mem_cons_self) hRanks
    rw [hFirst, List.forall₂_cons]
    simp [hNe]

theorem items_swap (O : Orders P) (hx : ∀ x ∈ xs, P x) (hy : ∀ y ∈ ys, P y)
    (h : RanksItems xs ys o) : RanksItems ys xs o.swap := by
  induction h with
  | done => exact .done
  | shorter y ys => exact .longer y ys
  | longer x xs => exact .shorter x xs
  | same hEq _ ih =>
    obtain ⟨hFirst, hRest⟩ := List.forall_mem_cons.mp hx
    obtain ⟨hFirst', hRest'⟩ := List.forall_mem_cons.mp hy
    apply RanksItems.same
    · exact O.symm _ _ hFirst hFirst' hEq
    · exact ih hRest hRest'
  | @differ x y o xs ys hNe hRanks =>
    have hFirst := hx x List.mem_cons_self
    have hFirst' := hy y List.mem_cons_self
    apply RanksItems.differ
    · intro hEq
      exact hNe (O.symm _ _ hFirst' hFirst hEq)
    · exact O.swap x y o hFirst hFirst' hRanks

theorem items_congr (O : Orders P) (hx : ∀ x ∈ xs, P x) (hy : ∀ y ∈ ys, P y)
    (hz : ∀ z ∈ zs, P z) (hEqual : List.Forall₂ (fun x y => equals x y) xs ys)
    (h : RanksItems xs zs o) : RanksItems ys zs o := by
  induction h generalizing ys with
  | done =>
    cases hEqual
    exact .done
  | shorter z zs =>
    cases hEqual
    exact .shorter z zs
  | longer x xs =>
    cases hEqual
    exact .longer _ _
  | same hEq _ ih =>
    obtain ⟨hFirst, hRest⟩ := List.forall_mem_cons.mp hx
    obtain ⟨hFirst'', hRest''⟩ := List.forall_mem_cons.mp hz
    cases hEqual with
    | cons hHead hTail =>
      obtain ⟨hFirst', hRest'⟩ := List.forall_mem_cons.mp hy
      apply RanksItems.same
      · have hBack := O.symm _ _ hFirst hFirst' hHead
        exact O.trans _ _ _ hFirst' hFirst hFirst'' hBack hEq
      · exact ih hRest hRest' hRest'' hTail
  | @differ x z o xs zs hNe hRanks =>
    have hFirst := hx x List.mem_cons_self
    have hFirst'' := hz z List.mem_cons_self
    cases hEqual with
    | @cons _ y _ ys hHead hTail =>
      have hFirst' := hy y List.mem_cons_self
      apply RanksItems.differ
      · intro hEq
        exact hNe (O.trans _ _ _ hFirst hFirst' hFirst'' hHead hEq)
      · exact O.congr x y z o hFirst hFirst' hFirst'' hHead hRanks

/-- Of two differences in a row, the one that comes first decides. -/
theorem items_lt_trans (O : Orders P) (hx : ∀ x ∈ xs, P x) (hy : ∀ y ∈ ys, P y)
    (hz : ∀ z ∈ zs, P z) (h : RanksItems xs ys .lt) (h' : RanksItems ys zs .lt) :
    RanksItems xs zs .lt := by
  induction xs generalizing ys zs with
  | nil =>
    cases h' with
    | shorter z zs => cases h
    | same | differ => exact .shorter _ _
  | cons x xs ih =>
    obtain ⟨hFirst, hRest⟩ := List.forall_mem_cons.mp hx
    cases ys with
    | nil => cases h
    | cons y ys =>
      obtain ⟨hFirst', hRest'⟩ := List.forall_mem_cons.mp hy
      cases zs with
      | nil => cases h'
      | cons z zs =>
        obtain ⟨hFirst'', hRest''⟩ := List.forall_mem_cons.mp hz
        cases h with
        | same hEq hLater =>
          cases h' with
          | same hEq' hLater' =>
            apply RanksItems.same
            · exact O.trans x y z hFirst hFirst' hFirst'' hEq hEq'
            · exact ih hRest hRest' hRest'' hLater hLater'
          | differ _ _ hNe' hRanks' =>
            have hBack := O.symm x y hFirst hFirst' hEq
            apply RanksItems.differ
            · intro hSame
              exact hNe' (O.trans y x z hFirst' hFirst hFirst'' hBack hSame)
            · exact O.congr y x z .lt hFirst' hFirst hFirst'' hBack hRanks'
        | differ _ _ hNe hRanks =>
          have hRanks' : Ranks x z .lt := by
            cases h' with
            | same hEq' => exact O.congr_right hFirst hFirst' hFirst'' hEq' hRanks
            | differ _ _ _ hRanks' =>
              exact O.lt_trans x y z hFirst hFirst' hFirst'' hRanks hRanks'
          apply RanksItems.differ
          · exact O.ne_of_lt hFirst hFirst'' hRanks'
          · exact hRanks'

end Orders

/-! ### Values -/

theorem equals_of_number {x y : Number} (ha : a.number? = some x) (hb : b.number? = some y) :
    equals a b = x.equals y := by
  unfold equals
  split <;> simp_all [number?]

namespace Over

variable {x y : Number} {p q : Int}

/-- Numbers stand to each other as their places on the line do. -/
theorem ranks_iff (ha : Over P a) (hb : Over P b) (hx : a.number? = some x)
    (hy : b.number? = some y) (hp : x.place? = some p) (hq : y.place? = some q) :
    Ranks a b o ↔ Ord.compare p q = o := by
  have hOrder := Number.order?_eq (ha.exact hx) (hb.exact hy) hp hq
  rw [ranks_iff_placed]
  constructor
  · intro h
    cases h with
    | number hx' hy' h =>
      cases hx.symm.trans hx'
      cases hy.symm.trans hy'
      rw [hOrder] at h
      exact Option.some_inj.mp h
    | str | list => cases hx
  · intro h
    apply Placed.number hx hy
    rw [hOrder, h]

theorem equals_iff (ha : Over P a) (hb : Over P b) (hx : a.number? = some x)
    (hy : b.number? = some y) (hp : x.place? = some p) (hq : y.place? = some q) :
    equals a b ↔ p = q := by
  rw [equals_of_number hx hy, Number.equals_iff (ha.exact hx) (hb.exact hy), hp, hq,
    Option.some_inj]

/-- A number among the parts of such a value has a place. -/
theorem exists_place (ha : Over P a) (hx : a.number? = some x) : ∃ p, x.place? = some p :=
  (ha.exact hx).exists_place

end Over

/-- Where order goes with equality among the parts of values, it does among the values. -/
theorem Orders.over (O : Orders P) : Orders (Over P) where
  toEquates := O.toEquates.over
  decided op a b ha hb := by
    unfold order
    split
    · nofun
    · exact O.items_decided op ha hb
    · split
      · next x y hx hy =>
        obtain ⟨p, hp⟩ := ha.exists_place hx
        obtain ⟨q, hq⟩ := hb.exists_place hy
        rw [Number.order?_eq (ha.exact hx) (hb.exact hy) hp hq]
        nofun
      · nofun
  eq_iff a b o ha hb h := by
    cases ranks_iff_placed.mp h with
    | str hText =>
      rw [← hText]
      simp [equals, Std.LawfulEqCmp.compare_eq_iff_eq, String.toList_inj]
    | list h =>
      rw [equals, equalItems_iff]
      exact O.items_eq_iff ha hb h
    | number hx hy _ =>
      obtain ⟨p, hp⟩ := ha.exists_place hx
      obtain ⟨q, hq⟩ := hb.exists_place hy
      rw [ha.equals_iff hb hx hy hp hq, ← (ha.ranks_iff hb hx hy hp hq).mp h]
      exact Int.compare_eq_eq
  swap a b o ha hb h := by
    cases ranks_iff_placed.mp h with
    | str hText =>
      apply ranks_iff_placed.mpr
      apply Placed.str
      rw [← hText]
      exact Std.OrientedCmp.eq_swap
    | list h => exact ranks_iff_placed.mpr (.list (O.items_swap ha hb h))
    | number hx hy _ =>
      obtain ⟨p, hp⟩ := ha.exists_place hx
      obtain ⟨q, hq⟩ := hb.exists_place hy
      rw [hb.ranks_iff ha hy hx hq hp, ← (ha.ranks_iff hb hx hy hp hq).mp h]
      exact Std.OrientedCmp.eq_swap
  congr a a' b o ha ha' hb hEq h := by
    have hSame := equals_iff_same.mp hEq
    cases ranks_iff_placed.mp h with
    | str hText =>
      cases hSame with
      | str => exact h
      | number hx => cases hx
    | list hItems =>
      cases hSame with
      | list hEqual => exact ranks_iff_placed.mpr (.list (O.items_congr ha ha' hb hEqual hItems))
      | number hx => cases hx
    | number hx hy _ =>
      cases hSame with
      | number hx' hx'' _ =>
        obtain ⟨p, hp⟩ := ha.exists_place hx
        obtain ⟨p', hp'⟩ := ha'.exists_place hx''
        obtain ⟨q, hq⟩ := hb.exists_place hy
        have hPlace := (ha.equals_iff ha' hx hx'' hp hp').mp hEq
        rw [ha'.ranks_iff hb hx'' hy hp' hq, ← hPlace]
        exact (ha.ranks_iff hb hx hy hp hq).mp h
      | none | str | list | dict | function | method | object => cases hx
  lt_trans a b c ha hb hc h h' := by
    cases ranks_iff_placed.mp h with
    | str hText =>
      cases ranks_iff_placed.mp h' with
      | str hText' => exact ranks_iff_placed.mpr (.str (Std.TransCmp.lt_trans hText hText'))
      | number hy => cases hy
    | list hItems =>
      cases ranks_iff_placed.mp h' with
      | list hItems' =>
        exact ranks_iff_placed.mpr (.list (O.items_lt_trans ha hb hc hItems hItems'))
      | number hy => cases hy
    | number hx hy _ =>
      cases ranks_iff_placed.mp h' with
      | str | list => cases hy
      | number hy' hz _ =>
        obtain ⟨p, hp⟩ := ha.exists_place hx
        obtain ⟨q, hq⟩ := hb.exists_place hy
        obtain ⟨r, hr⟩ := hc.exists_place hz
        rw [ha.ranks_iff hc hx hz hp hr]
        exact Std.TransCmp.lt_trans ((ha.ranks_iff hb hx hy hp hq).mp h)
          ((hb.ranks_iff hc hy hz hq hr).mp h')

theorem Orders.mono {Q : Value → Prop} (O : Orders Q) (h : ∀ v, P v → Q v) : Orders P where
  toEquates := O.toEquates.mono h
  decided op a b ha hb := O.decided op a b (h a ha) (h b hb)
  eq_iff a b o ha hb := O.eq_iff a b o (h a ha) (h b hb)
  swap a b o ha hb := O.swap a b o (h a ha) (h b hb)
  congr a a' b o ha ha' hb := O.congr a a' b o (h a ha) (h a' ha') (h b hb)
  lt_trans a b c ha hb hc := O.lt_trans a b c (h a ha) (h b hb) (h c hc)

theorem orders_smaller (n : Nat) : Orders (Smaller n) := by
  induction n with
  | zero =>
    have hNone : ∀ v, ¬Smaller 0 v := fun v h => Nat.not_lt_zero _ h.2
    exact { equates_smaller 0 with
      decided := fun _ a _ ha => absurd ha (hNone a)
      eq_iff := fun a _ _ ha => absurd ha (hNone a)
      swap := fun a _ _ ha => absurd ha (hNone a)
      congr := fun a _ _ _ ha => absurd ha (hNone a)
      lt_trans := fun a _ _ ha => absurd ha (hNone a) }
  | succ n ih => exact ih.over.mono fun v hv => hv.over

theorem orders_wellFormed : Orders WellFormed where
  toEquates := equates_wellFormed
  decided op a b ha hb := by
    obtain ⟨n, ha, hb, -⟩ := exists_smaller ha hb hb
    exact (orders_smaller n).decided op a b ha hb
  eq_iff a b o ha hb := by
    obtain ⟨n, ha, hb, -⟩ := exists_smaller ha hb hb
    exact (orders_smaller n).eq_iff a b o ha hb
  swap a b o ha hb := by
    obtain ⟨n, ha, hb, -⟩ := exists_smaller ha hb hb
    exact (orders_smaller n).swap a b o ha hb
  congr a a' b o ha ha' hb := by
    obtain ⟨n, ha, ha', hb⟩ := exists_smaller ha ha' hb
    exact (orders_smaller n).congr a a' b o ha ha' hb
  lt_trans a b c ha hb hc := by
    obtain ⟨n, ha, hb, hc⟩ := exists_smaller ha hb hc
    exact (orders_smaller n).lt_trans a b c ha hb hc

/-! ### Comparisons -/

/-- The comparison of `a` to `b` by `op` is true. -/
def Holds (op : Comparison) (a b : Value) : Prop := compare op a b = .ok (.bool true)

/-- The comparison of `a` to `b` by `op` is refused. -/
def Refused (op : Comparison) (a b : Value) : Prop := ∃ e, compare op a b = .error e

theorem holdsBetween_eq {op : Comparison} (hOp : op.asksOrder) :
    holdsBetween op a b = (order op a b).map (·.elim false (holds op)) := by
  unfold holdsBetween
  cases op with
  | eq | ne => cases hOp
  | gt | lt | ge | le =>
    apply congrArg (Except.map · _)
    funext r
    cases r <;> rfl

/-- An order is held against what the operator asks for, where equality is one of the orders. -/
theorem Ranks.holds_iff (h : Ranks a b o) (hEq : o = .eq ↔ equals a b) (op : Comparison) :
    Holds op a b ↔ holds op o := by
  unfold Holds compare
  by_cases hOp : op.asksOrder
  · rw [holdsBetween_eq hOp, h op]
    simp [Except.map]
  · cases op with
    | gt | lt | ge | le => exact absurd rfl hOp
    | eq | ne => simp [holdsBetween, Except.map, holds, hEq]

theorem Orders.holds_iff (O : Orders P) (ha : P a) (hb : P b) (h : Ranks a b o) (op : Comparison) :
    Holds op a b ↔ holds op o :=
  h.holds_iff (O.eq_iff a b o ha hb h) op

/-- What is not refused has an order. -/
theorem Orders.refused_iff (O : Orders P) (ha : P a) (hb : P b) (op : Comparison)
    (hOp : op.asksOrder) : Refused op a b ↔ ¬∃ o, Ranks a b o := by
  unfold Refused compare
  rw [holdsBetween_eq hOp]
  constructor
  · rintro ⟨e, hError⟩ ⟨o, hRanks⟩
    rw [hRanks op] at hError
    cases hError
  · intro hNone
    cases hOrder : order op a b with
    | error e => exact ⟨e, rfl⟩
    | ok r =>
      cases r with
      | none => exact absurd hOrder (O.decided op a b ha hb)
      | some o => exact absurd ⟨o, fun op' => order_congr hOrder⟩ hNone

/-- A value that is below another one stands below it in the order. -/
theorem Orders.ranks_of_below (O : Orders P) (ha : P a) (hb : P b) (h : Holds .lt a b) :
    Ranks a b .lt := by
  have hRanked : ∃ o, Ranks a b o := by
    by_contra hNone
    obtain ⟨e, hError⟩ := (O.refused_iff ha hb .lt rfl).mpr hNone
    rw [h] at hError
    cases hError
  obtain ⟨o, hRanks⟩ := hRanked
  have hBelow := (O.holds_iff ha hb hRanks .lt).mp h
  cases o with
  | lt => exact hRanks
  | eq | gt => cases hBelow

/-- One of the three strict comparisons holds of an order. -/
theorem existsUnique_holds (o : Ordering) :
    ∃! op, op ∈ [Comparison.lt, .eq, .gt] ∧ holds op o := by
  cases o with
  | lt =>
    refine ⟨.lt, by decide, ?_⟩
    rintro op ⟨hMem, h⟩
    cases op <;> simp_all [holds]
  | eq =>
    refine ⟨.eq, by decide, ?_⟩
    rintro op ⟨hMem, h⟩
    cases op <;> simp_all [holds]
  | gt =>
    refine ⟨.gt, by decide, ?_⟩
    rintro op ⟨hMem, h⟩
    cases op <;> simp_all [holds]

/-- The order of well-formed values goes with their equality. An order is refused for all operators
and both ways round, or for none and neither. Where it is not, one of `a < b`, `a == b` and `a > b`
is true and no other, `<=` and `>=` add `==` to `<` and `>`, and `<` is `>` the other way round.
What is below a value that is below `c` is itself below `c`. -/
theorem order_coherent (ha : a.WellFormed) (hb : b.WellFormed) (hc : c.WellFormed) :
    (∀ op op' : Comparison, op.asksOrder → op'.asksOrder →
      (Refused op a b ↔ Refused op' a b) ∧ (Refused op a b ↔ Refused op' b a)) ∧
    (¬Refused .lt a b →
      (∃! op, op ∈ [Comparison.lt, .eq, .gt] ∧ Holds op a b) ∧
      (Holds .le a b ↔ Holds .lt a b ∨ Holds .eq a b) ∧
      (Holds .ge a b ↔ Holds .gt a b ∨ Holds .eq a b) ∧
      (Holds .lt a b ↔ Holds .gt b a)) ∧
    (Holds .lt a b → Holds .lt b c → Holds .lt a c) := by
  have O := orders_wellFormed
  refine ⟨fun op op' hOp hOp' => ⟨?_, ?_⟩, fun hRefused => ?_, fun h h' => ?_⟩
  · rw [O.refused_iff ha hb op hOp, O.refused_iff ha hb op' hOp']
  · rw [O.refused_iff ha hb op hOp, O.refused_iff hb ha op' hOp', not_iff_not]
    constructor
    · rintro ⟨o, h⟩
      exact ⟨o.swap, O.swap a b o ha hb h⟩
    · rintro ⟨o, h⟩
      exact ⟨o.swap, O.swap b a o hb ha h⟩
  · rw [O.refused_iff ha hb .lt rfl, not_not] at hRefused
    obtain ⟨o, hRanks⟩ := hRefused
    have hHolds := O.holds_iff ha hb hRanks
    have hBack := O.holds_iff hb ha (O.swap a b o ha hb hRanks)
    simp only [hHolds, hBack]
    refine ⟨existsUnique_holds o, ?_⟩
    cases o <;> decide
  · have hRanks := O.ranks_of_below ha hb h
    have hRanks' := O.ranks_of_below hb hc h'
    apply (O.holds_iff ha hc (O.lt_trans a b c ha hb hc hRanks hRanks') .lt).mpr
    rfl

/-- Lists that start with equal dicts are ordered by what comes next, across the types of
numbers. -/
theorem order_coherent_lists :
    let a : Value := .list [ofPairs [(.int 1, .none)], .int 1]
    let b : Value := .list [ofPairs [(.bool true, .none)], .float (.ofInt 2)]
    let c : Value := .list [ofPairs [(.float (.ofInt 1), .none)], .int 3]
    a.WellFormed ∧ b.WellFormed ∧ c.WellFormed ∧ Holds .lt a b ∧ Holds .lt b c ∧
      Holds .lt a c ∧ Holds .gt b a ∧ ¬Holds .eq a b := by
  intro a b c
  have hFloats : (Double.ofInt 1).isNaN = false ∧ (Double.ofInt 2).isNaN = false := by
    decide +kernel
  have hNumbers : (Number.int 1).equals (.int 1) ∧
      (Number.float (.ofInt 1)).equals (.int 1) ∧
      (Number.int 1).equals (.float (.ofInt 2)) = false ∧
      (Number.int 1).order? (.float (.ofInt 2)) = some .lt ∧
      (Number.float (.ofInt 2)).equals (.int 3) = false ∧
      (Number.float (.ofInt 2)).order? (.int 3) = some .lt := by decide +kernel
  have ha : a.WellFormed := by
    apply WellFormed.list
    simp [wellFormed_ofPairs, WellFormed.none, WellFormed.int]
  have hb : b.WellFormed := by
    apply WellFormed.list
    simp [wellFormed_ofPairs, WellFormed.none, WellFormed.bool, WellFormed.float hFloats.2]
  have hc : c.WellFormed := by
    apply WellFormed.list
    simp [wellFormed_ofPairs, WellFormed.none, WellFormed.int, WellFormed.float hFloats.1]
  have hab : Holds .lt a b := by
    simp [a, b, Holds, compare, holdsBetween, holds, order, orderItems, equals, ofPairs,
      insertEntry, entriesIn, entryIn, number?, hNumbers, Except.map]
  have hbc : Holds .lt b c := by
    simp [b, c, Holds, compare, holdsBetween, holds, order, orderItems, equals, ofPairs,
      insertEntry, entriesIn, entryIn, number?, hNumbers, Except.map]
  have hGiven : ¬Refused .lt a b := by
    rintro ⟨e, hError⟩
    rw [hab] at hError
    cases hError
  obtain ⟨-, hStrict, hTrans⟩ := order_coherent ha hb hc
  obtain ⟨hOne, -, -, hBack⟩ := hStrict hGiven
  refine ⟨ha, hb, hc, hab, hbc, hTrans hab hbc, hBack.mp hab, fun hEq => ?_⟩
  have hSame := hOne.unique ⟨by decide, hab⟩ ⟨by decide, hEq⟩
  cases hSame

end Value

end Formula
