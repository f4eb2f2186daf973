import Mathlib.Data.Fintype.EquivFin
import Formula.Proofs.Value.WellFormed

/-! Equality is an equivalence among well-formed values. Dicts are compared by searching the right
one for the entries of the left one, so that symmetry rests on counting: as many entries as there
are, each found at another place, leave none out. -/

namespace Formula

/-- Where each of some things has a partner that no other one has, and there are as many of one kind
as of the other, no partner is left over. -/
theorem exists_partner {α β : Type} {R : α → β → Prop} {xs : List α} {ys : List β}
    (hLength : xs.length = ys.length) (hPartner : ∀ x ∈ xs, ∃ y ∈ ys, R x y)
    (hOnce : xs.Pairwise fun x x' => ∀ y ∈ ys, R x y → ¬R x' y) :
    ∀ y ∈ ys, ∃ x ∈ xs, R x y := by
  have hIndex : ∀ i : Fin xs.length, ∃ j : Fin ys.length, R xs[i] ys[j] := by
    intro i
    obtain ⟨y, hMem, hR⟩ := hPartner xs[i] (List.getElem_mem i.isLt)
    obtain ⟨j, hj, rfl⟩ := List.getElem_of_mem hMem
    exact ⟨⟨j, hj⟩, hR⟩
  choose partner hR using hIndex
  have hNe : ∀ i j, i < j → partner i ≠ partner j := by
    intro i j hLt hEq
    refine List.pairwise_iff_getElem.mp hOnce i j i.isLt j.isLt hLt _
      (List.getElem_mem (partner i).isLt) (hR i) ?_
    rw [hEq]
    exact hR j
  have hInjective : partner.Injective := by
    intro i j hEq
    rcases lt_trichotomy i j with hLt | hSame | hGt
    · exact absurd hEq (hNe i j hLt)
    · exact hSame
    · exact absurd hEq.symm (hNe j i hGt)
  have hSurjective := (Finite.injective_iff_surjective_of_equiv (finCongr hLength)).mp hInjective
  intro y hMem
  obtain ⟨j, hj, rfl⟩ := List.getElem_of_mem hMem
  obtain ⟨i, hi⟩ := hSurjective ⟨j, hj⟩
  refine ⟨xs[i], List.getElem_mem i.isLt, ?_⟩
  have hPair := hR i
  rw [hi] at hPair
  exact hPair

namespace Value

variable {P : Value → Prop} {a b c : Value}

/-- Equality is an equivalence among the values in `P`. -/
structure Equates (P : Value → Prop) : Prop where
  refl : ∀ a, P a → equals a a
  symm : ∀ a b, P a → P b → equals a b → equals b a
  trans : ∀ a b c, P a → P b → P c → equals a b → equals b c → equals a c

/-- A value whose direct parts are in `P`. -/
def Over (P : Value → Prop) : Value → Prop
  | list items => ∀ item ∈ items, P item
  | dict entries => EntriesOver P entries
  | method receiver _ => P receiver
  | v => ∀ x, number? v = some x → x.Exact

/-- Each of the second entries is equal to one of the first ones. -/
def Covers (ys xs : List (Value × Value)) : Prop :=
  ∀ x ∈ xs, ∃ y ∈ ys, equals y.1 x.1 ∧ equals y.2 x.2

namespace Equates

variable {xs ys zs : List (Value × Value)} {k v : Value}

/-- Where no two keys are equal, the first entry with a key is the only one. -/
theorem lookup?_iff (E : Equates P) (hKeys : ∀ e ∈ xs, P e.1) (hDistinct : DistinctKeys xs)
    (hk : P k) : lookup? k xs = some v ↔ ∃ e ∈ xs, equals e.1 k ∧ e.2 = v := by
  induction xs with
  | nil => simp [lookup?]
  | cons e xs ih =>
    obtain ⟨hKey, hKeys⟩ := List.forall_mem_cons.mp hKeys
    obtain ⟨hFirst, hDistinct⟩ := List.pairwise_cons.mp hDistinct
    by_cases hEq : equals e.1 k
    · have hOther : ∀ e' ∈ xs, ¬equals e'.1 k := by
        intro e' hMem hEq'
        have hBack := E.symm _ _ (hKeys e' hMem) hk hEq'
        have hTwice := E.trans _ _ _ hKey hk (hKeys e' hMem) hEq hBack
        rw [hFirst e' hMem] at hTwice
        cases hTwice
      constructor
      · intro hFound
        refine ⟨e, List.mem_cons_self, hEq, ?_⟩
        simpa [lookup?, hEq] using hFound
      · rintro ⟨e', hMem, hEq', rfl⟩
        rcases List.mem_cons.mp hMem with rfl | hMem
        · simp [lookup?, hEq]
        · exact absurd hEq' (hOther e' hMem)
    · have hSkip : lookup? k (e :: xs) = lookup? k xs := by simp [lookup?, hEq]
      simp [hSkip, ih hKeys hDistinct, hEq]

/-- The search of equality finds the entries that there are. -/
theorem found_iff (E : Equates P) (hx : EntriesOver P xs) (hy : EntriesOver P ys) :
    (∀ x ∈ xs, ∃ v, lookup? x.1 ys = some v ∧ equals v x.2) ↔ Covers ys xs := by
  refine forall₂_congr fun x hMem => ?_
  constructor
  · rintro ⟨v, hFound, hValue⟩
    obtain ⟨y, hMem', hKey, rfl⟩ :=
      (E.lookup?_iff hy.keys hy.distinct (hx.keys x hMem)).mp hFound
    exact ⟨y, hMem', hKey, hValue⟩
  · rintro ⟨y, hMem', hKey, hValue⟩
    exact ⟨y.2, (E.lookup?_iff hy.keys hy.distinct (hx.keys x hMem)).mpr ⟨y, hMem', hKey, rfl⟩,
      hValue⟩

theorem covers_refl (E : Equates P) (hx : EntriesOver P xs) : Covers xs xs :=
  fun x hMem => ⟨x, hMem, E.refl _ (hx.keys x hMem), E.refl _ (hx.values x hMem)⟩

theorem covers_symm (E : Equates P) (hx : EntriesOver P xs) (hy : EntriesOver P ys)
    (hLength : xs.length = ys.length) (h : Covers ys xs) : Covers xs ys := by
  have hOnce : xs.Pairwise fun x x' => ∀ y ∈ ys,
      equals y.1 x.1 ∧ equals y.2 x.2 → ¬(equals y.1 x'.1 ∧ equals y.2 x'.2) := by
    refine hx.distinct.imp_of_mem fun {x x'} hMem hMem' hNe y hy' => ?_
    rintro ⟨hKey, -⟩ ⟨hKey', -⟩
    have hBack := E.symm _ _ (hy.keys y hy') (hx.keys x hMem) hKey
    have hTwice := E.trans _ _ _ (hx.keys x hMem) (hy.keys y hy') (hx.keys x' hMem') hBack hKey'
    rw [hNe] at hTwice
    cases hTwice
  intro y hMem
  obtain ⟨x, hMem', hKey, hValue⟩ := exists_partner hLength h hOnce y hMem
  exact ⟨x, hMem', E.symm _ _ (hy.keys y hMem) (hx.keys x hMem') hKey,
    E.symm _ _ (hy.values y hMem) (hx.values x hMem') hValue⟩

theorem covers_trans (E : Equates P) (hx : EntriesOver P xs) (hy : EntriesOver P ys)
    (hz : EntriesOver P zs) (h : Covers ys xs) (h' : Covers zs ys) : Covers zs xs := by
  intro x hMem
  obtain ⟨y, hMemY, hKey, hValue⟩ := h x hMem
  obtain ⟨z, hMemZ, hKey', hValue'⟩ := h' y hMemY
  exact ⟨z, hMemZ,
    E.trans _ _ _ (hz.keys z hMemZ) (hy.keys y hMemY) (hx.keys x hMem) hKey' hKey,
    E.trans _ _ _ (hz.values z hMemZ) (hy.values y hMemY) (hx.values x hMem) hValue' hValue⟩

theorem items_symm (E : Equates P) {xs ys : List Value} (hx : ∀ x ∈ xs, P x) (hy : ∀ y ∈ ys, P y)
    (h : List.Forall₂ (fun x y => equals x y) xs ys) :
    List.Forall₂ (fun x y => equals x y) ys xs := by
  induction h with
  | nil => exact .nil
  | cons h _ ih =>
    obtain ⟨hFirst, hRest⟩ := List.forall_mem_cons.mp hx
    obtain ⟨hFirst', hRest'⟩ := List.forall_mem_cons.mp hy
    exact .cons (E.symm _ _ hFirst hFirst' h) (ih hRest hRest')

theorem items_trans (E : Equates P) {xs ys zs : List Value} (hx : ∀ x ∈ xs, P x)
    (hy : ∀ y ∈ ys, P y) (hz : ∀ z ∈ zs, P z)
    (h : List.Forall₂ (fun x y => equals x y) xs ys)
    (h' : List.Forall₂ (fun x y => equals x y) ys zs) :
    List.Forall₂ (fun x y => equals x y) xs zs := by
  induction h generalizing zs with
  | nil => exact h'
  | cons h _ ih =>
    cases h' with
    | cons h' hRest' =>
      obtain ⟨hFirst, hRest⟩ := List.forall_mem_cons.mp hx
      obtain ⟨hFirst', hRestY⟩ := List.forall_mem_cons.mp hy
      obtain ⟨hFirst'', hRestZ⟩ := List.forall_mem_cons.mp hz
      exact .cons (E.trans _ _ _ hFirst hFirst' hFirst'' h h') (ih hRest hRestY hRestZ hRest')

end Equates

theorem Over.exact {x : Number} (h : Over P a) (hx : a.number? = some x) :
    x.Exact := by
  cases a with
  | bool | int | float => exact h x hx
  | none | str | list | dict | function | method | object => cases hx

theorem Equates.over_refl (E : Equates P) (ha : Over P a) : equals a a := by
  rw [equals_iff_same]
  cases a with
  | none => exact .none
  | bool | int | float =>
    exact .number rfl rfl ((Number.equals_iff (ha _ rfl) (ha _ rfl)).mpr rfl)
  | str s => exact .str s
  | list items => exact .list (List.forall₂_same.mpr fun x hMem => E.refl x (ha x hMem))
  | dict entries => exact .dict rfl ((E.found_iff ha ha).mpr (E.covers_refl ha))
  | function f => exact .function (Function.same_iff.mpr rfl)
  | method r m => exact .method m (E.refl r ha)
  | object o => exact .object rfl

theorem Equates.over_symm (E : Equates P) (ha : Over P a) (hb : Over P b) (h : equals a b) :
    equals b a := by
  rw [equals_iff_same] at h ⊢
  cases h with
  | none => exact .none
  | number hx hy h =>
    have hEq := (Number.equals_iff (ha.exact hx) (hb.exact hy)).mp h
    exact .number hy hx ((Number.equals_iff (hb.exact hy) (ha.exact hx)).mpr hEq.symm)
  | str s => exact .str s
  | list h => exact .list (E.items_symm ha hb h)
  | dict hLength h =>
    have hCovers := E.covers_symm ha hb hLength ((E.found_iff ha hb).mp h)
    exact .dict hLength.symm ((E.found_iff hb ha).mpr hCovers)
  | function h => exact .function (Function.same_iff.mpr (Function.same_iff.mp h).symm)
  | method m h => exact .method m (E.symm _ _ ha hb h)
  | object h => exact .object h.symm

theorem Equates.over_trans (E : Equates P) (ha : Over P a) (hb : Over P b) (hc : Over P c)
    (h : equals a b) (h' : equals b c) : equals a c := by
  rw [equals_iff_same] at h h' ⊢
  cases h with
  | none => exact h'
  | number hx hy h =>
    cases h' with
    | number hy' hz h' =>
      cases hy.symm.trans hy'
      have hEq := (Number.equals_iff (ha.exact hx) (hb.exact hy)).mp h
      have hEq' := (Number.equals_iff (hb.exact hy) (hc.exact hz)).mp h'
      exact .number hx hz
        ((Number.equals_iff (ha.exact hx) (hc.exact hz)).mpr (hEq.trans hEq'))
    | none | str | list | dict | function | method | object => cases hy
  | str s => exact h'
  | list h =>
    cases h' with
    | number hy => cases hy
    | list h' => exact .list (E.items_trans ha hb hc h h')
  | dict hLength h =>
    cases h' with
    | number hy => cases hy
    | dict hLength' h' =>
      have hCovers := E.covers_trans ha hb hc ((E.found_iff ha hb).mp h)
        ((E.found_iff hb hc).mp h')
      exact .dict (hLength.trans hLength') ((E.found_iff ha hc).mpr hCovers)
  | function h =>
    cases h' with
    | number hy => cases hy
    | function h' =>
      have hSame := (Function.same_iff.mp h).trans (Function.same_iff.mp h')
      exact .function (Function.same_iff.mpr hSame)
  | method m h =>
    cases h' with
    | number hy => cases hy
    | method _ h' => exact .method m (E.trans _ _ _ ha hb hc h h')
  | object h =>
    cases h' with
    | number hy => cases hy
    | object h' => exact .object (h.trans h')

/-- Where equality is an equivalence among the parts of values, it is one among the values. -/
theorem Equates.over (E : Equates P) : Equates (Over P) where
  refl _ ha := E.over_refl ha
  symm _ _ ha hb := E.over_symm ha hb
  trans _ _ _ ha hb hc := E.over_trans ha hb hc

/-- The values up to a size. -/
def Smaller (n : Nat) (v : Value) : Prop := v.WellFormed ∧ sizeOf v < n

theorem Equates.mono {Q : Value → Prop} (E : Equates Q) (h : ∀ v, P v → Q v) : Equates P where
  refl a ha := E.refl a (h a ha)
  symm a b ha hb := E.symm a b (h a ha) (h b hb)
  trans a b c ha hb hc := E.trans a b c (h a ha) (h b hb) (h c hc)

theorem Smaller.over {n : Nat} {v : Value} (h : Smaller (n + 1) v) : Over (Smaller n) v := by
  obtain ⟨hWell, hSize⟩ := h
  cases hWell with
  | none | str | function | object => exact nofun
  | bool b =>
    rintro _ ⟨⟩
    cases b <;> exact Nat.le_of_ble_eq_true rfl
  | int h | float h =>
    rintro _ ⟨⟩
    exact h
  | list h =>
    intro item hMem
    have hPart := List.sizeOf_lt_of_mem hMem
    rw [list.sizeOf_spec] at hSize
    exact ⟨h item hMem, by omega⟩
  | @dict entries hKeys hValues hDistinct =>
    have hPart : ∀ e ∈ entries, sizeOf e.1 < n ∧ sizeOf e.2 < n := by
      rintro ⟨k, v⟩ hMem
      have hEntry := List.sizeOf_lt_of_mem hMem
      rw [dict.sizeOf_spec] at hSize
      rw [Prod.mk.sizeOf_spec] at hEntry
      constructor <;> simp only <;> omega
    exact ⟨fun e hMem => ⟨hKeys e hMem, (hPart e hMem).1⟩,
      fun e hMem => ⟨hValues e hMem, (hPart e hMem).2⟩, hDistinct⟩
  | method m h =>
    rw [method.sizeOf_spec] at hSize
    exact ⟨h, by omega⟩

theorem equates_smaller (n : Nat) : Equates (Smaller n) := by
  induction n with
  | zero =>
    have hNone : ∀ v, ¬Smaller 0 v := fun v h => Nat.not_lt_zero _ h.2
    exact ⟨fun a ha => absurd ha (hNone a), fun a _ ha => absurd ha (hNone a),
      fun a _ _ ha => absurd ha (hNone a)⟩
  | succ n ih => exact ih.over.mono fun v hv => hv.over

/-- Any three values are below some size. -/
theorem exists_smaller (ha : a.WellFormed) (hb : b.WellFormed) (hc : c.WellFormed) :
    ∃ n, Smaller n a ∧ Smaller n b ∧ Smaller n c :=
  ⟨sizeOf a + sizeOf b + sizeOf c + 1, ⟨ha, by omega⟩, ⟨hb, by omega⟩, ⟨hc, by omega⟩⟩

theorem equates_wellFormed : Equates WellFormed where
  refl a ha := by
    obtain ⟨n, ha, -⟩ := exists_smaller ha ha ha
    exact (equates_smaller n).refl a ha
  symm a b ha hb := by
    obtain ⟨n, ha, hb, -⟩ := exists_smaller ha hb hb
    exact (equates_smaller n).symm a b ha hb
  trans a b c ha hb hc := by
    obtain ⟨n, ha, hb, hc⟩ := exists_smaller ha hb hc
    exact (equates_smaller n).trans a b c ha hb hc

/-- Each well-formed value equals itself, and equality of well-formed values holds both ways and
from one to the next. -/
theorem equals_equivalence (ha : a.WellFormed) (hb : b.WellFormed) (hc : c.WellFormed) :
    equals a a ∧ (equals a b → equals b a) ∧ (equals a b → equals b c → equals a c) :=
  ⟨equates_wellFormed.refl a ha, equates_wellFormed.symm a b ha hb,
    equates_wellFormed.trans a b c ha hb hc⟩

theorem equals_equivalence_dicts :
    (ofPairs [(.int 1, .none), (.str "k", .int 2)]).WellFormed ∧
      (ofPairs [(.str "k", .float (.ofInt 2)), (.bool true, .none)]).WellFormed ∧
      (ofPairs [(.float (.ofInt 1), .none), (.str "k", .int 2)]).WellFormed ∧
      equals (ofPairs [(.str "k", .float (.ofInt 2)), (.bool true, .none)])
        (ofPairs [(.int 1, .none), (.str "k", .int 2)]) ∧
      equals (ofPairs [(.int 1, .none), (.str "k", .int 2)])
        (ofPairs [(.float (.ofInt 1), .none), (.str "k", .int 2)]) := by
  have hOne : (Value.float (.ofInt 1)).WellFormed := .float (by decide +kernel)
  have hTwo : (Value.float (.ofInt 2)).WellFormed := .float (by decide +kernel)
  have ha : (ofPairs [(.int 1, .none), (.str "k", .int 2)]).WellFormed :=
    wellFormed_ofPairs (by simp [WellFormed.none, WellFormed.str, WellFormed.int])
  have hb : (ofPairs [(.str "k", .float (.ofInt 2)), (.bool true, .none)]).WellFormed :=
    wellFormed_ofPairs (by simp [WellFormed.none, WellFormed.str, WellFormed.bool, hTwo])
  have hc : (ofPairs [(.float (.ofInt 1), .none), (.str "k", .int 2)]).WellFormed :=
    wellFormed_ofPairs (by simp [WellFormed.none, WellFormed.str, WellFormed.int, hOne])
  have hNumbers : (Number.int 1).equals (.int 1) ∧ (Number.float (.ofInt 1)).equals (.int 1) ∧
    (Number.int 2).equals (.float (.ofInt 2)) ∧ (Number.float (.ofInt 2)).equals (.int 2) := by
    decide +kernel
  have hab : equals (ofPairs [(.int 1, .none), (.str "k", .int 2)])
      (ofPairs [(.str "k", .float (.ofInt 2)), (.bool true, .none)]) := by
    simp [ofPairs, insertEntry, equals, number?, entriesIn, entryIn, hNumbers]
  have hbc : equals (ofPairs [(.str "k", .float (.ofInt 2)), (.bool true, .none)])
      (ofPairs [(.float (.ofInt 1), .none), (.str "k", .int 2)]) := by
    simp [ofPairs, insertEntry, equals, number?, entriesIn, entryIn, hNumbers]
  obtain ⟨-, hSymm, hTrans⟩ := equals_equivalence ha hb hc
  exact ⟨ha, hb, hc, hSymm hab, hTrans hab hbc⟩

end Value

end Formula
