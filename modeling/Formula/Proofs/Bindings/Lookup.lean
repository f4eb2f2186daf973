import Formula.Bindings
import Formula.Proofs.Text.Order

/-! Names are found among bindings that are sorted: halving the range finds a name exactly if it is
there, and inserting changes what one name is bound to and nothing else. -/

namespace Formula.Bindings

/-- A name comes before another one. -/
def Before (name other : String) : Prop := Text.order name.toList other.toList = .lt

/-- The names of `entries` increase. -/
def Sorted (entries : List (String × Value)) : Prop := entries.Pairwise fun e e' => Before e.1 e'.1

theorem Before.trans {n m k : String} (h : Before n m) (h' : Before m k) : Before n k :=
  Std.TransCmp.lt_trans h h'

theorem Before.ne {n m : String} (h : Before n m) : n ≠ m := by
  rintro rfl
  have hSelf : Text.order n.toList n.toList = .eq := Std.ReflCmp.compare_self
  rw [Before, hSelf] at h
  cases h

theorem order_eq_eq {n m : String} : Text.order n.toList m.toList = .eq ↔ n = m := by
  rw [Std.LawfulEqCmp.compare_eq_iff_eq, String.toList_inj]

theorem order_eq_gt {n m : String} : Text.order n.toList m.toList = .gt ↔ Before m n :=
  Std.OrientedCmp.gt_iff_lt

/-! ### Insertion -/

variable {name : String} {v : Value} {entries : List (String × Value)}

theorem mem_insert {e : String × Value} (h : e ∈ insert name v entries) :
    e = (name, v) ∨ e ∈ entries := by
  induction entries with
  | nil => simpa [insert] using h
  | cons entry es ih =>
    simp only [insert] at h
    split at h
    case h_1 => simpa using h
    case h_2 =>
      rcases List.mem_cons.mp h with h | h
      · exact .inl h
      · exact .inr (List.mem_cons_of_mem _ h)
    case h_3 =>
      rcases List.mem_cons.mp h with rfl | h
      · exact .inr List.mem_cons_self
      · exact (ih h).imp_right (List.mem_cons_of_mem _)

theorem Sorted.insert (h : Sorted entries) : Sorted (insert name v entries) := by
  induction entries with
  | nil => exact List.pairwise_singleton _ _
  | cons entry es ih =>
    obtain ⟨hFirst, hRest⟩ := List.pairwise_cons.mp h
    simp only [Bindings.insert]
    split
    case h_1 hLt =>
      refine List.pairwise_cons.mpr ⟨fun e hMem => ?_, h⟩
      rcases List.mem_cons.mp hMem with rfl | hMem
      · exact hLt
      · exact Before.trans hLt (hFirst e hMem)
    case h_2 hEq =>
      obtain rfl := order_eq_eq.mp hEq
      exact List.pairwise_cons.mpr ⟨hFirst, hRest⟩
    case h_3 hGt =>
      refine List.pairwise_cons.mpr ⟨fun e hMem => ?_, ih hRest⟩
      rcases mem_insert hMem with rfl | hMem
      · exact order_eq_gt.mp hGt
      · exact hFirst e hMem

theorem lookup_cons (other : String) :
    ((name, v) :: entries).lookup other =
      if other = name then some v else entries.lookup other := by
  rw [List.lookup_cons]
  by_cases h : other = name
  · rw [if_pos h, beq_iff_eq.mpr h]
  · rw [if_neg h, beq_false_of_ne h]

/-- Inserting changes what one name is bound to. -/
theorem lookup_insert (other : String) :
    (insert name v entries).lookup other =
      if other = name then some v else entries.lookup other := by
  induction entries with
  | nil => exact lookup_cons other
  | cons entry es ih =>
    obtain ⟨n, w⟩ := entry
    simp only [insert]
    split
    case h_1 => exact lookup_cons other
    case h_2 hEq =>
      obtain rfl := order_eq_eq.mp hEq
      by_cases h : other = name <;> simp only [lookup_cons, h, if_true, if_false]
    case h_3 hGt =>
      have hNe : n ≠ name := (order_eq_gt.mp hGt).ne
      rw [lookup_cons, lookup_cons, ih]
      by_cases hn : other = n
      · rw [if_pos hn, if_pos hn, if_neg (hn ▸ hNe)]
      · rw [if_neg hn, if_neg hn]

/-! ### Search -/

section Search

variable {a : Array (String × Value)} {low high i : Nat}

/-- What is found is the name. -/
theorem search_eq_some (h : search a name.toList low high = some i) :
    ∃ e, a[i]? = some e ∧ e.1 = name := by
  fun_induction search a name.toList low high with
  | case1 => cases h
  | case2 low high hLt middle n w hMiddle hOrder =>
    obtain rfl := Option.some.inj h
    exact ⟨_, hMiddle, order_eq_eq.mp hOrder⟩
  | case3 low high hLt middle n w hMiddle hOrder ih => exact ih h
  | case4 low high hLt middle n w hMiddle hOrder ih => exact ih h
  | case5 => cases h

theorem Sorted.before_of_lt (h : Sorted a.toList) {i j : Nat} {e e' : String × Value} (hij : i < j)
    (hi : a[i]? = some e) (hj : a[j]? = some e') : Before e.1 e'.1 := by
  rw [← Array.getElem?_toList] at hi hj
  obtain ⟨hi', rfl⟩ := List.getElem?_eq_some_iff.mp hi
  obtain ⟨hj', rfl⟩ := List.getElem?_eq_some_iff.mp hj
  exact List.pairwise_iff_getElem.mp h i j hi' hj' hij

theorem Before.asymm {n m : String} (h : Before n m) : ¬Before m n :=
  fun h' => (h.trans h').ne rfl

theorem Sorted.lt_of_before (h : Sorted a.toList) {i j : Nat} {e e' : String × Value}
    (hi : a[i]? = some e) (hj : a[j]? = some e') (hBefore : Before e.1 e'.1) : i < j := by
  rcases Nat.lt_trichotomy i j with hlt | rfl | hgt
  · exact hlt
  · rw [hi] at hj
    cases hj
    exact absurd rfl hBefore.ne
  · exact absurd (h.before_of_lt hgt hj hi) hBefore.asymm

/-- Where a name is in the range, one is found. -/
theorem search_isSome (hSorted : Sorted a.toList) {e : String × Value} (hi : a[i]? = some e)
    (hName : e.1 = name) (hSize : high ≤ a.size) (hLow : low ≤ i) (hHigh : i < high) :
    (search a name.toList low high).isSome := by
  fun_induction search a name.toList low high with
  | case1 low high hLt middle hMiddle =>
    have hEnd : a.size ≤ middle := Array.getElem?_eq_none_iff.mp hMiddle
    omega
  | case2 low high hLt middle n w hMiddle hOrder => rfl
  | case3 low high hLt middle n w hMiddle hOrder ih =>
    -- the middle is before the place of the name, since its name is
    apply ih hSize _ hHigh
    exact hSorted.lt_of_before hMiddle hi (hName ▸ hOrder)
  | case4 low high hLt middle n w hMiddle hOrder ih =>
    apply ih (by omega) hLow
    exact hSorted.lt_of_before hi hMiddle (hName ▸ order_eq_gt.mp hOrder)
  | case5 low high hLt => exact absurd (Nat.lt_of_le_of_lt hLow hHigh) hLt

end Search

theorem lookup_eq_some_iff (h : Sorted entries) {name : String} {v : Value} :
    entries.lookup name = some v ↔ (name, v) ∈ entries := by
  induction entries with
  | nil => simp
  | cons entry es ih =>
    obtain ⟨n, w⟩ := entry
    obtain ⟨hFirst, hRest⟩ := List.pairwise_cons.mp h
    rw [lookup_cons]
    by_cases hn : name = n
    · subst hn
      have hNew : (name, v) ∉ es := fun hMem => (hFirst _ hMem).ne rfl
      simp [hNew, eq_comm]
    · simp [hn, ih hRest]

/-- Looking a name up by halving finds what it is bound to. -/
theorem find?_eq_lookup {b : Bindings} (h : Sorted b.toList) (name : String) :
    b.find? name = b.toList.lookup name := by
  unfold find? position?
  cases hSearch : search b.entries name.toList 0 b.entries.size with
  | some i =>
    obtain ⟨⟨n, v⟩, hi, rfl⟩ := search_eq_some hSearch
    rw [Option.bind_some, hi, Option.map_some]
    refine ((lookup_eq_some_iff h).mpr ?_).symm
    exact Array.mem_toList_iff.mpr (Array.mem_of_getElem? hi)
  | none =>
    refine (Option.eq_none_iff_forall_ne_some.mpr fun v hv => ?_).symm
    have hMem := Array.mem_toList_iff.mp ((lookup_eq_some_iff h).mp hv)
    obtain ⟨i, hi⟩ := Array.mem_iff_getElem?.mp hMem
    have hFound := search_isSome h hi rfl (Nat.le_refl _) (Nat.zero_le i)
      (Array.getElem?_eq_some_iff.mp hi).choose
    rw [hSearch] at hFound
    cases hFound

/-! ### Collected pairs -/

theorem Sorted.insertAll (h : Sorted entries) (pairs : List (String × Value)) :
    Sorted (pairs.foldl (fun es (name, v) => Bindings.insert name v es) entries) := by
  induction pairs generalizing entries with
  | nil => exact h
  | cons pair pairs ih => exact ih h.insert

theorem lookup_insertAll (pairs : List (String × Value)) (name : String) :
    (pairs.foldl (fun es (name, v) => insert name v es) entries).lookup name =
      (pairs.reverse ++ entries).lookup name := by
  induction pairs generalizing entries with
  | nil => rfl
  | cons pair pairs ih =>
    obtain ⟨n, v⟩ := pair
    rw [List.foldl_cons, ih, List.reverse_cons, List.append_assoc, List.singleton_append,
      List.lookup_append, List.lookup_append, lookup_insert, lookup_cons]

theorem sorted_ofList (pairs : List (String × Value)) : Sorted (ofList pairs).toList :=
  Sorted.insertAll List.Pairwise.nil pairs

/-- The last value of a name counts. -/
theorem find?_ofList (pairs : List (String × Value)) (name : String) :
    (ofList pairs).find? name = pairs.reverse.lookup name := by
  rw [find?_eq_lookup (sorted_ofList pairs)]
  exact (lookup_insertAll pairs name).trans (by rw [List.append_nil])

end Formula.Bindings
