import Formula.Proofs.Bindings.Building

/-! Bindings as maps. Pairs that are collected make up a map in which the last value of a name
counts, and so do pairs that are bound one after the other, if no name is bound again. If some are,
they are reported in the order in which they were bound again. -/

namespace Formula.Bindings

/-- `b` is a map of `pairs`, in which the last value of a name counts. -/
structure IsMap (b : Bindings) (pairs : List (String × Value)) : Prop where
  /-- By code points, each name once. -/
  increasing : (names b.toList).Pairwise (· < ·)
  mem_names : ∀ name, name ∈ names b.toList ↔ name ∈ names pairs
  mem_entries : ∀ name v, (name, v) ∈ b.toList ↔ b.find? name = some v
  found : ∀ name v, b.find? name = some v ↔
    ∃ before after, pairs = before ++ (name, v) :: after ∧ name ∉ names after
  missing : ∀ name, b.find? name = none ↔ name ∉ names pairs
  contains : ∀ name, b.contains name = (b.find? name).isSome

/-- The names of `pairs` that stand there before, once for each time that they come again. -/
def rebound (pairs : List (String × Value)) : List String :=
  ((names pairs).zipIdx.filter fun n => n.1 ∈ (names pairs).take n.2).map (·.1)

/-! ### The names that are bound again -/

/-- Where what is known is what was passed, a name is known exactly if it stands before its
place. -/
theorem repeats_eq_filter {known passed : List String} (ahead : List String)
    (h : ∀ name, name ∈ known ↔ name ∈ passed) :
    repeats known ahead =
      ((ahead.zipIdx passed.length).filter fun n => n.1 ∈ (passed ++ ahead).take n.2).map
        (·.1) := by
  induction ahead generalizing known passed with
  | nil => rfl
  | cons name ahead ih =>
    have hHere : (passed ++ name :: ahead).take passed.length = passed := List.take_left
    have hLength : (passed ++ [name]).length = passed.length + 1 := List.length_append
    -- what is passed next is `name`, whether or not it was known
    have hRest : ∀ {known' : List String}, (∀ n, n ∈ known' ↔ n ∈ passed ++ [name]) →
        repeats known' ahead =
          ((ahead.zipIdx (passed.length + 1)).filter fun n =>
            n.1 ∈ (passed ++ name :: ahead).take n.2).map (·.1) := by
      intro known' h'
      rw [ih h', hLength, ← List.append_cons]
    rw [List.zipIdx_cons, List.filter_cons, hHere, repeats]
    by_cases hKnown : name ∈ known
    · have hSame : ∀ n, n ∈ known ↔ n ∈ passed ++ [name] := by
        intro n
        rw [List.mem_append, List.mem_singleton, ← h]
        exact ⟨.inl, fun hMem => hMem.elim id fun hEq => hEq ▸ hKnown⟩
      rw [if_pos hKnown, if_pos (by simpa using (h name).mp hKnown), hRest hSame, List.map_cons]
    · have hSame : ∀ n, n ∈ name :: known ↔ n ∈ passed ++ [name] := by
        intro n
        rw [List.mem_cons, List.mem_append, List.mem_singleton, h, or_comm]
      rw [if_neg hKnown, if_neg (by simpa using mt (h name).mpr hKnown), hRest hSame]

theorem repeats_names (pairs : List (String × Value)) :
    repeats [] (names pairs) = rebound pairs :=
  repeats_eq_filter (names pairs) fun _ => Iff.rfl

/-! ### The map of pairs -/

variable {name : String} {v : Value} {pairs : List (String × Value)}

theorem before_iff_lt {n m : String} : Before n m ↔ n < m := by
  rw [Before, Text.order_eq_lt, String.lt_iff]

theorem forall_bne_iff : (∀ p ∈ pairs, (name != p.1) = true) ↔ name ∉ names pairs := by
  simp only [names, List.mem_map, bne_iff_ne, not_exists, not_and]
  exact forall₂_congr fun p _ => ne_comm

theorem lookup_eq_none_iff : pairs.lookup name = none ↔ name ∉ names pairs := by
  rw [List.lookup_eq_none_iff, forall_bne_iff]

theorem mem_names_reverse : name ∈ names pairs.reverse ↔ name ∈ names pairs := by
  rw [names, List.map_reverse, List.mem_reverse, names]

/-- From the end, the pair with a name that is found is the last one with that name. -/
theorem lookup_reverse_eq_some_iff :
    pairs.reverse.lookup name = some v ↔
      ∃ before after, pairs = before ++ (name, v) :: after ∧ name ∉ names after := by
  rw [List.lookup_eq_some_iff]
  constructor
  · rintro ⟨after, before, hPairs, hNew⟩
    refine ⟨before.reverse, after.reverse, ?_, ?_⟩
    · simpa using congrArg List.reverse hPairs
    · rwa [mem_names_reverse, ← forall_bne_iff]
  · rintro ⟨before, after, rfl, hNew⟩
    refine ⟨after.reverse, before.reverse, by simp, ?_⟩
    rwa [forall_bne_iff, mem_names_reverse]

theorem contains_eq (b : Bindings) (name : String) : b.contains name = (b.find? name).isSome := by
  unfold contains find? position?
  cases hSearch : search b.entries name.toList 0 b.entries.size with
  | none => rfl
  | some i =>
    obtain ⟨e, hi, -⟩ := search_eq_some hSearch
    rw [Option.bind_some, hi]
    rfl

theorem find?_ofList_eq_none : (ofList pairs).find? name = none ↔ name ∉ names pairs := by
  rw [find?_ofList, lookup_eq_none_iff, mem_names_reverse]

theorem isMap_ofList (pairs : List (String × Value)) : IsMap (ofList pairs) pairs where
  increasing := by
    rw [names, List.pairwise_map]
    exact (sorted_ofList pairs).imp before_iff_lt.mp
  mem_names name := by
    rw [← not_iff_not, ← lookup_eq_none_iff, ← find?_eq_lookup (sorted_ofList pairs),
      find?_ofList_eq_none]
  mem_entries name v := by
    rw [find?_eq_lookup (sorted_ofList pairs), lookup_eq_some_iff (sorted_ofList pairs)]
  found name v := by rw [find?_ofList, lookup_reverse_eq_some_iff]
  missing name := find?_ofList_eq_none
  contains := contains_eq _

/-- Pairs that are collected make up a map of them. The same pairs bound one after the other make up
the same bindings if no name comes twice, and otherwise a report of every name that comes again. -/
theorem isMap_and_build (pairs : List (String × Value)) :
    IsMap (ofList pairs) pairs ∧
      (Builder.empty.bindValues pairs).build =
        if (names pairs).Nodup then .ok (ofList pairs) else .error (rebound pairs) := by
  refine ⟨isMap_ofList pairs, ?_⟩
  rw [Builder.build_bindValues, repeats_names]

end Formula.Bindings
