import Formula.Proofs.Value.Same

/-! Well-formed values, in which equality is no surprise. A dict that is made of well-formed pairs
is well-formed, since a key that is there already is not added again. -/

namespace Formula.Value

/-- No two keys are equal. -/
def DistinctKeys (entries : List (Value × Value)) : Prop :=
  entries.Pairwise fun e e' => equals e.1 e'.1 = false

/-- A value without NaN, without whole numbers past `2^53`, and without dicts that have equal keys,
in all of its parts. -/
inductive WellFormed : Value → Prop
  | none : WellFormed .none
  | bool (b : Bool) : WellFormed (.bool b)
  | int {n : Int} (h : n.natAbs ≤ 2 ^ 53) : WellFormed (.int n)
  | float {x : Double} (h : x.isNaN = false) : WellFormed (.float x)
  | str (s : String) : WellFormed (.str s)
  | list {items : List Value} (h : ∀ item ∈ items, WellFormed item) : WellFormed (.list items)
  | dict {entries : List (Value × Value)} (hKeys : ∀ e ∈ entries, WellFormed e.1)
      (hValues : ∀ e ∈ entries, WellFormed e.2) (hDistinct : DistinctKeys entries) :
      WellFormed (.dict entries)
  | function (f : Function) : WellFormed (.function f)
  | method {receiver : Value} (m : Method) (h : WellFormed receiver) :
      WellFormed (.method receiver m)
  | object (o : HostObject) : WellFormed (.object o)

/-- The entries of a dict whose keys and values are in `P`. -/
structure EntriesOver (P : Value → Prop) (entries : List (Value × Value)) : Prop where
  keys : ∀ e ∈ entries, P e.1
  values : ∀ e ∈ entries, P e.2
  distinct : DistinctKeys entries

theorem mem_insertEntry {key value : Value} {entries : List (Value × Value)} {e : Value × Value}
    (h : e ∈ insertEntry key value entries) :
    (e.1 = key ∨ ∃ e' ∈ entries, e'.1 = e.1) ∧ (e.2 = value ∨ e ∈ entries) := by
  induction entries with
  | nil =>
    cases List.mem_singleton.mp h
    exact ⟨.inl rfl, .inl rfl⟩
  | cons first entries ih =>
    rw [insertEntry] at h
    split at h
    · rcases List.mem_cons.mp h with rfl | hMem
      · exact ⟨.inr ⟨first, List.mem_cons_self, rfl⟩, .inl rfl⟩
      · exact ⟨.inr ⟨e, List.mem_cons_of_mem _ hMem, rfl⟩, .inr (List.mem_cons_of_mem _ hMem)⟩
    · rcases List.mem_cons.mp h with rfl | hMem
      · exact ⟨.inr ⟨first, List.mem_cons_self, rfl⟩, .inr List.mem_cons_self⟩
      · obtain ⟨hKey, hValue⟩ := ih hMem
        refine ⟨hKey.imp_right ?_, hValue.imp_right (List.mem_cons_of_mem _)⟩
        rintro ⟨e', hMem', hEq⟩
        exact ⟨e', List.mem_cons_of_mem _ hMem', hEq⟩

/-- A dict keeps its keys distinct when a pair is added. -/
theorem DistinctKeys.insertEntry {entries : List (Value × Value)} (h : DistinctKeys entries)
    (key value : Value) : DistinctKeys (insertEntry key value entries) := by
  induction entries with
  | nil => exact List.pairwise_singleton _ _
  | cons first entries ih =>
    obtain ⟨hFirst, hRest⟩ := List.pairwise_cons.mp h
    rw [Value.insertEntry]
    split
    · exact List.pairwise_cons.mpr ⟨hFirst, hRest⟩
    · next hNe =>
      refine List.pairwise_cons.mpr ⟨fun e hMem => ?_, ih hRest⟩
      rcases (mem_insertEntry hMem).1 with hKey | ⟨e', hMem', hKey⟩
      · rw [hKey]
        exact eq_false_of_ne_true hNe
      · rw [← hKey]
        exact hFirst e' hMem'

/-- The dict of well-formed pairs is well-formed. -/
theorem wellFormed_ofPairs {pairs : List (Value × Value)}
    (h : ∀ pair ∈ pairs, pair.1.WellFormed ∧ pair.2.WellFormed) : (ofPairs pairs).WellFormed := by
  have hFold : ∀ entries, EntriesOver WellFormed entries → EntriesOver WellFormed
      (pairs.foldl (fun entries pair => insertEntry pair.1 pair.2 entries) entries) := by
    induction pairs with
    | nil => exact fun _ hEntries => hEntries
    | cons pair pairs ih =>
      obtain ⟨⟨hKey, hValue⟩, hRest⟩ := List.forall_mem_cons.mp h
      intro entries hEntries
      refine ih hRest _ ⟨fun e hMem => ?_, fun e hMem => ?_, hEntries.distinct.insertEntry _ _⟩
      · rcases (mem_insertEntry hMem).1 with hEq | ⟨e', hMem', hEq⟩
        · exact hEq ▸ hKey
        · exact hEq ▸ hEntries.keys e' hMem'
      · rcases (mem_insertEntry hMem).2 with hEq | hMem'
        · exact hEq ▸ hValue
        · exact hEntries.values e hMem'
  have hEntries := hFold [] ⟨by simp, by simp, .nil⟩
  exact .dict hEntries.keys hEntries.values hEntries.distinct

end Formula.Value
