import Formula.Proofs.Value.Equality
import Formula.Proofs.Value.Methods

/-! Dicts are maps in which the last value of a key counts, and the keys stand in the order in which
they came first. All ways to ask a dict for a key agree on this. -/

namespace Formula.Value

variable {P : Value → Prop} {entries pairs : List (Value × Value)} {key value k : Value}

/-- The keys among `keys` that are equal to none before them, where those of `earlier` come before
all of them. -/
def firstOccurrences (earlier : List Value) : List Value → List Value
  | [] => []
  | key :: keys =>
    if earlier.any fun k => equals k key then firstOccurrences (key :: earlier) keys
    else key :: firstOccurrences (key :: earlier) keys

/-- The value of the last of `pairs` whose key equals `key`. -/
def lastValue? (key : Value) (pairs : List (Value × Value)) : Option Value :=
  (pairs.filter fun pair => equals pair.1 key).getLast?.map (·.2)

/-- `entries` with the values of `pairs` at their keys, from left to right. -/
def insertAll (entries pairs : List (Value × Value)) : List (Value × Value) :=
  pairs.foldl (fun entries (key, value) => insertEntry key value entries) entries

theorem ofPairs_eq (pairs : List (Value × Value)) : ofPairs pairs = .dict (insertAll [] pairs) :=
  rfl

theorem lookup?_cons (key value : Value) :
    lookup? k ((key, value) :: entries) =
      if equals key k then some value else lookup? k entries := by
  by_cases h : equals key k <;> simp [lookup?, h]

theorem lastValue?_cons (key value : Value) :
    lastValue? k ((key, value) :: pairs) =
      (lastValue? k pairs).or (if equals key k then some value else Option.none) := by
  rw [lastValue?, lastValue?, List.filter_cons]
  split
  · rw [List.getLast?_cons]
    cases (pairs.filter fun pair => equals pair.1 k).getLast? <;> rfl
  · rw [Option.or_none]

theorem insertAll_cons (pair : Value × Value) :
    insertAll entries (pair :: pairs) = insertAll (insertEntry pair.1 pair.2 entries) pairs := rfl

theorem insertAll_append (more : List (Value × Value)) :
    insertAll entries (pairs ++ more) = insertAll (insertAll entries pairs) more :=
  List.foldl_append

/-! ### Keys -/

theorem keys_insertEntry :
    (insertEntry key value entries).map (·.1) =
      if (entries.map (·.1)).any fun k => equals k key then entries.map (·.1)
      else entries.map (·.1) ++ [key] := by
  induction entries with
  | nil => rfl
  | cons e entries ih =>
    obtain ⟨k, v⟩ := e
    rw [insertEntry, List.map_cons, List.any_cons]
    by_cases h : equals k key
    · rw [if_pos h, h, Bool.true_or, if_pos rfl, List.map_cons]
    · rw [if_neg h, List.map_cons, ih, eq_false_of_ne_true h, Bool.false_or]
      split <;> rfl

theorem DistinctKeys.insertAll (h : DistinctKeys entries) (pairs : List (Value × Value)) :
    DistinctKeys (insertAll entries pairs) := by
  induction pairs generalizing entries with
  | nil => exact h
  | cons pair pairs ih => exact ih (h.insertEntry pair.1 pair.2)

theorem keys_mem_insertEntry (hEntries : ∀ e ∈ entries, P e.1) (hKey : P key) :
    ∀ e ∈ insertEntry key value entries, P e.1 := by
  intro e hMem
  rcases (mem_insertEntry hMem).1 with hEq | ⟨e', hMem', hEq⟩
  · exact hEq ▸ hKey
  · exact hEq ▸ hEntries e' hMem'

/-- No key comes from elsewhere than the pairs. -/
theorem keys_mem_insertAll (hEntries : ∀ e ∈ entries, P e.1) (hPairs : ∀ pair ∈ pairs, P pair.1) :
    ∀ e ∈ insertAll entries pairs, P e.1 := by
  induction pairs generalizing entries with
  | nil => exact hEntries
  | cons pair pairs ih =>
    obtain ⟨hKey, hRest⟩ := List.forall_mem_cons.mp hPairs
    exact ih (keys_mem_insertEntry hEntries hKey) hRest

namespace Equates

/-- A key is kept where none that came before is equal to it. `earlier` are the keys that came
before: among them are those that were not kept, which are equal to others that were. -/
theorem keys_insertAll (E : Equates P) {earlier : List Value} (hEntries : ∀ e ∈ entries, P e.1)
    (hPairs : ∀ pair ∈ pairs, P pair.1)
    (hEarlier : ∀ k, P k →
      (earlier.any (equals · k)) = ((entries.map (·.1)).any (equals · k))) :
    (insertAll entries pairs).map (·.1) =
      entries.map (·.1) ++ firstOccurrences earlier (pairs.map (·.1)) := by
  induction pairs generalizing entries earlier with
  | nil => exact (List.append_nil _).symm
  | cons pair pairs ih =>
    obtain ⟨key, value⟩ := pair
    obtain ⟨hKey, hRest⟩ := List.forall_mem_cons.mp hPairs
    have hKeys : ∀ e ∈ insertEntry key value entries, P e.1 :=
      keys_mem_insertEntry hEntries hKey
    rw [insertAll_cons, List.map_cons, firstOccurrences, hEarlier key hKey]
    by_cases hKnown : (entries.map (·.1)).any (equals · key)
    · have hSame : (insertEntry key value entries).map (·.1) = entries.map (·.1) := by
        rw [keys_insertEntry, if_pos hKnown]
      rw [if_pos hKnown, ih hKeys hRest, hSame]
      intro k hk
      rw [hSame, List.any_cons, hEarlier k hk]
      -- whatever equals the new key equals the kept key that the new one is equal to
      refine Bool.or_eq_right_iff_imp.mpr fun hEq => ?_
      obtain ⟨kept, hMem, hOld⟩ := List.any_eq_true.mp hKnown
      obtain ⟨e, hMem', rfl⟩ := List.mem_map.mp hMem
      have hTwice := E.trans _ _ _ (hEntries e hMem') hKey hk hOld hEq
      exact List.any_eq_true.mpr ⟨e.1, hMem, hTwice⟩
    · have hNew : (insertEntry key value entries).map (·.1) = entries.map (·.1) ++ [key] := by
        rw [keys_insertEntry, if_neg hKnown]
      rw [if_neg hKnown, ih hKeys hRest, hNew, List.append_assoc, List.singleton_append]
      intro k hk
      rw [hNew, List.any_cons, hEarlier k hk, List.any_append, Bool.or_comm]
      simp

/-! ### Values -/

theorem lookup?_insertEntry (E : Equates P) (hEntries : ∀ e ∈ entries, P e.1) (hKey : P key)
    (hk : P k) :
    lookup? k (insertEntry key value entries) =
      if equals key k then some value else lookup? k entries := by
  induction entries with
  | nil => rw [insertEntry, lookup?_cons]
  | cons e entries ih =>
    obtain ⟨old, v⟩ := e
    obtain ⟨hOld, hRest⟩ := List.forall_mem_cons.mp hEntries
    rw [insertEntry]
    by_cases hHere : equals old key
    · have hSame : equals old k ↔ equals key k :=
        ⟨E.trans _ _ _ hKey hOld hk (E.symm _ _ hOld hKey hHere), E.trans _ _ _ hOld hKey hk hHere⟩
      rw [if_pos hHere, lookup?_cons, lookup?_cons]
      by_cases h : equals key k
      · rw [if_pos h, if_pos (hSame.mpr h)]
      · rw [if_neg h, if_neg (mt hSame.mp h), if_neg (mt hSame.mp h)]
    · have hOther : equals key k → ¬equals old k := fun h h' =>
        hHere (E.trans _ _ _ hOld hk hKey h' (E.symm _ _ hKey hk h))
      rw [if_neg hHere, lookup?_cons, lookup?_cons, ih hRest]
      by_cases h : equals key k
      · rw [if_pos h, if_pos h, if_neg (hOther h)]
      · rw [if_neg h, if_neg h]

/-- The last value counts, and where there is none, what was there before. -/
theorem lookup?_insertAll (E : Equates P) (hEntries : ∀ e ∈ entries, P e.1)
    (hPairs : ∀ pair ∈ pairs, P pair.1) (hk : P k) :
    lookup? k (insertAll entries pairs) = (lastValue? k pairs).or (lookup? k entries) := by
  induction pairs generalizing entries with
  | nil => rfl
  | cons pair pairs ih =>
    obtain ⟨key, value⟩ := pair
    obtain ⟨hKey, hRest⟩ := List.forall_mem_cons.mp hPairs
    have hKeys : ∀ e ∈ insertEntry key value entries, P e.1 :=
      keys_mem_insertEntry hEntries hKey
    rw [insertAll_cons, ih hKeys hRest, E.lookup?_insertEntry hEntries hKey hk, lastValue?_cons,
      Option.or_assoc]
    split <;> rfl

end Equates

/-! ### Entries that are inserted again -/

theorem insertEntry_of_new (h : ∀ e ∈ entries, equals e.1 key = false) :
    insertEntry key value entries = entries ++ [(key, value)] := by
  induction entries with
  | nil => rfl
  | cons e entries ih =>
    obtain ⟨hFirst, hRest⟩ := List.forall_mem_cons.mp h
    rw [insertEntry, hFirst, if_neg Bool.false_ne_true, ih hRest, List.cons_append]

/-- Entries whose keys are distinct stay as they are. -/
theorem DistinctKeys.insertAll_eq (h : DistinctKeys (entries ++ pairs)) :
    Value.insertAll entries pairs = entries ++ pairs := by
  induction pairs generalizing entries with
  | nil => exact (List.append_nil _).symm
  | cons pair pairs ih =>
    have hNew : ∀ e ∈ entries, equals e.1 pair.1 = false := fun e hMem =>
      (List.pairwise_append.mp h).2.2 e hMem pair List.mem_cons_self
    rw [List.append_cons] at h ⊢
    rw [insertAll_cons, insertEntry_of_new hNew, ih h]

/-! ### Asking a dict -/

section Host

variable {σ : Type}

/-- The item of a dict at `key`, if `found` is what the dict has there. -/
def itemOf (host : Host σ) (key : Value) : Option Value → Run σ Value
  | some value => pure value
  | Option.none => do throw (.keyNotFound (← key.repr host))

theorem callMethod_dict (host : Host σ) {m : Method} (hm : m ∈ Method.ofDict) (args : List Value) :
    callMethod host (.dict entries) m.name args =
      Run.ofExcept host (m.call (.dict entries) args) :=
  callMethod_eq host hm args

/-- All ways to ask the dict of `entries` for `key` agree that `value?` is there. -/
structure Answers (host : Host σ) (entries : List (Value × Value)) (key : Value)
    (value? : Option Value) : Prop where
  lookup : lookup? key entries = value?
  item : getItem host (.dict entries) key = itemOf host key value?
  get : callMethod host (.dict entries) "get" [key] = pure (value?.getD .none)
  getOr : ∀ default,
    callMethod host (.dict entries) "get" [key, default] = pure (value?.getD default)

theorem answers (host : Host σ) {value? : Option Value} (h : lookup? key entries = value?) :
    Answers host entries key value? where
  lookup := h
  item := by
    show Run.ofExcept host (Value.item (.dict entries) key) = _
    rw [Value.item, h]
    cases value? <;> rfl
  get := by
    rw [← h]
    exact callMethod_dict host (by decide : Method.get ∈ Method.ofDict) [key]
  getOr default := by
    rw [← h]
    exact callMethod_dict host (by decide : Method.get ∈ Method.ofDict) [key, default]

/-- `entries` are a map of `pairs`, in which the last value of a key counts. -/
structure LastWriteWins (host : Host σ) (pairs entries : List (Value × Value)) : Prop where
  distinct : entries.Pairwise fun e e' => ¬equals e.1 e'.1 ∧ ¬equals e'.1 e.1
  keys : entries.map (·.1) = firstOccurrences [] (pairs.map (·.1))
  answers : ∀ key, key.WellFormed → Answers host entries key (lastValue? key pairs)
  listsKeys : callMethod host (.dict entries) "keys" [] = pure (.list (entries.map (·.1)))
  listsValues : callMethod host (.dict entries) "values" [] = pure (.list (entries.map (·.2)))
  listsItems : callMethod host (.dict entries) "items" [] =
    pure (.list (entries.map fun e => .list [e.1, e.2]))
  rebuilt : ofPairs entries = .dict entries
  merged : ∀ more, ofPairs (entries ++ more) = ofPairs (pairs ++ more)

/-- The dict of pairs with well-formed keys is an ordered map of them. -/
theorem ofPairs_lastWriteWins (host : Host σ) {pairs : List (Value × Value)}
    (h : ∀ pair ∈ pairs, pair.1.WellFormed) :
    ∃ entries, ofPairs pairs = .dict entries ∧ LastWriteWins host pairs entries := by
  have hNone : ∀ e ∈ ([] : List (Value × Value)), e.1.WellFormed := nofun
  have hWell : ∀ e ∈ insertAll [] pairs, e.1.WellFormed := keys_mem_insertAll hNone h
  have hDistinct : DistinctKeys (insertAll [] pairs) := DistinctKeys.insertAll .nil pairs
  have hAgain : insertAll [] (insertAll [] pairs) = insertAll [] pairs :=
    DistinctKeys.insertAll_eq (show DistinctKeys ([] ++ insertAll [] pairs) from hDistinct)
  refine ⟨insertAll [] pairs, ofPairs_eq pairs, ?_, ?_, fun key hKey => ?_, ?_, ?_, ?_, ?_, ?_⟩
  · refine hDistinct.imp_of_mem fun {e e'} hMem hMem' hNe => ?_
    rw [Bool.eq_false_iff] at hNe
    exact ⟨hNe, mt (equates_wellFormed.symm _ _ (hWell e' hMem') (hWell e hMem)) hNe⟩
  · exact equates_wellFormed.keys_insertAll hNone h fun _ _ => rfl
  · refine Value.answers host ?_
    rw [equates_wellFormed.lookup?_insertAll hNone h hKey]
    exact Option.or_none
  · exact callMethod_dict host (by decide : Method.keys ∈ Method.ofDict) []
  · exact callMethod_dict host (by decide : Method.values ∈ Method.ofDict) []
  · exact callMethod_dict host (by decide : Method.items ∈ Method.ofDict) []
  · rw [ofPairs_eq, hAgain]
  · intro more
    rw [ofPairs_eq, ofPairs_eq, insertAll_append, insertAll_append, hAgain]

/-- One and true are the same key, in a list too. -/
theorem ofPairs_lastWriteWins_ones :
    (∀ pair ∈ [(Value.int 1, Value.str "a"), (.list [.bool true], .none), (.bool true, .str "b"),
      (.list [.int 1], .str "c")], pair.1.WellFormed) ∧
    LastWriteWins Host.none
      [(.int 1, .str "a"), (.list [.bool true], .none), (.bool true, .str "b"),
        (.list [.int 1], .str "c")]
      [(.int 1, .str "b"), (.list [.bool true], .str "c")] := by
  have hWell : ∀ pair ∈ [(Value.int 1, Value.str "a"), (.list [.bool true], .none),
      (.bool true, .str "b"), (.list [.int 1], .str "c")], pair.1.WellFormed := by
    simp [WellFormed.int, WellFormed.bool, WellFormed.list]
  obtain ⟨entries, hDict, hMap⟩ := ofPairs_lastWriteWins Host.none hWell
  have hEntries : ofPairs [(.int 1, .str "a"), (.list [.bool true], .none),
      (.bool true, .str "b"), (.list [.int 1], .str "c")] =
      .dict [(.int 1, .str "b"), (.list [.bool true], .str "c")] := by
    simp [ofPairs, insertEntry, equals, equalItems, number?, Number.equals]
  cases hDict.symm.trans hEntries
  exact ⟨hWell, hMap⟩

end Host

end Formula.Value
