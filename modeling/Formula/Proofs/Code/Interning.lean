import Formula.Proofs.Code.Fragment

/-! What the numbers of a table mean over the whole history of the table, whatever was added to it
and in which order. The literals and the names are numbered alike, so what holds of either is shown
once, of a list of known symbols in which a symbol is looked for by `same`. -/

namespace Formula

/-! ### Numbered symbols -/

/-- The symbols of `calls` were numbered one after the other, and `known` holds the new ones among
them. -/
inductive Numbered {α : Type} (same : α → α → Bool) : List (α × Nat) → List α → Prop
  | start : Numbered same [] []
  | again {calls : List (α × Nat)} {known : List α} {a : α} {id : Nat}
      (before : Numbered same calls known) (found : known.findIdx? (same a) = some id) :
      Numbered same (calls ++ [(a, id)]) known
  | new {calls : List (α × Nat)} {known : List α} {a : α}
      (before : Numbered same calls known) (missing : known.findIdx? (same a) = none)
      (room : known.length < numberLimit) :
      Numbered same (calls ++ [(a, known.length)]) (known ++ [a])

namespace Numbered

variable {α : Type} {same : α → α → Bool} {calls : List (α × Nat)} {known : List α}

theorem id_lt (h : Numbered same calls known) {c : α × Nat} (hc : c ∈ calls) :
    c.2 < known.length := by
  induction h with
  | start => cases hc
  | again before found ih =>
    rcases List.mem_append.mp hc with hc | hc
    · exact ih hc
    · obtain rfl := List.mem_singleton.mp hc
      exact (List.findIdx?_eq_some_iff_getElem.mp found).choose
  | new before missing room ih =>
    rw [List.length_append, List.length_singleton]
    rcases List.mem_append.mp hc with hc | hc
    · exact Nat.lt_succ_of_lt (ih hc)
    · obtain rfl := List.mem_singleton.mp hc
      exact Nat.lt_succ_self _

/-- No known symbol is found in place of a later one. -/
theorem distinct (h : Numbered same calls known) :
    known.Pairwise fun a b => same b a = false := by
  induction h with
  | start => exact List.Pairwise.nil
  | again before found ih => exact ih
  | new before missing room ih =>
    refine List.pairwise_append.mpr ⟨ih, List.pairwise_singleton _ _, fun a ha b hb => ?_⟩
    obtain rfl := List.mem_singleton.mp hb
    exact List.findIdx?_eq_none_iff.mp missing a ha

theorem eraseDups_eq_range (h : Numbered same calls known) :
    (calls.map (·.2)).eraseDups = List.range known.length := by
  induction h with
  | start => rfl
  | @again calls known a id before found ih =>
    have hLt : id < known.length := (List.findIdx?_eq_some_iff_getElem.mp found).choose
    have hMem : id ∈ calls.map (·.2) := by
      rw [← List.mem_eraseDups, ih]
      exact List.mem_range.mpr hLt
    rw [List.map_append, List.eraseDups_append, ih]
    simp [List.removeAll, hMem]
  | @new calls known a before missing room ih =>
    have hMem : known.length ∉ calls.map (·.2) := by
      rw [← List.mem_eraseDups, ih]
      exact List.not_mem_range_self
    rw [List.map_append, List.eraseDups_append, ih, List.length_append, List.length_singleton,
      List.range_succ]
    simp [List.removeAll, hMem, List.eraseDups_cons]

variable (hSame : ∀ a b, same a b → a = b)
include hSame

theorem getElem?_eq (h : Numbered same calls known) {a : α} {id : Nat} (hc : (a, id) ∈ calls) :
    known[id]? = some a := by
  induction h with
  | start => cases hc
  | again before found ih =>
    rcases List.mem_append.mp hc with hc | hc
    · exact ih hc
    · cases List.mem_singleton.mp hc
      obtain ⟨hLt, hFound, -⟩ := List.findIdx?_eq_some_iff_getElem.mp found
      rw [List.getElem?_eq_getElem hLt, hSame _ _ hFound]
  | new before missing room ih =>
    rcases List.mem_append.mp hc with hc | hc
    · rw [List.getElem?_append_left (before.id_lt hc), ih hc]
    · cases List.mem_singleton.mp hc
      exact List.getElem?_concat_length

/-- The number at which a symbol is found is the only one under which it is known. -/
theorem id_eq_of_found (h : Numbered same calls known) {a : α} {id m : Nat}
    (found : known.findIdx? (same a) = some id) (hm : known[m]? = some a) : m = id := by
  obtain ⟨hLt, hFound, hFirst⟩ := List.findIdx?_eq_some_iff_getElem.mp found
  obtain ⟨hLt', hm⟩ := List.getElem?_eq_some_iff.mp hm
  have hEq := hSame _ _ hFound
  rcases Nat.lt_trichotomy m id with hlt | rfl | hgt
  · rw [← hEq] at hFound
    exact absurd (hm ▸ hFound) (hFirst m hlt)
  · rfl
  · have hDistinct := List.pairwise_iff_getElem.mp h.distinct id m hLt hLt' hgt
    rw [hm, hFound] at hDistinct
    cases hDistinct

/-- Two symbols have the same number exactly if the later one is found by the earlier one. -/
theorem pairwise_id_eq_iff (h : Numbered same calls known) :
    calls.Pairwise fun c c' => c.2 = c'.2 ↔ same c'.1 c.1 := by
  induction h with
  | start => exact List.Pairwise.nil
  | @again calls known a id before found ih =>
    refine List.pairwise_append.mpr ⟨ih, List.pairwise_singleton _ _, fun c hc c' hc' => ?_⟩
    obtain rfl := List.mem_singleton.mp hc'
    have hKnown := before.getElem?_eq hSame hc
    constructor
    · rintro rfl
      obtain ⟨hLt, hFound, -⟩ := List.findIdx?_eq_some_iff_getElem.mp found
      rw [List.getElem?_eq_getElem hLt, Option.some_inj] at hKnown
      exact hKnown ▸ hFound
    · intro hFound
      rw [← hSame _ _ hFound] at hKnown
      exact before.id_eq_of_found hSame found hKnown
  | @new calls known a before missing room ih =>
    refine List.pairwise_append.mpr ⟨ih, List.pairwise_singleton _ _, fun c hc c' hc' => ?_⟩
    obtain rfl := List.mem_singleton.mp hc'
    have hMissing : same a c.1 = false :=
      List.findIdx?_eq_none_iff.mp missing c.1 (List.mem_of_getElem? (before.getElem?_eq hSame hc))
    simp [hMissing, Nat.ne_of_lt (before.id_lt hc)]

end Numbered

/-! ### Histories of tables -/

namespace SymbolTable

/-- A new table became `t` when the operands of `calls` were added to it one after the other, and
each of them got its number. -/
inductive History : List (Operand × Nat) → SymbolTable → Prop
  | start : History [] .empty
  | step {calls : List (Operand × Nat)} {t t' : SymbolTable} {o : Operand} {id : Nat}
      (before : History calls t) (added : t.add o = (.ok id, t')) :
      History (calls ++ [(o, id)]) t'

/-- The literals among operands, with their numbers. -/
def literalCalls (calls : List (Operand × Nat)) : List (Value × Nat) :=
  calls.filterMap fun c => c.1.constant?.map (·, c.2)

def nameCalls (calls : List (Operand × Nat)) : List (String × Nat) :=
  calls.filterMap fun c => c.1.name?.map (·, c.2)

/-- What operands give that are added to a table one after the other, and the table after them.
Each is added to what the one before it left, whether that one got a number or not. -/
def addEach (t : SymbolTable) :
    List Operand → List (Operand × Except CompileError Nat) × SymbolTable
  | [] => ([], t)
  | o :: os =>
    let (answers, t') := (t.add o).2.addEach os
    ((o, (t.add o).1) :: answers, t')

/-- The operands that got a number. -/
def numbered (answers : List (Operand × Except CompileError Nat)) : List (Operand × Nat) :=
  answers.filterMap fun c => c.2.toOption.map (c.1, ·)

variable {t t' : SymbolTable} {calls : List (Operand × Nat)}

theorem literalCalls_concat (calls : List (Operand × Nat)) (o : Operand) (id : Nat) :
    literalCalls (calls ++ [(o, id)]) = literalCalls calls ++ (o.constant?.map (·, id)).toList := by
  cases o <;> simp [literalCalls, Operand.constant?]

theorem nameCalls_concat (calls : List (Operand × Nat)) (o : Operand) (id : Nat) :
    nameCalls (calls ++ [(o, id)]) = nameCalls calls ++ (o.name?.map (·, id)).toList := by
  cases o <;> simp [nameCalls, Operand.name?]

namespace History

theorem literals (h : History calls t) :
    Numbered Value.sameConstant (literalCalls calls) t.literals := by
  induction h with
  | start => exact .start
  | @step calls t t' o id before added ih =>
    rw [literalCalls_concat]
    cases o with
    | constant v =>
      cases added_of_eq added with
      | found hFound => exact ih.again hFound
      | new hNew hRoom hLiterals =>
        rw [hLiterals]
        exact ih.new hNew hRoom
    | name s =>
      have hKept : t'.literals = t.literals :=
        congrArg Interner.symbols (constants_of_add_name added)
      rw [hKept]
      simpa [Operand.constant?] using ih

theorem references (h : History calls t) :
    Numbered (fun name known => known == name) (nameCalls calls) t.references := by
  induction h with
  | start => exact .start
  | @step calls t t' o id before added ih =>
    rw [nameCalls_concat]
    cases o with
    | constant v =>
      have hKept : t'.references = t.references :=
        congrArg Interner.symbols (names_of_add_constant added)
      rw [hKept]
      simpa [Operand.name?] using ih
    | name s =>
      cases added_of_eq added with
      | found hFound => exact ih.again hFound
      | new hNew hRoom _ hReferences =>
        rw [hReferences]
        exact ih.new hNew hRoom

/-- The literals get the same numbers in a table without names. -/
theorem literals_alone (h : History calls t) :
    History ((literalCalls calls).map fun c => (.constant c.1, c.2))
      { t with names := .empty } := by
  induction h with
  | start => exact .start
  | @step calls t t' o id before added ih =>
    rw [literalCalls_concat]
    cases o with
    | constant v =>
      rw [List.map_append]
      exact ih.step (add_constant_eq added .empty)
    | name s =>
      rw [constants_of_add_name added]
      simpa [Operand.constant?] using ih

theorem references_alone (h : History calls t) :
    History ((nameCalls calls).map fun c => (.name c.1, c.2))
      { t with constants := .empty } := by
  induction h with
  | start => exact .start
  | @step calls t t' o id before added ih =>
    rw [nameCalls_concat]
    cases o with
    | constant v =>
      rw [names_of_add_constant added]
      simpa [Operand.name?] using ih
    | name s =>
      rw [List.map_append]
      exact ih.step (add_name_eq added .empty)

/-- Operands that cannot be added leave no trace. -/
theorem addEach (h : History calls t) (os : List Operand) :
    History (calls ++ numbered (t.addEach os).1) (t.addEach os).2 := by
  induction os generalizing calls t with
  | nil => simpa [SymbolTable.addEach, numbered] using h
  | cons o os ih =>
    unfold SymbolTable.addEach
    rcases hAdd : t.add o with ⟨e | id, t'⟩
    · obtain rfl : t' = t := by simpa [hAdd] using eq_of_add_error (t := t) (o := o) (e := e)
      simpa [numbered, Except.toOption] using ih h
    · simpa [numbered, Except.toOption] using ih (h.step hAdd)

end History

/-- What the numbers mean that operands got while a new table became `t`. -/
structure Faithful (calls : List (Operand × Nat)) (t : SymbolTable) : Prop where
  literal : ∀ v id, (.constant v, id) ∈ calls → t.literal? id = some v
  reference : ∀ name id, (.name name, id) ∈ calls → t.reference? id = some name
  /-- Two literals share a number if they are identical atoms, and only then. -/
  literals_share : (literalCalls calls).Pairwise fun c c' =>
    c.2 = c'.2 ↔ c'.1.isAtom ∧ c.1 = c'.1
  references_share : (nameCalls calls).Pairwise fun c c' => c.2 = c'.2 ↔ c.1 = c'.1
  /-- The numbers of the literals, each where it first comes, are 0, 1, 2 and so on. -/
  literals_dense : ((literalCalls calls).map (·.2)).eraseDups = List.range t.literals.length
  references_dense : ((nameCalls calls).map (·.2)).eraseDups = List.range t.references.length
  /-- The literals have the numbers that they get without the names. -/
  literals_alone :
    History ((literalCalls calls).map fun c => (.constant c.1, c.2)) { t with names := .empty }
  references_alone :
    History ((nameCalls calls).map fun c => (.name c.1, c.2)) { t with constants := .empty }

theorem mem_literalCalls {v : Value} {id : Nat} :
    (v, id) ∈ literalCalls calls ↔ (.constant v, id) ∈ calls := by
  simp only [literalCalls, List.mem_filterMap, Option.map_eq_some_iff]
  constructor
  · rintro ⟨⟨_ | _, _⟩, hc, _, ⟨⟩, ⟨⟩⟩
    exact hc
  · intro hc
    exact ⟨_, hc, v, rfl, rfl⟩

theorem mem_nameCalls {name : String} {id : Nat} :
    (name, id) ∈ nameCalls calls ↔ (.name name, id) ∈ calls := by
  simp only [nameCalls, List.mem_filterMap, Option.map_eq_some_iff]
  constructor
  · rintro ⟨⟨_ | _, _⟩, hc, _, ⟨⟩, ⟨⟩⟩
    exact hc
  · intro hc
    exact ⟨_, hc, name, rfl, rfl⟩

theorem History.faithful (h : History calls t) : Faithful calls t where
  literal _ _ hc :=
    h.literals.getElem?_eq (fun _ _ => Value.eq_of_sameConstant) (mem_literalCalls.mpr hc)
  reference _ _ hc :=
    h.references.getElem?_eq (fun _ _ hSame => (eq_of_beq hSame).symm) (mem_nameCalls.mpr hc)
  literals_share := by
    refine (h.literals.pairwise_id_eq_iff fun _ _ => Value.eq_of_sameConstant).imp ?_
    intro c c' hShare
    rw [hShare, Value.sameConstant_iff, eq_comm (a := c.1)]
  references_share := by
    refine (h.references.pairwise_id_eq_iff fun _ _ hSame => (eq_of_beq hSame).symm).imp ?_
    intro c c' hShare
    rw [hShare, beq_iff_eq]
  literals_dense := h.literals.eraseDups_eq_range
  references_dense := h.references.eraseDups_eq_range
  literals_alone := h.literals_alone
  references_alone := h.references_alone

/-- The numbers that a new table gives to operands are faithful at every point of its history. An
operand that cannot be added is new to a full table, and leaves the table as it is, with the numbers
at which its symbols are found: the operands around it make the history that they make without
it. -/
theorem numbers_faithful :
    (∀ calls t, History calls t → Faithful calls t) ∧
    (∀ os, History (numbered (empty.addEach os).1) (empty.addEach os).2) ∧
    (∀ (t : SymbolTable) (o : Operand) (e : CompileError),
      (t.add o).1 = .error e ↔ o.number? t = none ∧ numberLimit ≤ t.size o ∧ e = o.tooMany) ∧
    ∀ (t : SymbolTable) (o : Operand) (e : CompileError),
      (t.add o).1 = .error e → (t.add o).2 = t :=
  ⟨fun _ _ h => h.faithful, fun os => History.start.addEach os, fun _ _ _ => add_eq_error,
    fun _ _ _ => eq_of_add_error⟩

/-- Operands of which some are equal as values, and some come twice. -/
def alike : List Operand :=
  [.constant (.int 0), .constant (.float .zero), .constant (.bool false),
    .constant (.float Double.zero.neg), .constant (.list []), .name "x", .constant (.list []),
    .constant (.int 0), .constant (.str "x"), .name "x"]

theorem numbers_faithful_alike :
    (numbered (empty.addEach alike).1).map (·.2) = [0, 1, 2, 3, 4, 0, 5, 0, 6, 0] ∧
      Faithful (numbered (empty.addEach alike).1) (empty.addEach alike).2 :=
  ⟨rfl, numbers_faithful.1 _ _ (numbers_faithful.2.1 alike)⟩

end SymbolTable

end Formula
