import Formula.Code.SymbolTable

/-! The operands of code and their numbers. A symbol is found through the number of its key, and
that is the place of the first symbol with this key, so for a table it makes no difference whether
its numbers or its symbols are searched. The literals and the names of a table are numbered alike,
and neither is touched by what is added to the other. -/

namespace Formula

/-! ### Interning -/

namespace Interner

variable {α κ : Type} [DecidableEq κ] {key? : α → Option κ} {t t' : Interner key?} {a : α}
  {id : Nat}

theorem id?_eq (t : Interner key?) (a : α) :
    t.id? a = (key? a).bind fun key => t.symbols.findIdx? fun b => key? b = some key := by
  simp only [id?, t.lookup_ids]

theorem add_eq_some :
    t.add a = (some id, t') ↔
      (t.id? a = some id ∧ t' = t) ∨
      ∃ hNew : t.id? a = none, t.symbols.length < numberLimit ∧ id = t.symbols.length ∧
        t' = t.push a hNew := by
  unfold add
  split
  case h_1 id' hFound => simp [hFound, eq_comm]
  case h_2 hNew =>
    split
    case isTrue hRoom => simp [hNew, hRoom, eq_comm]
    case isFalse hFull => simp [hNew, hFull]

/-- There is no number for a new symbol if all are taken, and then nothing is changed. -/
theorem add_eq_none :
    t.add a = (none, t') ↔ t.id? a = none ∧ numberLimit ≤ t.symbols.length ∧ t' = t := by
  unfold add
  split
  case h_1 id' hFound => simp [hFound]
  case h_2 hNew =>
    split
    case isTrue hRoom => simp [Nat.not_le.mpr hRoom]
    case isFalse hFull => simp [hNew, Nat.le_of_not_lt hFull, eq_comm]

end Interner

/-! ### Constants -/

/-- Whether two values are the same constant: of the same type and, for binary64 numbers, with the
same bits. Values of other types are never the same constant. -/
def Value.sameConstant : Value → Value → Bool
  | none, none => true
  | bool b, bool c => b = c
  | int m, int n => m = n
  | float x, float y => x = y
  | str s, str t => s = t
  | _, _ => false

theorem Value.eq_of_sameConstant {v w : Value} (h : v.sameConstant w) : v = w := by
  cases v <;> cases w <;> simp_all [Value.sameConstant]

/-- The values that share a number with the values identical to them. -/
def Value.isAtom : Value → Bool
  | none | bool _ | int _ | float _ | str _ => true
  | list _ | dict _ | function _ | method _ _ | object _ => false

theorem Value.sameConstant_iff {v w : Value} : v.sameConstant w ↔ v.isAtom ∧ v = w := by
  constructor
  · intro h
    obtain rfl := Value.eq_of_sameConstant h
    cases v <;> simp_all [Value.sameConstant, Value.isAtom]
  · rintro ⟨h, rfl⟩
    cases v <;> simp_all [Value.sameConstant, Value.isAtom]

/-- A value has the key of `v` exactly if it is the same constant as `v`. -/
theorem LiteralKey.of?_eq_iff {v w : Value} {key : LiteralKey} (hKey : of? v = some key) :
    of? w = some key ↔ v.sameConstant w := by
  rw [← hKey]
  cases v with
  | float x =>
    cases w with
    | float y =>
      obtain ⟨negative, code, _⟩ := x
      obtain ⟨negative', code', _⟩ := y
      simp [of?, Value.sameConstant, eq_comm (a := negative'), eq_comm (a := code')]
    | _ => simp [of?, Value.sameConstant]
  | none | bool | int | str => cases w <;> simp [of?, Value.sameConstant, eq_comm]
  | list | dict | function | method | object => cases hKey

theorem LiteralKey.not_sameConstant {v : Value} (hKey : of? v = Option.none) (w : Value) :
    v.sameConstant w = false := by
  cases v with
  | none | bool | int | float | str => cases hKey
  | list | dict | function | method | object => rfl

/-! ### Operands -/

/-- What an expression loads: a constant that it holds, or a name that it looks up. -/
inductive Operand where
  | constant (v : Value)
  | name (s : String)

namespace Operand

def constant? : Operand → Option Value
  | constant v => some v
  | name _ => Option.none

def name? : Operand → Option String
  | constant _ => none
  | name s => some s

/-- The number of an operand in a table. -/
def number? (t : SymbolTable) : Operand → Option Nat
  | .constant v => t.literals.findIdx? v.sameConstant
  | .name s => t.references.findIdx? (· == s)

/-- Whether an operand is found again once it is added. -/
def isAtom : Operand → Bool
  | constant v => v.isAtom
  | name _ => true

/-- The error where a table cannot take an operand. -/
def tooMany : Operand → CompileError
  | constant _ => .tooManyLiterals
  | name _ => .tooManyReferences

end Operand

namespace SymbolTable

variable {t t' : SymbolTable} {o : Operand} {id : Nat} {e : CompileError}

def size (t : SymbolTable) : Operand → Nat
  | .constant _ => t.literals.length
  | .name _ => t.references.length

/-- The number of an operand, and the table after it is asked for. -/
def add (t : SymbolTable) : Operand → Except CompileError Nat × SymbolTable
  | .constant v => t.addLiteral v
  | .name s => t.addReference s

theorem id?_constants (t : SymbolTable) (v : Value) :
    t.constants.id? v = (Operand.constant v).number? t := by
  rw [Interner.id?_eq, Operand.number?]
  cases hKey : LiteralKey.of? v with
  | none =>
    refine (List.findIdx?_eq_none_iff.mpr fun w _ => ?_).symm
    exact LiteralKey.not_sameConstant hKey w
  | some key =>
    show t.literals.findIdx? (fun w => LiteralKey.of? w = some key) = _
    congr 1
    funext w
    rw [Bool.eq_iff_iff, decide_eq_true_iff]
    exact LiteralKey.of?_eq_iff hKey

theorem id?_names (t : SymbolTable) (s : String) : t.names.id? s = (Operand.name s).number? t := by
  rw [Interner.id?_eq, Operand.number?]
  show t.references.findIdx? (fun name => some name = some s) = _
  congr 1
  funext name
  rw [Bool.eq_iff_iff, decide_eq_true_iff, Option.some_inj, beq_iff_eq]

/-- What comes of adding a literal does not depend on the names. -/
theorem add_constant_eq {answer : Except CompileError Nat} {v : Value}
    (h : t.add (.constant v) = (answer, t')) (names : Interner (some : String → Option String)) :
    ({ t with names } : SymbolTable).add (.constant v) = (answer, { t' with names }) := by
  show ((t.add (.constant v)).1, ({ (t.add (.constant v)).2 with names } : SymbolTable)) = _
  rw [h]

theorem add_name_eq {answer : Except CompileError Nat} {s : String}
    (h : t.add (.name s) = (answer, t')) (constants : Interner LiteralKey.of?) :
    ({ t with constants } : SymbolTable).add (.name s) = (answer, { t' with constants }) := by
  show ((t.add (.name s)).1, ({ (t.add (.name s)).2 with constants } : SymbolTable)) = _
  rw [h]

theorem names_of_add_constant {answer : Except CompileError Nat} {v : Value}
    (h : t.add (.constant v) = (answer, t')) : t'.names = t.names :=
  (congrArg (fun p => p.2.names) h).symm

theorem constants_of_add_name {answer : Except CompileError Nat} {s : String}
    (h : t.add (.name s) = (answer, t')) : t'.constants = t.constants :=
  (congrArg (fun p => p.2.constants) h).symm

/-- What comes of adding an operand to a table. One that is found keeps its number, and a new one
gets the next number as long as there is one. -/
inductive Added (t : SymbolTable) (o : Operand) : Except CompileError Nat → SymbolTable → Prop
  | found {id : Nat} (h : o.number? t = some id) : Added t o (.ok id) t
  | new {t' : SymbolTable} (h : o.number? t = none) (room : t.size o < numberLimit)
      (literals : t'.literals = t.literals ++ o.constant?.toList)
      (references : t'.references = t.references ++ o.name?.toList) : Added t o (.ok (t.size o)) t'
  | full (h : o.number? t = none) (hFull : numberLimit ≤ t.size o) : Added t o (.error o.tooMany) t

theorem added_addLiteral (t : SymbolTable) (v : Value) :
    Added t (.constant v) (t.addLiteral v).1 (t.addLiteral v).2 := by
  have hNumber := id?_constants t v
  unfold addLiteral
  rcases hAdd : t.constants.add v with ⟨_ | id, constants⟩
  · obtain ⟨hNew, hFull, rfl⟩ := Interner.add_eq_none.mp hAdd
    exact .full (hNumber ▸ hNew) hFull
  · rcases Interner.add_eq_some.mp hAdd with ⟨hFound, rfl⟩ | ⟨hNew, hRoom, rfl, rfl⟩
    · exact .found (hNumber ▸ hFound)
    · exact .new (hNumber ▸ hNew) hRoom rfl (List.append_nil _).symm

theorem added_addReference (t : SymbolTable) (s : String) :
    Added t (.name s) (t.addReference s).1 (t.addReference s).2 := by
  have hNumber := id?_names t s
  unfold addReference
  rcases hAdd : t.names.add s with ⟨_ | id, names⟩
  · obtain ⟨hNew, hFull, rfl⟩ := Interner.add_eq_none.mp hAdd
    exact .full (hNumber ▸ hNew) hFull
  · rcases Interner.add_eq_some.mp hAdd with ⟨hFound, rfl⟩ | ⟨hNew, hRoom, rfl, rfl⟩
    · exact .found (hNumber ▸ hFound)
    · exact .new (hNumber ▸ hNew) hRoom (List.append_nil _).symm rfl

theorem added (t : SymbolTable) (o : Operand) : Added t o (t.add o).1 (t.add o).2 := by
  cases o with
  | constant v => exact added_addLiteral t v
  | name s => exact added_addReference t s

theorem added_of_eq {answer : Except CompileError Nat} (h : t.add o = (answer, t')) :
    Added t o answer t' := by
  simpa only [h] using added t o

/-- An operand cannot be added exactly if it is new and the table has as many symbols of its kind
as there are numbers. -/
theorem add_eq_error :
    (t.add o).1 = .error e ↔ o.number? t = none ∧ numberLimit ≤ t.size o ∧ e = o.tooMany := by
  rcases hAdd : t.add o with ⟨answer, t'⟩
  cases added_of_eq hAdd with
  | found hFound => simp [hFound]
  | new hNew hRoom => simp [Nat.not_le.mpr hRoom]
  | full hNew hFull => simp [hNew, hFull, eq_comm]

/-- An operand that cannot be added leaves the table as it is. -/
theorem eq_of_add_error (h : (t.add o).1 = .error e) : (t.add o).2 = t := by
  rcases hAdd : t.add o with ⟨answer, t'⟩
  rw [hAdd] at h
  cases added_of_eq hAdd with
  | found | new => cases h
  | full => rfl

/-- What is found again has its number from the time when it is added. -/
theorem Added.number?_eq (h : Added t o (.ok id) t') (ho : o.isAtom) : o.number? t' = some id := by
  cases h with
  | found hFound => exact hFound
  | new hNew _ literals references =>
    cases o with
    | constant v =>
      have hSame : v.sameConstant v := Value.sameConstant_iff.mpr ⟨ho, rfl⟩
      simp only [Operand.number?] at hNew
      simp [Operand.number?, Operand.constant?, literals, List.findIdx?_append, hNew, hSame, size]
    | name s =>
      simp only [Operand.number?] at hNew
      simp [Operand.number?, Operand.name?, references, List.findIdx?_append, hNew, size]

/-- What is found, or has room, is added. -/
theorem exists_add (h : o.number? t = none → t.size o < numberLimit) :
    ∃ id t', t.add o = (.ok id, t') := by
  cases hAnswer : (t.add o).1 with
  | ok id => exact ⟨id, (t.add o).2, by rw [← hAnswer]⟩
  | error e =>
    obtain ⟨hNew, hFull, -⟩ := add_eq_error.mp hAnswer
    exact absurd (h hNew) (Nat.not_lt.mpr hFull)

end SymbolTable

end Formula
