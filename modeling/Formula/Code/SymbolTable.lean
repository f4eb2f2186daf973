import Formula.Value

/-! The literals and names of compiled code. Both are interned alike: each is numbered in the order
in which it first comes, and is found again by its key, if it has one. -/

namespace Formula

/-- Why an expression cannot be compiled: numbers in code have 32 bits. -/
inductive CompileError where
  | tooManyLiterals | tooManyReferences | tooManyArguments | jumpTooFar
deriving DecidableEq

def CompileError.message : CompileError → String
  | tooManyLiterals => "too many distinct literals in one expression"
  | tooManyReferences => "too many distinct names in one expression"
  | tooManyArguments => "too many call arguments"
  | jumpTooFar => "jump offset too large"

/-- The number of numbers of 32 bits. -/
def numberLimit : Nat := 4294967296

/-! ### Interning -/

/-- Symbols, of which each has its place as its number, and the numbers at which keys are found. -/
structure Interner {α κ : Type} [DecidableEq κ] (key? : α → Option κ) where
  symbols : List α
  ids : List (κ × Nat)
  /-- A key is found at the first symbol that has it. -/
  lookup_ids : ∀ key, ids.lookup key = symbols.findIdx? fun a => key? a = some key

namespace Interner

variable {α κ : Type} [DecidableEq κ] {key? : α → Option κ}

def empty : Interner key? := ⟨[], [], fun _ => rfl⟩

/-- The number at which a symbol is found. One without a key is not found. -/
def id? (t : Interner key?) (a : α) : Option Nat := (key? a).bind fun key => t.ids.lookup key

/-- The symbols with a new one behind them, and its key at its number. -/
def push (t : Interner key?) (a : α) (hNew : t.id? a = none) : Interner key? where
  symbols := t.symbols ++ [a]
  ids := match key? a with
    | some key => (key, t.symbols.length) :: t.ids
    | none => t.ids
  lookup_ids key := by
    rw [List.findIdx?_append, ← t.lookup_ids]
    cases hKey : key? a with
    | none => simp [hKey]
    | some key' =>
      by_cases hSame : key' = key
      · subst hSame
        have hMissing : t.ids.lookup key' = none := by simpa [id?, hKey] using hNew
        simp [hKey, hMissing]
      · have hOther : (key == key') = false := beq_eq_false_iff_ne.mpr (Ne.symm hSame)
        simp [hKey, hSame, List.lookup_cons, hOther]

/-- The number of a symbol, and the symbols with it. One that is found keeps its number. There is no
number for a new one if all numbers are taken. -/
def add (t : Interner key?) (a : α) : Option Nat × Interner key? :=
  match hFound : t.id? a with
  | some id => (some id, t)
  | none =>
    if t.symbols.length < numberLimit then (some t.symbols.length, t.push a hFound)
    else (none, t)

end Interner

/-! ### Tables -/

/-- What a literal is found by. Values of different types have different keys, and so have binary64
numbers with different bits. -/
inductive LiteralKey where
  | none
  | bool (b : Bool)
  | int (n : Int)
  | float (negative : Bool) (code : Nat)
  | str (s : String)
deriving DecidableEq

/-- The key of a value. Containers, functions, methods and objects have none. -/
def LiteralKey.of? : Value → Option LiteralKey
  | .none => some none
  | .bool b => some (bool b)
  | .int n => some (int n)
  | .float x => some (float x.negative x.code)
  | .str s => some (str s)
  | _ => Option.none

/-- The literals and the names that code refers to by number. -/
structure SymbolTable where
  constants : Interner LiteralKey.of?
  names : Interner (some : String → Option String)

namespace SymbolTable

def empty : SymbolTable := ⟨.empty, .empty⟩

def literals (t : SymbolTable) : List Value := t.constants.symbols

def references (t : SymbolTable) : List String := t.names.symbols

/-- The number of a literal, and the table after it is asked for. -/
def addLiteral (t : SymbolTable) (v : Value) : Except CompileError Nat × SymbolTable :=
  let (id?, constants) := t.constants.add v
  (id?.elim (.error .tooManyLiterals) .ok, { t with constants })

/-- The number of a name, and the table after it is asked for. -/
def addReference (t : SymbolTable) (name : String) : Except CompileError Nat × SymbolTable :=
  let (id?, names) := t.names.add name
  (id?.elim (.error .tooManyReferences) .ok, { t with names })

def literal? (t : SymbolTable) (id : Nat) : Option Value := t.literals[id]?

def reference? (t : SymbolTable) (id : Nat) : Option String := t.references[id]?

end SymbolTable

end Formula
