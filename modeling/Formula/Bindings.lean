import Formula.Host
import Formula.Text.Order

/-! Names bound to values. Bindings are sorted by name, so that a name is found by halving the
range in which it can be. -/

namespace Formula

/-- Names with their values, in increasing order of the names. -/
structure Bindings where
  entries : Array (String × Value)

namespace Bindings

/-- Sorted `entries` with `name` bound to `v`, in place of its former value if it has one. -/
def insert (name : String) (v : Value) : List (String × Value) → List (String × Value)
  | [] => [(name, v)]
  | (n, w) :: es =>
    match Text.order name.toList n.toList with
    | .lt => (name, v) :: (n, w) :: es
    | .eq => (name, v) :: es
    | .gt => (n, w) :: insert name v es

/-- The bindings of `pairs`. The last value of a name counts. -/
def ofList (pairs : List (String × Value)) : Bindings :=
  ⟨(pairs.foldl (fun es (name, v) => insert name v es) []).toArray⟩

def empty : Bindings := ⟨#[]⟩

/-- The index of `name` among the entries from `low` up to `high`. -/
def search (entries : Array (String × Value)) (name : List Char) (low high : Nat) : Option Nat :=
  if low < high then
    let middle := (low + high) / 2
    match entries[middle]? with
    | none => none
    | some (n, _) =>
      match Text.order n.toList name with
      | .eq => some middle
      | .lt => search entries name (middle + 1) high
      | .gt => search entries name low middle
  else none
termination_by high - low
decreasing_by all_goals omega

def position? (b : Bindings) (name : String) : Option Nat :=
  search b.entries name.toList 0 b.entries.size

def find? (b : Bindings) (name : String) : Option Value :=
  (b.position? name).bind fun i => b.entries[i]?.map (·.2)

def contains (b : Bindings) (name : String) : Bool := (b.position? name).isSome

def size (b : Bindings) : Nat := b.entries.size

def isEmpty (b : Bindings) : Bool := b.entries.isEmpty

def toList (b : Bindings) : List (String × Value) := b.entries.toList

def environment {σ : Type} (b : Bindings) : Environment σ := fun name => pure (b.find? name)

/-- The names that every expression knows: `None` and the conversions. -/
def prelude : Bindings :=
  .ofList (("None", .none) ::
    [Conversion.bool, .float, .int, .str].map fun c => (c.name, .function (.conversion c)))

/-- Bindings that are being collected, where a name may be bound only once, and the names that
were bound again. -/
structure Builder where
  entries : List (String × Value)
  repeated : List String

namespace Builder

def empty : Builder := ⟨[], []⟩

/-- Binds `name`, or notes that it is bound already. -/
def bind (b : Builder) (name : String) (v : Value) : Builder :=
  if b.entries.any (·.1 == name) then { b with repeated := b.repeated ++ [name] }
  else { b with entries := insert name v b.entries }

/-- The bindings, or the names that were bound again. -/
def build (b : Builder) : Except (List String) Bindings :=
  if b.repeated.isEmpty then .ok ⟨b.entries.toArray⟩ else .error b.repeated

end Builder

end Bindings

end Formula
