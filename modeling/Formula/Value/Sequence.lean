import Formula.Complaint
import Formula.Value.Equality

/-! Items and slices of text and of lists, and items of dicts. Negative positions count from the
end. -/

namespace Formula.Value

/-- The whole number that a value is as a position. -/
def position? : Value → Option Int
  | bool b => some (if b then 1 else 0)
  | int n => some n
  | _ => Option.none

/-- The position in a sequence of `length` items that `index` means, if there is one. -/
def resolve? (length : Nat) (index : Int) : Option Nat :=
  let i := if index < 0 then index + length else index
  if 0 ≤ i ∧ i < length then some i.toNat else Option.none

/-- The item of `items` at the position that `key` gives, where `target` is the value they
make up. -/
def itemAt {α : Type} (target key : Value) (items : List α) : Except Complaint α :=
  match position? key with
  | Option.none => .error (.invalidIndex target key)
  | some index =>
    match (resolve? items.length index).bind (items[·]?) with
    | some item => .ok item
    | Option.none => .error (.indexOutOfBounds target index items.length)

/-- The item of a value that is no object of the host. -/
def item (target key : Value) : Except Complaint Value :=
  match target with
  | str s => (itemAt target key s.toList).map fun c => text [c]
  | list items => itemAt target key items
  | dict entries =>
    match lookup? key entries with
    | some v => .ok v
    | Option.none => .error (.keyNotFound key)
  | _ => .error (.notSubscriptable target)

/-- The number of terms of `first`, `first + step`, … that come before `stop`. -/
def stepCount (first stop step : Int) : Nat :=
  if 0 < step then ((stop - first + step - 1) / step).toNat
  else ((first - stop - step - 1) / -step).toNat

/-- A bound of a slice, moved between `lower` and `upper`. -/
def clampBound (length lower upper : Int) (bound : Int) : Int :=
  if bound < 0 then max (bound + length) lower else min bound upper

/-- The positions of `[start:stop:step]` in a sequence of `length` items. A bound that is left out
is the end that the step goes away from or towards. -/
def slicePositions (length : Nat) (start stop : Option Int) (step : Int) : List Nat :=
  let lower : Int := if step < 0 then -1 else 0
  let upper : Int := if step < 0 then length - 1 else length
  let clamp := clampBound length lower upper
  let first := (start.map clamp).getD (if step < 0 then upper else lower)
  let last := (stop.map clamp).getD (if step < 0 then lower else upper)
  (List.range (stepCount first last step)).map fun (i : Nat) => (first + step * i).toNat

def sliceItems {α : Type} (items : List α) (start stop : Option Int) (step : Int) : List α :=
  let array := items.toArray
  (slicePositions items.length start stop step).filterMap (array[·]?)

/-- The position that a bound of a slice gives, if it is not left out. -/
def sliceBound (bound : Value) : Except Complaint (Option Int) :=
  match bound with
  | none => .ok Option.none
  | v =>
    match position? v with
    | some i => .ok (some i)
    | Option.none => .error (.invalidSliceIndex v)

/-- The slice of a value that is no object of the host. The bounds are checked before the value
is. -/
def slice (target start stop step : Value) : Except Complaint Value := do
  let start ← sliceBound start
  let stop ← sliceBound stop
  let step := (← sliceBound step).getD 1
  if step = 0 then .error .zeroSliceStep
  else
    match target with
    | str s => .ok (text (sliceItems s.toList start stop step))
    | list items => .ok (.list (sliceItems items start stop step))
    | v => .error (.notSubscriptable v)

end Formula.Value
