import Formula.Double.Rounding
import Formula.Value

/-! Equality of values. Numbers of all types are equal by magnitude, containers by their items,
and what comes from the host is equal to itself alone. Dicts are equal if they have the same number
of entries and each entry of the left one is, whatever its place, the first with an equal key in
the right one and has an equal value there. -/

namespace Formula

/-- A value that arithmetic takes as a number. -/
inductive Number where
  | int (n : Int)
  | float (x : Double)

namespace Number

def toDouble : Number → Double
  | int n => .ofInt n
  | float x => x

/-- Whole numbers are equal as such, and others as binary64 numbers. -/
def equals : Number → Number → Bool
  | int m, int n => m == n
  | x, y => x.toDouble.equals y.toDouble

/-- How two numbers compare, unless one of them is no number. -/
def order? : Number → Number → Option Ordering
  | int m, int n => some (compare m n)
  | x, y => x.toDouble.order? y.toDouble

end Number

namespace Value

/-- The number that a value is in arithmetic: a truth value counts as zero or one. -/
def number? : Value → Option Number
  | bool b => some (.int (if b then 1 else 0))
  | int n => some (.int n)
  | float x => some (.float x)
  | _ => Option.none

mutual

def equals : Value → Value → Bool
  | none, none => true
  | str s, str t => s == t
  | list xs, list ys => equalItems xs ys
  | dict xs, dict ys => xs.length == ys.length && entriesIn xs ys
  | function f, function g => f.same g
  | method r m, method r' m' => m = m' && equals r r'
  | object o, object p => o.id == p.id
  | a, b =>
    match number? a, number? b with
    | some x, some y => x.equals y
    | _, _ => false
termination_by a b => sizeOf a + sizeOf b

/-- Whether two lists have the same length and equal items at each place. -/
def equalItems : List Value → List Value → Bool
  | [], [] => true
  | x :: xs, y :: ys => equals x y && equalItems xs ys
  | _, _ => false
termination_by xs ys => sizeOf xs + sizeOf ys

/-- Whether each of the first entries is found in the second ones. -/
def entriesIn : List (Value × Value) → List (Value × Value) → Bool
  | [], _ => true
  | (k, v) :: es, others => entryIn k v others && entriesIn es others
termination_by es others => sizeOf es + sizeOf others

/-- Whether the first entry with a key equal to `k` has a value equal to `v`. -/
def entryIn (k v : Value) : List (Value × Value) → Bool
  | [] => false
  | (k', v') :: es => if equals k' k then equals v' v else entryIn k v es
termination_by es => sizeOf k + sizeOf v + sizeOf es

end

/-- The value at the first key of `entries` that equals `key`. -/
def lookup? (key : Value) (entries : List (Value × Value)) : Option Value :=
  (entries.find? fun e => equals e.1 key).map (·.2)

/-- `entries` with `value` at `key`: in place of the value at the first key that equals it, or at
the end. -/
def insertEntry (key value : Value) : List (Value × Value) → List (Value × Value)
  | [] => [(key, value)]
  | (k, v) :: es =>
    if equals k key then (k, value) :: es else (k, v) :: insertEntry key value es

/-- The dict of `pairs`. A key that is equal to an earlier one keeps that one's place, and gives it
its value. -/
def ofPairs (pairs : List (Value × Value)) : Value :=
  .dict (pairs.foldl (fun entries (k, v) => insertEntry k v entries) [])

end Value

end Formula
