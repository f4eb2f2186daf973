/-! Sets of characters, written as sorted ranges of code points that do not touch, and large tables
of code points, cut into blocks so that little of them is read for one code point. -/

namespace Formula.Text

/-- Whether the code point of `c` lies in one of the sorted `ranges`, each given by its first and
last code point. -/
def inRanges (c : Char) : List (Nat × Nat) → Bool
  | [] => false
  | (first, last) :: rest => first ≤ c.toNat && (c.toNat ≤ last || inRanges c rest)

/-- The entries of a table for the code points up to `last`, from the `last` of the block before it
on. -/
structure Block (α : Type) where
  last : Nat
  entries : List α

/-- The entries of the block for the code point `n`. -/
def entriesFor {α : Type} (n : Nat) : List (Block α) → List α
  | [] => []
  | b :: rest => if n ≤ b.last then b.entries else entriesFor n rest

end Formula.Text
