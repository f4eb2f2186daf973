import Formula.Span
import Formula.Text.Quoted

/-! Reports of what is wrong in a source, and at which of its characters. A report shows the
source between quotes, with a caret below each of these characters. -/

namespace Formula

/-- A message about the characters of `source` at `offsets`, which are increasing. An offset past
the last character points behind the source. -/
structure SyntaxError where
  message : String
  source : String
  offsets : List Nat
deriving DecidableEq

namespace SyntaxError

/-- A message about the characters of `source` at `offsets`, in any order and with repeats. -/
def about (message source : String) (offsets : List Nat) : SyntaxError :=
  ⟨message, source, offsets.mergeSort.eraseReps⟩

/-- The runs of consecutive numbers in an increasing list. -/
def runs : List Nat → List Span
  | [] => []
  | offset :: rest =>
    match runs rest with
    | [] => [⟨offset, offset + 1⟩]
    | next :: others =>
      if next.start = offset + 1 then ⟨offset, next.stop⟩ :: others
      else ⟨offset, offset + 1⟩ :: next :: others

/-- The runs of consecutive offsets. -/
def ranges (e : SyntaxError) : List Span := runs e.offsets

/-- The columns at which the characters of a source and its closing quote start in its quoted form,
where the first of them starts at `column`. -/
def columns (quote : Char) (column : Nat) : List Char → List Nat
  | [] => [column]
  | c :: rest => column :: columns quote (column + (Text.escaped quote c).length) rest

/-- The column of character `offset` of a source of the given columns. Past the end, columns go on
from that of the closing quote. -/
def columnAt (columns : Array Nat) (offset : Nat) : Nat :=
  match columns[offset]? with
  | some column => column
  | none => columns.back?.getD 0 + (offset + 1 - columns.size)

/-- A line with a caret in each of the increasing `columns`, where `width` columns are already
written. -/
def carets (width : Nat) : List Nat → List Char
  | [] => []
  | column :: rest =>
    if column < width then carets width rest
    else List.replicate (column - width) ' ' ++ '^' :: carets (column + 1) rest

/-- What stands in front of the source and of the carets. -/
def indentation : List Char := ['\n', ' ', ' ', ' ', ' ']

/-- The message, the quoted source and the carets, one line each. -/
def text (e : SyntaxError) : List Char :=
  let source := e.source.toList
  e.message.toList ++ indentation ++ Text.quoted source ++ indentation ++
    carets 0 (e.offsets.map (columnAt (columns (Text.quoteFor source) 1 source).toArray))

end SyntaxError

end Formula
