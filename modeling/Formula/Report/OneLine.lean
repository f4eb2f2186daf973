import Formula.Report
import Formula.Text.Width

/-! A drawer for sources of one line. Each run of characters that has a label is underlined, and has
an arrow from the middle of the underline to the text of the label. What is drawn below a character
is as wide as the character. -/

namespace Formula.Report.OneLine

/-- The characters that a drawing is made of. -/
structure Pen where
  top : Char
  bottom : Char
  horizontal : Char
  vertical : Char
  underline : Char
  middle : Char
  arrow : Char

def Pen.unicode : Pen := ⟨'╭', '╯', '─', '│', '─', '┬', '╰'⟩

def Pen.ascii : Pen := ⟨',', '\'', '-', '|', '^', '|', '`'⟩

def Pen.ofCharset : Charset → Pen
  | .unicode => .unicode
  | .ascii => .ascii

/-- The position of the character below which the arrow of an underlined range starts. -/
def middle (r : Span) : Nat := (r.start + r.stop) / 2

/-- The position after the last underlined one. -/
def rightmost (ranges : List Span) : Nat := (ranges.map (·.stop)).foldl max 0

/-- What stands below a character: a mark in the first of its columns, and `rest` in the others. -/
structure Cell where
  mark : Char
  rest : Char

def Cell.blank : Cell := ⟨' ', ' '⟩

/-- A cell as it shows below a character that takes `width` columns. -/
def Cell.draw (cell : Cell) : Nat → List Char
  | 0 => []
  | n + 1 => cell.mark :: List.replicate n cell.rest

/-- The columns between the stops of tabs. -/
def tabWidth : Nat := 4

/-- What the character at `position` of the source shows as. A tab reaches to the next stop, where
every character before it counts for one column. -/
def shown (position : Nat) (c : Char) : List Char :=
  if c = '\t' then List.replicate (tabWidth - position % tabWidth) ' '
  else if Text.isBlank c then [' ']
  else [c]

/-- The number of columns that the character at `position` of the source takes. -/
def widthAt (position : Nat) (c : Char) : Nat :=
  if Text.isBlank c then (shown position c).length else Text.width c

/-- What stands below the character at `position`. -/
def underlineAt (pen : Pen) (ranges : List Span) (position : Nat) : Cell :=
  match ranges.find? fun r => middle r == position with
  | some r => if r.isEmpty then ⟨pen.vertical, ' '⟩ else ⟨pen.middle, pen.underline⟩
  | none =>
    if ranges.any fun r => r.start ≤ position && position < r.stop then
      ⟨pen.underline, pen.underline⟩
    else .blank

/-- What stands below the character at `position` between arrows, where those of `ranges` are still
to be drawn. -/
def stemAt (pen : Pen) (ranges : List Span) (position : Nat) : Cell :=
  if ranges.any fun r => middle r == position then ⟨pen.vertical, ' '⟩ else .blank

/-- What stands below the character at `position` in the line of the arrow of `r`. -/
def arrowAt (pen : Pen) (r : Span) (position : Nat) : Cell :=
  if position < middle r then .blank
  else if position = middle r then ⟨pen.arrow, pen.horizontal⟩
  else ⟨pen.horizontal, pen.horizontal⟩

/-- A line of the drawing, to the right of its margin. -/
def row (pen : Pen) (content : List Char) : List Char :=
  [' ', ' ', ' ', pen.vertical, ' '] ++ content

/-- The cells below characters that take the given numbers of columns. -/
def cells (widths : List Nat) (cell : Nat → Cell) : List Char :=
  widths.zipIdx.flatMap fun (width, position) => (cell position).draw width

/-- The lines of the arrows of labels, apart from the first of which each has a line of stems above
it. -/
def arrows (pen : Pen) (widths : List Nat) : List (Span × String) → List (List Char)
  | [] => []
  | (r, message) :: rest =>
    row pen (cells widths (arrowAt pen r) ++ ' ' :: message.toList) ::
      (if rest.isEmpty then []
       else row pen (cells widths (stemAt pen (rest.map (·.1)))) :: arrows pen widths rest)

/-- The source with its underlines and arrows, which end two characters after the last underlined
one. Below the end of the source each character takes one column. -/
def lines (s : Sketch) : List (List Char) :=
  let pen := Pen.ofCharset s.charset
  let source := Text.trimEnd Text.isBlank s.source.toList
  let ranges := s.labels.map (·.1)
  let count := rightmost ranges + 2
  let widths := (source.zipIdx.map fun (c, position) => widthAt position c).take count
  let widths := widths ++ List.replicate (count - widths.length) 1
  let place := s.filename ++ ":1:" ++ toString (s.place.start + 1)
  [[' ', ' ', ' ', pen.top, pen.horizontal, '[', ' '] ++ place.toList ++ [' ', ']'],
    [' ', ' ', ' ', pen.vertical],
    [' ', '1', ' ', pen.vertical, ' '] ++
      source.zipIdx.flatMap fun (c, position) => shown position c,
    row pen (cells widths (underlineAt pen ranges))] ++
  arrows pen widths s.labels ++
  [List.replicate 3 pen.horizontal ++ [pen.bottom]]

/-- Draws sources of one line, in black and white. Of a longer source the message alone is given, as
is that of a sketch without labels. -/
def draw : Drawer := fun s =>
  line ("Error: " ++ s.message) ++
    if s.labels.isEmpty || s.source.contains '\n' then [] else (lines s).flatMap (· ++ ['\n'])

end Formula.Report.OneLine
