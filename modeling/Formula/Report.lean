import Formula.Expression

/-! Reports of errors. A fault in a source is drawn into the source; what is drawn is said here, and
how it looks is up to whatever draws it. Every other error is a line by itself. -/

namespace Formula.Report

/-- The characters that a drawing may use. -/
inductive Charset where
  | unicode | ascii
deriving DecidableEq

/-- How errors are reported. Without a name, the source is the input. -/
structure Config where
  color : Bool
  filename : Option String
  charset : Charset

/-- What a drawing shows: a message at a place in a source, and labels with a text of their own on
ranges of its characters. -/
structure Sketch where
  color : Bool
  charset : Charset
  filename : String
  source : String
  place : Span
  message : String
  labels : List (Span × String)

/-- What draws a sketch. -/
abbrev Drawer := Sketch → List Char

/-- The name that a source goes by where none is given. -/
def defaultFilename : String := "<input>"

/-- What is drawn of a fault: a label on each range of the offending characters, where an offset
past the end of the source becomes the end itself. -/
def sketch (config : Config) (e : SyntaxError) : Sketch :=
  let ranges := e.ranges.map (Span.clamp e.source.length)
  { color := config.color
    charset := config.charset
    filename := config.filename.getD defaultFilename
    source := e.source
    place := ranges.headD ⟨0, 0⟩
    message := e.message
    labels := ranges.map fun r => (r, e.message) }

/-- A line of a report. -/
def line (s : String) : List Char := s.toList ++ ['\n']

/-- The text of the report of an error. -/
def text (draw : Drawer) (config : Config) : Error → List Char
  | .unreadable e => draw (sketch config e)
  | .uncompiled e => line ("Compile error: " ++ e.message)
  | e => line ("Error: " ++ e.message)

end Formula.Report
