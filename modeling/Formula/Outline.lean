import Formula.Text.Visible

/-! Trees written over several lines, each level indented by four spaces. -/

namespace Formula

/-- A tree of named parts. -/
inductive Outline where
  /-- A word or a number. -/
  | word (text : List Char)
  /-- A name with named parts. -/
  | named (name : String) (parts : List (String × Outline))
  /-- A name with one part. -/
  | applied (name : String) (part : Outline)
  | list (items : List Outline)

namespace Outline

/-- A text between double quotes. -/
def quoted (s : String) : Outline := .word (Text.visible s.toList)

/-- A line that belongs to the next level. -/
def indent (line : List Char) : List Char := [' ', ' ', ' ', ' '] ++ line

/-- The lines of a part: its name goes in front of the first one, and a comma behind the last
one. -/
def entry (name : List Char) : List (List Char) → List (List Char)
  | [] => []
  | [line] => [name ++ line ++ [',']]
  | line :: lines => (name ++ line) :: close lines
where
  /-- The lines with a comma behind the last one. -/
  close : List (List Char) → List (List Char)
    | [] => []
    | [line] => [line ++ [',']]
    | line :: lines => line :: close lines

mutual

def lines : Outline → List (List Char)
  | word text => [text]
  | named name parts =>
    (name.toList ++ [' ', '\x7b']) :: (partLines parts).map indent ++ [['\x7d']]
  | applied name part =>
    (name.toList ++ ['(']) :: (entry [] (lines part)).map indent ++ [[')']]
  | list [] => [['[', ']']]
  | list (item :: items) =>
    ['['] :: (entry [] (lines item) ++ itemLines items).map indent ++ [[']']]

def partLines : List (String × Outline) → List (List Char)
  | [] => []
  | (name, part) :: parts => entry (name.toList ++ [':', ' ']) (lines part) ++ partLines parts

def itemLines : List Outline → List (List Char)
  | [] => []
  | item :: items => entry [] (lines item) ++ itemLines items

end

end Outline

end Formula
