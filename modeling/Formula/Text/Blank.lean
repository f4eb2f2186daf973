import Formula.Text.Ranges

/-! White space: the 25 characters of the Unicode property `White_Space`, and text without it at
its ends. -/

namespace Formula.Text

/-- The characters of the Unicode property `White_Space`. -/
def blankRanges : List (Nat × Nat) :=
  [(9, 13), (32, 32), (133, 133), (160, 160), (5760, 5760), (8192, 8202), (8232, 8233),
   (8239, 8239), (8287, 8287), (12288, 12288)]

def isBlank (c : Char) : Bool := inRanges c blankRanges

/-- `cs` without the characters at its start that satisfy `p`. -/
def trimStart (p : Char → Bool) (cs : List Char) : List Char := cs.dropWhile p

/-- `cs` without the characters at its end that satisfy `p`. -/
def trimEnd (p : Char → Bool) (cs : List Char) : List Char := (cs.reverse.dropWhile p).reverse

/-- `cs` without the characters at either end that satisfy `p`. -/
def trim (p : Char → Bool) (cs : List Char) : List Char := trimEnd p (trimStart p cs)

end Formula.Text
