import Formula.Text.Letter
import Formula.Text.Casing.Table

/-! Upper and lower case of characters and of texts. Of the first 128 characters, the letters from A
to Z have another case; the tables are for all others. A capital sigma lowers to its final form at
the end of a word; every other character has one lower case wherever it stands. -/

namespace Formula.Text

/-- The other case of the code point `n` by sorted `runs`: itself if it is in none of them. -/
def CaseRun.apply : List CaseRun → Nat → Nat
  | [], n => n
  | r :: rest, n =>
    if n < r.first then n
    else if n ≤ r.last then if (n - r.first) % r.step = 0 then (n + r.shift).toNat else n
    else apply rest n

/-- The other case of `c`: its expansion if it has one, else the single character of `runs`. -/
def mapCase (runs : List (Block CaseRun)) (expansions : List (Block (Nat × List Nat))) (c : Char) :
    List Char :=
  match (entriesFor c.toNat expansions).find? (·.1 == c.toNat) with
  | some (_, several) => several.map Char.ofNat
  | none => [Char.ofNat (CaseRun.apply (entriesFor c.toNat runs) c.toNat)]

def upperOf (c : Char) : List Char :=
  if c.toNat < 128 then [c.toUpper] else mapCase upperBlocks upperExpansions c

/-- The lower case of one character, wherever it stands. -/
def lowerOf (c : Char) : List Char :=
  if c.toNat < 128 then [c.toLower] else mapCase lowerBlocks lowerExpansions c

/-- Whether the first character of `cs` that matters for case has a case. -/
def reachesCased (cs : List Char) : Bool :=
  match cs.dropWhile (inRanges · caseIgnorableRanges) with
  | [] => false
  | c :: _ => inRanges c casedRanges

def upper (cs : List Char) : List Char :=
  (cs.foldl (fun result c => (upperOf c).reverseAux result) []).reverse

/-- The lower case of `c` between `before`, last character first, and `rest`. A capital sigma is
final if a cased character comes before it and none after it. -/
def lowerBetween (before : List Char) (c : Char) (rest : List Char) : List Char :=
  if c = 'Σ' then [if reachesCased before && !reachesCased rest then 'ς' else 'σ'] else lowerOf c

/-- The lower case of a text of which `before` has been read and `result` written, both last
character first. -/
def lowerFrom (before result : List Char) : List Char → List Char
  | [] => result.reverse
  | c :: rest => lowerFrom (c :: before) ((lowerBetween before c rest).reverseAux result) rest

def lower (cs : List Char) : List Char := lowerFrom [] [] cs

/-- `cs` with its first character in upper case and the rest in lower case. -/
def capitalize : List Char → List Char
  | [] => []
  | c :: rest => upperOf c ++ lower rest

/-- The title case of a text of which `result` has been written, last character first, and where
`inWord` says that the character read last is a letter. -/
def titleFrom (inWord : Bool) (result : List Char) : List Char → List Char
  | [] => result.reverse
  | c :: rest =>
    if isAlphabetic c then
      titleFrom true ((if inWord then lowerOf c else upperOf c).reverseAux result) rest
    else titleFrom false (c :: result) rest

/-- `cs` with the first letter of each run of letters in upper case and the others in lower
case. -/
def title (cs : List Char) : List Char := titleFrom false [] cs

end Formula.Text
