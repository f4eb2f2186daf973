/-! Text between quotes. The quote is single, unless the text holds a single quote and no double
one. A backslash escapes itself, the quote, and the letters that stand for a line feed, a carriage
return and a tab. -/

namespace Formula.Text

/-- The quote that `cs` is written between. -/
def quoteFor (cs : List Char) : Char :=
  if cs.contains '\'' && !cs.contains '"' then '"' else '\''

/-- `c` as it is written between two of `quote`. -/
def escaped (quote c : Char) : List Char :=
  if c = '\\' then ['\\', '\\']
  else if c = '\n' then ['\\', 'n']
  else if c = '\r' then ['\\', 'r']
  else if c = '\t' then ['\\', 't']
  else if c = quote then ['\\', c]
  else [c]

/-- `cs` between two of `quote`. -/
def quotedWith (quote : Char) (cs : List Char) : List Char :=
  quote :: cs.flatMap (escaped quote) ++ [quote]

/-- `cs` between the quotes that suit it. -/
def quoted (cs : List Char) : List Char := quotedWith (quoteFor cs) cs

end Formula.Text
