import Formula.Token
import Formula.Decimal.Numeral
import Formula.SyntaxError
import Formula.Text.Blank
import Formula.Text.Letter

/-! From characters to tokens. Between white space, a source is cut from the left into names,
numbers, quoted text and symbols, each as long as it can be. -/

namespace Formula.Lexer

/-- Why a source has no tokens. -/
inductive Fault where
  /-- The quoted text that starts at `start` does not end. -/
  | unterminated (start : Nat)
  /-- The whole number at `span` has more than 64 bits. -/
  | tooLarge (span : Span)
  /-- The characters at `offsets` start no token. -/
  | unknown (offsets : List Nat)
deriving DecidableEq

namespace Fault

def message : Fault → String
  | unterminated _ => "Unexpected EOF while parsing"
  | tooLarge _ => "Integer literal is too large"
  | unknown _ => "Unexpected tokens encountered during lexing"

def offsets : Fault → List Nat
  | unterminated start => [start]
  | tooLarge span => span.offsets
  | unknown offsets => offsets

/-- The report of a fault in `source`. -/
def toSyntaxError (source : String) (f : Fault) : SyntaxError :=
  .about f.message source f.offsets

end Fault

/-- What stands at the start of a source that does not start with white space. The number is that
of the characters after the first one. -/
inductive Lexeme where
  | token (kind : Token.Kind) (more : Nat)
  | tooLarge (more : Nat)
  | unterminated
  | unknown

/-- The text up to the next `quote`, and the number of characters up to and with that quote. A
backslash in front of the quote makes it part of the text; every other backslash stands for
itself. -/
def quotedText (quote : Char) : List Char → Option (List Char × Nat)
  | [] => none
  | c :: rest =>
    if c = quote then some ([], 1)
    else
      match rest with
      | [] => none
      | d :: rest' =>
        if c = '\\' ∧ d = quote then
          (quotedText quote rest').map fun (text, n) => (quote :: text, n + 2)
        else (quotedText quote (d :: rest')).map fun (text, n) => (c :: text, n + 1)

/-- A number: digits, and a point with or without digits after it. Without a point it is a whole
number of 64 bits. -/
def number (c : Char) (rest : List Char) : Lexeme :=
  let whole := rest.takeWhile Char.isDigit
  match rest.dropWhile Char.isDigit with
  | '.' :: rest =>
    let fraction := rest.takeWhile Char.isDigit
    let d := Decimal.ofDigits (c :: whole) fraction 0
    .token (.float (d.toDouble false)) (whole.length + 1 + fraction.length)
  | _ =>
    let n := Numeral.readUpTo Numeral.tooLarge (c :: whole)
    if Numeral.fits n then .token (.int n) whole.length else .tooLarge whole.length

/-- The longest symbol at the start of `cs`. -/
def symbol? (cs : List Char) : Option Symbol :=
  Symbol.all.find? fun s => s.text.toList.isPrefixOf cs

/-- What stands at the start of `c :: rest`. -/
def lexeme (c : Char) (rest : List Char) : Lexeme :=
  if Text.startsName c then
    let more := rest.takeWhile Text.continuesName
    .token (.name (String.ofList (c :: more))) more.length
  else if c = '\'' ∨ c = '"' then
    match quotedText c rest with
    | some (text, more) => .token (.str (String.ofList text)) more
    | none => .unterminated
  else if c.isDigit then number c rest
  else
    match symbol? (c :: rest) with
    | some s => .token (.symbol s) (s.text.length - 1)
    | none => .unknown

/-- The tokens of a text whose first character is character `start` of the source, and the offsets
of the characters that start none. -/
def scan (start : Nat) : List Char → Except Fault (List Token × List Nat)
  | [] => .ok ([], [])
  | c :: rest =>
    if Text.isBlank c then scan (start + 1) rest
    else
      match lexeme c rest with
      | .token kind more =>
        let stop := start + 1 + more
        (scan stop (rest.drop more)).map fun (tokens, unknown) =>
          (⟨kind, ⟨start, stop⟩⟩ :: tokens, unknown)
      | .unknown => (scan (start + 1) rest).map fun (tokens, unknown) => (tokens, start :: unknown)
      | .unterminated => .error (.unterminated start)
      | .tooLarge more => .error (.tooLarge ⟨start, start + 1 + more⟩)
termination_by cs => cs.length
decreasing_by all_goals simp only [List.length_cons, List.length_drop]; omega

/-- The tokens of `source`. Quoted text without an end and a number that is too large are reported
where they stand, characters that start no token all together. -/
def tokens (source : List Char) : Except Fault (List Token) :=
  match scan 0 source with
  | .error fault => .error fault
  | .ok (tokens, []) => .ok tokens
  | .ok (_, unknown) => .error (.unknown unknown)

/-- Whether more text could complete `source`: quoted text does not end, or more brackets are
opened than closed. -/
def isIncomplete (source : List Char) : Bool :=
  match tokens source with
  | .error (.unterminated _) => true
  | .error _ => false
  | .ok tokens =>
    let opened := tokens.countP fun t =>
      t.kind = .symbol .leftParen || t.kind = .symbol .leftBracket
    let closed := tokens.countP fun t =>
      t.kind = .symbol .rightParen || t.kind = .symbol .rightBracket
    closed < opened

end Formula.Lexer
