import Formula.Complaint
import Formula.Text.Casing
import Formula.Text.Search
import Formula.Value.Equality

/-! The methods of text, lists and dicts: which value has which, how many arguments each takes, and
what it gives. -/

namespace Formula.Method

/-- The method of `receiver` that is called `name`, if its type has one. -/
def resolve? (receiver : Value) (name : String) : Option Method :=
  match receiver, name with
  | .str _, "upper" => some upper
  | .str _, "lower" => some lower
  | .str _, "capitalize" => some capitalize
  | .str _, "title" => some title
  | .str _, "strip" => some strip
  | .str _, "lstrip" => some lstrip
  | .str _, "rstrip" => some rstrip
  | .str _, "startswith" => some startswith
  | .str _, "endswith" => some endswith
  | .str _, "find" => some find
  | .str _, "replace" => some replace
  | .str _, "split" => some split
  | .str _, "join" => some join
  | .str _, "isdigit" => some isdigit
  | .str _, "isalpha" => some isalpha
  | .str _, "count" | .list _, "count" => some count
  | .list _, "index" => some index
  | .dict _, "get" => some get
  | .dict _, "keys" => some keys
  | .dict _, "values" => some values
  | .dict _, "items" => some items
  | _, _ => none

def arity : Method → Arity
  | upper | lower | capitalize | title | isdigit | isalpha | keys | values | items => .exactly 0
  | strip | lstrip | rstrip | split => .between 0 1
  | startswith | endswith | find | join | count | index => .exactly 1
  | get => .between 1 2
  | replace => .between 2 3

/-- The characters of an argument that must be text. -/
def textArg (m : Method) : Value → Except Complaint (List Char)
  | .str s => .ok s.toList
  | v => .error (.argumentType m.name "str" v)

/-- The characters of an argument that must be text, unless it is left out or `None`. -/
def textArg? (m : Method) : List Value → Except Complaint (Option (List Char))
  | [] => .ok none
  | .none :: _ => .ok none
  | v :: _ => (m.textArg v).map some

/-- The failure of a method that the type of `receiver` does not have. -/
def missing (m : Method) (receiver : Value) : Complaint :=
  .attributeNotFound receiver m.name

/-- Whether `cs` is not empty and all its characters satisfy `p`. -/
def nonemptyAll (p : Char → Bool) (cs : List Char) : Bool := !cs.isEmpty && cs.all p

/-- What the characters satisfy that are stripped: they are among those given, or white space. -/
def stripped (chars : Option (List Char)) (c : Char) : Bool :=
  match chars with
  | some chars => chars.contains c
  | none => Text.isBlank c

/-- The occurrences of `old` replaced by `new`, as many as the optional count says; a negative
count means all of them. -/
def replaced (cs old new : List Char) : List Value → Except Complaint Value
  | [] => .ok (.text (Text.replace old new cs))
  | .int n :: _ =>
    .ok (.text (if n < 0 then Text.replace old new cs else Text.replaceUpTo old new n.toNat cs))
  | v :: _ => .error (.argumentType replace.name "int" v)

/-- The pieces of `cs` between separators, or between white space if there is no separator. -/
def splitBy (cs : List Char) : Option (List Char) → Except Complaint Value
  | none => .ok (.list ((Text.words cs).map .text))
  | some [] => .error (.invalidValue "empty separator")
  | some separator => .ok (.list ((Text.split separator cs).map .text))

def callText (m : Method) (cs : List Char) (args : List Value) : Except Complaint Value :=
  match m, args with
  | upper, _ => .ok (.text (Text.upper cs))
  | lower, _ => .ok (.text (Text.lower cs))
  | capitalize, _ => .ok (.text (Text.capitalize cs))
  | title, _ => .ok (.text (Text.title cs))
  | strip, args => (m.textArg? args).map fun chars => .text (Text.trim (stripped chars) cs)
  | lstrip, args => (m.textArg? args).map fun chars => .text (Text.trimStart (stripped chars) cs)
  | rstrip, args => (m.textArg? args).map fun chars => .text (Text.trimEnd (stripped chars) cs)
  | startswith, t :: _ => (m.textArg t).map fun t => .bool (t.isPrefixOf cs)
  | endswith, t :: _ => (m.textArg t).map fun t => .bool (t.isSuffixOf cs)
  | find, t :: _ =>
    (m.textArg t).map fun t => .int (match Text.find? t cs with | some i => i | none => -1)
  | count, t :: _ => (m.textArg t).map fun t => .int (Text.count t cs)
  | replace, old :: new :: rest => do
    let old ← m.textArg old
    let new ← m.textArg new
    replaced cs old new rest
  | split, args => do splitBy cs (← m.textArg? args)
  | join, .list xs :: _ => do
    let parts ← xs.mapM m.textArg
    return .text (cs.intercalate parts)
  | join, v :: _ => .error (.argumentType m.name "list" v)
  | isdigit, _ => .ok (.bool (nonemptyAll Char.isDigit cs))
  | isalpha, _ => .ok (.bool (nonemptyAll Text.isAlphabetic cs))
  | m, _ => .error (m.missing (.text cs))

def callList (m : Method) (xs : List Value) (args : List Value) : Except Complaint Value :=
  match m, args with
  | count, v :: _ => .ok (.int (xs.countP fun x => x.equals v))
  | index, v :: _ =>
    match xs.findIdx? fun x => x.equals v with
    | some i => .ok (.int i)
    | none => .error (.notInList v)
  | m, _ => .error (m.missing (.list xs))

def callDict (m : Method) (entries : List (Value × Value)) (args : List Value) :
    Except Complaint Value :=
  match m, args with
  | get, key :: rest => .ok ((Value.lookup? key entries).getD (rest.head?.getD .none))
  | keys, _ => .ok (.list (entries.map (·.1)))
  | values, _ => .ok (.list (entries.map (·.2)))
  | items, _ => .ok (.list (entries.map fun (k, v) => .list [k, v]))
  | m, _ => .error (m.missing (.dict entries))

def call (m : Method) (receiver : Value) (args : List Value) : Except Complaint Value :=
  if !m.arity.accepts args.length then .error (.argumentCount m.name m.arity args.length)
  else
    match receiver with
    | .str s => m.callText s.toList args
    | .list xs => m.callList xs args
    | .dict entries => m.callDict entries args
    | v => .error (m.missing v)

end Formula.Method
