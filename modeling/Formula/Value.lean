import Formula.RuntimeError

/-! The values of expressions. What the host adds to them is known here by identity, and functions
by name as well; how it behaves is the host's. -/

namespace Formula

/-- The conversions that every expression can call. -/
inductive Conversion where
  | bool | float | int | str
deriving DecidableEq

def Conversion.name : Conversion → String
  | bool => "bool"
  | float => "float"
  | int => "int"
  | str => "str"

inductive Method where
  | upper | lower | capitalize | title | strip | lstrip | rstrip | startswith | endswith
  | find | replace | split | join | isdigit | isalpha
  | count
  | index
  | get | keys | values | items
deriving DecidableEq

/-- A function of the host. Two of them are the same if they have the same `id`. Without an arity,
it takes any number of arguments. -/
structure HostFunction where
  id : Nat
  name : String
  arity : Option Nat

/-- An object of the host. Two of them are the same if they have the same `id`. -/
structure HostObject where
  id : Nat

/-- A function that an expression can call. -/
inductive Function where
  | conversion (c : Conversion)
  | host (f : HostFunction)

namespace Function

def name : Function → String
  | conversion c => c.name
  | host f => f.name

def arity : Function → Option Nat
  | conversion _ => none
  | host f => f.arity

def same : Function → Function → Bool
  | conversion c, conversion d => c = d
  | host f, host g => f.id == g.id
  | _, _ => false

end Function

/-- A value. The entries of a dict are in the order in which their keys came, and no two keys are
equal. A method carries the value that it was looked up on. -/
inductive Value where
  | none
  | bool (b : Bool)
  | int (n : Int)
  | float (x : Double)
  | str (s : String)
  | list (items : List Value)
  | dict (entries : List (Value × Value))
  | function (f : Function)
  | method (receiver : Value) (m : Method)
  | object (o : HostObject)

namespace Value

/-- The value of a text given by its characters. -/
def text (cs : List Char) : Value := .str (String.ofList cs)

end Value

def Literal.value : Literal → Value
  | int n => .int n
  | float x => .float x
  | str s => .str s

namespace Method

def name : Method → String
  | upper => "upper"
  | lower => "lower"
  | capitalize => "capitalize"
  | title => "title"
  | strip => "strip"
  | lstrip => "lstrip"
  | rstrip => "rstrip"
  | startswith => "startswith"
  | endswith => "endswith"
  | find => "find"
  | replace => "replace"
  | split => "split"
  | join => "join"
  | isdigit => "isdigit"
  | isalpha => "isalpha"
  | count => "count"
  | index => "index"
  | get => "get"
  | keys => "keys"
  | values => "values"
  | items => "items"

end Method

end Formula
