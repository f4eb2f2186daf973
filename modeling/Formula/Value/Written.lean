import Formula.Host
import Formula.Decimal.Layout
import Formula.Text.Quoted

/-! What the types of values are called, and how values are written: text between quotes, containers
between brackets, and everything else by a name or in digits. The host answers for its objects. -/

namespace Formula.Value

variable {σ : Type}

def typeName (host : Host σ) : Value → StateM σ String
  | none => return "NoneType"
  | bool _ => return "bool"
  | int _ => return "int"
  | float _ => return "float"
  | str _ => return "str"
  | list _ => return "list"
  | dict _ => return "dict"
  | function _ => return "builtin_function"
  | method _ _ => return "builtin_method"
  | object o => host.typeName o

mutual

def written (host : Host σ) : Value → StateM σ (List Char)
  | none => return ['N', 'o', 'n', 'e']
  | bool true => return ['T', 'r', 'u', 'e']
  | bool false => return ['F', 'a', 'l', 's', 'e']
  | int n => return (toString n).toList
  | float x => return x.text
  | str s => return Text.quoted s.toList
  | list items => return '[' :: (← writtenItems host items) ++ [']']
  | dict entries => return '\x7b' :: (← writtenEntries host entries) ++ ['\x7d']
  | function f => return ("<built-in function " ++ f.name ++ ">").toList
  | method receiver m => do
    let type ← receiver.typeName host
    return ("<built-in method " ++ m.name ++ " of " ++ type ++ " object>").toList
  | object o => return (← host.repr o).toList

def writtenItems (host : Host σ) : List Value → StateM σ (List Char)
  | [] => return []
  | [v] => written host v
  | v :: vs => return (← written host v) ++ [',', ' '] ++ (← writtenItems host vs)

def writtenEntries (host : Host σ) : List (Value × Value) → StateM σ (List Char)
  | [] => return []
  | [(k, v)] => return (← written host k) ++ [':', ' '] ++ (← written host v)
  | (k, v) :: es => do
    let key ← written host k
    let value ← written host v
    return key ++ [':', ' '] ++ value ++ [',', ' '] ++ (← writtenEntries host es)

end

def repr (host : Host σ) (v : Value) : StateM σ String := return String.ofList (← v.written host)

/-- A value as text: text stands for itself, and everything else is as it is written. -/
def display (host : Host σ) : Value → StateM σ String
  | str s => return s
  | v => v.repr host

end Formula.Value
