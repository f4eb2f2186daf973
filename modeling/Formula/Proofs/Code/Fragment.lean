import Formula.Code.Compiler
import Formula.Proofs.Code.Operand
import Formula.Proofs.Expr.Induction

/-! The code of an expression as a function of the table that numbers its constants and names. It
is the same in every table that gives them the same numbers, so a table that has grown since the
code was made serves as well. -/

namespace Formula

/-- The load of an operand by its number. -/
def Operand.load (t : SymbolTable) (o : Operand) : Instruction :=
  match o with
  | .constant _ => .loadConst ((o.number? t).getD 0)
  | .name _ => .loadRef ((o.number? t).getD 0)

/-- `t` gives a number to each of `operands`. -/
def SymbolTable.Knows (t : SymbolTable) (operands : List Operand) : Prop :=
  ∀ o ∈ operands, (o.number? t).isSome

/-- `t'` has the symbols of `t` under their numbers. -/
structure SymbolTable.Extends (t t' : SymbolTable) : Prop where
  literals : t.literals <+: t'.literals
  references : t.references <+: t'.references

namespace SymbolTable

theorem Extends.refl (t : SymbolTable) : t.Extends t :=
  ⟨List.prefix_refl _, List.prefix_refl _⟩

theorem Extends.trans {t t' t'' : SymbolTable} (h : t.Extends t') (h' : t'.Extends t'') :
    t.Extends t'' :=
  ⟨h.literals.trans h'.literals, h.references.trans h'.references⟩

theorem Extends.number?_eq {t t' : SymbolTable} (h : t.Extends t') {o : Operand} {id : Nat}
    (ho : o.number? t = some id) : o.number? t' = some id := by
  cases o with
  | constant v => exact h.literals.findIdx?_eq_some ho
  | name name => exact h.references.findIdx?_eq_some ho

@[simp] theorem knows_append {t : SymbolTable} {operands others : List Operand} :
    t.Knows (operands ++ others) ↔ t.Knows operands ∧ t.Knows others :=
  List.forall_mem_append

/-- A table with an operand more has the symbols that it had. -/
theorem Added.extends_ {t t' : SymbolTable} {o : Operand} {answer : Except CompileError Nat}
    (h : Added t o answer t') : t.Extends t' := by
  cases h with
  | found | full => exact .refl t
  | new _ _ literals references => exact ⟨⟨_, literals.symm⟩, ⟨_, references.symm⟩⟩

theorem knows_singleton {t : SymbolTable} {o : Operand} {id : Nat} (h : o.number? t = some id) :
    t.Knows [o] := by
  simp [Knows, h]

theorem Knows.mono {t t' : SymbolTable} {operands : List Operand} (h : t.Knows operands)
    (extends_ : t.Extends t') : t'.Knows operands := by
  intro o ho
  obtain ⟨id, hid⟩ := Option.isSome_iff_exists.mp (h o ho)
  simp [extends_.number?_eq hid]

theorem Knows.number? {t : SymbolTable} {o : Operand} (h : t.Knows [o]) :
    ∃ id, o.number? t = some id :=
  Option.isSome_iff_exists.mp (h o List.mem_cons_self)

theorem literal?_eq {t : SymbolTable} {v : Value} {id : Nat}
    (h : (Operand.constant v).number? t = some id) : t.literal? id = some v := by
  obtain ⟨hlt, hsame, -⟩ := List.findIdx?_eq_some_iff_getElem.mp h
  rw [literal?, List.getElem?_eq_getElem hlt, Value.eq_of_sameConstant hsame]

theorem reference?_eq {t : SymbolTable} {name : String} {id : Nat}
    (h : (Operand.name name).number? t = some id) : t.reference? id = some name := by
  obtain ⟨hlt, hsame, -⟩ := List.findIdx?_eq_some_iff_getElem.mp h
  rw [reference?, List.getElem?_eq_getElem hlt, eq_of_beq hsame]

end SymbolTable

theorem Operand.load_eq {t t' : SymbolTable} {o : Operand} (h : t.Knows [o])
    (extends_ : t.Extends t') : o.load t' = o.load t := by
  obtain ⟨id, hid⟩ := h.number?
  cases o <;> simp [Operand.load, hid, extends_.number?_eq hid]

namespace Expr

open Compiler (decisive)

mutual

/-- What the code of an expression loads, from its first instruction to its last. -/
def operands : Expr → List Operand
  | literal l => [.constant l.value]
  | reference name => [.name name]
  | unary _ e => operands e
  | binary _ l r => operands l ++ operands r
  | compare _ l r => operands l ++ operands r
  | connect _ l r => operands l ++ operands r
  | ternary c y n => operands c ++ (operands y ++ operands n)
  | access e attr => operands e ++ [.constant (.str attr)]
  | call f args => operands f ++ argsOperands args
  | item e key => operands e ++ operands key
  | slice e start stop step =>
    operands e ++ (boundOperands start ++ (boundOperands stop ++ boundOperands step))

def argsOperands : List Expr → List Operand
  | [] => []
  | e :: es => operands e ++ argsOperands es

def boundOperands : Option Expr → List Operand
  | none => [.constant .none]
  | some e => operands e

end

mutual

/-- The code of an expression whose operands have the numbers of `t`. -/
def codeIn (t : SymbolTable) : Expr → List Instruction
  | literal l => [(Operand.constant l.value).load t]
  | reference name => [(Operand.name name).load t]
  | unary op e => codeIn t e ++ [.unary op]
  | binary op l r => codeIn t l ++ (codeIn t r ++ [.binary op])
  | compare op l r => codeIn t l ++ (codeIn t r ++ [.compare op])
  | connect op l r =>
    codeIn t l ++ ([.jumpIf (decisive op) ((codeIn t r).length + 1), .pop] ++ codeIn t r)
  | ternary c y n =>
    codeIn t c ++
      ([.popJumpIf false ((codeIn t y).length + 1)] ++ codeIn t y ++
        [.jump (codeIn t n).length] ++ codeIn t n)
  | access e attr => codeIn t e ++ [(Operand.constant (.str attr)).load t, .getAttr]
  | call f args => codeIn t f ++ (argsCodeIn t args ++ [.call args.length])
  | item e key => codeIn t e ++ (codeIn t key ++ [.getItem 1])
  | slice e start stop step =>
    codeIn t e ++
      (boundCodeIn t start ++ (boundCodeIn t stop ++ (boundCodeIn t step ++ [.getItem 3])))

def argsCodeIn (t : SymbolTable) : List Expr → List Instruction
  | [] => []
  | e :: es => codeIn t e ++ argsCodeIn t es

def boundCodeIn (t : SymbolTable) : Option Expr → List Instruction
  | none => [(Operand.constant .none).load t]
  | some e => codeIn t e

end

mutual

/-- The number of values by which the stack grows at most while the code of an expression runs. -/
def peak : Expr → Nat
  | literal _ => 1
  | reference _ => 1
  | unary _ e => peak e
  | binary _ l r => max (peak l) (1 + peak r)
  | compare _ l r => max (peak l) (1 + peak r)
  | connect _ l r => max (peak l) (peak r)
  | ternary c y n => max (peak c) (max (peak y) (peak n))
  | access e _ => max (peak e) 2
  | call f args => max (peak f) (1 + argsPeak args)
  | item e key => max (peak e) (1 + peak key)
  | slice e start stop step =>
    max (peak e) (1 + max (boundPeak start) (1 + max (boundPeak stop) (1 + boundPeak step)))

def argsPeak : List Expr → Nat
  | [] => 0
  | e :: es => max (peak e) (1 + argsPeak es)

def boundPeak : Option Expr → Nat
  | none => 1
  | some e => peak e

end

end Expr

end Formula
