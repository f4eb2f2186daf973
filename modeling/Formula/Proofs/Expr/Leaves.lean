import Formula.Proofs.Expr.Induction
import Formula.Proofs.Parser.Grammar
import Formula.Proofs.Token.Written

/-! The names and literals of an expression are those of the tokens that it is derived from. -/

namespace Formula

open Token Grammar

namespace Grammar

/-- The tokens that are no symbols. -/
def leaves (tokens : List Kind) : List Kind := tokens.filter (!·.isSymbol)

variable {ts us : List Kind} {s : Symbol} {k : Kind}

@[simp]
theorem leaves_nil : leaves [] = [] := rfl

@[simp]
theorem leaves_append : leaves (ts ++ us) = leaves ts ++ leaves us := List.filter_append ..

@[simp]
theorem leaves_symbol : leaves (.symbol s :: ts) = leaves ts := rfl

theorem leaves_leaf (h : k.isSymbol = false) : leaves (k :: ts) = k :: leaves ts :=
  List.filter_cons_of_pos (by simp [h])

theorem mem_leaves : k ∈ leaves ts ↔ k ∈ ts ∧ k.isSymbol = false := by
  simp [leaves]

end Grammar

def Literal.kind : Literal → Kind
  | int n => .int n
  | float x => .float x
  | str s => .str s

namespace Expr

mutual

/-- The names and literals of an expression, from left to right. -/
def leaves : Expr → List Kind
  | literal l => [l.kind]
  | reference name => [.name name]
  | unary _ e => leaves e
  | binary _ l r => leaves l ++ leaves r
  | compare _ l r => leaves l ++ leaves r
  | connect _ l r => leaves l ++ leaves r
  | ternary c y n => leaves c ++ leaves y ++ leaves n
  | access e attr => leaves e ++ [.name attr]
  | call callee args => leaves callee ++ argsLeaves args
  | item e key => leaves e ++ leaves key
  | slice e start stop step =>
    leaves e ++ boundLeaves start ++ boundLeaves stop ++ boundLeaves step

/-- The names and literals of arguments. -/
def argsLeaves : List Expr → List Kind
  | [] => []
  | e :: es => leaves e ++ argsLeaves es

/-- The names and literals of a bound, of which there are none if it is left out. -/
def boundLeaves : Option Expr → List Kind
  | none => []
  | some e => leaves e

end

/-- Whether no text in an expression holds a backslash, a line feed, a carriage return or a tab, and
every binary64 number in it is finite. -/
def Plain (e : Expr) : Prop := ∀ leaf ∈ e.leaves, leaf.isPlain

instance (e : Expr) : Decidable e.Plain :=
  inferInstanceAs (Decidable (∀ leaf ∈ e.leaves, leaf.isPlain))

theorem leaves_commaArgs {args : List Phrase}
    (h : ∀ arg ∈ args, Grammar.leaves arg.1 = arg.2.leaves) :
    Grammar.leaves (commaArgs args) = argsLeaves (args.map (·.2)) := by
  induction args with
  | nil => rfl
  | cons arg args ih =>
    obtain ⟨hArg, hArgs⟩ := List.forall_mem_cons.mp h
    simpa [commaArgs, argsLeaves, hArg] using ih hArgs

theorem leaves_separated {args : List Phrase}
    (h : ∀ arg ∈ args, Grammar.leaves arg.1 = arg.2.leaves) :
    Grammar.leaves (separated args) = argsLeaves (args.map (·.2)) := by
  cases args with
  | nil => rfl
  | cons arg args =>
    obtain ⟨hArg, hArgs⟩ := List.forall_mem_cons.mp h
    simp [separated, argsLeaves, hArg, leaves_commaArgs hArgs]

theorem leaves_slot {bound? : Option Phrase}
    (h : ∀ bound ∈ bound?, Grammar.leaves bound.1 = bound.2.leaves) :
    Grammar.leaves (slot bound?) = boundLeaves (bound?.map (·.2)) := by
  cases bound? with
  | none => rfl
  | some bound => exact h bound rfl

end Expr

/-- What is derived has the names and literals of the tokens. -/
theorem Derives.leaves_eq {r : Rung} {ts : List Kind} {e : Expr} (h : Derives r ts e) :
    Grammar.leaves ts = e.leaves := by
  induction h with
  | tighter _ ih => exact ih
  | condition _ _ _ ihc ihy ihn => simp [Expr.leaves, ihc, ihy, ihn]
  | link operator _ _ ihl ihr =>
    unfold Rung.link? at operator
    split at operator <;> cases operator <;> simp [Expr.leaves, ihl, ihr]
  | sign _ _ ih => simpa [Expr.leaves] using ih
  | power _ _ ihb ihx => simp [Expr.leaves, ihb, ihx]
  | access _ ih =>
    rw [Grammar.leaves_append, ih]
    rfl
  | call args _ _ ihf ihargs => simp [Expr.leaves, ihf, Expr.leaves_separated ihargs]
  | item _ _ ih ihkey => simp [Expr.leaves, ih, ihkey]
  | slice start stop _ _ _ ih ihstart ihstop =>
    simp [Expr.leaves, ih, Expr.leaves_slot ihstart, Expr.leaves_slot ihstop,
      Expr.boundLeaves]
  | steppedSlice start stop step _ _ _ _ ih ihstart ihstop ihstep =>
    simp [Expr.leaves, ih, Expr.leaves_slot ihstart, Expr.leaves_slot ihstop,
      Expr.leaves_slot ihstep]
  | group _ ih => simpa using ih
  | @leaf k e hk => cases k <;> cases hk <;> rfl

end Formula
