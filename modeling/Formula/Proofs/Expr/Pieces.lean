import Formula.Proofs.Expr.Leaves
import Mathlib.Data.List.Basic

/-! The text of an expression in pieces: tokens, with spaces between some of them. The tokens among
the pieces derive the expression, and whatever stands next to a token ends it. -/

namespace Formula

open Token Grammar

def UnaryOp.symbol : UnaryOp → Symbol
  | not => .not
  | neg => .minus
  | pos => .plus

def BinaryOp.symbol : BinaryOp → Symbol
  | add => .plus
  | sub => .minus
  | mul => .star
  | div => .slash
  | floorDiv => .doubleSlash
  | mod => .percent
  | pow => .doubleStar

def Comparison.symbol : Comparison → Symbol
  | eq => .equal
  | ne => .notEqual
  | gt => .greater
  | lt => .less
  | ge => .greaterEqual
  | le => .lessEqual

def Connective.symbol : Connective → Symbol
  | and => .and
  | or => .or

theorem UnaryOp.text_symbol (op : UnaryOp) : op.symbol.text = op.text := by cases op <;> rfl

theorem BinaryOp.text_symbol (op : BinaryOp) : op.symbol.text = op.text := by cases op <;> rfl

theorem Comparison.text_symbol (op : Comparison) : op.symbol.text = op.text := by cases op <;> rfl

theorem Connective.text_symbol (op : Connective) : op.symbol.text = op.text := by cases op <;> rfl

/-- A token, or a space. -/
abbrev Piece := Option Kind

namespace Piece

def text : Piece → List Char
  | some k => k.written
  | none => [' ']

abbrev mark (s : Symbol) : Piece := some (.symbol s)

def wrapped (ps : List Piece) : List Piece := mark .leftParen :: (ps ++ [mark .rightParen])

def bracketed (ps : List Piece) : List Piece := mark .leftBracket :: (ps ++ [mark .rightBracket])

/-- Two operands with the symbol `s` between them, in parentheses. -/
def joined (left : List Piece) (s : Symbol) (right : List Piece) : List Piece :=
  wrapped (left ++ [none, mark s, none] ++ right)

def spelled (ps : List Piece) : List Char := ps.flatMap text

def kinds (ps : List Piece) : List Kind := ps.filterMap id

variable {p q : Piece} {ps qs : List Piece}

@[simp]
theorem spelled_nil : spelled [] = [] := rfl

@[simp]
theorem spelled_cons : spelled (p :: ps) = p.text ++ spelled ps := List.flatMap_cons ..

@[simp]
theorem spelled_append : spelled (ps ++ qs) = spelled ps ++ spelled qs := List.flatMap_append ..

theorem spelled_wrapped (ps : List Piece) :
    spelled (wrapped ps) = Expr.parenthesized (spelled ps) := by
  rw [wrapped, spelled_cons, spelled_append]
  rfl

theorem spelled_joined (s : Symbol) :
    spelled (joined ps s qs) = Expr.between (spelled ps) s.text (spelled qs) := by
  simp [joined, spelled_wrapped, Expr.between, text, Kind.written]

theorem spelled_bracketed (ps : List Piece) :
    spelled (bracketed ps) = '[' :: spelled ps ++ [']'] := by
  rw [bracketed, spelled_cons, spelled_append]
  rfl

@[simp]
theorem kinds_nil : kinds [] = [] := rfl

@[simp]
theorem kinds_some {k : Kind} : kinds (some k :: ps) = k :: kinds ps := rfl

@[simp]
theorem kinds_none : kinds (none :: ps) = kinds ps := rfl

@[simp]
theorem kinds_append : kinds (ps ++ qs) = kinds ps ++ kinds qs := List.filterMap_append ..

theorem kinds_wrapped (ps : List Piece) :
    kinds (wrapped ps) = .symbol .leftParen :: (kinds ps ++ [Kind.symbol .rightParen]) := by
  simp [wrapped]

theorem kinds_joined (s : Symbol) :
    kinds (joined ps s qs) =
      .symbol .leftParen ::
        (kinds ps ++ Kind.symbol s :: kinds qs ++ [Kind.symbol .rightParen]) := by
  simp [joined, kinds_wrapped]

theorem kinds_bracketed (ps : List Piece) :
    kinds (bracketed ps) = .symbol .leftBracket :: (kinds ps ++ [Kind.symbol .rightBracket]) := by
  simp [bracketed]

end Piece

namespace Expr

open Piece

mutual

/-- The text of an expression in pieces. -/
def pieces : Expr → List Piece
  | literal l => [some l.kind]
  | reference name => [some (.name name)]
  | unary op e => wrapped (mark op.symbol :: pieces e)
  | binary op l r => joined (pieces l) op.symbol (pieces r)
  | compare op l r => joined (pieces l) op.symbol (pieces r)
  | connect op l r => joined (pieces l) op.symbol (pieces r)
  | ternary c y n =>
    wrapped (pieces c ++ [none, mark .question, none] ++ pieces y ++ [none, mark .colon, none] ++
      pieces n)
  | access e attr =>
    (if e.isWholeNumber then wrapped (pieces e) else pieces e) ++ [mark .dot, some (.name attr)]
  | call callee args => pieces callee ++ wrapped (argsPieces args)
  | item e key => pieces e ++ bracketed (pieces key)
  | slice e start stop step =>
    pieces e ++ bracketed
      (boundPieces start ++ mark .colon :: (boundPieces stop ++ stepPieces step))

/-- The texts of arguments in pieces, with commas between them. -/
def argsPieces : List Expr → List Piece
  | [] => []
  | [e] => pieces e
  | e :: es => pieces e ++ [mark .comma, none] ++ argsPieces es

/-- The text of a bound in pieces, of which there are none if it is left out. -/
def boundPieces : Option Expr → List Piece
  | none => []
  | some e => pieces e

/-- The text of a step with its colon, of which there are no pieces if it is left out. -/
def stepPieces : Option Expr → List Piece
  | none => []
  | some e => mark .colon :: pieces e

end

theorem argsPieces_cons (e : Expr) (es : List Expr) :
    argsPieces (e :: es) = e.pieces ++ es.flatMap fun arg => mark .comma :: none :: arg.pieces := by
  induction es generalizing e with
  | nil => simp [argsPieces]
  | cons e' es ih => simp [argsPieces, ih]

theorem argsText_cons (e : Expr) (es : List Expr) :
    argsText (e :: es) = e.text ++ es.flatMap fun arg => ',' :: ' ' :: arg.text := by
  induction es generalizing e with
  | nil => simp [argsText]
  | cons e' es ih => simp [argsText, ih]

theorem spelled_argsPieces {args : List Expr} (h : ∀ arg ∈ args, spelled arg.pieces = arg.text) :
    spelled (argsPieces args) = argsText args := by
  cases args with
  | nil => rfl
  | cons e es =>
    obtain ⟨he, hes⟩ := List.forall_mem_cons.mp h
    rw [argsPieces_cons, argsText_cons, spelled_append, he, spelled, List.flatMap_assoc]
    refine congrArg (e.text ++ ·) (List.flatMap_congr fun arg harg => ?_)
    show ',' :: ' ' :: spelled arg.pieces = _
    rw [hes arg harg]

theorem spelled_boundPieces {bound? : Option Expr}
    (h : ∀ bound ∈ bound?, spelled bound.pieces = bound.text) :
    spelled (boundPieces bound?) = boundText bound? := by
  cases bound? with
  | none => rfl
  | some bound => exact h bound rfl

theorem spelled_stepPieces {step? : Option Expr}
    (h : ∀ step ∈ step?, spelled step.pieces = step.text) :
    spelled (stepPieces step?) = stepText step? := by
  cases step? with
  | none => rfl
  | some step =>
    rw [stepPieces, spelled_cons, h step rfl]
    rfl

/-- The pieces make up the text. -/
theorem spelled_pieces (e : Expr) : spelled e.pieces = e.text := by
  induction e with
  | literal l =>
    cases l <;> exact List.append_nil _
  | reference name => exact List.append_nil _
  | unary op e ih =>
    rw [pieces, spelled_wrapped, spelled_cons, ih, Expr.text, ← op.text_symbol]
    rfl
  | binary op l r ihl ihr =>
    rw [pieces, spelled_joined, ihl, ihr, op.text_symbol, Expr.text]
  | compare op l r ihl ihr =>
    rw [pieces, spelled_joined, ihl, ihr, op.text_symbol, Expr.text]
  | connect op l r ihl ihr =>
    rw [pieces, spelled_joined, ihl, ihr, op.text_symbol, Expr.text]
  | ternary c y n ihc ihy ihn =>
    simp only [pieces, spelled_wrapped, spelled_append, ihc, ihy, ihn, Expr.text]
    rfl
  | access e attr ih =>
    rw [pieces, spelled_append, Expr.text]
    split
    · rw [spelled_wrapped, ih]
      simp [Piece.text, Kind.written, Symbol.text]
    · rw [ih]
      simp [Piece.text, Kind.written, Symbol.text]
  | call callee args ihf ihargs =>
    rw [pieces, spelled_append, ihf, spelled_wrapped, spelled_argsPieces ihargs, Expr.text]
  | item e key ih ihkey =>
    rw [pieces, spelled_append, ih, spelled_bracketed, ihkey, Expr.text]
    simp
  | slice e start stop step ih ihstart ihstop ihstep =>
    rw [pieces, spelled_append, ih, spelled_bracketed, spelled_append, spelled_cons, spelled_append,
      spelled_boundPieces ihstart, spelled_boundPieces ihstop, spelled_stepPieces ihstep, Expr.text]
    simp [Piece.text, Kind.written, Symbol.text]

/-- The tokens in the text of an expression. -/
def kinds (e : Expr) : List Kind := Piece.kinds e.pieces

def phrase (e : Expr) : Phrase := (e.kinds, e)

theorem kinds_argsPieces (args : List Expr) :
    Piece.kinds (argsPieces args) = separated (args.map phrase) := by
  cases args with
  | nil => rfl
  | cons e es =>
    rw [argsPieces_cons, kinds_append, List.map_cons, separated, commaArgs, List.flatMap_map,
      Piece.kinds, Piece.kinds, List.filterMap_flatMap]
    rfl

theorem kinds_boundPieces (bound? : Option Expr) :
    Piece.kinds (boundPieces bound?) = slot (bound?.map phrase) := by
  cases bound? <;> rfl

end Expr

namespace Derives

variable {r r' : Rung} {ts us : List Kind} {e e' : Expr}

/-- Parentheses make an operand of anything. -/
theorem wrapped (h : Derives r ts e) :
    Derives .postfixed (.symbol .leftParen :: (ts ++ [Kind.symbol .rightParen])) e :=
  .tighter (.group (h.widen (Nat.zero_le _)))

/-- Two operands with an operator of a rung between them, in parentheses. -/
theorem joined {s : Symbol} {join : Expr → Expr → Expr} (operator : r.link? s = some join)
    (hl : Derives .postfixed ts e) (hr : Derives .postfixed us e') :
    Derives .postfixed
      (.symbol .leftParen :: (ts ++ Kind.symbol s :: us ++ [Kind.symbol .rightParen]))
      (join e e') := by
  have hPlace : r.next.place ≤ Rung.postfixed.place := by
    cases r <;> first | decide | cases operator
  exact .wrapped (.link operator (hl.widen (r.place_le_next.trans hPlace)) (hr.widen hPlace))

/-- An operand with a sign of a rung in front of it, in parentheses. -/
theorem signed {s : Symbol} {op : UnaryOp} (operator : r.sign? s = some op)
    (h : Derives .postfixed ts e) :
    Derives .postfixed (.symbol .leftParen :: (Kind.symbol s :: ts ++ [Kind.symbol .rightParen]))
      (.unary op e) := by
  have hPlace : r.next.place ≤ Rung.postfixed.place := by
    cases r <;> first | decide | cases operator
  exact .wrapped (.sign operator (h.widen hPlace))

end Derives

open Piece in
/-- The tokens in the text of an expression derive it. -/
theorem Expr.derives_kinds (e : Expr) : Derives .postfixed e.kinds e := by
  have hArgs : ∀ args : List Expr, (args.map phrase).map (·.2) = args := fun args => by
    rw [List.map_map]
    exact List.map_id args
  have hBound : ∀ bound? : Option Expr, (bound?.map phrase).map (·.2) = bound? := fun bound? => by
    cases bound? <;> rfl
  induction e with
  | literal l => exact .tighter (.leaf (by cases l <;> rfl))
  | reference name => exact .tighter (.leaf rfl)
  | unary op e ih =>
    rw [kinds, pieces, kinds_wrapped, kinds_some]
    cases op with
    | not => exact .signed (r := .negation) rfl ih
    | neg | pos => exact .signed (r := .unary) rfl ih
  | binary op l r ihl ihr =>
    rw [kinds, pieces, kinds_joined]
    cases op with
    | add | sub => exact .joined (r := .additive) rfl ihl ihr
    | mul | div | floorDiv | mod => exact .joined (r := .multiplicative) rfl ihl ihr
    | pow => exact .wrapped (.power ihl (ihr.widen (by decide)))
  | compare op l r ihl ihr =>
    rw [kinds, pieces, kinds_joined]
    cases op <;> exact .joined (r := .comparison) rfl ihl ihr
  | connect op l r ihl ihr =>
    rw [kinds, pieces, kinds_joined]
    cases op with
    | and => exact .joined (r := .conjunction) rfl ihl ihr
    | or => exact .joined (r := .disjunction) rfl ihl ihr
  | ternary c y n ihc ihy ihn =>
    have hCondition := Derives.condition (ihc.widen (by decide)) (ihy.widen (by decide))
      (ihn.widen (by decide))
    rw [kinds, pieces, kinds_wrapped]
    simpa [kinds] using hCondition.wrapped
  | access e attr ih =>
    rw [kinds, pieces, kinds_append]
    split
    · rw [kinds_wrapped]
      exact .access ih.wrapped
    · exact .access ih
  | call callee args ihf ihargs =>
    have hCall := Derives.call (args.map phrase) ihf (by
      intro arg harg
      obtain ⟨e, he, rfl⟩ := List.mem_map.mp harg
      exact (ihargs e he).widen (by decide))
    rw [hArgs] at hCall
    rwa [kinds, pieces, kinds_append, kinds_wrapped, kinds_argsPieces]
  | item e key ih ihkey =>
    rw [kinds, pieces, kinds_append, kinds_bracketed]
    exact .item ih (ihkey.widen (by decide))
  | slice e start stop step ih ihstart ihstop ihstep =>
    have hSlot : ∀ bound? : Option Expr, (∀ bound ∈ bound?, Derives .postfixed bound.kinds bound) →
        ∀ p ∈ bound?.map phrase, Derives .ternary p.1 p.2 := by
      intro bound? h p hp
      obtain ⟨bound, hBound, rfl⟩ := Option.map_eq_some_iff.mp hp
      exact (h bound hBound).widen (by decide)
    rw [kinds, pieces, kinds_append, kinds_bracketed, kinds_append, kinds_some, kinds_append,
      kinds_boundPieces, kinds_boundPieces]
    cases step with
    | none =>
      have hSlice := Derives.slice _ _ ih (hSlot start ihstart) (hSlot stop ihstop)
      rw [hBound, hBound] at hSlice
      simpa [stepPieces, kinds] using hSlice
    | some step =>
      have hSlice := Derives.steppedSlice _ _ _ ih (hSlot start ihstart) (hSlot stop ihstop)
        (hSlot (some step) ihstep)
      rw [hBound, hBound, hBound] at hSlice
      simpa [stepPieces, slot, phrase, kinds] using hSlice

end Formula
