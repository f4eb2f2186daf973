import Formula.Proofs.Expr.Pieces
import Mathlib.Data.List.Chain

/-! Next to each token in the text of an expression stands one that ends it, so the text is cut into
its pieces again. -/

namespace Formula

open Token

namespace Symbol

/-- The symbols that can follow a name or a literal directly. -/
def isMark : Symbol → Bool
  | dot | comma | colon | leftParen | rightParen | leftBracket | rightBracket => true
  | _ => false

def isSign : Symbol → Bool
  | not | minus | plus => true
  | _ => false

end Symbol

theorem Token.Kind.endsAt_space (k : Kind) : k.endsAt ' ' := by
  cases k <;> rfl

/-- Whether a symbol can follow a token directly: a sign only another symbol, and a point no whole
number. -/
def Token.Kind.allows : Kind → Symbol → Bool
  | .symbol _, s => s.isMark || s.isSign
  | .int _, s => s.isMark && s != .dot
  | _, s => s.isMark

/-- A symbol that can follow a token ends it. -/
theorem Token.Kind.endsAt_of_allows {k : Kind} {s : Symbol} (h : k.allows s) :
    ∀ d ∈ s.text.toList.head?, k.endsAt d := by
  have hMark : ∀ s : Symbol, s.isMark → ∀ d ∈ s.text.toList.head?,
      (Text.continuesName d = false ∧ d.isDigit = false) ∧ (s ≠ .dot → d ≠ '.') ∧
        (d ≠ '=' ∧ d ≠ '*') ∧ d ≠ '/' := by
    intro s hs d hd
    cases s <;> simp only [Symbol.isMark, Bool.false_eq_true] at hs <;> cases hd <;> decide
  have hSign : ∀ s : Symbol, s.isSign → ∀ d ∈ s.text.toList.head?,
      (d ≠ '=' ∧ d ≠ '*') ∧ d ≠ '/' := by
    intro s hs d hd
    cases s <;> simp only [Symbol.isSign, Bool.false_eq_true] at hs <;> cases hd <;> decide
  intro d hd
  cases k with
  | name | float => simp [endsAt, hMark s h d hd]
  | int =>
    obtain ⟨hs, hDot⟩ : s.isMark = true ∧ s ≠ .dot := by simpa [allows] using h
    simp [endsAt, hMark s hs d hd, hDot]
  | str | stray => rfl
  | symbol =>
    rcases Bool.or_eq_true_iff.mp h with hs | hs
    · simp [endsAt, hMark s hs d hd]
    · simp [endsAt, hSign s hs d hd]

namespace Piece

def fits : Piece → Piece → Bool
  | some k, some (.symbol s) => k.allows s
  | some k, some _ => k.isSymbol
  | _, _ => true

variable {p : Piece} {ps rest : List Piece} {k : Kind} {s : Symbol}

/-- A piece that fits ends the token in front of it. -/
theorem endsAt_of_fits (hFit : ∀ q ∈ ps.head?, fits (some k) q)
    (hLexical : ∀ q ∈ kinds ps, q.Lexical) : ∀ d ∈ (spelled ps).head?, k.endsAt d := by
  intro d hd
  rcases ps with _ | ⟨_ | q, ps⟩
  · cases hd
  · cases hd
    exact k.endsAt_space
  · have hq : fits (some k) (some q) := hFit _ rfl
    cases hKind : q.isSymbol with
    | true =>
      obtain ⟨s, rfl⟩ := Kind.exists_symbol hKind
      refine Kind.endsAt_of_allows (s := s) hq d ?_
      have hText : s.text.toList ≠ [] := by cases s <;> decide
      rwa [spelled_cons, text, Kind.written, List.head?_append_of_ne_nil _ hText] at hd
    | false =>
      have hSymbol : k.isSymbol := by
        cases q <;> first | exact hq | cases hKind
      obtain ⟨s, rfl⟩ := Kind.exists_symbol hSymbol
      obtain ⟨c, body, hText, hEnds⟩ :=
        Lexer.exists_written (s := s) (hLexical q List.mem_cons_self) hKind
      rw [spelled_cons, text, hText] at hd
      cases hd
      exact hEnds

/-- Whether each piece fits the one before it, and the first one any symbol. -/
structure Joins (ps : List Piece) : Prop where
  chain : ps.IsChain (fits · ·)
  opens : ∀ s, ∀ p ∈ ps.head?, fits (mark s) p

namespace Joins

theorem nil : Joins [] := ⟨.nil, by simp⟩

theorem cons (h : Joins ps) (hFit : ∀ q ∈ ps.head?, fits p q) (hOpens : ∀ s, fits (mark s) p) :
    Joins (p :: ps) := by
  refine ⟨List.isChain_cons.mpr ⟨hFit, h.chain⟩, ?_⟩
  rintro s _ ⟨⟩
  exact hOpens s

theorem space (h : Joins ps) : Joins (none :: ps) := h.cons (fun _ _ => rfl) fun _ => rfl

theorem mark (hs : s.isMark || s.isSign) (h : Joins ps) : Joins (mark s :: ps) :=
  h.cons (h.opens s) fun _ => hs

/-- Between spaces, every symbol fits. -/
theorem operator (s : Symbol) (h : Joins ps) : Joins ([none, Piece.mark s, none] ++ ps) := by
  have hSymbol : (Piece.mark s :: none :: ps).IsChain (fits · ·) := by
    refine List.isChain_cons.mpr ⟨?_, h.space.chain⟩
    rintro _ ⟨⟩
    rfl
  refine ⟨List.isChain_cons.mpr ⟨fun _ _ => rfl, hSymbol⟩, ?_⟩
  rintro _ _ ⟨⟩
  rfl

theorem leaf (hk : k.isSymbol = false) (h : Joins ps) (hFit : ∀ q ∈ ps.head?, fits (some k) q) :
    Joins (some k :: ps) := by
  refine h.cons hFit fun s => ?_
  cases k <;> first | rfl | cases hk

theorem wrapped (h : Joins (ps ++ Piece.mark .rightParen :: rest)) :
    Joins (wrapped ps ++ rest) := by
  rw [Piece.wrapped, List.cons_append, List.append_assoc]
  exact h.mark rfl

theorem bracketed (h : Joins (ps ++ Piece.mark .rightBracket :: rest)) :
    Joins (bracketed ps ++ rest) := by
  rw [Piece.bracketed, List.cons_append, List.append_assoc]
  exact h.mark rfl

end Joins

end Piece

namespace Expr

open Piece

variable {rest : List Piece} {s : Symbol} {e : Expr}

/-- Whether a piece can follow an expression. -/
def allows (e : Expr) : Piece → Bool
  | none => true
  | some (.symbol s) => s.isMark && !(s == .dot && e.isWholeNumber)
  | some _ => false

/-- The pieces of an expression fit each other, and what it allows to follow. -/
def Follows (e : Expr) : Prop :=
  ∀ rest : List Piece, Joins rest → (∀ p ∈ rest.head?, e.allows p) → Joins (e.pieces ++ rest)

theorem Follows.mark (h : Follows e) (hs : s.isMark) (hDot : s ≠ .dot)
    (hRest : Joins (Piece.mark s :: rest)) : Joins (e.pieces ++ Piece.mark s :: rest) := by
  refine h _ hRest ?_
  rintro _ ⟨⟩
  simp [allows, hs, hDot]

theorem Follows.operator (h : Follows e) (s : Symbol) (hRest : Joins rest) :
    Joins (e.pieces ++ ([none, Piece.mark s, none] ++ rest)) := by
  refine h _ (hRest.operator s) ?_
  rintro _ ⟨⟩
  rfl

theorem Follows.joined {l r : Expr} (hl : Follows l) (hr : Follows r) (s : Symbol)
    (hRest : Joins rest) : Joins (joined l.pieces s r.pieces ++ rest) := by
  refine Joins.wrapped ?_
  rw [List.append_assoc, List.append_assoc]
  exact hl.operator s (hr.mark rfl (by decide) (hRest.mark rfl))

/-- What an expression allows to follow fits a token that the expression is. -/
theorem fits_of_allows {p : Piece} {k : Kind} (h : e.allows p)
    (hKind : ∀ s : Symbol, s.isMark → (s = .dot → e.isWholeNumber = false) → k.allows s) :
    fits (some k) p := by
  rcases p with _ | q
  · rfl
  · cases q with
    | symbol s =>
      simp only [allows, Bool.and_eq_true, Bool.not_eq_true', Bool.and_eq_false_imp,
        beq_iff_eq] at h
      exact hKind s h.1 h.2
    | _ => cases h

theorem joins_argsPieces {args : List Expr} (h : ∀ arg ∈ args, Follows arg)
    (hRest : Joins (Piece.mark .rightParen :: rest)) :
    Joins (argsPieces args ++ Piece.mark .rightParen :: rest) := by
  have hOthers : ∀ es : List Expr, (∀ e ∈ es, Follows e) →
      Joins ((es.flatMap fun arg => Piece.mark .comma :: none :: arg.pieces) ++
        Piece.mark .rightParen :: rest) ∧
      ∀ e, Follows e → Joins (e.pieces ++
        ((es.flatMap fun arg => Piece.mark .comma :: none :: arg.pieces) ++
          Piece.mark .rightParen :: rest)) := by
    intro es hes
    induction es with
    | nil => exact ⟨hRest, fun e he => he.mark rfl (by decide) hRest⟩
    | cons e' es ih =>
      obtain ⟨he', hes'⟩ := List.forall_mem_cons.mp hes
      have hComma : Joins (Piece.mark .comma :: none :: (e'.pieces ++
          ((es.flatMap fun arg => Piece.mark .comma :: none :: arg.pieces) ++
            Piece.mark .rightParen :: rest))) :=
        (((ih hes').2 e' he').space).mark rfl
      rw [List.flatMap_cons, List.cons_append, List.cons_append, List.append_assoc]
      exact ⟨hComma, fun e he => he.mark rfl (by decide) hComma⟩
  cases args with
  | nil => exact hRest
  | cons e es =>
    obtain ⟨he, hes⟩ := List.forall_mem_cons.mp h
    rw [argsPieces_cons, List.append_assoc]
    exact (hOthers es hes).2 e he

theorem joins_boundPieces {bound? : Option Expr} (h : ∀ bound ∈ bound?, Follows bound)
    (hs : s.isMark) (hDot : s ≠ .dot) (hRest : Joins (Piece.mark s :: rest)) :
    Joins (boundPieces bound? ++ Piece.mark s :: rest) := by
  cases bound? with
  | none => exact hRest
  | some bound => exact (h bound rfl).mark hs hDot hRest

theorem follows (e : Expr) : Follows e := by
  induction e with
  | literal l =>
    intro rest h hNext
    refine Joins.leaf (by cases l <;> rfl) h fun p hp => fits_of_allows (hNext p hp) ?_
    intro s hs hDot
    cases l with
    | int =>
      have hNot : s ≠ .dot := fun hEq => nomatch hDot hEq
      simp [Literal.kind, Kind.allows, hs, hNot]
    | float | str => exact hs
  | reference name =>
    intro rest h hNext
    exact Joins.leaf rfl h fun p hp => fits_of_allows (hNext p hp) fun s hs _ => hs
  | unary op e ih =>
    intro rest h hNext
    exact Joins.wrapped ((ih.mark rfl (by decide) (h.mark rfl)).mark (by cases op <;> rfl))
  | binary op l r ihl ihr =>
    intro rest h hNext
    exact ihl.joined ihr _ h
  | compare op l r ihl ihr =>
    intro rest h hNext
    exact ihl.joined ihr _ h
  | connect op l r ihl ihr =>
    intro rest h hNext
    exact ihl.joined ihr _ h
  | ternary c y n ihc ihy ihn =>
    intro rest h hNext
    have hNo := ihn.mark rfl (by decide) (h.mark (s := .rightParen) rfl)
    have hTernary := ihc.operator .question (ihy.operator .colon hNo)
    refine Joins.wrapped ?_
    simpa using hTernary
  | access e attr ih =>
    intro rest h hNext
    have hName : Joins (Piece.mark .dot :: some (.name attr) :: rest) :=
      (Joins.leaf (k := .name attr) rfl h fun p hp =>
        fits_of_allows (hNext p hp) fun s hs _ => hs).mark rfl
    rw [pieces, List.append_assoc]
    split
    · exact Joins.wrapped (ih.mark rfl (by decide) (hName.mark rfl))
    · next hWhole =>
      refine ih _ hName ?_
      rintro _ ⟨⟩
      simpa [allows, Symbol.isMark] using hWhole
  | call callee args ihf ihargs =>
    intro rest h hNext
    rw [pieces, List.append_assoc]
    exact ihf.mark rfl (by decide) (joins_argsPieces ihargs (h.mark rfl)).wrapped
  | item e key ih ihkey =>
    intro rest h hNext
    rw [pieces, List.append_assoc]
    exact ih.mark rfl (by decide) (ihkey.mark rfl (by decide) (h.mark rfl)).bracketed
  | slice e start stop step ih ihstart ihstop ihstep =>
    intro rest h hNext
    have hEnd := h.mark (s := .rightBracket) rfl
    have hStop :
        Joins (boundPieces stop ++ (stepPieces step ++ Piece.mark .rightBracket :: rest)) := by
      cases step with
      | none => exact joins_boundPieces ihstop rfl (by decide) hEnd
      | some step =>
        exact joins_boundPieces ihstop rfl (by decide)
          (((ihstep step rfl).mark rfl (by decide) hEnd).mark rfl)
    have hStart := joins_boundPieces ihstart rfl (by decide) (hStop.mark (s := .colon) rfl)
    rw [pieces, List.append_assoc]
    refine ih.mark rfl (by decide) (Joins.bracketed ?_)
    simpa using hStart

end Expr

end Formula
