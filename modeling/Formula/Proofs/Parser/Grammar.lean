import Formula.Expr
import Formula.Token

/-! The grammar of expressions. Each rung takes what the next tighter one takes, and adds its own
forms:

* `ternary := disjunction ('?' ternary ':' ternary)?`
* `disjunction`, `conjunction`, `comparison`, `additive` and `multiplicative` join operands of the
  next rung by their operators, and group to the left
* `negation` and `unary` put at most one sign in front of an operand of the next rung
* `power := postfixed ('**' power)?`
* `postfixed := primary ('.' name | '[' slice_or_index ']' | '(' args ')')*` with
  `args := (ternary (',' ternary)*)?` and
  `slice_or_index := ternary | ternary? ':' ternary? (':' ternary?)?`
* `primary := '(' ternary ')' | name | literal` -/

namespace Formula

/-- The rungs of the grammar, loosest first. -/
inductive Rung where
  | ternary | disjunction | conjunction | negation | comparison | additive | multiplicative
  | unary | power | postfixed | primary
deriving DecidableEq

namespace Rung

/-- The place of a rung, counted from the loosest. -/
def place : Rung → Nat
  | ternary => 0
  | disjunction => 1
  | conjunction => 2
  | negation => 3
  | comparison => 4
  | additive => 5
  | multiplicative => 6
  | unary => 7
  | power => 8
  | postfixed => 9
  | primary => 10

/-- The next tighter rung. The tightest has only itself. -/
def next : Rung → Rung
  | ternary => disjunction
  | disjunction => conjunction
  | conjunction => negation
  | negation => comparison
  | comparison => additive
  | additive => multiplicative
  | multiplicative => unary
  | unary => power
  | power => postfixed
  | postfixed | primary => primary

/-- The trees that the operators of a rung make of two operands, for rungs that group to the
left. -/
def link? : Rung → Symbol → Option (Expr → Expr → Expr)
  | disjunction, .or => some (.connect .or)
  | conjunction, .and => some (.connect .and)
  | comparison, .equal => some (.compare .eq)
  | comparison, .notEqual => some (.compare .ne)
  | comparison, .greater => some (.compare .gt)
  | comparison, .less => some (.compare .lt)
  | comparison, .greaterEqual => some (.compare .ge)
  | comparison, .lessEqual => some (.compare .le)
  | additive, .plus => some (.binary .add)
  | additive, .minus => some (.binary .sub)
  | multiplicative, .star => some (.binary .mul)
  | multiplicative, .slash => some (.binary .div)
  | multiplicative, .doubleSlash => some (.binary .floorDiv)
  | multiplicative, .percent => some (.binary .mod)
  | _, _ => none

/-- The signs of a rung. -/
def sign? : Rung → Symbol → Option UnaryOp
  | negation, .not => some .not
  | unary, .minus => some .neg
  | unary, .plus => some .pos
  | _, _ => none

end Rung

namespace Grammar

/-- The expression that a token is by itself. -/
def leaf? : Token.Kind → Option Expr
  | .name s => some (.reference s)
  | .int n => some (.literal (.int n))
  | .float x => some (.literal (.float x))
  | .str s => some (.literal (.str s))
  | .symbol _ | .stray _ => none

/-- A tree with the tokens that it is derived from. -/
abbrev Phrase := List Token.Kind × Expr

/-- The tokens of arguments with a comma before each. -/
def commaArgs (args : List Phrase) : List Token.Kind :=
  args.flatMap fun arg => .symbol .comma :: arg.1

/-- The tokens of arguments with commas between them. -/
def separated : List Phrase → List Token.Kind
  | [] => []
  | arg :: args => arg.1 ++ commaArgs args

/-- The tokens of a bound, which may be left out. -/
def slot (bound? : Option Phrase) : List Token.Kind := bound?.elim [] (·.1)

/-- The tokens of bounds with a colon before each. -/
def colonSlots (bounds : List (Option Phrase)) : List Token.Kind :=
  bounds.flatMap fun bound? => .symbol .colon :: slot bound?

end Grammar

open Grammar

/-- A rung derives a tree from tokens. -/
inductive Derives : Rung → List Token.Kind → Expr → Prop
  | tighter {r : Rung} {ts : List Token.Kind} {e : Expr} (h : Derives r.next ts e) :
      Derives r ts e
  | condition {test yes no : List Token.Kind} {c y n : Expr} (hc : Derives .disjunction test c)
      (hy : Derives .ternary yes y) (hn : Derives .ternary no n) :
      Derives .ternary (test ++ .symbol .question :: (yes ++ .symbol .colon :: no))
        (.ternary c y n)
  | link {r : Rung} {s : Symbol} {join : Expr → Expr → Expr} {left right : List Token.Kind}
      {l e : Expr} (operator : r.link? s = some join) (hl : Derives r left l)
      (hr : Derives r.next right e) : Derives r (left ++ .symbol s :: right) (join l e)
  | sign {r : Rung} {s : Symbol} {op : UnaryOp} {ts : List Token.Kind} {e : Expr}
      (operator : r.sign? s = some op) (h : Derives r.next ts e) :
      Derives r (.symbol s :: ts) (.unary op e)
  | power {base exponent : List Token.Kind} {b x : Expr} (hb : Derives .postfixed base b)
      (hx : Derives .power exponent x) :
      Derives .power (base ++ .symbol .doubleStar :: exponent) (.binary .pow b x)
  | access {ts : List Token.Kind} {e : Expr} {attr : String} (h : Derives .postfixed ts e) :
      Derives .postfixed (ts ++ [.symbol .dot, .name attr]) (.access e attr)
  | call {ts : List Token.Kind} {f : Expr} (args : List Phrase) (hf : Derives .postfixed ts f)
      (hargs : ∀ arg ∈ args, Derives .ternary arg.1 arg.2) :
      Derives .postfixed
        (ts ++ .symbol .leftParen :: (separated args ++ [.symbol .rightParen]))
        (.call f (args.map (·.2)))
  | item {ts keyTokens : List Token.Kind} {e key : Expr} (h : Derives .postfixed ts e)
      (hkey : Derives .ternary keyTokens key) :
      Derives .postfixed (ts ++ .symbol .leftBracket :: (keyTokens ++ [.symbol .rightBracket]))
        (.item e key)
  | slice {ts : List Token.Kind} {e : Expr} (start stop : Option Phrase)
      (h : Derives .postfixed ts e) (hstart : ∀ bound ∈ start, Derives .ternary bound.1 bound.2)
      (hstop : ∀ bound ∈ stop, Derives .ternary bound.1 bound.2) :
      Derives .postfixed
        (ts ++ .symbol .leftBracket ::
          (slot start ++ .symbol .colon :: (slot stop ++ [.symbol .rightBracket])))
        (.slice e (start.map (·.2)) (stop.map (·.2)) none)
  | steppedSlice {ts : List Token.Kind} {e : Expr} (start stop step : Option Phrase)
      (h : Derives .postfixed ts e) (hstart : ∀ bound ∈ start, Derives .ternary bound.1 bound.2)
      (hstop : ∀ bound ∈ stop, Derives .ternary bound.1 bound.2)
      (hstep : ∀ bound ∈ step, Derives .ternary bound.1 bound.2) :
      Derives .postfixed
        (ts ++ .symbol .leftBracket ::
          (slot start ++ .symbol .colon ::
            (slot stop ++ .symbol .colon :: (slot step ++ [.symbol .rightBracket]))))
        (.slice e (start.map (·.2)) (stop.map (·.2)) (step.map (·.2)))
  | group {ts : List Token.Kind} {e : Expr} (h : Derives .ternary ts e) :
      Derives .primary (.symbol .leftParen :: (ts ++ [.symbol .rightParen])) e
  | leaf {k : Token.Kind} {e : Expr} (h : leaf? k = some e) : Derives .primary [k] e

namespace Rung

/-- Whether a token can come first in what a rung derives. -/
def opens (r : Rung) : Token.Kind → Prop
  | .symbol .leftParen => True
  | .symbol .not => r.place ≤ negation.place
  | .symbol .minus | .symbol .plus => r.place ≤ unary.place
  | .symbol _ => False
  | _ => True

theorem place_le_next (r : Rung) : r.place ≤ r.next.place := by
  cases r <;> decide

theorem opens_of_next {r : Rung} {k : Token.Kind} (h : r.next.opens k) : r.opens k := by
  have := r.place_le_next
  unfold opens at h ⊢
  split <;> simp_all
  all_goals omega

theorem opens_of_sign {r : Rung} {s : Symbol} {op : UnaryOp} (h : r.sign? s = some op) :
    r.opens (.symbol s) := by
  unfold sign? at h
  split at h <;> simp_all [opens]

theorem opens_of_leaf {r : Rung} {k : Token.Kind} {e : Expr} (h : leaf? k = some e) :
    r.opens k := by
  cases k <;> simp_all [leaf?, opens]

end Rung

/-- What is derived begins with a token that can come first. -/
theorem Derives.opens {r : Rung} {ts : List Token.Kind} {e : Expr} (h : Derives r ts e) :
    ∃ k more, ts = k :: more ∧ r.opens k := by
  induction h with
  | tighter _ ih =>
    obtain ⟨k, more, rfl, hk⟩ := ih
    exact ⟨k, more, rfl, Rung.opens_of_next hk⟩
  | condition _ _ _ ihc =>
    obtain ⟨k, more, rfl, hk⟩ := ihc
    exact ⟨k, _, rfl, Rung.opens_of_next (r := .ternary) hk⟩
  | link _ _ _ ihl =>
    obtain ⟨k, more, rfl, hk⟩ := ihl
    exact ⟨k, _, rfl, hk⟩
  | sign operator _ _ => exact ⟨_, _, rfl, Rung.opens_of_sign operator⟩
  | power _ _ ihb =>
    obtain ⟨k, more, rfl, hk⟩ := ihb
    exact ⟨k, _, rfl, Rung.opens_of_next (r := .power) hk⟩
  | access _ ih | call _ _ _ ih | item _ _ ih | slice _ _ _ _ _ ih
  | steppedSlice _ _ _ _ _ _ _ ih =>
    obtain ⟨k, more, rfl, hk⟩ := ih
    exact ⟨k, _, rfl, hk⟩
  | group => exact ⟨_, _, rfl, trivial⟩
  | leaf h => exact ⟨_, _, rfl, Rung.opens_of_leaf h⟩

theorem Derives.ne_nil {r : Rung} {ts : List Token.Kind} {e : Expr} (h : Derives r ts e) :
    ts ≠ [] := by
  obtain ⟨k, more, rfl, -⟩ := h.opens
  simp

/-- What is derived does not begin with a symbol that cannot come first. -/
theorem Derives.head?_ne {r : Rung} {ts : List Token.Kind} {e : Expr} {s : Symbol}
    (h : Derives r ts e) (hs : ¬r.opens (.symbol s)) (rest : List Token.Kind) :
    (ts ++ rest).head? ≠ some (.symbol s) := by
  obtain ⟨k, more, rfl, hk⟩ := h.opens
  rintro ⟨⟩
  exact hs hk

/-- A looser rung derives what a tighter one does. -/
theorem Derives.widen {r r' : Rung} {ts : List Token.Kind} {e : Expr} (h : Derives r ts e)
    (hPlace : r'.place ≤ r.place) : Derives r' ts e := by
  induction hSteps : r.place - r'.place generalizing r' with
  | zero =>
    have hSame : r' = r := by
      have : r'.place = r.place := by omega
      revert this
      cases r' <;> cases r <;> decide
    exact hSame ▸ h
  | succ n ih =>
    have hNext : r'.next.place = r'.place + 1 := by
      cases r' <;> first | rfl | (cases r <;> simp [Rung.place] at hSteps)
    exact .tighter (ih (by omega) (by omega))

end Formula
