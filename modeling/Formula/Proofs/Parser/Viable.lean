import Formula.Proofs.Parser.Completeness

/-! Tokens that an expression begins with. Any symbol that can come after an operand goes on with
any expression. -/

namespace Formula

open Token

namespace Grammar

/-- Tokens that form an expression. -/
def Accepted (kinds : List Kind) : Prop := ∃ e, Derives .ternary kinds e

/-- Tokens that an expression begins with. -/
def Viable (kinds : List Kind) : Prop := ∃ more, Accepted (kinds ++ more)

variable {ts : List Kind}

theorem Accepted.viable (h : Accepted ts) : Viable ts := ⟨[], by rwa [List.append_nil]⟩

theorem Viable.of_append (us : List Kind) (h : Viable (ts ++ us)) : Viable ts := by
  obtain ⟨more, e, he⟩ := h
  exact ⟨us ++ more, e, by rwa [← List.append_assoc]⟩

end Grammar

open Grammar

theorem Rung.next_place_le {r r' : Rung} (hne : r' ≠ r) (h : r.place ≤ r'.place) :
    r.next.place ≤ r'.place := by
  revert hne h
  cases r <;> cases r' <;> decide

/-- A name is an operand of every rung. -/
theorem derives_name (r : Rung) (s : String) : Derives r [.name s] (.reference s) :=
  (Derives.leaf rfl).widen (by cases r <;> decide)

namespace Derives

variable {r r' : Rung} {ts : List Kind} {e : Expr} {s : Symbol}

/-- What groups to the left goes on at the symbols of its rung. -/
theorem extend (h : Derives r ts e) (hs : Rung.follows? s = some r) (hTernary : r ≠ .ternary)
    (hPower : r ≠ .power) : ∃ more e', Derives r (ts ++ Kind.symbol s :: more) e' := by
  cases s with
  | question => cases hs; exact absurd rfl hTernary
  | doubleStar => cases hs; exact absurd rfl hPower
  | dot => cases hs; exact ⟨[.name "x"], _, .access h⟩
  | leftBracket =>
    cases hs
    exact ⟨[.name "x", .symbol .rightBracket], _, .item h (derives_name _ "x")⟩
  | leftParen => cases hs; exact ⟨[.symbol .rightParen], _, .call [] h nofun⟩
  | not | colon | comma | rightParen | rightBracket => cases hs
  | _ => cases hs; exact ⟨[.name "x"], _, .link rfl h (derives_name _ "x")⟩

theorem extend_postfixed (h : Derives .postfixed ts e) (hs : Rung.follows? s = some r')
    (hPlace : Rung.postfixed.place ≤ r'.place) :
    ∃ more e', Derives .postfixed (ts ++ Kind.symbol s :: more) e' := by
  refine h.extend ?_ nofun nofun
  cases s <;> cases hs <;> first | rfl | exact absurd hPlace (by decide)

/-- An expression goes on at every symbol that can come after an operand: the last operand in it
that the symbol can follow takes the symbol. -/
theorem continued (h : Derives r ts e) (hs : Rung.follows? s = some r')
    (hPlace : r.place ≤ r'.place) : ∃ more e', Derives r (ts ++ Kind.symbol s :: more) e' := by
  induction h with
  | @tighter r ts e h ih =>
    by_cases hSame : r' = r
    · subst hSame
      by_cases hTernary : r' = .ternary
      · subst hTernary
        obtain rfl : s = .question := by cases s <;> first | rfl | cases hs
        exact ⟨[.name "x", .symbol .colon, .name "x"], _,
          .condition h (derives_name _ "x") (derives_name _ "x")⟩
      · by_cases hPower : r' = .power
        · subst hPower
          obtain rfl : s = .doubleStar := by cases s <;> first | rfl | cases hs
          exact ⟨[.name "x"], _, .power h (derives_name _ "x")⟩
        · exact h.tighter.extend hs hTernary hPower
    · obtain ⟨more, e', he⟩ := ih (Rung.next_place_le hSame hPlace)
      exact ⟨more, e', he.tighter⟩
  | condition hc hy _ _ _ ihn =>
    obtain ⟨more, e', he⟩ := ihn (Nat.zero_le _)
    exact ⟨more, _, by simpa using Derives.condition hc hy he⟩
  | @link r t join left right l e operator hl hr _ ihr =>
    by_cases hSame : r' = r
    · subst hSame
      refine (Derives.link operator hl hr).extend hs ?_ ?_ <;> rintro rfl <;> cases operator
    · obtain ⟨more, e', he⟩ := ihr (Rung.next_place_le hSame hPlace)
      exact ⟨more, _, by simpa using Derives.link operator hl he⟩
  | @sign r t op ts e operator _ ih =>
    have hOther : r' ≠ r := by
      rintro rfl
      cases s <;> cases hs <;> cases operator
    obtain ⟨more, e', he⟩ := ih (Rung.next_place_le hOther hPlace)
    exact ⟨more, _, .sign operator he⟩
  | power hb _ _ ihx =>
    obtain ⟨more, e', he⟩ := ihx hPlace
    exact ⟨more, _, by simpa using Derives.power hb he⟩
  | access h _ => exact h.access.extend_postfixed hs hPlace
  | call args hf hargs _ _ => exact (Derives.call args hf hargs).extend_postfixed hs hPlace
  | item h hkey _ _ => exact (Derives.item h hkey).extend_postfixed hs hPlace
  | slice start stop h hstart hstop _ _ _ =>
    exact (Derives.slice start stop h hstart hstop).extend_postfixed hs hPlace
  | steppedSlice start stop step h hstart hstop hstep _ _ _ _ =>
    exact (Derives.steppedSlice start stop step h hstart hstop hstep).extend_postfixed hs hPlace
  | group | leaf => cases s <;> cases hs <;> exact absurd hPlace (by decide)

end Derives

end Formula
