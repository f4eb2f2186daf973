import Formula.Proofs.Token.LongestMatch

/-! A source that breaks off. Up to a place that is not inside a token, it has the tokens that end
there at the latest. Inside quoted text, that text is the first thing that does not end. -/

namespace Formula

/-- Whether the characters of a span stand on both sides of a place. -/
def Span.Inside (s : Span) (cut : Nat) : Prop := s.start < cut ∧ cut < s.stop

namespace Lexer

open Token Text

variable {c : Char} {cs rest body text : List Char} {kind : Kind} {start n : Nat}
  {parts : List Part}

/-! ### One part -/

/-- The longest text of a token that is not cut remains the longest. -/
theorem IsLongest.take (h : IsLongest text kind cs) (hLength : text.length ≤ n) :
    IsLongest text kind (cs.take n) where
  starts := List.prefix_take_iff.mpr ⟨h.starts, hLength⟩
  spells := h.spells
  longest text' kind' hText := h.longest text' kind' (hText.trans (List.take_prefix n cs))

theorem StartsNone.take (h : StartsNone cs) (n : Nat) : StartsNone (cs.take n) :=
  fun text kind hText => h text kind (hText.trans (List.take_prefix n cs))

/-- Quoted text ends at one place only. -/
theorem Quotes.length_eq {quote : Char} {cs' text' : List Char} (hQuote : IsQuote quote)
    (h : Quotes quote cs text) (h' : Quotes quote cs' text') (hPrefix : cs' <+: cs) :
    cs'.length = cs.length := by
  obtain ⟨after, rfl⟩ := hPrefix
  have hRead := quotedText_of_quotes hQuote h []
  rw [List.append_nil, quotedText_of_quotes hQuote h', Option.some_inj, Prod.mk.injEq] at hRead
  exact hRead.2

/-- No token stands where quoted text breaks off. -/
theorem startsNone_take (hQuote : IsQuote c) (h : Quotes c body text) (hn : n < body.length) :
    StartsNone (c :: body.take n) := by
  apply startsNone_of_cons
  intro text' kind' hText hSpells
  obtain ⟨inner, hInner⟩ := hSpells.quotes hQuote
  obtain ⟨hPrefix, hLength⟩ := List.prefix_take_iff.mp hText
  have hSame := h.length_eq hQuote hInner hPrefix
  omega

/-- What is read as a text starts with a quote. -/
theorem isQuote_of_spells {s : String} (h : Spells (c :: body) (.str s)) : IsQuote c := by
  rcases h.forms with ⟨-, -, hName⟩ | ⟨-, hQuote, -⟩ | ⟨-, -, -, hCounts⟩ |
    ⟨-, -, -, symbol, -, hSymbol⟩
  · cases hName
  · exact hQuote
  · cases hCounts
  · cases hSymbol

/-! ### All parts -/

/-- The offset behind the last character. -/
def Part.stop : Part → Nat
  | .token t => t.span.stop
  | .stray _ offset => offset + 1

theorem Cuts.lt_stop (h : Cuts start cs parts) : ∀ part ∈ parts, start < part.stop := by
  induction h with
  | done => nofun
  | blank _ _ ih =>
    intro part hPart
    have hLater := ih part hPart
    omega
  | token _ _ _ ih | stray _ _ _ ih =>
    refine List.forall_mem_cons.mpr ⟨by simp only [Part.stop]; omega, fun part hPart => ?_⟩
    have hLater := ih part hPart
    omega

/-- Nothing is left of a text that breaks off at its start. -/
theorem Cuts.take_zero (h : Cuts start cs parts) :
    Cuts start (cs.take 0) (parts.filter (·.stop ≤ start + 0)) := by
  have hNone : parts.filter (·.stop ≤ start + 0) = [] := by
    rw [List.filter_eq_nil_iff]
    intro part hPart
    have hLater := h.lt_stop part hPart
    rw [decide_eq_true_eq]
    omega
  rw [hNone]
  exact .done

/-- A text that breaks off behind its first token still has it. -/
theorem Cuts.take_token (hVisible : isBlank c = false)
    (hLongest : IsLongest (c :: body) kind (c :: rest)) (hLength : body.length ≤ n)
    (hLater : Cuts (start + 1 + body.length) ((rest.drop body.length).take (n - body.length))
      parts) :
    Cuts start ((c :: rest).take (n + 1))
      (.token ⟨kind, ⟨start, start + 1 + body.length⟩⟩ :: parts) := by
  rw [← List.drop_take] at hLater
  exact .token hVisible (hLongest.take (Nat.succ_le_succ hLength)) hLater

/-- Up to a place that is not inside a token, a text has the parts that end there at the latest. -/
theorem Cuts.take (h : Cuts start cs parts)
    (hOutside : ∀ t, .token t ∈ parts → ¬t.span.Inside (start + n)) :
    Cuts start (cs.take n) (parts.filter (·.stop ≤ start + n)) := by
  induction h generalizing n with
  | done =>
    rw [List.take_nil]
    exact .done
  | @blank start c rest parts hBlank hLater ih =>
    cases n with
    | zero => exact (Cuts.blank hBlank hLater).take_zero
    | succ n =>
      have hPlace : start + (n + 1) = start + 1 + n := by omega
      rw [hPlace] at hOutside ⊢
      exact .blank hBlank (ih hOutside)
  | @token start c body rest kind parts hVisible hLongest hLater ih =>
    cases n with
    | zero => exact (Cuts.token hVisible hLongest hLater).take_zero
    | succ n =>
      have hLength : body.length ≤ n := by
        by_contra hCut
        apply hOutside _ List.mem_cons_self
        constructor <;> simp only [] <;> omega
      have hPlace : start + (n + 1) = start + 1 + body.length + (n - body.length) := by omega
      have hStop : start + 1 + body.length ≤ start + (n + 1) := by omega
      rw [List.filter_cons_of_pos (by exact decide_eq_true hStop)]
      rw [hPlace] at hOutside ⊢
      apply Cuts.take_token hVisible hLongest hLength
      exact ih fun t hMem => hOutside t (List.mem_cons_of_mem _ hMem)
  | @stray start c rest parts hVisible hNone hLater ih =>
    cases n with
    | zero => exact (Cuts.stray hVisible hNone hLater).take_zero
    | succ n =>
      have hPlace : start + (n + 1) = start + 1 + n := by omega
      rw [hPlace] at hOutside ⊢
      rw [List.filter_cons_of_pos (by simp [Part.stop])]
      apply Cuts.stray hVisible (hNone.take (n + 1))
      exact ih fun t hMem => hOutside t (List.mem_cons_of_mem _ hMem)

/-- Inside quoted text, a text has the parts in front of it, and then no token starts at the
quote. -/
theorem Cuts.take_quoted {before after : List Part} {t : Token} {s : String}
    (h : Cuts start cs parts) (hParts : parts = before ++ .token t :: after)
    (hKind : t.kind = .str s) (hInside : t.span.Inside (start + n)) :
    ∃ quote later, IsQuote quote ∧
      Cuts start (cs.take n) (before ++ Part.stray quote t.span.start :: later) := by
  induction h generalizing n before with
  | done => simp at hParts
  | @blank start c rest parts hBlank hLater ih =>
    have hStart := (hLater.bounds (.token t) (by simp [hParts])).1.trans_lt hInside.1
    obtain ⟨n, rfl⟩ : ∃ m, n = m + 1 := ⟨n - 1, by omega⟩
    have hPlace : start + (n + 1) = start + 1 + n := by omega
    rw [hPlace] at hInside
    obtain ⟨quote, later, hQuote, hCuts⟩ := ih hParts hInside
    exact ⟨quote, later, hQuote, .blank hBlank hCuts⟩
  | @token start c body rest kind parts hVisible hLongest hLater ih =>
    cases before with
    | nil =>
      cases hParts
      subst hKind
      have hQuote := isQuote_of_spells hLongest.spells
      obtain ⟨text, hInner⟩ := hLongest.spells.quotes hQuote
      obtain ⟨hLow, hHigh⟩ := hInside
      simp only [] at hLow hHigh
      obtain ⟨n, rfl⟩ : ∃ m, n = m + 1 := ⟨n - 1, by omega⟩
      have hBody : rest.take n = body.take n := by
        obtain ⟨after, rfl⟩ := (List.cons_prefix_cons.mp hLongest.starts).2
        exact List.take_append_of_le_length (by omega)
      obtain ⟨later, hLater, -⟩ := exists_cuts (start + 1) (body.take n)
      refine ⟨c, later, hQuote, ?_⟩
      rw [List.take_succ_cons, hBody]
      exact .stray hVisible (startsNone_take hQuote hInner (by omega)) hLater
    | cons first before =>
      obtain ⟨rfl, rfl⟩ := List.cons.inj hParts
      have hStart := (hLater.bounds (.token t) (by simp)).1.trans_lt hInside.1
      obtain ⟨n, rfl⟩ : ∃ m, n = m + 1 := ⟨n - 1, by omega⟩
      have hPlace : start + (n + 1) = start + 1 + body.length + (n - body.length) := by omega
      rw [hPlace] at hInside
      obtain ⟨quote, later, hQuote, hCuts⟩ := ih rfl hInside
      exact ⟨quote, later, hQuote, .take_token hVisible hLongest (by omega) hCuts⟩
  | @stray start c rest parts hVisible hNone hLater ih =>
    cases before with
    | nil => cases hParts
    | cons first before =>
      obtain ⟨rfl, rfl⟩ := List.cons.inj hParts
      have hStart := (hLater.bounds (.token t) (by simp)).1.trans_lt hInside.1
      obtain ⟨n, rfl⟩ : ∃ m, n = m + 1 := ⟨n - 1, by omega⟩
      have hPlace : start + (n + 1) = start + 1 + n := by omega
      rw [hPlace] at hInside
      obtain ⟨quote, later, hQuote, hCuts⟩ := ih rfl hInside
      exact ⟨quote, later, hQuote, .stray hVisible (hNone.take (n + 1)) hCuts⟩

/-! ### Sources -/

variable {source : List Char} {found : List Token} {cut : Nat}

/-- Whether a place is inside quoted text. -/
def InText (found : List Token) (cut : Nat) : Prop :=
  ∃ t ∈ found, (∃ s, t.kind = .str s) ∧ t.span.Inside cut

/-- Whether a place is inside a token. -/
def InToken (found : List Token) (cut : Nat) : Prop := ∃ t ∈ found, t.span.Inside cut

/-- A source that breaks off between tokens has those in front of that place. -/
theorem tokens_take (h : tokens source = .ok found) (hOutside : ¬InToken found cut) :
    tokens (source.take cut) = .ok (found.filter (·.span.stop ≤ cut)) := by
  obtain ⟨parts, hCuts, -⟩ := exists_cuts 0 source
  obtain ⟨rfl, hRange⟩ := (tokens_eq_ok hCuts).mp h
  have hTaken : Cuts 0 (source.take cut) ((found.map .token).filter (·.stop ≤ 0 + cut)) := by
    apply hCuts.take
    intro t hPart hInside
    obtain ⟨t, hMem, hSame⟩ := List.mem_map.mp hPart
    cases hSame
    rw [Nat.zero_add] at hInside
    exact hOutside ⟨t, hMem, hInside⟩
  rw [Nat.zero_add, List.filter_map] at hTaken
  rw [tokens_eq_ok hTaken]
  exact ⟨rfl, fun t hMem => hRange t (List.mem_filter.mp hMem).1⟩

/-- A source that breaks off inside quoted text is reported at that text. -/
theorem tokens_take_quoted (h : tokens source = .ok found) {t : Token} {s : String}
    (hMem : t ∈ found) (hKind : t.kind = .str s) (hInside : t.span.Inside cut) :
    tokens (source.take cut) = .error (.unterminated t.span.start) := by
  obtain ⟨parts, hCuts, -⟩ := exists_cuts 0 source
  obtain ⟨rfl, hRange⟩ := (tokens_eq_ok hCuts).mp h
  obtain ⟨before, after, rfl⟩ := List.append_of_mem hMem
  rw [← Nat.zero_add cut] at hInside
  obtain ⟨quote, later, hQuote, hTaken⟩ :=
    hCuts.take_quoted (List.map_append ..) hKind hInside
  rw [tokens_eq_error hTaken]
  have hBefore : (before.map Part.token).findSome? Part.fault? = none :=
    findSome?_map_token.mpr fun t hMem => hRange t (List.mem_append_left _ hMem)
  have hFault : (Part.stray quote t.span.start).fault? = some (.unterminated t.span.start) :=
    if_pos hQuote
  left
  rw [List.findSome?_append, hBefore, List.findSome?_cons, hFault]
  rfl

end Lexer

end Formula
