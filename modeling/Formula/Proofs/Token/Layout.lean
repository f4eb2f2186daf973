import Formula.Proofs.Token.LongestMatch

/-! White space between tokens. A token is read from its own text wherever white space or the end of
the source follows, so a source can be laid out anew: the tokens stay the same, each where its text
now stands. -/

namespace Formula

/-- The characters of `source` that a span covers. -/
def Span.text (source : List Char) (s : Span) : List Char := (source.drop s.start).take s.length

theorem Span.text_append (before text after : List Char) :
    Span.text (before ++ (text ++ after)) ⟨before.length, before.length + text.length⟩ = text := by
  rw [Span.text, List.drop_left]
  apply List.take_left'
  simp [Span.length]

namespace Text

theorem exists_range {c : Char} {ranges : List (Nat × Nat)} (h : inRanges c ranges) :
    ∃ range ∈ ranges, range.1 ≤ c.toNat ∧ c.toNat ≤ range.2 := by
  induction ranges with
  | nil => cases h
  | cons range ranges ih =>
    obtain ⟨hFirst, hRest⟩ := Bool.and_eq_true_iff.mp h
    rcases Bool.or_eq_true_iff.mp hRest with hLast | hLater
    · exact ⟨range, List.mem_cons_self, of_decide_eq_true hFirst, of_decide_eq_true hLast⟩
    · obtain ⟨range', hMem, hBounds⟩ := ih hLater
      exact ⟨range', List.mem_cons_of_mem _ hMem, hBounds⟩

/-- White space is no part of a name, a number or a symbol. -/
theorem isBlank_facts {c : Char} (h : isBlank c) :
    continuesName c = false ∧ c.isDigit = false ∧ c ≠ '.' ∧ c ≠ '=' ∧ c ≠ '*' ∧ c ≠ '/' := by
  have hCodes : ∀ range ∈ blankRanges, ∀ n ∈ List.range' range.1 (range.2 + 1 - range.1),
      continuesName (Char.ofNat n) = false ∧ (Char.ofNat n).isDigit = false ∧ Char.ofNat n ≠ '.' ∧
        Char.ofNat n ≠ '=' ∧ Char.ofNat n ≠ '*' ∧ Char.ofNat n ≠ '/' := by
    decide +kernel
  obtain ⟨range, hMem, hFirst, hLast⟩ := exists_range h
  have hCode : c.toNat ∈ List.range' range.1 (range.2 + 1 - range.1) := by
    rw [List.mem_range'_1]
    omega
  rw [← Char.ofNat_toNat c]
  exact hCodes range hMem c.toNat hCode

end Text

namespace Lexer

open Token

variable {c : Char} {body rest text cs : List Char} {kind : Kind} {start : Nat}

theorem endsAt_of_isBlank (kind : Kind) (h : Text.isBlank c) : kind.endsAt c := by
  obtain ⟨hName, hDigit, hPoint, hEqual, hStar, hSlash⟩ := Text.isBlank_facts h
  cases kind <;> simp [Kind.endsAt, hName, hDigit, hPoint, hEqual, hStar, hSlash]

/-! ### One token -/

theorem lexeme_of_counts (h : Counts (c :: body) kind)
    (hRange : ∀ n, kind = .int n → n ≤ Numeral.maxInt) (hEnd : ∀ d ∈ rest.head?, kind.endsAt d) :
    number c (body ++ rest) = .token kind body.length := by
  cases h with
  | whole hDigits =>
    apply number_whole (List.forall_mem_cons.mp hDigits).2
    · intro d hd
      simpa [Kind.endsAt] using hEnd d hd
    · exact hRange _ rfl
  | point hDigits hFraction =>
    apply number_point (List.forall_mem_cons.mp hDigits).2 hFraction
    intro d hd
    simpa [Kind.endsAt] using hEnd d hd

/-- A token is read from its text, if no character follows that could be a part of it. -/
theorem lexeme_of_spells (h : Spells (c :: body) kind)
    (hRange : ∀ n, kind = .int n → n ≤ Numeral.maxInt) (hEnd : ∀ d ∈ rest.head?, kind.endsAt d) :
    lexeme c (body ++ rest) = .token kind body.length := by
  rcases h.forms with ⟨hStarts, hContinues, rfl⟩ | ⟨-, hQuote, text, hInner, rfl⟩ |
    ⟨-, -, hDigit, hCounts⟩ | ⟨hStarts, hQuote, hDigit, s, hText, rfl⟩
  · have hSpan := span_exact hContinues rest fun d hd => by simpa [Kind.endsAt] using hEnd d hd
    rw [lexeme, if_pos hStarts, hSpan.1]
  · exact lexeme_quote hQuote (quotedText_of_quotes hQuote hInner rest)
  · rw [lexeme_digit hDigit]
    exact lexeme_of_counts hCounts hRange hEnd
  · rw [lexeme_symbol hStarts hQuote hDigit, ← List.cons_append, ← hText, symbol?_append hEnd]
    show Lexeme.token _ (s.text.length - 1) = _
    rw [← String.length_toList, hText]
    rfl

theorem isBlank_of_spells (h : Spells (c :: body) kind) : Text.isBlank c = false := by
  rcases h.forms with ⟨hStarts, -⟩ | ⟨-, hQuote, -⟩ | ⟨-, -, hDigit, -⟩ | ⟨-, -, -, s, hText, -⟩
  · by_contra hBlank
    have hName := (Text.isBlank_facts (by simpa using hBlank)).1
    simp only [Text.continuesName, Bool.or_eq_false_iff] at hName
    simp [Text.startsName, hName] at hStarts
  · exact hQuote.isBlank
  · exact (digit_facts hDigit).1
  · obtain ⟨d, more, hFirst, hBlank, -⟩ := symbol_first s
    obtain ⟨rfl, -⟩ := List.cons.inj (hText.symm.trans hFirst)
    exact hBlank

/-- What `scan` gives for the text of a token and what follows it. -/
theorem scan_token (h : Spells text kind) (hRange : ∀ n, kind = .int n → n ≤ Numeral.maxInt)
    (hEnd : ∀ d ∈ rest.head?, kind.endsAt d) :
    scan start (text ++ rest) = (scan (start + text.length) rest).map fun (tokens, unknown) =>
      (⟨kind, ⟨start, start + text.length⟩⟩ :: tokens, unknown) := by
  cases text with
  | nil => exact absurd h not_spells_nil
  | cons c body =>
    have hStop : start + (c :: body).length = start + 1 + body.length := by
      rw [List.length_cons]
      omega
    rw [List.cons_append, scan, if_neg (by simp [isBlank_of_spells h]),
      lexeme_of_spells h hRange hEnd, hStop]
    simp only [List.drop_left]

theorem scan_blank (h : ∀ c ∈ cs, Text.isBlank c) (rest : List Char) :
    scan start (cs ++ rest) = scan (start + cs.length) rest := by
  induction cs generalizing start with
  | nil => rfl
  | cons c cs ih =>
    obtain ⟨hFirst, hRest⟩ := List.forall_mem_cons.mp h
    rw [List.cons_append, scan, if_pos hFirst, ih hRest, List.length_cons]
    congr 1
    omega

/-! ### Texts of tokens with white space between them -/

/-- Texts with `gap 0` in front of the first one, `gap 1` behind it, and so on. -/
def laidOut (gap : Nat → List Char) : List (List Char) → List Char
  | [] => gap 0
  | text :: texts => gap 0 ++ text ++ laidOut (fun i => gap (i + 1)) texts

/-- A text stands behind those before it. -/
theorem laidOut_eq {gap : Nat → List Char} {texts : List (List Char)} {i : Nat} {text : List Char}
    (h : texts[i]? = some text) :
    ∃ after, laidOut gap texts = laidOut gap (texts.take i) ++ (text ++ after) := by
  induction texts generalizing gap i with
  | nil => cases h
  | cons first texts ih =>
    cases i with
    | zero =>
      cases h
      refine ⟨laidOut (fun i => gap (i + 1)) texts, ?_⟩
      rw [laidOut, List.append_assoc]
      rfl
    | succ i =>
      obtain ⟨after, hAfter⟩ := @ih (fun i => gap (i + 1)) i h
      refine ⟨after, ?_⟩
      rw [laidOut, hAfter, List.take_succ_cons, laidOut]
      simp only [List.append_assoc]

/-- White space that keeps `n` tokens apart. -/
structure Spaces (gap : Nat → List Char) (n : Nat) : Prop where
  blank : ∀ i ≤ n, ∀ c ∈ gap i, Text.isBlank c
  apart : ∀ i, 0 < i → i < n → gap i ≠ []

variable {gap : Nat → List Char} {n : Nat} {found : List Token} {texts : List (List Char)}

theorem Spaces.tail (h : Spaces gap (n + 1)) : Spaces (fun i => gap (i + 1)) n where
  blank i hi := h.blank (i + 1) (by omega)
  apart i hPos hi := h.apart (i + 1) (by omega) (by omega)

/-- Behind a text, white space or the end follows. -/
theorem Spaces.isBlank_head? (texts : List (List Char)) (h : Spaces gap (texts.length + 1)) :
    ∀ d ∈ (laidOut (fun i => gap (i + 1)) texts).head?, Text.isBlank d := by
  intro d hd
  have hGap : d ∈ gap 1 := by
    cases texts with
    | nil => exact List.mem_of_head? hd
    | cons text texts =>
      obtain ⟨c, more, hGap⟩ := List.exists_cons_of_ne_nil (h.apart 1 (by omega) (by simp))
      simp only [laidOut, hGap] at hd
      cases hd
      rw [hGap]
      exact List.mem_cons_self
  exact h.blank 1 (by omega) d hGap

/-- The tokens with the spans that their texts have when these are laid out from `start` on. -/
def placed (gap : Nat → List Char) (text : Token → List Char) (start : Nat) :
    List Token → List Token
  | [] => []
  | t :: found =>
    let first := start + (gap 0).length
    ⟨t.kind, ⟨first, first + (text t).length⟩⟩ ::
      placed (fun i => gap (i + 1)) text (first + (text t).length) found

theorem kinds_placed (gap : Nat → List Char) (text : Token → List Char) (start : Nat)
    (found : List Token) : (placed gap text start found).map (·.kind) = found.map (·.kind) := by
  induction found generalizing gap start with
  | nil => rfl
  | cons t found ih => rw [placed, List.map_cons, List.map_cons, ih]

/-- Each token is placed behind the texts before it and the white space up to its own. -/
theorem getElem?_placed {text : Token → List Char} {i : Nat} :
    (placed gap text start found)[i]? = found[i]?.map fun t =>
      let first := start + (laidOut gap ((found.map text).take i)).length
      ⟨t.kind, ⟨first, first + (text t).length⟩⟩ := by
  induction found generalizing gap start i with
  | nil => rfl
  | cons t found ih =>
    cases i with
    | zero => rfl
    | succ i =>
      rw [placed, List.getElem?_cons_succ, List.getElem?_cons_succ, ih, List.map_cons,
        List.take_succ_cons, laidOut]
      simp only [List.length_append, Nat.add_assoc]

/-- Texts of tokens that are laid out with white space between them are read as these tokens. -/
theorem scan_laidOut {text : Token → List Char} (hSpaces : Spaces gap found.length)
    (hSpells : ∀ t ∈ found, Spells (text t) t.kind)
    (hRange : ∀ t ∈ found, ∀ n, t.kind = .int n → n ≤ Numeral.maxInt) :
    scan start (laidOut gap (found.map text)) = .ok (placed gap text start found, []) := by
  induction found generalizing gap start with
  | nil =>
    show scan start (gap 0) = _
    rw [← List.append_nil (gap 0), scan_blank (hSpaces.blank 0 (Nat.le_refl _)), scan]
    rfl
  | cons t found ih =>
    obtain ⟨hFirst, hRest⟩ := List.forall_mem_cons.mp hSpells
    obtain ⟨hRangeFirst, hRangeRest⟩ := List.forall_mem_cons.mp hRange
    have hHead := Spaces.isBlank_head? (found.map text) (by simpa using hSpaces)
    rw [List.map_cons, laidOut, List.append_assoc, scan_blank (hSpaces.blank 0 (Nat.zero_le _)),
      scan_token hFirst hRangeFirst fun d hd => endsAt_of_isBlank _ (hHead d hd),
      ih hSpaces.tail hRest hRangeRest]
    rfl

/-! ### Sources -/

/-- The characters that the span of a token covers are a text of the token. -/
theorem Cuts.spells {parts : List Part} (h : Cuts start cs parts) :
    ∀ before : List Char, before.length = start → ∀ t, .token t ∈ parts →
      Spells (t.span.text (before ++ cs)) t.kind := by
  induction h with
  | done => nofun
  | @blank start c rest parts _ _ ih =>
    intro before hLength t hMem
    have hSpells := ih (before ++ [c]) (by simp [hLength]) t hMem
    rwa [List.append_assoc] at hSpells
  | @token start c body rest kind parts _ hLongest _ ih =>
    intro before hLength t hMem
    obtain ⟨more, rfl⟩ := (List.cons_prefix_cons.mp hLongest.starts).2
    rcases List.mem_cons.mp hMem with hFirst | hLater
    · cases hFirst
      have hStop : start + 1 + body.length = before.length + (c :: body).length := by
        rw [List.length_cons]
        omega
      rw [hStop, ← hLength, ← List.cons_append, Span.text_append]
      exact hLongest.spells
    · have hSpells := ih (before ++ c :: body) (by simp [hLength]; omega) t hLater
      rwa [List.drop_left, List.append_assoc, List.cons_append] at hSpells
  | @stray start c rest parts _ _ _ ih =>
    intro before hLength t hMem
    rcases List.mem_cons.mp hMem with hFirst | hLater
    · cases hFirst
    · have hSpells := ih (before ++ [c]) (by simp [hLength]) t hLater
      rwa [List.append_assoc] at hSpells

theorem spells_text {source : List Char} (h : tokens source = .ok found) :
    (∀ t ∈ found, Spells (t.span.text source) t.kind) ∧
      ∀ t ∈ found, ∀ n, t.kind = .int n → n ≤ Numeral.maxInt := by
  obtain ⟨parts, hCuts, -⟩ := exists_cuts 0 source
  obtain ⟨rfl, hRange⟩ := (tokens_eq_ok hCuts).mp h
  refine ⟨fun t hMem => ?_, hRange⟩
  exact hCuts.spells [] rfl t (List.mem_map_of_mem hMem)

/-- A source that is laid out anew has the same tokens, each where its text stands now. -/
theorem tokens_laidOut {source : List Char} (h : tokens source = .ok found)
    (hSpaces : Spaces gap found.length) :
    tokens (laidOut gap (found.map (·.span.text source))) =
      .ok (placed gap (·.span.text source) 0 found) := by
  obtain ⟨hSpells, hRange⟩ := spells_text h
  rw [tokens, scan_laidOut hSpaces hSpells hRange]

end Lexer

end Formula
