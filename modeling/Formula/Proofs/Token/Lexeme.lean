import Formula.Proofs.Token.Written

/-! The texts of tokens. At the start of a source, `lexeme` takes the longest of them, and finds
none only where there is none. -/

namespace Formula.Lexer

open Token Text

/-- Quoted text behind its opening `quote`, up to and with the closing one, and what it stands for:
a backslash in front of a quote makes it part of the text, and any other character stands for
itself. -/
inductive Quotes (quote : Char) : List Char → List Char → Prop
  | close : Quotes quote [quote] []
  | escape {cs text : List Char} (inner : Quotes quote cs text) :
      Quotes quote ('\\' :: quote :: cs) (quote :: text)
  | keep {c : Char} {cs text : List Char} (ne_quote : c ≠ quote)
      (escapes_none : c = '\\' → cs.head? ≠ some quote) (inner : Quotes quote cs text) :
      Quotes quote (c :: cs) (c :: text)

/-- The text of a number, and the number: digits, or digits around a point, of which those behind
it may be missing. -/
inductive Counts : List Char → Kind → Prop
  | whole {c : Char} {cs : List Char} (digits : ∀ d ∈ c :: cs, d.isDigit) :
      Counts (c :: cs) (.int (Nat.ofDigitChars 10 (c :: cs) 0))
  | point {c : Char} {whole fraction : List Char} (digits : ∀ d ∈ c :: whole, d.isDigit)
      (fractional : ∀ d ∈ fraction, d.isDigit) :
      Counts (c :: (whole ++ '.' :: fraction))
        (.float ((Decimal.ofDigits (c :: whole) fraction 0).toDouble false))

/-- The text of a token, and what the token is. A whole number may be of any size. -/
inductive Spells : List Char → Kind → Prop
  | name {c : Char} {cs : List Char} (starts : startsName c)
      (continues : ∀ d ∈ cs, continuesName d) :
      Spells (c :: cs) (.name (String.ofList (c :: cs)))
  | quoted {quote : Char} {cs text : List Char} (isQuote : IsQuote quote)
      (inner : Quotes quote cs text) : Spells (quote :: cs) (.str (String.ofList text))
  | number {cs : List Char} {kind : Kind} (counts : Counts cs kind) : Spells cs kind
  | symbol (s : Symbol) : Spells s.text.toList (.symbol s)

/-- The longest text of a token at the start of `cs`, and the token. -/
structure IsLongest (text : List Char) (kind : Kind) (cs : List Char) : Prop where
  starts : text <+: cs
  spells : Spells text kind
  longest : ∀ text' kind', text' <+: cs → Spells text' kind' → text'.length ≤ text.length

/-- No text of a token stands at the start of `cs`. -/
def StartsNone (cs : List Char) : Prop := ∀ text kind, text <+: cs → ¬Spells text kind

variable {c : Char} {cs rest text : List Char} {kind kind' : Kind}

/-! ### Texts by their first character -/

theorem Counts.first (h : Counts cs kind) : ∃ c body, cs = c :: body ∧ c.isDigit := by
  cases h with
  | whole hDigits | point hDigits => exact ⟨_, _, rfl, hDigits _ List.mem_cons_self⟩

/-- The first character of a text decides which of the four forms it has. -/
theorem Spells.forms (h : Spells (c :: cs) kind) :
    (startsName c ∧ (∀ d ∈ cs, continuesName d) ∧ kind = .name (String.ofList (c :: cs))) ∨
    (startsName c = false ∧ IsQuote c ∧
      ∃ text, Quotes c cs text ∧ kind = .str (String.ofList text)) ∨
    (startsName c = false ∧ ¬IsQuote c ∧ c.isDigit ∧ Counts (c :: cs) kind) ∨
    (startsName c = false ∧ ¬IsQuote c ∧ c.isDigit = false ∧
      ∃ s : Symbol, s.text.toList = c :: cs ∧ kind = .symbol s) := by
  generalize hText : c :: cs = text at h
  cases h with
  | name hStarts hContinues =>
    cases hText
    exact .inl ⟨hStarts, hContinues, rfl⟩
  | quoted hQuote hInner =>
    cases hText
    exact .inr (.inl ⟨startsName_quote hQuote, hQuote, _, hInner, rfl⟩)
  | number hCounts =>
    obtain ⟨d, body, rfl, hDigit⟩ := hCounts.first
    cases hText
    obtain ⟨-, hStarts, hSingle, hDouble⟩ := digit_facts hDigit
    exact .inr (.inr (.inl ⟨hStarts, not_or.mpr ⟨hSingle, hDouble⟩, hDigit, hCounts⟩))
  | symbol s =>
    obtain ⟨d, body, hFirst, -, hStarts, hQuote, hDigit⟩ := symbol_first s
    obtain ⟨rfl, rfl⟩ := List.cons.inj (hText.trans hFirst)
    exact .inr (.inr (.inr ⟨hStarts, hQuote, hDigit, s, rfl, rfl⟩))

theorem not_spells_nil : ¬Spells [] kind := by
  intro h
  generalize hNil : [] = text at h
  cases h with
  | name | quoted => cases hNil
  | number hCounts =>
    obtain ⟨c, body, rfl, -⟩ := hCounts.first
    cases hNil
  | symbol s =>
    obtain ⟨c, body, hFirst, -⟩ := symbol_first s
    rw [hFirst] at hNil
    cases hNil

/-! ### Names -/

/-- No start of a text of which each character satisfies `p` is longer than the longest. -/
theorem length_le_takeWhile {p : Char → Bool} (hText : text <+: cs) (h : ∀ d ∈ text, p d) :
    text.length ≤ (cs.takeWhile p).length := by
  obtain ⟨after, rfl⟩ := hText
  rw [List.takeWhile_append_of_pos h, List.length_append]
  exact Nat.le_add_right _ _

/-- A start of a text that is the longest among those with the same first character. -/
theorem isLongest_of_cons (hStarts : text <+: rest) (hSpells : Spells (c :: text) kind)
    (hLongest : ∀ text' kind', text' <+: rest → Spells (c :: text') kind' →
      text'.length ≤ text.length) : IsLongest (c :: text) kind (c :: rest) := by
  refine ⟨List.cons_prefix_cons.mpr ⟨rfl, hStarts⟩, hSpells, fun text' kind' hText hKind => ?_⟩
  cases text' with
  | nil => exact absurd hKind not_spells_nil
  | cons d text' =>
    obtain ⟨rfl, hTail⟩ := List.cons_prefix_cons.mp hText
    exact Nat.succ_le_succ (hLongest text' kind' hTail hKind)

theorem startsNone_of_cons (h : ∀ text kind, text <+: rest → ¬Spells (c :: text) kind) :
    StartsNone (c :: rest) := by
  intro text kind hText hKind
  cases text with
  | nil => exact not_spells_nil hKind
  | cons d text =>
    obtain ⟨rfl, hTail⟩ := List.cons_prefix_cons.mp hText
    exact h text kind hTail hKind

/-- What a lexeme says of the source `c :: rest` that it is taken from. -/
def Describes (c : Char) (rest : List Char) : Lexeme → Prop
  | .token kind more => ∃ body, more = body.length ∧ IsLongest (c :: body) kind (c :: rest) ∧
      ∀ n, kind = .int n → n ≤ Numeral.maxInt
  | .tooLarge more => ∃ body n, more = body.length ∧ IsLongest (c :: body) (.int n) (c :: rest) ∧
      Numeral.maxInt < n
  | .unterminated => IsQuote c ∧ StartsNone (c :: rest)
  | .unknown => ¬IsQuote c ∧ StartsNone (c :: rest)

theorem longest_name (hStarts : startsName c) (rest : List Char) :
    IsLongest (c :: rest.takeWhile continuesName)
      (.name (String.ofList (c :: rest.takeWhile continuesName))) (c :: rest) := by
  refine isLongest_of_cons (List.takeWhile_prefix _)
    (.name hStarts (List.all_eq_true.mp List.all_takeWhile)) fun text' kind' hText hKind => ?_
  obtain ⟨hContinues, -⟩ : (∀ d ∈ text', continuesName d) ∧ _ := by
    simpa [hStarts] using hKind.forms
  exact length_le_takeWhile hText hContinues

/-! ### Quoted text -/

/-- A text that starts with a quote is quoted. -/
theorem Spells.quotes (hQuote : IsQuote c) (h : Spells (c :: cs) kind) :
    ∃ text, Quotes c cs text := by
  obtain ⟨text, hInner, -⟩ : ∃ text, Quotes c cs text ∧ kind = .str (String.ofList text) := by
    simpa [startsName_quote hQuote, hQuote] using h.forms
  exact ⟨text, hInner⟩

theorem Quotes.ne_nil {quote : Char} (h : Quotes quote cs text) : cs ≠ [] := by
  cases h <;> exact List.cons_ne_nil _ _

theorem quotedText_of_quotes {quote : Char} (hQuote : IsQuote quote) (h : Quotes quote cs text)
    (rest : List Char) : quotedText quote (cs ++ rest) = some (text, cs.length) := by
  induction h with
  | close => exact quotedText_quote quote rest
  | escape _ ih =>
    rw [List.cons_append, List.cons_append, quotedText_escape hQuote, ih]
    rfl
  | keep hNot hEscape hInner ih =>
    rw [List.cons_append, quotedText_keep hNot fun hBackslash => ?_, ih]
    · rfl
    · rw [List.head?_append]
      obtain ⟨d, ds, rfl⟩ := List.exists_cons_of_ne_nil hInner.ne_nil
      exact hEscape hBackslash

theorem quotes_of_quotedText {quote : Char} {n : Nat} (h : quotedText quote cs = some (text, n)) :
    ∃ body, body <+: cs ∧ n = body.length ∧ Quotes quote body text := by
  fun_induction quotedText quote cs generalizing text n with
  | case1 => cases h
  | case2 rest =>
    cases h
    exact ⟨[quote], List.cons_prefix_cons.mpr ⟨rfl, List.nil_prefix⟩, rfl, .close⟩
  | case3 => cases h
  | case4 c hc d rest hEscape ih =>
    obtain ⟨⟨others, m⟩, hOthers, hRead⟩ := Option.map_eq_some_iff.mp h
    cases hRead
    obtain ⟨body, hBody, rfl, hInner⟩ := ih hOthers
    obtain ⟨rfl, rfl⟩ := hEscape
    refine ⟨'\\' :: d :: body, ?_, rfl, .escape hInner⟩
    exact List.cons_prefix_cons.mpr ⟨rfl, List.cons_prefix_cons.mpr ⟨rfl, hBody⟩⟩
  | case5 c hc d rest hEscape ih =>
    obtain ⟨⟨others, m⟩, hOthers, hRead⟩ := Option.map_eq_some_iff.mp h
    cases hRead
    obtain ⟨body, hBody, rfl, hInner⟩ := ih hOthers
    refine ⟨c :: body, List.cons_prefix_cons.mpr ⟨rfl, hBody⟩, rfl, .keep hc ?_ hInner⟩
    intro hBackslash hHead
    obtain ⟨d', body, rfl⟩ := List.exists_cons_of_ne_nil hInner.ne_nil
    cases hHead
    exact hEscape ⟨hBackslash, (List.cons_prefix_cons.mp hBody).1.symm⟩

/-! ### Numbers -/

/-- A number ends with the digits that it starts with, or a point follows them and it ends with the
digits behind the point at the latest. -/
theorem Counts.length_le (h : Counts (c :: text) kind) (hText : text <+: rest) :
    text.length ≤ (rest.takeWhile Char.isDigit).length ∨
    ∃ after, rest.dropWhile Char.isDigit = '.' :: after ∧ text.length ≤
      (rest.takeWhile Char.isDigit).length + 1 + (after.takeWhile Char.isDigit).length := by
  cases h with
  | whole hDigits => exact .inl (length_le_takeWhile hText (List.forall_mem_cons.mp hDigits).2)
  | @point _ whole fraction hDigits hFractional =>
    obtain ⟨last, rfl⟩ := hText
    have hSpan := span_exact (List.forall_mem_cons.mp hDigits).2 ('.' :: (fraction ++ last))
      (by simp)
    have hLength := length_le_takeWhile (List.prefix_append fraction last) hFractional
    rw [List.append_assoc, List.cons_append, hSpan.1, hSpan.2]
    refine .inr ⟨_, rfl, ?_⟩
    rw [List.length_append, List.length_cons]
    omega

theorem describes_number (hDigit : c.isDigit) (rest : List Char) :
    Describes c rest (number c rest) := by
  have hForm : ∀ text' kind', Spells (c :: text') kind' → Counts (c :: text') kind' := by
    intro text' kind' hKind
    obtain ⟨-, hStarts, hSingle, hDouble⟩ := digit_facts hDigit
    have hQuote : ¬IsQuote c := not_or.mpr ⟨hSingle, hDouble⟩
    simpa [hStarts, hQuote, hDigit] using hKind.forms
  have hSplit := List.takeWhile_append_dropWhile (p := Char.isDigit) (l := rest)
  have hDigits : ∀ d ∈ c :: rest.takeWhile Char.isDigit, d.isDigit :=
    List.forall_mem_cons.mpr ⟨hDigit, List.all_eq_true.mp List.all_takeWhile⟩
  simp only [number]
  split
  · next after hPoint =>
    refine ⟨rest.takeWhile Char.isDigit ++ '.' :: after.takeWhile Char.isDigit, ?_,
      isLongest_of_cons ?_ (.number (.point hDigits (List.all_eq_true.mp List.all_takeWhile))) ?_,
      by rintro _ ⟨⟩⟩
    · rw [List.length_append, List.length_cons]
      omega
    · rw [hPoint] at hSplit
      conv => rhs; rw [← hSplit]
      exact (List.prefix_append_right_inj _).mpr
        (List.cons_prefix_cons.mpr ⟨rfl, List.takeWhile_prefix _⟩)
    · intro text' kind' hText hKind
      rw [List.length_append, List.length_cons]
      rcases (hForm text' kind' hKind).length_le hText with hLength | ⟨_, hAfter, hLength⟩
      · omega
      · cases hPoint.symm.trans hAfter
        omega
  · next hNoPoint =>
    have hLongest : IsLongest (c :: rest.takeWhile Char.isDigit)
        (.int (Nat.ofDigitChars 10 (c :: rest.takeWhile Char.isDigit) 0)) (c :: rest) := by
      refine isLongest_of_cons (List.takeWhile_prefix _) (.number (.whole hDigits)) ?_
      intro text' kind' hText hKind
      -- A longer number would need a point behind the digits, and there is none.
      rcases (hForm text' kind' hKind).length_le hText with hLength | ⟨after, hAfter, -⟩
      · exact hLength
      · exact absurd hAfter (hNoPoint after)
    split
    · next hFits =>
      have hMax := (Numeral.fits_readUpTo _).mp hFits
      rw [Numeral.readUpTo_eq_of_le hMax]
      refine ⟨_, rfl, hLongest, fun n hInt => ?_⟩
      cases hInt
      exact hMax
    · next hFits =>
      refine ⟨_, _, rfl, hLongest, ?_⟩
      rwa [Numeral.fits_readUpTo, not_le] at hFits

/-! ### Symbols -/

theorem symbol?_eq_some {s : Symbol} (h : symbol? cs = some s) :
    s.text.toList <+: cs ∧
      ∀ s' : Symbol, s'.text.toList <+: cs → s'.text.toList.length ≤ s.text.toList.length := by
  -- No symbol stands in the list of all of them behind a shorter one.
  have hSorted : Symbol.all.Pairwise fun s t => t.text.toList.length ≤ s.text.toList.length := by
    decide
  obtain ⟨hStarts, before, after, hAll, hBefore⟩ := List.find?_eq_some_iff_append.mp h
  refine ⟨List.isPrefixOf_iff_prefix.mp hStarts, fun s' hText => ?_⟩
  have hMem : s' ∈ before ++ s :: after := by
    rw [← hAll]
    cases s' <;> decide
  rcases List.mem_append.mp hMem with hEarly | hLate
  · have hNot := hBefore s' hEarly
    rw [List.isPrefixOf_iff_prefix.mpr hText] at hNot
    cases hNot
  · rw [hAll] at hSorted
    rcases List.mem_cons.mp hLate with rfl | hLater
    · exact Nat.le_refl _
    · exact List.rel_of_pairwise_cons (List.pairwise_append.mp hSorted).2.1 hLater

theorem symbol?_eq_none (h : symbol? cs = none) (s : Symbol) : ¬s.text.toList <+: cs := by
  intro hText
  have hMem : s ∈ Symbol.all := by cases s <;> decide
  exact List.find?_eq_none.mp h s hMem (List.isPrefixOf_iff_prefix.mpr hText)

/-! ### Every lexeme -/

theorem describes_quote (hQuote : IsQuote c) (rest : List Char) :
    Describes c rest (lexeme c rest) := by
  cases hRead : quotedText c rest with
  | none =>
    rw [lexeme_unterminated hQuote hRead]
    refine ⟨hQuote, startsNone_of_cons fun text' kind' hText hKind => ?_⟩
    obtain ⟨text, hInner⟩ := hKind.quotes hQuote
    obtain ⟨last, rfl⟩ := hText
    rw [quotedText_of_quotes hQuote hInner] at hRead
    cases hRead
  | some read =>
    obtain ⟨text, more⟩ := read
    rw [lexeme_quote hQuote hRead]
    obtain ⟨body, hBody, rfl, hInner⟩ := quotes_of_quotedText hRead
    refine ⟨body, rfl, isLongest_of_cons hBody (.quoted hQuote hInner) ?_, by rintro _ ⟨⟩⟩
    intro text' kind' hText hKind
    obtain ⟨_, hInner'⟩ := hKind.quotes hQuote
    obtain ⟨last, rfl⟩ := hText
    rw [quotedText_of_quotes hQuote hInner', Option.some_inj, Prod.mk.injEq] at hRead
    exact Nat.le_of_eq hRead.2

theorem describes_symbol (hStarts : startsName c = false) (hQuote : ¬IsQuote c)
    (hDigit : c.isDigit = false) (rest : List Char) : Describes c rest (lexeme c rest) := by
  have hForm : ∀ text' kind', Spells (c :: text') kind' →
      ∃ s : Symbol, s.text.toList = c :: text' ∧ kind' = .symbol s := by
    intro text' kind' hKind
    simpa [hStarts, hQuote, hDigit] using hKind.forms
  rw [lexeme_symbol hStarts hQuote hDigit]
  cases hSymbol : symbol? (c :: rest) with
  | none =>
    refine ⟨hQuote, startsNone_of_cons fun text' kind' hText hKind => ?_⟩
    obtain ⟨s, hFirst, -⟩ := hForm text' kind' hKind
    refine symbol?_eq_none hSymbol s ?_
    rw [hFirst]
    exact List.cons_prefix_cons.mpr ⟨rfl, hText⟩
  | some s =>
    obtain ⟨hText, hLongest⟩ := symbol?_eq_some hSymbol
    obtain ⟨d, body, hFirst, -⟩ := symbol_first s
    have hSpells := Spells.symbol s
    rw [hFirst] at hText hLongest hSpells
    obtain ⟨rfl, hTail⟩ := List.cons_prefix_cons.mp hText
    refine ⟨body, ?_, isLongest_of_cons hTail hSpells ?_, by rintro _ ⟨⟩⟩
    · rw [← String.length_toList, hFirst]
      rfl
    · intro text' kind' hText' hKind
      obtain ⟨s', hFirst', -⟩ := hForm text' kind' hKind
      have hLength := hLongest s'
      rw [hFirst'] at hLength
      exact Nat.le_of_succ_le_succ (hLength (List.cons_prefix_cons.mpr ⟨rfl, hText'⟩))

/-- A lexeme is the longest text of a token, in range or not, or says that there is none. -/
theorem describes_lexeme (c : Char) (rest : List Char) : Describes c rest (lexeme c rest) := by
  by_cases hStarts : startsName c
  · rw [lexeme, if_pos hStarts]
    exact ⟨_, rfl, longest_name hStarts rest, by rintro _ ⟨⟩⟩
  · rw [Bool.not_eq_true] at hStarts
    by_cases hQuote : IsQuote c
    · exact describes_quote hQuote rest
    · by_cases hDigit : c.isDigit
      · rw [lexeme_digit hDigit]
        exact describes_number hDigit rest
      · exact describes_symbol hStarts hQuote (by simpa using hDigit) rest

/-! ### One token for each text -/

theorem Counts.unique (h : Counts cs kind) (h' : Counts cs kind') : kind = kind' := by
  -- The digits in front of a point are those that the text starts with.
  have hSpan : ∀ {c : Char} {whole : List Char}, (∀ d ∈ c :: whole, d.isDigit) →
      ∀ fraction, (whole ++ '.' :: fraction).takeWhile Char.isDigit = whole ∧
        (whole ++ '.' :: fraction).dropWhile Char.isDigit = '.' :: fraction :=
    fun hDigits _ => span_exact (List.forall_mem_cons.mp hDigits).2 _ (by simp)
  have hNoPoint : ∀ {c : Char} {whole fraction : List Char},
      ¬∀ d ∈ c :: (whole ++ '.' :: fraction), d.isDigit :=
    fun hDigits => absurd (hDigits '.' (by simp)) (by decide)
  cases h with
  | whole hDigits =>
    generalize hText : _ :: _ = text at h'
    cases h' with
    | whole => cases hText; rfl
    | point => cases hText; exact absurd hDigits hNoPoint
  | @point _ _ fraction hDigits =>
    generalize hText : _ :: (_ ++ _) = text at h'
    cases h' with
    | whole hDigits' => cases hText; exact absurd hDigits' hNoPoint
    | @point _ _ fraction' hDigits' =>
      obtain ⟨rfl, hTail⟩ := List.cons.inj hText
      have hSplit := hSpan hDigits fraction
      rw [hTail, (hSpan hDigits' fraction').1, (hSpan hDigits' fraction').2] at hSplit
      obtain ⟨rfl, hPoint⟩ := hSplit
      cases hPoint
      rfl

/-- A text is that of one token only. -/
theorem Spells.unique (h : Spells text kind) (h' : Spells text kind') : kind = kind' := by
  cases text with
  | nil => exact absurd h not_spells_nil
  | cons c cs =>
    rcases h.forms with ⟨hStarts, -, rfl⟩ | ⟨hStarts, hQuote, t, hInner, rfl⟩ |
      ⟨hStarts, hQuote, hDigit, hCounts⟩ | ⟨hStarts, hQuote, hDigit, s, hText, rfl⟩
    · have hForms := h'.forms
      simp only [hStarts, Bool.true_eq_false, false_and, or_false, true_and] at hForms
      exact hForms.2.symm
    · obtain ⟨t', hInner', rfl⟩ : ∃ t', Quotes c cs t' ∧ kind' = .str (String.ofList t') := by
        simpa [hStarts, hQuote] using h'.forms
      have hRead := quotedText_of_quotes hQuote hInner []
      rw [quotedText_of_quotes hQuote hInner' []] at hRead
      cases hRead
      rfl
    · exact hCounts.unique (by simpa [hStarts, hQuote, hDigit] using h'.forms)
    · obtain ⟨s', hText', rfl⟩ : ∃ s' : Symbol, s'.text.toList = c :: cs ∧ kind' = .symbol s' := by
        simpa [hStarts, hQuote, hDigit] using h'.forms
      have hRead : symbol? (s.text.toList ++ []) = some s := symbol?_append (by simp)
      have hRead' : symbol? (s'.text.toList ++ []) = some s' := symbol?_append (by simp)
      rw [hText, ← hText', hRead'] at hRead
      cases hRead
      rfl

theorem IsLongest.unique (h : IsLongest text kind cs) (h' : IsLongest rest kind' cs) :
    text = rest ∧ kind = kind' := by
  have hText : text = rest := by
    apply (List.prefix_of_prefix_length_le h.starts h'.starts
      (h'.longest _ _ h.starts h.spells)).eq_of_length_le
    exact h.longest _ _ h'.starts h'.spells
  subst hText
  exact ⟨rfl, h.spells.unique h'.spells⟩

end Formula.Lexer
