import Formula.Proofs.Decimal.Layout
import Formula.Proofs.Token.Quoted

/-! Tokens read back from their text, if no character follows that could be a part of them. The
exceptions are text with characters that only writing escapes, and infinity: in their place another
token is read, or none. -/

namespace Formula

namespace Token.Kind

/-- The text of a token as expressions are written. -/
def written : Kind → List Char
  | name s => s.toList
  | int n => (Literal.int n).text
  | float x => (Literal.float x).text
  | str s => (Literal.str s).text
  | symbol s => s.text.toList
  | stray c => [c]

def isSymbol : Kind → Bool
  | symbol _ => true
  | _ => false

theorem exists_symbol {k : Kind} (h : k.isSymbol) : ∃ s, k = .symbol s := by
  cases k with
  | symbol s => exact ⟨s, rfl⟩
  | _ => cases h

/-- Whether the text of a token says what it is. -/
def isPlain : Kind → Bool
  | float x => x.isFinite
  | str s => s.toList.all Text.isPlain
  | _ => true

/-- Whether `c` ends a token in front of it. -/
def endsAt : Kind → Char → Bool
  | name _, c => !Text.continuesName c
  | int _, c => !c.isDigit && c != '.'
  | float _, c => !c.isDigit
  | str _, _ | stray _, _ => true
  | symbol _, c => c != '=' && c != '*' && c != '/'

end Token.Kind

namespace Lexer

open Token

variable {c : Char} {body rest : List Char} {p : Char → Bool}

/-- The characters up to the first that does not satisfy `p`, and those from it on. -/
theorem span_exact (hBody : ∀ d ∈ body, p d) (rest : List Char)
    (hRest : ∀ d ∈ rest.head?, p d = false) :
    (body ++ rest).takeWhile p = body ∧ (body ++ rest).dropWhile p = rest := by
  rw [List.takeWhile_append_of_pos hBody, List.dropWhile_append_of_pos hBody]
  cases rest with
  | nil => simp
  | cons d rest =>
    have hd : p d = false := hRest d rfl
    simp [hd]

/-- A token of which nothing is left is followed by what follows its text. -/
theorem kinds?_append {kind : Kind} (hBlank : Text.isBlank c = false)
    (h : lexeme c (body ++ rest) = .token kind body.length) :
    kinds? (c :: body ++ rest) = (kinds? rest).map (kind :: ·) := by
  rw [List.cons_append, kinds?_token hBlank h, List.drop_left]

theorem kinds?_name {s : String} (hLexical : (Kind.name s).Lexical)
    (hEnd : ∀ d ∈ rest.head?, (Kind.name s).endsAt d) :
    kinds? ((Kind.name s).written ++ rest) = (kinds? rest).map (.name s :: ·) := by
  obtain ⟨c, body, hText, hBlank, hStarts, hBody⟩ := hLexical
  have hSpan := span_exact hBody rest fun d hd => by simpa [Kind.endsAt] using hEnd d hd
  rw [Kind.written, hText]
  refine kinds?_append hBlank ?_
  rw [lexeme, if_pos hStarts, hSpan.1]
  show Lexeme.token (.name (String.ofList (c :: body))) _ = _
  rw [← hText, String.ofList_toList]

/-- A digit is none of the characters that are looked at before digits. -/
theorem digit_facts (h : c.isDigit) :
    Text.isBlank c = false ∧ Text.startsName c = false ∧ c ≠ '\'' ∧ c ≠ '"' := by
  have hDigits : ∀ n < 10, Text.isBlank (Nat.digitChar n) = false ∧
      Text.startsName (Nat.digitChar n) = false ∧
      Nat.digitChar n ≠ '\'' ∧ Nat.digitChar n ≠ '"' := by decide
  have hBounds := Decimal.digit_bounds h
  simp only [Char.reduceToNat] at hBounds
  have hChar : Nat.digitChar (c.toNat - 48) = c := by
    apply Char.toNat_inj.mp
    rw [Nat.toNat_digitChar_of_lt_ten (by omega)]
    omega
  rw [← hChar]
  exact hDigits _ (by omega)

theorem lexeme_digit (h : c.isDigit) (rest : List Char) : lexeme c rest = number c rest := by
  obtain ⟨-, hStarts, hSingle, hDouble⟩ := digit_facts h
  rw [lexeme, if_neg (by simp [hStarts]), if_neg (by simp [hSingle, hDouble]), if_pos h]

/-- Digits that no point follows are a whole number. -/
theorem number_whole (hBody : ∀ d ∈ body, d.isDigit)
    (hRest : ∀ d ∈ rest.head?, d.isDigit = false ∧ d ≠ '.')
    (hFits : (Nat.ofDigitChars 10 (c :: body) 0 : Int) ≤ Numeral.maxInt) :
    number c (body ++ rest) = .token (.int (Nat.ofDigitChars 10 (c :: body) 0)) body.length := by
  have hSpan := span_exact hBody rest fun d hd => (hRest d hd).1
  have hFit := (Numeral.fits_readUpTo _).mpr hFits
  rw [Numeral.readUpTo_eq_of_le hFits] at hFit
  rw [number, hSpan.1, hSpan.2]
  split
  · next _ after =>
    exact absurd rfl (hRest '.' rfl).2
  · simp only [Numeral.readUpTo_eq_of_le hFits, hFit, if_true]

/-- Digits with a point among them are a number of binary64. -/
theorem number_point {fraction : List Char} (hBody : ∀ d ∈ body, d.isDigit)
    (hFraction : ∀ d ∈ fraction, d.isDigit) (hRest : ∀ d ∈ rest.head?, d.isDigit = false) :
    number c (body ++ '.' :: fraction ++ rest) =
      .token (.float ((Decimal.ofDigits (c :: body) fraction 0).toDouble false))
        (body ++ '.' :: fraction).length := by
  have hWhole := span_exact hBody ('.' :: fraction ++ rest) (by simp)
  have hAfter := span_exact hFraction rest hRest
  simp only [List.append_assoc, List.cons_append] at hWhole ⊢
  simp only [number, hWhole.1, hWhole.2, hAfter.1]
  simp only [List.length_append, List.length_cons, Nat.add_assoc, Nat.add_comm 1]

theorem written_int (m : Nat) :
    ∃ c body, (Kind.int m).written = c :: body ∧ (∀ d ∈ c :: body, d.isDigit) ∧
      Nat.ofDigitChars 10 (c :: body) 0 = m := by
  have hText : (Kind.int m).written = Nat.toDigits 10 m := Nat.toList_repr
  have hValue : Nat.ofDigitChars 10 (Nat.toDigits 10 m) 0 = m := Nat.ofDigitChars_ten_toDigits
  rw [hText]
  cases hList : Nat.toDigits 10 m with
  | nil => exact absurd hList Nat.toDigits_ne_nil
  | cons c body =>
    rw [hList] at hValue
    refine ⟨c, body, rfl, fun d hd => ?_, hValue⟩
    rw [← hList] at hd
    exact Decimal.isDigit_of_mem_toDigits d hd

theorem kinds?_int {n : Int} (hLexical : (Kind.int n).Lexical)
    (hEnd : ∀ d ∈ rest.head?, (Kind.int n).endsAt d) :
    kinds? ((Kind.int n).written ++ rest) = (kinds? rest).map (.int n :: ·) := by
  obtain ⟨m, rfl⟩ := Int.eq_ofNat_of_zero_le hLexical.1
  obtain ⟨c, body, hText, hDigits, hValue⟩ := written_int m
  obtain ⟨hc, hBody⟩ := List.forall_mem_cons.mp hDigits
  rw [hText]
  refine kinds?_append (digit_facts hc).1 ?_
  rw [lexeme_digit hc, number_whole hBody (fun d hd => by simpa [Kind.endsAt] using hEnd d hd)
    (by rw [hValue]; exact hLexical.2), hValue]

theorem kinds?_float {x : Double} (hLexical : (Kind.float x).Lexical) (hFinite : x.isFinite)
    (hEnd : ∀ d ∈ rest.head?, (Kind.float x).endsAt d) :
    kinds? ((Kind.float x).written ++ rest) = (kinds? rest).map (.float x :: ·) := by
  obtain ⟨whole, fraction, hText, hne, hDigits, hCode⟩ :=
    Double.literalText_readsAs hLexical.1 hFinite
  have hDouble : (Decimal.ofDigits whole fraction 0).toDouble false = x := by
    obtain ⟨negative, code, _⟩ := x
    cases hLexical.1
    cases hCode
    rfl
  show kinds? (x.literalText ++ rest) = _
  rw [hText]
  rcases whole with _ | ⟨c, body⟩
  · exact absurd rfl hne
  obtain ⟨hWhole, hFraction⟩ := List.forall_mem_append.mp hDigits
  obtain ⟨hc, hBody⟩ := List.forall_mem_cons.mp hWhole
  rw [List.cons_append]
  refine kinds?_append (digit_facts hc).1 ?_
  rw [lexeme_digit hc, number_point hBody hFraction fun d hd => by
    simpa [Kind.endsAt] using hEnd d hd, hDouble]

/-- No symbol is another one with a character after it, except for the three characters. -/
theorem symbol?_append {s : Symbol} (hEnd : ∀ d ∈ rest.head?, (Kind.symbol s).endsAt d) :
    symbol? (s.text.toList ++ rest) = some s := by
  cases rest with
  | nil => cases s <;> decide
  | cons d rest =>
    have hd : (d ≠ '=' ∧ d ≠ '*') ∧ d ≠ '/' := by simpa [Kind.endsAt] using hEnd d rfl
    have hEqual : ('=' == d) = false := beq_false_of_ne hd.1.1.symm
    have hStar : ('*' == d) = false := beq_false_of_ne hd.1.2.symm
    have hSlash : ('/' == d) = false := beq_false_of_ne hd.2.symm
    cases s <;>
      simp [symbol?, Symbol.all, Symbol.text, List.find?, List.isPrefixOf, hEqual, hStar, hSlash]

/-- A symbol starts with a character that starts nothing else. -/
theorem symbol_first (s : Symbol) : ∃ c body, s.text.toList = c :: body ∧ Text.isBlank c = false ∧
    Text.startsName c = false ∧ ¬(c = '\'' ∨ c = '"') ∧ c.isDigit = false := by
  cases s <;> exact ⟨_, _, rfl, by decide⟩

/-- Where nothing else starts, `lexeme` looks for a symbol. -/
theorem lexeme_symbol (hStarts : Text.startsName c = false) (hQuote : ¬(c = '\'' ∨ c = '"'))
    (hDigit : c.isDigit = false) (rest : List Char) :
    lexeme c rest =
      (symbol? (c :: rest)).elim .unknown fun s => .token (.symbol s) (s.text.length - 1) := by
  rw [lexeme, if_neg (by simp [hStarts]), if_neg hQuote, if_neg (by simp [hDigit])]
  cases symbol? (c :: rest) <;> rfl

theorem kinds?_symbol {s : Symbol} (hEnd : ∀ d ∈ rest.head?, (Kind.symbol s).endsAt d) :
    kinds? ((Kind.symbol s).written ++ rest) = (kinds? rest).map (.symbol s :: ·) := by
  obtain ⟨c, body, hText, hBlank, hStarts, hQuote, hDigit⟩ := symbol_first s
  rw [Kind.written, hText]
  refine kinds?_append hBlank ?_
  rw [lexeme_symbol hStarts hQuote hDigit, ← List.cons_append, ← hText, symbol?_append hEnd]
  show Lexeme.token _ (s.text.length - 1) = _
  rw [← String.length_toList, hText]
  rfl

theorem startsName_quote {quote : Char} (hQuote : Text.IsQuote quote) :
    Text.startsName quote = false := by
  rcases hQuote with rfl | rfl <;> decide

theorem lexeme_quote {quote : Char} {text : List Char} {more : Nat} (hQuote : Text.IsQuote quote)
    (h : quotedText quote rest = some (text, more)) :
    lexeme quote rest = .token (.str (String.ofList text)) more := by
  have hEither : quote = '\'' ∨ quote = '"' := hQuote
  rw [lexeme, if_neg (by simp [startsName_quote hQuote]), if_pos hEither, h]

theorem lexeme_unterminated {quote : Char} (hQuote : Text.IsQuote quote)
    (h : quotedText quote rest = none) : lexeme quote rest = .unterminated := by
  have hEither : quote = '\'' ∨ quote = '"' := hQuote
  rw [lexeme, if_neg (by simp [startsName_quote hQuote]), if_pos hEither, h]

theorem kinds?_str {s : String} (hPlain : (Kind.str s).isPlain) :
    kinds? ((Kind.str s).written ++ rest) = (kinds? rest).map (.str s :: ·) := by
  have hQuote := Text.isQuote_quoteFor s.toList
  have hRead := quotedText_plain hQuote (List.all_eq_true.mp hPlain) rest
  show kinds? (Text.quoted s.toList ++ rest) = _
  rw [Text.quoted, Text.quotedWith, List.cons_append]
  refine kinds?_append hQuote.isBlank ?_
  rw [List.append_assoc, List.singleton_append, lexeme_quote hQuote hRead, List.length_append]
  simp

/-- What is read in place of text that does not read back is another text. -/
theorem kinds?_str_garbled {s : String} {kinds : List Kind} (hPlain : (Kind.str s).isPlain = false)
    (h : kinds? ((Kind.str s).written ++ rest) = some kinds) :
    ∃ s' more, kinds = .str s' :: more ∧ s' ≠ s := by
  have hQuote := Text.isQuote_quoteFor s.toList
  have hSpecial : 0 < s.toList.countP (!Text.isPlain ·) := by
    rw [List.countP_pos_iff]
    simpa [Kind.isPlain] using hPlain
  replace h : kinds? (Text.quoteFor s.toList ::
      (s.toList.flatMap (Text.escaped (Text.quoteFor s.toList)) ++ [Text.quoteFor s.toList] ++
        rest)) = some kinds := h
  rw [List.append_assoc, List.singleton_append] at h
  cases hRead : quotedText (Text.quoteFor s.toList) (s.toList.flatMap
      (Text.escaped (Text.quoteFor s.toList)) ++ Text.quoteFor s.toList :: rest) with
  | none =>
    rw [kinds?, if_neg (by simp [hQuote.isBlank]), lexeme_unterminated hQuote hRead] at h
    cases h
  | some read =>
    obtain ⟨text, more⟩ := read
    have hLength := length_quotedText hQuote hRead
    rw [kinds?_token hQuote.isBlank (lexeme_quote hQuote hRead)] at h
    obtain ⟨others, -, rfl⟩ := Option.map_eq_some_iff.mp h
    refine ⟨_, others, rfl, fun hEq => ?_⟩
    rw [← hEq, String.toList_ofList] at hLength hSpecial
    omega

theorem kinds?_infinity {kinds : List Kind} (h : kinds? ('i' :: 'n' :: 'f' :: rest) = some kinds) :
    ∃ s more, kinds = .name s :: more := by
  rw [kinds?_token (by decide) (by rw [lexeme, if_pos (by decide)])] at h
  obtain ⟨more, -, rfl⟩ := Option.map_eq_some_iff.mp h
  exact ⟨_, more, rfl⟩

/-- A plain token reads back. -/
theorem kinds?_written {kind : Kind} (hLexical : kind.Lexical) (hPlain : kind.isPlain)
    (hEnd : ∀ d ∈ rest.head?, kind.endsAt d) :
    kinds? (kind.written ++ rest) = (kinds? rest).map (kind :: ·) := by
  cases kind with
  | name s => exact kinds?_name hLexical hEnd
  | int n => exact kinds?_int hLexical hEnd
  | float x => exact kinds?_float hLexical hPlain hEnd
  | str s => exact kinds?_str hPlain
  | symbol s => exact kinds?_symbol hEnd
  | stray => cases hLexical

/-- A number that is not plain is infinity, which is written as a name. -/
theorem written_infinity {x : Double} (hLexical : (Kind.float x).Lexical)
    (hPlain : (Kind.float x).isPlain = false) : (Kind.float x).written = ['i', 'n', 'f'] := by
  have hCode : ¬x.code < Double.infinityCode := of_decide_eq_false hPlain
  have hLimit : x.code ≤ Double.infinityCode := hLexical.2
  have hInfinite : x.isInfinite = true := beq_iff_eq.mpr (by omega)
  have hNaN : x.isNaN = false := decide_eq_false (Nat.not_lt.mpr hLimit)
  show x.literalText = _
  simp only [Double.literalText, hNaN, hInfinite, Double.signed, hLexical.1, Bool.false_eq_true,
    if_false, if_true]

/-- In place of a token that is not plain, another one is read that is no symbol either. -/
theorem kinds?_garbled {kind : Kind} {kinds : List Kind} (hLexical : kind.Lexical)
    (hPlain : kind.isPlain = false) (h : kinds? (kind.written ++ rest) = some kinds) :
    kind.isSymbol = false ∧
      ∃ kind' more, kinds = kind' :: more ∧ kind' ≠ kind ∧ kind'.isSymbol = false := by
  cases kind with
  | name | int | symbol => cases hPlain
  | stray => cases hLexical
  | float x =>
    rw [written_infinity hLexical hPlain] at h
    obtain ⟨s, more, rfl⟩ := kinds?_infinity h
    exact ⟨rfl, _, more, rfl, nofun, rfl⟩
  | str s =>
    obtain ⟨s', more, rfl, hne⟩ := kinds?_str_garbled hPlain h
    exact ⟨rfl, _, more, rfl, fun hEq => hne (Kind.str.inj hEq), rfl⟩

/-- No token but a symbol starts with a character that could make a symbol longer. -/
theorem exists_written {kind : Kind} {s : Symbol} (hLexical : kind.Lexical)
    (hKind : kind.isSymbol = false) :
    ∃ c body, kind.written = c :: body ∧ (Kind.symbol s).endsAt c := by
  have hDigit : ∀ c : Char, c.isDigit → (Kind.symbol s).endsAt c := by
    intro c hc
    have hNot : c ≠ '=' ∧ c ≠ '*' ∧ c ≠ '/' := by
      refine ⟨?_, ?_, ?_⟩ <;> rintro rfl <;> cases hc
    simp [Kind.endsAt, hNot]
  cases kind with
  | name name =>
    obtain ⟨c, body, hText, -, hStarts, -⟩ := hLexical
    have hNot : c ≠ '=' ∧ c ≠ '*' ∧ c ≠ '/' := by
      refine ⟨?_, ?_, ?_⟩ <;> rintro rfl <;> exact absurd hStarts (by decide)
    exact ⟨c, body, hText, by simp [Kind.endsAt, hNot]⟩
  | int n =>
    obtain ⟨m, rfl⟩ := Int.eq_ofNat_of_zero_le hLexical.1
    obtain ⟨c, body, hText, hDigits, -⟩ := written_int m
    exact ⟨c, body, hText, hDigit c (hDigits c List.mem_cons_self)⟩
  | float x =>
    by_cases hPlain : (Kind.float x).isPlain
    · obtain ⟨whole, fraction, hText, hne, hDigits, -⟩ :=
        Double.literalText_readsAs hLexical.1 hPlain
      rcases whole with _ | ⟨c, body⟩
      · exact absurd rfl hne
      · exact ⟨c, _, hText, hDigit c (hDigits c (by simp))⟩
    · exact ⟨'i', _, written_infinity hLexical (by simpa using hPlain), by simp [Kind.endsAt]⟩
  | str text =>
    refine ⟨Text.quoteFor text.toList, _, rfl, ?_⟩
    rcases Text.isQuote_quoteFor text.toList with hQuote | hQuote <;> simp [hQuote, Kind.endsAt]
  | symbol => cases hKind
  | stray => cases hLexical

end Lexer

end Formula
