import Formula.Proofs.Decimal.Text
import Formula.Proofs.Text.Trim
import Formula.Proofs.Token.Written
import Formula.Value.Hosted

/-! Whole numbers as text. What `str` writes of one is read back by `int`, which reads digits with a
sign as far as they denote a whole number of 64 bits, and of digits alone it reads what the source
of an expression does. -/

namespace Formula

namespace Numeral

variable {cs ds : List Char} {n : Int}

/-- Nothing but digits, and one at least. -/
structure Digits (ds : List Char) : Prop where
  ne_nil : ds ≠ []
  isDigit : ∀ d ∈ ds, d.isDigit

/-- A magnitude behind a sign, which is whether it is a minus. -/
def withSign (negative : Bool) (m : Nat) : Int := if negative then -(m : Int) else m

/-- A whole number of any size in digits, with a sign in front of them or without one. -/
inductive Signed : List Char → Int → Prop
  | unsigned {ds : List Char} (digits : Digits ds) : Signed ds (Nat.ofDigitChars 10 ds 0)
  | plus {ds : List Char} (digits : Digits ds) : Signed ('+' :: ds) (Nat.ofDigitChars 10 ds 0)
  | minus {ds : List Char} (digits : Digits ds) : Signed ('-' :: ds) (-Nat.ofDigitChars 10 ds 0)

theorem digits_toDigits (m : Nat) : Digits (Nat.toDigits 10 m) :=
  ⟨Nat.toDigits_ne_nil, Decimal.isDigit_of_mem_toDigits⟩

/-- What is written of a whole number denotes it. -/
theorem signed_toString (n : Int) : Signed (toString n).toList n := by
  rw [toList_toString]
  split
  · next hSign =>
    have hText := Signed.unsigned (digits_toDigits n.toNat)
    rwa [Nat.ofDigitChars_ten_toDigits, Int.toNat_of_nonneg hSign] at hText
  · next hSign =>
    have hText := Signed.minus (digits_toDigits (-n).toNat)
    rwa [Nat.ofDigitChars_ten_toDigits, Int.toNat_of_nonneg (by omega), Int.neg_neg] at hText

theorem takeSign_digits (h : Digits ds) : takeSign ds = (false, ds) := by
  unfold takeSign
  split
  · exact absurd (h.isDigit '-' List.mem_cons_self) (by decide)
  · exact absurd (h.isDigit '+' List.mem_cons_self) (by decide)
  · rfl

theorem signed_iff : Signed cs n ↔
    Digits (takeSign cs).2 ∧
      withSign (takeSign cs).1 (Nat.ofDigitChars 10 (takeSign cs).2 0) = n := by
  constructor
  · rintro (hDigits | hDigits | hDigits)
    · rw [takeSign_digits hDigits]
      exact ⟨hDigits, rfl⟩
    · exact ⟨hDigits, rfl⟩
    · exact ⟨hDigits, rfl⟩
  · rintro ⟨hDigits, rfl⟩
    unfold takeSign at hDigits ⊢
    split at hDigits
    · exact .minus hDigits
    · exact .plus hDigits
    · exact .unsigned hDigits

theorem digits?_eq_some {limit m : Nat} :
    digits? limit ds = some m ↔ Digits ds ∧ readUpTo limit ds = m := by
  have hForm : (ds.isEmpty || !ds.all Char.isDigit) = false ↔ Digits ds := by
    simp only [Bool.or_eq_false_iff, List.isEmpty_eq_false_iff, Bool.not_eq_false',
      List.all_eq_true]
    exact ⟨fun h => ⟨h.1, h.2⟩, fun h => ⟨h.ne_nil, h.isDigit⟩⟩
  rw [← hForm, digits?]
  cases ds.isEmpty || !ds.all Char.isDigit <;> simp

/-- The limit is one more than what a minus takes, so it is too large behind either sign. -/
theorem not_fits_withSign (negative : Bool) {m : Nat} (h : tooLarge ≤ m) :
    fits (withSign negative m) = false := by
  cases negative <;> simp only [withSign, fits, minInt, maxInt, tooLarge] at h ⊢ <;> grind

/-- Of a magnitude that is too large, enough is read to tell that it is. -/
theorem withSign_readUpTo (negative : Bool) (ds : List Char) :
    withSign negative (readUpTo tooLarge ds) = n ∧ fits n ↔
      withSign negative (Nat.ofDigitChars 10 ds 0) = n ∧ fits n := by
  by_cases hSize : Nat.ofDigitChars 10 ds 0 < tooLarge
  · rw [readUpTo_eq hSize]
  · -- Neither magnitude has 64 bits, whatever was dropped of the one that is read.
    have hLarge := Nat.le_of_not_lt hSize
    have hRead := not_fits_withSign negative (le_readUpTo hLarge)
    have hValue := not_fits_withSign negative hLarge
    refine iff_of_false ?_ ?_
    · rintro ⟨rfl, hFits⟩
      exact absurd hFits (by rw [hRead]; decide)
    · rintro ⟨rfl, hFits⟩
      exact absurd hFits (by rw [hValue]; decide)

theorem signedDigits?_eq (limit : Nat) (cs : List Char) : signedDigits? limit cs =
    (digits? limit (takeSign cs).2).map (withSign (takeSign cs).1) := by
  rw [signedDigits?]
  rcases takeSign cs with ⟨negative, rest⟩
  simp only []
  cases digits? limit rest <;> rfl

/-- Digits with a sign or without one are read, where the number that they denote has 64 bits. -/
theorem int?_eq_some : int? cs = some n ↔ Signed cs n ∧ fits n := by
  have hRead : signedDigits? tooLarge cs = some n ↔
      Digits (takeSign cs).2 ∧
        withSign (takeSign cs).1 (readUpTo tooLarge (takeSign cs).2) = n := by
    simp only [signedDigits?_eq, Option.map_eq_some_iff, digits?_eq_some]
    exact ⟨fun ⟨_, ⟨hDigits, hm⟩, hn⟩ => ⟨hDigits, hm ▸ hn⟩, fun h => ⟨_, ⟨h.1, rfl⟩, h.2⟩⟩
  rw [int?, Option.filter_eq_some_iff, hRead, signed_iff, and_assoc, and_assoc, withSign_readUpTo]

/-- No white space is part of a number. -/
theorem Signed.isBlank (h : Signed cs n) : ∀ c ∈ cs, Text.isBlank c = false := by
  have hDigits : ∀ {ds : List Char}, Digits ds → ∀ d ∈ ds, Text.isBlank d = false :=
    fun h d hd => (Lexer.digit_facts (h.isDigit d hd)).1
  cases h with
  | unsigned h => exact hDigits h
  | plus h | minus h => exact List.forall_mem_cons.mpr ⟨by decide, hDigits h⟩

end Numeral

namespace Conversion

open Numeral (Digits Signed)

variable {s : String} {ds : List Char} {n : Int}

/-- A text that denotes a whole number of 64 bits, apart from white space around it. -/
def ReadsAs (s : String) (n : Int) : Prop :=
  (∃ cs, Text.Pads Text.isBlank cs s.toList ∧ Signed cs n) ∧ Numeral.fits n

theorem readsAs_iff :
    ReadsAs s n ↔ Signed (Text.trim Text.isBlank s.toList) n ∧ Numeral.fits n := by
  refine and_congr_left fun _ => ⟨?_, fun h => ⟨_, Text.pads_trim _ _, h⟩⟩
  rintro ⟨cs, hPads, h⟩
  rwa [Text.trim_of_pads hPads h.isBlank]

theorem readsAs_toString (h : Numeral.fits n) : ReadsAs (toString n) n :=
  ⟨⟨_, ⟨[], [], nofun, nofun, by simp⟩, Numeral.signed_toString n⟩, h⟩

/-- Digits alone have one reading at most. -/
theorem readsAs_digits (h : Digits ds) :
    ReadsAs (String.ofList ds) n ↔
      n = Nat.ofDigitChars 10 ds 0 ∧ (Nat.ofDigitChars 10 ds 0 : Int) ≤ Numeral.maxInt := by
  have hTrim : Text.trim Text.isBlank ds = ds :=
    Text.trim_of_pads ⟨[], [], nofun, nofun, by simp⟩ (Signed.unsigned h).isBlank
  rw [readsAs_iff, String.toList_ofList, hTrim, Numeral.signed_iff, Numeral.takeSign_digits h,
    ← Numeral.fits_natCast]
  constructor
  · rintro ⟨⟨-, rfl⟩, hFits⟩
    exact ⟨rfl, hFits⟩
  · rintro ⟨rfl, hFits⟩
    exact ⟨⟨h, rfl⟩, hFits⟩

theorem toInt_str : toInt (.str s) = .ok n ↔ ReadsAs s n := by
  rw [readsAs_iff, ← Numeral.int?_eq_some, toInt, readNumber]
  cases Numeral.int? (Text.trim Text.isBlank s.toList) <;> simp

theorem toInt_str_error (h : ∀ n, ¬ReadsAs s n) :
    toInt (.str s) = .error (.invalidLiteral "int" (.str s)) := by
  cases hRead : Numeral.int? (Text.trim Text.isBlank s.toList) with
  | none =>
    rw [toInt, readNumber, hRead]
    rfl
  | some n => exact absurd (toInt_str.mp (by rw [toInt, readNumber, hRead])) (h n)

end Conversion

namespace Lexer

open Numeral (Digits)

variable {ds : List Char}

theorem number_digits {c : Char} {body : List Char} (hBody : ∀ d ∈ body, d.isDigit) :
    number c body =
      if (Nat.ofDigitChars 10 (c :: body) 0 : Int) ≤ Numeral.maxInt then
        .token (.int (Nat.ofDigitChars 10 (c :: body) 0)) body.length
      else .tooLarge body.length := by
  obtain ⟨hTake, hDrop⟩ := span_exact hBody [] nofun
  rw [List.append_nil] at hTake hDrop
  rw [number, hTake, hDrop]
  simp only [Numeral.fits_readUpTo]
  split
  · next hFits => rw [Numeral.readUpTo_eq_of_le hFits]
  · rfl

/-- Digits alone are one number, or one that is too large. -/
theorem tokens_digits (h : Digits ds) :
    tokens ds =
      if (Nat.ofDigitChars 10 ds 0 : Int) ≤ Numeral.maxInt then
        .ok [⟨.int (Nat.ofDigitChars 10 ds 0), ⟨0, ds.length⟩⟩]
      else .error (.tooLarge ⟨0, ds.length⟩) := by
  obtain ⟨c, body, rfl⟩ := List.exists_cons_of_ne_nil h.ne_nil
  obtain ⟨hDigit, hBody⟩ := List.forall_mem_cons.mp h.isDigit
  have hStop : (c :: body).length = 0 + 1 + body.length := by
    rw [List.length_cons]
    omega
  rw [tokens, scan, if_neg (by simp [(digit_facts hDigit).1]), lexeme_digit hDigit,
    number_digits hBody, hStop]
  by_cases hFits : (Nat.ofDigitChars 10 (c :: body) 0 : Int) ≤ Numeral.maxInt
  · rw [if_pos hFits, if_pos hFits]
    simp only [List.drop_length, scan]
    rfl
  · rw [if_neg hFits, if_neg hFits]

end Lexer

namespace Value

variable {σ : Type}

/-- A whole number of 64 bits is read back from its text. `int` reads a text if that is digits with
a sign or without one, apart from white space around it, and denotes such a number. Where a text is
digits alone, the tokens of a source are read from it in the same way. -/
theorem whole_number_text (host : Host σ) :
    (∀ n, Numeral.fits n →
      (do convert host .int [← convert host .str [.int n]]) = pure (.int n)) ∧
    (∀ s, convert host .int [.str s] = Run.ofExcept host ((Conversion.toInt (.str s)).map .int)) ∧
    (∀ s n, Conversion.toInt (.str s) = .ok n ↔ Conversion.ReadsAs s n) ∧
    (∀ s, (∀ n, ¬Conversion.ReadsAs s n) →
      Conversion.toInt (.str s) = .error (.invalidLiteral "int" (.str s)) ∧
        convert host .int [.str s] =
          throw (.invalidLiteral "int" (String.ofList (Text.quoted s.toList)))) ∧
    ∀ ds, Numeral.Digits ds →
      (∀ m, Lexer.tokens ds = .ok [⟨.int m, ⟨0, ds.length⟩⟩] ↔
        Conversion.toInt (.str (String.ofList ds)) = .ok m) ∧
      (Lexer.tokens ds = .error (.tooLarge ⟨0, ds.length⟩) ↔
        ∃ e, Conversion.toInt (.str (String.ofList ds)) = .error e) := by
  refine ⟨fun n hn => ?_, fun s => rfl, fun s n => Conversion.toInt_str,
    fun s hs => ?_, fun ds hds => ?_⟩
  · have hText : Value.display host (.int n) = pure (toString n) := by
      show (pure (String.ofList (toString n).toList) : StateM σ String) = _
      rw [String.ofList_toList]
    have hRead : Conversion.toInt (.str (toString n)) = .ok n :=
      Conversion.toInt_str.mpr (Conversion.readsAs_toString hn)
    have hShown : convert host .str [.int n] = pure (.str (toString n)) := by
      show (do return .str (← Value.display host (.int n)) : Run σ Value) = _
      rw [hText]
      rfl
    rw [hShown]
    show Run.ofExcept host ((Conversion.toInt (.str (toString n))).map Value.int) = _
    rw [hRead]
    rfl
  · have hError := Conversion.toInt_str_error hs
    refine ⟨hError, ?_⟩
    show Run.ofExcept host ((Conversion.toInt (.str s)).map Value.int) = _
    rw [hError]
    rfl
  · rw [Lexer.tokens_digits hds]
    split
    · next hFits =>
      have hRead := Conversion.toInt_str.mpr ((Conversion.readsAs_digits hds).mpr ⟨rfl, hFits⟩)
      rw [hRead]
      simp
    · next hFits =>
      have hRead := Conversion.toInt_str_error fun n h =>
        hFits ((Conversion.readsAs_digits hds).mp h).2
      rw [hRead]
      simp

/-- The least number is read back, and what is one greater than the greatest is too large for both
readers. -/
theorem whole_number_text_limits :
    Numeral.fits (-9223372036854775808) ∧
      (do convert Host.none .int [← convert Host.none .str [.int (-9223372036854775808)]]) =
        pure (.int (-9223372036854775808)) ∧
      (∀ n, ¬Conversion.ReadsAs "9223372036854775808" n) ∧
      Conversion.toInt (.str "9223372036854775808") =
        .error (.invalidLiteral "int" (.str "9223372036854775808")) ∧
      Lexer.tokens "9223372036854775808".toList = .error (.tooLarge ⟨0, 19⟩) := by
  obtain ⟨hKeeps, -, hReads, hFails, hDigits⟩ := whole_number_text Host.none
  have hLeast : Numeral.fits (-9223372036854775808) := by decide
  have hNone : ∀ n, ¬Conversion.ReadsAs "9223372036854775808" n := fun n h =>
    nomatch (hReads _ n).mpr h
  have hRun : Numeral.Digits "9223372036854775808".toList :=
    ⟨by decide, List.all_eq_true.mp (by decide)⟩
  obtain ⟨hError, -⟩ := hFails _ hNone
  exact ⟨hLeast, hKeeps _ hLeast, hNone, hError, (hDigits _ hRun).2.mpr ⟨_, hError⟩⟩

end Value

end Formula
