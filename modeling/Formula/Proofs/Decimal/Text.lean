import Mathlib.Data.List.Basic
import Formula.Proofs.Decimal.Layout

/-! The text of a number as a value tells which number it is. Finite numbers are written in digits
with a point, a power of ten or a minus among them, and the others by name. -/

namespace Formula

namespace Numeral

open Decimal (isDigit_of_mem_toDigits)

theorem toDigits_inj {m n : Nat} (h : Nat.toDigits 10 m = Nat.toDigits 10 n) : m = n := by
  have hValue := congrArg (Nat.ofDigitChars 10 · 0) h
  simpa only [Nat.ofDigitChars_ten_toDigits] using hValue

/-- A whole number is written in digits, behind a minus if it is negative. -/
theorem toList_toString (n : Int) :
    (toString n).toList =
      if 0 ≤ n then Nat.toDigits 10 n.toNat else '-' :: Nat.toDigits 10 (-n).toNat := by
  rw [Int.toString_eq_repr, Int.repr_eq_if]
  split
  · exact Nat.toList_repr
  · rw [String.toList_append, Nat.toList_repr]
    rfl

theorem mem_toString {n : Int} {c : Char} (h : c ∈ (toString n).toList) : c.isDigit ∨ c = '-' := by
  rw [toList_toString] at h
  split at h
  · exact .inl (isDigit_of_mem_toDigits c h)
  · exact (List.mem_cons.mp h).symm.imp_left (isDigit_of_mem_toDigits c)

theorem toString_ne_nil (n : Int) : (toString n).toList ≠ [] := by
  rw [toList_toString]
  split
  · exact Nat.toDigits_ne_nil
  · exact List.cons_ne_nil _ _

theorem toString_inj {m n : Int} (h : (toString m).toList = (toString n).toList) : m = n := by
  have hMinus : ∀ k l : Nat, Nat.toDigits 10 k ≠ '-' :: Nat.toDigits 10 l := fun k l hEq => by
    have hDigit := isDigit_of_mem_toDigits (n := k) '-' (hEq ▸ List.mem_cons_self)
    exact absurd hDigit (by decide)
  rw [toList_toString, toList_toString] at h
  split at h <;> split at h
  · have hNat := toDigits_inj h
    omega
  · exact absurd h (hMinus _ _)
  · exact absurd h.symm (hMinus _ _)
  · have hNat := toDigits_inj (List.cons.inj h).2
    omega

end Numeral

namespace Decimal

variable {d d' : Decimal} {body : List Char} {code code' : Nat}

/-- The characters that finite numbers are written with. -/
def isNumeral (c : Char) : Bool := c.isDigit || c == '.' || c == 'e' || c == '-'

/-- The digits of a number that is written with a power of ten, a point among them. -/
def mantissa : List Char → List Char
  | first :: second :: rest => first :: '.' :: second :: rest
  | ds => ds

theorem scientific_eq (d : Decimal) :
    d.scientific = mantissa (Nat.toDigits 10 d.digits) ++
      'e' :: (toString ((Nat.toDigits 10 d.digits).length + d.exponent - 1 : Int)).toList := by
  rw [scientific]
  rcases Nat.toDigits 10 d.digits with _ | ⟨first, _ | ⟨second, rest⟩⟩ <;> rfl

theorem mem_mantissa {ds : List Char} {c : Char} (h : c ∈ mantissa ds) : c ∈ ds ∨ c = '.' := by
  rcases ds with _ | ⟨first, _ | ⟨second, rest⟩⟩
  · exact .inl h
  · exact .inl h
  · simp only [mantissa, List.mem_cons] at h ⊢
    tauto

/-- The digits are what is left without the point. -/
theorem filter_mantissa {ds : List Char} (h : ∀ c ∈ ds, c.isDigit) :
    (mantissa ds).filter Char.isDigit = ds := by
  rcases ds with _ | ⟨first, _ | ⟨second, rest⟩⟩
  · rfl
  · exact List.filter_eq_self.mpr h
  · obtain ⟨hFirst, hRest⟩ := List.forall_mem_cons.mp h
    rw [mantissa, List.filter_cons_of_pos hFirst, List.filter_cons_of_neg (by decide),
      List.filter_eq_self.mpr hRest]

theorem head?_mantissa (ds : List Char) : (mantissa ds).head? = ds.head? := by
  rcases ds with _ | ⟨first, _ | ⟨second, rest⟩⟩ <;> rfl

theorem mem_scientific {c : Char} (h : c ∈ d.scientific) : isNumeral c := by
  rw [scientific_eq, List.mem_append, List.mem_cons] at h
  rcases h with h | rfl | h
  · rcases mem_mantissa h with h | rfl
    · simp [isNumeral, isDigit_of_mem_toDigits c h]
    · rfl
  · rfl
  · rcases Numeral.mem_toString h with h | rfl
    · simp [isNumeral, h]
    · rfl

/-- The text with a power of ten tells the digits and the power apart. -/
theorem scientific_inj (h : d.scientific = d'.scientific) : d = d' := by
  obtain ⟨n, k⟩ := d
  obtain ⟨n', k'⟩ := d'
  have hLetter : ∀ m : Nat, 'e' ∉ mantissa (Nat.toDigits 10 m) := fun m hMem => by
    rcases mem_mantissa hMem with hMem | hMem
    · exact absurd (isDigit_of_mem_toDigits _ hMem) (by decide)
    · cases hMem
  have hPower : ∀ i : Int, 'e' ∉ (toString i).toList := fun i hMem => by
    rcases Numeral.mem_toString hMem with hMem | hMem <;> cases hMem
  rw [scientific_eq, scientific_eq] at h
  obtain ⟨hDigits, -, hExponent⟩ :=
    (List.append_cons_inj_of_notMem (hLetter _) (hPower _)).mp h
  have hSame : Nat.toDigits 10 n = Nat.toDigits 10 n' := by
    have hFilter := congrArg (List.filter Char.isDigit) hDigits
    rwa [filter_mantissa isDigit_of_mem_toDigits, filter_mantissa isDigit_of_mem_toDigits]
      at hFilter
  have hNumber := Numeral.toString_inj hExponent
  simp only [hSame] at hNumber
  rw [Numeral.toDigits_inj hSame, show k = k' by omega]

theorem ReadsAs.isDigit_or_point (h : ReadsAs body code) : ∀ c ∈ body, c.isDigit ∨ c = '.' := by
  obtain ⟨whole, fraction, rfl, -, hDigits, -⟩ := h
  intro c hMem
  rcases List.mem_append.mp hMem with hWhole | hRest
  · exact .inl (hDigits c (List.mem_append_left _ hWhole))
  · rcases List.mem_cons.mp hRest with hPoint | hFraction
    · exact .inr hPoint
    · exact .inl (hDigits c (List.mem_append_right _ hFraction))

theorem ReadsAs.unique (h : ReadsAs body code) (h' : ReadsAs body code') : code = code' := by
  obtain ⟨whole, fraction, rfl, -, hDigits, rfl⟩ := h
  obtain ⟨whole', fraction', hText, -, hDigits', rfl⟩ := h'
  have hPoint : ∀ cs : List Char, (∀ c ∈ cs, c.isDigit) → '.' ∉ cs := fun cs hcs hMem =>
    absurd (hcs '.' hMem) (by decide)
  obtain ⟨rfl, -, rfl⟩ := (List.append_cons_inj_of_notMem
    (hPoint whole fun c hc => hDigits c (List.mem_append_left _ hc))
    (hPoint fraction fun c hc => hDigits c (List.mem_append_right _ hc))).mp hText
  rfl

/-- `body` is how the magnitude that `code` stands for is written. -/
inductive Denotes : List Char → Nat → Prop
  | positional {body : List Char} {code : Nat} (h : ReadsAs body code) : Denotes body code
  | scientific {d : Decimal} {code : Nat} (h : d.code = code) : Denotes d.scientific code

namespace Denotes

theorem isNumeral (h : Denotes body code) : ∀ c ∈ body, Decimal.isNumeral c := by
  cases h with
  | positional h =>
    intro c hMem
    rcases h.isDigit_or_point c hMem with hDigit | rfl
    · simp [Decimal.isNumeral, hDigit]
    · rfl
  | scientific h => exact fun c => mem_scientific

/-- A magnitude starts with a digit, so no sign is part of it. -/
theorem exists_digit_head? (h : Denotes body code) : ∃ c, body.head? = some c ∧ c.isDigit := by
  cases h with
  | positional h =>
    obtain ⟨whole, fraction, rfl, hne, hDigits, -⟩ := h
    obtain ⟨c, whole, rfl⟩ := List.exists_cons_of_ne_nil hne
    exact ⟨c, rfl, hDigits c List.mem_cons_self⟩
  | @scientific d _ h =>
    obtain ⟨c, ds, hDigits⟩ := List.exists_cons_of_ne_nil (Nat.toDigits_ne_nil (b := 10))
    refine ⟨c, ?_, isDigit_of_mem_toDigits (n := d.digits) c (hDigits ▸ List.mem_cons_self)⟩
    rw [scientific_eq, List.head?_append, head?_mantissa, hDigits]
    rfl

theorem head?_ne_minus (h : Denotes body code) : body.head? ≠ some '-' := by
  intro hMinus
  obtain ⟨c, hHead, hDigit⟩ := h.exists_digit_head?
  obtain rfl : c = '-' := Option.some.inj (hHead.symm.trans hMinus)
  exact absurd hDigit (by decide)

/-- A point or a power of ten tells a magnitude from what is of integer type. -/
theorem mark (h : Denotes body code) : '.' ∈ body ∨ 'e' ∈ body := by
  cases h with
  | positional h =>
    obtain ⟨whole, fraction, rfl, -, -, -⟩ := h
    exact .inl (by simp)
  | scientific h =>
    exact .inr (by simp [scientific_eq])

theorem unique (h : Denotes body code) (h' : Denotes body code') : code = code' := by
  have hLetter : ∀ {body code}, ReadsAs body code → 'e' ∉ body := fun h hMem =>
    absurd (h.isDigit_or_point _ hMem) (by decide)
  generalize hText : body = text at h'
  cases h with
  | positional h =>
    cases h' with
    | positional h' => exact h.unique (hText ▸ h')
    | scientific h' => exact absurd (by simp [hText, scientific_eq]) (hLetter h)
  | scientific h =>
    cases h' with
    | positional h' => exact absurd (by simp [← hText, scientific_eq]) (hLetter h')
    | scientific h' => rw [← h, ← h', scientific_inj hText]

end Denotes

end Decimal

namespace Double

open Decimal (Denotes)

variable {x y : Double}

/-- A finite number is written as its magnitude, behind its sign. -/
theorem exists_denotes (hFinite : x.isFinite) :
    ∃ body, x.text = x.signed body ∧ Denotes body x.code := by
  simp only [text, isNaN_of_isFinite hFinite, isInfinite_of_isFinite hFinite, Bool.false_eq_true,
    if_false]
  refine ⟨_, rfl, ?_⟩
  split
  case isTrue hWhole =>
    exact .positional (wholeText_readsAs hFinite (Bool.and_elim_left hWhole))
  case isFalse hWhole =>
    split
    case isTrue => exact .scientific (Decimal.shortest_code (of_decide_eq_true hFinite))
    case isFalse hRange =>
      have hFraction : x.isWhole = false := by
        simp only [Bool.or_eq_true, not_or] at hRange
        simpa only [hRange.2, Bool.and_true, Bool.not_eq_true, Bool.not_false] using hWhole
      exact .positional (positional_shortest_readsAs hFinite hFraction)

theorem code_eq_infinityCode (h : x.isFinite = false) (hNumber : x.isNaN = false) :
    x.code = infinityCode := by
  have hLow : ¬x.code < infinityCode := of_decide_eq_false h
  have hHigh : ¬infinityCode < x.code := of_decide_eq_false hNumber
  omega

/-- What is not finite is written by name. -/
theorem text_of_not_isFinite (h : x.isFinite = false) :
    x.text = if x.isNaN then ['n', 'a', 'n'] else x.signed ['i', 'n', 'f'] := by
  rw [text]
  split
  case isTrue => rfl
  case isFalse hNumber =>
    have hInfinite : x.isInfinite :=
      beq_of_eq (code_eq_infinityCode h (eq_false_of_ne_true hNumber))
    rw [if_pos hInfinite]

theorem mem_signed {body : List Char} {c : Char} (h : c ∈ x.signed body) : c = '-' ∨ c ∈ body := by
  rw [signed] at h
  split at h
  · exact List.mem_cons.mp h
  · exact .inr h

/-- The letters of the names that numbers have. -/
def nameLetters : List Char := ['n', 'a', 'i', 'f']

theorem mem_text {c : Char} (h : c ∈ x.text) : Decimal.isNumeral c ∨ c ∈ nameLetters := by
  cases hFinite : x.isFinite with
  | true =>
    obtain ⟨body, hText, hBody⟩ := exists_denotes hFinite
    rcases mem_signed (hText ▸ h) with rfl | hMem
    · exact .inl rfl
    · exact .inl (hBody.isNumeral c hMem)
  | false =>
    have hNaN : ['n', 'a', 'n'] ⊆ nameLetters := by decide
    have hInf : ['i', 'n', 'f'] ⊆ nameLetters := by decide
    rw [text_of_not_isFinite hFinite] at h
    split at h
    · exact .inr (hNaN h)
    · exact (mem_signed h).imp (by rintro rfl; rfl) fun hMem => hInf hMem

/-- Numbers that are not finite are the ones with an `n`. -/
theorem n_mem_text : 'n' ∈ x.text ↔ x.isFinite = false := by
  constructor
  · intro h
    by_contra hFinite
    obtain ⟨body, hText, hBody⟩ := exists_denotes (eq_true_of_ne_false hFinite)
    rcases mem_signed (hText ▸ h) with hMinus | hMem
    · cases hMinus
    · exact absurd (hBody.isNumeral _ hMem) (by decide)
  · intro h
    rw [text_of_not_isFinite h, signed]
    split_ifs <;> decide

/-- None is written like a number of integer type. -/
theorem text_mark (x : Double) : '.' ∈ x.text ∨ 'e' ∈ x.text ∨ 'n' ∈ x.text := by
  cases hFinite : x.isFinite with
  | true =>
    obtain ⟨body, hText, hBody⟩ := exists_denotes hFinite
    have hSigned : ∀ c ∈ body, c ∈ x.text := fun c hMem => by
      rw [hText, signed]
      split
      · exact List.mem_cons_of_mem _ hMem
      · exact hMem
    rcases hBody.mark with h | h
    · exact .inl (hSigned _ h)
    · exact .inr (.inl (hSigned _ h))
  | false => exact .inr (.inr (n_mem_text.mpr hFinite))

/-- The sign is told from the text behind it. -/
theorem signed_inj {body body' : List Char} (hBody : body.head? ≠ some '-')
    (hBody' : body'.head? ≠ some '-') (h : x.signed body = y.signed body') :
    x.negative = y.negative ∧ body = body' := by
  rw [signed, signed] at h
  split at h <;> split at h
  · simp_all
  · exact absurd (by rw [← h]; rfl) hBody'
  · exact absurd (by rw [h]; rfl) hBody
  · simp_all

/-- The text of a number is its own, and what is no number shares one text. -/
theorem text_inj (h : x.text = y.text) : x = y ∨ (x.isNaN ∧ y.isNaN) := by
  have hExt (hSign : x.negative = y.negative) (hCode : x.code = y.code) : x = y := by
    cases x
    cases y
    simp_all
  have hFinite : x.isFinite = y.isFinite := by
    rw [Bool.eq_iff_iff, ← not_iff_not]
    simp only [Bool.not_eq_true, ← n_mem_text, h]
  cases hx : x.isFinite with
  | true =>
    obtain ⟨body, hText, hBody⟩ := exists_denotes hx
    obtain ⟨body', hText', hBody'⟩ := exists_denotes (hFinite ▸ hx)
    rw [hText, hText'] at h
    obtain ⟨hSign, rfl⟩ := signed_inj hBody.head?_ne_minus hBody'.head?_ne_minus h
    exact .inl (hExt hSign (hBody.unique hBody'))
  | false =>
    have hy := hFinite ▸ hx
    rw [text_of_not_isFinite hx, text_of_not_isFinite hy] at h
    split at h <;> split at h
    case isTrue.isTrue hxNaN hyNaN => exact .inr ⟨hxNaN, hyNaN⟩
    case isTrue.isFalse =>
      rw [signed] at h
      split at h <;> cases h
    case isFalse.isTrue =>
      rw [signed] at h
      split at h <;> cases h
    case isFalse.isFalse hxNaN hyNaN =>
      have hxCode := code_eq_infinityCode hx (eq_false_of_ne_true hxNaN)
      have hyCode := code_eq_infinityCode hy (eq_false_of_ne_true hyNaN)
      exact .inl (hExt (signed_inj (by decide) (by decide) h).1 (hxCode.trans hyCode.symm))

end Double

end Formula
