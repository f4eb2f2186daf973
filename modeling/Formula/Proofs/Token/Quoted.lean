import Formula.Proofs.Text.Quoted
import Formula.Proofs.Token.Lexical

/-! Quoted text reads back if it holds no character that only writing escapes. Otherwise what is
read is longer, or does not end. -/

namespace Formula.Lexer

open Text

variable {quote : Char} {cs rest : List Char}

theorem quotedText_quote (quote : Char) (rest : List Char) :
    quotedText quote (quote :: rest) = some ([], 1) := by
  cases rest <;> simp [quotedText]

theorem quotedText_escape (hQuote : IsQuote quote) (rest : List Char) :
    quotedText quote ('\\' :: quote :: rest) =
      (quotedText quote rest).map fun (text, n) => (quote :: text, n + 2) := by
  simp [quotedText, hQuote.ne_backslash.symm]

/-- A character that is no quote and escapes none is read as itself. -/
theorem quotedText_keep {c : Char} (hc : c ≠ quote)
    (hEscape : c = '\\' → rest.head? ≠ some quote) :
    quotedText quote (c :: rest) =
      (quotedText quote rest).map fun (text, n) => (c :: text, n + 1) := by
  cases rest with
  | nil => simp [quotedText, hc]
  | cons d rest =>
    have hNot : ¬(c = '\\' ∧ d = quote) := fun ⟨hBackslash, hd⟩ =>
      hEscape hBackslash (by rw [hd]; rfl)
    rw [quotedText, if_neg hc, if_neg hNot]

theorem quotedText_plain (hQuote : IsQuote quote) (h : ∀ c ∈ cs, isPlain c) (rest : List Char) :
    quotedText quote (cs.flatMap (escaped quote) ++ quote :: rest) =
      some (cs, (cs.flatMap (escaped quote)).length + 1) := by
  induction cs with
  | nil => exact quotedText_quote quote rest
  | cons c cs ih =>
    obtain ⟨hc, hcs⟩ := List.forall_mem_cons.mp h
    rw [List.flatMap_cons]
    rcases escaped_cases hQuote c with ⟨-, hne, hText⟩ | ⟨-, rfl, hText⟩ | ⟨hSpecial, -⟩
    · have hNot : c ≠ '\\' := by
        rintro rfl
        cases hc
      rw [hText, List.singleton_append, List.cons_append,
        quotedText_keep hne fun hBackslash => absurd hBackslash hNot, ih hcs]
      rfl
    · rw [hText, List.append_assoc]
      show quotedText c ('\\' :: c :: (cs.flatMap (escaped c) ++ c :: rest)) = _
      rw [quotedText_escape hQuote, ih hcs]
      rfl
    · rw [hc] at hSpecial
      cases hSpecial

/-- What is read is longer than what was written by at least the number of characters that only
writing escapes. -/
theorem length_quotedText (hQuote : IsQuote quote) {text : List Char} {n : Nat}
    (h : quotedText quote (cs.flatMap (escaped quote) ++ quote :: rest) = some (text, n)) :
    cs.length + cs.countP (!isPlain ·) ≤ text.length := by
  induction cs generalizing text n with
  | nil => exact Nat.zero_le _
  | cons c cs ih =>
    rw [List.flatMap_cons] at h
    rcases escaped_cases hQuote c with ⟨hPlain, hne, hText⟩ | ⟨hPlain, rfl, hText⟩ |
      ⟨hSpecial, d, hd, hText⟩
    · have hNot : c ≠ '\\' := by
        rintro rfl
        cases hPlain
      rw [hText, List.singleton_append, List.cons_append,
        quotedText_keep hne fun hBackslash => absurd hBackslash hNot] at h
      obtain ⟨⟨others, m⟩, hOthers, hRead⟩ := Option.map_eq_some_iff.mp h
      cases hRead
      have hLength := ih hOthers
      simp only [List.length_cons, List.countP_cons, hPlain, Bool.not_true, Bool.false_eq_true,
        if_false]
      omega
    · rw [hText, List.append_assoc] at h
      replace h : quotedText c ('\\' :: c :: (cs.flatMap (escaped c) ++ c :: rest)) = _ := h
      rw [quotedText_escape hQuote] at h
      obtain ⟨⟨others, m⟩, hOthers, hRead⟩ := Option.map_eq_some_iff.mp h
      cases hRead
      have hLength := ih hOthers
      simp only [List.length_cons, List.countP_cons, hPlain, Bool.not_true, Bool.false_eq_true,
        if_false]
      omega
    · rw [hText, List.append_assoc] at h
      replace h : quotedText quote ('\\' :: d :: (cs.flatMap (escaped quote) ++ quote :: rest)) =
        some (text, n) := h
      have hFirst : ∀ others : List Char, (d :: others).head? ≠ some quote := fun _ hHead =>
        hd (Option.some_inj.mp hHead)
      rw [quotedText_keep hQuote.ne_backslash.symm fun _ => hFirst _] at h
      obtain ⟨⟨others, m⟩, hOthers, hRead⟩ := Option.map_eq_some_iff.mp h
      cases hRead
      simp only [List.length_cons, List.countP_cons, hSpecial, Bool.not_false, if_true]
      by_cases hSwallow : d = '\\' ∧
          (cs.flatMap (escaped quote) ++ quote :: rest).head? = some quote
      · -- The second backslash takes the quote at the end with it.
        obtain ⟨rfl, hHead⟩ := hSwallow
        obtain rfl := eq_nil_of_head?_eq hQuote hHead
        replace hOthers : quotedText quote ('\\' :: quote :: rest) = some (others, m) := hOthers
        rw [quotedText_escape hQuote] at hOthers
        obtain ⟨⟨after, k⟩, -, hRead⟩ := Option.map_eq_some_iff.mp hOthers
        cases hRead
        simp
      · rw [quotedText_keep hd fun hBackslash hHead => hSwallow ⟨hBackslash, hHead⟩] at hOthers
        obtain ⟨⟨after, k⟩, hAfter, hRead⟩ := Option.map_eq_some_iff.mp hOthers
        cases hRead
        have hLength := ih hAfter
        simp only [List.length_cons]
        omega

end Formula.Lexer
