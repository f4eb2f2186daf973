import Mathlib.Logic.Basic
import Mathlib.Tactic.SplitIfs
import Formula.Text.Blank
import Formula.Text.Quoted

/-! How characters are written between quotes: as themselves, or as a backslash and another
character. -/

namespace Formula.Text

/-- Whether `c` stands for itself between quotes, or behind a backslash if it is the quote. -/
def isPlain (c : Char) : Bool := c != '\\' && c != '\n' && c != '\r' && c != '\t'

/-- The two characters that text is quoted with. -/
def IsQuote (quote : Char) : Prop := quote = '\'' ∨ quote = '"'

theorem isQuote_quoteFor (cs : List Char) : IsQuote (quoteFor cs) := by
  unfold quoteFor
  split
  · exact .inr rfl
  · exact .inl rfl

theorem IsQuote.ne_backslash {quote : Char} (h : IsQuote quote) : quote ≠ '\\' := by
  rcases h with rfl | rfl <;> decide

theorem IsQuote.isBlank {quote : Char} (h : IsQuote quote) : Text.isBlank quote = false := by
  rcases h with rfl | rfl <;> decide

/-- A character is written as itself, as the quote behind a backslash, or as a backslash and another
character. -/
theorem escaped_cases {quote : Char} (hQuote : IsQuote quote) (c : Char) :
    (isPlain c ∧ c ≠ quote ∧ escaped quote c = [c]) ∨
    (isPlain c ∧ c = quote ∧ escaped quote c = ['\\', quote]) ∨
    (isPlain c = false ∧ ∃ d, d ≠ quote ∧ escaped quote c = ['\\', d]) := by
  have hLetters : '\\' ≠ quote ∧ 'n' ≠ quote ∧ 'r' ≠ quote ∧ 't' ≠ quote := by
    rcases hQuote with rfl | rfl <;> decide
  by_cases hPlain : isPlain c
  · have hc : ((c ≠ '\\' ∧ c ≠ '\n') ∧ c ≠ '\r') ∧ c ≠ '\t' := by simpa [isPlain] using hPlain
    by_cases hEq : c = quote
    · subst hEq
      exact .inr (.inl ⟨hPlain, rfl, by simp [escaped, hc]⟩)
    · exact .inl ⟨hPlain, hEq, by simp [escaped, hc, hEq]⟩
  · have hSpecial : c = '\\' ∨ c = '\n' ∨ c = '\r' ∨ c = '\t' := by
      simpa [isPlain, imp_iff_not_or, or_assoc] using hPlain
    refine .inr (.inr ⟨by simpa using hPlain, ?_⟩)
    rcases hSpecial with rfl | rfl | rfl | rfl
    · exact ⟨_, hLetters.1, rfl⟩
    · exact ⟨_, hLetters.2.1, rfl⟩
    · exact ⟨_, hLetters.2.2.1, rfl⟩
    · exact ⟨_, hLetters.2.2.2, rfl⟩

theorem length_escaped_pos (quote c : Char) : 0 < (escaped quote c).length := by
  unfold escaped
  split_ifs <;> exact Nat.succ_pos _

/-- No line ends within quotes. -/
theorem newline_not_mem_quoted (cs : List Char) : '\n' ∉ quoted cs := by
  have hQuote : quoteFor cs ≠ '\n' := by
    rcases isQuote_quoteFor cs with h | h <;> rw [h] <;> decide
  have hEscaped : ∀ c, '\n' ∉ escaped (quoteFor cs) c := by
    intro c
    unfold escaped
    split_ifs <;> simp_all [eq_comm]
  simp [quoted, quotedWith, hQuote.symm, hEscaped]

/-- The quote stands at the start of nothing but the end. -/
theorem eq_nil_of_head?_eq {quote : Char} (hQuote : IsQuote quote) {cs rest : List Char}
    (h : (cs.flatMap (escaped quote) ++ rest).head? = some quote) : cs = [] := by
  cases cs with
  | nil => rfl
  | cons c cs =>
    rcases escaped_cases hQuote c with ⟨-, hc, hText⟩ | ⟨-, -, hText⟩ | ⟨-, d, -, hText⟩
    · exact absurd (by simpa [hText] using h) hc
    all_goals exact absurd (by simpa [hText] using h.symm) hQuote.ne_backslash

/-- What a character stands for behind a backslash. -/
def meant : Char → Char
  | 'n' => '\n'
  | 'r' => '\r'
  | 't' => '\t'
  | d => d

theorem escaped_meant {quote : Char} (hQuote : IsQuote quote) (c : Char) :
    (c ≠ '\\' ∧ escaped quote c = [c]) ∨ ∃ d, meant d = c ∧ escaped quote c = ['\\', d] := by
  unfold escaped
  split_ifs with hBackslash hFeed hReturn hTab hc
  · exact .inr ⟨'\\', hBackslash.symm, rfl⟩
  · exact .inr ⟨'n', hFeed.symm, rfl⟩
  · exact .inr ⟨'r', hReturn.symm, rfl⟩
  · exact .inr ⟨'t', hTab.symm, rfl⟩
  · refine .inr ⟨c, ?_, rfl⟩
    rcases hc ▸ hQuote with rfl | rfl <;> rfl
  · exact .inl ⟨hBackslash, rfl⟩

/-- Characters written one after another are told apart one at a time. -/
theorem escaped_append_inj {quote c d : Char} (hQuote : IsQuote quote) {xs ys : List Char}
    (h : escaped quote c ++ xs = escaped quote d ++ ys) : c = d ∧ xs = ys := by
  rcases escaped_meant hQuote c with ⟨hc, hText⟩ | ⟨e, rfl, hText⟩ <;>
    rcases escaped_meant hQuote d with ⟨hd, hText'⟩ | ⟨e', rfl, hText'⟩ <;>
    rw [hText, hText'] at h
  · exact List.cons.inj h
  · exact absurd (List.cons.inj h).1 hc
  · exact absurd (List.cons.inj h).1.symm hd
  · obtain ⟨rfl, hRest⟩ := List.cons.inj (List.cons.inj h).2
    exact ⟨rfl, hRest⟩

theorem flatMap_escaped_inj {quote : Char} (hQuote : IsQuote quote) {cs ds r r' : List Char}
    (h : cs.flatMap (escaped quote) ++ quote :: r = ds.flatMap (escaped quote) ++ quote :: r') :
    cs = ds ∧ r = r' := by
  induction cs generalizing ds with
  | nil =>
    obtain rfl : ds = [] := eq_nil_of_head?_eq hQuote (by rw [← h]; rfl)
    exact ⟨rfl, (List.cons.inj h).2⟩
  | cons c cs ih =>
    cases ds with
    | nil => exact absurd (eq_nil_of_head?_eq hQuote (by rw [h]; rfl)) (List.cons_ne_nil c cs)
    | cons d ds =>
      simp only [List.flatMap_cons, List.append_assoc] at h
      obtain ⟨rfl, hRest⟩ := escaped_append_inj hQuote h
      obtain ⟨rfl, hEnd⟩ := ih hRest
      exact ⟨rfl, hEnd⟩

/-- Quoted text ends where its quote ends, and it tells what is quoted. -/
theorem quoted_append_inj {cs ds r r' : List Char} (h : quoted cs ++ r = quoted ds ++ r') :
    cs = ds ∧ r = r' := by
  simp only [quoted, quotedWith, List.cons_append, List.append_assoc, List.nil_append,
    List.cons.injEq] at h
  obtain ⟨hQuote, hText⟩ := h
  rw [hQuote] at hText
  exact flatMap_escaped_inj (isQuote_quoteFor ds) hText

end Formula.Text
