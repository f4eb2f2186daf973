import Formula.Text.Blank

/-! Text without the characters of a kind at its ends: what is left if they stand around something
that has none. -/

namespace Formula.Text

variable {p : Char → Bool} {core cs : List Char}

/-- A text is `core` with nothing but characters that satisfy `p` around it. -/
def Pads (p : Char → Bool) (core cs : List Char) : Prop :=
  ∃ before after, (∀ c ∈ before, p c) ∧ (∀ c ∈ after, p c) ∧ cs = before ++ (core ++ after)

theorem trimStart_append {before rest : List Char} (h : ∀ c ∈ before, p c)
    (hRest : ∀ c ∈ rest.head?, p c = false) : trimStart p (before ++ rest) = rest := by
  rw [trimStart, List.dropWhile_append_of_pos h]
  cases rest with
  | nil => rfl
  | cons c rest => exact List.dropWhile_cons_of_neg (by simp [hRest c rfl])

theorem trimEnd_append {rest after : List Char} (h : ∀ c ∈ after, p c)
    (hRest : ∀ c ∈ rest.getLast?, p c = false) : trimEnd p (rest ++ after) = rest := by
  have hStart : trimStart p (after.reverse ++ rest.reverse) = rest.reverse :=
    trimStart_append (by simpa using h) (by simpa using hRest)
  rw [trimStart, ← List.reverse_append] at hStart
  rw [trimEnd, hStart, List.reverse_reverse]

theorem pads_trim (p : Char → Bool) (cs : List Char) : Pads p (trim p cs) cs := by
  refine ⟨cs.takeWhile p, ((trimStart p cs).reverse.takeWhile p).reverse, ?_, ?_, ?_⟩
  · exact List.all_eq_true.mp List.all_takeWhile
  · intro c hc
    exact List.all_eq_true.mp List.all_takeWhile c (List.mem_reverse.mp hc)
  · rw [trim, trimEnd, ← List.reverse_append, List.takeWhile_append_dropWhile, List.reverse_reverse,
      trimStart, List.takeWhile_append_dropWhile]

theorem trim_of_pads (h : Pads p core cs) (hCore : ∀ c ∈ core, p c = false) :
    trim p cs = core := by
  obtain ⟨before, after, hBefore, hAfter, rfl⟩ := h
  have hLast : ∀ c ∈ core.getLast?, p c = false := fun c hc => hCore c (List.mem_of_getLast? hc)
  cases core with
  | nil =>
    have hAll : trimStart p (before ++ after ++ []) = [] :=
      trimStart_append (by simpa [or_imp, forall_and] using ⟨hBefore, hAfter⟩) (by simp)
    rw [List.append_nil] at hAll
    rw [trim, List.nil_append, hAll]
    rfl
  | cons c core =>
    have hFirst : p c = false := hCore c List.mem_cons_self
    rw [trim, trimStart_append hBefore (by simpa using hFirst), trimEnd_append hAfter hLast]

end Formula.Text
