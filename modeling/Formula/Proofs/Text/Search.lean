import Mathlib.Data.List.TakeDrop
import Formula.Text.Search

/-! One segmentation underlies everything that searches a text. The occurrences of `t`, found from
the left and without overlap, part a text into pieces in exactly one way, and the pieces around all
or some of the occurrences and the texts where these are replaced are read off from those. -/

namespace Formula.Text

variable {t cs before rest : List Char} {parts : List (List Char)}

/-! ### The first occurrence -/

/-- The first occurrence of `t` in `cs` follows `before` and comes before `rest`. -/
structure FirstAt (t cs before rest : List Char) : Prop where
  eq : cs = before ++ t ++ rest
  leftmost : ∀ a b, cs = a ++ t ++ b → before.length ≤ a.length

theorem FirstAt.isInfix (h : FirstAt t cs before rest) : t <:+: cs := ⟨before, rest, h.eq.symm⟩

theorem FirstAt.unique {before' rest' : List Char} (h : FirstAt t cs before rest)
    (h' : FirstAt t cs before' rest') : before = before' ∧ rest = rest' := by
  have hLength : before.length = before'.length :=
    Nat.le_antisymm (h.leftmost _ _ h'.eq) (h'.leftmost _ _ h.eq)
  have hSame : before ++ (t ++ rest) = before' ++ (t ++ rest') := by
    rw [← List.append_assoc, ← h.eq, h'.eq, List.append_assoc]
  obtain ⟨hBefore, hTail⟩ := List.append_inj hSame hLength
  exact ⟨hBefore, List.append_cancel_left hTail⟩

theorem firstAt_start (t rest : List Char) : FirstAt t (t ++ rest) [] rest :=
  ⟨rfl, fun _ _ _ => Nat.zero_le _⟩

theorem FirstAt.cons {c : Char} (h : FirstAt t cs before rest) (hNot : ¬t <+: c :: cs) :
    FirstAt t (c :: cs) (c :: before) rest where
  eq := by rw [h.eq]; rfl
  leftmost a b hEq := by
    cases a with
    | nil => exact absurd ⟨b, hEq.symm⟩ hNot
    | cons x a =>
      have hTail : cs = a ++ t ++ b := (List.cons.inj hEq).2
      exact Nat.succ_le_succ (h.leftmost a b hTail)

/-- The text before the first occurrence has none. -/
theorem FirstAt.free (h : FirstAt t cs before rest) (hne : t ≠ []) : ¬t <:+: before := by
  rintro ⟨a, b, hBefore⟩
  have hLeft := h.leftmost a (b ++ t ++ rest) (by simp [h.eq, ← hBefore])
  have hPos := List.length_pos_iff.mpr hne
  have hLength : before.length = a.length + t.length + b.length := by
    rw [← hBefore, List.length_append, List.length_append]
  omega

theorem after?_append (t rest : List Char) : after? t (t ++ rest) = some rest := by
  induction t with
  | nil => rfl
  | cons x t ih => rwa [List.cons_append, after?, if_pos rfl]

theorem after?_eq_none_iff : after? t cs = none ↔ ¬t <+: cs := by
  constructor
  · rintro hNone ⟨rest, rfl⟩
    rw [after?_append] at hNone
    cases hNone
  · intro hNot
    cases hSome : after? t cs with
    | none => rfl
    | some rest => exact absurd ⟨rest, (Needle.after?_eq_some hSome).symm⟩ hNot

theorem cut_start {t : Needle} (h : t.text <+: cs) :
    ∃ before rest, t.cut cs = some (before, rest) ∧ FirstAt t.text cs before rest := by
  obtain ⟨rest, rfl⟩ := h
  refine ⟨[], rest, ?_, firstAt_start t.text rest⟩
  have hAfter := after?_append t.text rest
  generalize t.text ++ rest = cs at hAfter
  cases cs with
  | nil => rw [Needle.cut_nil, hAfter]; rfl
  | cons c cs => rw [Needle.cut_cons, hAfter]

/-- A text is cut at the first occurrence, unless there is none. -/
theorem cut_spec (t : Needle) (cs : List Char) :
    (∃ before rest, t.cut cs = some (before, rest) ∧ FirstAt t.text cs before rest) ∨
      t.cut cs = none ∧ ¬t.text <:+: cs := by
  induction cs with
  | nil =>
    by_cases hPrefix : t.text <+: []
    · exact .inl (cut_start hPrefix)
    · refine .inr ⟨by rw [Needle.cut_nil, after?_eq_none_iff.mpr hPrefix]; rfl, ?_⟩
      rwa [List.infix_nil, ← List.prefix_nil]
  | cons c cs ih =>
    by_cases hPrefix : t.text <+: c :: cs
    · exact .inl (cut_start hPrefix)
    · rw [Needle.cut_cons, after?_eq_none_iff.mpr hPrefix]
      obtain ⟨before, rest, hCut, hFirst⟩ | ⟨hCut, hFree⟩ := ih
      · exact .inl ⟨c :: before, rest, by rw [hCut]; rfl, hFirst.cons hPrefix⟩
      · refine .inr ⟨by rw [hCut]; rfl, fun hInfix => ?_⟩
        exact (List.infix_cons_iff.mp hInfix).elim hPrefix hFree

theorem cut_eq_some_iff {t : Needle} :
    t.cut cs = some (before, rest) ↔ FirstAt t.text cs before rest := by
  obtain ⟨before', rest', hCut, hFirst⟩ | ⟨hCut, hFree⟩ := cut_spec t cs
  · rw [hCut]
    refine ⟨fun hSame => ?_, fun h => ?_⟩
    · cases hSame
      exact hFirst
    · obtain ⟨rfl, rfl⟩ := h.unique hFirst
      rfl
  · rw [hCut]
    exact iff_of_false nofun fun h => hFree h.isInfix

theorem cut_eq_none_iff {t : Needle} : t.cut cs = none ↔ ¬t.text <:+: cs := by
  obtain ⟨before, rest, hCut, hFirst⟩ | ⟨hCut, hFree⟩ := cut_spec t cs
  · rw [hCut]
    exact iff_of_false nofun (not_not_intro hFirst.isInfix)
  · exact iff_of_true hCut hFree

/-! ### All occurrences -/

/-- `parts` are the pieces of `cs` around the occurrences of `t` that are found from the left, each
in what follows the one before. -/
inductive Parted (t : List Char) : List Char → List (List Char) → Prop
  | last {cs : List Char} (free : ¬t <:+: cs) : Parted t cs [cs]
  | next {cs before rest : List Char} {parts : List (List Char)} (first : FirstAt t cs before rest)
      (others : Parted t rest parts) : Parted t cs (before :: parts)

namespace Parted

theorem ne_nil (h : Parted t cs parts) : parts ≠ [] := by
  cases h <;> exact List.cons_ne_nil _ _

theorem unique {parts' : List (List Char)} (h : Parted t cs parts) (h' : Parted t cs parts') :
    parts = parts' := by
  induction h generalizing parts' with
  | last free =>
    cases h' with
    | last _ => rfl
    | next first' _ => exact absurd first'.isInfix free
  | next first _ ih =>
    cases h' with
    | last free' => exact absurd first.isInfix free'
    | next first' others' =>
      obtain ⟨rfl, rfl⟩ := first.unique first'
      rw [ih others']

/-- The pieces and the occurrences between them are the whole text. -/
theorem intercalate (h : Parted t cs parts) : t.intercalate parts = cs := by
  induction h with
  | last _ => exact List.intercalate_singleton
  | next first others ih => rw [List.intercalate_cons_of_ne_nil others.ne_nil, ih, first.eq]

theorem free (h : Parted t cs parts) (hne : t ≠ []) : ∀ part ∈ parts, ¬t <:+: part := by
  induction h with
  | last free => simpa using free
  | next first _ ih => exact List.forall_mem_cons.mpr ⟨first.free hne, ih⟩

theorem length_le (h : Parted t cs parts) (hne : t ≠ []) : parts.length ≤ cs.length + 1 := by
  induction h with
  | last _ => simp
  | next first _ ih =>
    have hPos := List.length_pos_iff.mpr hne
    simp only [first.eq, List.length_append, List.length_cons]
    omega

end Parted

/-- Every text is parted. -/
theorem exists_parted (hne : t ≠ []) (cs : List Char) : ∃ parts, Parted t cs parts := by
  induction hLength : cs.length using Nat.strongRecOn generalizing cs with
  | ind n ih =>
    obtain ⟨before, rest, -, hFirst⟩ | ⟨-, hFree⟩ := cut_spec (Needle.of t) cs
    · have hShort : rest.length < n := by
        have hPos := List.length_pos_iff.mpr hne
        simp only [← hLength, hFirst.eq, List.length_append, Needle.of]
        omega
      obtain ⟨parts, others⟩ := ih rest.length hShort rest rfl
      exact ⟨before :: parts, .next hFirst others⟩
    · exact ⟨[cs], .last hFree⟩

/-! ### The pieces and what is made of them -/

theorem intercalate_eq {n : Nat} (hn : n < parts.length) :
    t.intercalate parts = (parts.take n).flatMap (· ++ t) ++ t.intercalate (parts.drop n) := by
  induction n generalizing parts with
  | zero => rfl
  | succ n ih =>
    obtain ⟨part, parts, rfl⟩ := List.exists_cons_of_length_pos (Nat.zero_lt_of_lt hn)
    have hRest : n < parts.length := Nat.lt_of_succ_lt_succ hn
    rw [List.intercalate_cons_of_ne_nil (List.ne_nil_of_length_pos (Nat.zero_lt_of_lt hRest)),
      ih hRest, List.take_succ_cons, List.flatMap_cons, List.drop_succ_cons]
    simp only [List.append_assoc]

theorem intercalate_concat (u : List Char) (befores : List (List Char)) (rest : List Char) :
    u.intercalate (befores ++ [rest]) = befores.flatMap (· ++ u) ++ rest := by
  rw [intercalate_eq (n := befores.length) (by simp), List.take_left, List.drop_left,
    List.intercalate_singleton]

/-- The pieces around the first `n` occurrences, of which the last is the text that is left. -/
def firstPieces (t : List Char) (n : Nat) (parts : List (List Char)) : List (List Char) :=
  parts.take n ++ [t.intercalate (parts.drop n)]

theorem piecesFrom_eq {t : Needle} (h : Parted t.text cs parts) (found : List (List Char))
    (n : Nat) :
    t.piecesFrom found n cs =
      found.reverse ++ firstPieces t.text (min n (parts.length - 1)) parts := by
  induction h generalizing found n with
  | @last cs free =>
    have hWhole : firstPieces t.text 0 [cs] = [cs] := by
      rw [firstPieces, List.drop_zero, List.intercalate_singleton]
      rfl
    rw [List.length_singleton, Nat.sub_self, Nat.min_zero, hWhole]
    cases n with
    | zero => rw [Needle.piecesFrom, List.reverse_cons]
    | succ n => rw [Needle.piecesFrom, cut_eq_none_iff.mpr free, List.reverse_cons]
  | @next cs before rest parts first others ih =>
    cases n with
    | zero =>
      have hWhole := (Parted.next first others).intercalate
      rw [Needle.piecesFrom, Nat.zero_min, firstPieces, List.drop_zero, hWhole, List.reverse_cons]
      rfl
    | succ n =>
      have hPos := List.length_pos_iff.mpr others.ne_nil
      have hMin : min (n + 1) ((before :: parts).length - 1) = min n (parts.length - 1) + 1 := by
        rw [List.length_cons]
        omega
      rw [Needle.piecesFrom, cut_eq_some_iff.mpr first, hMin]
      dsimp only
      rw [ih, List.reverse_cons, List.append_assoc]
      rfl

theorem pieces_eq (h : Parted t cs parts) (hne : t ≠ []) (n : Nat) :
    pieces t n cs = firstPieces t (min n (parts.length - 1)) parts := by
  obtain ⟨c, t, rfl⟩ := List.exists_cons_of_ne_nil hne
  exact piecesFrom_eq (t := Needle.of (c :: t)) h [] n

theorem split_eq (h : Parted t cs parts) (hne : t ≠ []) : split t cs = parts := by
  have hLength := h.length_le hne
  rw [split, pieces_eq h hne, Nat.min_eq_right (by omega), firstPieces, ← List.dropLast_eq_take,
    List.drop_length_sub_one h.ne_nil, List.intercalate_singleton, List.dropLast_concat_getLast]

theorem count_eq (h : Parted t cs parts) (hne : t ≠ []) : count t cs = parts.length - 1 := by
  obtain ⟨c, t, rfl⟩ := List.exists_cons_of_ne_nil hne
  show (split (c :: t) cs).length - 1 = _
  rw [split_eq h hne]

/-- Either nothing is found and there is one piece, or the first piece ends at what is found. -/
theorem find?_spec (h : Parted t cs parts) :
    (find? t cs = none ∧ parts = [cs]) ∨
      ∃ before rest others, find? t cs = some before.length ∧ FirstAt t cs before rest ∧
        parts = before :: others ∧ others ≠ [] := by
  cases h with
  | last free =>
    have hCut : (Needle.of t).cut cs = none := cut_eq_none_iff.mpr free
    exact .inl ⟨by rw [find?, hCut]; rfl, rfl⟩
  | @next _ before rest others first hOthers =>
    have hCut : (Needle.of t).cut cs = some (before, rest) := cut_eq_some_iff.mpr first
    exact .inr ⟨before, rest, others, by rw [find?, hCut]; rfl, first, rfl, hOthers.ne_nil⟩

theorem find?_eq_zero_iff : find? t cs = some 0 ↔ t <+: cs := by
  rw [find?, Option.map_eq_some_iff]
  constructor
  · rintro ⟨⟨before, rest⟩, hCut, hZero⟩
    have hFirst : FirstAt t cs before rest := cut_eq_some_iff.mp hCut
    obtain rfl := List.length_eq_zero_iff.mp hZero
    exact ⟨rest, hFirst.eq.symm⟩
  · rintro ⟨rest, rfl⟩
    exact ⟨([], rest), cut_eq_some_iff.mpr (firstAt_start t rest), rfl⟩

theorem replace_eq (h : Parted t cs parts) (hne : t ≠ []) (u : List Char) :
    replace t u cs = u.intercalate parts := by
  rw [replace, split_eq h hne]

/-- The first occurrences are replaced, and what follows them is as it was. -/
theorem replaceUpTo_eq (h : Parted t cs parts) (hne : t ≠ []) (n : Nat) :
    ∃ rest, cs = (parts.take (min n (parts.length - 1))).flatMap (· ++ t) ++ rest ∧
      ∀ u, replaceUpTo t u n cs =
        (parts.take (min n (parts.length - 1))).flatMap (· ++ u) ++ rest := by
  have hPos := List.length_pos_iff.mpr h.ne_nil
  refine ⟨_, h.intercalate.symm.trans (intercalate_eq (by omega)), fun u => ?_⟩
  rw [replaceUpTo, pieces_eq h hne, firstPieces, intercalate_concat]

end Formula.Text
