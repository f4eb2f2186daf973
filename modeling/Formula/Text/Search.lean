import Formula.Text.Blank
import Formula.Text.Fingerprint

/-! Occurrences of one text in another, found from the left and without overlap. Everything that
searches follows `cut`, which parts a text at its first occurrence. It compares characters only
where fingerprints agree, which keeps a search linear; `cut_nil` and `cut_cons` say what it gives
without regard to fingerprints. -/

namespace Formula.Text

/-- What follows `t` at the start of `cs`. -/
def after? : List Char → List Char → Option (List Char)
  | [], cs => some cs
  | _ :: _, [] => none
  | x :: t, c :: cs => if x = c then after? t cs else none

/-- A text to look for, with its fingerprint and the weight of its first character in it. -/
structure Needle where
  text : List Char
  print : UInt64 := fingerprint text
  weight : UInt64 := leadingWeight (text.length - 1)
  print_eq : print = fingerprint text := by rfl
  weight_eq : weight = leadingWeight (text.length - 1) := by rfl

namespace Needle

def of (t : List Char) : Needle := { text := t }

/-- What follows the needle at the start of `cs`, where `print` is the fingerprint of as many
characters at the start of `cs` as the needle has. -/
def after? (t : Needle) (print : UInt64) (cs : List Char) : Option (List Char) :=
  if print = t.print then Text.after? t.text cs else none

/-- The text before the first occurrence in `cs` and the text after it, where `passed` is what comes
before `cs`, last character first. The characters at the start of `cs`, as many as the needle has,
have the fingerprint `print`, and `ahead` follows them. -/
def cutFrom (t : Needle) (passed : List Char) (print : UInt64) (cs : List Char) :
    List Char → Option (List Char × List Char)
  | [] => (t.after? print cs).map fun rest => (passed.reverse, rest)
  | d :: ahead =>
    match t.after? print cs, cs with
    | some rest, _ => some (passed.reverse, rest)
    | none, c :: cs => cutFrom t (c :: passed) (slidePrint t.weight print c d) cs ahead
    | none, [] => none

/-- The text before the first occurrence in `cs` and the text after it. -/
def cut (t : Needle) (cs : List Char) : Option (List Char × List Char) :=
  t.cutFrom [] (fingerprint (cs.take t.text.length)) cs (cs.drop t.text.length)

/-- The pieces of `cs` around the first occurrences, of which there are at most the given number.
They follow those that are `found`, last piece first. -/
def piecesFrom (t : Needle) (found : List (List Char)) : Nat → List Char → List (List Char)
  | 0, cs => (cs :: found).reverse
  | n + 1, cs =>
    match t.cut cs with
    | none => (cs :: found).reverse
    | some (before, rest) => piecesFrom t (before :: found) n rest

theorem after?_eq_none {t cs : List Char} (h : cs.length < t.length) : Text.after? t cs = none := by
  induction t generalizing cs with
  | nil => simp at h
  | cons x t ih =>
    cases cs with
    | nil => rfl
    | cons c cs =>
      unfold Text.after?
      split
      · exact ih (by simpa using h)
      · rfl

theorem after?_eq_some {t cs rest : List Char} (h : Text.after? t cs = some rest) :
    cs = t ++ rest := by
  induction t generalizing cs with
  | nil => simpa [Text.after?] using h
  | cons x t ih =>
    cases cs with
    | nil => simp [Text.after?] at h
    | cons c cs =>
      unfold Text.after? at h
      split at h
      · next heq => rw [heq, ih h, List.cons_append]
      · simp at h

/-- The fingerprint never hides an occurrence. -/
theorem after?_take (t : Needle) (cs : List Char) :
    t.after? (fingerprint (cs.take t.text.length)) cs = Text.after? t.text cs := by
  unfold Needle.after?
  split
  · rfl
  · next h =>
    cases hr : Text.after? t.text cs with
    | none => rfl
    | some rest =>
      refine absurd ?_ h
      rw [after?_eq_some hr, List.take_left, t.print_eq]

theorem cutFrom_passed (t : Needle) (passed : List Char) (print : UInt64) (cs ahead : List Char) :
    t.cutFrom passed print cs ahead =
      (t.cutFrom [] print cs ahead).map fun (before, rest) => (passed.reverse ++ before, rest) := by
  induction ahead generalizing passed print cs with
  | nil =>
    unfold cutFrom
    cases t.after? print cs <;> simp
  | cons d ahead ih =>
    unfold cutFrom
    cases t.after? print cs with
    | some rest => simp
    | none =>
      cases cs with
      | nil => rfl
      | cons c cs =>
        simp only
        rw [ih (c :: passed), ih [c]]
        cases t.cutFrom [] (slidePrint t.weight print c d) cs ahead <;> simp

theorem cut_nil (t : Needle) :
    t.cut [] = (Text.after? t.text []).map fun rest => ([], rest) := by
  rw [cut, List.drop_nil, cutFrom, after?_take]
  rfl

/-- No text occurs in a shorter one. -/
theorem cut_eq_none {t : Needle} {cs : List Char} (h : cs.length < t.text.length) :
    t.cut cs = none := by
  rw [cut, List.drop_eq_nil_of_le (Nat.le_of_lt h), cutFrom, after?_take, after?_eq_none h]
  rfl

/-- The first occurrence is at the first character, or it is the first in the characters after
that. -/
theorem cut_cons (t : Needle) (c : Char) (cs : List Char) :
    t.cut (c :: cs) =
      match Text.after? t.text (c :: cs) with
      | some rest => some ([], rest)
      | none => (t.cut cs).map fun (before, rest) => (c :: before, rest) := by
  unfold cut
  cases hd : (c :: cs).drop t.text.length with
  | nil =>
    have short : cs.length < t.text.length := List.drop_eq_nil_iff.1 hd
    rw [cutFrom, after?_take, ← cut, cut_eq_none short]
    cases Text.after? t.text (c :: cs) <;> rfl
  | cons d ahead =>
    cases h : Text.after? t.text (c :: cs) with
    | some rest => simp [cutFrom, after?_take, h]
    | none =>
      obtain ⟨n, hn⟩ : ∃ n, t.text.length = n + 1 := by
        cases ht : t.text with
        | nil => simp [ht, Text.after?] at h
        | cons x text => exact ⟨text.length, rfl⟩
      have hahead : cs.drop n = d :: ahead := by simpa [hn] using hd
      have hlength : (cs.take n).length = n := by
        have := congrArg List.length hahead
        simp at this ⊢
        omega
      have hdrop : cs.drop (n + 1) = ahead := by
        rw [← List.drop_drop, hahead]
        rfl
      have htake : cs.take (n + 1) = cs.take n ++ [d] := by
        rw [List.take_add, hahead]
        rfl
      have hweight : t.weight = leadingWeight (cs.take n).length := by
        rw [t.weight_eq, hn, hlength]
        rfl
      have slide := slidePrint_fingerprint c d (cs.take n)
      rw [← htake, ← hweight, ← List.take_succ_cons, ← hn] at slide
      simp only [cutFrom, after?_take, h]
      rw [cutFrom_passed, slide, hn, hdrop]
      simp

end Needle

/-- The pieces of `cs` around at most `n` occurrences of `t`. The empty text occurs before each
character and at the end. -/
def pieces (t : List Char) (n : Nat) (cs : List Char) : List (List Char) :=
  match t, n with
  | [], 0 => [cs]
  | [], n + 1 => [] :: (cs.take n).map ([·]) ++ [cs.drop n]
  | t, n => (Needle.of t).piecesFrom [] n cs

/-- The pieces of `cs` around all occurrences of `t`. -/
def split (t cs : List Char) : List (List Char) := pieces t (cs.length + 1) cs

def count (t cs : List Char) : Nat :=
  match t with
  | [] => cs.length + 1
  | t => (split t cs).length - 1

def find? (t cs : List Char) : Option Nat := ((Needle.of t).cut cs).map (·.1.length)

/-- `cs` with at most `n` occurrences of `t` replaced by `u`. -/
def replaceUpTo (t u : List Char) (n : Nat) (cs : List Char) : List Char :=
  u.intercalate (pieces t n cs)

/-- `cs` with all occurrences of `t` replaced by `u`. -/
def replace (t u cs : List Char) : List Char := u.intercalate (split t cs)

/-- The runs of characters that are not white space. -/
def words (cs : List Char) : List (List Char) :=
  (cs.splitOnP isBlank).filter (!·.isEmpty)

end Formula.Text
