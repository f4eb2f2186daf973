/-! Fingerprints: numbers that are equal for equal texts and seldom for others. The fingerprint of
some successive characters of a text gives that of as many characters one place further on in a
step that does not depend on how many they are. -/

namespace Formula.Text

/-- What a character counts for, relative to the character after it. -/
def fingerprintBase : UInt64 := 1000000007

/-- The fingerprint of a text of fingerprint `print` with `c` behind it. -/
def appendPrint (print : UInt64) (c : Char) : UInt64 := print * fingerprintBase + c.val.toUInt64

def fingerprint (cs : List Char) : UInt64 := cs.foldl appendPrint 0

/-- What a character counts for that stands in front of `n` others. -/
def leadingWeight (n : Nat) : UInt64 := Nat.repeat (· * fingerprintBase) n 1

/-- The fingerprint of a text of fingerprint `print` that loses its first character `c`, of weight
`weight`, and has `d` put behind it. -/
def slidePrint (weight print : UInt64) (c d : Char) : UInt64 :=
  appendPrint (print - c.val.toUInt64 * weight) d

theorem foldl_appendPrint (cs : List Char) (print : UInt64) :
    cs.foldl appendPrint print = print * leadingWeight cs.length + fingerprint cs := by
  unfold fingerprint
  induction cs generalizing print with
  | nil => simp [leadingWeight, Nat.repeat]
  | cons c cs ih =>
    have step : leadingWeight (cs.length + 1) = leadingWeight cs.length * fingerprintBase := rfl
    rw [List.foldl_cons, List.foldl_cons, ih, ih (appendPrint 0 c), List.length_cons, step]
    unfold appendPrint
    grind

theorem fingerprint_cons (c : Char) (cs : List Char) :
    fingerprint (c :: cs) = c.val.toUInt64 * leadingWeight cs.length + fingerprint cs := by
  rw [fingerprint, List.foldl_cons, foldl_appendPrint]
  unfold appendPrint
  grind

/-- A slide gives the fingerprint of the text one place further on. -/
theorem slidePrint_fingerprint (c d : Char) (cs : List Char) :
    slidePrint (leadingWeight cs.length) (fingerprint (c :: cs)) c d = fingerprint (cs ++ [d]) := by
  have left : fingerprint (c :: cs) - c.val.toUInt64 * leadingWeight cs.length =
      fingerprint cs := by
    rw [fingerprint_cons]
    grind
  rw [slidePrint, left]
  simp [fingerprint]

end Formula.Text
