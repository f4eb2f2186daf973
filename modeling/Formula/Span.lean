/-! Stretches of a source, counted in characters from its start. -/

namespace Formula

/-- The characters from `start` up to `stop`, without `stop`. -/
structure Span where
  start : Nat
  stop : Nat
deriving DecidableEq

namespace Span

def length (s : Span) : Nat := s.stop - s.start

def isEmpty (s : Span) : Bool := s.start == s.stop

/-- The characters of `s`; an empty span still points at its start. -/
def offsets (s : Span) : List Nat :=
  if s.isEmpty then [s.start] else List.range' s.start s.length

/-- `s` cut down to a source of `length` characters; what lies past the end becomes empty. -/
def clamp (length : Nat) (s : Span) : Span :=
  let start := min s.start length
  ⟨start, max (min s.stop length) start⟩

end Span

end Formula
