import Mathlib.Data.List.Sort
import Formula.SyntaxError

/-! The offsets of a report: those that it is made with, each once and in increasing order. Offsets
that increase, as those of a span do, are left as they are. -/

namespace Formula

/-- In a sorted list, an element that differs from the one before it is new. -/
theorem eraseReps_loop {offset : Nat} {offsets : List Nat} (kept : List Nat)
    (h : (offset :: offsets).Pairwise (· ≤ ·)) :
    ∃ rest, List.eraseRepsBy.loop (· == ·) offset offsets kept = kept.reverse ++ offset :: rest ∧
      (offset :: rest).Pairwise (· < ·) ∧ ∀ o, o ∈ offset :: rest ↔ o ∈ offset :: offsets := by
  induction offsets generalizing offset kept with
  | nil =>
    refine ⟨[], ?_, List.pairwise_singleton _ _, fun _ => Iff.rfl⟩
    simp [List.eraseRepsBy.loop]
  | cons next offsets ih =>
    obtain ⟨hFirst, hRest⟩ := List.pairwise_cons.mp h
    have hNext := hFirst next List.mem_cons_self
    by_cases hEq : offset = next
    · subst hEq
      obtain ⟨rest, hLoop, hIncreasing, hMem⟩ := ih kept hRest
      refine ⟨rest, ?_, hIncreasing, fun o => ?_⟩
      · simp only [List.eraseRepsBy.loop, BEq.rfl]
        exact hLoop
      · rw [hMem, List.mem_cons, List.mem_cons, List.mem_cons, ← or_assoc, or_self]
    · obtain ⟨rest, hLoop, hIncreasing, hMem⟩ := ih (offset :: kept) hRest
      refine ⟨next :: rest, ?_, ?_, fun o => ?_⟩
      · simp only [List.eraseRepsBy.loop, beq_false_of_ne hEq]
        rw [hLoop, List.reverse_cons, List.append_assoc, List.singleton_append]
      · refine List.pairwise_cons.mpr ⟨fun o ho => ?_, hIncreasing⟩
        rcases List.mem_cons.mp ((hMem o).mp ho) with rfl | ho
        · omega
        · have := (List.pairwise_cons.mp hRest).1 o ho
          omega
      · rw [List.mem_cons, hMem, List.mem_cons (b := offset)]

theorem eraseReps_spec {offsets : List Nat} (h : offsets.Pairwise (· ≤ ·)) :
    offsets.eraseReps.Pairwise (· < ·) ∧ ∀ o, o ∈ offsets.eraseReps ↔ o ∈ offsets := by
  cases offsets with
  | nil => exact ⟨.nil, fun _ => Iff.rfl⟩
  | cons offset offsets =>
    obtain ⟨rest, hLoop, hIncreasing, hMem⟩ := eraseReps_loop [] h
    have hErase : (offset :: offsets).eraseReps = offset :: rest := hLoop
    rw [hErase]
    exact ⟨hIncreasing, hMem⟩

namespace SyntaxError

theorem about_spec (message source : String) (offsets : List Nat) :
    (about message source offsets).offsets.Pairwise (· < ·) ∧
      ∀ o, o ∈ (about message source offsets).offsets ↔ o ∈ offsets := by
  have hSorted : offsets.mergeSort.Pairwise (· ≤ ·) := List.pairwise_mergeSort' (· ≤ ·) offsets
  obtain ⟨hIncreasing, hMem⟩ := eraseReps_spec hSorted
  exact ⟨hIncreasing, fun o => (hMem o).trans List.mem_mergeSort⟩

theorem about_offsets {offsets : List Nat} (h : offsets.Pairwise (· < ·))
    (message source : String) : (about message source offsets).offsets = offsets := by
  obtain ⟨hIncreasing, hMem⟩ := about_spec message source offsets
  exact hIncreasing.eq_of_mem_iff h hMem

end SyntaxError

namespace Span

theorem offsets_increasing (s : Span) : s.offsets.Pairwise (· < ·) := by
  unfold offsets
  split
  · exact List.pairwise_singleton _ _
  · exact List.pairwise_lt_range'

theorem head?_offsets {s : Span} (h : s.start ≤ s.stop) : s.offsets.head? = some s.start := by
  unfold offsets isEmpty
  by_cases hEmpty : s.start = s.stop
  · rw [if_pos (beq_iff_eq.mpr hEmpty)]
    rfl
  · have hLength : s.length = (s.length - 1) + 1 := by
      unfold length
      omega
    rw [if_neg (by simpa using hEmpty), hLength]
    rfl

end Span

end Formula
