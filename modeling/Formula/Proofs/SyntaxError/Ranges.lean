import Formula.Proofs.Offsets

/-! The ranges of a report are the runs of its offsets. Cut down to the source, they hold the
offsets of its characters. -/

namespace Formula

namespace Span

/-- The numbers that lie in `s`, of which an empty span has none. -/
def covered (s : Span) : List Nat := List.range' s.start s.length

theorem mem_covered {s : Span} {o : Nat} : o ∈ s.covered ↔ s.start ≤ o ∧ o < s.stop := by
  rw [covered, length, List.mem_range'_1]
  omega

theorem covered_cons {s : Span} (h : s.start < s.stop) :
    s.covered = s.start :: (⟨s.start + 1, s.stop⟩ : Span).covered := by
  rw [covered, covered, length, length, show s.stop - s.start = s.stop - (s.start + 1) + 1 by omega,
    List.range'_succ]

theorem clamp_bounds (s : Span) (length : Nat) :
    (s.clamp length).start ≤ (s.clamp length).stop ∧ (s.clamp length).stop ≤ length := by
  simp only [clamp]
  omega

/-- What is left of a span are its numbers below the length. -/
theorem covered_clamp (s : Span) (length : Nat) :
    (s.clamp length).covered = s.covered.filter (· < length) := by
  have hIncreasing : ∀ s : Span, s.covered.Pairwise (· < ·) := fun _ => List.pairwise_lt_range'
  refine (hIncreasing _).eq_of_mem_iff ((hIncreasing s).filter _) fun o => ?_
  rw [List.mem_filter, mem_covered, mem_covered, decide_eq_true_iff]
  simp only [clamp]
  omega

end Span

namespace SyntaxError

variable {offsets : List Nat}

theorem runs_nonempty : ∀ r ∈ runs offsets, r.start < r.stop := by
  fun_induction runs offsets with
  | case1 => exact nofun
  | case2 offset rest hRuns ih => simp
  | case3 offset rest next others hRuns hNext ih =>
    rw [hRuns, List.forall_mem_cons] at ih
    refine List.forall_mem_cons.mpr ⟨?_, ih.2⟩
    have := ih.1
    simp only
    omega
  | case4 offset rest next others hRuns hNext ih =>
    rw [hRuns] at ih
    exact List.forall_mem_cons.mpr ⟨Nat.lt_succ_self offset, ih⟩

/-- The runs hold the offsets. -/
theorem covered_runs (offsets : List Nat) : (runs offsets).flatMap Span.covered = offsets := by
  have hSingle : ∀ offset, (⟨offset, offset + 1⟩ : Span).covered = [offset] := fun offset => by
    simp [Span.covered, Span.length]
  fun_induction runs offsets with
  | case1 => rfl
  | case2 offset rest hRuns ih =>
    rw [hRuns] at ih
    rw [← ih, List.flatMap_cons, hSingle]
    rfl
  | case3 offset rest next others hRuns hNext ih =>
    have hLonger : next.start < next.stop :=
      runs_nonempty next (hRuns ▸ List.mem_cons_self)
    rw [hRuns, List.flatMap_cons] at ih
    rw [← ih, List.flatMap_cons, Span.covered_cons (show offset < next.stop by omega), ← hNext]
    rfl
  | case4 offset rest next others hRuns hNext ih =>
    rw [hRuns] at ih
    rw [List.flatMap_cons, ih, hSingle, List.singleton_append]

example : runs [2, 3, 4, 9] = [⟨2, 5⟩, ⟨9, 10⟩] := by decide

theorem start_mem_of_mem_runs {r : Span} (h : r ∈ runs offsets) : r.start ∈ offsets := by
  rw [← covered_runs offsets]
  exact List.mem_flatMap.mpr ⟨r, h, Span.mem_covered.mpr ⟨Nat.le_refl _, runs_nonempty r h⟩⟩

/-- Between two runs of increasing offsets lies a number that is no offset. -/
theorem runs_apart (h : offsets.Pairwise (· < ·)) :
    (runs offsets).Pairwise fun r r' => r.stop < r'.start := by
  fun_induction runs offsets with
  | case1 => exact .nil
  | case2 offset rest hRuns ih => exact List.pairwise_singleton _ _
  | case3 offset rest next others hRuns hNext ih =>
    have hRest := ih (List.pairwise_cons.mp h).2
    rw [hRuns, List.pairwise_cons] at hRest
    exact List.pairwise_cons.mpr hRest
  | case4 offset rest next others hRuns hNext ih =>
    obtain ⟨hFirst, hIncreasing⟩ := List.pairwise_cons.mp h
    have hRest := ih hIncreasing
    rw [hRuns] at hRest
    refine List.pairwise_cons.mpr ⟨fun r hMem => ?_, hRest⟩
    have hLater := hFirst next.start (start_mem_of_mem_runs (hRuns ▸ List.mem_cons_self))
    have hLonger : next.start < next.stop := runs_nonempty next (hRuns ▸ List.mem_cons_self)
    rcases List.mem_cons.mp hMem with rfl | hMem
    · simp only
      omega
    · have hAfter := (List.pairwise_cons.mp hRest).1 r hMem
      simp only
      omega

/-- `ranges` are the maximal runs of `offsets`. -/
structure MaximalRuns (offsets : List Nat) (ranges : List Span) : Prop where
  nonempty : ∀ r ∈ ranges, r.start < r.stop
  apart : ranges.Pairwise fun r r' => r.stop < r'.start
  covers : ranges.flatMap Span.covered = offsets

/-- `ranges` point at those of `offsets` that are offsets of characters of a source of `length`
characters, and at its end. -/
structure Drawable (length : Nat) (offsets : List Nat) (ranges : List Span) : Prop where
  inside : ∀ r ∈ ranges, r.start ≤ r.stop ∧ r.stop ≤ length
  ordered : ranges.Pairwise fun r r' => r.start ≤ r'.start
  covers : ranges.flatMap Span.covered = offsets.filter (· < length)

theorem MaximalRuns.drawable {ranges : List Span} (h : MaximalRuns offsets ranges) (length : Nat) :
    Drawable length offsets (ranges.map (Span.clamp length)) where
  inside := by
    rw [List.forall_mem_map]
    exact fun r _ => r.clamp_bounds length
  ordered := by
    rw [List.pairwise_map]
    refine h.apart.imp_of_mem fun {r r'} hMem _ hApart => ?_
    have hLonger := h.nonempty r hMem
    simp only [Span.clamp]
    omega
  covers := by
    rw [← h.covers, List.filter_flatMap, List.flatMap_map]
    simp only [Span.covered_clamp]

/-- A report keeps the offsets that it is made with, and points at their maximal runs. What is drawn
of these below the source are the offsets of its characters. -/
theorem ranges_maximal (message source : String) (offsets : List Nat) :
    (about message source offsets).offsets.Pairwise (· < ·) ∧
    (∀ o, o ∈ (about message source offsets).offsets ↔ o ∈ offsets) ∧
    MaximalRuns (about message source offsets).offsets (about message source offsets).ranges ∧
    Drawable source.length (about message source offsets).offsets
      ((about message source offsets).ranges.map (Span.clamp source.length)) := by
  obtain ⟨hIncreasing, hMem⟩ := about_spec message source offsets
  have hRuns : MaximalRuns (about message source offsets).offsets
      (about message source offsets).ranges :=
    ⟨runs_nonempty, runs_apart hIncreasing, covered_runs _⟩
  exact ⟨hIncreasing, hMem, hRuns, hRuns.drawable source.length⟩

end SyntaxError

end Formula
