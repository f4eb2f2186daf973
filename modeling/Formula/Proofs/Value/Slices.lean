import Formula.Proofs.Words
import Formula.Value.Sequence

/-! Slices and items of sequences. The positions of a slice are all terms of an arithmetic sequence
that come before the end of the slice, and every one of them is a position of the sequence. A walk
over words that stops where the next step would wrap around finds the same positions. -/

namespace Formula.Slice

/-! ### The terms of a slice -/

/-- A term comes before `stop` in the direction of `step`. -/
def Before (stop step term : Int) : Prop := (0 < step ∧ term < stop) ∨ (step < 0 ∧ stop < term)

/-- `terms` are those of `first`, `first + step`, `first + 2 * step` and so on that come before
`stop`, all of them. -/
def Terms (first stop step : Int) (terms : List Int) : Prop :=
  ∃ count : Nat, terms = (List.range count).map (fun i : Nat => first + step * i) ∧
    ∀ i : Nat, i < count ↔ Before stop step (first + step * i)

/-- The least number that a bound is moved to. -/
def lower (step : Int) : Int := if 0 < step then 0 else -1

/-- The greatest number that a bound is moved to, in a sequence of `n` items. -/
def upper (n : Nat) (step : Int) : Int := if 0 < step then n else n - 1

/-- A bound of a slice of `n` items, where `missing` stands for one that is left out. -/
def bound (n : Nat) (step missing : Int) : Option Int → Int
  | none => missing
  | some b => if b < 0 then max (b + n) (lower step) else min b (upper n step)

/-- Where a slice starts. -/
def first (n : Nat) (step : Int) : Option Int → Int :=
  bound n step (if 0 < step then lower step else upper n step)

/-- Where a slice stops. -/
def last (n : Nat) (step : Int) : Option Int → Int :=
  bound n step (if 0 < step then upper n step else lower step)

section Terms

variable {start stop step : Int} {terms : List Int}

theorem Terms.unique {terms' : List Int} (h : Terms start stop step terms)
    (h' : Terms start stop step terms') : terms = terms' := by
  obtain ⟨count, rfl, hCount⟩ := h
  obtain ⟨count', rfl, hCount'⟩ := h'
  have hSame : ∀ i, i < count ↔ i < count' := fun i => (hCount i).trans (hCount' i).symm
  have hLow := hSame count
  have hHigh := hSame count'
  obtain rfl : count = count' := by omega
  rfl

/-- No term comes before the end if the first does not. -/
theorem terms_nil (h : ¬Before stop step start) : Terms start stop step [] := by
  refine ⟨0, rfl, fun i => iff_of_false (Nat.not_lt_zero i) fun hBefore => h ?_⟩
  have hSign : 0 < step → 0 ≤ step * i := fun hPos => Int.mul_nonneg (by omega) (by omega)
  have hSign' : step < 0 → step * i ≤ 0 := fun hNeg =>
    Int.mul_nonpos_of_nonpos_of_nonneg (by omega) (by omega)
  unfold Before at *
  omega

theorem Terms.cons (h : Terms (start + step) stop step terms) (hBefore : Before stop step start) :
    Terms start stop step (start :: terms) := by
  obtain ⟨count, rfl, hCount⟩ := h
  have hNext : ∀ i : Nat, start + step + step * i = start + step * (i + 1 : Nat) := by
    intro i
    rw [Int.natCast_succ, Int.mul_add, Int.mul_one]
    omega
  refine ⟨count + 1, ?_, fun i => ?_⟩
  · rw [List.range_succ_eq_map, List.map_cons, List.map_map, Int.natCast_zero, Int.mul_zero,
      Int.add_zero]
    exact congrArg _ (List.map_congr_left fun i _ => hNext i)
  · cases i with
    | zero => simpa using hBefore
    | succ i => rw [← hNext i, ← hCount i, Nat.add_lt_add_iff_right]

theorem lt_stepCount (hStep : step ≠ 0) (i : Nat) :
    i < Value.stepCount start stop step ↔ Before stop step (start + step * i) := by
  unfold Value.stepCount Before
  split
  case isTrue hPos =>
    rw [Int.lt_toNat, ← Int.add_one_le_iff, Int.le_ediv_iff_mul_le hPos, Int.add_mul, Int.one_mul,
      Int.mul_comm]
    omega
  case isFalse hNeg =>
    rw [Int.lt_toNat, ← Int.add_one_le_iff, Int.le_ediv_iff_mul_le (by omega), Int.add_mul,
      Int.one_mul, Int.mul_neg, Int.mul_comm]
    omega

end Terms

section Positions

variable {n : Nat} {step : Int}

theorem bound_eq (n : Nat) (step missing : Int) (b? : Option Int) :
    bound n step missing b? =
      (b?.map (Value.clampBound n (lower step) (upper n step))).getD missing := by
  cases b? <;> rfl

theorem slicePositions_eq (n : Nat) (start stop : Option Int) (hStep : step ≠ 0) :
    Value.slicePositions n start stop step =
      (List.range (Value.stepCount (first n step start) (last n step stop) step)).map
        fun i : Nat => (first n step start + step * i).toNat := by
  simp only [Value.slicePositions, first, last, bound_eq]
  by_cases hPos : 0 < step
  · rw [if_neg (by omega), if_neg (by omega), if_neg (by omega), if_neg (by omega), lower, upper,
      if_pos hPos, if_pos hPos, if_pos hPos, if_pos hPos]
  · rw [if_pos (by omega), if_pos (by omega), if_pos (by omega), if_pos (by omega), lower, upper,
      if_neg hPos, if_neg hPos, if_neg hPos, if_neg hPos]

/-- A slice starts and stops in the sequence or beside it. -/
theorem bound_bounds (n : Nat) (step missing : Int) (hLow : lower step ≤ missing)
    (hHigh : missing ≤ upper n step) (b? : Option Int) :
    lower step ≤ bound n step missing b? ∧ bound n step missing b? ≤ upper n step := by
  cases b? with
  | none => exact ⟨hLow, hHigh⟩
  | some b =>
    unfold bound lower upper at *
    dsimp only
    split <;> split <;> omega

/-- Every term of a slice is a position of the sequence. -/
theorem term_bounds {start stop : Option Int} {i : Nat}
    (h : Before (last n step stop) step (first n step start + step * i)) :
    0 ≤ first n step start + step * i ∧ first n step start + step * i < n := by
  have hEnds : lower step ≤ upper n step := by
    unfold lower upper
    split <;> omega
  have hFirst := bound_bounds n step (if 0 < step then lower step else upper n step)
    (by split <;> omega) (by split <;> omega) start
  have hLast := bound_bounds n step (if 0 < step then upper n step else lower step)
    (by split <;> omega) (by split <;> omega) stop
  rw [← first] at hFirst
  rw [← last] at hLast
  rcases h with ⟨hPos, hBefore⟩ | ⟨hNeg, hBefore⟩
  · have hForward : 0 ≤ step * i := Int.mul_nonneg (by omega) (by omega)
    rw [lower, upper, if_pos hPos, if_pos hPos] at *
    omega
  · have hBackward : step * i ≤ 0 := Int.mul_nonpos_of_nonpos_of_nonneg (by omega) (by omega)
    rw [lower, upper, if_neg (by omega), if_neg (by omega)] at *
    omega

theorem terms_slicePositions (n : Nat) (start stop : Option Int) (hStep : step ≠ 0) :
    Terms (first n step start) (last n step stop) step
      ((Value.slicePositions n start stop step).map Int.ofNat) := by
  refine ⟨Value.stepCount (first n step start) (last n step stop) step, ?_, lt_stepCount hStep⟩
  rw [slicePositions_eq n start stop hStep, List.map_map]
  refine List.map_congr_left fun i hMem => ?_
  have hBefore := (lt_stepCount hStep i).mp (List.mem_range.mp hMem)
  exact Int.toNat_of_nonneg (term_bounds hBefore).1

theorem slicePositions_lt (hStep : step ≠ 0) {start stop : Option Int} {p : Nat}
    (h : p ∈ Value.slicePositions n start stop step) : p < n := by
  rw [slicePositions_eq n start stop hStep] at h
  obtain ⟨i, hMem, rfl⟩ := List.mem_map.mp h
  have hBounds := term_bounds ((lt_stepCount hStep i).mp (List.mem_range.mp hMem))
  omega

end Positions

/-! ### The walk over words -/

section Walk

variable {step stop : Int64}

/-- A term comes before `stop` in the direction of `step`. -/
def Ahead (stop step i : Int64) : Prop := (0 < step ∧ i < stop) ∨ (step < 0 ∧ stop < i)

instance (stop step i : Int64) : Decidable (Ahead stop step i) :=
  inferInstanceAs (Decidable ((0 < step ∧ i < stop) ∨ (step < 0 ∧ stop < i)))

theorem ahead_iff {i : Int64} : Ahead stop step i ↔ Before stop.toInt step.toInt i.toInt := by
  simp only [Ahead, Before, Int64.lt_iff_toInt_lt, Int64.toInt_zero]

/-- How far a term is before `stop`. -/
def distance (stop step i : Int64) : Nat :=
  if 0 < step then (stop.toInt - i.toInt).toNat else (i.toInt - stop.toInt).toNat

theorem distance_lt {i next : Int64} (h : Ahead stop step i)
    (hNext : Word.add? i step = some next) :
    distance stop step next < distance stop step i := by
  have hSum := Word.add?_eq_some.mp hNext
  rw [ahead_iff] at h
  unfold Before at h
  simp only [distance, Int64.lt_iff_toInt_lt, Int64.toInt_zero]
  split <;> omega

/-- The terms from `i` on that come before `stop`. The walk ends where the next step would wrap
around. -/
def walk (stop step i : Int64) : List Int64 :=
  if _ : Ahead stop step i then
    match _ : Word.add? i step with
    | some next => i :: walk stop step next
    | none => [i]
  else []
termination_by distance stop step i
decreasing_by exact distance_lt ‹_› ‹_›

/-- The walk misses no term: one that is no word does not come before `stop`. -/
theorem terms_walk (i : Int64) :
    Terms i.toInt stop.toInt step.toInt ((walk stop step i).map Int64.toInt) := by
  fun_induction walk stop step i with
  | case1 i hAhead next hNext ih =>
    rw [Word.add?_eq_some.mp hNext] at ih
    exact ih.cons (ahead_iff.mp hAhead)
  | case2 i hAhead hNext =>
    have hLarge : ¬Numeral.fits (i.toInt + step.toInt) := Word.checked_eq_none.mp hNext
    refine (terms_nil fun hBefore => hLarge ?_).cons (ahead_iff.mp hAhead)
    have hStart := Word.bounds i
    have hStop := Word.bounds stop
    rw [Word.fits_iff]
    unfold Before at hBefore
    omega
  | case3 i hAhead => exact terms_nil (mt ahead_iff.mpr hAhead)

end Walk

/-! ### The bounds of words -/

section Bounds

variable {n : Nat} {length step : Int64}

theorem toInt_max (x y : Int64) : (max x y).toInt = max x.toInt y.toInt := by
  show (if x ≤ y then y else x).toInt = _
  simp only [Int.max_def, Int64.le_iff_toInt_le]
  split <;> rfl

theorem toInt_min (x y : Int64) : (min x y).toInt = min x.toInt y.toInt := by
  show (if x ≤ y then x else y).toInt = _
  simp only [Int.min_def, Int64.le_iff_toInt_le]
  split <;> rfl

/-- Counting from the end does not leave the words. -/
theorem fits_fromEnd {b : Int64} (hLength : 0 ≤ length.toInt) (hNeg : b.toInt < 0) :
    Numeral.fits (b.toInt + length.toInt) := by
  have hBound := Word.bounds b
  have hEnd := Word.bounds length
  rw [Word.fits_iff]
  omega

theorem toInt_saturatingAdd {b : Int64} (hLength : 0 ≤ length.toInt) (hNeg : b.toInt < 0) :
    (Word.saturatingAdd b length).toInt = b.toInt + length.toInt := by
  obtain ⟨z, hz, hSum⟩ := Word.add?_of_fits (fits_fromEnd hLength hNeg)
  rw [Word.saturatingAdd, hz, Option.getD_some, hSum]

/-- A bound of a slice, moved between `low` and `high`. -/
def wordBound (length low high missing : Int64) : Option Int64 → Int64
  | none => missing
  | some b => if b < 0 then max (Word.saturatingAdd b length) low else min b high

/-- The positions of a slice as they are found by words, unless a step wraps around of which this is
not checked. -/
def words? (length : Int64) (start stop : Option Int64) (step : Int64) : Option (List Int64) :=
  (if step < 0 then Word.sub? length 1 else some length).map fun high =>
    let low : Int64 := if step < 0 then -1 else 0
    let first := wordBound length low high (if step < 0 then high else low) start
    let last := wordBound length low high (if step < 0 then low else high) stop
    walk last step first

theorem toInt_wordBound {low high : Int64} (hLength : length.toInt = n)
    (hLow : low.toInt = lower step.toInt) (hHigh : high.toInt = upper n step.toInt)
    (missing : Int64) (b? : Option Int64) :
    (wordBound length low high missing b?).toInt =
      bound n step.toInt missing.toInt (b?.map Int64.toInt) := by
  cases b? with
  | none => rfl
  | some b =>
    simp only [wordBound, bound, Option.map_some, Int64.lt_iff_toInt_lt, Int64.toInt_zero]
    split
    case isTrue hNeg => rw [toInt_max, toInt_saturatingAdd (by omega) hNeg, hLength, hLow]
    case isFalse => rw [toInt_min, hHigh]

/-- The step of a slice goes backward or forward. -/
theorem toInt_direction (hStep : step ≠ 0) (back forth : Int64) :
    (if step < 0 then back else forth).toInt =
      if 0 < step.toInt then forth.toInt else back.toInt := by
  have hNonzero := Word.ne_zero_iff.mp hStep
  simp only [Word.neg_iff]
  split
  case isTrue hNeg => rw [if_neg (by omega)]
  case isFalse hPos => rw [if_pos (by omega)]

theorem exists_upper (hLength : length.toInt = n) (hStep : step ≠ 0) :
    ∃ high, (if step < 0 then Word.sub? length 1 else some length) = some high ∧
      high.toInt = upper n step.toInt := by
  have hNonzero := Word.ne_zero_iff.mp hStep
  simp only [upper, Word.neg_iff]
  split
  case isTrue hNeg =>
    have hFits : Numeral.fits (length.toInt - (1 : Int64).toInt) := by
      have hBounds := Word.bounds length
      rw [Word.fits_iff, Int64.toInt_one]
      omega
    obtain ⟨high, hSome, hHigh⟩ := Word.sub?_of_fits hFits
    rw [if_neg (by omega), ← hLength]
    exact ⟨high, hSome, hHigh⟩
  case isFalse hPos =>
    rw [if_pos (by omega)]
    exact ⟨length, rfl, hLength⟩

/-- Words find the terms of a slice. -/
theorem terms_words? (hLength : length.toInt = n) (hStep : step ≠ 0) (start stop : Option Int64) :
    ∃ words, words? length start stop step = some words ∧
      Terms (first n step.toInt (start.map Int64.toInt)) (last n step.toInt (stop.map Int64.toInt))
        step.toInt (words.map Int64.toInt) := by
  obtain ⟨high, hSome, hHigh⟩ := exists_upper hLength hStep
  have hLow : (if step < 0 then (-1 : Int64) else 0).toInt = lower step.toInt :=
    toInt_direction hStep (-1) 0
  rw [words?, hSome]
  refine ⟨_, rfl, ?_⟩
  dsimp only
  generalize (if step < 0 then (-1 : Int64) else 0) = low at hLow
  have hBound := toInt_wordBound hLength hLow hHigh
  rw [first, last, ← hLow, ← hHigh, ← toInt_direction hStep, ← toInt_direction hStep, ← hBound,
    ← hBound]
  exact terms_walk _

end Bounds

end Formula.Slice

/-! ### Slices and items of values -/

namespace Formula.Value

variable {α β : Type} {items : List α} {step : Int}

/-- Every position of a slice has an item. -/
theorem map_some_sliceItems (hStep : step ≠ 0) (items : List α) (start stop : Option Int) :
    (sliceItems items start stop step).map some =
      (slicePositions items.length start stop step).map (items[·]?) := by
  have hInside : ∀ p ∈ slicePositions items.length start stop step, p < items.length :=
    fun p hMem => Slice.slicePositions_lt hStep hMem
  rw [sliceItems]
  generalize slicePositions items.length start stop step = positions at hInside
  induction positions with
  | nil => rfl
  | cons p positions ih =>
    have hLt := hInside p List.mem_cons_self
    have hRest := ih fun p hMem => hInside p (List.mem_cons_of_mem _ hMem)
    simpa [hLt] using hRest

/-- A slice forward by one is what stands between its bounds. -/
theorem sliceItems_eq {a b : Nat} (hOrder : a ≤ b) (hBound : b ≤ items.length) :
    sliceItems items (some a) (some b) 1 = (items.drop a).take (b - a) := by
  have hPositions : slicePositions items.length (some a) (some b) 1 = List.range' a (b - a) := by
    have hCount : stepCount a b 1 = b - a := by
      rw [stepCount, if_pos Int.one_pos, Int.ediv_one]
      omega
    have hFirst : Slice.first items.length 1 (some (a : Int)) = a := by
      simp only [Slice.first, Slice.bound, Slice.upper]
      split <;> omega
    have hLast : Slice.last items.length 1 (some (b : Int)) = b := by
      simp only [Slice.last, Slice.bound, Slice.upper]
      split <;> omega
    rw [Slice.slicePositions_eq _ _ _ Int.one_ne_zero, hFirst, hLast, hCount,
      List.range'_eq_map_range]
    exact List.map_congr_left fun i _ => by omega
  rw [← List.map_inj_right (f := some) (fun _ _ => Option.some.inj),
    map_some_sliceItems Int.one_ne_zero, hPositions]
  apply List.ext_getElem
  · simp
    omega
  · intro i _ _
    simp

theorem sliceItems_map (f : α → β) (items : List α) (start stop : Option Int) (step : Int) :
    sliceItems (items.map f) start stop step = (sliceItems items start stop step).map f := by
  simp [sliceItems, List.map_filterMap]

/-- The characters of a text, each as a text of its own. -/
def singles (s : String) : List Value := s.toList.map fun ch => text [ch]

/-- The characters of a text. -/
def characters : Value → List Char
  | str s => s.toList
  | _ => []

/-- The text that the texts of a list make up. -/
def joined : Value → Value
  | list items => text (items.flatMap characters)
  | v => v

theorem characters_text (cs : List Char) : characters (text cs) = cs := String.toList_ofList

/-- A text is sliced as the list of its characters is. -/
theorem slice_str (s : String) (a b c : Value) :
    slice (.str s) a b c = (slice (.list (singles s)) a b c).map joined := by
  have hJoin : ∀ cs : List Char, (cs.map fun ch => text [ch]).flatMap characters = cs := by
    intro cs
    induction cs with
    | nil => rfl
    | cons ch cs ih => rw [List.map_cons, List.flatMap_cons, characters_text, ih]; rfl
  simp only [slice, singles, sliceItems_map]
  cases sliceBound a with
  | error e => rfl
  | ok start =>
    cases sliceBound b with
    | error e => rfl
    | ok stop =>
      cases sliceBound c with
      | error e => rfl
      | ok step =>
        by_cases hZero : step.getD 1 = 0
        · simp only [bind, Except.bind, if_pos hZero]
          rfl
        · simp only [bind, Except.bind, if_neg hZero, Except.map, joined, hJoin]

theorem slice_list {a b c : Value} {start stop step? : Option Int} (ha : sliceBound a = .ok start)
    (hb : sliceBound b = .ok stop) (hc : sliceBound c = .ok step?) (hStep : step?.getD 1 ≠ 0)
    (items : List Value) :
    slice (.list items) a b c = .ok (.list (sliceItems items start stop (step?.getD 1))) := by
  simp only [slice, ha, hb, hc, bind, Except.bind, if_neg hStep]

/-- `outcome` is the item at the position `i`, which counts from the end if it is negative, of those
that make up `target`, or says that there is none. -/
structure Indexes (target : Value) (items : List Value) (i : Int)
    (outcome : Except Complaint Value) : Prop where
  inside : -(items.length : Int) ≤ i → i < items.length →
    ∃ v, items[(if i < 0 then i + items.length else i).toNat]? = some v ∧ outcome = .ok v
  outside : ¬(-(items.length : Int) ≤ i ∧ i < items.length) →
    outcome = .error (.indexOutOfBounds target i items.length)

theorem resolve?_eq (n : Nat) (i : Int) :
    resolve? n i =
      if -(n : Int) ≤ i ∧ i < n then some (if i < 0 then i + n else i).toNat else Option.none := by
  unfold resolve?
  dsimp only
  by_cases hInside : -(n : Int) ≤ i ∧ i < n
  · rw [if_pos hInside, if_pos]
    split <;> omega
  · rw [if_neg hInside, if_neg]
    split <;> omega

theorem itemAt_map (f : α → β) (target key : Value) (items : List α) :
    itemAt target key (items.map f) = (itemAt target key items).map f := by
  simp only [itemAt, List.length_map, List.getElem?_map]
  cases position? key with
  | none => rfl
  | some i =>
    dsimp only
    cases resolve? items.length i with
    | none => rfl
    | some p =>
      simp only [Option.bind_some]
      cases items[p]? <;> rfl

theorem indexes_itemAt {key : Value} {i : Int} (hKey : position? key = some i) (target : Value)
    (items : List Value) : Indexes target items i (itemAt target key items) := by
  simp only [itemAt, hKey, resolve?_eq]
  constructor
  · intro hLow hHigh
    have hInside : -(items.length : Int) ≤ i ∧ i < items.length := ⟨hLow, hHigh⟩
    rw [if_pos hInside, Option.bind_some]
    generalize hPlace : (if i < 0 then i + items.length else i).toNat = p
    have hLt : p < items.length := by
      split at hPlace <;> omega
    rw [List.getElem?_eq_getElem hLt]
    exact ⟨_, rfl, rfl⟩
  · intro hOutside
    rw [if_neg hOutside]
    rfl

theorem indexes_item {key : Value} {i : Int} (hKey : position? key = some i) :
    (∀ items, Indexes (.list items) items i (item (.list items) key)) ∧
      ∀ s, Indexes (.str s) (singles s) i (item (.str s) key) := by
  refine ⟨fun items => indexes_itemAt hKey (.list items) items, fun s => ?_⟩
  have hChars : item (.str s) key = itemAt (.str s) key (singles s) := (itemAt_map _ _ _ _).symm
  rw [hChars]
  exact indexes_itemAt hKey (.str s) (singles s)

/-- The positions of a slice of at most `2 ^ 63 - 1` items are the terms from where it starts that
come before where it stops, all of them, and each is the position of an item. They come from words
without a step that wraps around. So a slice of a list has an item of the list at every position, a
slice of a text is that of its characters, and an item is found exactly where the position is one,
counted from the end if it is negative. -/
theorem slices_exact :
    (∀ (n : Nat) (length : Int64), length.toInt = n →
      ∀ (start stop : Option Int64) (step : Int64), step ≠ 0 →
      let first := Slice.first n step.toInt (start.map Int64.toInt)
      let last := Slice.last n step.toInt (stop.map Int64.toInt)
      let positions :=
        slicePositions n (start.map Int64.toInt) (stop.map Int64.toInt) step.toInt
      Slice.Terms first last step.toInt (positions.map Int.ofNat) ∧
        (∀ p ∈ positions, p < n) ∧
        ∃ words, Slice.words? length start stop step = some words ∧
          words.map Int64.toInt = positions.map Int.ofNat) ∧
    (∀ (items : List Value) (a b c : Value) (start stop step : Option Int),
      sliceBound a = .ok start → sliceBound b = .ok stop → sliceBound c = .ok step →
      step.getD 1 ≠ 0 →
      ∃ selected, slice (.list items) a b c = .ok (.list selected) ∧
        selected.map some =
          (slicePositions items.length start stop (step.getD 1)).map (items[·]?)) ∧
    (∀ (s : String) (a b c : Value),
      slice (.str s) a b c = (slice (.list (singles s)) a b c).map joined) ∧
    (∀ (key : Value) (i : Int), position? key = some i →
      (∀ items, Indexes (.list items) items i (item (.list items) key)) ∧
        ∀ s, Indexes (.str s) (singles s) i (item (.str s) key)) ∧
    (∀ i length : Int64, 0 ≤ length.toInt → i.toInt < 0 →
      ∃ z, Word.add? i length = some z ∧ z.toInt = i.toInt + length.toInt) := by
  refine ⟨?_, ?_, slice_str, fun key i => indexes_item, fun i length hLength hNeg =>
    Word.add?_of_fits (Slice.fits_fromEnd hLength hNeg)⟩
  · intro n length hLength start stop step hStep
    dsimp only
    have hNonzero := Word.ne_zero_iff.mp hStep
    have hTerms := Slice.terms_slicePositions n (start.map Int64.toInt) (stop.map Int64.toInt)
      hNonzero
    obtain ⟨words, hWords, hTerms'⟩ := Slice.terms_words? hLength hStep start stop
    exact ⟨hTerms, fun p => Slice.slicePositions_lt hNonzero, words, hWords,
      hTerms'.unique hTerms⟩
  · intro items a b c start stop step ha hb hc hStep
    exact ⟨_, slice_list ha hb hc hStep items, map_some_sliceItems hStep items start stop⟩

/-- Two items are passed over backward by the greatest step there is: the second is the only one
found. -/
theorem slices_exact_leap :
    (2 : Int64).toInt = (2 : Nat) ∧ Int64.minValue ≠ 0 ∧
      (∃ words, Slice.words? 2 Option.none Option.none Int64.minValue = some words ∧
        words.map Int64.toInt = [1]) ∧
      position? (.int (-2)) = some (-2) ∧
      item (.list [.bool true, .none]) (.int (-2)) = .ok (.bool true) := by
  have hLength : (2 : Int64).toInt = (2 : Nat) := rfl
  have hStep : Int64.minValue ≠ 0 := by decide
  have hKey : position? (.int (-2)) = some (-2) := rfl
  obtain ⟨-, -, hWords⟩ := slices_exact.1 2 2 hLength Option.none Option.none Int64.minValue hStep
  obtain ⟨hItem, -⟩ := slices_exact.2.2.2.1 (.int (-2)) (-2) hKey
  obtain ⟨v, hFound, hValue⟩ := (hItem [.bool true, .none]).inside (by decide) (by decide)
  obtain rfl : .bool true = v := Option.some.inj hFound
  exact ⟨hLength, hStep, hWords, hKey, hValue⟩

end Formula.Value
