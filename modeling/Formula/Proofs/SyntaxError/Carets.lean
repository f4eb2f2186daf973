import Mathlib.Data.List.Dedup
import Mathlib.Order.Monotone.Basic
import Formula.Proofs.Offsets
import Formula.Proofs.Text.Quoted

/-! The carets of a report stand below the characters that it points at. The columns of the quoted
source increase with the offsets, so that no caret has to be put where the line is already. -/

namespace Formula.SyntaxError

open Text (escaped quoted quoteFor)

/-! ### Columns -/

section Columns

variable {quote : Char}

theorem getElem?_columns (column : Nat) (cs : List Char) (i : Nat) :
    (columns quote column cs)[i]? =
      if i ≤ cs.length then some (column + ((cs.take i).flatMap (escaped quote)).length)
      else none := by
  induction cs generalizing column i with
  | nil => cases i <;> simp [columns]
  | cons c cs ih =>
    cases i with
    | zero => simp [columns]
    | succ i => simp [columns, ih, Nat.add_assoc]

theorem length_columns (column : Nat) (cs : List Char) :
    (columns quote column cs).length = cs.length + 1 := by
  induction cs generalizing column with
  | nil => rfl
  | cons c cs ih => rw [columns, List.length_cons, ih, List.length_cons]

/-- The column of an offset comes after the quoted characters before it, and after as many columns
as the offset is past the end. -/
theorem columnAt_columns (column : Nat) (cs : List Char) (offset : Nat) :
    columnAt (columns quote column cs).toArray offset =
      column + ((cs.take offset).flatMap (escaped quote)).length + (offset - cs.length) := by
  have hLength : (columns quote column cs).length = cs.length + 1 := length_columns column cs
  rw [columnAt, List.getElem?_toArray, getElem?_columns]
  by_cases h : offset ≤ cs.length
  · rw [if_pos h, Nat.sub_eq_zero_of_le h]
    rfl
  · have hBack : (columns quote column cs).toArray.back? =
        some (column + (cs.flatMap (escaped quote)).length) := by
      rw [List.back?_toArray, List.getLast?_eq_getElem?, hLength, Nat.add_sub_cancel,
        getElem?_columns, if_pos (Nat.le_refl _), List.take_length]
    rw [if_neg h, List.take_of_length_le (by omega)]
    simp only [hBack, Option.getD_some, List.size_toArray, hLength]
    omega

end Columns

/-- The column of the caret for `offset`. -/
def columnOf (source : List Char) (offset : Nat) : Nat :=
  columnAt (columns (quoteFor source) 1 source).toArray offset

theorem columnOf_strictMono (source : List Char) : StrictMono (columnOf source) := by
  refine strictMono_nat_of_lt_succ fun offset => ?_
  simp only [columnOf, columnAt_columns]
  by_cases h : offset < source.length
  · have hPos := Text.length_escaped_pos (quoteFor source) source[offset]
    rw [List.take_add_one, List.getElem?_eq_getElem h]
    simp only [Option.toList_some, List.flatMap_append, List.flatMap_singleton, List.length_append]
    omega
  · rw [List.take_of_length_le (by omega), List.take_of_length_le (by omega)]
    omega

example : (List.range 6).map (columnOf ['a', '\n', '"']) = [1, 2, 4, 5, 6, 7] := by decide

/-- `column` is where the quoted form of `source` shows the character at `offset`. Past the last
character, columns go on from that of the closing quote. -/
inductive Shows (source : List Char) : Nat → Nat → Prop
  | character {before after left right : List Char} {c : Char}
      (hSource : source = before ++ c :: after)
      (hLeft : left = quoteFor source :: before.flatMap (escaped (quoteFor source)))
      (hQuoted : quoted source = left ++ escaped (quoteFor source) c ++ right) :
      Shows source before.length left.length
  | past {left : List Char} (j : Nat) (hQuoted : quoted source = left ++ [quoteFor source]) :
      Shows source (source.length + j) (left.length + j)

theorem exists_shows (source : List Char) (offset : Nat) :
    ∃ column, Shows source offset column := by
  rcases Nat.lt_or_ge offset source.length with h | h
  · have hSource : source = source.take offset ++ source[offset] :: source.drop (offset + 1) := by
      rw [← List.drop_eq_getElem_cons h, List.take_append_drop]
    have hSplit : ∀ quote, source.flatMap (escaped quote) =
        (source.take offset).flatMap (escaped quote) ++
          (escaped quote source[offset] ++ (source.drop (offset + 1)).flatMap (escaped quote)) := by
      intro quote
      conv_lhs => rw [hSource, List.flatMap_append, List.flatMap_cons]
    have hQuoted : quoted source =
        (quoteFor source :: (source.take offset).flatMap (escaped (quoteFor source))) ++
          escaped (quoteFor source) source[offset] ++
          ((source.drop (offset + 1)).flatMap (escaped (quoteFor source)) ++
            [quoteFor source]) := by
      rw [quoted, Text.quotedWith, hSplit]
      simp only [List.cons_append, List.append_assoc]
    have hShows := Shows.character hSource rfl hQuoted
    rw [List.length_take_of_le h.le] at hShows
    exact ⟨_, hShows⟩
  · obtain ⟨j, rfl⟩ := Nat.exists_eq_add_of_le h
    exact ⟨_, .past j rfl⟩

theorem Shows.column_eq {source : List Char} {offset column : Nat}
    (h : Shows source offset column) : column = columnOf source offset := by
  rw [columnOf, columnAt_columns]
  cases h with
  | @character before after left right c hSource hLeft hQuoted =>
    have hTake : source.take before.length = before := by rw [hSource, List.take_left]
    have hLength : before.length ≤ source.length := by simp [hSource]
    rw [hTake, hLeft, List.length_cons]
    omega
  | @past left j hQuoted =>
    have hLength := congrArg List.length hQuoted
    simp only [quoted, Text.quotedWith, List.length_append, List.length_cons,
      List.length_nil] at hLength
    rw [List.take_of_length_le (by omega)]
    omega

theorem shows_iff {source : List Char} {offset column : Nat} :
    Shows source offset column ↔ column = columnOf source offset := by
  constructor
  · exact Shows.column_eq
  · obtain ⟨column', hShows⟩ := exists_shows source offset
    rintro rfl
    exact hShows.column_eq ▸ hShows

/-! ### Carets -/

/-- The columns that `carets` puts no caret in, since the line is longer already. -/
def skipped (width : Nat) : List Nat → List Nat
  | [] => []
  | column :: rest =>
    if column < width then column :: skipped width rest else skipped (column + 1) rest

/-- The columns increase, and none is before `width`. -/
inductive Ahead : Nat → List Nat → Prop
  | nil (width : Nat) : Ahead width []
  | cons {width column : Nat} {rest : List Nat} (h : width ≤ column)
      (hRest : Ahead (column + 1) rest) : Ahead width (column :: rest)

section Ahead

variable {width column : Nat} {columns : List Nat}

theorem ahead_of_increasing (hIncreasing : columns.Pairwise (· < ·))
    (hWidth : ∀ column ∈ columns, width ≤ column) : Ahead width columns := by
  induction columns generalizing width with
  | nil => exact .nil width
  | cons column columns ih =>
    obtain ⟨hFirst, hRest⟩ := List.pairwise_cons.mp hIncreasing
    exact .cons (hWidth column List.mem_cons_self) (ih hRest hFirst)

theorem Ahead.le (h : Ahead width columns) : ∀ column ∈ columns, width ≤ column := by
  induction h with
  | nil => exact nofun
  | cons h _ ih =>
    refine List.forall_mem_cons.mpr ⟨h, fun column hMem => ?_⟩
    have := ih column hMem
    omega

theorem carets_cons (h : width ≤ column) :
    carets width (column :: columns) =
      List.replicate (column - width) ' ' ++ '^' :: carets (column + 1) columns := by
  rw [carets, if_neg (Nat.not_lt.mpr h)]

theorem Ahead.skipped_eq (h : Ahead width columns) : skipped width columns = [] := by
  induction h with
  | nil => rfl
  | cons h _ ih => rw [skipped, if_neg (Nat.not_lt.mpr h), ih]

theorem Ahead.mem_carets (h : Ahead width columns) :
    ∀ c ∈ carets width columns, c = ' ' ∨ c = '^' := by
  induction h with
  | nil => exact nofun
  | cons h _ ih =>
    rw [carets_cons h]
    intro c hMem
    rcases List.mem_append.mp hMem with hSpace | hMem
    · exact .inl (List.eq_of_mem_replicate hSpace)
    · rcases List.mem_cons.mp hMem with hCaret | hMem
      · exact .inr hCaret
      · exact ih c hMem

/-- There is a caret for each column that is not skipped. -/
theorem count_carets (width : Nat) (columns : List Nat) :
    (carets width columns).count '^' + (skipped width columns).length = columns.length := by
  fun_induction skipped width columns with
  | case1 width => rfl
  | case2 width column rest h ih =>
    rw [carets, if_pos h, List.length_cons, List.length_cons, ← Nat.add_assoc, ih]
  | case3 width column rest h ih =>
    rw [carets_cons (Nat.not_lt.mp h), List.count_append, List.count_replicate,
      if_neg (by decide), List.count_cons_self, List.length_cons]
    omega

/-- The carets are in the columns. -/
theorem Ahead.getElem?_carets (h : Ahead width columns) (i : Nat) :
    (carets width columns)[i]? = some '^' ↔ width + i ∈ columns := by
  induction h generalizing i with
  | nil => simp [carets]
  | @cons width column rest h hRest ih =>
    rw [carets_cons h, List.mem_cons]
    rcases Nat.lt_trichotomy (width + i) column with hBefore | hHere | hAfter
    · have hOther : width + i ∉ rest := fun hMem => by
        have := hRest.le _ hMem
        omega
      rw [List.getElem?_append_left (by rw [List.length_replicate]; omega),
        List.getElem?_replicate_of_lt (by omega)]
      simp [hOther, hBefore.ne]
    · rw [List.getElem?_append_right (by rw [List.length_replicate]; omega),
        List.length_replicate, show i - (column - width) = 0 by omega]
      simp [hHere]
    · obtain ⟨j, rfl⟩ : ∃ j, i = column - width + (j + 1) := ⟨i - (column - width) - 1, by omega⟩
      rw [List.getElem?_append_right (by rw [List.length_replicate]; omega),
        List.length_replicate, Nat.add_sub_cancel_left, List.getElem?_cons_succ, ih,
        show width + (column - width + (j + 1)) = column + 1 + j by omega]
      simp only [iff_or_self]
      omega

/-- Nothing comes after the last caret. -/
theorem Ahead.getLast?_carets (h : Ahead width columns) (hSome : columns ≠ []) :
    (carets width columns).getLast? = some '^' := by
  induction h with
  | nil => exact absurd rfl hSome
  | @cons width column rest h hRest ih =>
    rw [carets_cons h, List.getLast?_append_of_ne_nil _ (List.cons_ne_nil _ _),
      List.getLast?_cons]
    by_cases hLast : rest = []
    · rw [hLast]
      rfl
    · rw [ih hLast]
      rfl

end Ahead

/-- The quoted source stands in one line below the message, and carets in the line below that one:
one for each offset, in the column where the source shows the character. No offset is skipped. -/
theorem carets_below (message source : String) (offsets : List Nat) :
    ∃ marks,
      (about message source offsets).text =
        message.toList ++ indentation ++ quoted source.toList ++ indentation ++ marks ∧
      '\n' ∉ quoted source.toList ∧
      (∀ c ∈ marks, c = ' ' ∨ c = '^') ∧
      marks.count '^' = offsets.dedup.length ∧
      (offsets ≠ [] → marks.getLast? = some '^') ∧
      (∀ column, marks[column]? = some '^' ↔
        ∃ offset ∈ offsets, Shows source.toList offset column) ∧
      skipped 0 ((about message source offsets).offsets.map (columnOf source.toList)) = [] := by
  obtain ⟨hIncreasing, hMem⟩ := about_spec message source offsets
  generalize hKept : (about message source offsets).offsets = kept at hIncreasing hMem ⊢
  have hColumns : (kept.map (columnOf source.toList)).Pairwise (· < ·) := by
    rw [List.pairwise_map]
    exact hIncreasing.imp fun h => columnOf_strictMono source.toList h
  have hAhead : Ahead 0 (kept.map (columnOf source.toList)) :=
    ahead_of_increasing hColumns fun _ _ => Nat.zero_le _
  have hDistinct : kept.Perm offsets.dedup := by
    rw [List.perm_ext_iff_of_nodup (hIncreasing.imp Nat.ne_of_lt) offsets.nodup_dedup]
    exact fun o => (hMem o).trans List.mem_dedup.symm
  refine ⟨carets 0 (kept.map (columnOf source.toList)), ?_, Text.newline_not_mem_quoted _,
    hAhead.mem_carets, ?_, fun hSome => ?_, fun column => ?_, hAhead.skipped_eq⟩
  · rw [← hKept]
    rfl
  · have hCount := count_carets 0 (kept.map (columnOf source.toList))
    rwa [hAhead.skipped_eq, List.length_nil, Nat.add_zero, List.length_map,
      hDistinct.length_eq] at hCount
  · refine hAhead.getLast?_carets fun hNil => hSome ?_
    obtain rfl := List.map_eq_nil_iff.mp hNil
    exact List.eq_nil_iff_forall_not_mem.mpr fun o ho => List.not_mem_nil ((hMem o).mpr ho)
  · rw [hAhead.getElem?_carets, Nat.zero_add, List.mem_map]
    simp only [shows_iff, hMem, eq_comm]

end Formula.SyntaxError
