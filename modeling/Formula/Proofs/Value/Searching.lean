import Formula.Proofs.Text.Search
import Formula.Proofs.Value.Methods
import Formula.Proofs.Value.Slices

/-! The methods that search a text for another one agree, because they all follow one segmentation
of it: `split` gives the pieces, `join` makes them the text again, `count` is about their number,
`find` and `startswith` are about the end of the first one, and `replace` joins them by something
else. -/

namespace Formula.Value

variable {σ : Type}

/-- What the methods that search the text `s` for `t` say of each other. There are `number`
occurrences, the first one is at `place`, and `parts` are the pieces around them. -/
structure SearchesAgree (host : Host σ) (s t : String) (parts : List (List Char)) (number : Nat)
    (place : Int) : Prop where
  split : callMethod host (.str s) "split" [.str t] = pure (.list (parts.map text))
  join : callMethod host (.str t) "join" [.list (parts.map text)] = pure (.str s)
  free : ∀ part ∈ parts, ¬t.toList <:+: part
  count : callMethod host (.str s) "count" [.str t] = pure (.int number)
  length : parts.length = number + 1
  find : callMethod host (.str s) "find" [.str t] = pure (.int place)
  missing : place = -1 ↔ number = 0
  found : number ≠ 0 → ∃ first others, parts = first :: others ∧ place = first.length ∧
    getSlice host (.str s) (.int place) (.int (place + t.length)) .none = pure (.str t)
  startswith : callMethod host (.str s) "startswith" [.str t] = pure (.bool (place = 0))
  replace : ∀ u : String, ∃ replaced,
    callMethod host (.str s) "replace" [.str t, .str u] = pure replaced ∧
      callMethod host (.str u) "join" [.list (parts.map text)] = pure replaced
  replace_negative : ∀ (u : String) (n : Int), n < 0 →
    callMethod host (.str s) "replace" [.str t, .str u, .int n] =
      callMethod host (.str s) "replace" [.str t, .str u]
  replace_first : ∀ n : Nat, ∃ rest,
    s.toList = (parts.take (min n number)).flatMap (· ++ t.toList) ++ rest ∧
      ∀ u : String, callMethod host (.str s) "replace" [.str t, .str u, .int n] =
        pure (text ((parts.take (min n number)).flatMap (· ++ u.toList) ++ rest))

/-! ### What each method gives -/

section Methods

variable (host : Host σ) (s t u : String)

theorem text_toList : text s.toList = .str s := by
  rw [text, String.ofList_toList]

theorem callMethod_str {m : Method} (hm : m ∈ Method.ofText) (args : List Value) :
    callMethod host (.str s) m.name args = Run.ofExcept host (m.call (.str s) args) :=
  callMethod_eq host hm args

theorem mapM_textArg (m : Method) (parts : List (List Char)) :
    (parts.map text).mapM m.textArg = .ok parts := by
  induction parts with
  | nil => rfl
  | cons part parts ih =>
    rw [List.map_cons, List.mapM_cons, ih]
    show (Except.ok _ : Except Complaint _) = _
    rw [String.toList_ofList]

theorem callMethod_join (parts : List (List Char)) :
    callMethod host (.str s) "join" [.list (parts.map text)] =
      pure (text (s.toList.intercalate parts)) := by
  refine (callMethod_str host s (m := .join) (by decide) _).trans ?_
  show Run.ofExcept host ((parts.map text).mapM Method.join.textArg >>= fun parts =>
    .ok (text (s.toList.intercalate parts))) = _
  rw [mapM_textArg]
  rfl

theorem callMethod_split (hne : t.toList ≠ []) :
    callMethod host (.str s) "split" [.str t] =
      pure (.list ((Text.split t.toList s.toList).map text)) := by
  refine (callMethod_str host s (m := .split) (by decide) _).trans ?_
  show Run.ofExcept host (Method.splitBy s.toList (some t.toList)) = _
  obtain ⟨c, t', hText⟩ := List.exists_cons_of_ne_nil hne
  rw [hText]
  rfl

theorem callMethod_count :
    callMethod host (.str s) "count" [.str t] = pure (.int (Text.count t.toList s.toList)) :=
  callMethod_str host s (m := .count) (by decide) _

theorem callMethod_startswith :
    callMethod host (.str s) "startswith" [.str t] = pure (.bool (t.toList.isPrefixOf s.toList)) :=
  callMethod_str host s (m := .startswith) (by decide) _

theorem callMethod_find :
    callMethod host (.str s) "find" [.str t] =
      pure (.int (match Text.find? t.toList s.toList with | some i => i | Option.none => -1)) :=
  callMethod_str host s (m := .find) (by decide) _

theorem callMethod_replace (rest : List Value) (h : rest.length ≤ 1) :
    callMethod host (.str s) "replace" (.str t :: .str u :: rest) =
      Run.ofExcept host (Method.replaced s.toList t.toList u.toList rest) := by
  refine (callMethod_str host s (m := .replace) (by decide) _).trans ?_
  rw [Method.call_eq, if_pos ⟨Nat.le_add_left 2 rest.length, Nat.add_le_add_right h 2⟩]
  rfl

theorem replaced_negative (cs old new : List Char) {n : Int} (hn : n < 0) :
    Method.replaced cs old new [.int n] = .ok (text (Text.replace old new cs)) :=
  congrArg (fun cs => Except.ok (text cs)) (if_pos hn)

theorem replaced_natCast (cs old new : List Char) (n : Nat) :
    Method.replaced cs old new [.int n] = .ok (text (Text.replaceUpTo old new n cs)) :=
  congrArg (fun cs => Except.ok (text cs)) (if_neg (Int.not_lt.mpr (Int.natCast_nonneg n)))

end Methods

/-! ### Agreement -/

section Agreement

variable (host : Host σ) {s t : String} {parts : List (List Char)}

/-- The slice from where a text is found that is as long as it is that text. -/
theorem getSlice_firstAt {before rest : List Char}
    (h : Text.FirstAt t.toList s.toList before rest) :
    getSlice host (.str s) (.int before.length) (.int (before.length + t.length)) .none =
      pure (.str t) := by
  have hSlice : sliceItems s.toList (some before.length) (some (before.length + t.length)) 1 =
      t.toList := by
    have hBound : before.length + t.length ≤ s.toList.length := by
      rw [h.eq, List.length_append, List.length_append, String.length_toList]
      exact Nat.le_add_right _ _
    rw [← Int.natCast_add, sliceItems_eq (Nat.le_add_right _ _) hBound, h.eq, List.append_assoc,
      List.drop_left, Nat.add_sub_cancel_left, ← String.length_toList, List.take_left]
  show Run.ofExcept host (.ok (text (sliceItems s.toList _ _ 1))) = _
  rw [hSlice, text_toList]
  rfl

/-- Where `t` is found in `s`, if it is there. -/
theorem exists_place (h : Text.Parted t.toList s.toList parts) :
    ∃ place : Int, callMethod host (.str s) "find" [.str t] = pure (.int place) ∧
      (place = -1 ↔ parts.length = 1) ∧
      (parts.length ≠ 1 → ∃ first others, parts = first :: others ∧ place = first.length ∧
        getSlice host (.str s) (.int place) (.int (place + t.length)) .none = pure (.str t)) ∧
      (place = 0 ↔ t.toList <+: s.toList) := by
  rw [callMethod_find, ← Text.find?_eq_zero_iff]
  refine ⟨_, rfl, ?_⟩
  rcases Text.find?_spec h with ⟨hNone, rfl⟩ | ⟨before, rest, others, hSome, hFirst, rfl, hOthers⟩
  · rw [hNone]
    exact ⟨iff_of_true rfl rfl, fun hMany => absurd rfl hMany, iff_of_false (by decide) nofun⟩
  · rw [hSome]
    have hMany : (before :: others).length ≠ 1 := by simpa using hOthers
    refine ⟨iff_of_false (by simp) hMany, fun _ => ?_, by simp⟩
    exact ⟨before, others, rfl, rfl, getSlice_firstAt host hFirst⟩

/-- Where a text is parted, the methods that search it agree. -/
theorem searchesAgree_of_parted (h : Text.Parted t.toList s.toList parts) (hne : t.toList ≠ []) :
    ∃ number place, SearchesAgree host s t parts number place := by
  have hPos := List.length_pos_iff.mpr h.ne_nil
  obtain ⟨place, hFind, hMissing, hFound, hStart⟩ := exists_place host h
  have hOne : parts.length - 1 = 0 ↔ parts.length = 1 := by omega
  refine ⟨parts.length - 1, place, ?_⟩
  exact {
    split := by rw [callMethod_split host s t hne, Text.split_eq h hne]
    join := by rw [callMethod_join, h.intercalate, text_toList]
    free := h.free hne
    count := by rw [callMethod_count, Text.count_eq h hne]
    length := by omega
    find := hFind
    missing := hMissing.trans hOne.symm
    found := fun hSome => hFound (mt hOne.mpr hSome)
    startswith := by
      have hPrefix : t.toList.isPrefixOf s.toList = decide (place = 0) := by
        rw [Bool.eq_iff_iff, List.isPrefixOf_iff_prefix, decide_eq_true_iff, hStart]
      rw [callMethod_startswith, hPrefix]
    replace := fun u => by
      refine ⟨_, callMethod_replace host s t u [] (Nat.zero_le 1), ?_⟩
      rw [callMethod_join, ← Text.replace_eq h hne]
    replace_negative := fun u n hn => by
      rw [callMethod_replace host s t u [.int n] (Nat.le_refl 1), replaced_negative _ _ _ hn,
        callMethod_replace host s t u [] (Nat.zero_le 1)]
      rfl
    replace_first := fun n => by
      obtain ⟨rest, hWhole, hReplaced⟩ := Text.replaceUpTo_eq h hne n
      refine ⟨rest, hWhole, fun u => ?_⟩
      rw [callMethod_replace host s t u [.int n] (Nat.le_refl 1), replaced_natCast, hReplaced]
      rfl }

/-- The methods that search a text for one that is not empty agree, and what they say follows the
only segmentation of the text by the occurrences found from the left. -/
theorem searches_agree (s t : String) (h : t ≠ "") :
    ∃ parts number place, Text.Parted t.toList s.toList parts ∧
      SearchesAgree host s t parts number place := by
  have hne : t.toList ≠ [] := by rwa [Ne, String.toList_eq_nil_iff]
  obtain ⟨parts, hParted⟩ := Text.exists_parted hne s.toList
  obtain ⟨number, place, hAgree⟩ := searchesAgree_of_parted host hParted hne
  exact ⟨parts, number, place, hParted, hAgree⟩

/-- Of two occurrences that overlap, the first one counts. -/
theorem searches_agree_overlap :
    "aa" ≠ "" ∧ SearchesAgree Host.none "aaa" "aa" [[], ['a']] 1 0 := by
  have hText : "aa" ≠ "" := by decide
  have hParts : Text.Parted "aa".toList "aaa".toList [[], ['a']] :=
    .next (Text.firstAt_start ['a', 'a'] ['a']) (.last (by decide))
  obtain ⟨parts, number, place, hParted, hAgree⟩ := searches_agree Host.none "aaa" "aa" hText
  obtain rfl := hParted.unique hParts
  obtain rfl : number = 1 := (Nat.succ.inj hAgree.length).symm
  obtain ⟨first, others, hFirst, hPlace, -⟩ := hAgree.found Nat.one_ne_zero
  obtain ⟨rfl, -⟩ := List.cons.inj hFirst
  obtain rfl : place = 0 := hPlace
  exact ⟨hText, hAgree⟩

end Agreement

end Formula.Value
