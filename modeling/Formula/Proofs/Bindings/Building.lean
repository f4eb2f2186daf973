import Mathlib.Data.List.Forall2
import Formula.Bindings.Argument
import Formula.Proofs.Bindings.Lookup

/-! Bindings that are given with their sources. The sources are evaluated from left to right, and
the first that has no value is reported. If all have values, the names that are bound again are
reported, and if there are none, each name is bound to the value of its source. -/

namespace Formula.Bindings

/-- The names among `names` that are known by then, where `known` are known before. -/
def repeats (known : List String) : List String → List String
  | [] => []
  | name :: names =>
    if name ∈ known then name :: repeats known names else repeats (name :: known) names

theorem repeats_eq_nil {known names : List String} :
    repeats known names = [] ↔ names.Nodup ∧ ∀ name ∈ names, name ∉ known := by
  induction names generalizing known with
  | nil => simp [repeats]
  | cons name names ih =>
    by_cases hKnown : name ∈ known
    · simp [repeats, hKnown]
    · rw [repeats, if_neg hKnown, ih, List.nodup_cons, List.forall_mem_cons]
      constructor
      · rintro ⟨hNodup, hNew⟩
        exact ⟨⟨fun hMem => hNew name hMem List.mem_cons_self, hNodup⟩, hKnown,
          fun n hMem hOld => hNew n hMem (List.mem_cons_of_mem name hOld)⟩
      · rintro ⟨⟨hFirst, hNodup⟩, -, hNew⟩
        refine ⟨hNodup, fun n hMem hOld => ?_⟩
        rcases List.mem_cons.mp hOld with rfl | hOld
        · exact hFirst hMem
        · exact hNew n hMem hOld

/-- The names of `entries`. -/
def names (entries : List (String × Value)) : List String := entries.map (·.1)

theorem mem_names_insert {name n : String} {v : Value} {entries : List (String × Value)} :
    n ∈ names (insert name v entries) ↔ n = name ∨ n ∈ names entries := by
  induction entries with
  | nil => simp [insert, names]
  | cons entry es ih =>
    obtain ⟨m, w⟩ := entry
    simp only [insert]
    split
    case h_1 => simp [names]
    case h_2 hEq =>
      obtain rfl := order_eq_eq.mp hEq
      simp [names]
    case h_3 =>
      simp only [names, List.map_cons, List.mem_cons] at ih ⊢
      rw [ih]
      exact or_left_comm

namespace Builder

/-- Binds each name to its value, from left to right. -/
def bindValues (b : Builder) (values : List (String × Value)) : Builder :=
  values.foldl (fun b (name, v) => b.bind name v) b

variable {b : Builder} {known : List String} {name : String} {v : Value}

theorem any_eq_true : b.entries.any (·.1 == name) = true ↔ name ∈ names b.entries := by
  simp [names]

theorem bind_of_mem (h : name ∈ names b.entries) :
    b.bind name v = ⟨b.entries, b.repeated ++ [name]⟩ :=
  if_pos (any_eq_true.mpr h)

theorem bind_of_not_mem (h : name ∉ names b.entries) :
    b.bind name v = ⟨insert name v b.entries, b.repeated⟩ :=
  if_neg (mt any_eq_true.mp h)

theorem mem_names_bind (h : ∀ n, n ∈ known ↔ n ∈ names b.entries) (hNew : name ∉ names b.entries)
    (n : String) : n ∈ name :: known ↔ n ∈ names (b.bind name v).entries := by
  rw [bind_of_not_mem hNew, mem_names_insert, List.mem_cons, h n]

theorem repeated_bindValues (values : List (String × Value))
    (h : ∀ n, n ∈ known ↔ n ∈ names b.entries) :
    (b.bindValues values).repeated = b.repeated ++ repeats known (names values) := by
  induction values generalizing b known with
  | nil => exact (List.append_nil _).symm
  | cons pair values ih =>
    obtain ⟨name, v⟩ := pair
    show ((b.bind name v).bindValues values).repeated = b.repeated ++ repeats known (name :: _)
    by_cases hMem : name ∈ names b.entries
    · have hRest := ih (b := b.bind name v) (by rwa [bind_of_mem hMem])
      rw [hRest, bind_of_mem hMem, repeats, if_pos ((h name).mpr hMem), List.append_assoc,
        List.singleton_append, names]
    · rw [ih (mem_names_bind h hMem), bind_of_not_mem hMem, repeats, if_neg (mt (h name).mp hMem),
        names]

/-- Where no name is bound again, all are inserted. -/
theorem entries_bindValues {values : List (String × Value)}
    (h : repeats known (names values) = []) (hKnown : ∀ n, n ∈ known ↔ n ∈ names b.entries) :
    (b.bindValues values).entries =
      values.foldl (fun es (name, v) => insert name v es) b.entries := by
  induction values generalizing b known with
  | nil => rfl
  | cons pair values ih =>
    obtain ⟨name, v⟩ := pair
    obtain ⟨hNodup, hNew⟩ := repeats_eq_nil.mp h
    have hName : name ∉ known := hNew name List.mem_cons_self
    have hMem : name ∉ names b.entries := mt (hKnown name).mpr hName
    have hRest : repeats (name :: known) (names values) = [] := by
      simpa [names, repeats, hName] using h
    show ((b.bind name v).bindValues values).entries = _
    rw [ih hRest (mem_names_bind hKnown hMem), bind_of_not_mem hMem]
    rfl

/-- The names are bound if they are different. -/
theorem build_bindValues (values : List (String × Value)) :
    (empty.bindValues values).build =
      if (names values).Nodup then .ok (ofList values) else .error (repeats [] (names values)) := by
  have hEmpty : ∀ n, n ∈ [] ↔ n ∈ names empty.entries := fun n => Iff.rfl
  have hRepeated := repeated_bindValues values hEmpty
  rw [build, hRepeated]
  by_cases hNodup : (names values).Nodup
  · have hNil : repeats [] (names values) = [] := repeats_eq_nil.mpr ⟨hNodup, fun _ _ => nofun⟩
    rw [if_pos hNodup, entries_bindValues hNil hEmpty, hNil]
    rfl
  · have hRepeats : repeats [] (names values) ≠ [] := fun hNil => hNodup (repeats_eq_nil.mp hNil).1
    rw [if_neg hNodup, if_neg (by simpa [empty] using hRepeats)]
    rfl

end Builder

namespace Argument

/-- Each of `pairs` is a name with a source, and `values` are the same names with the values of the
sources. -/
def Valued (pairs : List (String × String)) (values : List (String × Value)) : Prop :=
  List.Forall₂ (fun p v => p.1 = v.1 ∧ constant p.2 = .ok v.2) pairs values

/-- What is reported of `pairs`: the fault of the first source that has no value, or the names that
are bound again. -/
inductive Rejected : List (String × String) → Error → Prop
  | failing {before after : List (String × String)} {values : List (String × Value)}
      {name source : String} {e : Error} (h : Valued before values)
      (hFault : constant source = .error e) : Rejected (before ++ (name, source) :: after) e
  | repeating {pairs : List (String × String)} {values : List (String × Value)}
      (h : Valued pairs values) (hRepeated : ¬(names values).Nodup) :
      Rejected pairs (.duplicateBindings (repeats [] (names values)))

variable {pairs before after : List (String × String)} {values : List (String × Value)}
  {b : Builder}

theorem bindAll_append (h : Valued before values) :
    bindAll b (before ++ after) = bindAll (b.bindValues values) after := by
  induction h generalizing b with
  | nil => rfl
  | @cons pair v pairs values hFirst hRest ih =>
    obtain ⟨name, source⟩ := pair
    obtain ⟨rfl, hValue⟩ := hFirst
    simp only [List.cons_append, bindAll, hValue, bind, Except.bind, ih]
    rfl

/-- Either all sources have values, or there is a first that has none. -/
theorem valued_or_fault (pairs : List (String × String)) :
    (∃ values, Valued pairs values) ∨
      ∃ before values name source after e, pairs = before ++ (name, source) :: after ∧
        Valued before values ∧ constant source = .error e := by
  induction pairs with
  | nil => exact .inl ⟨[], .nil⟩
  | cons pair pairs ih =>
    obtain ⟨name, source⟩ := pair
    cases hValue : constant source with
    | error e => exact .inr ⟨[], [], name, source, pairs, e, rfl, .nil, hValue⟩
    | ok v =>
      rcases ih with ⟨values, h⟩ | ⟨before, values, n, s, after, e, rfl, h, hFault⟩
      · exact .inl ⟨(name, v) :: values, .cons ⟨rfl, hValue⟩ h⟩
      · exact .inr ⟨(name, source) :: before, (name, v) :: values, n, s, after, e, rfl,
          .cons ⟨rfl, hValue⟩ h, hFault⟩

theorem build_of_valued (h : Valued pairs values) :
    build pairs = if (names values).Nodup then .ok (ofList values)
      else .error (.duplicateBindings (repeats [] (names values))) := by
  have hAll : bindAll .empty (pairs ++ []) = .ok (Builder.empty.bindValues values) :=
    bindAll_append h
  rw [List.append_nil] at hAll
  simp only [build, hAll, bind, Except.bind, Builder.build_bindValues]
  split <;> rfl

theorem Rejected.build_eq {e : Error} (h : Rejected pairs e) : build pairs = .error e := by
  cases h with
  | failing h hFault =>
    simp only [build, bindAll_append h, bindAll, hFault, bind, Except.bind]
  | repeating h hRepeated => rw [build_of_valued h, if_neg hRepeated]

theorem build_eq_error_iff {e : Error} : build pairs = .error e ↔ Rejected pairs e := by
  refine ⟨fun hBuild => ?_, Rejected.build_eq⟩
  rcases valued_or_fault pairs with ⟨values, h⟩ |
    ⟨before, values, name, source, after, e', rfl, h, hFault⟩
  · rw [build_of_valued h] at hBuild
    split at hBuild
    case isTrue => cases hBuild
    case isFalse hRepeated =>
      cases hBuild
      exact .repeating h hRepeated
  · have hRejected : Rejected (before ++ (name, source) :: after) e' := .failing h hFault
    rw [hRejected.build_eq] at hBuild
    cases hBuild
    exact hRejected

end Argument

end Formula.Bindings
