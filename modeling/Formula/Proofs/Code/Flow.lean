import Mathlib.Order.Bounds.Basic
import Formula.Code

/-! The paths through code. An instruction leads from a stack of values that may be known before the
run to the stacks that can result, and code is well formed if no path makes the machine stop at a
defect. -/

namespace Formula

namespace Instruction

/-- The number of values that an instruction takes from the stack or looks at. -/
def needs : Instruction → Nat
  | loadConst _ | loadRef _ | jump _ => 0
  | unary _ | popJumpIf _ _ | jumpIf _ _ | pop => 1
  | binary _ | compare _ | getAttr => 2
  | call count | getItem count => count + 1

/-- What an instruction can lead to: how many instructions it skips, and the stack after it. Only
constants are known; a conditional jump has both outcomes. -/
def outcomes (t : SymbolTable) (known : List (Option Value)) :
    Instruction → List (Nat × List (Option Value))
  | loadConst id => [(0, t.literal? id :: known)]
  | jump offset => [(offset, known)]
  | popJumpIf _ offset => [(0, known.tail), (offset, known.tail)]
  | jumpIf _ offset => [(0, known), (offset, known)]
  | pop => [(0, known.tail)]
  | i => [(0, none :: known.drop i.needs)]

/-- Whether the operand of an instruction is one that the machine knows. -/
def Sound (t : SymbolTable) : Instruction → Prop
  | loadConst id => id < t.literals.length
  | loadRef id => id < t.references.length
  | getItem count => count = 1 ∨ count = 3
  | _ => True

/-- A jump can skip what it names. -/
theorem outcome_offset (t : SymbolTable) {i : Instruction} {offset : Nat}
    (h : i.offset? = some offset) (known : List (Option Value)) :
    ∃ known', (offset, known') ∈ i.outcomes t known := by
  cases i <;> simp_all [offset?, outcomes]

theorem skip_of_outcome {t : SymbolTable} {i : Instruction} {skip : Nat}
    {known known' : List (Option Value)} (h : (skip, known') ∈ i.outcomes t known) :
    skip = 0 ∨ i.offset? = some skip := by
  cases i <;> simp_all [offset?, outcomes]
  all_goals tauto

end Instruction

namespace Code

/-- Some path comes before instruction number `index`, or past the last one, with such a stack. -/
inductive Reaches (c : Code) : Nat → List (Option Value) → Prop
  | start : Reaches c 0 []
  | step {index skip : Nat} {known known' : List (Option Value)} {i : Instruction}
      (here : Reaches c index known) (instruction : c.instructions[index]? = some i)
      (outcome : (skip, known') ∈ i.outcomes c.symbols known) :
      Reaches c (index + 1 + skip) known'

/-- Code that leads to no defect. -/
structure WellFormed (c : Code) : Prop where
  /-- Each instruction is on some path, and all paths come to it with the same height. -/
  height : ∀ index < c.instructions.length,
    ∃! height, ∃ known, c.Reaches index known ∧ known.length = height
  enough : ∀ index known i, c.Reaches index known → c.instructions[index]? = some i →
    i.needs ≤ known.length
  literal : ∀ id, .loadConst id ∈ c.instructions → id < c.symbols.literals.length
  reference : ∀ id, .loadRef id ∈ c.instructions → id < c.symbols.references.length
  item : ∀ count, .getItem count ∈ c.instructions → count = 1 ∨ count = 3
  attr : ∀ index known, c.Reaches index known → c.instructions[index]? = some .getAttr →
    ∃ name, known.head? = some (some (.str name))
  jump : ∀ index i offset, c.instructions[index]? = some i → i.offset? = some offset →
    index + 1 + offset ≤ c.instructions.length
  /-- The end is reached, and one value is left there. -/
  ending : (∃ known, c.Reaches c.instructions.length known) ∧
    ∀ known, c.Reaches c.instructions.length known → known.length = 1
  greatest : IsGreatest {height | ∃ index known, c.Reaches index known ∧ known.length = height}
    c.maxStack

/-- Some path comes before instruction number `index`. -/
def Enters (c : Code) (index : Nat) : Prop := ∃ known, c.Reaches index known

end Code

/-! ### Shapes of stacks -/

/-- What is the same on all paths to an instruction: the height of the stack, and whether a text is
known to be on top. -/
structure Shape where
  height : Nat
  named : Bool

structure Shape.Describes (s : Shape) (known : List (Option Value)) : Prop where
  height : known.length = s.height
  named : s.named = true → ∃ name, known.head? = some (some (.str name))

/-- From a stack of shape `s`, an instruction leads to stacks of the shapes `next` of the
instructions after it. -/
structure Instruction.Fits (t : SymbolTable) (i : Instruction) (s : Shape) (next : List Shape) :
    Prop where
  sound : i.Sound t
  enough : i.needs ≤ s.height
  attr : i = .getAttr → s.named = true
  leads : ∀ known, s.Describes known → ∀ outcome ∈ i.outcomes t known,
    ∃ s', next[outcome.1]? = some s' ∧ s'.Describes outcome.2

/-- All instructions fit the shapes `shapes` before them and `exit` after the last one. -/
inductive Checked (t : SymbolTable) (exit : Shape) : List Instruction → List Shape → Prop
  | nil : Checked t exit [] []
  | cons {i : Instruction} {s : Shape} {code : List Instruction} {shapes : List Shape}
      (first : i.Fits t s (shapes ++ [exit])) (others : Checked t exit code shapes) :
      Checked t exit (i :: code) (s :: shapes)

theorem Instruction.Fits.mono {t : SymbolTable} {i : Instruction} {s : Shape}
    {next next' : List Shape} (h : i.Fits t s next) (hNext : next <+: next') :
    i.Fits t s next' where
  sound := h.sound
  enough := h.enough
  attr := h.attr
  leads known hs outcome ho := by
    obtain ⟨s', hget, hs'⟩ := h.leads known hs outcome ho
    obtain ⟨more, rfl⟩ := hNext
    exact ⟨s', by rw [List.getElem?_append_left (List.getElem?_eq_some_iff.mp hget).1, hget], hs'⟩

namespace Checked

variable {t : SymbolTable} {middle exit : Shape} {code code' : List Instruction}
  {shapes shapes' : List Shape}

theorem length_eq (h : Checked t exit code shapes) : shapes.length = code.length := by
  induction h with
  | nil => rfl
  | cons _ _ ih => simp [ih]

theorem sound (h : Checked t exit code shapes) : ∀ i ∈ code, i.Sound t := by
  induction h with
  | nil => simp
  | cons first _ ih => exact List.forall_mem_cons.mpr ⟨first.sound, ih⟩

theorem append (h : Checked t middle code shapes) (h' : Checked t exit code' shapes')
    (hMiddle : (shapes' ++ [exit]).head? = some middle) :
    Checked t exit (code ++ code') (shapes ++ shapes') := by
  induction h with
  | nil => exact h'
  | @cons i s code shapes first others ih =>
    refine .cons (first.mono ?_) ih
    obtain ⟨more, hMore⟩ := List.head?_eq_some_iff.mp hMiddle
    exact ⟨more, by simp [hMore]⟩

/-- The shape before an instruction is one that the instruction fits. -/
theorem fits (h : Checked t exit code shapes) {index : Nat} {i : Instruction}
    (hi : code[index]? = some i) :
    ∃ s, shapes[index]? = some s ∧ i.Fits t s ((shapes ++ [exit]).drop (index + 1)) := by
  induction h generalizing index with
  | nil => simp at hi
  | @cons j s code shapes first others ih =>
    cases index with
    | zero =>
      cases hi
      exact ⟨s, rfl, by simpa using first⟩
    | succ index => simpa using ih (by simpa using hi)

/-- Along every path, the stack has the shape before the next instruction. -/
theorem describes {c : Code} (h : Checked c.symbols exit c.instructions shapes)
    (hEntry : (shapes ++ [exit]).head? = some ⟨0, false⟩) {index : Nat}
    {known : List (Option Value)} (hReach : c.Reaches index known) :
    ∃ s, (shapes ++ [exit])[index]? = some s ∧ s.Describes known := by
  induction hReach with
  | start => exact ⟨⟨0, false⟩, by rw [← List.head?_eq_getElem?, hEntry], rfl, by simp⟩
  | @step index skip known known' i here hi outcome ih =>
    obtain ⟨s, hs, hDescribes⟩ := ih
    obtain ⟨s₀, hs₀, fits⟩ := h.fits hi
    have hSame : s₀ = s := by
      have hlt := (List.getElem?_eq_some_iff.mp hs₀).1
      rw [List.getElem?_append_left hlt, hs₀] at hs
      exact Option.some_inj.mp hs
    obtain ⟨s', hs', hDescribes'⟩ := fits.leads known (hSame ▸ hDescribes) _ outcome
    exact ⟨s', by rw [← hs', List.getElem?_drop], hDescribes'⟩

/-- On every path, the stack has the shape that the next instruction fits. -/
theorem here {c : Code} (h : Checked c.symbols exit c.instructions shapes)
    (hEntry : (shapes ++ [exit]).head? = some ⟨0, false⟩) {index : Nat}
    {known : List (Option Value)} {i : Instruction} (hReach : c.Reaches index known)
    (hi : c.instructions[index]? = some i) :
    ∃ s : Shape, s.Describes known ∧
      i.Fits c.symbols s ((shapes ++ [exit]).drop (index + 1)) := by
  obtain ⟨s, hs, fits⟩ := h.fits hi
  obtain ⟨s', hs', hDescribes⟩ := h.describes hEntry hReach
  rw [List.getElem?_append_left (List.getElem?_eq_some_iff.mp hs).1, hs] at hs'
  cases hs'
  exact ⟨s, hDescribes, fits⟩

end Checked

/-! ### Fragments -/

/-- If a path comes to `code` in `c`, paths come to each of its instructions and past its end. -/
def Code.Covers (c : Code) (code : List Instruction) : Prop :=
  ∀ before after, c.instructions = before ++ code ++ after → c.Enters before.length →
    ∀ index ≤ code.length, c.Enters (before.length + index)

/-- `peak` is the greatest height of `shapes`. -/
def Peaks (shapes : List Shape) (peak : Nat) : Prop :=
  IsGreatest {height | ∃ s ∈ shapes, s.height = height} peak

/-- A fragment of the code of `c` takes a stack of shape `entry` to one of shape `exit`, and `peak`
is the greatest height on the way. -/
structure Fragment (c : Code) (entry exit : Shape) (code : List Instruction) (peak : Nat) :
    Prop where
  covers : c.Covers code
  shapes : ∃ shapes, (shapes ++ [exit]).head? = some entry ∧
    Checked c.symbols exit code shapes ∧ Peaks (shapes ++ [exit]) peak

namespace Peaks

variable {shapes shapes' : List Shape} {peak peak' : Nat}

theorem single (s : Shape) : Peaks [s] s.height := by
  simp [Peaks]

theorem cons (h : Peaks shapes peak) (s : Shape) : Peaks (s :: shapes) (max s.height peak) := by
  have hSet : {height | ∃ s' ∈ s :: shapes, s'.height = height} =
      insert s.height {height | ∃ s ∈ shapes, s.height = height} := by
    ext height
    simp [eq_comm]
  rw [Peaks, hSet]
  exact IsGreatest.insert s.height h

theorem append {middle : Shape} (h : Peaks (shapes ++ [middle]) peak) (h' : Peaks shapes' peak')
    (hMiddle : shapes'.head? = some middle) : Peaks (shapes ++ shapes') (max peak peak') := by
  have hSet : {height | ∃ s ∈ shapes ++ shapes', s.height = height} =
      {height | ∃ s ∈ shapes ++ [middle], s.height = height} ∪
        {height | ∃ s ∈ shapes', s.height = height} := by
    have hMem := List.mem_of_head? hMiddle
    ext height
    simp only [List.mem_append, List.mem_singleton, Set.mem_ofPred_eq, Set.mem_union]
    constructor
    · rintro ⟨s, hs | hs, rfl⟩
      · exact .inl ⟨s, .inl hs, rfl⟩
      · exact .inr ⟨s, hs, rfl⟩
    · rintro (⟨s, hs | rfl, rfl⟩ | ⟨s, hs, rfl⟩)
      · exact ⟨s, .inl hs, rfl⟩
      · exact ⟨s, .inr hMem, rfl⟩
      · exact ⟨s, .inr hs, rfl⟩
  rw [Peaks, hSet]
  exact IsGreatest.union h h'

end Peaks

namespace Code.Covers

variable {c : Code} {code code' : List Instruction}

theorem append (h : c.Covers code) (h' : c.Covers code') : c.Covers (code ++ code') := by
  intro before after hCode hEnter index hIndex
  rcases Nat.le_total index code.length with hle | hle
  · exact h before (code' ++ after) (by rw [hCode]; simp) hEnter index hle
  · have hMiddle := h before (code' ++ after) (by rw [hCode]; simp) hEnter _ (Nat.le_refl _)
    have := h' (before ++ code) after (by rw [hCode]; simp)
      (by rwa [List.length_append]) (index - code.length) (by simp at hIndex; omega)
    rwa [List.length_append, Nat.add_assoc, Nat.add_sub_cancel' hle] at this

/-- From an instruction on a path, each of its outcomes is on a path. -/
theorem enters_step {before after : List Instruction} {i : Instruction} {skip : Nat}
    (hCode : c.instructions = before ++ i :: after) (hEnter : c.Enters before.length)
    (hSkip : ∀ known, ∃ known', (skip, known') ∈ i.outcomes c.symbols known) :
    c.Enters (before.length + (1 + skip)) := by
  obtain ⟨known, hReach⟩ := hEnter
  obtain ⟨known', outcome⟩ := hSkip known
  refine ⟨known', ?_⟩
  rw [← Nat.add_assoc]
  exact hReach.step (by simp [hCode]) outcome

theorem single {i : Instruction}
    (hFalls : ∀ known, ∃ known', (0, known') ∈ i.outcomes c.symbols known) : c.Covers [i] := by
  intro before after hCode hEnter index hIndex
  match index, hIndex with
  | 0, _ => exact hEnter
  | 1, _ => exact enters_step (by simpa using hCode) hEnter hFalls

theorem branch (hYes : c.Covers code) (hNo : c.Covers code') :
    c.Covers ([Instruction.popJumpIf false (code.length + 1)] ++ code ++
      [Instruction.jump code'.length] ++ code') := by
  intro before after hCode hEnter index hIndex
  -- The two outcomes of the test enter the two branches.
  have hTestCode : c.instructions = before ++ Instruction.popJumpIf false (code.length + 1) ::
      (code ++ Instruction.jump code'.length :: code' ++ after) := by
    rw [hCode]
    simp
  have hEnterYes : c.Enters (before.length + (1 + 0)) := enters_step hTestCode hEnter
    fun known => ⟨known.tail, List.mem_cons_self⟩
  have hEnterNo : c.Enters (before.length + (1 + (code.length + 1))) :=
    enters_step hTestCode hEnter
      fun known => ⟨known.tail, by simp [Instruction.outcomes]⟩
  rcases Nat.lt_or_ge index (code.length + 2) with hlt | hge
  · cases index with
    | zero => exact hEnter
    | succ index =>
      have hInside := hYes (before ++ [Instruction.popJumpIf false (code.length + 1)])
        (Instruction.jump code'.length :: code' ++ after) (by rw [hTestCode]; simp)
        (by simpa using hEnterYes) index (by omega)
      rwa [List.length_append, List.length_singleton, Nat.add_assoc, Nat.add_comm 1] at hInside
  · have hInside := hNo
      (before ++ Instruction.popJumpIf false (code.length + 1) :: code ++
        [Instruction.jump code'.length]) after
      (by rw [hTestCode]; simp) (by simpa [Nat.add_comm, Nat.add_left_comm] using hEnterNo)
      (index - (code.length + 2)) (by simp at hIndex; omega)
    have hSame : (before ++ Instruction.popJumpIf false (code.length + 1) :: code ++
        [Instruction.jump code'.length]).length + (index - (code.length + 2)) =
        before.length + index := by
      simp
      omega
    rwa [hSame] at hInside

end Code.Covers

namespace Fragment

variable {c : Code} {entry middle exit : Shape} {code code' : List Instruction} {peak peak' : Nat}

theorem append (h : Fragment c entry middle code peak) (h' : Fragment c middle exit code' peak') :
    Fragment c entry exit (code ++ code') (max peak peak') := by
  obtain ⟨shapes, hEntry, hChecked, hPeaks⟩ := h.shapes
  obtain ⟨shapes', hMiddle, hChecked', hPeaks'⟩ := h'.shapes
  refine ⟨h.covers.append h'.covers, shapes ++ shapes', ?_, hChecked.append hChecked' hMiddle, ?_⟩
  · cases shapes with
    | nil => rwa [List.nil_append, hMiddle]
    | cons s shapes => exact hEntry
  · rw [List.append_assoc]
    exact hPeaks.append hPeaks' hMiddle

theorem nil (s : Shape) : Fragment c s s [] s.height where
  covers before after hCode hEnter index hIndex := by
    rw [Nat.le_zero.mp hIndex]
    exact hEnter
  shapes := ⟨[], rfl, .nil, Peaks.single s⟩

/-- An instruction before a fragment, after which the fragment can come next. -/
theorem cons {i : Instruction} (h : Fragment c middle exit code peak)
    (fits : ∀ shapes, shapes.length = code.length → (shapes ++ [exit]).head? = some middle →
      i.Fits c.symbols entry (shapes ++ [exit]))
    (hFalls : ∀ known, ∃ known', (0, known') ∈ i.outcomes c.symbols known) :
    Fragment c entry exit (i :: code) (max entry.height peak) := by
  obtain ⟨shapes, hMiddle, hChecked, hPeaks⟩ := h.shapes
  exact ⟨(Code.Covers.single hFalls).append h.covers, entry :: shapes, rfl,
    .cons (fits shapes hChecked.length_eq hMiddle) hChecked, hPeaks.cons entry⟩

/-- An instruction that takes values and pushes a result of which nothing is known. -/
theorem operation {i : Instruction} {height : Nat} {named : Bool} (hSound : i.Sound c.symbols)
    (hAttr : i = .getAttr → named = true)
    (hOutcomes : ∀ known, i.outcomes c.symbols known = [(0, none :: known.drop i.needs)]) :
    Fragment c ⟨height + i.needs, named⟩ ⟨height + 1, false⟩ [i]
      (max (height + i.needs) (height + 1)) := by
  refine (nil _).cons (fun shapes _ hMiddle => ⟨hSound, Nat.le_add_left _ _, hAttr, ?_⟩)
    fun known => ⟨_, by rw [hOutcomes]; exact List.mem_singleton_self _⟩
  intro known hKnown outcome ho
  rw [hOutcomes, List.mem_singleton] at ho
  subst ho
  refine ⟨_, by rwa [List.head?_eq_getElem?] at hMiddle, ?_, by simp⟩
  simp [hKnown.height]

/-- The jump of a connective over the code of its right operand. -/
theorem connect (on : Bool) {height : Nat}
    (h : Fragment c ⟨height, false⟩ ⟨height + 1, false⟩ code peak) :
    Fragment c ⟨height + 1, false⟩ ⟨height + 1, false⟩
      ([Instruction.jumpIf on (code.length + 1), .pop] ++ code) (max (height + 1) peak) := by
  have hPop : Fragment c ⟨height + 1, false⟩ ⟨height + 1, false⟩ (.pop :: code)
      (max (height + 1) peak) := by
    refine h.cons (fun shapes _ hNext => ⟨trivial, Nat.le_add_left 1 _, by simp, ?_⟩)
      fun known => ⟨_, List.mem_singleton_self _⟩
    intro known hKnown outcome ho
    rw [Instruction.outcomes, List.mem_singleton] at ho
    subst ho
    refine ⟨_, by rwa [List.head?_eq_getElem?] at hNext, ?_, by simp⟩
    simp [hKnown.height]
  have hJump : Fragment c ⟨height + 1, false⟩ ⟨height + 1, false⟩
      (.jumpIf on (code.length + 1) :: .pop :: code)
      (max (height + 1) (max (height + 1) peak)) := by
    refine hPop.cons (fun shapes hLength hNext => ⟨trivial, Nat.le_add_left 1 _, by simp, ?_⟩)
      fun known => ⟨known, List.mem_cons_self⟩
    intro known hKnown outcome ho
    simp only [Instruction.outcomes, List.mem_cons, List.not_mem_nil, or_false] at ho
    rcases ho with rfl | rfl
    · exact ⟨_, by rwa [List.head?_eq_getElem?] at hNext, hKnown⟩
    · refine ⟨_, ?_, hKnown⟩
      rw [← List.length_cons, ← hLength]
      simp
  rwa [← Nat.max_assoc, Nat.max_self] at hJump

/-- The branches of a condition with the jumps over them. -/
theorem branch {height : Nat} (hYes : Fragment c ⟨height, false⟩ ⟨height + 1, false⟩ code peak)
    (hNo : Fragment c ⟨height, false⟩ ⟨height + 1, false⟩ code' peak') :
    Fragment c ⟨height + 1, false⟩ ⟨height + 1, false⟩
      ([Instruction.popJumpIf false (code.length + 1)] ++ code ++
        [Instruction.jump code'.length] ++ code')
      (max (height + 1) (max peak (max (height + 1) peak'))) := by
  obtain ⟨yes, hYesEntry, hYesChecked, hYesPeaks⟩ := hYes.shapes
  obtain ⟨no, hNoEntry, hNoChecked, hNoPeaks⟩ := hNo.shapes
  have hJump : Instruction.Fits c.symbols (.jump code'.length) ⟨height + 1, false⟩
      (no ++ [⟨height + 1, false⟩]) := by
    refine ⟨trivial, Nat.zero_le _, by simp, ?_⟩
    intro known hKnown outcome ho
    rw [Instruction.outcomes, List.mem_singleton] at ho
    subst ho
    exact ⟨_, by simp [← hNoChecked.length_eq], hKnown⟩
  have hTest : Instruction.Fits c.symbols (.popJumpIf false (code.length + 1)) ⟨height + 1, false⟩
      (yes ++ ⟨height + 1, false⟩ :: no ++ [⟨height + 1, false⟩]) := by
    refine ⟨trivial, Nat.le_add_left 1 _, by simp, ?_⟩
    intro known hKnown outcome ho
    have hTail : Shape.Describes ⟨height, false⟩ known.tail := ⟨by simp [hKnown.height], by simp⟩
    simp only [Instruction.outcomes, List.mem_cons, List.not_mem_nil, or_false] at ho
    rcases ho with rfl | rfl
    · refine ⟨_, ?_, hTail⟩
      rw [← hYesEntry]
      cases yes <;> rfl
    · refine ⟨_, ?_, hTail⟩
      rw [← hNoEntry, List.head?_eq_getElem?, ← hYesChecked.length_eq]
      simp
  refine ⟨?_, ⟨height + 1, false⟩ :: (yes ++ ⟨height + 1, false⟩ :: no), rfl, ?_, ?_⟩
  · exact hYes.covers.branch hNo.covers
  · simpa using Checked.cons hTest (hYesChecked.append (.cons hJump hNoChecked) rfl)
  · simpa using (hYesPeaks.append (hNoPeaks.cons ⟨height + 1, false⟩) rfl).cons ⟨height + 1, false⟩

end Fragment

end Formula
