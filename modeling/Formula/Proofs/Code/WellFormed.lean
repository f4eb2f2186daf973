import Formula.Proofs.Code.Emission
import Formula.Proofs.Code.Flow

/-! The code of an expression is well formed, whatever stack it starts with. -/

namespace Formula

/-! ### Code of expressions -/

namespace Fragment

variable {c : Code} {entry exit : Shape} {code : List Instruction} {peak height : Nat}

theorem exit_le (h : Fragment c entry exit code peak) : exit.height ≤ peak := by
  obtain ⟨shapes, -, -, hPeaks⟩ := h.shapes
  exact hPeaks.2 ⟨exit, by simp, rfl⟩

/-- An operation after the code that leaves what it takes. -/
theorem operate {i : Instruction} {named : Bool}
    (h : Fragment c entry ⟨height + i.needs, named⟩ code peak) (hNeeds : 1 ≤ i.needs)
    (hSound : i.Sound c.symbols) (hAttr : i = .getAttr → named = true)
    (hOutcomes : ∀ known, i.outcomes c.symbols known = [(0, none :: known.drop i.needs)]) :
    Fragment c entry ⟨height + 1, false⟩ (code ++ [i]) peak := by
  have hAppend := h.append (operation hSound hAttr hOutcomes)
  have hLe : height + i.needs ≤ peak := h.exit_le
  have hPeak : max peak (max (height + i.needs) (height + 1)) = peak := by omega
  rwa [hPeak] at hAppend

/-- The load of a constant. A text stays known. -/
theorem constant {v : Value} (h : c.symbols.Knows [.constant v]) {named : Bool}
    (hNamed : named = true → ∃ name, v = .str name) :
    Fragment c ⟨height, false⟩ ⟨height + 1, named⟩ [(Operand.constant v).load c.symbols]
      (height + 1) := by
  obtain ⟨id, hid⟩ := h.number?
  have hLiteral := SymbolTable.literal?_eq hid
  have hLoad : Fragment c ⟨height, false⟩ ⟨height + 1, named⟩ [.loadConst id]
      (max height (height + 1)) := by
    refine (nil ⟨height + 1, named⟩).cons (i := .loadConst id)
      (fun shapes _ hNext => ⟨?_, Nat.zero_le _, by simp, ?_⟩)
      fun known => ⟨_, List.mem_singleton_self _⟩
    · exact (List.getElem?_eq_some_iff.mp hLiteral).1
    · intro known hKnown outcome ho
      rw [Instruction.outcomes, List.mem_singleton] at ho
      subst ho
      refine ⟨_, by rwa [List.head?_eq_getElem?] at hNext, by simp [hKnown.height], ?_⟩
      intro hn
      obtain ⟨name, rfl⟩ := hNamed hn
      exact ⟨name, by rw [hLiteral, List.head?_cons]⟩
  rw [Nat.max_eq_right (Nat.le_succ height)] at hLoad
  simpa only [Operand.load, hid, Option.getD_some] using hLoad

theorem name {s : String} (h : c.symbols.Knows [.name s]) :
    Fragment c ⟨height, false⟩ ⟨height + 1, false⟩ [(Operand.name s).load c.symbols]
      (height + 1) := by
  obtain ⟨id, hid⟩ := h.number?
  have hSound := (List.getElem?_eq_some_iff.mp (SymbolTable.reference?_eq hid)).1
  have hLoad : Fragment c ⟨height, false⟩ ⟨height + 1, false⟩ [.loadRef id]
      (max height (height + 1)) :=
    operation (i := .loadRef id) hSound (by simp) fun _ => rfl
  rw [Nat.max_eq_right (Nat.le_succ height)] at hLoad
  simpa only [Operand.load, hid, Option.getD_some] using hLoad

end Fragment

namespace Expr

variable {c : Code}

theorem args_fragment {args : List Expr}
    (ih : ∀ arg ∈ args, ∀ height, c.symbols.Knows arg.operands →
      Fragment c ⟨height, false⟩ ⟨height + 1, false⟩ (arg.codeIn c.symbols) (height + arg.peak))
    (h : c.symbols.Knows (argsOperands args)) (height : Nat) :
    Fragment c ⟨height, false⟩ ⟨height + args.length, false⟩ (argsCodeIn c.symbols args)
      (height + argsPeak args) := by
  induction args generalizing height with
  | nil => exact .nil _
  | cons e es ihArgs =>
    obtain ⟨hFirst, hOthers⟩ := List.forall_mem_cons.mp ih
    obtain ⟨he, hes⟩ := SymbolTable.knows_append.mp h
    have hArgs : Fragment c ⟨height + 1, false⟩ ⟨height + 1 + es.length, false⟩
      (argsCodeIn c.symbols es) (height + 1 + argsPeak es) :=
      ihArgs hOthers hes (height + 1)
    have hAppend := (hFirst height he).append hArgs
    rwa [Nat.add_assoc, Nat.add_assoc, Nat.add_comm 1 es.length, Nat.add_max_add_left] at hAppend

theorem bound_fragment {bound? : Option Expr}
    (ih : ∀ bound ∈ bound?, ∀ height, c.symbols.Knows bound.operands →
      Fragment c ⟨height, false⟩ ⟨height + 1, false⟩ (bound.codeIn c.symbols) (height + bound.peak))
    (h : c.symbols.Knows (boundOperands bound?)) (height : Nat) :
    Fragment c ⟨height, false⟩ ⟨height + 1, false⟩ (boundCodeIn c.symbols bound?)
      (height + boundPeak bound?) := by
  cases bound? with
  | none => exact .constant h (by simp)
  | some e => exact ih e rfl height h

/-- The code of an expression takes a stack of any height to one that is higher by one. -/
theorem fragment {e : Expr} (height : Nat) (h : c.symbols.Knows e.operands) :
    Fragment c ⟨height, false⟩ ⟨height + 1, false⟩ (e.codeIn c.symbols) (height + e.peak) := by
  induction e generalizing height with
  | literal l => exact .constant h (by simp)
  | reference name => exact .name h
  | unary op e ih => exact (ih height h).operate (Nat.le_refl 1) trivial (by simp) fun _ => rfl
  | binary op l r ihl ihr =>
    obtain ⟨hl, hr⟩ := SymbolTable.knows_append.mp h
    have hAppend := (ihl height hl).append
      ((ihr (height + 1) hr).operate (i := .binary op) (Nat.le_add_left 1 1) trivial (by simp)
        fun _ => rfl)
    rwa [Nat.add_assoc, Nat.add_max_add_left] at hAppend
  | compare op l r ihl ihr =>
    obtain ⟨hl, hr⟩ := SymbolTable.knows_append.mp h
    have hAppend := (ihl height hl).append
      ((ihr (height + 1) hr).operate (i := .compare op) (Nat.le_add_left 1 1) trivial (by simp)
        fun _ => rfl)
    rwa [Nat.add_assoc, Nat.add_max_add_left] at hAppend
  | connect op l r ihl ihr =>
    obtain ⟨hl, hr⟩ := SymbolTable.knows_append.mp h
    have hLe : height + 1 ≤ height + l.peak := (ihl height hl).exit_le
    have hAppend := (ihl height hl).append ((ihr height hr).connect (Compiler.decisive op))
    rwa [← Nat.max_assoc, Nat.max_eq_left hLe, Nat.add_max_add_left] at hAppend
  | ternary e y n ihe ihy ihn =>
    simp only [operands, SymbolTable.knows_append] at h
    have hLe : height + 1 ≤ height + e.peak := (ihe height h.1).exit_le
    have hLeNo : height + 1 ≤ height + n.peak := (ihn height h.2.2).exit_le
    have hAppend := (ihe height h.1).append ((ihy height h.2.1).branch (ihn height h.2.2))
    rwa [← Nat.max_assoc, Nat.max_eq_left hLe, Nat.max_eq_right hLeNo, Nat.add_max_add_left,
      Nat.add_max_add_left] at hAppend
  | access e attr ih =>
    obtain ⟨he, hattr⟩ := SymbolTable.knows_append.mp h
    have hName : Fragment c ⟨height + 1, false⟩ ⟨height + 2, true⟩
        [(Operand.constant (.str attr)).load c.symbols] (height + 2) :=
      .constant hattr fun _ => ⟨attr, rfl⟩
    have hAppend := (ih height he).append
      (hName.operate (i := .getAttr) (Nat.le_add_left 1 1) trivial (fun _ => rfl) fun _ => rfl)
    rwa [Nat.add_max_add_left] at hAppend
  | call f args ihf ihargs =>
    obtain ⟨hf, hargs⟩ := SymbolTable.knows_append.mp h
    have hArgs : Fragment c ⟨height + 1, false⟩
        ⟨height + (Instruction.call args.length).needs, false⟩ (argsCodeIn c.symbols args)
        (height + 1 + argsPeak args) := by
      rw [Instruction.needs, Nat.add_comm args.length, ← Nat.add_assoc]
      exact args_fragment ihargs hargs (height + 1)
    have hAppend := (ihf height hf).append
      (hArgs.operate (Nat.le_add_left 1 _) trivial (by simp) fun _ => rfl)
    rwa [Nat.add_assoc, Nat.add_max_add_left] at hAppend
  | item e key ihe ihkey =>
    obtain ⟨he, hkey⟩ := SymbolTable.knows_append.mp h
    have hAppend := (ihe height he).append
      ((ihkey (height + 1) hkey).operate (i := .getItem 1) (Nat.le_add_left 1 1) (.inl rfl)
        (by simp) fun _ => rfl)
    rwa [Nat.add_assoc, Nat.add_max_add_left] at hAppend
  | slice e start stop step ihe iha ihb ihc =>
    simp only [operands, SymbolTable.knows_append] at h
    obtain ⟨he, ha, hb, hc⟩ := h
    have hStep := (bound_fragment ihc hc (height + 3)).operate (i := .getItem 3)
      (Nat.le_add_left 1 3) (.inr rfl) (by simp) fun _ => rfl
    have hAppend := (ihe height he).append ((bound_fragment iha ha (height + 1)).append
      ((bound_fragment ihb hb (height + 2)).append hStep))
    have hPeak : max (height + e.peak) (max (height + 1 + boundPeak start)
        (max (height + 2 + boundPeak stop) (height + 3 + boundPeak step))) =
        height + (slice e start stop step).peak := by
      simp only [peak]
      omega
    rwa [hPeak] at hAppend

end Expr

theorem Fragment.enters {c : Code} {entry exit : Shape} {peak : Nat}
    (h : Fragment c entry exit c.instructions peak) {index : Nat}
    (hIndex : index ≤ c.instructions.length) : c.Enters index := by
  have hEmpty : c.Enters 0 := ⟨[], .start⟩
  have hEnter := h.covers [] [] (by simp) hEmpty index hIndex
  rwa [List.length_nil, Nat.zero_add] at hEnter

/-- A fragment that is all the code, from the empty stack to one value, makes it well formed. -/
theorem Code.wellFormed {c : Code}
    (h : Fragment c ⟨0, false⟩ ⟨1, false⟩ c.instructions c.maxStack) : c.WellFormed := by
  obtain ⟨shapes, hEntry, hChecked, hPeaks⟩ := h.shapes
  have hLength := hChecked.length_eq
  exact {
    height := by
      intro index hIndex
      obtain ⟨known, hReach⟩ := h.enters (Nat.le_of_lt hIndex)
      obtain ⟨s, hs, hDescribes⟩ := hChecked.describes hEntry hReach
      refine ⟨s.height, ⟨known, hReach, hDescribes.height⟩, ?_⟩
      rintro _ ⟨known', hReach', rfl⟩
      obtain ⟨s', hs', hDescribes'⟩ := hChecked.describes hEntry hReach'
      rw [hs] at hs'
      cases hs'
      exact hDescribes'.height
    enough := by
      intro index known i hReach hi
      obtain ⟨s, hDescribes, fits⟩ := hChecked.here hEntry hReach hi
      rw [hDescribes.height]
      exact fits.enough
    literal := fun id hi => hChecked.sound _ hi
    reference := fun id hi => hChecked.sound _ hi
    item := fun count hi => hChecked.sound _ hi
    attr := by
      intro index known hReach hi
      obtain ⟨s, hDescribes, fits⟩ := hChecked.here hEntry hReach hi
      exact hDescribes.named (fits.attr rfl)
    jump := by
      intro index i offset hi hOffset
      have hIndex := (List.getElem?_eq_some_iff.mp hi).1
      obtain ⟨known, hReach⟩ := h.enters (Nat.le_of_lt hIndex)
      obtain ⟨s, hDescribes, fits⟩ := hChecked.here hEntry hReach hi
      obtain ⟨known', outcome⟩ := i.outcome_offset c.symbols hOffset known
      obtain ⟨s', hs', -⟩ := fits.leads known hDescribes _ outcome
      have hTarget := (List.getElem?_eq_some_iff.mp hs').1
      simp only [List.length_drop, List.length_append, List.length_singleton] at hTarget
      omega
    ending := by
      refine ⟨h.enters (Nat.le_refl _), fun known hReach => ?_⟩
      obtain ⟨s, hs, hDescribes⟩ := hChecked.describes hEntry hReach
      rw [← hLength, List.getElem?_concat_length] at hs
      cases hs
      exact hDescribes.height
    greatest := by
      constructor
      · obtain ⟨s, hs, hHeight⟩ := hPeaks.1
        obtain ⟨index, hIndex⟩ := List.getElem?_of_mem hs
        have hlt := (List.getElem?_eq_some_iff.mp hIndex).1
        simp only [List.length_append, List.length_singleton, hLength] at hlt
        obtain ⟨known, hReach⟩ := h.enters (Nat.le_of_lt_succ hlt)
        obtain ⟨s', hs', hDescribes⟩ := hChecked.describes hEntry hReach
        rw [hIndex] at hs'
        cases hs'
        exact ⟨index, known, hReach, by rw [hDescribes.height, hHeight]⟩
      · rintro _ ⟨index, known, hReach, rfl⟩
        obtain ⟨s, hs, hDescribes⟩ := hChecked.describes hEntry hReach
        rw [hDescribes.height]
        exact hPeaks.2 ⟨s, List.mem_of_getElem? hs, rfl⟩
  }

namespace Code.WellFormed

variable {c : Code}

theorem sound (h : c.WellFormed) {index : Nat} {i : Instruction}
    (hi : c.instructions[index]? = some i) : i.Sound c.symbols := by
  have hMem := List.mem_of_getElem? hi
  cases i with
  | loadConst id => exact h.literal id hMem
  | loadRef id => exact h.reference id hMem
  | getItem count => exact h.item count hMem
  | _ => trivial

theorem reaches_le (h : c.WellFormed) {index : Nat} {known : List (Option Value)}
    (hReach : c.Reaches index known) : index ≤ c.instructions.length := by
  cases hReach with
  | start => exact Nat.zero_le _
  | @step index skip known known' i here hi outcome =>
    rcases i.skip_of_outcome outcome with rfl | hOffset
    · exact (List.getElem?_eq_some_iff.mp hi).1
    · exact h.jump index i skip hi hOffset

end Code.WellFormed

end Formula
