import Formula.Proofs.Expr.Reports
import Formula.Proofs.Expr.Spacing
import Formula.Proofs.Parser.Exactness
import Formula.Proofs.Parser.Height
import Formula.Proofs.Parser.Viable

/-! The limit on nesting bounds the height of a tree by a square, and no lower bound holds. A tower
of as many storeys as there are levels is that high: in each storey, chains of all rungs use up the
levels one after the other, and the next storey stands in parentheses in front of them. -/

namespace Formula

open Token Grammar

namespace Parser

variable {r : Rung} {n m : Nat} {ts : List Kind} {e : Expr} {s : Symbol}
  {join : Expr → Expr → Expr} {p : Phrase}

/-- A name is read without any levels. -/
theorem complete_name (hr : r ≠ .ternary) :
    Complete r n [.name "x"] (.reference "x") := by
  have hPrimary : Complete .primary n [.name "x"] (.reference "x") := complete_leaf rfl
  have hPostfixed : Complete .postfixed n [.name "x"] (.reference "x") :=
    (Complete.linked (.inr rfl) hPrimary).complete (.inr rfl)
  exact Rung.climb (P := fun r => Complete r n [.name "x"] (.reference "x")) hPrimary hPostfixed
    hPostfixed.powered.complete (fun h => h.unsigned (.inr rfl) (derives_name .power "x"))
    (fun h => h.unsigned (.inl rfl) (derives_name .comparison "x"))
    (fun r hr h => (h.linked (.inl hr)).complete (.inl hr)) r hr

/-! ### Storeys -/

namespace Tower

/-- A phrase with `k` links, of which each has a name on its right. -/
def links (s : Symbol) (join : Expr → Expr → Expr) (p : Phrase) : Nat → Phrase
  | 0 => p
  | k + 1 =>
    ((links s join p k).1 ++ [.symbol s, .name "x"], join (links s join p k).2 (.reference "x"))

/-- An accessor, whatever the name is taken for. -/
def accessed (e _ : Expr) : Expr := .access e "x"

def withSign (s : Symbol) (op : UnaryOp) (p : Phrase) : Phrase := (.symbol s :: p.1, .unary op p.2)

/-- A phrase in parentheses with `n` accessors and an exponent, and a sign in front of them. -/
def factor (n : Nat) (p : Phrase) : Phrase :=
  let base := links .dot accessed (.symbol .leftParen :: (p.1 ++ [.symbol .rightParen]), p.2) n
  withSign .minus .neg
    (base.1 ++ [.symbol .doubleStar, .name "x"], .binary .pow base.2 (.reference "x"))

/-- A phrase with `n` links of each rung, and a sign in front of those of arithmetic. -/
def linkedUp (n : Nat) (p : Phrase) : Phrase :=
  let sum := links .plus (.binary .add) (links .star (.binary .mul) p n) n
  let negated := withSign .not .not (links .less (.compare .lt) sum n)
  links .or (.connect .or) (links .and (.connect .and) negated n) n

/-- A storey with `n` levels inside, on top of a phrase. -/
def storey (n : Nat) (p : Phrase) : Phrase :=
  let test := linkedUp n (factor n p)
  (test.1 ++ [.symbol .question, .name "x", .symbol .colon, .name "x"],
    .ternary test.2 (.reference "x") (.reference "x"))

/-- The tower for a limit of `n + 1`. -/
def tower : Nat → Phrase
  | 0 => linkedUp 0 (withSign .minus .neg ([.name "x"], .reference "x"))
  | n + 1 => storey (n + 1) (tower n)

/-! ### Towers are read -/

theorem linked_links (operator : r.link? s = some join) (h : Complete r.next n p.1 p.2) (k : Nat)
    (hk : k ≤ n) : Linked r n k (links s join p k).1 (links s join p k).2 := by
  have hChain : r.IsChain := ⟨s, join, operator⟩
  have hNext : r.next ≠ .ternary := by cases r <;> nofun
  induction k with
  | zero => exact h.linked (.inl hChain)
  | succ k ih => exact (ih (Nat.le_of_succ_le hk)).link operator (m := 0) (complete_name hNext) hk

/-- With `n` levels left, `n` links are read. -/
theorem complete_links (operator : r.link? s = some join) (h : Complete r.next n p.1 p.2) :
    Complete r n (links s join p n).1 (links s join p n).2 :=
  (linked_links operator h n (Nat.le_refl n)).complete (.inl ⟨s, join, operator⟩)

theorem complete_accessors (h : Complete .primary n p.1 p.2) :
    Complete .postfixed n (links .dot accessed p n).1 (links .dot accessed p n).2 := by
  have hLinked : ∀ k ≤ n,
      Linked .postfixed n k (links .dot accessed p k).1 (links .dot accessed p k).2 := by
    intro k hk
    induction k with
    | zero => exact Complete.linked (.inr rfl) h
    | succ k ih =>
      exact (ih (Nat.le_of_succ_le hk)).suffix (m := 0) rfl hk fun _ _ _ _ _ _ _ =>
        ⟨accessor, rfl, rfl⟩
  exact (hLinked n (Nat.le_refl n)).complete (.inr rfl)

theorem complete_linkedUp (h : Complete .unary n p.1 p.2) :
    Complete .disjunction n (linkedUp n p).1 (linkedUp n p).2 := by
  have hProduct := complete_links (r := .multiplicative) (s := .star) rfl h
  have hSum := complete_links (r := .additive) (s := .plus) rfl hProduct
  have hComparison := complete_links (r := .comparison) (s := .less) rfl hSum
  have hNegation := Complete.sign (r := .negation) (s := .not) rfl hComparison
  have hConjunction := complete_links (r := .conjunction) (s := .and)
    (p := withSign .not .not _) rfl hNegation
  exact complete_links (r := .disjunction) rfl hConjunction

theorem complete_factor (h : Complete .ternary (n + 1) p.1 p.2) :
    Complete .unary (n + 1) (factor (n + 1) p).1 (factor (n + 1) p).2 := by
  have hBase := complete_accessors (p := (_, p.2)) h.group
  have hName : Complete .postfixed n [.name "x"] (.reference "x") := complete_name nofun
  have hPower := Powered.power hBase hName.powered (Nat.le_of_eq (Nat.add_comm 1 n))
  exact Complete.sign (r := .unary) rfl hPower.complete

theorem complete_storey (h : Complete .ternary (n + 1) p.1 p.2) :
    Complete .ternary (n + 2) (storey (n + 1) p).1 (storey (n + 1) p).2 := by
  have hName : Complete .disjunction n [.name "x"] (.reference "x") := complete_name nofun
  exact (complete_linkedUp (complete_factor h)).condition hName.ternary hName.ternary

theorem complete_tower (n : Nat) : Complete .ternary (n + 1) (tower n).1 (tower n).2 := by
  induction n with
  | zero =>
    have hName : Complete .power 0 [.name "x"] (.reference "x") := complete_name nofun
    have hSigned : Complete .unary 0 [.symbol .minus, .name "x"]
        (.unary .neg (.reference "x")) := Complete.sign (r := .unary) rfl hName
    exact (complete_linkedUp (p := (_, _)) hSigned).ternary
  | succ n ih => exact complete_storey ih

theorem parse_tower (n : Nat) : parse (n + 1) (tower n).1 = .ok (tower n).2 := by
  have hRun := complete_tower n (n + 1) (n + 1) [] 0 0 []
    ⟨Nat.le_of_eq (Nat.zero_add _), Nat.le_of_eq (Nat.zero_add _).symm⟩ (Rung.ends_nil _)
  rw [List.append_nil, reader] at hRun
  rw [parse, complete, Steps.bind_eq hRun]
  rfl

/-! ### Towers are as high as the limit allows -/

/-- A link puts the tree in front of it below its own root. -/
def Lifts (join : Expr → Expr → Expr) : Prop := ∀ left right, left ∈ (join left right).children

theorem lifts_accessed : Lifts accessed := fun _ _ => List.mem_cons_self

theorem lifts_binary (op : BinaryOp) : Lifts (.binary op) := fun _ _ => List.mem_cons_self

theorem lifts_compare (op : Comparison) : Lifts (.compare op) := fun _ _ => List.mem_cons_self

theorem lifts_connect (op : Connective) : Lifts (.connect op) := fun _ _ => List.mem_cons_self

theorem path_links (hJoin : Lifts join) (h : p.2.Path m) (k : Nat) :
    (links s join p k).2.Path (m + k) := by
  induction k with
  | zero => exact h
  | succ k ih => exact .step (hJoin _ _) ih

theorem path_withSign {op : UnaryOp} (h : p.2.Path m) : (withSign s op p).2.Path (m + 1) :=
  .step List.mem_cons_self h

theorem path_factor (n : Nat) (h : p.2.Path m) : (factor n p).2.Path (m + n + 2) := by
  let group : Phrase := (.symbol .leftParen :: (p.1 ++ [Kind.symbol .rightParen]), p.2)
  have hBase : (links .dot accessed group n).2.Path (m + n) :=
    path_links (p := group) lifts_accessed h n
  exact path_withSign (p := (_, _)) (.step List.mem_cons_self hBase)

theorem path_linkedUp (n : Nat) (h : p.2.Path m) :
    (linkedUp n p).2.Path (m + n + n + n + 1 + n + n) := by
  have hProduct : (links .star (.binary .mul) p n).2.Path (m + n) :=
    path_links (lifts_binary .mul) h n
  have hSum : (links .plus (.binary .add) _ n).2.Path (m + n + n) :=
    path_links (lifts_binary .add) hProduct n
  have hComparison : (links .less (.compare .lt) _ n).2.Path (m + n + n + n) :=
    path_links (lifts_compare .lt) hSum n
  have hNegated : (withSign .not .not _).2.Path (m + n + n + n + 1) := path_withSign hComparison
  exact path_links (lifts_connect .or) (path_links (lifts_connect .and) hNegated n) n

theorem path_tower (n : Nat) : (tower n).2.Path (tallest (n + 1)) := by
  induction n with
  | zero => exact path_linkedUp 0 (path_withSign (p := (_, _)) (.leaf rfl))
  | succ n ih =>
    have hTest := path_linkedUp (n + 1) (path_factor (n + 1) ih)
    have hStorey : (tower (n + 1)).2.Path _ := .step List.mem_cons_self hTest
    -- A storey adds what `tallest` grows by.
    have hHeight : tallest (n + 1) + (n + 1) + 2 + (n + 1) + (n + 1) + (n + 1) + 1 + (n + 1) +
        (n + 1) + 1 = tallest (n + 1 + 1) := by
      rw [tallest_succ (n + 1), tallest]
      omega
    rwa [hHeight] at hStorey

/-! ### Towers have sources -/

/-- Each token is a name or a symbol. -/
def Bare (ts : List Kind) : Prop := ∀ k ∈ ts, k = .name "x" ∨ k.isSymbol

theorem bare_name : Bare [.name "x"] := by simp [Bare]

theorem Bare.symbol (h : Bare ts) : Bare (.symbol s :: ts) :=
  List.forall_mem_cons.mpr ⟨.inr rfl, h⟩

theorem Bare.append {us : List Kind} (h : Bare ts) (hNext : Bare us) : Bare (ts ++ us) :=
  fun k hk => (List.mem_append.mp hk).elim (h k) (hNext k)

theorem bare_links (h : Bare p.1) (k : Nat) : Bare (links s join p k).1 := by
  induction k with
  | zero => exact h
  | succ k ih => exact ih.append bare_name.symbol

theorem bare_factor (h : Bare p.1) : Bare (factor n p).1 := by
  have hGroup : Bare (.symbol .leftParen :: (p.1 ++ [Kind.symbol .rightParen])) :=
    (h.append (Bare.symbol (by simp [Bare]))).symbol
  exact ((bare_links hGroup n).append bare_name.symbol).symbol

theorem bare_linkedUp (h : Bare p.1) : Bare (linkedUp n p).1 :=
  bare_links (bare_links (bare_links (bare_links (bare_links h n) n) n).symbol n) n

theorem bare_tower (n : Nat) : Bare (tower n).1 := by
  induction n with
  | zero => exact bare_linkedUp bare_name.symbol
  | succ n ih =>
    have hBranches : Bare [.symbol .question, .name "x", .symbol .colon, .name "x"] :=
      (bare_name.append bare_name.symbol).symbol
    exact (bare_linkedUp (bare_factor ih)).append hBranches

end Tower

/-- Tokens that read back have a source, where a space stands after each of them. -/
theorem exists_source {kinds : List Kind} (h : ∀ k ∈ kinds, k.Lexical ∧ k.isPlain) :
    ∃ source : String, ∃ found, Lexer.tokens source.toList = .ok found ∧
      found.map (·.kind) = kinds := by
  have hRead : Lexer.kinds? (kinds.flatMap fun k => k.written ++ [' ']) = some kinds := by
    induction kinds with
    | nil => exact Lexer.kinds?_nil
    | cons k kinds ih =>
      obtain ⟨⟨hLexical, hPlain⟩, hOthers⟩ := List.forall_mem_cons.mp h
      rw [List.flatMap_cons, List.append_assoc, Lexer.kinds?_written hLexical hPlain,
        List.singleton_append, Lexer.kinds?_blank (by decide), ih hOthers]
      · rfl
      · rintro _ ⟨⟩
        exact k.endsAt_space
  obtain ⟨found, hFound, hKinds⟩ := Lexer.kinds?_eq_some.mp hRead
  exact ⟨String.ofList (kinds.flatMap fun k => k.written ++ [' ']), found,
    by rwa [String.toList_ofList], hKinds⟩

end Parser

namespace Expr

open Formula.Parser Formula.Parser.Tower

/-- What the limit on nesting bounds is the number of nodes on a path from the root of a tree to a
leaf, by a square of the limit. The bound is attained within every limit but zero, within which
nothing is parsed. -/
theorem parse_bounds_paths (limit : Nat) :
    (∀ source e, parse limit source = .ok e → ∀ n, e.Path n → n ≤ 3 * limit ^ 2 + limit - 1) ∧
    (1 ≤ limit → ∃ source e, parse limit source = .ok e ∧ e.Path (3 * limit ^ 2 + limit - 1)) ∧
    ∀ source e, parse 0 source ≠ .ok e := by
  refine ⟨fun source e h => ?within, fun hLimit => ?attained, fun source e h => ?zero⟩
  case within =>
    obtain ⟨found, -, hParse⟩ := parse_eq_ok_iff.mp h
    exact within_of_parse hParse
  case attained =>
    obtain ⟨n, rfl⟩ : ∃ n, limit = n + 1 := ⟨limit - 1, by omega⟩
    have hPlain : ∀ k ∈ (tower n).1, k.Lexical ∧ k.isPlain := by
      intro k hk
      rcases bare_tower n k hk with rfl | hSymbol
      · exact ⟨⟨'x', [], rfl, by decide, by decide, nofun⟩, rfl⟩
      · obtain ⟨s, rfl⟩ := Kind.exists_symbol hSymbol
        exact ⟨trivial, rfl⟩
    obtain ⟨source, found, hFound, hKinds⟩ := exists_source hPlain
    refine ⟨source, (tower n).2, parse_eq_ok_iff.mpr ⟨found, hFound, ?_⟩, path_tower n⟩
    rw [hKinds, parse_tower]
  case zero =>
    obtain ⟨found, -, hParse⟩ := parse_eq_ok_iff.mp h
    cases hParse

end Expr

end Formula
