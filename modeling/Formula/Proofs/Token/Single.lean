import Formula.Proofs.Text.Trim
import Formula.Proofs.Token.Layout

/-! Sources of one token. White space around it does not count, and if the token is a name, what is
left is the name. -/

namespace Formula

namespace Text

/-- No white space is part of a name. -/
theorem isBlank_of_isName {cs : List Char} (h : isName cs) : ∀ c ∈ cs, isBlank c = false := by
  cases cs with
  | nil => cases h
  | cons first cs =>
    obtain ⟨hStarts, hContinues⟩ := Bool.and_eq_true_iff.mp h
    have hAll : ∀ c ∈ first :: cs, continuesName c := by
      refine List.forall_mem_cons.mpr ⟨?_, List.all_eq_true.mp hContinues⟩
      rw [startsName, Bool.or_eq_true] at hStarts
      rw [continuesName, Bool.or_eq_true, Bool.or_eq_true]
      exact hStarts.imp_left .inl
    intro c hMem
    by_contra hBlank
    have hEnds := (isBlank_facts (eq_true_of_ne_false hBlank)).1
    rw [hAll c hMem] at hEnds
    cases hEnds

end Text

namespace Lexer

open Token Text

variable {cs text : List Char} {kind : Kind} {start : Nat} {t : Token} {parts : List Part}

theorem Cuts.isBlank (h : Cuts start cs []) : ∀ c ∈ cs, isBlank c := by
  generalize hParts : [] = parts at h
  induction h with
  | done => nofun
  | blank hBlank _ ih => exact List.forall_mem_cons.mpr ⟨hBlank, ih hParts⟩
  | token | stray => cases hParts

/-- A text whose first character is character `start` of the source is a text of the token `t`, at
its place, with nothing but white space around it. -/
def Alone (start : Nat) (cs : List Char) (t : Token) : Prop :=
  ∃ before text after, (∀ c ∈ before, Text.isBlank c) ∧ (∀ c ∈ after, Text.isBlank c) ∧
    cs = before ++ (text ++ after) ∧ Spells text t.kind ∧
    t.span = ⟨start + before.length, start + before.length + text.length⟩

theorem Cuts.alone (h : Cuts start cs [.token t]) : Alone start cs t := by
  generalize hParts : [Part.token t] = parts at h
  induction h with
  | done => cases hParts
  | @blank start c rest parts hBlank _ ih =>
    obtain ⟨before, text, after, hBefore, hAfter, rfl, hSpells, hSpan⟩ := ih hParts
    refine ⟨c :: before, text, after, List.forall_mem_cons.mpr ⟨hBlank, hBefore⟩, hAfter, rfl,
      hSpells, ?_⟩
    rw [hSpan, List.length_cons, show start + 1 + before.length = start + (before.length + 1) by
      omega]
  | @token start c body rest kind parts _ hLongest hLater =>
    cases hParts
    obtain ⟨after, rfl⟩ := (List.cons_prefix_cons.mp hLongest.starts).2
    rw [List.drop_left] at hLater
    refine ⟨[], c :: body, after, nofun, hLater.isBlank, rfl, hLongest.spells, ?_⟩
    rw [List.length_nil, List.length_cons, show start + 1 + body.length =
      start + 0 + (body.length + 1) by omega]
    rfl
  | stray => cases hParts

/-- A source is one token if it is a text of that token with white space around it. -/
theorem tokens_eq_single : tokens cs = .ok [t] ↔
    Alone 0 cs t ∧ ∀ n, t.kind = .int n → n ≤ Numeral.maxInt := by
  constructor
  · intro h
    obtain ⟨parts, hCuts, -⟩ := exists_cuts 0 cs
    obtain ⟨rfl, hRange⟩ := (tokens_eq_ok hCuts).mp h
    exact ⟨hCuts.alone, hRange t List.mem_cons_self⟩
  · rintro ⟨⟨before, text, after, hBefore, hAfter, rfl, hSpells, hSpan⟩, hRange⟩
    have hEnd : ∀ d ∈ after.head?, t.kind.endsAt d := fun d hd =>
      endsAt_of_isBlank _ (hAfter d (List.mem_of_mem_head? hd))
    have hRest : ∀ start, scan start after = .ok ([], []) := by
      intro start
      rw [← List.append_nil after, scan_blank hAfter, scan]
    rw [tokens, scan_blank hBefore, scan_token hSpells hRange hEnd, hRest, ← hSpan]
    rfl

/-- The texts of names. -/
theorem spells_name_iff {s : String} : Spells cs (.name s) ↔ isName cs ∧ String.ofList cs = s := by
  cases cs with
  | nil => exact iff_of_false not_spells_nil (fun h => nomatch h.1)
  | cons c cs =>
    rw [isName, Bool.and_eq_true, List.all_eq_true]
    constructor
    · intro h
      rcases h.forms with ⟨hStarts, hContinues, hName⟩ | ⟨-, -, _, -, hText⟩ |
        ⟨-, -, -, hCounts⟩ | ⟨-, -, -, _, -, hSymbol⟩
      · cases hName
        exact ⟨⟨hStarts, hContinues⟩, rfl⟩
      · cases hText
      · cases hCounts
      · cases hSymbol
    · rintro ⟨⟨hStarts, hContinues⟩, rfl⟩
      exact .name hStarts hContinues

/-- A source is a name and no more than that, if it is one without the white space around it. -/
theorem exists_tokens_name {s : String} : (∃ t, tokens cs = .ok [t] ∧ t.kind = .name s) ↔
    isName (trim Text.isBlank cs) ∧ String.ofList (trim Text.isBlank cs) = s := by
  rw [← spells_name_iff]
  constructor
  · rintro ⟨t, hTokens, hKind⟩
    obtain ⟨⟨before, text, after, hBefore, hAfter, hText, hSpells, -⟩, -⟩ :=
      tokens_eq_single.mp hTokens
    rw [hKind] at hSpells
    rwa [trim_of_pads ⟨before, after, hBefore, hAfter, hText⟩
      (isBlank_of_isName (spells_name_iff.mp hSpells).1)]
  · intro hSpells
    obtain ⟨before, after, hBefore, hAfter, hText⟩ := pads_trim Text.isBlank cs
    exact ⟨⟨.name s, _⟩, tokens_eq_single.mpr
      ⟨⟨before, _, after, hBefore, hAfter, hText, hSpells, rfl⟩, nofun⟩, rfl⟩

/-- The span of a name covers its characters. -/
theorem text_of_tokens_name {s : String} (h : tokens cs = .ok [t]) (hKind : t.kind = .name s) :
    t.span.text cs = s.toList := by
  obtain ⟨⟨before, text, after, -, -, rfl, hSpells, hSpan⟩, -⟩ := tokens_eq_single.mp h
  rw [hKind] at hSpells
  rw [hSpan, Nat.zero_add, Span.text_append, ← (spells_name_iff.mp hSpells).2, String.toList_ofList]

end Lexer

end Formula
