import Formula.Proofs.Offsets
import Formula.Proofs.Token.Lexeme

/-! A source is cut from the left into the longest texts of tokens, and characters where none
stands. What `tokens` gives, or reports, is seen from these parts. -/

namespace Formula.Lexer

open Token Text

/-- A part of a source that is not white space: a token, which may be a whole number of any size,
or a character at an offset where no token starts. -/
inductive Part where
  | token (t : Token)
  | stray (c : Char) (offset : Nat)

namespace Part

/-- The fault for which a source is given up at a part of it. -/
def fault? : Part → Option Fault
  | token ⟨.int n, span⟩ => if n ≤ Numeral.maxInt then none else some (.tooLarge span)
  | token _ => none
  | stray c offset => if c = '\'' ∨ c = '"' then some (.unterminated offset) else none

def token? : Part → Option Token
  | token t => some t
  | stray _ _ => none

/-- The offset of a character that starts no token. -/
def stray? : Part → Option Nat
  | token _ => none
  | stray _ offset => some offset

/-- The offset of the first character. -/
def start : Part → Nat
  | token t => t.span.start
  | stray _ offset => offset

end Part

/-- The parts of a text whose first character is character `start` of the source: white space is
skipped, and each part is the longest text of a token, or a character where there is none. -/
inductive Cuts : Nat → List Char → List Part → Prop
  | done {start : Nat} : Cuts start [] []
  | blank {start : Nat} {c : Char} {rest : List Char} {parts : List Part}
      (blank : isBlank c) (later : Cuts (start + 1) rest parts) : Cuts start (c :: rest) parts
  | token {start : Nat} {c : Char} {body rest : List Char} {kind : Kind} {parts : List Part}
      (visible : isBlank c = false) (longest : IsLongest (c :: body) kind (c :: rest))
      (later : Cuts (start + 1 + body.length) (rest.drop body.length) parts) :
      Cuts start (c :: rest) (.token ⟨kind, ⟨start, start + 1 + body.length⟩⟩ :: parts)
  | stray {start : Nat} {c : Char} {rest : List Char} {parts : List Part}
      (visible : isBlank c = false) (startsNone : StartsNone (c :: rest))
      (later : Cuts (start + 1) rest parts) : Cuts start (c :: rest) (.stray c start :: parts)

variable {start : Nat} {c : Char} {cs rest : List Char} {parts others : List Part}

/-- Where the longest text of a token stands, there is one. -/
theorem IsLongest.not_startsNone {text : List Char} {kind : Kind} (h : IsLongest text kind cs) :
    ¬StartsNone cs := fun hNone => hNone text kind h.starts h.spells

theorem Cuts.unique (h : Cuts start cs parts) (h' : Cuts start cs others) : parts = others := by
  induction h generalizing others with
  | done =>
    cases h'
    rfl
  | blank hBlank _ ih =>
    cases h' with
    | blank _ hLater => exact ih hLater
    | token hVisible | stray hVisible =>
      rw [hBlank] at hVisible
      cases hVisible
  | token hVisible hLongest _ ih =>
    cases h' with
    | blank hBlank =>
      rw [hVisible] at hBlank
      cases hBlank
    | token _ hLongest' hLater =>
      obtain ⟨hText, rfl⟩ := hLongest.unique hLongest'
      cases hText
      rw [ih hLater]
    | stray _ hNone => exact absurd hNone hLongest.not_startsNone
  | stray hVisible hNone _ ih =>
    cases h' with
    | blank hBlank =>
      rw [hVisible] at hBlank
      cases hBlank
    | token _ hLongest => exact absurd hNone hLongest.not_startsNone
    | stray _ _ hLater => rw [ih hLater]

/-! ### The scan -/

/-- What `scan` gives for a text of these parts. -/
def verdict (parts : List Part) : Except Fault (List Token × List Nat) :=
  match parts.findSome? Part.fault? with
  | some fault => .error fault
  | none => .ok (parts.filterMap Part.token?, parts.filterMap Part.stray?)

theorem verdict_fault {part : Part} {fault : Fault} (h : part.fault? = some fault) :
    verdict (part :: parts) = .error fault := by
  rw [verdict, List.findSome?_cons, h]

theorem verdict_token {t : Token} (h : (Part.token t).fault? = none) :
    verdict (.token t :: parts) =
      (verdict parts).map fun (tokens, unknown) => (t :: tokens, unknown) := by
  rw [verdict, verdict, List.findSome?_cons, h]
  cases parts.findSome? Part.fault? <;> rfl

theorem verdict_stray {offset : Nat} (h : (Part.stray c offset).fault? = none) :
    verdict (.stray c offset :: parts) =
      (verdict parts).map fun (tokens, unknown) => (tokens, offset :: unknown) := by
  rw [verdict, verdict, List.findSome?_cons, h]
  cases parts.findSome? Part.fault? <;> rfl

theorem Part.fault?_ne_unknown (part : Part) (offsets : List Nat) :
    part.fault? ≠ some (.unknown offsets) := by
  unfold Part.fault?
  split
  · split <;> nofun
  · nofun
  · split <;> nofun

theorem fault?_token {kind : Kind} {span : Span}
    (h : ∀ n, kind = .int n → n ≤ Numeral.maxInt) : (Part.token ⟨kind, span⟩).fault? = none := by
  cases kind with
  | int n => exact if_pos (h n rfl)
  | _ => rfl

theorem fault?_tooLarge {n : Int} {span : Span} (h : Numeral.maxInt < n) :
    (Part.token ⟨.int n, span⟩).fault? = some (.tooLarge span) :=
  if_neg (not_le.mpr h)

theorem exists_cuts (start : Nat) (cs : List Char) :
    ∃ parts, Cuts start cs parts ∧ scan start cs = verdict parts := by
  -- The scan stops at a fault, but the cut goes on, so the induction is on the text.
  induction hLength : cs.length using Nat.strong_induction_on generalizing start cs with
  | _ n ih =>
  cases cs with
  | nil => exact ⟨[], .done, by rw [scan]; rfl⟩
  | cons c rest =>
    have hLater : ∀ start' m, ∃ parts, Cuts start' (rest.drop m) parts ∧
        scan start' (rest.drop m) = verdict parts := by
      intro start' m
      refine ih _ ?_ start' _ rfl
      rw [List.length_drop, ← hLength, List.length_cons]
      omega
    rw [scan]
    by_cases hBlank : isBlank c
    · obtain ⟨parts, hCuts, hScan⟩ := hLater (start + 1) 0
      rw [if_pos hBlank]
      exact ⟨parts, .blank hBlank hCuts, hScan⟩
    · rw [if_neg hBlank]
      rw [Bool.not_eq_true] at hBlank
      have hDescribes := describes_lexeme c rest
      cases hLexeme : lexeme c rest with
      | token kind more =>
        rw [hLexeme] at hDescribes
        obtain ⟨body, rfl, hLongest, hRange⟩ := hDescribes
        obtain ⟨parts, hCuts, hScan⟩ := hLater (start + 1 + body.length) body.length
        refine ⟨_, .token hBlank hLongest hCuts, ?_⟩
        rw [verdict_token (fault?_token hRange), ← hScan]
      | tooLarge more =>
        rw [hLexeme] at hDescribes
        obtain ⟨body, n, rfl, hLongest, hRange⟩ := hDescribes
        obtain ⟨parts, hCuts, -⟩ := hLater (start + 1 + body.length) body.length
        refine ⟨_, .token hBlank hLongest hCuts, ?_⟩
        rw [verdict_fault (fault?_tooLarge hRange)]
      | unterminated =>
        rw [hLexeme] at hDescribes
        obtain ⟨hQuote, hNone⟩ := hDescribes
        obtain ⟨parts, hCuts, -⟩ := hLater (start + 1) 0
        refine ⟨_, .stray hBlank hNone hCuts, ?_⟩
        rw [verdict_fault (show (Part.stray c start).fault? = _ from if_pos hQuote)]
      | unknown =>
        rw [hLexeme] at hDescribes
        obtain ⟨hQuote, hNone⟩ := hDescribes
        obtain ⟨parts, hCuts, hScan⟩ := hLater (start + 1) 0
        refine ⟨_, .stray hBlank hNone hCuts, ?_⟩
        rw [verdict_stray (show (Part.stray c start).fault? = _ from if_neg hQuote), ← hScan]
        rfl

/-! ### Where the parts stand -/

theorem Cuts.bounds (h : Cuts start cs parts) :
    ∀ part ∈ parts, start ≤ part.start ∧ part.start < start + cs.length := by
  induction h with
  | done => nofun
  | blank _ _ ih =>
    intro part hPart
    obtain ⟨hLow, hHigh⟩ := ih part hPart
    rw [List.length_cons]
    omega
  | token _ hLongest _ ih =>
    rw [List.length_cons]
    refine List.forall_mem_cons.mpr ⟨⟨Nat.le_refl _, Nat.lt_add_of_pos_right (by omega)⟩, ?_⟩
    intro part hPart
    obtain ⟨hLow, hHigh⟩ := ih part hPart
    have hLength := hLongest.starts.length_le
    simp only [List.length_cons, List.length_drop] at hLength hHigh
    omega
  | stray _ _ _ ih =>
    rw [List.length_cons]
    refine List.forall_mem_cons.mpr ⟨⟨Nat.le_refl _, Nat.lt_add_of_pos_right (by omega)⟩, ?_⟩
    intro part hPart
    obtain ⟨hLow, hHigh⟩ := ih part hPart
    omega

theorem Cuts.increasing (h : Cuts start cs parts) :
    parts.Pairwise (·.start < ·.start) := by
  induction h with
  | done => exact .nil
  | blank _ _ ih => exact ih
  | @token start _ _ _ _ _ _ _ hLater ih =>
    refine List.pairwise_cons.mpr ⟨fun part hPart => ?_, ih⟩
    have hLow := (hLater.bounds part hPart).1
    show start < part.start
    omega
  | stray _ _ hLater ih =>
    exact List.pairwise_cons.mpr ⟨fun part hPart => (hLater.bounds part hPart).1, ih⟩

theorem Cuts.span_le (h : Cuts start cs parts) :
    ∀ t, .token t ∈ parts → t.span.start ≤ t.span.stop := by
  induction h with
  | done => nofun
  | blank _ _ ih => exact ih
  | @token start _ body _ _ _ _ _ _ ih =>
    intro t hMem
    rcases List.mem_cons.mp hMem with hFirst | hLater
    · cases hFirst
      show start ≤ start + 1 + body.length
      omega
    · exact ih t hLater
  | stray _ _ _ ih =>
    intro t hMem
    rcases List.mem_cons.mp hMem with hFirst | hLater
    · cases hFirst
    · exact ih t hLater

/-- The offsets of stray characters increase. -/
theorem Cuts.strays_increasing (h : Cuts start cs parts) :
    (parts.filterMap Part.stray?).Pairwise (· < ·) := by
  refine h.increasing.filterMap _ ?_
  intro p q hLt offset hp offset' hq
  cases p with
  | token => cases hp
  | stray =>
    cases q with
    | token => cases hq
    | stray =>
      cases hp
      cases hq
      exact hLt

/-! ### Tokens and reports -/

/-- Parts without a stray character are tokens. -/
theorem eq_map_token (h : parts.filterMap Part.stray? = []) :
    parts = (parts.filterMap Part.token?).map .token := by
  induction parts with
  | nil => rfl
  | cons part parts ih =>
    cases part with
    | token t => exact congrArg (.token t :: ·) (ih h)
    | stray c offset => cases h

theorem strays_map_token (found : List Token) :
    (found.map Part.token).filterMap Part.stray? = [] := by
  induction found with
  | nil => rfl
  | cons t found ih => exact ih

theorem tokens_map_token (found : List Token) :
    (found.map Part.token).filterMap Part.token? = found := by
  induction found with
  | nil => rfl
  | cons t found ih => exact congrArg (t :: ·) ih

theorem findSome?_map_token {found : List Token} :
    (found.map Part.token).findSome? Part.fault? = none ↔
      ∀ t ∈ found, ∀ n, t.kind = .int n → n ≤ Numeral.maxInt := by
  rw [List.findSome?_eq_none_iff, List.forall_mem_map]
  refine forall₂_congr fun t _ => ⟨fun h n hInt => ?_, fault?_token⟩
  obtain ⟨kind, span⟩ := t
  cases hInt
  by_contra hRange
  rw [fault?_tooLarge (not_le.mp hRange)] at h
  cases h

section

variable {source : List Char}

theorem tokens_of_fault {fault : Fault} (h : Cuts 0 source parts)
    (hFault : parts.findSome? Part.fault? = some fault) : tokens source = .error fault := by
  obtain ⟨parts', h', hScan⟩ := exists_cuts 0 source
  obtain rfl := h.unique h'
  rw [tokens, hScan, verdict, hFault]

theorem tokens_of_strays (h : Cuts 0 source parts)
    (hFault : parts.findSome? Part.fault? = none) (hStray : parts.filterMap Part.stray? ≠ []) :
    tokens source = .error (.unknown (parts.filterMap Part.stray?)) := by
  obtain ⟨parts', h', hScan⟩ := exists_cuts 0 source
  obtain rfl := h.unique h'
  rw [tokens, hScan, verdict, hFault]
  cases hOffsets : parts.filterMap Part.stray? with
  | nil => exact absurd hOffsets hStray
  | cons => rfl

theorem tokens_of_tokens (h : Cuts 0 source parts)
    (hFault : parts.findSome? Part.fault? = none) (hStray : parts.filterMap Part.stray? = []) :
    tokens source = .ok (parts.filterMap Part.token?) := by
  obtain ⟨parts', h', hScan⟩ := exists_cuts 0 source
  obtain rfl := h.unique h'
  rw [tokens, hScan, verdict, hFault, hStray]

/-- What the parts of a source have to do with its tokens. -/
theorem tokens_eq_ok {found : List Token} (h : Cuts 0 source parts) :
    tokens source = .ok found ↔
      parts = found.map .token ∧ ∀ t ∈ found, ∀ n, t.kind = .int n → n ≤ Numeral.maxInt := by
  constructor
  · intro hTokens
    cases hFault : parts.findSome? Part.fault? with
    | some fault =>
      rw [tokens_of_fault h hFault] at hTokens
      cases hTokens
    | none =>
      by_cases hStray : parts.filterMap Part.stray? = []
      · rw [tokens_of_tokens h hFault hStray] at hTokens
        cases hTokens
        have hParts := eq_map_token hStray
        refine ⟨hParts, findSome?_map_token.mp ?_⟩
        rw [← hParts, hFault]
      · rw [tokens_of_strays h hFault hStray] at hTokens
        cases hTokens
  · rintro ⟨rfl, hRange⟩
    rw [tokens_of_tokens h (findSome?_map_token.mpr hRange) (strays_map_token found),
      tokens_map_token]

/-- The tokens of a source stand in order and within it. -/
theorem tokens_ordered {found : List Token} (h : tokens source = .ok found) :
    found.Pairwise (·.span.start < ·.span.start) ∧
      ∀ t ∈ found, t.span.start ≤ t.span.stop ∧ t.span.start < source.length := by
  obtain ⟨parts, hCuts, -⟩ := exists_cuts 0 source
  obtain ⟨rfl, -⟩ := (tokens_eq_ok hCuts).mp h
  have hOrder := hCuts.increasing
  rw [List.pairwise_map] at hOrder
  refine ⟨hOrder, fun t hMem => ?_⟩
  have hPart := List.mem_map_of_mem (f := Part.token) hMem
  have hBounds := (hCuts.bounds _ hPart).2
  rw [Nat.zero_add] at hBounds
  exact ⟨hCuts.span_le t hPart, hBounds⟩

theorem tokens_eq_error {fault : Fault} (h : Cuts 0 source parts) :
    tokens source = .error fault ↔
      parts.findSome? Part.fault? = some fault ∨
      parts.findSome? Part.fault? = none ∧ parts.filterMap Part.stray? ≠ [] ∧
        fault = .unknown (parts.filterMap Part.stray?) := by
  cases hFault : parts.findSome? Part.fault? with
  | some first =>
    rw [tokens_of_fault h hFault]
    simp
  | none =>
    by_cases hStray : parts.filterMap Part.stray? = []
    · rw [tokens_of_tokens h hFault hStray]
      simp [hStray]
    · rw [tokens_of_strays h hFault hStray]
      simp [hStray, eq_comm]

/-- A report of a fault points at the characters of the fault. -/
theorem offsets_toSyntaxError {fault : Fault} {source : String}
    (h : tokens source.toList = .error fault) :
    (fault.toSyntaxError source).offsets = fault.offsets := by
  refine SyntaxError.about_offsets ?_ fault.message source
  obtain ⟨parts, hCuts, -⟩ := exists_cuts 0 source.toList
  cases fault with
  | unterminated start => exact List.pairwise_singleton _ _
  | tooLarge span => exact span.offsets_increasing
  | unknown offsets =>
    rcases (tokens_eq_error hCuts).mp h with hFirst | ⟨-, -, hUnknown⟩
    · -- No single part is reported as unknown.
      obtain ⟨part, -, hPart⟩ := List.exists_of_findSome?_eq_some hFirst
      exact absurd hPart (part.fault?_ne_unknown offsets)
    · cases hUnknown
      exact hCuts.strays_increasing

end

/-- A source is cut in one way into the longest texts of tokens and characters where none stands.
It has tokens if it has no such character and its whole numbers have at most 64 bits, and they are
the parts. Otherwise it is reported where quoted text first does not end or a whole number is first
too large, whatever stands in front of that, and if there is no such place, at all the characters
where no token stands. -/
theorem tokens_longest_match (source : String) :
    ∃ parts, (∀ others, Cuts 0 source.toList others ↔ others = parts) ∧
      (∀ found, tokens source.toList = .ok found ↔
        parts = found.map .token ∧ ∀ t ∈ found, ∀ n, t.kind = .int n → n ≤ Numeral.maxInt) ∧
      (∀ fault, tokens source.toList = .error fault ↔
        parts.findSome? Part.fault? = some fault ∨
        parts.findSome? Part.fault? = none ∧ parts.filterMap Part.stray? ≠ [] ∧
          fault = .unknown (parts.filterMap Part.stray?)) ∧
      ∀ fault, tokens source.toList = .error fault →
        (fault.toSyntaxError source).offsets = fault.offsets := by
  obtain ⟨parts, hCuts, -⟩ := exists_cuts 0 source.toList
  refine ⟨parts, fun others => ⟨fun h => h.unique hCuts, ?_⟩, fun _ => tokens_eq_ok hCuts,
    fun _ => tokens_eq_error hCuts, fun _ => offsets_toSyntaxError⟩
  rintro rfl
  exact hCuts

end Formula.Lexer
