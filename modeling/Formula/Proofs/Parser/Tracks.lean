import Formula.Proofs.Parser.Steps

/-! Two runs of the parser on tokens that begin alike, where the second one has the higher limit.
As long as the first run looks at no token past the common ones, the second run does the same, until
the first one is too deep. So a fault depends on the tokens up to its position alone, and a higher
limit changes nothing but where the parser is too deep. -/

namespace Formula.Parser

open Token

variable {α β : Type}

/-- The number of tokens consumed before a fault. -/
def Fault.position : Fault → Nat
  | unexpected n | expected _ n | tooDeep n => n

def Fault.isTooDeep : Fault → Bool
  | tooDeep _ => true
  | unexpected _ | expected _ _ => false

/-- A step consumes tokens from the front, and fails at one of those that are left or at the end. -/
structure Forward (p : Parse α) : Prop where
  ok : ∀ {s a s'}, p s = .ok (a, s') →
    ∃ ts, s.rest = ts ++ s'.rest ∧ s'.position = s.position + ts.length
  error : ∀ {s fault}, p s = .error fault →
    s.position ≤ fault.position ∧ fault.position ≤ s.position + s.rest.length

/-- A run has consumed `n` tokens when it ends. -/
def NotBefore (n : Nat) : Except Fault (α × State) → Prop
  | .ok (_, s) => n ≤ s.position
  | .error fault => n ≤ fault.position

/-- What the outcome of the first run says about that of the second one. The tokens agree before
position `seen`, and are `rest` and `rest'` from there on. -/
structure Agree (seen : Nat) (rest rest' : List Kind) (first second : Except Fault (α × State)) :
    Prop where
  ok : ∀ {a s vs}, first = .ok (a, s) → s.rest = vs ++ rest →
    second = .ok (a, { s with rest := vs ++ rest' })
  error : ∀ {fault}, first = .error fault → fault.isTooDeep = false → fault.position ≤ seen →
    second = .error fault
  tooDeep : ∀ {n}, first = .error (.tooDeep n) → n ≤ seen → NotBefore n second

/-- The second step does what the first one does, on tokens that begin alike and of which the next
one is the same. -/
structure Tracks (p q : Parse α) : Prop where
  left : Forward p
  right : Forward q
  agree : ∀ ts {rest rest' : List Kind} position depth pending, rest.head? = rest'.head? →
    Agree (position + ts.length) rest rest' (p ⟨ts ++ rest, position, depth, pending⟩)
      (q ⟨ts ++ rest', position, depth, pending⟩)

/-! ### Small steps -/

theorem Forward.notBefore {p : Parse α} (h : Forward p) (s : State) :
    NotBefore s.position (p s) := by
  cases hRun : p s with
  | error fault => exact (h.error hRun).1
  | ok out =>
    obtain ⟨ts, -, hPosition⟩ := h.ok hRun
    show s.position ≤ out.2.position
    rw [hPosition]
    exact Nat.le_add_right _ _

section

variable {seen : Nat} {rest rest' : List Kind} {second : Except Fault (α × State)}

theorem agree_ok {a : α} {s : State}
    (h : ∀ vs, s.rest = vs ++ rest → second = .ok (a, { s with rest := vs ++ rest' })) :
    Agree seen rest rest' (.ok (a, s)) second where
  ok := by
    rintro _ _ vs ⟨⟩ hRest
    exact h vs hRest
  error := by rintro _ ⟨⟩
  tooDeep := by rintro _ ⟨⟩

theorem agree_tooDeep {n : Nat} (h : NotBefore n second) :
    Agree seen rest rest' (.error (.tooDeep n)) second where
  ok := by rintro _ _ _ ⟨⟩
  error := by rintro _ ⟨⟩ ⟨⟩
  tooDeep := by
    rintro _ ⟨⟩ -
    exact h

end

/-- A step that looks at the next token at most, and consumes none. -/
theorem tracks_look (f : Option Kind → α) (g : Nat → Nat)
    (k : List Expectation → List Expectation) :
    Tracks (fun s => .ok (f s.rest.head?, { s with depth := g s.depth, pending := k s.pending }))
      fun s => .ok (f s.rest.head?, { s with depth := g s.depth, pending := k s.pending }) := by
  have hForward : Forward fun s : State =>
      .ok (f s.rest.head?, { s with depth := g s.depth, pending := k s.pending }) :=
    ⟨fun h => by cases h; exact ⟨[], rfl, rfl⟩, by rintro _ _ ⟨⟩⟩
  refine ⟨hForward, hForward, fun ts rest rest' position depth pending hHead => agree_ok ?_⟩
  have hNext : (ts ++ rest).head? = (ts ++ rest').head? := by
    cases ts with
    | nil => exact hHead
    | cons t ts => rfl
  intro vs hRest
  obtain rfl : ts = vs := List.append_cancel_right hRest
  show Except.ok (f (ts ++ rest').head?, _) = .ok (f (ts ++ rest).head?, _)
  rw [hNext]

theorem tracks_pure (a : α) : Tracks (pure a) (pure a) :=
  tracks_look (fun _ => a) (·) (·)

theorem tracks_peek : Tracks peek peek :=
  tracks_look (·) (·) (·)

theorem tracks_expect (what : Expectation) : Tracks (expect what) (expect what) :=
  tracks_look (fun _ => ()) (·) (what :: ·)

theorem tracks_fulfil : Tracks fulfil fulfil :=
  tracks_look (fun _ => ()) (·) List.tail

theorem tracks_leave (links : Nat) : Tracks (leave links) (leave links) :=
  tracks_look (fun _ => ()) (· - links) (·)

theorem tracks_advance : Tracks advance advance := by
  have hForward : Forward advance := by
    refine ⟨fun {s a s'} h => ?_, fun {s fault} h => ?_⟩ <;>
      obtain ⟨rest, position, depth, pending⟩ := s
    · cases rest with
      | nil => cases h; exact ⟨[], rfl, rfl⟩
      | cons k rest => cases h; exact ⟨[k], rfl, rfl⟩
    · cases rest <;> cases h
  refine ⟨hForward, hForward, fun ts rest rest' position depth pending hHead => ?_⟩
  cases ts with
  | cons t ts =>
    refine agree_ok fun vs hRest => ?_
    rw [← List.append_cancel_right hRest]
    rfl
  | nil =>
    cases rest with
    | nil =>
      obtain rfl : rest' = [] := List.head?_eq_none_iff.mp hHead.symm
      refine agree_ok fun vs hRest => ?_
      rw [← hRest]
      rfl
    | cons k rest =>
      -- The first run is past the common tokens.
      refine agree_ok fun vs hRest => ?_
      have hLength := congrArg List.length hRest
      simp at hLength
      omega

theorem forward_fail : Forward (fail : Parse α) := by
  refine ⟨fun {s a s'} h => absurd h fail_ok, fun {s fault} h => ?_⟩
  obtain ⟨rest, position, depth, pending⟩ := s
  cases pending <;> cases h <;> exact ⟨Nat.le_refl _, Nat.le_add_right _ _⟩

theorem tracks_fail : Tracks (fail : Parse α) fail := by
  refine ⟨forward_fail, forward_fail, fun ts rest rest' position depth pending _ =>
    ⟨fun h => absurd h fail_ok, fun h _ _ => ?_, fun h => ?_⟩⟩ <;> cases pending <;> cases h
  · rfl
  · rfl

theorem tracks_enter {limit limit' : Nat} (h : limit ≤ limit') :
    Tracks (enter limit) (enter limit') := by
  have hForward : ∀ limit, Forward (enter limit) := by
    refine fun limit => ⟨fun {s a s'} h => ?_, fun {s fault} h => ?_⟩ <;>
      by_cases hDepth : s.depth + 1 ≤ limit
    · cases (if_pos hDepth).symm.trans h
      exact ⟨[], rfl, rfl⟩
    · cases (if_neg hDepth).symm.trans h
    · cases (if_pos hDepth).symm.trans h
    · cases (if_neg hDepth).symm.trans h
      exact ⟨Nat.le_refl _, Nat.le_add_right _ _⟩
  refine ⟨hForward limit, hForward limit', fun ts rest rest' position depth pending _ => ?_⟩
  by_cases hDepth : depth + 1 ≤ limit
  · have hFirst : (enter limit : Parse Unit) ⟨ts ++ rest, position, depth, pending⟩ =
        .ok ((), ⟨ts ++ rest, position, depth + 1, pending⟩) := if_pos hDepth
    rw [hFirst]
    refine agree_ok fun vs hRest => ?_
    rw [← List.append_cancel_right hRest]
    exact if_pos (Nat.le_trans hDepth h)
  · have hFault : (enter limit : Parse Unit) ⟨ts ++ rest, position, depth, pending⟩ =
        .error (.tooDeep position) := if_neg hDepth
    rw [hFault]
    exact agree_tooDeep ((hForward limit').notBefore _)

theorem forward_tooDeep : Forward (tooDeep : Parse α) := by
  refine ⟨fun {s a s'} h => absurd h tooDeep_ok, ?_⟩
  rintro s _ ⟨⟩
  exact ⟨Nat.le_refl _, Nat.le_add_right _ _⟩

/-- Where the first run is too deep at once, the second one need only go forward. -/
theorem tracks_tooDeep {q : Parse α} (h : Forward q) : Tracks tooDeep q :=
  ⟨forward_tooDeep, h, fun _ _ _ _ _ _ _ => agree_tooDeep (h.notBefore _)⟩

/-! ### Steps after each other -/

theorem Forward.bind {p : Parse α} {f : α → Parse β} (hp : Forward p) (hf : ∀ a, Forward (f a)) :
    Forward (p >>= f) where
  ok := by
    intro s b s'' h
    obtain ⟨a, s', hFirst, hSecond⟩ := Steps.bind_ok.mp h
    obtain ⟨ts, hRest, hPosition⟩ := hp.ok hFirst
    obtain ⟨us, hRest', hPosition'⟩ := (hf a).ok hSecond
    exact ⟨ts ++ us, by rw [hRest, hRest', List.append_assoc], by
      rw [hPosition', hPosition, List.length_append, Nat.add_assoc]⟩
  error := by
    intro s fault h
    rcases Steps.bind_error.mp h with hFirst | ⟨a, s', hFirst, hSecond⟩
    · exact hp.error hFirst
    · obtain ⟨ts, hRest, hPosition⟩ := hp.ok hFirst
      have hBounds := (hf a).error hSecond
      rw [hRest, List.length_append]
      omega

theorem NotBefore.bind {n : Nat} {p : Parse α} {f : α → Parse β} {s : State}
    (h : NotBefore n (p s)) (hf : ∀ a, Forward (f a)) : NotBefore n ((p >>= f) s) := by
  show NotBefore n (p s >>= fun out => f out.1 out.2)
  cases hRun : p s with
  | error fault =>
    rw [hRun] at h
    exact h
  | ok out =>
    rw [hRun] at h
    have hAfter := (hf out.1).notBefore out.2
    show NotBefore n (f out.1 out.2)
    have hStart : n ≤ out.2.position := h
    cases hNext : f out.1 out.2 <;> rw [hNext] at hAfter <;> exact Nat.le_trans hStart hAfter

theorem Tracks.bind {p q : Parse α} {f g : α → Parse β} (h : Tracks p q)
    (hNext : ∀ a, Tracks (f a) (g a)) : Tracks (p >>= f) (q >>= g) := by
  refine ⟨h.left.bind fun a => (hNext a).left, h.right.bind fun a => (hNext a).right,
    fun ts rest rest' position depth pending hHead => ?_⟩
  have hFirst := h.agree ts position depth pending hHead
  -- A first part that ends before the common tokens do leaves the second part some of them.
  have hRest : ∀ {a s'}, p ⟨ts ++ rest, position, depth, pending⟩ = .ok (a, s') →
      s'.position ≤ position + ts.length → ∃ vs, s'.rest = vs ++ rest ∧
        s'.position + vs.length = position + ts.length := by
    intro a s' hRun hBound
    obtain ⟨us, hTokens, hPosition⟩ := h.left.ok hRun
    simp only at hTokens hPosition
    obtain ⟨vs, rfl⟩ : us <+: ts :=
      List.prefix_of_prefix_length_le ⟨_, hTokens.symm⟩ ⟨rest, rfl⟩ (by omega)
    rw [List.append_assoc] at hTokens
    exact ⟨vs, (List.append_cancel_left hTokens).symm, by rw [hPosition, List.length_append]; omega⟩
  refine ⟨?_, ?_, ?_⟩
  · intro b s'' ws hRun hEnd
    obtain ⟨a, s', hOk, hSecond⟩ := Steps.bind_ok.mp hRun
    obtain ⟨us, hTokens, -⟩ := (hNext a).left.ok hSecond
    rw [hEnd, ← List.append_assoc] at hTokens
    rw [Steps.bind_eq (hFirst.ok hOk hTokens)]
    obtain ⟨tokens, position', depth', pending'⟩ := s'
    subst hTokens
    exact ((hNext a).agree (us ++ ws) position' depth' pending' hHead).ok hSecond hEnd
  · intro fault hRun hFault hSeen
    rcases Steps.bind_error.mp hRun with hFail | ⟨a, s', hOk, hSecond⟩
    · exact Steps.bind_error.mpr (.inl (hFirst.error hFail hFault hSeen))
    · obtain ⟨vs, hTokens, hLength⟩ := hRest hOk
        (Nat.le_trans ((hNext a).left.error hSecond).1 hSeen)
      rw [Steps.bind_eq (hFirst.ok hOk hTokens)]
      obtain ⟨tokens, position', depth', pending'⟩ := s'
      subst hTokens
      exact ((hNext a).agree vs position' depth' pending' hHead).error hSecond hFault
        (by simp only at hLength; omega)
  · intro n hRun hSeen
    rcases Steps.bind_error.mp hRun with hFail | ⟨a, s', hOk, hSecond⟩
    · exact (hFirst.tooDeep hFail hSeen).bind fun a => (hNext a).right
    · obtain ⟨vs, hTokens, hLength⟩ := hRest hOk
        (Nat.le_trans ((hNext a).left.error hSecond).1 hSeen)
      rw [Steps.bind_eq (hFirst.ok hOk hTokens)]
      obtain ⟨tokens, position', depth', pending'⟩ := s'
      subst hTokens
      exact ((hNext a).agree vs position' depth' pending' hHead).tooDeep hSecond
        (by simp only at hLength; omega)

end Formula.Parser
