/-! Steps that read and change a state and may fail, as the compiler and the parser are made of. -/

namespace Formula.Steps

variable {ε σ α β : Type}

/-- A step after another one succeeds in the state that the other one leaves. -/
theorem bind_ok {m : StateT σ (Except ε) α} {f : α → StateT σ (Except ε) β} {s s' : σ} {b : β} :
    (m >>= f) s = .ok (b, s') ↔ ∃ a s₁, m s = .ok (a, s₁) ∧ f a s₁ = .ok (b, s') := by
  show (m s >>= fun p => f p.1 p.2) = _ ↔ _
  cases m s with
  | error e => simp [bind, Except.bind]
  | ok p =>
    obtain ⟨a, s₁⟩ := p
    refine ⟨fun h => ⟨a, s₁, rfl, h⟩, ?_⟩
    rintro ⟨_, _, ⟨⟩, h⟩
    exact h

/-- Steps after each other fail where the first or the second one does. -/
theorem bind_error {m : StateT σ (Except ε) α} {f : α → StateT σ (Except ε) β} {s : σ} {e : ε} :
    (m >>= f) s = .error e ↔ m s = .error e ∨ ∃ a s₁, m s = .ok (a, s₁) ∧ f a s₁ = .error e := by
  show (m s >>= fun p => f p.1 p.2) = _ ↔ _
  cases m s with
  | error e' => simp [bind, Except.bind]
  | ok p =>
    obtain ⟨a, s₁⟩ := p
    refine ⟨fun h => .inr ⟨a, s₁, rfl, h⟩, ?_⟩
    rintro (⟨⟨⟩⟩ | ⟨_, _, ⟨⟩, h⟩)
    exact h

@[simp] theorem pure_apply (a : α) (s : σ) :
    (pure a : StateT σ (Except ε) α) s = .ok (a, s) := rfl

theorem pure_ok {a b : α} {s s' : σ} :
    (pure a : StateT σ (Except ε) α) s = .ok (b, s') ↔ a = b ∧ s = s' := by
  simp

/-- A step that succeeds hands on its state. -/
theorem bind_eq {m : StateT σ (Except ε) α} {f : α → StateT σ (Except ε) β} {s s₁ : σ} {a : α}
    (h : m s = .ok (a, s₁)) : (m >>= f) s = f a s₁ := by
  show (m s >>= fun p => f p.1 p.2) = _
  rw [h]
  rfl

/-- What comes after a step matters only where the step leads. -/
theorem bind_congr {m : StateT σ (Except ε) α} {f g : α → StateT σ (Except ε) β} {s : σ}
    (h : ∀ a s₁, m s = .ok (a, s₁) → f a s₁ = g a s₁) : (m >>= f) s = (m >>= g) s := by
  show (m s >>= fun p => f p.1 p.2) = (m s >>= fun p => g p.1 p.2)
  cases hRun : m s with
  | error e => rfl
  | ok p => exact h p.1 p.2 hRun

/-- A step matters only by what it does in the state where it is taken. -/
theorem bind_congr_left {m m' : StateT σ (Except ε) α} {f : α → StateT σ (Except ε) β} {s : σ}
    (h : m s = m' s) : (m >>= f) s = (m' >>= f) s := by
  show (m s >>= fun p => f p.1 p.2) = (m' s >>= fun p => f p.1 p.2)
  rw [h]

end Formula.Steps
