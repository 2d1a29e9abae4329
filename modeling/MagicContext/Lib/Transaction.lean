
/-!
# Computations that keep their state when they fail

Inside a database transaction a failed call leaves behind what it wrote before it failed; only the
end of the transaction takes it back.  `EStateM` has exactly this behaviour.  This file has the
rules for what such a computation does to its state however it ends, and for what it has done when
it succeeds.

## What is here

* `final` — the state a computation leaves, and how it goes through sequences.
* `Keeps` — every step is related to the next by a preorder, even across a failure.
* `bind_eq_ok`, `bind_eq_error` — taking a run apart.
-/

namespace Transaction

variable {ε σ α β : Type}

/-- The state a computation leaves, however it ends. -/
def final (m : EStateM ε σ α) (s : σ) : σ :=
  match m s with
  | .ok _ s' => s'
  | .error _ s' => s'

variable {m : EStateM ε σ α} {s s' : σ} {f : α → EStateM ε σ β}

theorem final_of_ok {a : α} (h : m s = .ok a s') : final m s = s' := by
  rw [final, h]

theorem final_of_error {e : ε} (h : m s = .error e s') : final m s = s' := by
  rw [final, h]

/-! ## Taking runs apart -/

/-- **A sequence succeeds** when both parts do, one after the other. -/
theorem bind_eq_ok {b : β} :
    (m >>= f) s = .ok b s' ↔ ∃ a s₁, m s = .ok a s₁ ∧ f a s₁ = .ok b s' := by
  change EStateM.bind m f s = .ok b s' ↔ _
  rw [EStateM.bind]
  split
  · rename_i a s₁ h
    constructor
    · intro h'
      exact ⟨a, s₁, h, h'⟩
    · rintro ⟨a', s₁', heq, h'⟩
      rw [h] at heq
      obtain ⟨rfl, rfl⟩ := EStateM.Result.ok.inj heq
      exact h'
  · rename_i e s₁ h
    constructor
    · intro h'
      cases h'
    · rintro ⟨a', s₁', heq, -⟩
      rw [h] at heq
      cases heq

/-- A sequence fails in its first part, or in its second. -/
theorem bind_eq_error {e : ε} : (m >>= f) s = .error e s' ↔
      m s = .error e s' ∨ ∃ a s₁, m s = .ok a s₁ ∧ f a s₁ = .error e s' := by
  change EStateM.bind m f s = .error e s' ↔ _
  rw [EStateM.bind]
  split
  · rename_i a s₁ h
    constructor
    · intro h'
      exact Or.inr ⟨a, s₁, h, h'⟩
    · rintro (heq | ⟨a', s₁', heq, h'⟩)
      · rw [h] at heq
        cases heq
      · rw [h] at heq
        obtain ⟨rfl, rfl⟩ := EStateM.Result.ok.inj heq
        exact h'
  · rename_i e' s₁ h
    constructor
    · intro h'
      obtain ⟨rfl, rfl⟩ := EStateM.Result.error.inj h'
      exact Or.inl h
    · rintro (heq | ⟨a', s₁', heq, -⟩)
      · rw [h] at heq
        obtain ⟨rfl, rfl⟩ := EStateM.Result.error.inj heq
        rfl
      · rw [h] at heq
        cases heq

/-- After a first part that succeeded, the second one runs. -/
theorem bind_of_ok {s s₁ : σ} {a : α} (h : m s = .ok a s₁) : (m >>= f) s = f a s₁ := by
  change EStateM.bind m f s = _
  rw [EStateM.bind, h]

@[simp] theorem pure_apply (a : α) (s : σ) :
    (pure a : EStateM ε σ α) s = .ok a s := rfl

@[simp] theorem throw_apply (e : ε) (s : σ) :
    (throw e : EStateM ε σ α) s = .error e s := rfl

/-! ## What holds at every step -/

/-- The state stays related to the first one, however the computation ends. -/
def Keeps (R : σ → σ → Prop) (m : EStateM ε σ α) : Prop := ∀ s, R s (final m s)

variable {R : σ → σ → Prop}

theorem Keeps.ok (h : Keeps R m) {a : α} (hm : m s = .ok a s') : R s s' :=
  final_of_ok hm ▸ h s

theorem Keeps.error (h : Keeps R m) {e : ε} (hm : m s = .error e s') : R s s' :=
  final_of_error hm ▸ h s

theorem keeps_pure (hrefl : ∀ s, R s s) (a : α) : Keeps R (pure a : EStateM ε σ α) :=
  fun s => hrefl s

/-- The rule for sequences at one state, with what the first part returned there. -/
theorem final_bind (htrans : ∀ s s' s'', R s s' → R s' s'' → R s s'') (hm : R s (final m s))
    (hf : ∀ a s', m s = .ok a s' → R s' (final (f a) s')) : R s (final (m >>= f) s) := by
  rcases h : (m >>= f) s with ⟨b, s'⟩ | ⟨e, s'⟩
  · obtain ⟨a, s₁, hfirst, hsecond⟩ := bind_eq_ok.mp h
    rw [final_of_ok h]
    exact htrans _ _ _ (final_of_ok hfirst ▸ hm) (final_of_ok hsecond ▸ hf a s₁ hfirst)
  · rw [final_of_error h]
    rcases bind_eq_error.mp h with hfirst | ⟨a, s₁, hfirst, hsecond⟩
    · exact final_of_error hfirst ▸ hm
    · exact htrans _ _ _ (final_of_ok hfirst ▸ hm) (final_of_error hsecond ▸ hf a s₁ hfirst)

/-- **The rule for sequences.** -/
theorem Keeps.bind (htrans : ∀ s s' s'', R s s' → R s' s'' → R s s'') (hm : Keeps R m)
    (hf : ∀ a, Keeps R (f a)) : Keeps R (m >>= f) :=
  fun s => final_bind htrans (hm s) fun a s' _ => hf a s'

theorem Keeps.mono {R' : σ → σ → Prop} (h : Keeps R m) (hsub : ∀ s s', R s s' → R' s s') :
    Keeps R' m :=
  fun s => hsub _ _ (h s)

/-- The rule for loops over a list. -/
theorem keeps_forM (hrefl : ∀ s, R s s) (htrans : ∀ s s' s'', R s s' → R s' s'' → R s s'')
    {f : α → EStateM ε σ PUnit} (hf : ∀ a, Keeps R (f a)) (l : List α) : Keeps R (l.forM f) := by
  induction l with
  | nil => exact keeps_pure hrefl _
  | cons a l ih => exact (hf a).bind htrans fun _ => ih

end Transaction
