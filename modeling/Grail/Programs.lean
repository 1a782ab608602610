import Mathlib

/-! # Programs over a state that may stop

`Program σ ε α` is a computation that reads and writes a state `σ` and either returns a value
or stops for a reason `ε`.  `wp m Q s` is the weakest (partial) precondition: if `m`, started
in `s`, returns `a` in `s'`, then `Q a s'`; a computation that stops satisfies every `Q`.

The lemmas `wp_*` compute `wp` of the constructs of the `do` notation, so that a specification
of a straight-line program is reached by rewriting.  `Frames R m` says that every return of
`m` relates the initial and the final state by `R`; for a reflexive and transitive `R` it is
closed under sequencing (`Frames.bind`). -/

namespace Programs

/-- A computation on states `σ` that returns an `α` or stops for a reason `ε`. -/
abbrev Program (σ ε α : Type) := StateT σ (Except ε) α

variable {σ ε α β : Type}

/-- Weakest partial precondition of `m` for the postcondition `Q`. -/
def wp (m : Program σ ε α) (Q : α → σ → Prop) (s : σ) : Prop :=
  ∀ a s', m.run s = .ok (a, s') → Q a s'

theorem wp.elim {m : Program σ ε α} {Q : α → σ → Prop} {s s' : σ} {a : α} (h : wp m Q s)
    (hr : m.run s = .ok (a, s')) : Q a s' := h a s' hr

theorem wp.mono {m : Program σ ε α} {Q Q' : α → σ → Prop} {s : σ} (h : wp m Q s)
    (hQ : ∀ a s', Q a s' → Q' a s') : wp m Q' s :=
  fun a s' hr => hQ a s' (h a s' hr)

theorem wp.and {m : Program σ ε α} {Q Q' : α → σ → Prop} {s : σ} (h : wp m Q s)
    (h' : wp m Q' s) : wp m (fun a s' => Q a s' ∧ Q' a s') s :=
  fun a s' hr => ⟨h a s' hr, h' a s' hr⟩

/-- A computation that is evaluated to a result with `P` returns it. -/
theorem returns_of_any {m : Program σ ε α} {P : α × σ → Bool} {s : σ}
    (h : (m.run s).toOption.any P = true) : ∃ a s', m.run s = .ok (a, s') ∧ P (a, s') = true := by
  cases hm : m.run s with
  | error e =>
      rw [hm] at h
      cases h
  | ok r =>
      rw [hm] at h
      exact ⟨r.1, r.2, rfl, h⟩

@[simp] theorem wp_pure (a : α) (Q : α → σ → Prop) (s : σ) :
    wp (pure a : Program σ ε α) Q s ↔ Q a s := by
  constructor
  · intro h
    exact h a s rfl
  · intro h b s' hr
    cases hr
    exact h

@[simp] theorem wp_bind (m : Program σ ε α) (f : α → Program σ ε β) (Q : β → σ → Prop) (s : σ) :
    wp (m >>= f) Q s ↔ wp m (fun a s' => wp (f a) Q s') s := by
  unfold wp
  rw [StateT.run_bind]
  cases hm : m.run s with
  | error e =>
      constructor
      · intro _ a s' h
        cases h
      · intro _ b s' h
        cases h
  | ok p =>
      obtain ⟨a, s₁⟩ := p
      constructor
      · intro h a' s' he b s'' hf
        cases he
        exact h b s'' hf
      · intro h b s'' hf
        exact h a s₁ rfl b s'' hf

@[simp] theorem wp_map (f : α → β) (m : Program σ ε α) (Q : β → σ → Prop) (s : σ) :
    wp (f <$> m) Q s ↔ wp m (fun a s' => Q (f a) s') s := by
  rw [map_eq_pure_bind, wp_bind]
  simp only [wp_pure]

@[simp] theorem wp_get (Q : σ → σ → Prop) (s : σ) : wp (get : Program σ ε σ) Q s ↔ Q s s := by
  constructor
  · intro h
    exact h s s rfl
  · intro h a s' hr
    cases hr
    exact h

@[simp] theorem wp_modify (f : σ → σ) (Q : PUnit → σ → Prop) (s : σ) :
    wp (modify f : Program σ ε PUnit) Q s ↔ Q ⟨⟩ (f s) := by
  constructor
  · intro h
    exact h ⟨⟩ (f s) rfl
  · intro h a s' hr
    cases hr
    exact h

@[simp] theorem wp_throw (e : ε) (Q : α → σ → Prop) (s : σ) :
    wp (throw e : Program σ ε α) Q s ↔ True :=
  iff_true_intro fun _ _ hr => by cases hr

@[simp] theorem wp_ite (c : Prop) [Decidable c] (m n : Program σ ε α) (Q : α → σ → Prop) (s : σ) :
    wp (if c then m else n) Q s ↔ (c → wp m Q s) ∧ (¬ c → wp n Q s) := by
  by_cases hc : c <;> simp [hc]

/-! ### Frames -/

/-- Every return of `m` relates its initial and its final state by `R`. -/
def Frames (R : σ → σ → Prop) (m : Program σ ε α) : Prop :=
  ∀ s, wp m (fun _ s' => R s s') s

theorem Frames.elim {R : σ → σ → Prop} {m : Program σ ε α} (h : Frames R m) {s s' : σ} {a : α}
    (hr : m.run s = .ok (a, s')) : R s s' := h s a s' hr

theorem Frames.pure {R : σ → σ → Prop} (hR : ∀ s, R s s) (a : α) :
    Frames R (Pure.pure a : Program σ ε α) := fun s => by simpa using hR s

theorem Frames.throw {R : σ → σ → Prop} (e : ε) :
    Frames R (MonadExcept.throw e : Program σ ε α) := fun s => by simp

theorem Frames.bind {R : σ → σ → Prop} (hR : ∀ {a b c}, R a b → R b c → R a c)
    {m : Program σ ε α} {f : α → Program σ ε β} (hm : Frames R m) (hf : ∀ a, Frames R (f a)) :
    Frames R (m >>= f) := by
  intro s
  rw [wp_bind]
  exact (hm s).mono fun a s₁ h₁ => (hf a s₁).mono fun _ s₂ h₂ => hR h₁ h₂

end Programs
