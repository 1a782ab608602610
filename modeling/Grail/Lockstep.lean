import Grail.Programs
import Grail.Runs

/-! # Two programs in lockstep

`Both m m' Q s t` relates two programs, `m` started in `s` and `m'` started in `t`: either both
stop, or both return, and then `Q` relates the results and the final states.  The lemmas `both_*`
are its rules for the constructs of the `do` notation.

`Runs.run_lockstep` is the induction over two runs with the same labels: if every step keeps two
states related, or can be taken in neither, then so do runs. -/

namespace Programs

variable {σ τ ε ε' α β γ δ : Type}

def Both (m : Program σ ε α) (m' : Program τ ε' β) (Q : α → β → σ → τ → Prop) (s : σ) (t : τ) :
    Prop :=
  match m.run s, m'.run t with
  | .ok (a, s'), .ok (b, t') => Q a b s' t'
  | .error _, .error _ => True
  | _, _ => False

variable {m : Program σ ε α} {m' : Program τ ε' β} {Q : α → β → σ → τ → Prop} {s : σ} {t : τ}

theorem both_of_ok {a : α} {b : β} {s' : σ} {t' : τ} (h : m.run s = .ok (a, s'))
    (h' : m'.run t = .ok (b, t')) (hQ : Q a b s' t') : Both m m' Q s t := by
  unfold Both
  rw [h, h']
  exact hQ

theorem Both.mono {Q' : α → β → σ → τ → Prop} (h : Both m m' Q s t)
    (hQ : ∀ a b s' t', Q a b s' t' → Q' a b s' t') : Both m m' Q' s t := by
  unfold Both at h ⊢
  split at h
  next => exact hQ _ _ _ _ h
  next => trivial
  next => exact h.elim

theorem both_pure {a : α} {b : β} (h : Q a b s t) :
    Both (pure a : Program σ ε α) (pure b : Program τ ε' β) Q s t := h

theorem both_bind {f : α → Program σ ε γ} {f' : β → Program τ ε' δ} {Q : γ → δ → σ → τ → Prop}
    (h : Both m m' (fun a b s' t' => Both (f a) (f' b) Q s' t') s t) :
    Both (m >>= f) (m' >>= f') Q s t := by
  unfold Both at h
  split at h
  next hm hm' =>
      unfold Both
      rw [StateT.run_bind, StateT.run_bind, hm, hm']
      exact h
  next hm hm' =>
      unfold Both
      rw [StateT.run_bind, StateT.run_bind, hm, hm']
      trivial
  next => exact h.elim

theorem both_get {Q : σ → τ → σ → τ → Prop} (h : Q s t s t) :
    Both (get : Program σ ε σ) (get : Program τ ε' τ) Q s t := h

theorem both_modify {f : σ → σ} {f' : τ → τ} {Q : PUnit → PUnit → σ → τ → Prop}
    (h : Q ⟨⟩ ⟨⟩ (f s) (f' t)) :
    Both (modify f : Program σ ε PUnit) (modify f' : Program τ ε' PUnit) Q s t := h

theorem both_throw {e : ε} {e' : ε'} :
    Both (throw e : Program σ ε α) (throw e' : Program τ ε' β) Q s t := trivial

theorem both_ite {c : Prop} [Decidable c] {m₁ m₂ : Program σ ε α} {m₁' m₂' : Program τ ε' β}
    (h₁ : c → Both m₁ m₁' Q s t) (h₂ : ¬ c → Both m₂ m₂' Q s t) :
    Both (if c then m₁ else m₂) (if c then m₁' else m₂') Q s t := by
  split_ifs with hc
  · exact h₁ hc
  · exact h₂ hc

/-- Both programs return related states or none. -/
theorem Both.option_rel {R : σ → τ → Prop} (h : Both m m' (fun _ _ s' t' => R s' t') s t) :
    Option.Rel R ((m.run s).toOption.map Prod.snd) ((m'.run t).toOption.map Prod.snd) := by
  unfold Both at h
  split at h
  next hm hm' =>
      rw [hm, hm']
      exact .some h
  next hm hm' =>
      rw [hm, hm']
      exact .none
  next => exact h.elim

end Programs

namespace Runs

variable {σ τ ℓ : Type} {step : σ → ℓ → Option σ} {step' : τ → ℓ → Option τ}

theorem run_lockstep {R : σ → τ → Prop} {C : σ → ℓ → Prop} {C' : τ → ℓ → Prop}
    (hstep : ∀ s t l, R s t → C s l ∧ C' t l → Option.Rel R (step s l) (step' t l)) {s : σ} {t : τ}
    {ls : List ℓ} (h : R s t) (hC : Meets step C s ls) (hC' : Meets step' C' t ls) :
    Option.Rel R (run step s ls) (run step' t ls) := by
  induction ls generalizing s t with
  | nil => exact .some h
  | cons l ls ih =>
      have hl := hstep s t l h ⟨hC.1, hC'.1⟩
      have hrest := hC.2
      have hrest' := hC'.2
      unfold run
      cases hs : step s l with
      | none =>
          rw [hs] at hl
          cases hl' : step' t l with
          | none => exact .none
          | some t₁ =>
              rw [hl'] at hl
              cases hl
      | some s₁ =>
          rw [hs] at hl
          cases hl' : step' t l with
          | none =>
              rw [hl'] at hl
              cases hl
          | some t₁ =>
              rw [hl'] at hl
              cases hl with
              | some hr => exact ih hr (hrest s₁ hs) (hrest' t₁ hl')

end Runs
