import Grail.Refinement

/-! # Agendas

A machine with an `Agenda` has a clock and pending entries, each of which is due at a time.  Nothing
is entered for the past, no step passes a pending entry, and an entry stays until it fires, at its
time.  So an entry fires exactly when it is due, or it is still ahead (`Agenda.run_fires`).

`run_until` is the induction behind it: what a step keeps or ends holds after a run, or there is a
step of the run that ends it. -/

namespace Runs

variable {σ ℓ ε : Type} {step : σ → ℓ → Option σ}

/-- `P` holds after the run, or a step of the run ends it as `D` says. -/
theorem run_until {P : σ → Prop} {D : σ → ℓ → σ → Prop}
    (hstep : ∀ s l s', P s → step s l = some s' → P s' ∨ D s l s') {s s' : σ} {ls : List ℓ}
    (h₀ : P s) (hr : run step s ls = some s') :
    P s' ∨ ∃ before l after s₁ s₂, ls = before ++ l :: after ∧ run step s before = some s₁ ∧
      P s₁ ∧ step s₁ l = some s₂ ∧ D s₁ l s₂ ∧ run step s₂ after = some s' := by
  induction ls generalizing s with
  | nil =>
      cases hr
      exact .inl h₀
  | cons l ls ih =>
      obtain ⟨s₁, hs, hr⟩ := run_cons.mp hr
      rcases hstep s l s₁ h₀ hs with h₁ | hD
      · rcases ih h₁ hr with h' | ⟨before, l', after, s₂, s₃, rfl, hb, hP, hs', hD, ha⟩
        · exact .inl h'
        · exact .inr ⟨l :: before, l', after, s₂, s₃, rfl, run_cons.mpr ⟨s₁, hs, hb⟩, hP, hs', hD,
            ha⟩
      · exact .inr ⟨[], l, ls, s, s₁, rfl, rfl, h₀, hs, hD, hr⟩

/-- The agenda of a machine. -/
structure Agenda (step : σ → ℓ → Option σ) (ε : Type) where
  now : σ → ℕ
  pending : σ → ε → Prop
  due : ε → ℕ
  fires : σ → ℓ → ε → Prop
  ahead : ∀ {s l s' e}, step s l = some s' → pending s' e → now s' ≤ due e
  stays : ∀ {s l s' e}, step s l = some s' → pending s e → pending s' e ∨ fires s l e
  punctual : ∀ {s l s' e}, step s l = some s' → fires s l e → now s' = due e

namespace Agenda

/-- Every pending entry is ahead. -/
def Ahead (A : Agenda step ε) (s : σ) : Prop := ∀ e, A.pending s e → A.now s ≤ A.due e

theorem Ahead.run {A : Agenda step ε} {s s' : σ} {ls : List ℓ} (h : A.Ahead s)
    (hr : Runs.run step s ls = some s') : A.Ahead s' :=
  run_invariant (I := A.Ahead) (fun _ _ _ _ hs _ he => A.ahead hs he) h hr

/-- After a run, an entry that was pending is still ahead, or it has fired when it was due. -/
theorem run_fires (A : Agenda step ε) {s s' : σ} {ls : List ℓ} {e : ε} (hahead : A.Ahead s)
    (he : A.pending s e) (hr : Runs.run step s ls = some s') :
    A.pending s' e ∧ A.now s' ≤ A.due e ∨
      ∃ before l after s₁ s₂, ls = before ++ l :: after ∧ Runs.run step s before = some s₁ ∧
        step s₁ l = some s₂ ∧ A.fires s₁ l e ∧ A.now s₂ = A.due e ∧
        Runs.run step s₂ after = some s' := by
  rcases run_until (D := fun s l _ => A.fires s l e) (fun s l s' hp hs => A.stays hs hp) he hr with
    hp | ⟨before, l, after, s₁, s₂, hls, hb, -, hs, hf, ha⟩
  · exact .inl ⟨hp, hahead.run hr e hp⟩
  · exact .inr ⟨before, l, after, s₁, s₂, hls, hb, hs, hf, A.punctual hs hf, ha⟩

end Agenda

end Runs
