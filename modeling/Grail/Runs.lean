import Mathlib

/-! # Runs of a labelled transition function

`step s l` is the state after the step with label `l`, or `none` when that step cannot be
taken in `s`.  `run step s ls` takes the steps `ls` one after the other.  `Meets step C s ls`
says that every step of that run is taken in a state that satisfies the step condition `C`,
`Along step I s ls` that `I` holds in every state of the run.

A loop over a list that may be left early is such a run, too; `run_loop` proves a loop invariant
that speaks of the part of the list that has been processed.

`run_induction` is the one induction over runs: an invariant that holds initially and is kept
by every step that meets `C` holds at the end of every run whose steps all meet `C`. -/

namespace Runs

variable {σ ℓ : Type} (step : σ → ℓ → Option σ)

/-- The state reached by the steps `ls`, if all of them can be taken. -/
def run : σ → List ℓ → Option σ
  | s, [] => some s
  | s, l :: ls => (step s l).bind fun s₁ => run s₁ ls

/-- Every step of the run meets the condition `C`. -/
def Meets (C : σ → ℓ → Prop) : σ → List ℓ → Prop
  | _, [] => True
  | s, l :: ls => C s l ∧ ∀ s₁ ∈ step s l, Meets C s₁ ls

instance decidableMeets (C : σ → ℓ → Prop) [∀ s l, Decidable (C s l)] :
    ∀ (s : σ) (ls : List ℓ), Decidable (Meets step C s ls)
  | _, [] => inferInstanceAs (Decidable True)
  | s, l :: ls =>
      match h : step s l with
      | none => decidable_of_iff (C s l) (by simp [Meets, h])
      | some s₁ =>
          haveI := decidableMeets C s₁ ls
          decidable_of_iff (C s l ∧ Meets step C s₁ ls) (by simp [Meets, h])

variable {step}

@[simp] theorem run_nil (s : σ) : run step s [] = some s := rfl

theorem run_cons {s s' : σ} {l : ℓ} {ls : List ℓ} :
    run step s (l :: ls) = some s' ↔ ∃ s₁, step s l = some s₁ ∧ run step s₁ ls = some s' := by
  simp [run, Option.bind_eq_some_iff]

/-- Steps that can always be taken can be taken one after the other. -/
theorem run_ne_none (h : ∀ s l, step s l ≠ none) :
    ∀ (s : σ) (ls : List ℓ), run step s ls ≠ none
  | _, [] => nofun
  | s, l :: ls => by
      obtain ⟨s₁, hs⟩ := Option.ne_none_iff_exists'.mp (h s l)
      rw [run, hs]
      exact run_ne_none h s₁ ls

theorem meets_cons {C : σ → ℓ → Prop} {s s₁ : σ} {l : ℓ} {ls : List ℓ} (h : step s l = some s₁) :
    Meets step C s (l :: ls) ↔ C s l ∧ Meets step C s₁ ls := by
  simp [Meets, h]

/-- After the first steps of a run the others meet the condition, too. -/
theorem meets_append {C : σ → ℓ → Prop} {s s₁ : σ} {ls ls' : List ℓ} (h : run step s ls = some s₁) :
    Meets step C s (ls ++ ls') ↔ Meets step C s ls ∧ Meets step C s₁ ls' := by
  induction ls generalizing s with
  | nil =>
      cases h
      exact ⟨fun h => ⟨trivial, h⟩, And.right⟩
  | cons l ls ih =>
      obtain ⟨s₂, hs, h⟩ := run_cons.mp h
      rw [List.cons_append, meets_cons hs, meets_cons hs, ih h, and_assoc]

theorem Meets.mono {C C' : σ → ℓ → Prop} (hC : ∀ s l, C s l → C' s l) :
    ∀ {s : σ} {ls : List ℓ}, Meets step C s ls → Meets step C' s ls
  | _, [], _ => trivial
  | s, l :: _, h => ⟨hC s l h.1, fun s₁ hs₁ => Meets.mono hC (h.2 s₁ hs₁)⟩

theorem Meets.and {C C' : σ → ℓ → Prop} :
    ∀ {s : σ} {ls : List ℓ}, Meets step C s ls → Meets step C' s ls →
      Meets step (fun s l => C s l ∧ C' s l) s ls
  | _, [], _, _ => trivial
  | _, _ :: _, h, h' => ⟨⟨h.1, h'.1⟩, fun s₁ hs₁ => Meets.and (h.2 s₁ hs₁) (h'.2 s₁ hs₁)⟩

theorem meets_true (s : σ) (ls : List ℓ) : Meets step (fun _ _ => True) s ls := by
  induction ls generalizing s with
  | nil => trivial
  | cons l ls ih => exact ⟨trivial, fun s₁ _ => ih s₁⟩

/-- Two conditions that agree on the steps that can be taken where an invariant holds. -/
theorem meets_congr_of {C C' : σ → ℓ → Prop} {I : σ → Prop}
    (hI : ∀ s l s', I s → step s l = some s' → I s')
    (hC : ∀ s l s', I s → step s l = some s' → (C s l ↔ C' s l)) {s s' : σ} {ls : List ℓ}
    (h₀ : I s) (hr : run step s ls = some s') : Meets step C s ls ↔ Meets step C' s ls := by
  induction ls generalizing s with
  | nil => exact Iff.rfl
  | cons l ls ih =>
      obtain ⟨s₁, hs, hr⟩ := run_cons.mp hr
      rw [meets_cons hs, meets_cons hs, hC s l s₁ h₀ hs, ih (hI s l s₁ h₀ hs) hr]

/-- Two conditions that agree on the steps that can be taken. -/
theorem meets_congr {C C' : σ → ℓ → Prop}
    (hC : ∀ s l s', step s l = some s' → (C s l ↔ C' s l)) {s s' : σ} {ls : List ℓ}
    (hr : run step s ls = some s') : Meets step C s ls ↔ Meets step C' s ls :=
  meets_congr_of (I := fun _ => True) (fun _ _ _ _ _ => trivial)
    (fun s l s' _ hs => hC s l s' hs) trivial hr

/-- With an invariant that is kept by every step that meets `C`, a condition that holds of every such
step. -/
theorem meets_of_invariant {C C' : σ → ℓ → Prop} {I : σ → Prop}
    (hstep : ∀ s l s', I s → C s l → step s l = some s' → I s' ∧ C' s l) {s s' : σ} {ls : List ℓ}
    (h₀ : I s) (hr : run step s ls = some s') (hC : Meets step C s ls) : Meets step C' s ls := by
  induction ls generalizing s with
  | nil => trivial
  | cons l ls ih =>
      obtain ⟨s₁, hs, hr⟩ := run_cons.mp hr
      obtain ⟨hl, hC⟩ := (meets_cons hs).mp hC
      obtain ⟨h₁, hl'⟩ := hstep s l s₁ h₀ hl hs
      exact (meets_cons hs).mpr ⟨hl', ih h₁ hr hC⟩

/-- An invariant kept by every step that meets `C` holds after every run that does. -/
theorem run_induction {C : σ → ℓ → Prop} {I : σ → Prop}
    (hstep : ∀ s l s', I s → C s l → step s l = some s' → I s') {s s' : σ} {ls : List ℓ}
    (h₀ : I s) (hr : run step s ls = some s') (hC : Meets step C s ls) : I s' := by
  induction ls generalizing s with
  | nil =>
      cases hr
      exact h₀
  | cons l ls ih =>
      obtain ⟨s₁, hs, hr⟩ := run_cons.mp hr
      obtain ⟨hl, hC⟩ := (meets_cons hs).mp hC
      exact ih (hstep s l s₁ h₀ hl hs) hr hC

/-- An invariant kept by every step holds after every run. -/
theorem run_invariant {I : σ → Prop} (hstep : ∀ s l s', I s → step s l = some s' → I s')
    {s s' : σ} {ls : List ℓ} (h₀ : I s) (hr : run step s ls = some s') : I s' :=
  run_induction (fun s l s' hI _ hs => hstep s l s' hI hs) h₀ hr (meets_true s ls)

/-! ### Every state of a run -/

/-- `I` holds in every state that the run passes through, the first and the last one included. -/
def Along (step : σ → ℓ → Option σ) (I : σ → Prop) (s : σ) (ls : List ℓ) : Prop :=
  ∀ before s', before <+: ls → run step s before = some s' → I s'

theorem along_nil {I : σ → Prop} {s : σ} : Along step I s [] ↔ I s := by
  constructor
  · intro h
    exact h [] s List.prefix_rfl rfl
  · intro h before s' hb hr
    obtain rfl := List.prefix_nil.mp hb
    cases hr
    exact h

theorem along_cons {I : σ → Prop} {s s₁ : σ} {l : ℓ} {ls : List ℓ} (hs : step s l = some s₁) :
    Along step I s (l :: ls) ↔ I s ∧ Along step I s₁ ls := by
  constructor
  · intro h
    refine ⟨h [] s List.nil_prefix rfl, fun before s' hb hr => ?_⟩
    exact h (l :: before) s' (List.cons_prefix_cons.mpr ⟨rfl, hb⟩) (run_cons.mpr ⟨s₁, hs, hr⟩)
  · rintro ⟨h₀, h⟩ before s' hb hr
    cases before with
    | nil =>
        cases hr
        exact h₀
    | cons l' before =>
        obtain ⟨rfl, hrest⟩ := List.cons_prefix_cons.mp hb
        obtain ⟨s₂, hs₂, hr⟩ := run_cons.mp hr
        rw [hs, Option.some.injEq] at hs₂
        subst hs₂
        exact h before s' hrest hr

/-- If a step keeps `I` and meets `D` exactly where it meets `C`, then `I` holds all along the run
and every step meets `D` exactly if every step meets `C`.  `J` is an invariant. -/
theorem along_meets_iff {C D : σ → ℓ → Prop} {I J : σ → Prop}
    (hJ : ∀ s l s', J s → step s l = some s' → J s')
    (hstep : ∀ s l s', J s → I s → step s l = some s' → (I s' ∧ D s l ↔ C s l)) {s s' : σ}
    {ls : List ℓ} (hJ₀ : J s) (hI₀ : I s) (hr : run step s ls = some s') :
    Along step I s ls ∧ Meets step D s ls ↔ Meets step C s ls := by
  induction ls generalizing s with
  | nil => exact ⟨fun _ => trivial, fun _ => ⟨along_nil.mpr hI₀, trivial⟩⟩
  | cons l ls ih =>
      obtain ⟨s₁, hs, hr⟩ := run_cons.mp hr
      have hiff := hstep s l s₁ hJ₀ hI₀ hs
      have hJ₁ := hJ s l s₁ hJ₀ hs
      rw [along_cons hs, meets_cons hs, meets_cons hs]
      constructor
      · rintro ⟨⟨-, h⟩, hD, hD'⟩
        have hI₁ : I s₁ := h [] s₁ List.nil_prefix rfl
        exact ⟨hiff.mp ⟨hI₁, hD⟩, (ih hJ₁ hI₁ hr).mp ⟨h, hD'⟩⟩
      · rintro ⟨hC, h⟩
        obtain ⟨hI₁, hD⟩ := hiff.mpr hC
        obtain ⟨hA, hD'⟩ := (ih hJ₁ hI₁ hr).mpr h
        exact ⟨⟨hI₀, hA⟩, hD, hD'⟩

/-- If a step keeps `I` exactly where it meets `C`, then `I` holds all along the run exactly if every
step meets `C`.  `J` is an invariant. -/
theorem along_iff_meets {C : σ → ℓ → Prop} {I J : σ → Prop}
    (hJ : ∀ s l s', J s → step s l = some s' → J s')
    (hstep : ∀ s l s', J s → I s → step s l = some s' → (I s' ↔ C s l)) {s s' : σ} {ls : List ℓ}
    (hJ₀ : J s) (hI₀ : I s) (hr : run step s ls = some s') :
    Along step I s ls ↔ Meets step C s ls := by
  have h := along_meets_iff (D := fun _ _ => True) hJ
    (fun s l s' hj hi hs => by rw [and_true, hstep s l s' hj hi hs]) hJ₀ hI₀ hr
  rwa [and_iff_left (meets_true s ls)] at h

/-! ### Loops -/

/-- A loop invariant `I done s`, where `done` is the part of `ls` that has been processed. -/
theorem run_loop {I : List ℓ → σ → Prop} {ls : List ℓ}
    (hstep : ∀ done l rest s s', ls = done ++ l :: rest → I done s → step s l = some s' →
      I (done ++ [l]) s') {s s' : σ} (h₀ : I [] s) (hr : run step s ls = some s') : I ls s' := by
  suffices H : ∀ rest done s, ls = done ++ rest → I done s → run step s rest = some s' → I ls s' from
    H ls [] s rfl h₀ hr
  intro rest
  induction rest with
  | nil =>
      intro done s hls hI hr
      cases hr
      rwa [hls, List.append_nil]
  | cons l rest ih =>
      intro done s hls hI hr
      obtain ⟨s₁, hs, hr⟩ := run_cons.mp hr
      exact ih (done ++ [l]) s₁ (by simp [hls]) (hstep done l rest s s₁ hls hI hs) hr

end Runs
