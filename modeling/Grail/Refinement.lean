import Grail.Runs

/-! # Runs that carry out the operations of another machine

`emitted step emit s ls` joins what the steps of the run `ls` from `s` emit; `emit s l s'` is what
the step `l` from `s` to `s'` emits.

If the steps of a machine emit operations of an abstract one, and the abstract machine can take the
operations of every single step, then it can take those of a run, one after the other
(`run_refines`).  `run_queue` and `run_foldl` are about two kinds of state that an abstract machine
may have: a queue, and a value that every operation updates.  `nodup_emitted` is about what may be
emitted once only. -/

namespace Runs

variable {σ ℓ τ ο α : Type} {step : σ → ℓ → Option σ}

/-- The runs of two lists of steps, one after the other. -/
theorem run_append {s : σ} {ls ls' : List ℓ} :
    run step s (ls ++ ls') = (run step s ls).bind fun s₁ => run step s₁ ls' := by
  induction ls generalizing s with
  | nil => rfl
  | cons l ls ih =>
      rw [List.cons_append, run, run]
      cases step s l with
      | none => rfl
      | some s₁ => exact ih

theorem run_append_of {s s₁ : σ} {ls ls' : List ℓ} (h : run step s ls = some s₁) :
    run step s (ls ++ ls') = run step s₁ ls' := by
  rw [run_append, h]
  rfl

theorem run_singleton {s : σ} {l : ℓ} : run step s [l] = step s l := by
  rw [run]
  cases step s l <;> rfl

/-- What the steps of a run emit, in order. -/
def emitted (step : σ → ℓ → Option σ) (emit : σ → ℓ → σ → List ο) : σ → List ℓ → List ο
  | _, [] => []
  | s, l :: ls =>
      match step s l with
      | none => []
      | some s₁ => emit s l s₁ ++ emitted step emit s₁ ls

variable {emit : σ → ℓ → σ → List ο}

@[simp] theorem emitted_nil (s : σ) : emitted step emit s [] = [] := rfl

theorem emitted_cons {s s₁ : σ} {l : ℓ} (ls : List ℓ) (h : step s l = some s₁) :
    emitted step emit s (l :: ls) = emit s l s₁ ++ emitted step emit s₁ ls := by
  rw [emitted, h]

/-- Every step of a run that meets `C` emits operations that satisfy `P`. -/
theorem forall_emitted {P : ο → Prop} {C : σ → ℓ → Prop} {J : σ → Prop}
    (hJ : ∀ s l s', J s → step s l = some s' → J s')
    (hemit : ∀ s l s', J s → C s l → step s l = some s' → ∀ o ∈ emit s l s', P o) {s s' : σ}
    {ls : List ℓ} (h₀ : J s) (hr : run step s ls = some s') (hC : Meets step C s ls) :
    ∀ o ∈ emitted step emit s ls, P o := by
  induction ls generalizing s with
  | nil => simp
  | cons l ls ih =>
      obtain ⟨s₁, hs, hr⟩ := run_cons.mp hr
      obtain ⟨hl, hC⟩ := (meets_cons hs).mp hC
      rw [emitted_cons ls hs]
      intro o ho
      rcases List.mem_append.mp ho with ho | ho
      · exact hemit s l s₁ h₀ hl hs o ho
      · exact ih (hJ s l s₁ h₀ hs) hr hC o ho

/-- If a step emits only what has not been spent (`S`), spends it, and gives nothing back, then a
run emits nothing twice.  `f` picks the part of what is emitted that counts. -/
theorem nodup_emitted {f : ο → Option α} {S : σ → α → Prop} {J : σ → Prop}
    (hJ : ∀ s l s', J s → step s l = some s' → J s')
    (hkeeps : ∀ s l s', J s → step s l = some s' → ∀ a, S s a → S s' a)
    (hspends : ∀ s l s', J s → step s l = some s' → ((emit s l s').filterMap f).Nodup ∧
      ∀ a ∈ (emit s l s').filterMap f, ¬ S s a ∧ S s' a) {s s' : σ} {ls : List ℓ}
    (h₀ : J s) (hr : run step s ls = some s') :
    ((emitted step emit s ls).filterMap f).Nodup ∧
      ∀ a ∈ (emitted step emit s ls).filterMap f, ¬ S s a := by
  induction ls generalizing s with
  | nil => simp
  | cons l ls ih =>
      obtain ⟨s₁, hs, hr⟩ := run_cons.mp hr
      obtain ⟨hnodup, hnew⟩ := hspends s l s₁ h₀ hs
      obtain ⟨htail, hunspent⟩ := ih (hJ s l s₁ h₀ hs) hr
      rw [emitted_cons ls hs, List.filterMap_append]
      refine ⟨List.nodup_append.mpr ⟨hnodup, htail, ?_⟩, fun a ha => ?_⟩
      · rintro a ha b hb rfl
        exact hunspent a hb (hnew a ha).2
      · rcases List.mem_append.mp ha with ha | ha
        · exact (hnew a ha).1
        · exact fun hspent => hunspent a ha (hkeeps s l s₁ h₀ hs a hspent)

/-- A run carries out the operations that its steps emit. -/
theorem run_refines {absStep : τ → ο → Option τ} {abs : σ → τ} {J : σ → Prop}
    (hJ : ∀ s l s', J s → step s l = some s' → J s')
    (hstep : ∀ s l s', J s → step s l = some s' →
      run absStep (abs s) (emit s l s') = some (abs s')) {s s' : σ} {ls : List ℓ} (h₀ : J s)
    (hr : run step s ls = some s') :
    run absStep (abs s) (emitted step emit s ls) = some (abs s') := by
  induction ls generalizing s with
  | nil =>
      cases hr
      rfl
  | cons l ls ih =>
      obtain ⟨s₁, hs, hr⟩ := run_cons.mp hr
      rw [emitted_cons ls hs, run_append_of (hstep s l s₁ h₀ hs)]
      exact ih (hJ s l s₁ h₀ hs) hr

/-! ### Queues and accumulated values -/

/-- Each step appends `f l` to a queue and takes `g l` from its front: what the queue holds after a
run is what it held before and what has been appended, less what has been taken. -/
theorem run_queue {q : σ → List α} {f g : ℓ → List α}
    (hstep : ∀ s l s', step s l = some s' → q s ++ f l = g l ++ q s') {s s' : σ} {ls : List ℓ}
    (hr : run step s ls = some s') : q s ++ ls.flatMap f = ls.flatMap g ++ q s' := by
  induction ls generalizing s with
  | nil =>
      cases hr
      simp
  | cons l ls ih =>
      obtain ⟨s₁, hs, hr⟩ := run_cons.mp hr
      rw [List.flatMap_cons, List.flatMap_cons, ← List.append_assoc, hstep s l s₁ hs,
        List.append_assoc, ih hr, List.append_assoc]

/-- Nothing is taken. -/
theorem run_log {q : σ → List α} {f : ℓ → List α}
    (hstep : ∀ s l s', step s l = some s' → q s' = q s ++ f l) {s s' : σ} {ls : List ℓ}
    (hr : run step s ls = some s') : q s' = q s ++ ls.flatMap f := by
  have hq := run_queue (q := q) (f := f) (g := fun _ => [])
    (fun s l s' hs => (hstep s l s' hs).symm) hr
  rw [hq, List.flatMap_eq_nil_iff.mpr fun _ _ => rfl, List.nil_append]

/-- Each step updates a value: after a run it is the fold of the updates. -/
theorem run_foldl {v : σ → α} {f : α → ℓ → α}
    (hstep : ∀ s l s', step s l = some s' → v s' = f (v s) l) {s s' : σ} {ls : List ℓ}
    (hr : run step s ls = some s') : v s' = ls.foldl f (v s) := by
  induction ls generalizing s with
  | nil =>
      cases hr
      rfl
  | cons l ls ih =>
      obtain ⟨s₁, hs, hr⟩ := run_cons.mp hr
      rw [List.foldl_cons, ← hstep s l s₁ hs]
      exact ih hr

end Runs
