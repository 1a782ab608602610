import Grail.Runs

/-! # Numbers for objects

Objects get numbers from a finite range, each one the least number that is free, and keep them
until the number is released.  `step` is the machine; its operations name the number that is handed
out, so that a run of them tells who gets which number.  `step_assign` says that it is the least
one, `kept` that an object keeps it, `one_of_nodup` that an object that gets one number only is
never named by two. -/

namespace Numbering

variable {ι ο : Type}

/-- An object gets a number, or a number is released. -/
inductive Op (ι ο : Type) where
  | assign (i : ι) (o : ο)
  | release (i : ι)
deriving DecidableEq, Repr

/-- The numbers of the range that name nothing. -/
def free (range : Finset ι) (t : ι → Option ο) : Finset ι := range.filter fun i => (t i).isNone

theorem mem_free {range : Finset ι} {t : ι → Option ο} {i : ι} :
    i ∈ free range t ↔ i ∈ range ∧ t i = none := by simp [free]

variable [LinearOrder ι]

def step (range : Finset ι) (t : ι → Option ο) : Op ι ο → Option (ι → Option ο)
  | .assign i o =>
      if (free range t).min = i then some (Function.update t i (some o)) else none
  | .release i => if (t i).isSome then some (Function.update t i none) else none

variable {range : Finset ι} {t t' : ι → Option ο} {i : ι} {o : ο}

theorem isLeast_of_min (h : (free range t).min = i) :
    IsLeast {j | j ∈ range ∧ t j = none} i := by
  refine ⟨mem_free.mp (Finset.mem_of_min h), fun j hj => ?_⟩
  exact WithTop.coe_le_coe.mp (h ▸ Finset.min_le (mem_free.mpr hj))

/-- The number that is handed out is the least free one, and the others name what they named. -/
theorem step_assign (h : step range t (.assign i o) = some t') :
    IsLeast {j | j ∈ range ∧ t j = none} i ∧ t' i = some o ∧ ∀ j, j ≠ i → t' j = t j := by
  rw [step] at h
  split_ifs at h with hmin
  cases h
  exact ⟨isLeast_of_min hmin, Function.update_self .., fun j hj => Function.update_of_ne hj _ _⟩

/-- A number that names an object is not handed out once more. -/
theorem step_kept {op : Op ι ο} (hi : t i = some o) (hop : op ≠ .release i)
    (h : step range t op = some t') : t' i = some o := by
  cases op with
  | assign j o' =>
      obtain ⟨⟨hleast, -⟩, -, hsame⟩ := step_assign h
      have hne : i ≠ j := by
        rintro rfl
        cases hi.symm.trans hleast.2
      exact (hsame i hne).trans hi
  | release j =>
      have hne : i ≠ j := fun hij => hop (hij ▸ rfl)
      rw [step] at h
      split_ifs at h
      cases h
      exact (Function.update_of_ne hne _ _).trans hi

/-- What a number names it has named before, unless it has just been handed out. -/
theorem step_named {op : Op ι ο} (h : step range t op = some t') (hi : t' i = some o)
    (hop : op ≠ .assign i o) : t i = some o := by
  cases op with
  | assign j o' =>
      obtain ⟨-, hj, hsame⟩ := step_assign h
      by_cases hij : i = j
      · subst hij
        cases hj.symm.trans hi
        exact absurd rfl hop
      · exact (hsame i hij).symm.trans hi
  | release j =>
      rw [step] at h
      split_ifs at h
      cases h
      by_cases hij : i = j
      · subst hij
        simp at hi
      · rwa [Function.update_of_ne hij] at hi

/-- An object keeps its number until it is released. -/
theorem kept {ops : List (Op ι ο)} (h : Runs.run (step range) t ops = some t') (hi : t i = some o)
    (hops : ∀ op ∈ ops, op ≠ .release i) : t' i = some o := by
  induction ops generalizing t with
  | nil =>
      cases h
      exact hi
  | cons op ops ih =>
      obtain ⟨t₁, hs, h⟩ := Runs.run_cons.mp h
      have h₁ := step_kept hi (hops op List.mem_cons_self) hs
      exact ih h h₁ fun op' hop' => hops op' (List.mem_cons_of_mem _ hop')

/-- Only one number names `o`, and `o` gets no other. -/
theorem one_kept {f : Op ι ο → Option ο} (hf : ∀ i, f (.assign i o) = some o)
    {ops : List (Op ι ο)} (h : Runs.run (step range) t ops = some t')
    (hops : o ∉ ops.filterMap f) (hone : ∀ i j, t i = some o → t j = some o → i = j) {j : ι}
    (hi : t' i = some o) (hj : t' j = some o) : i = j := by
  induction ops generalizing t with
  | nil =>
      cases h
      exact hone i j hi hj
  | cons op ops ih =>
      obtain ⟨t₁, hs, h⟩ := Runs.run_cons.mp h
      have hold : ∀ k, t₁ k = some o → t k = some o := fun k hk => step_named hs hk fun heq =>
        hops (List.mem_filterMap.mpr ⟨op, List.mem_cons_self, heq ▸ hf k⟩)
      refine ih h (fun hmem => hops ?_) fun k k' hk hk' => hone k k' (hold k hk) (hold k' hk')
      rw [← List.singleton_append, List.filterMap_append]
      exact List.mem_append_right _ hmem

/-- An object that is handed one number at most is named by one at most. -/
theorem one_of_nodup {f : Op ι ο → Option ο} (hf : ∀ i, f (.assign i o) = some o)
    {ops : List (Op ι ο)} (h : Runs.run (step range) t ops = some t')
    (hops : (ops.filterMap f).Nodup) (hnone : ∀ i, t i ≠ some o) {j : ι} (hi : t' i = some o)
    (hj : t' j = some o) : i = j := by
  induction ops generalizing t with
  | nil =>
      cases h
      exact absurd hi (hnone i)
  | cons op ops ih =>
      obtain ⟨t₁, hs, hr⟩ := Runs.run_cons.mp h
      rw [← List.singleton_append, List.filterMap_append] at hops
      obtain ⟨-, htail, hdisjoint⟩ := List.nodup_append.mp hops
      by_cases hop : ∃ k, op = .assign k o
      · obtain ⟨k, rfl⟩ := hop
        have hnew : ∀ k', t₁ k' = some o → k' = k := fun k' hk' => by
          by_contra hne
          exact hnone k' (step_named hs hk' fun heq => hne (by cases heq; rfl))
        have hone : ∀ i j, t₁ i = some o → t₁ j = some o → i = j :=
          fun i j hi hj => (hnew i hi).trans (hnew j hj).symm
        refine one_kept hf hr (fun hmem => ?_) hone hi hj
        exact hdisjoint o (by simp [hf]) o hmem rfl
      · exact ih hr htail fun k hk => hnone k (step_named hs hk fun heq => hop ⟨k, heq⟩)

end Numbering
