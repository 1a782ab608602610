import Mathlib

/-! # While loops

`whileLoop ok next body n s` is `while (ok s) { body s; s = next s; }` in a monad, started in
the control state `s` and left after `n` turns at the latest: the result is the control state
in which the condition failed, or `none` if the bound was reached first.

`Turns ok next s k` says that the condition holds for exactly `k` turns.  A loop whose control
state has a measure that every turn decreases has such a number (`exists_turns`), the number is
unique (`Turns.unique`), and with a larger bound the loop runs its body on the first `k` control
states in order (`whileLoop_eq`).  `Visits ok next s t` says that the loop comes to the control
state `t`. -/

namespace Loops

variable {σ : Type} {m : Type → Type} [Monad m]

/-- `while (ok s) { body s; s = next s; }`, for at most `n` turns. -/
def whileLoop (ok : σ → Bool) (next : σ → σ) (body : σ → m Unit) : ℕ → σ → m (Option σ)
  | 0, _ => pure none
  | n + 1, s =>
      if ok s then do
        body s
        whileLoop ok next body n (next s)
      else pure (some s)

variable {ok : σ → Bool} {next : σ → σ} {body : σ → m Unit} {s : σ}

theorem whileLoop_stop (n : ℕ) (h : ok s = false) :
    whileLoop ok next body (n + 1) s = pure (some s) := by
  rw [whileLoop, h]
  rfl

theorem whileLoop_turn (n : ℕ) (h : ok s = true) :
    whileLoop ok next body (n + 1) s =
      (do body s; whileLoop ok next body n (next s)) := by
  rw [whileLoop, if_pos h]

/-! ### The number of turns -/

/-- The condition holds in the first `k` control states and fails in the one after them. -/
structure Turns (ok : σ → Bool) (next : σ → σ) (s : σ) (k : ℕ) : Prop where
  goes : ∀ i < k, ok (next^[i] s) = true
  stops : ok (next^[k] s) = false

theorem Turns.unique {k k' : ℕ} (h : Turns ok next s k) (h' : Turns ok next s k') : k = k' := by
  rcases lt_trichotomy k k' with hlt | heq | hgt
  · have hgo := h'.goes k hlt
    rw [h.stops] at hgo
    cases hgo
  · exact heq
  · have hgo := h.goes k' hgt
    rw [h'.stops] at hgo
    cases hgo

theorem Turns.zero (h : ok s = false) : Turns ok next s 0 :=
  ⟨fun i hi => absurd hi (Nat.not_lt_zero i), h⟩

theorem Turns.succ {k : ℕ} (h : ok s = true) (hk : Turns ok next (next s) k) :
    Turns ok next s (k + 1) where
  goes i hi := by
    cases i with
    | zero => exact h
    | succ i =>
        rw [Function.iterate_succ_apply]
        exact hk.goes i (by omega)
  stops := by
    rw [Function.iterate_succ_apply]
    exact hk.stops

theorem Turns.ok_of_pos {k : ℕ} (h : Turns ok next s (k + 1)) : ok s = true :=
  h.goes 0 (Nat.succ_pos k)

theorem Turns.tail {k : ℕ} (h : Turns ok next s (k + 1)) : Turns ok next (next s) k where
  goes i hi := by
    have hgo := h.goes (i + 1) (by omega)
    rwa [Function.iterate_succ_apply] at hgo
  stops := by
    have hst := h.stops
    rwa [Function.iterate_succ_apply] at hst

/-- A measure that every turn decreases bounds the number of turns. -/
theorem exists_turns (μ : σ → ℕ) (hμ : ∀ s, ok s = true → μ (next s) < μ s) (s : σ) :
    ∃ k ≤ μ s, Turns ok next s k := by
  induction hn : μ s using Nat.strong_induction_on generalizing s with
  | _ n ih =>
      cases hok : ok s with
      | false => exact ⟨0, Nat.zero_le _, Turns.zero hok⟩
      | true =>
          have hlt : μ (next s) < n := hn ▸ hμ s hok
          obtain ⟨k, hk, ht⟩ := ih (μ (next s)) hlt (next s) rfl
          exact ⟨k + 1, by omega, ht.succ hok⟩

/-- Before the bound is reached, the loop runs its body on the control states of its turns. -/
theorem whileLoop_eq [LawfulMonad m] {k n : ℕ} (h : Turns ok next s k) (hk : k < n) :
    whileLoop ok next body n s =
      (do (List.iterate next s k).forM body; pure (some (next^[k] s))) := by
  induction k generalizing s n with
  | zero =>
      obtain ⟨n, rfl⟩ : ∃ n', n = n' + 1 := ⟨n - 1, by omega⟩
      have hstop : ok s = false := h.stops
      rw [whileLoop_stop n hstop]
      simp [List.iterate]
  | succ k ih =>
      obtain ⟨n, rfl⟩ : ∃ n', n = n' + 1 := ⟨n - 1, by omega⟩
      rw [whileLoop_turn n h.ok_of_pos, ih h.tail (by omega)]
      simp [List.iterate, Function.iterate_succ_apply]

/-! ### The control states of a loop -/

/-- The loop that is started in `s` comes to the control state `t`. -/
inductive Visits (ok : σ → Bool) (next : σ → σ) (s : σ) : σ → Prop
  | start : Visits ok next s s
  | turn {t : σ} : Visits ok next s t → ok t = true → Visits ok next s (next t)

/-- An invariant that holds at the start and is kept by every turn holds in every control state
the loop comes to. -/
theorem Visits.invariant {I : σ → Prop} (hI : ∀ t, I t → ok t = true → I (next t)) {t : σ}
    (h : Visits ok next s t) (h₀ : I s) : I t := by
  induction h with
  | start => exact h₀
  | turn _ hok ih => exact hI _ ih hok

theorem Visits.head {t : σ} (hok : ok s = true) (h : Visits ok next (next s) t) :
    Visits ok next s t := by
  induction h with
  | start => exact Visits.start.turn hok
  | turn _ hok' ih => exact ih.turn hok'

/-- Induction from the control state that is reached back to the start. -/
theorem Visits.head_induction {P : σ → Prop} {t : σ} (h : Visits ok next s t) (h₀ : P t)
    (hstep : ∀ s, ok s = true → Visits ok next (next s) t → P (next s) → P s) : P s := by
  induction h with
  | start => exact h₀
  | @turn t _ hok ih =>
      refine ih (hstep t hok Visits.start h₀) ?_
      intro s hs hv hp
      exact hstep s hs (hv.turn hok) hp

theorem Turns.visits {k i : ℕ} (h : Turns ok next s k) (hi : i ≤ k) :
    Visits ok next s (next^[i] s) := by
  induction i with
  | zero => exact Visits.start
  | succ i ih =>
      rw [Function.iterate_succ_apply']
      exact (ih (by omega)).turn (h.goes i (by omega))

theorem Visits.trans {t u : σ} (h : Visits ok next s t) (h' : Visits ok next t u) :
    Visits ok next s u := by
  induction h' with
  | start => exact h
  | turn _ hok ih => exact ih.turn hok

/-- Unless the loop stops at once, what it comes to later it comes to after a turn. -/
theorem Visits.cases_head {t : σ} (h : Visits ok next s t) :
    t = s ∨ ok s = true ∧ Visits ok next (next s) t := by
  induction h with
  | start => exact Or.inl rfl
  | turn _ hok ih =>
      rcases ih with rfl | ⟨hs, hv⟩
      · exact Or.inr ⟨hok, Visits.start⟩
      · exact Or.inr ⟨hs, hv.turn hok⟩

/-- Of two control states that the loop comes to, it comes from one to the other. -/
theorem Visits.total {t u : σ} (ht : Visits ok next s t) (hu : Visits ok next s u) :
    Visits ok next t u ∨ Visits ok next u t := by
  induction ht with
  | start => exact Or.inl hu
  | turn _ hok ih =>
      rcases ih with hv | hv
      · rcases hv.cases_head with rfl | ⟨_, hv⟩
        · exact Or.inr (Visits.start.turn hok)
        · exact Or.inl hv
      · exact Or.inr (hv.turn hok)

end Loops
