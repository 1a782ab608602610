import Grail.Programs

/-! # Reasons for which a program stops

`Fails E m s` says that `m`, started in `s`, stops for one of the reasons `E`, and `Never E m` that
it does so in no state.  The lemmas `fails_*` compute `Fails` of the constructs of the `do`
notation; a part that never fails is skipped by `fails_bind_never` if it is the rest of a program,
and by `fails_bind_of_run` if it is the beginning and its result is known. -/

namespace Programs

variable {σ ε α β : Type} {E : ε → Prop}

/-- `m`, started in `s`, stops for a reason in `E`. -/
def Fails (E : ε → Prop) (m : Program σ ε α) (s : σ) : Prop := ∃ e, m.run s = .error e ∧ E e

/-- `m` does not stop for a reason in `E`. -/
def Never (E : ε → Prop) (m : Program σ ε α) : Prop := ∀ s, ¬ Fails E m s

theorem fails_iff {m : Program σ ε α} {s : σ} :
    Fails E m s ↔ match m.run s with
      | .error e => E e
      | .ok _ => False := by
  unfold Fails
  cases m.run s with
  | error e => simp
  | ok p => simp

instance [DecidablePred E] (m : Program σ ε α) (s : σ) : Decidable (Fails E m s) :=
  match h : m.run s with
  | .error e => decidable_of_iff (E e) (by rw [fails_iff, h])
  | .ok _ => isFalse (by rw [fails_iff, h]; exact id)

theorem not_fails_of_run {m : Program σ ε α} {s s' : σ} {a : α} (h : m.run s = .ok (a, s')) :
    ¬ Fails E m s := by
  rintro ⟨e, he, -⟩
  rw [h] at he
  cases he

@[simp] theorem fails_pure (a : α) (s : σ) : ¬ Fails E (pure a : Program σ ε α) s :=
  not_fails_of_run rfl

@[simp] theorem fails_get (s : σ) : ¬ Fails E (get : Program σ ε σ) s := not_fails_of_run rfl

@[simp] theorem fails_modify (f : σ → σ) (s : σ) : ¬ Fails E (modify f : Program σ ε PUnit) s :=
  not_fails_of_run rfl

@[simp] theorem fails_throw (e : ε) (s : σ) : Fails E (throw e : Program σ ε α) s ↔ E e := by
  constructor
  · rintro ⟨e', he, hE⟩
    cases he
    exact hE
  · intro hE
    exact ⟨e, rfl, hE⟩

theorem fails_bind {m : Program σ ε α} {f : α → Program σ ε β} {s : σ} :
    Fails E (m >>= f) s ↔ Fails E m s ∨ ∃ a s', m.run s = .ok (a, s') ∧ Fails E (f a) s' := by
  unfold Fails
  rw [StateT.run_bind]
  cases hm : m.run s with
  | error e =>
      constructor
      · rintro ⟨e', he, hE⟩
        cases he
        exact .inl ⟨e, rfl, hE⟩
      · rintro (⟨e', he, hE⟩ | ⟨a, s', he, -⟩)
        · cases he
          exact ⟨e, rfl, hE⟩
        · cases he
  | ok p =>
      obtain ⟨a, s₁⟩ := p
      constructor
      · rintro ⟨e, he, hE⟩
        exact .inr ⟨a, s₁, rfl, e, he, hE⟩
      · rintro (⟨e, he, -⟩ | ⟨a', s', he, e, hf, hE⟩)
        · cases he
        · cases he
          exact ⟨e, hf, hE⟩

/-- A beginning whose result is known. -/
theorem fails_bind_of_run {m : Program σ ε α} {f : α → Program σ ε β} {s s' : σ} {a : α}
    (h : m.run s = .ok (a, s')) : Fails E (m >>= f) s ↔ Fails E (f a) s' := by
  rw [fails_bind]
  constructor
  · rintro (hm | ⟨a', s'', hr, hf⟩)
    · exact absurd hm (not_fails_of_run h)
    · rw [h] at hr
      cases hr
      exact hf
  · intro hf
    exact .inr ⟨a, s', h, hf⟩

/-- A rest that never fails. -/
theorem fails_bind_never {m : Program σ ε α} {f : α → Program σ ε β} (hf : ∀ a, Never E (f a))
    {s : σ} : Fails E (m >>= f) s ↔ Fails E m s := by
  rw [fails_bind]
  constructor
  · rintro (hm | ⟨a, s', -, hr⟩)
    · exact hm
    · exact absurd hr (hf a s')
  · exact .inl

@[simp] theorem fails_pure_bind (a : α) (f : α → Program σ ε β) (s : σ) :
    Fails E (pure a >>= f) s ↔ Fails E (f a) s := fails_bind_of_run rfl

@[simp] theorem fails_get_bind (f : σ → Program σ ε β) (s : σ) :
    Fails E (get >>= f) s ↔ Fails E (f s) s := fails_bind_of_run rfl

@[simp] theorem fails_modify_bind (g : σ → σ) (f : PUnit → Program σ ε β) (s : σ) :
    Fails E (modify g >>= f) s ↔ Fails E (f ⟨⟩) (g s) := fails_bind_of_run rfl

/-- A beginning that stops. -/
theorem fails_bind_of_error {m : Program σ ε α} {f : α → Program σ ε β} {s : σ} {e : ε}
    (h : m.run s = .error e) : Fails E (m >>= f) s ↔ E e := by
  rw [fails_bind]
  constructor
  · rintro (⟨e', he, hE⟩ | ⟨a, s', hr, -⟩)
    · rw [h] at he
      cases he
      exact hE
    · rw [h] at hr
      cases hr
  · intro hE
    exact .inl ⟨e, h, hE⟩

@[simp] theorem fails_throw_bind (e : ε) (f : α → Program σ ε β) (s : σ) :
    Fails E ((throw e : Program σ ε α) >>= f) s ↔ E e := fails_bind_of_error rfl

@[simp] theorem fails_bind_assoc {γ : Type} (m : Program σ ε α) (f : α → Program σ ε β)
    (g : β → Program σ ε γ) (s : σ) :
    Fails E (m >>= f >>= g) s ↔ Fails E (m >>= fun a => f a >>= g) s := by
  rw [bind_assoc]

@[simp] theorem fails_ite (c : Prop) [Decidable c] (m n : Program σ ε α) (s : σ) :
    Fails E (if c then m else n) s ↔ (c ∧ Fails E m s) ∨ (¬ c ∧ Fails E n s) := by
  by_cases hc : c <;> simp [hc]

/-! ### Programs that never fail -/

theorem Never.pure (a : α) : Never E (Pure.pure a : Program σ ε α) := fails_pure a

theorem Never.get : Never E (MonadState.get : Program σ ε σ) := fails_get

theorem Never.modify (f : σ → σ) :
    Never E (MonadStateOf.modifyGet fun s => (PUnit.unit, f s) : Program σ ε PUnit) :=
  fails_modify f

theorem Never.throw {e : ε} (h : ¬ E e) : Never E (MonadExcept.throw e : Program σ ε α) := by
  intro s hs
  exact h ((fails_throw e s).mp hs)

theorem Never.bind {m : Program σ ε α} {f : α → Program σ ε β} (hm : Never E m)
    (hf : ∀ a, Never E (f a)) : Never E (m >>= f) := by
  intro s hs
  exact hm s ((fails_bind_never hf).mp hs)

theorem Never.ite {c : Prop} [Decidable c] {m n : Program σ ε α} (hm : c → Never E m)
    (hn : ¬ c → Never E n) : Never E (if c then m else n) := by
  split_ifs with hc
  · exact hm hc
  · exact hn hc

end Programs
