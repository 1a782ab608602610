import Grail.Bytes

/-! # Partially mapped memory

`Space` is an address space, a partial map from addresses to bytes: an access to a range succeeds
exactly if all of its bytes are mapped (`Mapped`).

`Copied src dst dst' a b n` says that `dst'` is `dst` with the `n` cells of `src` from `a` on at
`b`, and nothing else changed.  The copies of one object after the other are a copy
(`Copied.append`), and a copy is determined by its source (`Copied.unique`). -/

namespace AddressSpace

/-- The bytes at the mapped addresses. -/
abbrev Space := ℕ → Option UInt8

/-- The `n` bytes from `a` on are mapped. -/
def Mapped (m : Space) (a n : ℕ) : Prop := ∀ i < n, (m (a + i)).isSome = true

instance (m : Space) (a n : ℕ) : Decidable (Mapped m a n) :=
  inferInstanceAs (Decidable (∀ i < n, (m (a + i)).isSome = true))

theorem Mapped.mono {m : Space} {a n k : ℕ} (h : Mapped m a n) (hk : k ≤ n) : Mapped m a k :=
  fun i hi => h i (hi.trans_le hk)

/-- A part of a mapped range. -/
theorem Mapped.shift {m : Space} {a n i k : ℕ} (h : Mapped m a n) (hk : i + k ≤ n) :
    Mapped m (a + i) k := by
  intro j hj
  rw [Nat.add_assoc]
  exact h (i + j) (by omega)

theorem Mapped.some_getD {m : Space} {a n i : ℕ} (h : Mapped m a n) (hi : i < n) (b : UInt8) :
    m (a + i) = some ((m (a + i)).getD b) := by
  obtain ⟨v, hv⟩ := Option.isSome_iff_exists.mp (h i hi)
  rw [hv]
  rfl

/-! ### Cells -/

section cells

variable {β : Type}

/-- The `n` cells from `a` on. -/
def cells (m : ℕ → β) (a n : ℕ) : List β := (List.range n).map fun i => m (a + i)

/-- The cells `bs` are stored at `a`. -/
def store (m : ℕ → β) (a : ℕ) (bs : List β) : ℕ → β := fun x =>
  if a ≤ x then bs.getD (x - a) (m x) else m x

@[simp] theorem length_cells (m : ℕ → β) (a n : ℕ) : (cells m a n).length = n := by
  rw [cells, List.length_map, List.length_range]

theorem store_of_lt {m : ℕ → β} {a i : ℕ} {bs : List β} (h : i < bs.length) :
    store m a bs (a + i) = bs[i] := by
  simp only [store, Nat.le_add_right, if_true, Nat.add_sub_cancel_left]
  exact List.getD_eq_getElem bs _ h

theorem store_outside {m : ℕ → β} {a x : ℕ} {bs : List β} (h : ¬ (a ≤ x ∧ x < a + bs.length)) :
    store m a bs x = m x := by
  unfold store
  split_ifs with hx
  · exact List.getD_eq_default bs _ (by omega)
  · rfl

/-- `dst'` is `dst` with the `n` cells of `src` from `a` on at `b`. -/
structure Copied (src dst dst' : ℕ → β) (a b n : ℕ) : Prop where
  inside : ∀ i < n, dst' (b + i) = src (a + i)
  outside : ∀ x, ¬ (b ≤ x ∧ x < b + n) → dst' x = dst x

variable {src dst dst₁ dst₂ : ℕ → β} {a b n k : ℕ}

theorem Copied.zero (src dst : ℕ → β) (a b : ℕ) : Copied src dst dst a b 0 :=
  ⟨fun _ hi => absurd hi (Nat.not_lt_zero _), fun _ _ => rfl⟩

theorem Copied.append (h : Copied src dst dst₁ a b n)
    (h' : Copied src dst₁ dst₂ (a + n) (b + n) k) : Copied src dst dst₂ a b (n + k) where
  inside i hi := by
    by_cases hlt : i < n
    · rw [h'.outside (b + i) (by omega), h.inside i hlt]
    · have hk := h'.inside (i - n) (by omega)
      rwa [Nat.add_assoc, Nat.add_assoc, Nat.add_sub_cancel' (not_lt.mp hlt)] at hk
  outside x hx := by
    rw [h'.outside x (by omega), h.outside x (by omega)]

/-- The first `k` cells of `bs` are those of `src`, the others are there already. -/
theorem copied_store {bs : List β} (hk : k ≤ bs.length)
    (hsrc : ∀ i (hi : i < bs.length), i < k → bs[i] = src (a + i))
    (hdst : ∀ i (hi : i < bs.length), k ≤ i → bs[i] = dst (b + i)) :
    Copied src dst (store dst b bs) a b k where
  inside i hi := by
    rw [store_of_lt (hi.trans_le hk)]
    exact hsrc i (hi.trans_le hk) hi
  outside x hx := by
    by_cases hin : b ≤ x ∧ x < b + bs.length
    · obtain ⟨i, rfl⟩ := Nat.exists_eq_add_of_le hin.1
      rw [store_of_lt (by omega)]
      exact hdst i (by omega) (by omega)
    · exact store_outside hin

theorem Copied.unique (h₁ : Copied src dst dst₁ a b n) (h₂ : Copied src dst dst₂ a b n) :
    dst₁ = dst₂ := by
  funext x
  by_cases hx : b ≤ x ∧ x < b + n
  · have h₁ := h₁.inside (x - b) (by omega)
    have h₂ := h₂.inside (x - b) (by omega)
    rw [Nat.add_sub_cancel' hx.1] at h₁ h₂
    rw [h₁, h₂]
  · rw [h₁.outside x hx, h₂.outside x hx]

/-- What is already there. -/
theorem Copied.self (h : ∀ i < n, dst (b + i) = src (a + i)) : Copied src dst dst a b n :=
  ⟨h, fun _ _ => rfl⟩

end cells

/-! ### Words -/

/-- The `n` bytes at `a`, if they are mapped. -/
def peek (m : Space) (a n : ℕ) : Option (List UInt8) :=
  if Mapped m a n then some (cells (fun x => (m x).getD 0) a n) else none

/-- The bytes `bs` are stored at `a`, if the range is mapped. -/
def poke (m : Space) (a : ℕ) (bs : List UInt8) : Option Space :=
  if Mapped m a bs.length then some (store m a (bs.map some)) else none

theorem peek_mapped {m : Space} {a n : ℕ} (h : Mapped m a n) :
    peek m a n = some (cells (fun x => (m x).getD 0) a n) := if_pos h

theorem peek_unmapped {m : Space} {a n : ℕ} (h : ¬ Mapped m a n) : peek m a n = none := if_neg h

theorem poke_mapped {m : Space} {a : ℕ} {bs : List UInt8} (h : Mapped m a bs.length) :
    poke m a bs = some (store m a (bs.map some)) := if_pos h

theorem poke_unmapped {m : Space} {a : ℕ} {bs : List UInt8} (h : ¬ Mapped m a bs.length) :
    poke m a bs = none := if_neg h

/-- Storing maps and unmaps nothing. -/
theorem Copied.mapped {m m' : Space} {src : ℕ → UInt8} {a b n c k : ℕ}
    (h : Copied (fun x => some (src x)) m m' a b n) (hm : Mapped m c k) : Mapped m' c k := by
  intro i hi
  by_cases hx : b ≤ c + i ∧ c + i < b + n
  · have hin := h.inside (c + i - b) (by omega)
    rw [Nat.add_sub_cancel' hx.1] at hin
    rw [hin]
    rfl
  · rw [h.outside _ hx]
    exact hm i hi

end AddressSpace
