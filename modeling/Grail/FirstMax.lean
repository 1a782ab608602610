import Mathlib

/-! # The first of the greatest members of a list

`IsFirstMax p key l a`: among the members of `l` with the property `p`, none has a greater key
than `a`, and all before `a` have smaller ones.  It is what a scan from left to right keeps that
replaces its candidate by members with a strictly greater key (`concat_new`, `concat_old`), and
there is at most one such position (`unique`).

Whether all orders of a list lead to candidates with the same value `f` depends on its members
only (`perm_agree_iff`). -/

namespace FirstMax

variable {α β γ : Type} [LinearOrder β]

/-- `a` is the first of the greatest members of `l` with the property `p`. -/
structure IsFirstMax (p : α → Prop) (key : α → β) (l : List α) (a : α) : Prop where
  holds : p a
  split : ∃ l₁ l₂, l = l₁ ++ a :: l₂ ∧ (∀ x ∈ l₁, p x → key x < key a) ∧
    ∀ x ∈ l₂, p x → key x ≤ key a

variable {p : α → Prop} {key : α → β} {l : List α} {a b x : α}

theorem IsFirstMax.mem (h : IsFirstMax p key l a) : a ∈ l := by
  obtain ⟨l₁, l₂, rfl, -, -⟩ := h.split
  exact List.mem_append_right l₁ List.mem_cons_self

theorem IsFirstMax.le (h : IsFirstMax p key l a) (hx : x ∈ l) (hp : p x) : key x ≤ key a := by
  obtain ⟨l₁, l₂, rfl, h₁, h₂⟩ := h.split
  rcases List.mem_append.mp hx with hx | hx
  · exact (h₁ x hx hp).le
  · rcases List.mem_cons.mp hx with rfl | hx
    · exact le_rfl
    · exact h₂ x hx hp

/-! ### The scan -/

/-- The new member is not a better one. -/
theorem IsFirstMax.concat_old (h : IsFirstMax p key l a) (hx : p x → key x ≤ key a) :
    IsFirstMax p key (l ++ [x]) a := by
  obtain ⟨l₁, l₂, rfl, h₁, h₂⟩ := h.split
  refine ⟨h.holds, l₁, l₂ ++ [x], by simp, h₁, ?_⟩
  intro y hy hp
  rcases List.mem_append.mp hy with hy | hy
  · exact h₂ y hy hp
  · obtain rfl := List.mem_singleton.mp hy
    exact hx hp

/-- The new member is better than all before. -/
theorem concat_new (hx : p x) (h : ∀ y ∈ l, p y → key y < key x) :
    IsFirstMax p key (l ++ [x]) x :=
  ⟨hx, l, [], rfl, h, fun _ hy => absurd hy List.not_mem_nil⟩

theorem IsFirstMax.unique (ha : IsFirstMax p key l a) (hb : IsFirstMax p key l b) : a = b := by
  obtain ⟨l₁, l₂, hl, ha₁, ha₂⟩ := ha.split
  obtain ⟨m₁, m₂, hm, hb₁, hb₂⟩ := hb.split
  rcases List.append_eq_append_iff.mp (hl.symm.trans hm) with ⟨c, hc, hd⟩ | ⟨c, hc, hd⟩
  · cases c with
    | nil => exact (List.cons.inj hd).1
    | cons y c =>
        obtain ⟨rfl, htl⟩ := List.cons.inj hd
        have hlt : key a < key b := hb₁ a (by simp [hc]) ha.holds
        have hle : key b ≤ key a := ha₂ b (htl ▸ List.mem_append_right c List.mem_cons_self) hb.holds
        exact absurd hlt hle.not_gt
  · cases c with
    | nil => exact (List.cons.inj hd).1.symm
    | cons y c =>
        obtain ⟨rfl, htl⟩ := List.cons.inj hd
        have hlt : key b < key a := ha₁ b (by simp [hc]) hb.holds
        have hle : key a ≤ key b := hb₂ a (htl ▸ List.mem_append_right c List.mem_cons_self) ha.holds
        exact absurd hlt hle.not_gt

/-- A list with a member that has the property has a first greatest one. -/
theorem exists_isFirstMax (p : α → Prop) (key : α → β) (l : List α) :
    (∃ a, IsFirstMax p key l a) ∨ ∀ x ∈ l, ¬ p x := by
  induction l using List.reverseRecOn with
  | nil => exact Or.inr fun x hx => absurd hx List.not_mem_nil
  | append_singleton l x ih =>
      by_cases hp : p x
      · rcases ih with ⟨a, ha⟩ | hl
        · by_cases hle : key x ≤ key a
          · exact Or.inl ⟨a, ha.concat_old fun _ => hle⟩
          · have hlt := lt_of_not_ge hle
            exact Or.inl ⟨x, concat_new hp fun y hy hpy => (ha.le hy hpy).trans_lt hlt⟩
        · exact Or.inl ⟨x, concat_new hp fun y hy hpy => absurd hpy (hl y hy)⟩
      · rcases ih with ⟨a, ha⟩ | hl
        · exact Or.inl ⟨a, ha.concat_old fun hpx => absurd hpx hp⟩
        · refine Or.inr fun y hy => ?_
          rcases List.mem_append.mp hy with hy | hy
          · exact hl y hy
          · obtain rfl := List.mem_singleton.mp hy
            exact hp

/-! ### Orders of a list -/

/-- `a` has the greatest key among the members of `l` with the property `p`. -/
def IsMax (p : α → Prop) (key : α → β) (l : List α) (a : α) : Prop :=
  a ∈ l ∧ p a ∧ ∀ x ∈ l, p x → key x ≤ key a

theorem IsFirstMax.isMax (h : IsFirstMax p key l a) : IsMax p key l a :=
  ⟨h.mem, h.holds, fun _ hx hp => h.le hx hp⟩

/-- Every greatest member is the first one in some order. -/
theorem IsMax.exists_perm (h : IsMax p key l a) : ∃ l', l'.Perm l ∧ IsFirstMax p key l' a := by
  obtain ⟨hmem, hp, hle⟩ := h
  obtain ⟨l₁, l₂, rfl⟩ := List.append_of_mem hmem
  refine ⟨a :: (l₁ ++ l₂), List.perm_middle.symm, hp, [], l₁ ++ l₂, rfl, ?_, ?_⟩
  · exact fun _ hx => absurd hx List.not_mem_nil
  · intro x hx hpx
    refine hle x ?_ hpx
    rcases List.mem_append.mp hx with hx | hx
    · exact List.mem_append_left _ hx
    · exact List.mem_append_right _ (List.mem_cons_of_mem a hx)

/-- The first greatest members of any two orders agree in `f` if and only if all greatest members
do. -/
theorem perm_agree_iff (f : α → γ) :
    (∀ l₁ l₂ a b, l₁.Perm l → l₂.Perm l → IsFirstMax p key l₁ a → IsFirstMax p key l₂ b →
      f a = f b) ↔ ∀ a b, IsMax p key l a → IsMax p key l b → f a = f b := by
  constructor
  · intro h a b ha hb
    obtain ⟨l₁, hl₁, ha⟩ := ha.exists_perm
    obtain ⟨l₂, hl₂, hb⟩ := hb.exists_perm
    exact h l₁ l₂ a b hl₁ hl₂ ha hb
  · intro h l₁ l₂ a b hl₁ hl₂ ha hb
    have hmax : ∀ l' c, l'.Perm l → IsMax p key l' c → IsMax p key l c := by
      intro l' c hl' hc
      exact ⟨hl'.mem_iff.mp hc.1, hc.2.1, fun x hx => hc.2.2 x (hl'.mem_iff.mpr hx)⟩
    exact h a b (hmax l₁ a hl₁ ha.isMax) (hmax l₂ b hl₂ hb.isMax)

end FirstMax
