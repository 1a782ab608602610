import Mathlib

/-! # Ordered maps

`StdMap κ α` is a map from `κ` to `α` kept as the list of its entries in increasing order of
the keys, the order in which an iteration visits them.  The order is a field of the
structure, so no unordered list can be a map.  The interface is lookup (`find`), assignment
(`assign`), erasure (`erase`), the entries in order and the set of keys, with the laws of
lookup after each update. -/

variable {κ α : Type} [LinearOrder κ]

/-- Lookup in a list of entries. -/
def StdMap.lookup : List (κ × α) → κ → Option α
  | [], _ => none
  | e :: es, k => if e.1 = k then some e.2 else StdMap.lookup es k

/-- Assignment in an ordered list of entries. -/
def StdMap.place (k : κ) (v : α) : List (κ × α) → List (κ × α)
  | [] => [(k, v)]
  | e :: es =>
      if k < e.1 then (k, v) :: e :: es
      else if k = e.1 then (k, v) :: es
      else e :: StdMap.place k v es

theorem StdMap.place_key {k : κ} {v : α} {x : κ} :
    ∀ {es : List (κ × α)}, x ∈ (StdMap.place k v es).map Prod.fst →
      x = k ∨ x ∈ es.map Prod.fst
  | [], h => by simpa [StdMap.place] using h
  | e :: es, h => by
      unfold StdMap.place at h
      split_ifs at h with h₁ h₂
      · simpa using h
      · subst h₂
        right
        simpa using h
      · rw [List.map_cons, List.mem_cons] at h
        rcases h with h | h
        · exact Or.inr (by simp [h])
        · rcases StdMap.place_key h with h | h
          · exact Or.inl h
          · exact Or.inr (List.mem_cons_of_mem _ h)

theorem StdMap.place_sorted (k : κ) (v : α) :
    ∀ {es : List (κ × α)}, (es.map Prod.fst).Pairwise (· < ·) →
      ((StdMap.place k v es).map Prod.fst).Pairwise (· < ·)
  | [], _ => by simp [StdMap.place]
  | e :: es, h => by
      obtain ⟨he, hs⟩ := List.pairwise_cons.mp h
      unfold StdMap.place
      split_ifs with h₁ h₂
      · refine List.pairwise_cons.mpr ⟨?_, h⟩
        intro x hx
        rcases List.mem_cons.mp hx with rfl | hx
        · exact h₁
        · exact h₁.trans (he x hx)
      · subst h₂
        exact h
      · refine List.pairwise_cons.mpr ⟨?_, StdMap.place_sorted k v hs⟩
        intro x hx
        rcases StdMap.place_key hx with rfl | hx
        · exact lt_of_le_of_ne (not_lt.mp h₁) (Ne.symm h₂)
        · exact he x hx

/-- A map with its entries in increasing order of the keys. -/
structure StdMap (κ α : Type) [LinearOrder κ] where
  entries : List (κ × α)
  sorted : (entries.map Prod.fst).Pairwise (· < ·)

namespace StdMap

/-- The map without entries. -/
def empty : StdMap κ α := ⟨[], List.Pairwise.nil⟩

/-- The value of key `k`, if there is one. -/
def find (m : StdMap κ α) (k : κ) : Option α := lookup m.entries k

/-- `m[k] = v`. -/
def assign (m : StdMap κ α) (k : κ) (v : α) : StdMap κ α :=
  ⟨place k v m.entries, place_sorted k v m.sorted⟩

/-- `m.erase(k)`. -/
def erase (m : StdMap κ α) (k : κ) : StdMap κ α :=
  ⟨m.entries.filter (fun e => e.1 ≠ k), m.sorted.sublist (List.filter_sublist.map _)⟩

/-- The set of keys. -/
def keys (m : StdMap κ α) : Finset κ := (m.entries.map Prod.fst).toFinset

theorem lookup_place_self (k : κ) (v : α) :
    ∀ es : List (κ × α), lookup (place k v es) k = some v
  | [] => by simp [place, lookup]
  | e :: es => by
      unfold place
      split_ifs with h₁ h₂
      · simp [lookup]
      · simp [lookup]
      · simp [lookup, Ne.symm h₂, lookup_place_self k v es]

theorem lookup_place_ne {k x : κ} (v : α) (hx : x ≠ k) :
    ∀ es : List (κ × α), lookup (place k v es) x = lookup es x
  | [] => by simp [place, lookup, Ne.symm hx]
  | e :: es => by
      unfold place
      split_ifs with h₁ h₂
      · simp [lookup, Ne.symm hx]
      · subst h₂
        simp [lookup, Ne.symm hx]
      · simp [lookup, lookup_place_ne v hx es]

theorem lookup_filter_ne {k x : κ} (hx : x ≠ k) :
    ∀ es : List (κ × α), lookup (es.filter (fun e => e.1 ≠ k)) x = lookup es x
  | [] => rfl
  | e :: es => by
      by_cases he : e.1 = k
      · have hex : e.1 ≠ x := fun h => hx (h.symm.trans he)
        simpa [he, lookup, hex, Ne.symm hx] using lookup_filter_ne hx es
      · simpa [he, lookup] using by
          rw [show (es.filter fun e => !decide (e.1 = k)) = es.filter (fun e => e.1 ≠ k) by simp,
            lookup_filter_ne hx es]

theorem lookup_isSome_iff {k : κ} :
    ∀ {es : List (κ × α)}, (lookup es k).isSome = true ↔ k ∈ es.map Prod.fst
  | [] => by simp [lookup]
  | e :: es => by
      unfold lookup
      split_ifs with h
      · simp [h]
      · rw [lookup_isSome_iff]
        simp [Ne.symm h]

@[simp] theorem find_empty (k : κ) : (empty : StdMap κ α).find k = none := rfl

@[simp] theorem find_assign_self (m : StdMap κ α) (k : κ) (v : α) : (m.assign k v).find k = some v :=
  lookup_place_self k v m.entries

theorem find_assign_ne (m : StdMap κ α) {k x : κ} (v : α) (hx : x ≠ k) :
    (m.assign k v).find x = m.find x := lookup_place_ne v hx m.entries

theorem find_assign (m : StdMap κ α) (k : κ) (v : α) (x : κ) :
    (m.assign k v).find x = if x = k then some v else m.find x := by
  by_cases hx : x = k
  · simp [hx]
  · rw [if_neg hx, find_assign_ne m v hx]

theorem find_erase_ne (m : StdMap κ α) {k x : κ} (hx : x ≠ k) : (m.erase k).find x = m.find x :=
  lookup_filter_ne hx m.entries

theorem mem_keys {m : StdMap κ α} {k : κ} : k ∈ m.keys ↔ (m.find k).isSome = true := by
  rw [keys, List.mem_toFinset, find, lookup_isSome_iff]

theorem find_eq_none {m : StdMap κ α} {k : κ} : m.find k = none ↔ k ∉ m.keys := by
  rw [mem_keys, Bool.not_eq_true, Option.isSome_eq_false_iff, Option.isNone_iff_eq_none]

theorem mem_keys_of_find {m : StdMap κ α} {k : κ} {v : α} (h : m.find k = some v) : k ∈ m.keys := by
  rw [mem_keys, h]; rfl

@[simp] theorem keys_empty : (empty : StdMap κ α).keys = ∅ := rfl

@[simp] theorem keys_assign (m : StdMap κ α) (k : κ) (v : α) :
    (m.assign k v).keys = insert k m.keys := by
  ext x
  rw [mem_keys, find_assign, Finset.mem_insert, mem_keys]
  by_cases hx : x = k <;> simp [hx]

@[simp] theorem keys_erase (m : StdMap κ α) (k : κ) : (m.erase k).keys = m.keys.erase k := by
  ext x
  simp only [keys, erase, List.mem_toFinset, List.mem_map, List.mem_filter, Finset.mem_erase]
  constructor
  · rintro ⟨e, ⟨he, hk⟩, rfl⟩
    exact ⟨by simpa using hk, e, he, rfl⟩
  · rintro ⟨hk, e, he, rfl⟩
    exact ⟨e, ⟨he, by simpa using hk⟩, rfl⟩

@[simp] theorem find_erase_self (m : StdMap κ α) (k : κ) : (m.erase k).find k = none := by
  rw [find_eq_none, keys_erase]
  exact Finset.notMem_erase k m.keys

theorem find_erase (m : StdMap κ α) (k x : κ) :
    (m.erase k).find x = if x = k then none else m.find x := by
  by_cases hx : x = k
  · simp [hx]
  · rw [if_neg hx, find_erase_ne m hx]

theorem lookup_of_mem {k : κ} {v : α} :
    ∀ {es : List (κ × α)}, (es.map Prod.fst).Pairwise (· < ·) → (k, v) ∈ es →
      lookup es k = some v
  | e :: es, hs, h => by
      obtain ⟨he, hs⟩ := List.pairwise_cons.mp hs
      unfold lookup
      rcases List.mem_cons.mp h with rfl | h
      · simp
      · have hk : k ∈ es.map Prod.fst := List.mem_map.mpr ⟨(k, v), h, rfl⟩
        rw [if_neg (he k hk).ne, lookup_of_mem hs h]

theorem mem_of_lookup {k : κ} {v : α} :
    ∀ {es : List (κ × α)}, lookup es k = some v → (k, v) ∈ es
  | e :: es, h => by
      unfold lookup at h
      split_ifs at h with hk
      · cases h
        subst hk
        exact List.mem_cons_self
      · exact List.mem_cons_of_mem _ (mem_of_lookup h)

/-- The entries an iteration visits are the pairs that lookup finds. -/
theorem mem_entries {m : StdMap κ α} {k : κ} {v : α} :
    (k, v) ∈ m.entries ↔ m.find k = some v :=
  ⟨lookup_of_mem m.sorted, mem_of_lookup⟩

/-- No key is visited twice. -/
theorem nodup_keys (m : StdMap κ α) : (m.entries.map Prod.fst).Nodup :=
  m.sorted.imp fun h => h.ne

end StdMap
