import Mathlib

/-! # Bytes in memory

`Memory` is what a pointer leads to: the byte at every offset.  `word m n a` is the unsigned
integer of `n` bytes that is stored at `a`, the least significant byte first; `toBytes n v` are
the bytes of `v` in that order and `toBytesBE n v` in network order.

`Holds m a bs` says that `m` has the bytes `bs` at `a`.  Reading a word of an object that is
held gives back the value it was made of (`Holds.word_toBytes`), and what is read depends only
on the bytes that are read (`word_congr`). -/

namespace Bytes

/-- The bytes that a pointer leads to. -/
abbrev Memory := ℕ → UInt8

/-! ### Integers -/

/-- The number with the bytes `bs`, the least significant first. -/
def ofBytes (bs : List UInt8) : ℕ := Nat.ofDigits 256 (bs.map UInt8.toNat)

/-- The `n` bytes of `v`, the least significant first. -/
def toBytes : ℕ → ℕ → List UInt8
  | 0, _ => []
  | n + 1, v => UInt8.ofNat v :: toBytes n (v / 256)

/-- The `n` bytes of `v` in network order. -/
def toBytesBE (n v : ℕ) : List UInt8 := (toBytes n v).reverse

@[simp] theorem ofBytes_nil : ofBytes [] = 0 := rfl

@[simp] theorem ofBytes_cons (b : UInt8) (bs : List UInt8) :
    ofBytes (b :: bs) = b.toNat + 256 * ofBytes bs := by
  simp [ofBytes, Nat.ofDigits_cons]

@[simp] theorem length_toBytes (n v : ℕ) : (toBytes n v).length = n := by
  induction n generalizing v with
  | zero => rfl
  | succ n ih => rw [toBytes, List.length_cons, ih]

@[simp] theorem length_toBytesBE (n v : ℕ) : (toBytesBE n v).length = n := by
  rw [toBytesBE, List.length_reverse, length_toBytes]

theorem ofBytes_toBytes (n v : ℕ) : ofBytes (toBytes n v) = v % 256 ^ n := by
  induction n generalizing v with
  | zero => rw [toBytes, ofBytes_nil, pow_zero, Nat.mod_one]
  | succ n ih =>
      have hb : (UInt8.ofNat v).toNat = v % 256 := UInt8.toNat_ofNat'
      rw [toBytes, ofBytes_cons, ih, hb, pow_succ', Nat.mod_mul]

theorem ofBytes_lt (bs : List UInt8) : ofBytes bs < 256 ^ bs.length := by
  have h : ∀ d ∈ bs.map UInt8.toNat, d < 256 := by
    intro d hd
    obtain ⟨b, -, rfl⟩ := List.mem_map.mp hd
    exact b.toNat_lt
  have hlt := Nat.ofDigits_lt_base_pow_length (by norm_num) h
  rwa [List.length_map] at hlt

/-- Two numbers of `n` bytes have the same bytes only if they are equal. -/
theorem toBytes_inj {n v w : ℕ} (hv : v < 256 ^ n) (hw : w < 256 ^ n)
    (h : toBytes n v = toBytes n w) : v = w := by
  have he := congrArg ofBytes h
  rwa [ofBytes_toBytes, ofBytes_toBytes, Nat.mod_eq_of_lt hv, Nat.mod_eq_of_lt hw] at he

/-! ### Reading -/

/-- The `n` bytes at `a`. -/
def read (m : Memory) (n a : ℕ) : List UInt8 := (List.range n).map fun i => m (a + i)

/-- The unsigned integer of `n` bytes at `a`. -/
def word (m : Memory) (n a : ℕ) : ℕ := ofBytes (read m n a)

/-- An integer of 4 bytes in network order. -/
def wordBE (m : Memory) (n a : ℕ) : ℕ := ofBytes (read m n a).reverse

@[simp] theorem length_read (m : Memory) (n a : ℕ) : (read m n a).length = n := by
  rw [read, List.length_map, List.length_range]

theorem word_lt (m : Memory) (n a : ℕ) : word m n a < 256 ^ n := by
  have h := ofBytes_lt (read m n a)
  rwa [length_read] at h

@[simp] theorem word_one (m : Memory) (a : ℕ) : word m 1 a = (m a).toNat := by
  simp [word, read]

/-- What is read depends only on the bytes that are read. -/
theorem read_congr {m m' : Memory} {n a : ℕ} (h : ∀ i, a ≤ i → i < a + n → m i = m' i) :
    read m n a = read m' n a := by
  apply List.map_congr_left
  intro i hi
  have hi := List.mem_range.mp hi
  exact h (a + i) (by omega) (by omega)

theorem word_congr {m m' : Memory} {n a : ℕ} (h : ∀ i, a ≤ i → i < a + n → m i = m' i) :
    word m n a = word m' n a := by
  rw [word, word, read_congr h]

theorem wordBE_congr {m m' : Memory} {n a : ℕ} (h : ∀ i, a ≤ i → i < a + n → m i = m' i) :
    wordBE m n a = wordBE m' n a := by
  rw [wordBE, wordBE, read_congr h]

/-- The memory from `b` on. -/
def shift (m : Memory) (b : ℕ) : Memory := fun i => m (b + i)

theorem word_shift (m : Memory) (b n a : ℕ) : word (shift m b) n a = word m n (b + a) := by
  unfold word read shift
  simp only [Nat.add_assoc]

/-! ### Objects -/

/-- `m` has the bytes `bs` at `a`. -/
def Holds (m : Memory) (a : ℕ) (bs : List UInt8) : Prop := read m bs.length a = bs

theorem holds_iff {m : Memory} {a : ℕ} {bs : List UInt8} :
    Holds m a bs ↔ ∀ i (h : i < bs.length), m (a + i) = bs[i] := by
  constructor
  · intro h i hi
    have hi' : i < (read m bs.length a).length := by rwa [length_read]
    have hget : (read m bs.length a)[i] = m (a + i) := by simp [read]
    rw [← hget]
    exact List.getElem_of_eq h hi'
  · intro h
    apply List.ext_getElem
    · exact length_read m bs.length a
    · intro i h₁ h₂
      rw [← h i h₂]
      simp [read]

theorem holds_append {m : Memory} {a : ℕ} {xs ys : List UInt8} :
    Holds m a (xs ++ ys) ↔ Holds m a xs ∧ Holds m (a + xs.length) ys := by
  constructor
  · intro h
    have h := holds_iff.mp h
    constructor <;> rw [holds_iff]
    · intro i hi
      have hlen : i < (xs ++ ys).length := by rw [List.length_append]; omega
      rw [h i hlen, List.getElem_append_left hi]
    · intro i hi
      have hlen : xs.length + i < (xs ++ ys).length := by rw [List.length_append]; omega
      have he := h (xs.length + i) hlen
      rw [List.getElem_append_right (by omega)] at he
      rw [Nat.add_assoc, he]
      congr 1
      omega
  · rintro ⟨hx, hy⟩
    rw [holds_iff] at hx hy ⊢
    intro i hi
    by_cases hlt : i < xs.length
    · rw [List.getElem_append_left hlt]
      exact hx i hlt
    · have hlen : i - xs.length < ys.length := by
        rw [List.length_append] at hi
        omega
      have he := hy (i - xs.length) hlen
      rw [List.getElem_append_right (by omega), ← he]
      congr 1
      omega

theorem Holds.word {m : Memory} {a : ℕ} {bs : List UInt8} (h : Holds m a bs) :
    word m bs.length a = ofBytes bs := congrArg ofBytes h

/-- A stored integer is read. -/
theorem Holds.word_toBytes {m : Memory} {a n v : ℕ} (h : Holds m a (toBytes n v))
    (hv : v < 256 ^ n) : Bytes.word m n a = v := by
  have hw := h.word
  rwa [length_toBytes, ofBytes_toBytes, Nat.mod_eq_of_lt hv] at hw

theorem Holds.wordBE_toBytesBE {m : Memory} {a n v : ℕ} (h : Holds m a (toBytesBE n v))
    (hv : v < 256 ^ n) : wordBE m n a = v := by
  have hr : read m n a = toBytesBE n v := by
    have := h
    rwa [Holds, length_toBytesBE] at this
  rw [wordBE, hr, toBytesBE, List.reverse_reverse, ofBytes_toBytes, Nat.mod_eq_of_lt hv]

/-- A buffer that holds `bs`; what lies beyond it is `beyond`. -/
def buffer (bs : List UInt8) (beyond : Memory) : Memory := fun i => bs.getD i (beyond i)

theorem buffer_of_lt {bs : List UInt8} {beyond : Memory} {i : ℕ} (h : i < bs.length) :
    buffer bs beyond i = bs[i] := by
  rw [buffer, List.getD_eq_getElem bs (beyond i) h]

theorem buffer_holds (bs : List UInt8) (beyond : Memory) : Holds (buffer bs beyond) 0 bs := by
  rw [holds_iff]
  intro i hi
  rw [Nat.zero_add, buffer_of_lt hi]

/-- Inside the buffer, what lies beyond it is not seen. -/
theorem word_buffer {bs : List UInt8} {m m' : Memory} {n a : ℕ} (h : a + n ≤ bs.length) :
    word (buffer bs m) n a = word (buffer bs m') n a := by
  apply word_congr
  intro i _ hi
  rw [buffer_of_lt (by omega), buffer_of_lt (by omega)]

end Bytes
