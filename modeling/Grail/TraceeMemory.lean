import Grail.AddressSpace

/-! # Copying from and to the tracee

`MemcpyFromTracee` and `MemcpyToTracee` move words of eight bytes with `PTRACE_PEEKDATA` and
`PTRACE_POKEDATA`.  The last word may reach beyond the object: its first `len % 8` bytes are used,
and the others are put back as they were.

If all words that are touched are mapped, exactly the bytes of the object are copied
(`memcpy_exact`).  The bytes behind the object are touched with the last word, though: if one of them
is unmapped, `MemcpyToTracee` ends the emulator and `MemcpyFromTracee` delivers the bytes of -1
(`memcpy_boundary`).

Addresses and lengths are natural numbers: an object whose bytes are mapped ends long before `2^64`,
so that no addition of the source wraps. -/

namespace Grail.Ptrace

open AddressSpace Bytes

def WORDSIZE : ℕ := 8

/-! ### Words -/

/-- `ptrace(PTRACE_PEEKDATA, pid, addr, 0)`: a `long` is given by its bytes. -/
def peekData (tracee : Space) (addr : ℕ) : Option (List UInt8) := peek tracee addr WORDSIZE

/-- `ptrace(PTRACE_POKEDATA, pid, addr, data)` -/
def pokeData (tracee : Space) (addr : ℕ) (data : List UInt8) : Option Space := poke tracee addr data

/-- The bytes of -1, the result of a request that fails. -/
def minusOne : List UInt8 := List.replicate WORDSIZE 0xff

/-- The rounds of `for(i=0; i<len; i+=WORDSIZE)`. -/
def rounds (len : ℕ) : ℕ := (len + (WORDSIZE - 1)) / WORDSIZE

/-- A round of `MemcpyFromTracee`; `errno` is not looked at. -/
def memcpyFromTraceeRound (tracee : Space) (dst src len : ℕ) (mem : Memory) (n : ℕ) : Memory :=
  let i := WORDSIZE * n
  let tmp := (peekData tracee (src + i)).getD minusOne
  if i + WORDSIZE ≤ len then store mem (dst + i) tmp
  else store mem (dst + i) (tmp.take (len % WORDSIZE))

/-- `MemcpyFromTracee(pid, dst, src, len)`: the final `i` and the emulator's memory. -/
def memcpyFromTracee (tracee : Space) (mem : Memory) (dst src len : ℕ) : ℕ × Memory :=
  (WORDSIZE * rounds len,
    (List.range (rounds len)).foldl (memcpyFromTraceeRound tracee dst src len) mem)

/-- A round of `MemcpyToTracee`, `none` for `exit(1)`. -/
def memcpyToTraceeRound (mem : Memory) (dst src len : ℕ) (tracee : Space) (n : ℕ) : Option Space :=
  let i := WORDSIZE * n
  if i + WORDSIZE ≤ len then pokeData tracee (dst + i) (Bytes.read mem WORDSIZE (src + i))
  else do
    let tmp ← peekData tracee (dst + i)
    pokeData tracee (dst + i)
      (Bytes.read mem (len % WORDSIZE) (src + i) ++ tmp.drop (len % WORDSIZE))

/-- `MemcpyToTracee(pid, dst, src, len)`: the final `i` and the tracee's memory. -/
def memcpyToTracee (tracee : Space) (mem : Memory) (dst src len : ℕ) : Option (ℕ × Space) :=
  ((List.range (rounds len)).foldlM (memcpyToTraceeRound mem dst src len) tracee).map
    fun tracee' => (WORDSIZE * rounds len, tracee')

/-! ### Rounds -/

/-- The bytes that have been copied after `n` rounds. -/
def moved (len n : ℕ) : ℕ := min len (WORDSIZE * n)

/-- The bytes of the last word, if it is not complete, start here. -/
def lastWord (len : ℕ) : ℕ := len - len % WORDSIZE

section rounds

variable {tracee tracee' : Space} {mem mem' : Memory} {dst src len n : ℕ}

theorem moved_zero (len : ℕ) : moved len 0 = 0 := Nat.min_zero len

theorem moved_rounds (len : ℕ) : moved len (rounds len) = len := by
  unfold moved rounds WORDSIZE
  omega

theorem moved_full (h : WORDSIZE * n + WORDSIZE ≤ len) :
    moved len n = WORDSIZE * n ∧ moved len (n + 1) = WORDSIZE * n + WORDSIZE := by
  unfold moved WORDSIZE at *
  omega

/-- In the last round fewer than `WORDSIZE` bytes are left. -/
theorem moved_last (hn : n < rounds len) (h : ¬ WORDSIZE * n + WORDSIZE ≤ len) :
    moved len n = WORDSIZE * n ∧ moved len (n + 1) = WORDSIZE * n + len % WORDSIZE ∧
      WORDSIZE * n = lastWord len := by
  unfold moved rounds lastWord WORDSIZE at *
  omega

theorem getElem_cells {m : ℕ → UInt8} {a k i : ℕ} (h : i < (cells m a k).length) :
    (cells m a k)[i] = m (a + i) := by
  simp [cells]

/-- A word that is read completely. -/
theorem peekData_mapped (h : Mapped tracee src WORDSIZE) :
    peekData tracee src = some (cells (fun x => (tracee x).getD 0) src WORDSIZE) := peek_mapped h

theorem length_peekData (tracee : Space) (a : ℕ) :
    ((peekData tracee a).getD minusOne).length = WORDSIZE := by
  by_cases h : Mapped tracee a WORDSIZE
  · rw [peekData_mapped h, Option.getD_some, length_cells]
  · rw [peekData, peek_unmapped h, Option.getD_none, minusOne, List.length_replicate]

/-- The byte that `MemcpyFromTracee` delivers at the offset `i`: that of the word it belongs to. -/
def delivered (tracee : Space) (src i : ℕ) : UInt8 :=
  ((peekData tracee (src + WORDSIZE * (i / WORDSIZE))).getD minusOne).getD (i % WORDSIZE) 0

theorem delivered_word {word : List UInt8} {i : ℕ}
    (hword : (peekData tracee (src + WORDSIZE * n)).getD minusOne = word) (hi : i < word.length) :
    delivered tracee src (WORDSIZE * n + i) = word[i] := by
  have hlt : i < WORDSIZE := by rwa [← hword, length_peekData] at hi
  have hdiv : (WORDSIZE * n + i) / WORDSIZE = n := by
    unfold WORDSIZE at *
    omega
  have hmod : (WORDSIZE * n + i) % WORDSIZE = i := by
    unfold WORDSIZE at *
    omega
  rw [delivered, hdiv, hmod, hword, List.getD_eq_getElem _ _ hi]

/-- A byte of a word that is mapped. -/
theorem delivered_mapped {i : ℕ}
    (h : Mapped tracee (src + WORDSIZE * (i / WORDSIZE)) WORDSIZE) :
    delivered tracee src i = (tracee (src + i)).getD 0 := by
  have hlt : i % WORDSIZE < WORDSIZE := Nat.mod_lt _ (by decide)
  rw [delivered, peekData_mapped h, Option.getD_some,
    List.getD_eq_getElem _ _ (by rwa [length_cells]), getElem_cells, Nat.add_assoc, Nat.div_add_mod]

/-- A round delivers the bytes of its word that belong to the object. -/
theorem memcpyFromTraceeRound_copied (hn : n < rounds len)
    (h : Copied (delivered tracee src) mem mem' 0 dst (moved len n)) :
    Copied (delivered tracee src) mem (memcpyFromTraceeRound tracee dst src len mem' n) 0 dst
      (moved len (n + 1)) := by
  unfold memcpyFromTraceeRound
  dsimp only
  have hlen := length_peekData tracee (src + WORDSIZE * n)
  generalize hword : (peekData tracee (src + WORDSIZE * n)).getD minusOne = word at hlen ⊢
  have hbyte : ∀ i (hi : i < word.length), word[i] = delivered tracee src (0 + WORDSIZE * n + i) := by
    intro i hi
    rw [Nat.zero_add, delivered_word hword hi]
  split_ifs with hfull
  · obtain ⟨h₀, h₁⟩ := moved_full hfull
    rw [h₀] at h
    rw [h₁]
    refine h.append (copied_store hlen.ge ?_ ?_)
    · exact fun i hi _ => hbyte i hi
    · intro i hi hle
      omega
  · obtain ⟨h₀, h₁, -⟩ := moved_last hn hfull
    have hr : len % WORDSIZE ≤ WORDSIZE := (Nat.mod_lt _ (by decide)).le
    rw [h₀] at h
    rw [h₁]
    refine h.append (copied_store ?_ ?_ ?_)
    · rw [List.length_take, hlen, min_eq_left hr]
    · intro i hi _
      rw [List.getElem_take]
      exact hbyte i _
    · intro i hi hle
      rw [List.length_take] at hi
      omega

theorem getElem_read {m : Memory} {a k i : ℕ} (h : i < (Bytes.read m k a).length) :
    (Bytes.read m k a)[i] = m (a + i) := by
  simp [Bytes.read]

/-- The same for the other direction: the bytes behind the object are put back. -/
theorem memcpyToTraceeRound_copied (hn : n < rounds len)
    (hm : Mapped tracee' (dst + WORDSIZE * n) WORDSIZE)
    (h : Copied (fun x => some (mem x)) tracee tracee' src dst (moved len n)) :
    ∃ tracee'', memcpyToTraceeRound mem dst src len tracee' n = some tracee'' ∧
      Copied (fun x => some (mem x)) tracee tracee'' src dst (moved len (n + 1)) := by
  unfold memcpyToTraceeRound
  dsimp only
  split_ifs with hfull
  · obtain ⟨h₀, h₁⟩ := moved_full hfull
    rw [h₀] at h
    rw [h₁]
    refine ⟨_, poke_mapped (by rwa [length_read]), h.append (copied_store ?_ ?_ ?_)⟩
    · rw [List.length_map, length_read]
    · intro i hi _
      rw [List.getElem_map, getElem_read]
    · intro i hi hle
      rw [List.length_map, length_read] at hi
      omega
  · obtain ⟨h₀, h₁, -⟩ := moved_last hn hfull
    have hr : len % WORDSIZE ≤ WORDSIZE := (Nat.mod_lt _ (by decide)).le
    rw [h₀] at h
    rw [h₁]
    rw [peekData_mapped hm]
    have hlen : (Bytes.read mem (len % WORDSIZE) (src + WORDSIZE * n) ++
        (cells (fun x => (tracee' x).getD 0) (dst + WORDSIZE * n) WORDSIZE).drop
          (len % WORDSIZE)).length = WORDSIZE := by
      rw [List.length_append, length_read, List.length_drop, length_cells]
      omega
    refine ⟨_, poke_mapped (by rwa [hlen]), h.append (copied_store ?_ ?_ ?_)⟩
    · rwa [List.length_map, hlen]
    · intro i hi hlt
      rw [List.getElem_map, List.getElem_append_left (by rwa [length_read]), getElem_read]
    · intro i hi hle
      rw [List.length_map, hlen] at hi
      rw [List.getElem_map, List.getElem_append_right (by rwa [length_read]), List.getElem_drop,
        getElem_cells]
      simp only [length_read, Nat.add_sub_cancel' hle]
      exact (hm.some_getD hi 0).symm

/-- The words of the first `n` rounds are mapped. -/
def WordsMapped (tracee : Space) (a n : ℕ) : Prop :=
  ∀ k < n, Mapped tracee (a + WORDSIZE * k) WORDSIZE

theorem WordsMapped.keep {a b k : ℕ} (hm : WordsMapped tracee dst n)
    (h : Copied (fun x => some (mem x)) tracee tracee' a b k) : WordsMapped tracee' dst n :=
  fun j hj => h.mapped (hm j hj)

theorem memcpyFromTracee_rounds (hn : n ≤ rounds len) :
    Copied (delivered tracee src) mem
      ((List.range n).foldl (memcpyFromTraceeRound tracee dst src len) mem) 0 dst
      (moved len n) := by
  induction n with
  | zero =>
      rw [moved_zero]
      exact Copied.zero _ _ _ _
  | succ n ih =>
      rw [List.range_succ, List.foldl_append]
      exact memcpyFromTraceeRound_copied hn (ih (Nat.le_of_succ_le hn))

/-- What is delivered does not depend on the length. -/
theorem memcpyFromTracee_delivered :
    Copied (delivered tracee src) mem (memcpyFromTracee tracee mem dst src len).2 0 dst len := by
  have hloop := @memcpyFromTracee_rounds tracee mem dst src len _ le_rfl
  rwa [moved_rounds] at hloop

/-- The words that are mapped are copied. -/
theorem memcpyFromTracee_loop (hn : n ≤ rounds len) (hm : WordsMapped tracee src n) :
    Copied (fun x => (tracee x).getD 0) mem
      ((List.range n).foldl (memcpyFromTraceeRound tracee dst src len) mem) src dst
      (moved len n) where
  inside i hi := by
    have hword : i / WORDSIZE < n := by
      unfold moved WORDSIZE at *
      omega
    rw [(memcpyFromTracee_rounds hn).inside i hi, Nat.zero_add, delivered_mapped (hm _ hword)]
  outside := (memcpyFromTracee_rounds hn).outside

theorem memcpyToTracee_loop (hn : n ≤ rounds len) (hm : WordsMapped tracee dst n) :
    ∃ tracee', (List.range n).foldlM (memcpyToTraceeRound mem dst src len) tracee = some tracee' ∧
      Copied (fun x => some (mem x)) tracee tracee' src dst (moved len n) := by
  induction n with
  | zero =>
      rw [moved_zero]
      exact ⟨tracee, rfl, Copied.zero _ _ _ _⟩
  | succ n ih =>
      obtain ⟨tracee₁, hloop, hcopy⟩ :=
        ih (Nat.le_of_succ_le hn) fun k hk => hm k (Nat.lt_succ_of_lt hk)
      obtain ⟨tracee₂, hround, hcopy₂⟩ := memcpyToTraceeRound_copied hn
        (hcopy.mapped (hm n (Nat.lt_succ_self n))) hcopy
      refine ⟨tracee₂, ?_, hcopy₂⟩
      rw [List.range_succ, List.foldlM_append, hloop]
      simp [hround]

/-! ### All words are mapped -/

/-- The words that are touched. -/
def Touched (tracee : Space) (a len : ℕ) : Prop := WordsMapped tracee a (rounds len)

theorem memcpyFromTracee_copied (h : Touched tracee src len) :
    Copied (fun x => (tracee x).getD 0) mem (memcpyFromTracee tracee mem dst src len).2 src dst
      len := by
  have hloop := @memcpyFromTracee_loop tracee mem dst src len _ le_rfl h
  rwa [moved_rounds] at hloop

theorem memcpyToTracee_copied (h : Touched tracee dst len) :
    ∃ tracee', memcpyToTracee tracee mem dst src len = some (WORDSIZE * rounds len, tracee') ∧
      Copied (fun x => some (mem x)) tracee tracee' src dst len := by
  obtain ⟨tracee', hloop, hcopy⟩ := @memcpyToTracee_loop tracee mem dst src len _ le_rfl h
  rw [moved_rounds] at hcopy
  refine ⟨tracee', ?_, hcopy⟩
  rw [memcpyToTracee, hloop]
  rfl

/-- The object is part of what is touched. -/
theorem Touched.mapped {a : ℕ} (h : Touched tracee a len) : Mapped tracee a len := by
  intro i hi
  have hk : i / WORDSIZE < rounds len := by
    unfold rounds WORDSIZE
    omega
  have hin := h _ hk (i % WORDSIZE) (Nat.mod_lt _ (by decide))
  rwa [Nat.add_assoc, Nat.div_add_mod] at hin

end rounds

/-- Exactly the bytes of the object are copied, from the tracee and to it; what has been copied can be
copied back, which changes nothing. -/
theorem memcpy_exact (tracee : Space) (mem : Memory) (a b len : ℕ) (h : Touched tracee a len) :
    ∃ mem' tracee',
      memcpyFromTracee tracee mem b a len = (WORDSIZE * rounds len, mem') ∧
      memcpyToTracee tracee mem a b len = some (WORDSIZE * rounds len, tracee') ∧
      (∀ i < len, tracee (a + i) = some (mem' (b + i))) ∧
      (∀ x, ¬ (b ≤ x ∧ x < b + len) → mem' x = mem x) ∧
      (∀ i < len, tracee' (a + i) = some (mem (b + i))) ∧
      (∀ x, ¬ (a ≤ x ∧ x < a + len) → tracee' x = tracee x) ∧
      memcpyFromTracee tracee' mem b a len = (WORDSIZE * rounds len, mem) ∧
      memcpyToTracee tracee mem' a b len = some (WORDSIZE * rounds len, tracee) := by
  have hin := @memcpyFromTracee_copied tracee mem b a len h
  obtain ⟨tracee', hrun, hout⟩ := @memcpyToTracee_copied tracee mem a b len h
  have hmapped := h.mapped
  have hread : ∀ i < len, tracee (a + i) =
      some ((memcpyFromTracee tracee mem b a len).2 (b + i)) := by
    intro i hi
    rw [hin.inside i hi]
    exact hmapped.some_getD hi 0
  refine ⟨(memcpyFromTracee tracee mem b a len).2, tracee', rfl, hrun, hread, hin.outside,
    hout.inside, hout.outside, ?_, ?_⟩
  · -- what is read are the bytes that have been stored
    have hback := @memcpyFromTracee_copied tracee' mem b a len (WordsMapped.keep h hout)
    have hsame : Copied (fun x => (tracee' x).getD 0) mem mem a b len := by
      refine Copied.self fun i hi => ?_
      rw [hout.inside i hi]
      rfl
    exact Prod.ext rfl (hback.unique hsame)
  · obtain ⟨tracee'', hrun', hback⟩ :=
      @memcpyToTracee_copied tracee (memcpyFromTracee tracee mem b a len).2 a b len h
    have hsame : Copied (fun x => some ((memcpyFromTracee tracee mem b a len).2 x)) tracee tracee
        b a len := Copied.self hread
    rw [hrun', hback.unique hsame]

/-- Twelve bytes from 16 on, and the four bytes behind them. -/
def sixteenBytes : Space := fun x => if 16 ≤ x ∧ x < 32 then some (UInt8.ofNat x) else none

theorem memcpy_exact_twelve :
    Touched sixteenBytes 16 12 ∧
      ∃ mem' tracee',
        memcpyFromTracee sixteenBytes (fun _ => 0) 100 16 12 = (16, mem') ∧
        memcpyToTracee sixteenBytes (fun _ => 0) 16 100 12 = some (16, tracee') ∧
        mem' 111 = 27 ∧ mem' 112 = 0 ∧ tracee' 27 = some 0 ∧ tracee' 28 = some 28 := by
  have htouched : Touched sixteenBytes 16 12 := by
    unfold Touched WordsMapped
    decide
  obtain ⟨mem', tracee', hin, hout, hread, hbeyond, hstore, hkept, -, -⟩ :=
    memcpy_exact sixteenBytes (fun _ => 0) 16 100 12 htouched
  refine ⟨htouched, mem', tracee', hin, hout, ?_, hbeyond 112 (by decide), hstore 11 (by decide),
    hkept 28 (by decide)⟩
  exact (Option.some.inj (hread 11 (by decide))).symm

/-! ### The last word -/

section boundary

variable {tracee : Space} {mem : Memory} {a b len n : ℕ}

/-- The words but the last one lie in the object. -/
theorem wordsMapped_of_mapped (h : Mapped tracee a len) (hn : WORDSIZE * n ≤ len) :
    WordsMapped tracee a n := by
  intro k hk
  refine h.shift ?_
  unfold WORDSIZE at *
  omega

/-- An object whose last word is not complete. -/
theorem rounds_partial (h : len % WORDSIZE ≠ 0) :
    rounds len = len / WORDSIZE + 1 ∧ lastWord len = WORDSIZE * (len / WORDSIZE) := by
  unfold rounds lastWord WORDSIZE at *
  omega

theorem touched_iff (h : Mapped tracee a len) : Touched tracee a len ↔
    len % WORDSIZE = 0 ∨ Mapped tracee (a + lastWord len) WORDSIZE := by
  constructor
  · intro ht
    by_cases hr : len % WORDSIZE = 0
    · exact Or.inl hr
    · obtain ⟨hrounds, hlast⟩ := rounds_partial hr
      rw [hlast]
      exact Or.inr (ht _ (by omega))
  · intro hcond
    by_cases hr : len % WORDSIZE = 0
    · refine wordsMapped_of_mapped h ?_
      unfold rounds WORDSIZE at *
      omega
    · obtain ⟨hrounds, hlast⟩ := rounds_partial hr
      have hword := hcond.resolve_left hr
      rw [hlast] at hword
      unfold Touched
      rw [hrounds]
      intro k hk
      rcases Nat.lt_succ_iff_lt_or_eq.mp hk with hlt | rfl
      · exact wordsMapped_of_mapped h (Nat.mul_div_le len WORDSIZE) k hlt
      · exact hword

/-- The state before the last round. -/
theorem not_mapped_keep {tracee₁ : Space} (hword : ¬ Mapped tracee (a + WORDSIZE * n) WORDSIZE)
    (h : Copied (fun x => some (mem x)) tracee tracee₁ b a (WORDSIZE * n)) :
    ¬ Mapped tracee₁ (a + WORDSIZE * n) WORDSIZE := by
  intro hm
  refine hword fun i hi => ?_
  rw [← h.outside (a + WORDSIZE * n + i) (by omega)]
  exact hm i hi

theorem moved_div (len : ℕ) : moved len (len / WORDSIZE) = WORDSIZE * (len / WORDSIZE) :=
  min_eq_right (Nat.mul_div_le len WORDSIZE)

theorem not_full (len : ℕ) : ¬ WORDSIZE * (len / WORDSIZE) + WORDSIZE ≤ len :=
  not_le.mpr (Nat.lt_mul_div_succ len (by decide))

/-- Without the last word the emulator ends. -/
theorem memcpyToTracee_exit (h : Mapped tracee a len) (ht : ¬ Touched tracee a len) :
    memcpyToTracee tracee mem a b len = none := by
  rw [touched_iff h, not_or] at ht
  obtain ⟨hr, hword⟩ := ht
  obtain ⟨hrounds, hlast⟩ := rounds_partial hr
  rw [hlast] at hword
  have hle : len / WORDSIZE ≤ rounds len := by omega
  obtain ⟨tracee₁, hloop, hcopy⟩ := @memcpyToTracee_loop tracee mem a b len _ hle
    (wordsMapped_of_mapped h (Nat.mul_div_le len WORDSIZE))
  rw [moved_div] at hcopy
  have hround : memcpyToTraceeRound mem a b len tracee₁ (len / WORDSIZE) = none := by
    unfold memcpyToTraceeRound
    simp only [if_neg (not_full len)]
    rw [peekData, peek_unmapped (not_mapped_keep hword hcopy)]
    rfl
  rw [memcpyToTracee, hrounds, List.range_succ, List.foldlM_append, hloop]
  simp [hround]

/-- Without the last word the bytes of -1 are delivered after the others. -/
theorem memcpyFromTracee_garbage (h : Mapped tracee a len) (ht : ¬ Touched tracee a len) :
    (∀ i < lastWord len,
      tracee (a + i) = some ((memcpyFromTracee tracee mem b a len).2 (b + i))) ∧
    ∀ i < len % WORDSIZE, (memcpyFromTracee tracee mem b a len).2 (b + lastWord len + i) = 0xff := by
  rw [touched_iff h, not_or] at ht
  obtain ⟨hr, hword⟩ := ht
  obtain ⟨hrounds, hlast⟩ := rounds_partial hr
  rw [hlast] at hword ⊢
  have hle : len / WORDSIZE ≤ rounds len := by omega
  have hcopy := @memcpyFromTracee_loop tracee mem b a len _ hle
    (wordsMapped_of_mapped h (Nat.mul_div_le len WORDSIZE))
  rw [moved_div] at hcopy
  rw [memcpyFromTracee, hrounds, List.range_succ, List.foldl_append]
  generalize (List.range (len / WORDSIZE)).foldl (memcpyFromTraceeRound tracee b a len) mem = mem₁
    at hcopy ⊢
  have hround : memcpyFromTraceeRound tracee b a len mem₁ (len / WORDSIZE) =
      store mem₁ (b + WORDSIZE * (len / WORDSIZE)) (List.take (len % WORDSIZE) minusOne) := by
    unfold memcpyFromTraceeRound
    simp only [if_neg (not_full len)]
    rw [peekData, peek_unmapped hword]
    rfl
  have hlen : (List.take (len % WORDSIZE) minusOne).length = len % WORDSIZE := by
    rw [List.length_take, minusOne, List.length_replicate]
    exact min_eq_left (Nat.mod_lt _ (by decide)).le
  simp only [List.foldl_cons, List.foldl_nil, hround]
  constructor
  · intro i hi
    rw [store_outside (by omega), hcopy.inside i hi]
    exact h.some_getD (hi.trans_le (Nat.mul_div_le len WORDSIZE)) 0
  · intro i hi
    rw [store_of_lt (by omega), List.getElem_take]
    exact List.getElem_replicate _

/-- The bytes of the object are delivered. -/
def Delivers (tracee : Space) (mem : Memory) (a b len : ℕ) : Prop :=
  ∀ i < len, tracee (a + i) = some ((memcpyFromTracee tracee mem b a len).2 (b + i))

theorem Touched.delivers (h : Touched tracee a len) : Delivers tracee mem a b len := by
  intro i hi
  rw [(memcpyFromTracee_copied h).inside i hi]
  exact h.mapped.some_getD hi 0

/-- What `MemcpyFromTracee` delivers is wrong unless the last word is mapped or consists of the bytes
of -1. -/
theorem delivers_iff (h : Mapped tracee a len) : Delivers tracee mem a b len ↔
    len % WORDSIZE = 0 ∨ Mapped tracee (a + lastWord len) WORDSIZE ∨
      ∀ i < len % WORDSIZE, tracee (a + lastWord len + i) = some 0xff := by
  rw [← or_assoc, ← touched_iff h]
  by_cases ht : Touched tracee a len
  · exact iff_of_true ht.delivers (Or.inl ht)
  · rw [or_iff_right ht]
    have hlast : lastWord len + len % WORDSIZE = len :=
      Nat.sub_add_cancel (Nat.mod_le len WORDSIZE)
    constructor
    · intro hdel i hi
      have hbyte := hdel (lastWord len + i) (by omega)
      rwa [← Nat.add_assoc, ← Nat.add_assoc, (memcpyFromTracee_garbage h ht).2 i hi] at hbyte
    · intro hff i hi
      by_cases hlt : i < lastWord len
      · exact (memcpyFromTracee_garbage h ht).1 i hlt
      · obtain ⟨j, rfl⟩ := Nat.exists_eq_add_of_le (not_lt.mp hlt)
        rw [← Nat.add_assoc, ← Nat.add_assoc, (memcpyFromTracee_garbage h ht).2 j (by omega)]
        exact hff j (by omega)

end boundary

/-- Both functions copy an object whose bytes are mapped exactly if the rest of its last word is
mapped, too. -/
theorem memcpy_boundary (tracee : Space) (mem : Memory) (a b len : ℕ) (h : Mapped tracee a len) :
    Delivers tracee mem a b len ∧ (memcpyToTracee tracee mem a b len).isSome = true ↔
      len % WORDSIZE = 0 ∨ Mapped tracee (a + lastWord len) WORDSIZE := by
  rw [← touched_iff h]
  constructor
  · rintro ⟨-, hrun⟩
    by_contra ht
    rw [memcpyToTracee_exit h ht] at hrun
    cases hrun
  · intro ht
    obtain ⟨tracee', hrun, -⟩ := @memcpyToTracee_copied tracee mem a b len ht
    rw [hrun]
    exact ⟨ht.delivers, rfl⟩

/-- Three bytes at the end of a page. -/
def pageEnd : Space := fun x => if x < 4096 then some 0 else none

theorem memcpy_boundary_inside :
    Mapped pageEnd 16 3 ∧ Delivers pageEnd (fun _ => 0) 16 100 3 ∧
      (memcpyToTracee pageEnd (fun _ => 0) 16 100 3).isSome = true := by
  have hmapped : Mapped pageEnd 16 3 := by decide
  exact ⟨hmapped, (memcpy_boundary pageEnd (fun _ => 0) 16 100 3 hmapped).mpr (Or.inr (by decide))⟩

/-- They are not delivered, and nothing can be stored there. -/
theorem memcpy_pageEnd :
    ¬ ∀ tracee mem a b len, Mapped tracee a len →
      Delivers tracee mem a b len ∧ (memcpyToTracee tracee mem a b len).isSome = true := by
  intro hall
  have hmapped : Mapped pageEnd 4093 3 := by decide
  obtain ⟨hdel, -⟩ := hall pageEnd (fun _ => 0) 4093 100 3 hmapped
  have hbyte := hdel 0 (by decide)
  revert hbyte
  decide

end Grail.Ptrace
