import Grail.Bytes
import Grail.Loops

/-! # Netlink messages in a buffer

The part of libnl that walks over the messages of a buffer: `nlmsg_ok` tells whether a complete
message starts at `hdr`, `nlmsg_next` moves to the header behind it and subtracts the aligned
length from the `int` that its second argument points to.

Where that argument is the address of a `size_t`, the subtraction changes its low half only
(`subLow`), and the test converts the `size_t` back (`toInt`).  What the two do together is the
subtraction of integers (`toInt_subLow`), so the walk ends (`walk_turns`) and never tests a
message that reaches beyond the buffer (`walk_inside`).  Over a buffer of complete messages it
stops at each of them (`framed_walk`).

`NlMsg` is a message that is built with `nlmsg_append` and `nla_put`, and `attrs` are the
attributes that a receiver finds. -/

namespace Libnl

open Bytes Loops

/-- `NLMSG_ALIGN`, which is also `RTA_ALIGN` and `NLA_ALIGN`. -/
def align4 (n : ℕ) : ℕ := (n + 3) / 4 * 4

theorem le_align4 (n : ℕ) : n ≤ align4 n := by
  unfold align4
  omega

theorem align4_le (n : ℕ) : align4 n ≤ n + 3 := by
  unfold align4
  omega

/-! ### `struct nlmsghdr` -/

def nlmsgLen (hdr : Memory) : ℕ := word hdr 4 0

def nlmsgType (hdr : Memory) : ℕ := word hdr 2 4

def nlmsgFlags (hdr : Memory) : ℕ := word hdr 2 6

/-! ### A `size_t` that is used as an `int` -/

/-- `(int)len`: the low half, as a signed integer. -/
def toInt (len : ℕ) : ℤ :=
  if len % 2 ^ 32 < 2 ^ 31 then (len % 2 ^ 32 : ℕ) else (len % 2 ^ 32 : ℕ) - 2 ^ 32

/-- `*(int*)&len -= n`. -/
def subLow (len n : ℕ) : ℕ :=
  len / 2 ^ 32 * 2 ^ 32 + (len % 2 ^ 32 + 2 ^ 32 - n % 2 ^ 32) % 2 ^ 32

theorem toInt_le (len : ℕ) : toInt len ≤ len := by
  unfold toInt
  split_ifs <;> omega

theorem toInt_of_lt {len : ℕ} (h : len < 2 ^ 31) : toInt len = len := by
  unfold toInt
  rw [Nat.mod_eq_of_lt (by omega), if_pos h]

/-- What is read back is the difference. -/
theorem toInt_subLow {len n : ℕ} (h₀ : 0 ≤ toInt len) (hn : (n : ℤ) ≤ toInt len + 3) :
    toInt (subLow len n) = toInt len - n := by
  unfold toInt subLow at *
  split_ifs at * <;> omega

/-! ### The walk -/

/-- `nlmsg_ok(hdr, remaining)`. -/
def nlmsgOk (hdr : Memory) (remaining : ℤ) : Bool :=
  decide (16 ≤ remaining) && decide (16 ≤ nlmsgLen hdr) && decide ((nlmsgLen hdr : ℤ) ≤ remaining)

/-- The variables of the walk: the header, as an offset, and the length that is left. -/
structure Cursor where
  hdr : ℕ
  len : ℕ
deriving DecidableEq, Repr

/-- `nlmsg_ok(hdr, len)`. -/
def okAt (m : Memory) (c : Cursor) : Bool := nlmsgOk (shift m c.hdr) (toInt c.len)

/-- `hdr = nlmsg_next(hdr, (int*)&len)`. -/
def nextAt (m : Memory) (c : Cursor) : Cursor :=
  let totlen := align4 (nlmsgLen (shift m c.hdr))
  ⟨c.hdr + totlen, subLow c.len totlen⟩

theorem okAt_iff {m : Memory} {c : Cursor} :
    okAt m c = true ↔ 16 ≤ nlmsgLen (shift m c.hdr) ∧ (nlmsgLen (shift m c.hdr) : ℤ) ≤ toInt c.len := by
  unfold okAt nlmsgOk
  simp only [Bool.and_eq_true, decide_eq_true_eq]
  omega

/-- The walk does not move the end of the buffer. -/
theorem nextAt_end {m : Memory} {c : Cursor} (h : okAt m c = true) :
    ((nextAt m c).hdr : ℤ) + toInt (nextAt m c).len = c.hdr + toInt c.len := by
  have hok := okAt_iff.mp h
  have hal := align4_le (nlmsgLen (shift m c.hdr))
  have hsub := @toInt_subLow c.len (align4 (nlmsgLen (shift m c.hdr))) (by omega) (by omega)
  simp only [nextAt, hsub]
  omega

theorem nextAt_decreases {m : Memory} {c : Cursor} (h : okAt m c = true) :
    (toInt (nextAt m c).len).toNat < (toInt c.len).toNat := by
  have hok := okAt_iff.mp h
  have hle := le_align4 (nlmsgLen (shift m c.hdr))
  have hend := nextAt_end h
  simp only [nextAt] at hend ⊢
  omega

/-- The walk ends, whatever the bytes are. -/
theorem walk_turns (m : Memory) (c : Cursor) : ∃ k ≤ c.len, Turns (okAt m) (nextAt m) c k := by
  obtain ⟨k, hk, ht⟩ := exists_turns (fun c => (toInt c.len).toNat)
    (fun _ h => nextAt_decreases (m := m) h) c
  have hle := toInt_le c.len
  exact ⟨k, by omega, ht⟩

theorem visits_end {m : Memory} {c t : Cursor} (h : Visits (okAt m) (nextAt m) c t) :
    (t.hdr : ℤ) + toInt t.len = c.hdr + toInt c.len := by
  refine h.invariant (I := fun t => (t.hdr : ℤ) + toInt t.len = c.hdr + toInt c.len) ?_ rfl
  intro t ht hok
  rw [nextAt_end hok, ht]

/-- A message that the walk accepts lies inside the buffer. -/
theorem walk_inside {m : Memory} {c t : Cursor} (h : Visits (okAt m) (nextAt m) c t)
    (hok : okAt m t = true) : t.hdr + nlmsgLen (shift m t.hdr) ≤ c.hdr + c.len := by
  have hend := visits_end h
  have hle := toInt_le c.len
  have ht := okAt_iff.mp hok
  omega

/-- The positions of the messages that the walk accepts in its first `n` turns. -/
def accepted (m : Memory) : ℕ → Cursor → List ℕ
  | 0, _ => []
  | n + 1, c => if okAt m c then c.hdr :: accepted m n (nextAt m c) else []

theorem accepted_turn {m : Memory} {c : Cursor} (n : ℕ) (h : okAt m c = true) :
    accepted m (n + 1) c = c.hdr :: accepted m n (nextAt m c) := by
  rw [accepted, if_pos h]

theorem accepted_stop {m : Memory} {c : Cursor} (n : ℕ) (h : okAt m c = false) :
    accepted m n c = [] := by
  cases n with
  | zero => rfl
  | succ n => rw [accepted, h, if_neg Bool.false_ne_true]

/-- The bound does not matter once it is reached. -/
theorem accepted_of_turns {m : Memory} {c : Cursor} {k n : ℕ}
    (h : Turns (okAt m) (nextAt m) c k) (hn : k ≤ n) :
    accepted m n c = (List.iterate (nextAt m) c k).map Cursor.hdr := by
  induction k generalizing c n with
  | zero => exact accepted_stop n h.stops
  | succ k ih =>
      obtain ⟨n, rfl⟩ : ∃ n', n = n' + 1 := ⟨n - 1, by omega⟩
      rw [accepted_turn n h.ok_of_pos, ih h.tail (by omega)]
      rfl

theorem mem_accepted {m : Memory} {c : Cursor} {n p : ℕ} (hp : p ∈ accepted m n c) :
    ∃ t, Visits (okAt m) (nextAt m) c t ∧ okAt m t = true ∧ t.hdr = p := by
  induction n generalizing c with
  | zero => exact absurd hp List.not_mem_nil
  | succ n ih =>
      cases hok : okAt m c with
      | false =>
          rw [accepted_stop _ hok] at hp
          exact absurd hp List.not_mem_nil
      | true =>
          rw [accepted_turn n hok, List.mem_cons] at hp
          rcases hp with rfl | hp
          · exact ⟨c, Visits.start, hok, rfl⟩
          · obtain ⟨t, hv, hok', ht⟩ := ih hp
            exact ⟨t, hv.head hok, hok', ht⟩

theorem accepted_of_visits {m : Memory} {c t : Cursor} {n : ℕ} (hn : c.len ≤ n)
    (h : Visits (okAt m) (nextAt m) c t) (hok : okAt m t = true) : t.hdr ∈ accepted m n c := by
  obtain ⟨k, hk, ht⟩ := walk_turns m c
  rw [accepted_of_turns ht (hk.trans hn)]
  clear hn hk
  induction k generalizing c with
  | zero =>
      have hstop : okAt m c = false := ht.stops
      rcases h.cases_head with rfl | ⟨hgo, _⟩
      · rw [hstop] at hok
        cases hok
      · rw [hstop] at hgo
        cases hgo
  | succ k ih =>
      rw [List.iterate, List.map_cons, List.mem_cons]
      rcases h.cases_head with rfl | ⟨_, hv⟩
      · exact Or.inl rfl
      · exact Or.inr (ih hv ht.tail)

theorem lt_nextAt {m : Memory} {c : Cursor} (h : okAt m c = true) : c.hdr < (nextAt m c).hdr := by
  have hok := okAt_iff.mp h
  have hle := le_align4 (nlmsgLen (shift m c.hdr))
  simp only [nextAt]
  omega

theorem le_of_visits {m : Memory} {c t : Cursor} (h : Visits (okAt m) (nextAt m) c t) :
    c.hdr ≤ t.hdr := by
  refine h.invariant (I := fun t => c.hdr ≤ t.hdr) ?_ le_rfl
  intro t ht hok
  exact ht.trans (lt_nextAt hok).le

/-- The walk comes from the smaller position to the larger one. -/
theorem visits_of_le {m : Memory} {c t u : Cursor} (ht : Visits (okAt m) (nextAt m) c t)
    (hu : Visits (okAt m) (nextAt m) c u) (h : t.hdr ≤ u.hdr) :
    Visits (okAt m) (nextAt m) t u := by
  rcases ht.total hu with hv | hv
  · exact hv
  · rcases hv.cases_head with rfl | ⟨hok, hv⟩
    · exact Visits.start
    · have hlt := lt_nextAt hok
      have hle := le_of_visits hv
      omega

theorem accepted_sorted (m : Memory) (n : ℕ) (c : Cursor) :
    (accepted m n c).Pairwise (· < ·) := by
  induction n generalizing c with
  | zero => exact .nil
  | succ n ih =>
      cases hok : okAt m c with
      | false =>
          rw [accepted_stop _ hok]
          exact .nil
      | true =>
          rw [accepted_turn n hok]
          refine .cons ?_ (ih (nextAt m c))
          intro p hp
          obtain ⟨t, hv, _, rfl⟩ := mem_accepted hp
          exact (lt_nextAt hok).trans_le (le_of_visits hv)

/-- The positions of two walks are equal if their members are. -/
theorem accepted_ext {m m' : Memory} {n n' : ℕ} {c c' : Cursor}
    (h : ∀ p, p ∈ accepted m n c ↔ p ∈ accepted m' n' c') : accepted m n c = accepted m' n' c' :=
  (accepted_sorted m n c).eq_of_mem_iff (accepted_sorted m' n' c') h

/-- The variables when the walk ends, or after `n` turns. -/
def final (m : Memory) : ℕ → Cursor → Cursor
  | 0, c => c
  | n + 1, c => if okAt m c then final m n (nextAt m c) else c

theorem final_of_turns {m : Memory} {c : Cursor} {k n : ℕ} (h : Turns (okAt m) (nextAt m) c k)
    (hn : k ≤ n) : final m n c = (nextAt m)^[k] c := by
  induction k generalizing c n with
  | zero =>
      have hstop : okAt m c = false := h.stops
      cases n with
      | zero => rfl
      | succ n => rw [final, hstop, if_neg Bool.false_ne_true, Function.iterate_zero_apply]
  | succ k ih =>
      obtain ⟨n, rfl⟩ : ∃ n', n = n' + 1 := ⟨n - 1, by omega⟩
      rw [final, if_pos h.ok_of_pos, ih h.tail (by omega), Function.iterate_succ_apply]

/-- Where two memories have the same bytes, the walk over the one comes to the same messages as
the walk over the other, as long as these lie inside the common part and inside the second
buffer. -/
theorem walk_transfer {m m' : Memory} {a a' L r : ℕ} (hm : ∀ i < L, m (a + i) = m' (a' + i))
    {c t : Cursor} (hv : Visits (okAt m) (nextAt m) c t) (hok : okAt m t = true)
    (hr : t.hdr = a + r) (hL : r + nlmsgLen (shift m t.hdr) ≤ L) :
    ∀ (c' : Cursor) (q : ℕ), c.hdr = a + q → c'.hdr = a' + q →
      (r + nlmsgLen (shift m t.hdr) : ℤ) ≤ q + toInt c'.len →
      ∃ t', Visits (okAt m') (nextAt m') c' t' ∧ okAt m' t' = true ∧ t'.hdr = a' + r := by
  have hsame : ∀ q, q + 4 ≤ L → nlmsgLen (shift m (a + q)) = nlmsgLen (shift m' (a' + q)) := by
    intro q hq
    refine word_congr fun i _ hi => ?_
    have hb := hm (q + i) (by omega)
    rwa [← Nat.add_assoc, ← Nat.add_assoc] at hb
  have ht := okAt_iff.mp hok
  refine hv.head_induction (P := fun c => ∀ (c' : Cursor) (q : ℕ), c.hdr = a + q →
    c'.hdr = a' + q → (r + nlmsgLen (shift m t.hdr) : ℤ) ≤ q + toInt c'.len →
      ∃ t', Visits (okAt m') (nextAt m') c' t' ∧ okAt m' t' = true ∧ t'.hdr = a' + r) ?_ ?_
  · intro c' q hc hc' hE
    obtain rfl : q = r := by omega
    have hlen := hsame q (by omega)
    rw [← hr, ← hc'] at hlen
    refine ⟨c', Visits.start, ?_, hc'⟩
    rw [okAt_iff]
    omega
  · intro c hgo hv ih c' q hc hc' hE
    have hc₀ := okAt_iff.mp hgo
    have hal := le_align4 (nlmsgLen (shift m c.hdr))
    have hle := le_of_visits hv
    have hnext : (nextAt m c).hdr = c.hdr + align4 (nlmsgLen (shift m c.hdr)) := rfl
    have hlen := hsame q (by omega)
    rw [← hc, ← hc'] at hlen
    have hgo' : okAt m' c' = true := by
      rw [okAt_iff]
      omega
    have hnext' : (nextAt m' c').hdr = c'.hdr + align4 (nlmsgLen (shift m' c'.hdr)) := rfl
    have hend := nextAt_end hgo'
    rw [hnext', ← hlen] at hend
    have hq : (nextAt m' c').hdr = a' + (q + align4 (nlmsgLen (shift m c.hdr))) := by
      rw [hnext', ← hlen, hc', Nat.add_assoc]
    have hE' : (r + nlmsgLen (shift m t.hdr) : ℤ) ≤
        (q + align4 (nlmsgLen (shift m c.hdr)) : ℕ) + toInt (nextAt m' c').len := by
      generalize toInt (nextAt m' c').len = w at hend ⊢
      omega
    obtain ⟨t', hv', hok', ht'⟩ := ih (nextAt m' c') _ (by omega) hq hE'
    exact ⟨t', hv'.head hgo', hok', ht'⟩

/-! ### Buffers of complete messages -/

/-- A message whose `nlmsg_len` is its length. -/
structure Message where
  bytes : List UInt8
  length_ge : 16 ≤ bytes.length
  nlmsg_len : ofBytes (bytes.take 4) = bytes.length

/-- The messages back to back, each padded to a multiple of 4, the last one perhaps not. -/
inductive Framed : List Message → List UInt8 → Prop
  | nil : Framed [] []
  | last (msg : Message) (pad : List UInt8) :
      msg.bytes.length + pad.length ≤ align4 msg.bytes.length → Framed [msg] (msg.bytes ++ pad)
  | cons (msg : Message) (pad : List UInt8) {msgs : List Message} {rest : List UInt8} :
      msg.bytes.length + pad.length = align4 msg.bytes.length → Framed msgs rest →
      Framed (msg :: msgs) (msg.bytes ++ (pad ++ rest))

/-- Where the messages start, the first one at `a`. -/
def starts : ℕ → List Message → List ℕ
  | _, [] => []
  | a, msg :: msgs => a :: starts (a + align4 msg.bytes.length) msgs

theorem Message.nlmsgLen_eq {m : Memory} {a : ℕ} {msg : Message} (h : Holds m a msg.bytes) :
    nlmsgLen (shift m a) = msg.bytes.length := by
  have hlen := msg.length_ge
  rw [← List.take_append_drop 4 msg.bytes] at h
  have hw := (holds_append.mp h).1.word
  have h4 : (msg.bytes.take 4).length = 4 := by
    rw [List.length_take]
    omega
  rw [h4, msg.nlmsg_len] at hw
  rw [nlmsgLen, word_shift]
  exact hw

/-- Over a buffer of complete messages, the walk accepts exactly these, in order. -/
theorem framed_walk {m : Memory} {msgs : List Message} {bs : List UInt8} (h : Framed msgs bs) :
    ∀ {a len : ℕ}, Holds m a bs → toInt len = bs.length →
      Turns (okAt m) (nextAt m) ⟨a, len⟩ msgs.length ∧
      accepted m msgs.length ⟨a, len⟩ = starts a msgs ∧
      List.Forall₂ (fun p msg => Holds m p msg.bytes) (starts a msgs) msgs := by
  induction h with
  | nil =>
      intro a len _ hlen
      refine ⟨Turns.zero ?_, rfl, .nil⟩
      rw [← Bool.not_eq_true, okAt_iff]
      simp only [hlen, List.length_nil]
      omega
  | last msg pad hpad =>
      intro a len hb hlen
      have hmsg := (holds_append.mp hb).1
      have hml := Message.nlmsgLen_eq hmsg
      have hge := msg.length_ge
      rw [List.length_append] at hlen
      have hok : okAt m ⟨a, len⟩ = true := by
        rw [okAt_iff, hml]
        exact ⟨hge, by simp only [hlen]; omega⟩
      have hend := nextAt_end hok
      have hstop : okAt m (nextAt m ⟨a, len⟩) = false := by
        rw [← Bool.not_eq_true, okAt_iff]
        have hhdr : (nextAt m ⟨a, len⟩).hdr = a + align4 msg.bytes.length := by
          simp only [nextAt, hml]
        rw [hhdr] at hend
        simp only [hlen] at hend
        omega
      refine ⟨(Turns.zero hstop).succ hok, ?_, .cons hmsg .nil⟩
      exact accepted_turn 0 hok
  | @cons msg pad _ rest hpad _ ih =>
      intro a len hb hlen
      obtain ⟨hmsg, hrest⟩ := holds_append.mp hb
      have hml := Message.nlmsgLen_eq hmsg
      have hge := msg.length_ge
      rw [List.length_append, List.length_append] at hlen
      have hok : okAt m ⟨a, len⟩ = true := by
        rw [okAt_iff, hml]
        exact ⟨hge, by simp only [hlen]; omega⟩
      have hend := nextAt_end hok
      have hhdr : (nextAt m ⟨a, len⟩).hdr = a + align4 msg.bytes.length := by
        simp only [nextAt, hml]
      have hrest : Holds m (nextAt m ⟨a, len⟩).hdr rest := by
        rw [hhdr, ← hpad, ← Nat.add_assoc]
        exact (holds_append.mp hrest).2
      have hlen' : toInt (nextAt m ⟨a, len⟩).len = rest.length := by
        rw [hhdr] at hend
        simp only [hlen] at hend
        omega
      obtain ⟨ht, hp, hall⟩ := ih hrest hlen'
      refine ⟨ht.succ hok, ?_, ?_⟩
      · have hp : accepted m _ (nextAt m ⟨a, len⟩) = _ := hp
        rw [List.length_cons, accepted_turn _ hok, hp, hhdr, starts]
      · rw [hhdr] at hall
        exact .cons hmsg hall

/-! ### Building messages -/

/-- The padding to a multiple of 4 is zero. -/
def padded (bs : List UInt8) : List UInt8 := bs ++ List.replicate (align4 bs.length - bs.length) 0

theorem padded_of_align {bs : List UInt8} (h : align4 bs.length = bs.length) : padded bs = bs := by
  rw [padded, h, Nat.sub_self, List.replicate_zero, List.append_nil]

@[simp] theorem length_padded (bs : List UInt8) : (padded bs).length = align4 bs.length := by
  have hle := le_align4 bs.length
  rw [padded, List.length_append, List.length_replicate]
  omega

/-- `struct nl_msg`, with `nlmsg_seq` and `nlmsg_pid` left to be filled in. -/
structure NlMsg where
  nlmsg_type : ℕ
  nlmsg_flags : ℕ
  /-- what follows the header -/
  payload : List UInt8

def nlmsgAllocSimple (nlmsg_type nlmsg_flags : ℕ) : NlMsg := ⟨nlmsg_type, nlmsg_flags, []⟩

/-- `nlmsg_append(msg, data, sizeof(data), NLMSG_ALIGNTO)`. -/
def nlmsgAppend (msg : NlMsg) (data : List UInt8) : NlMsg :=
  { msg with payload := msg.payload ++ padded data }

/-- `struct nlattr` with its payload. -/
def nlattr (nla_type : ℕ) (data : List UInt8) : List UInt8 :=
  toBytes 2 (4 + data.length) ++ (toBytes 2 nla_type ++ data)

/-- `nla_put(msg, nla_type, sizeof(data), data)`. -/
def nlaPut (msg : NlMsg) (nla_type : ℕ) (data : List UInt8) : NlMsg :=
  { msg with payload := padded msg.payload ++ padded (nlattr nla_type data) }

def NlMsg.bytes (msg : NlMsg) : List UInt8 :=
  toBytes 4 (16 + msg.payload.length) ++ (toBytes 2 msg.nlmsg_type ++
    (toBytes 2 msg.nlmsg_flags ++ (toBytes 4 0 ++ (toBytes 4 0 ++ msg.payload))))

@[simp] theorem NlMsg.length_bytes (msg : NlMsg) : msg.bytes.length = 16 + msg.payload.length := by
  simp only [NlMsg.bytes, List.length_append, length_toBytes]
  omega

/-- A message in memory: its length and its payload. -/
theorem NlMsg.holds {m : Memory} {msg : NlMsg} (h : Holds m 0 msg.bytes)
    (hlt : 16 + msg.payload.length < 2 ^ 32) :
    nlmsgLen m = 16 + msg.payload.length ∧ Holds m 16 msg.payload := by
  obtain ⟨hlen, h⟩ := holds_append.mp h
  obtain ⟨-, h⟩ := holds_append.mp h
  obtain ⟨-, h⟩ := holds_append.mp h
  obtain ⟨-, h⟩ := holds_append.mp h
  obtain ⟨-, h⟩ := holds_append.mp h
  simp only [length_toBytes] at h
  exact ⟨hlen.word_toBytes (by omega), h⟩

theorem NlMsg.holds_type {m : Memory} {msg : NlMsg} (h : Holds m 0 msg.bytes)
    (htype : msg.nlmsg_type < 256 ^ 2) (hflags : msg.nlmsg_flags < 256 ^ 2) :
    nlmsgType m = msg.nlmsg_type ∧ nlmsgFlags m = msg.nlmsg_flags := by
  obtain ⟨-, h⟩ := holds_append.mp h
  obtain ⟨ht, h⟩ := holds_append.mp h
  obtain ⟨hf, -⟩ := holds_append.mp h
  simp only [length_toBytes] at ht hf
  exact ⟨ht.word_toBytes htype, hf.word_toBytes hflags⟩

@[simp] theorem length_nlattr (nla_type : ℕ) (data : List UInt8) :
    (nlattr nla_type data).length = 4 + data.length := by
  simp only [nlattr, List.length_append, length_toBytes]
  omega

/-! ### Reading attributes -/

/-- The attributes that a receiver finds in the `left` bytes at `pos`, by type and payload. -/
def attrs (m : Memory) : ℕ → ℕ → ℕ → List (ℕ × List UInt8)
  | 0, _, _ => []
  | n + 1, pos, left =>
      let nla_len := word m 2 pos
      if 4 ≤ left ∧ 4 ≤ nla_len ∧ nla_len ≤ left then
        (word m 2 (pos + 2), read m (nla_len - 4) (pos + 4)) ::
          attrs m n (pos + align4 nla_len) (left - align4 nla_len)
      else []

/-- An attribute in memory is the first one that is found. -/
theorem attrs_nlattr {m : Memory} {pos left n nla_type : ℕ} {data : List UInt8}
    (h : Holds m pos (nlattr nla_type data)) (htype : nla_type < 256 ^ 2)
    (hlen : 4 + data.length < 256 ^ 2) (hleft : 4 + data.length ≤ left) :
    attrs m (n + 1) pos left = (nla_type, data) ::
      attrs m n (pos + align4 (4 + data.length)) (left - align4 (4 + data.length)) := by
  obtain ⟨hl, h⟩ := holds_append.mp h
  obtain ⟨ht, hd⟩ := holds_append.mp h
  rw [length_toBytes] at ht hd
  rw [length_toBytes] at hd
  have hl : word m 2 pos = 4 + data.length := hl.word_toBytes hlen
  have ht : word m 2 (pos + 2) = nla_type := ht.word_toBytes htype
  have hd : read m (4 + data.length - 4) (pos + 4) = data := by
    rw [Nat.add_sub_cancel_left]
    exact hd
  rw [attrs]
  simp only [hl, ht, hd]
  rw [if_pos ⟨by omega, by omega, hleft⟩]

end Libnl
