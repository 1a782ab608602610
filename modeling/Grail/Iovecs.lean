import Grail.MessageLoop
import Grail.RouteAttrs

/-! # The I/O vector of a netlink `sendmsg`

`HandleSendMsg` walks over each entry of the vector on its own.  Read as offsets in the whole
payload, the messages it processes are `sentMessages`.  They are the messages of the payload
exactly if the vector respects them (`Respects`): every message lies in one entry, which starts
with a message, and no other entry starts like one.

What is processed then is the same bytes, and whatever lies behind a message is not read if route
messages are contained (`processNlmsghdrAt_congr`); so the vector has the effect of the payload in
one entry (`sendmsg_split`). -/

namespace Grail

open Programs Bytes Loops Libnl

/-! ### Messages by position -/

/-- A complete message starts at `p`: its header tells a length between 16 and what is left before
`last`. -/
def Complete (m : Memory) (last : ℤ) (p : ℕ) : Prop :=
  16 ≤ nlmsgLen (shift m p) ∧ (p + nlmsgLen (shift m p) : ℤ) ≤ last

/-- The start, and the aligned end of each complete message that starts at a boundary. -/
inductive Boundary (m : Memory) (last : ℤ) : ℕ → Prop
  | start : Boundary m last 0
  | next {p : ℕ} : Boundary m last p → Complete m last p →
      Boundary m last (p + align4 (nlmsgLen (shift m p)))

/-- A message of the buffer starts at `p`; the length of the buffer is used as an `int`. -/
def Buffer.HasMessage (b : Buffer) (p : ℕ) : Prop :=
  Boundary b.memory (toInt b.bytes.length) p ∧ Complete b.memory (toInt b.bytes.length) p

section Walk

variable {m : Memory} {c : Cursor} {last : ℤ}

theorem okAt_iff_complete (h : (c.hdr : ℤ) + toInt c.len = last) :
    okAt m c = true ↔ Complete m last c.hdr := by
  rw [okAt_iff, Complete]
  constructor <;> rintro ⟨h16, hle⟩ <;> exact ⟨h16, by omega⟩

theorem boundary_of_visits {t : Cursor} (hc : c.hdr = 0) (hlast : toInt c.len = last)
    (h : Visits (okAt m) (nextAt m) c t) :
    Boundary m last t.hdr ∧ (t.hdr : ℤ) + toInt t.len = last := by
  refine h.invariant (I := fun t => Boundary m last t.hdr ∧ (t.hdr : ℤ) + toInt t.len = last) ?_ ?_
  · rintro t ⟨hb, hend⟩ hok
    exact ⟨hb.next ((okAt_iff_complete hend).mp hok), by rw [nextAt_end hok, hend]⟩
  · rw [hc, hlast]
    exact ⟨Boundary.start, by omega⟩

theorem visits_of_boundary {p : ℕ} (hc : c.hdr = 0) (hlast : toInt c.len = last)
    (h : Boundary m last p) :
    ∃ t, Visits (okAt m) (nextAt m) c t ∧ t.hdr = p ∧ (p : ℤ) + toInt t.len = last := by
  induction h with
  | start => exact ⟨c, Visits.start, hc, by omega⟩
  | @next p _ hcomp ih =>
      obtain ⟨t, hv, rfl, hend⟩ := ih
      have hok := (okAt_iff_complete hend).mpr hcomp
      have hend' := nextAt_end hok
      rw [hend] at hend'
      exact ⟨nextAt m t, hv.turn hok, rfl, hend'⟩

end Walk

/-- The loop comes to every message of the buffer. -/
theorem Buffer.HasMessage.visits {b : Buffer} {p : ℕ} (h : b.HasMessage p) :
    ∃ t, Visits (okAt b.memory) (nextAt b.memory) b.start t ∧ okAt b.memory t = true ∧
      t.hdr = p ∧ (p : ℤ) + toInt t.len = toInt b.bytes.length := by
  obtain ⟨t, hv, rfl, hend⟩ := visits_of_boundary (c := b.start) rfl rfl h.1
  exact ⟨t, hv, (okAt_iff_complete hend).mpr h.2, rfl, hend⟩

/-- The loop processes the messages of the buffer. -/
theorem Buffer.mem_messages {b : Buffer} {p : ℕ} : p ∈ b.messages ↔ b.HasMessage p := by
  constructor
  · intro hp
    obtain ⟨t, hv, hok, rfl⟩ := mem_accepted hp
    obtain ⟨hb, hend⟩ := boundary_of_visits (c := b.start) rfl rfl hv
    exact ⟨hb, (okAt_iff_complete hend).mp hok⟩
  · intro h
    obtain ⟨t, hv, hok, rfl, -⟩ := h.visits
    exact accepted_of_visits le_rfl hv hok

/-- A buffer with a message starts with one. -/
theorem Buffer.HasMessage.first {b : Buffer} {p : ℕ} (h : b.HasMessage p) : b.HasMessage 0 := by
  obtain ⟨t, hv, hok, -, -⟩ := h.visits
  refine ⟨Boundary.start, (okAt_iff_complete (c := b.start) (Int.zero_add _)).mp ?_⟩
  rcases hv.cases_head with rfl | ⟨hgo, _⟩
  · exact hok
  · exact hgo

theorem Buffer.HasMessage.inside {b : Buffer} {p : ℕ} (h : b.HasMessage p) :
    p + nlmsgLen (shift b.memory p) ≤ b.bytes.length :=
  b.messages_inside (Buffer.mem_messages.mpr h)

/-! ### The entries of the vector -/

/-- The entries with their positions in the payload, the first one at `base`. -/
def entriesAt : ℕ → List Buffer → List (ℕ × Buffer)
  | _, [] => []
  | base, e :: es => (base, e) :: entriesAt (base + e.bytes.length) es

/-- The bytes of the entries, one after the other. -/
def payload (msg_iov : List Buffer) : List UInt8 := (msg_iov.map Buffer.bytes).flatten

/-- The messages that `HandleSendMsg` processes, as positions in the payload. -/
def sentMessages : ℕ → List Buffer → List ℕ
  | _, [] => []
  | base, e :: es => e.messages.map (base + ·) ++ sentMessages (base + e.bytes.length) es

/-- The vector respects the messages of the payload `whole`. -/
structure Respects (whole : Buffer) (msg_iov : List Buffer) : Prop where
  /-- every message lies in one entry, which starts with a message -/
  inside : ∀ p, whole.HasMessage p → ∃ a e, (a, e) ∈ entriesAt 0 msg_iov ∧ a ≤ p ∧
    (p + nlmsgLen (shift whole.memory p) : ℤ) ≤ a + toInt e.bytes.length ∧ whole.HasMessage a
  /-- an entry that starts with a message starts where the payload has one -/
  starts : ∀ a e, (a, e) ∈ entriesAt 0 msg_iov → e.HasMessage 0 → whole.HasMessage a
  /-- the messages of the entries end before the `int` that the payload is long -/
  window : ∀ a e q, (a, e) ∈ entriesAt 0 msg_iov → e.HasMessage q →
    (a + q + nlmsgLen (shift e.memory q) : ℤ) ≤ toInt whole.bytes.length

theorem entriesAt_holds {m : Memory} {es : List Buffer} {base a : ℕ} {e : Buffer}
    (h : (a, e) ∈ entriesAt base es) (hm : Holds m base (payload es)) : Holds m a e.bytes := by
  induction es generalizing base with
  | nil => exact absurd h List.not_mem_nil
  | cons e' es ih =>
      have hm : Holds m base (e'.bytes ++ payload es) := hm
      obtain ⟨hfst, hrest⟩ := holds_append.mp hm
      rw [entriesAt, List.mem_cons] at h
      rcases h with h | h
      · cases h
        exact hfst
      · exact ih h hrest

/-- An entry has the bytes that the payload has at its position. -/
theorem entry_memory {whole e : Buffer} {es : List Buffer} {a : ℕ}
    (hwhole : whole.bytes = payload es) (h : (a, e) ∈ entriesAt 0 es) :
    ∀ i < e.bytes.length, e.memory i = whole.memory (a + i) := by
  have hm : Holds whole.memory 0 (payload es) := hwhole ▸ buffer_holds whole.bytes whole.beyond
  intro i hi
  rw [holds_iff.mp (entriesAt_holds h hm) i hi, Buffer.memory, buffer_of_lt hi]

theorem entry_nlmsgLen {whole e : Buffer} {es : List Buffer} {a q : ℕ}
    (hwhole : whole.bytes = payload es) (h : (a, e) ∈ entriesAt 0 es)
    (hq : q + 4 ≤ e.bytes.length) :
    nlmsgLen (shift e.memory q) = nlmsgLen (shift whole.memory (a + q)) := by
  refine word_congr fun i _ hi => ?_
  have hmem := entry_memory hwhole h (q + i) (by omega)
  rwa [← Nat.add_assoc] at hmem

theorem mem_sentMessages {es : List Buffer} {base p : ℕ} : p ∈ sentMessages base es ↔
    ∃ a e q, (a, e) ∈ entriesAt base es ∧ e.HasMessage q ∧ p = a + q := by
  induction es generalizing base with
  | nil =>
      refine iff_of_false List.not_mem_nil ?_
      rintro ⟨a, e, q, h, -⟩
      exact absurd h List.not_mem_nil
  | cons e' es ih =>
      rw [sentMessages, List.mem_append, List.mem_map, ih]
      constructor
      · rintro (⟨q, hq, rfl⟩ | ⟨a, e, q, h, hq, rfl⟩)
        · exact ⟨base, e', q, List.mem_cons_self, Buffer.mem_messages.mp hq, rfl⟩
        · exact ⟨a, e, q, List.mem_cons_of_mem _ h, hq, rfl⟩
      · rintro ⟨a, e, q, h, hq, rfl⟩
        rw [entriesAt, List.mem_cons] at h
        rcases h with h | h
        · cases h
          exact Or.inl ⟨q, Buffer.mem_messages.mpr hq, rfl⟩
        · exact Or.inr ⟨a, e, q, h, hq, rfl⟩

theorem le_of_mem_entriesAt {es : List Buffer} {base a : ℕ} {e : Buffer}
    (h : (a, e) ∈ entriesAt base es) : base ≤ a := by
  induction es generalizing base with
  | nil => exact absurd h List.not_mem_nil
  | cons e' es ih =>
      rw [entriesAt, List.mem_cons] at h
      rcases h with h | h
      · cases h
        exact le_rfl
      · exact (Nat.le_add_right _ _).trans (ih h)

theorem sentMessages_sorted (es : List Buffer) (base : ℕ) :
    (sentMessages base es).Pairwise (· < ·) := by
  induction es generalizing base with
  | nil => exact .nil
  | cons e es ih =>
      rw [sentMessages, List.pairwise_append]
      refine ⟨?_, ih _, ?_⟩
      · rw [List.pairwise_map]
        exact (accepted_sorted _ _ _).imp fun h => Nat.add_lt_add_left h base
      · intro p hp p' hp'
        obtain ⟨q, hq, rfl⟩ := List.mem_map.mp hp
        obtain ⟨a, e', q', h, -, rfl⟩ := mem_sentMessages.mp hp'
        have hle := le_of_mem_entriesAt h
        have hq := Buffer.mem_messages.mp hq
        have hin := hq.inside
        have h16 := hq.2.1
        omega

/-! ### The messages that are processed -/

section Split

variable {whole : Buffer} {es : List Buffer} (hwhole : whole.bytes = payload es)
include hwhole

/-- Where the vector respects the payload, a message of the payload is processed. -/
theorem Respects.sent (h : Respects whole es) {p : ℕ} (hp : whole.HasMessage p) :
    p ∈ sentMessages 0 es := by
  obtain ⟨a, e, hmem, hap, hend, ha⟩ := h.inside p hp
  obtain ⟨r, rfl⟩ := Nat.exists_eq_add_of_le hap
  obtain ⟨ta, hva, -, hta, -⟩ := ha.visits
  obtain ⟨t, hv, hok, ht, -⟩ := hp.visits
  have hat : Visits (okAt whole.memory) (nextAt whole.memory) ta t :=
    visits_of_le hva hv (by omega)
  have hle := toInt_le e.bytes.length
  have hm : ∀ i < e.bytes.length, whole.memory (a + i) = e.memory (0 + i) := by
    intro i hi
    rw [Nat.zero_add, entry_memory hwhole hmem i hi]
  rw [← ht] at hend
  obtain ⟨t', hv', hok', ht'⟩ := walk_transfer hm hat hok ht (by omega) e.start 0 hta rfl
    (by simp only [Buffer.start]; omega)
  rw [Nat.zero_add] at ht'
  have hr : r ∈ e.messages := ht' ▸ accepted_of_visits le_rfl hv' hok'
  exact mem_sentMessages.mpr ⟨a, e, r, hmem, Buffer.mem_messages.mp hr, rfl⟩

/-- Where the vector respects the payload, nothing but messages of the payload is processed. -/
theorem Respects.of_sent (h : Respects whole es) {p : ℕ} (hp : p ∈ sentMessages 0 es) :
    whole.HasMessage p := by
  obtain ⟨a, e, q, hmem, hq, rfl⟩ := mem_sentMessages.mp hp
  have ha := h.starts a e hmem hq.first
  have hwin := h.window a e q hmem hq
  obtain ⟨ta, hva, -, hta, hend⟩ := ha.visits
  obtain ⟨t, hv, hok, ht, -⟩ := hq.visits
  have hin := hq.inside
  have hm : ∀ i < e.bytes.length, e.memory (0 + i) = whole.memory (a + i) := by
    intro i hi
    rw [Nat.zero_add, entry_memory hwhole hmem i hi]
  rw [← ht] at hin hwin
  obtain ⟨t', hv', hok', ht'⟩ := walk_transfer hm hv hok (Nat.zero_add _).symm (by omega) ta 0
    rfl hta (by omega)
  rw [ht] at ht'
  exact Buffer.mem_messages.mp (ht' ▸ accepted_of_visits le_rfl (hva.trans hv') hok')

/-- The vector respects the payload exactly if `sendmsg` processes the messages of the payload. -/
theorem respects_iff : Respects whole es ↔ sentMessages 0 es = whole.messages := by
  constructor
  · intro h
    refine (sentMessages_sorted es 0).eq_of_mem_iff (accepted_sorted _ _ _) fun p => ?_
    exact ⟨fun hp => Buffer.mem_messages.mpr (h.of_sent hwhole hp),
      fun hp => h.sent hwhole (Buffer.mem_messages.mp hp)⟩
  · intro h
    have hiff : ∀ {p}, p ∈ sentMessages 0 es ↔ whole.HasMessage p := by
      intro p
      rw [h, Buffer.mem_messages]
    constructor
    · intro p hp
      obtain ⟨a, e, q, hmem, hq, rfl⟩ := mem_sentMessages.mp (hiff.mpr hp)
      have hin := hq.inside
      have h16 := hq.2.1
      have hlen := entry_nlmsgLen (q := q) hwhole hmem (by omega)
      have hend := hq.2.2
      refine ⟨a, e, hmem, Nat.le_add_right a q, by omega, ?_⟩
      exact hiff.mp (mem_sentMessages.mpr ⟨a, e, 0, hmem, hq.first, rfl⟩)
    · intro a e hmem h0
      exact hiff.mp (mem_sentMessages.mpr ⟨a, e, 0, hmem, h0, rfl⟩)
    · intro a e q hmem hq
      have hw := hiff.mp (mem_sentMessages.mpr ⟨a, e, q, hmem, hq, rfl⟩)
      have hin := hq.inside
      have h16 := hq.2.1
      have hlen := entry_nlmsgLen (q := q) hwhole hmem (by omega)
      have hend := hw.2.2
      rw [hlen]
      exact_mod_cast hend

end Split

/-! ### Their effect -/

/-- A route message does not make `ProcessNlmsghdr` read behind it. -/
def RouteContained (hdr : Memory) : Prop :=
  (nlmsgType hdr = RTM_NEWROUTE → 16 < nlmsgLen hdr → Contained true hdr) ∧
  (nlmsgType hdr = RTM_DELROUTE → 16 < nlmsgLen hdr → Contained false hdr)

theorem routeRequestAt_contained {hdr hdr' : Memory} {iifOk : Bool}
    (hl : nlmsgLen hdr = nlmsgLen hdr') (ha : Agree hdr hdr' 0 (nlmsgLen hdr))
    (h : 16 < nlmsgLen hdr → Contained iifOk hdr) (n : ℕ) (nl : NlId)
    (edit : List RtEntry → ℕ → ℕ → ℕ → List RtEntry) :
    routeRequestAt n nl hdr iifOk edit = routeRequestAt n nl hdr' iifOk edit := by
  refine routeRequestAt_congr hl ?_ n nl edit
  intro a k hread i _ hi
  have h16 : 16 < nlmsgLen hdr := by
    cases hread with
    | field h16 _ => exact h16
    | flags h16 => exact h16
    | attr h16 _ _ _ => exact h16
  have hin := (h h16).reads_inside hread
  exact ha i (Nat.zero_le i) (by omega)

/-- What is done with a message depends only on its bytes, if a route message is contained. -/
theorem processNlmsghdrAt_congr {hdr hdr' : Memory} (h16 : 16 ≤ nlmsgLen hdr)
    (ha : Agree hdr hdr' 0 (nlmsgLen hdr)) (hc : RouteContained hdr) (n : ℕ) (nl : NlId) :
    processNlmsghdrAt n nl hdr = processNlmsghdrAt n nl hdr' := by
  have hword : ∀ k a, a + k ≤ 16 → word hdr k a = word hdr' k a := by
    intro k a hk
    exact word_congr fun i _ hi => ha i (Nat.zero_le i) (by omega)
  have hl : nlmsgLen hdr = nlmsgLen hdr' := hword 4 0 (by omega)
  have hty : nlmsgType hdr = nlmsgType hdr' := hword 2 4 (by omega)
  have hroot : nlmsgRoot hdr = nlmsgRoot hdr' := by
    unfold nlmsgRoot nlmsgFlags
    rw [hword 2 6 (by omega)]
  unfold processNlmsghdrAt
  rw [← hty, ← hroot]
  by_cases hnew : nlmsgType hdr = RTM_NEWROUTE
  · rw [routeRequestAt_contained hl ha (hc.1 hnew), hnew]
    rfl
  · by_cases hdel : nlmsgType hdr = RTM_DELROUTE
    · rw [routeRequestAt_contained hl ha (hc.2 hdel), hdel]
      rfl
    · simp only [if_neg hnew, if_neg hdel]

theorem forM_congr_mem {xs : List ℕ} {f g : ℕ → M Unit} (h : ∀ x ∈ xs, f x = g x) :
    xs.forM f = xs.forM g := by
  induction xs with
  | nil => rfl
  | cons x xs ih =>
      rw [List.forM_eq_forM, List.forM_cons, List.forM_cons, h x List.mem_cons_self]
      have ih := ih fun y hy => h y (List.mem_cons_of_mem x hy)
      rw [List.forM_eq_forM] at ih
      rw [ih]

/-- If each message that is processed has the effect it has in the payload, the vector has the
effect of its messages in the payload. -/
theorem sendMsgLoop_eq {n : ℕ} {nl : NlId} {whole : Buffer} {es : List Buffer} {base : ℕ}
    (h : ∀ a e q, (a, e) ∈ entriesAt base es → q ∈ e.messages →
      processNlmsghdrAt n nl (shift e.memory q) =
        processNlmsghdrAt n nl (shift whole.memory (a + q))) (total_bytes : ℕ) :
    sendMsgLoop n nl total_bytes es = (do
      (sentMessages base es).forM fun p => processNlmsghdrAt n nl (shift whole.memory p)
      return total_bytes + (payload es).length) := by
  induction es generalizing base total_bytes with
  | nil => rfl
  | cons e es ih =>
      have hhead : (e.messages.forM fun q => processNlmsghdrAt n nl (shift e.memory q)) =
          (e.messages.map (base + ·)).forM fun p =>
            processNlmsghdrAt n nl (shift whole.memory p) := by
        rw [forM_congr_mem fun q hq => h base e q List.mem_cons_self hq, List.forM_eq_forM,
          List.forM_map]
      have htail := ih fun a e' q hm => h a e' q (List.mem_cons_of_mem _ hm)
      have hlen : (payload (e :: es)).length = e.bytes.length + (payload es).length :=
        List.length_append
      rw [sendMsgLoop, processBuffer_eq, hhead, hlen, sentMessages, List.forM_eq_forM,
        List.forM_append, ← Nat.add_assoc]
      simp only [htail, bind_assoc, pure_bind, List.forM_eq_forM]

/-- `sendmsg` has the effect that it has with the payload in one entry: it processes the same
messages in order, from every state it ends in the same state, and it answers with the same
length. -/
def SameEffect (whole : Buffer) (es : List Buffer) : Prop :=
  sentMessages 0 es = whole.messages ∧
  ∀ n nl s, (sendMsgAt n nl es).run s = (sendMsgAt n nl [whole]).run s

/-- The vector has the effect of the payload in one entry only if it respects the messages of the
payload; if it does and the route messages of the payload are contained, it has that effect. -/
theorem sendmsg_split {whole : Buffer} {es : List Buffer} (hwhole : whole.bytes = payload es) :
    (SameEffect whole es → Respects whole es) ∧
    ((∀ p, whole.HasMessage p → RouteContained (shift whole.memory p)) →
      (SameEffect whole es ↔ Respects whole es)) := by
  have honly : SameEffect whole es → Respects whole es :=
    fun h => (respects_iff hwhole).mpr h.1
  refine ⟨honly, fun hc => ⟨honly, fun hr => ?_⟩⟩
  have hsent := (respects_iff hwhole).mp hr
  have hmsg : ∀ n nl a e q, (a, e) ∈ entriesAt 0 es → q ∈ e.messages →
      processNlmsghdrAt n nl (shift e.memory q) =
        processNlmsghdrAt n nl (shift whole.memory (a + q)) := by
    intro n nl a e q hmem hq
    have hq := Buffer.mem_messages.mp hq
    have hp := hr.of_sent hwhole (mem_sentMessages.mpr ⟨a, e, q, hmem, hq, rfl⟩)
    have hin := hq.inside
    have h16 := hq.2.1
    have hlen := entry_nlmsgLen (q := q) hwhole hmem (by omega)
    refine (processNlmsghdrAt_congr hp.2.1 ?_ (hc _ hp) n nl).symm
    intro i _ hi
    have hmem := entry_memory hwhole hmem (q + i) (by omega)
    rw [← Nat.add_assoc] at hmem
    exact hmem.symm
  refine ⟨hsent, fun n nl s => ?_⟩
  rw [sendMsgAt, sendMsgLoop_eq (hmsg n nl), hsent, sendMsgAt_single, hwhole, Nat.zero_add]

/-- The vector that puts each request in an entry of its own. -/
def dumpEntries : List Buffer :=
  [⟨twoDumps.bytes.take 20, fun _ => 7⟩, ⟨twoDumps.bytes.drop 20, fun _ => 9⟩]

theorem sendmsg_split_twoDumps : SameEffect twoDumps dumpEntries := by
  have hwhole : twoDumps.bytes = payload dumpEntries := by decide
  have hmsgs : twoDumps.messages = [0, 20] := by decide +kernel
  refine ((sendmsg_split hwhole).2 ?_).mpr ((respects_iff hwhole).mpr ?_)
  · intro p hp
    rw [← Buffer.mem_messages, hmsgs] at hp
    have hty : ∀ p ∈ [0, 20], nlmsgType (shift twoDumps.memory p) ≠ RTM_NEWROUTE ∧
        nlmsgType (shift twoDumps.memory p) ≠ RTM_DELROUTE := by decide +kernel
    exact ⟨fun h => absurd h (hty p hp).1, fun h => absurd h (hty p hp).2⟩
  · decide +kernel

/-- A request for the links with the header in one entry and the body in the next. -/
def headerThenBody : List Buffer :=
  [⟨linkRequest.take 16, fun _ => 0⟩, ⟨linkRequest.drop 16, fun _ => 0⟩]

/-- The request is acknowledged with its length, but not processed. -/
theorem headerThenBody_lost :
    let whole : Buffer := ⟨linkRequest, fun _ => 0⟩
    whole.bytes = payload headerThenBody ∧ whole.messages = [0] ∧
    sentMessages 0 headerThenBody = [] ∧
    (((sendMsgAt 1 0 [whole]).run loopbackNode).toOption.map fun r => (r.1, (r.2.d.nls 0).replyQueue)) =
      some (20, [.newLink 0 ['l', 'o', '0'], .done]) ∧
    (((sendMsgAt 1 0 headerThenBody).run loopbackNode).toOption.map fun r =>
      (r.1, (r.2.d.nls 0).replyQueue)) = some (20, []) ∧
    ¬ SameEffect whole headerThenBody := by
  have hwhole : (Buffer.mk linkRequest fun _ => 0).messages = [0] := by decide +kernel
  have hsent : sentMessages 0 headerThenBody = [] := by decide +kernel
  refine ⟨by decide, hwhole, hsent, by decide +kernel, by decide +kernel, ?_⟩
  rintro ⟨h, -⟩
  rw [hwhole, hsent] at h
  cases h

end Grail
