import Grail.Requests

/-! # The message loop of `sendmsg` and `sendto`

Both handlers walk over a buffer with `nlmsg_ok` and `nlmsg_next`.  The messages that are
processed, `Buffer.messages`, are found from the buffer alone, so the loop is a `forM` over them
in every monad (`messageLoop_eq`).  They lie inside the buffer, and a buffer of complete messages
is processed message by message (`messages_processed`).

`HandleSendMsg` keeps the sum of the lengths apart from `len`, and `HandleSendTo` answers with
`len` itself, which the loop has decremented: it answers with the length of the buffer exactly if
no message was processed (`sendto_agrees`). -/

namespace Grail

open Programs Bytes Loops Libnl

/-! ### The messages of a buffer -/

/-- The positions of the messages that the loop processes. -/
def Buffer.messages (b : Buffer) : List ℕ := accepted b.memory b.bytes.length b.start

/-- The variables of the loop when it ends. -/
def Buffer.stop (b : Buffer) : Cursor := final b.memory b.bytes.length b.start

/-- The loop processes the messages in order. -/
theorem messageLoop_eq {m : Type → Type} [Monad m] [LawfulMonad m] (process : ℕ → m Unit)
    (b : Buffer) {n : ℕ} (hn : b.bytes.length < n) :
    messageLoop process b n = (do b.messages.forM process; pure (some b.stop)) := by
  obtain ⟨k, hk, ht⟩ := walk_turns b.memory b.start
  have hk : k ≤ b.bytes.length := hk
  have hstop : b.stop = (nextAt b.memory)^[k] b.start := final_of_turns ht hk
  have hmsgs : b.messages = (List.iterate (nextAt b.memory) b.start k).map Cursor.hdr :=
    accepted_of_turns ht hk
  rw [messageLoop, whileLoop_eq ht (by omega), hstop, hmsgs, List.forM_eq_forM, List.forM_eq_forM,
    List.forM_map]

theorem processBuffer_eq (n : ℕ) (nl : NlId) (b : Buffer) :
    processBuffer n nl b = (do
      b.messages.forM fun hdr => processNlmsghdrAt n nl (shift b.memory hdr)
      return b.stop.len) := by
  simp only [processBuffer, messageLoop_eq _ b (Nat.lt_succ_self _), bind_assoc, pure_bind]

/-- A processed message lies inside the buffer. -/
theorem Buffer.messages_inside {b : Buffer} {p : ℕ} (hp : p ∈ b.messages) :
    p + nlmsgLen (shift b.memory p) ≤ b.bytes.length := by
  obtain ⟨t, hv, hok, rfl⟩ := mem_accepted hp
  have hin := walk_inside hv hok
  have hstart : b.start.hdr + b.start.len = b.bytes.length := Nat.zero_add _
  rwa [hstart] at hin

/-- The loop ends in every buffer, processes nothing but messages that lie inside the buffer, and
of a buffer of complete messages it processes each one, in order. -/
theorem messages_processed (b : Buffer) (hlen : b.bytes.length < 2 ^ 31) :
    (∀ {m : Type → Type} [Monad m] [LawfulMonad m] (process : ℕ → m Unit) (n : ℕ),
      b.bytes.length < n →
      messageLoop process b n = (do b.messages.forM process; pure (some b.stop))) ∧
    (∀ p ∈ b.messages, p + nlmsgLen (shift b.memory p) ≤ b.bytes.length) ∧
    ∀ msgs, Framed msgs b.bytes → b.messages = starts 0 msgs ∧
      List.Forall₂ (fun p msg => Holds b.memory p msg.bytes) b.messages msgs := by
  refine ⟨fun process n hn => messageLoop_eq process b hn, fun p => b.messages_inside, ?_⟩
  intro msgs hmsgs
  obtain ⟨ht, hacc, hall⟩ := framed_walk hmsgs (buffer_holds b.bytes b.beyond) (toInt_of_lt hlen)
  obtain ⟨k, hk, ht'⟩ := walk_turns b.memory b.start
  have hk : msgs.length ≤ b.bytes.length := ht.unique ht' ▸ hk
  have heq : b.messages = starts 0 msgs := by
    rw [← hacc, accepted_of_turns ht le_rfl]
    exact accepted_of_turns ht hk
  exact ⟨heq, heq ▸ hall⟩

/-- A request for the links and one for the addresses. -/
def twoDumps : Buffer where
  bytes :=
    [20, 0, 0, 0, 18, 0, 1, 1, 1, 0, 0, 0, 0, 0, 0, 0, 0, 0, 0, 0] ++
    [17, 0, 0, 0, 22, 0, 1, 1, 2, 0, 0, 0, 0, 0, 0, 0, 0]
  beyond := fun _ => 0

/-- A request for the links. -/
def linksRequest : Message where
  bytes := [20, 0, 0, 0, 18, 0, 1, 1, 1, 0, 0, 0, 0, 0, 0, 0, 0, 0, 0, 0]
  length_ge := Nat.le_of_ble_eq_true rfl
  nlmsg_len := rfl

/-- A request for the addresses. -/
def addressesRequest : Message where
  bytes := [17, 0, 0, 0, 22, 0, 1, 1, 2, 0, 0, 0, 0, 0, 0, 0, 0]
  length_ge := Nat.le_of_ble_eq_true rfl
  nlmsg_len := rfl

theorem twoDumps_framed : Framed [linksRequest, addressesRequest] twoDumps.bytes :=
  .cons linksRequest [] rfl (.last addressesRequest [] (by decide))

theorem messages_processed_twoDumps :
    (∀ {m : Type → Type} [Monad m] [LawfulMonad m] (process : ℕ → m Unit) (n : ℕ),
      twoDumps.bytes.length < n → messageLoop process twoDumps n =
        (do twoDumps.messages.forM process; pure (some twoDumps.stop))) ∧
    (∀ p ∈ twoDumps.messages, p + nlmsgLen (shift twoDumps.memory p) ≤ twoDumps.bytes.length) ∧
    twoDumps.messages = [0, 20] ∧
    List.Forall₂ (fun p msg => Holds twoDumps.memory p msg.bytes) twoDumps.messages
      [linksRequest, addressesRequest] := by
  obtain ⟨hloop, hinside, hframed⟩ := messages_processed twoDumps (by decide)
  obtain ⟨hstarts, hholds⟩ := hframed _ twoDumps_framed
  exact ⟨fun process n hn => hloop process n hn, hinside, hstarts, hholds⟩

/-! ### The value of `len` after the loop -/

/-- The loop has left `len` as it was exactly if it has processed nothing. -/
theorem Buffer.stop_len (b : Buffer) :
    b.stop.len = b.bytes.length ↔ okAt b.memory b.start = false := by
  obtain ⟨k, hk, ht⟩ := walk_turns b.memory b.start
  have hk : k ≤ b.bytes.length := hk
  have hstop : b.stop = (nextAt b.memory)^[k] b.start := final_of_turns ht hk
  rw [hstop]
  cases k with
  | zero =>
      have hno : okAt b.memory b.start = false := ht.stops
      exact iff_of_true rfl hno
  | succ k =>
      have hok := ht.ok_of_pos
      have hv : Visits (okAt b.memory) (nextAt b.memory) b.start
          ((nextAt b.memory)^[k + 1] b.start) := ht.visits le_rfl
      have hend := visits_end hv
      have hle : (nextAt b.memory b.start).hdr ≤ ((nextAt b.memory)^[k + 1] b.start).hdr := by
        rw [Function.iterate_succ_apply]
        exact le_of_visits (ht.tail.visits le_rfl)
      have hlt := lt_nextAt hok
      refine iff_of_false ?_ (by rw [hok]; exact Bool.noConfusion)
      intro hlen
      have hsame : toInt ((nextAt b.memory)^[k + 1] b.start).len = toInt b.start.len :=
        congrArg toInt hlen
      omega

/-- The messages of a buffer do not depend on what lies beyond it. -/
theorem Buffer.messages_congr {b b' : Buffer} (h : b.bytes = b'.bytes) :
    b.messages = b'.messages := by
  have hsub : ∀ {b b' : Buffer}, b.bytes = b'.bytes → ∀ p ∈ b.messages, p ∈ b'.messages := by
    intro b b' h p hp
    have hin := b.messages_inside hp
    obtain ⟨t, hv, hok, rfl⟩ := mem_accepted hp
    have hm : ∀ i < b.bytes.length, b.memory (0 + i) = b'.memory (0 + i) := by
      intro i hi
      rw [Nat.zero_add, Buffer.memory, Buffer.memory, ← h, buffer_of_lt hi, buffer_of_lt hi]
    have hend := visits_end hv
    have ht := okAt_iff.mp hok
    have hstart : b'.start = b.start := by
      unfold Buffer.start
      rw [h]
    obtain ⟨t', hv', hok', ht'⟩ := walk_transfer hm hv hok (Nat.zero_add _).symm hin b'.start 0
      rfl rfl (by rw [hstart]; simp only [Buffer.start] at hend ⊢; omega)
    rw [Nat.zero_add] at ht'
    exact ht' ▸ accepted_of_visits le_rfl hv' hok'
  exact accepted_ext fun p => ⟨hsub h p, hsub h.symm p⟩

/-! ### The two handlers -/

theorem sendMsgAt_single (n : ℕ) (nl : NlId) (b : Buffer) :
    sendMsgAt n nl [b] = (do
      b.messages.forM fun hdr => processNlmsghdrAt n nl (shift b.memory hdr)
      return b.bytes.length) := by
  simp only [sendMsgAt, sendMsgLoop, processBuffer_eq, bind_assoc, pure_bind, Nat.zero_add]

theorem sendToAt_eq (n : ℕ) (nl : NlId) (b : Buffer) :
    sendToAt n nl b 0 = (do
      b.messages.forM fun hdr => processNlmsghdrAt n nl (shift b.memory hdr)
      return b.stop.len) := by
  have hflags : ¬ (0 : ℤ) ≠ 0 := fun h => h rfl
  rw [sendToAt, if_neg hflags]
  exact processBuffer_eq n nl b

/-- For a payload, both handlers process the same messages and leave the same state; both answer
with the length of the payload exactly if `nlmsg_ok` rejects its start. -/
theorem sendto_agrees (bytes : List UInt8) (beyond beyond' : Memory) (n : ℕ) (nl : NlId) (s : St) :
    let b : Buffer := ⟨bytes, beyond⟩
    let b' : Buffer := ⟨bytes, beyond'⟩
    b.messages = b'.messages ∧
    (∀ s', (∃ v, (sendToAt n nl b 0).run s = .ok (v, s')) ↔
      (sendMsgAt n nl [b]).run s = .ok (bytes.length, s')) ∧
    ((∃ s', (sendToAt n nl b 0).run s = .ok (bytes.length, s') ∧
      (sendMsgAt n nl [b']).run s = .ok (bytes.length, s')) ↔ okAt b.memory b.start = false) := by
  intro b b'
  have hmsgs : b.messages = b'.messages := Buffer.messages_congr rfl
  refine ⟨hmsgs, ?_, ?_⟩
  · intro s'
    rw [sendToAt_eq, sendMsgAt_single, StateT.run_bind, StateT.run_bind]
    rcases (b.messages.forM fun hdr => processNlmsghdrAt n nl (shift b.memory hdr)).run s with
      e | ⟨⟨⟩, s₁⟩
    · exact iff_of_false (by rintro ⟨v, hv⟩; cases hv) (fun h => by cases h)
    · constructor
      · rintro ⟨v, hv⟩
        cases hv
        rfl
      · intro h
        cases h
        exact ⟨b.stop.len, rfl⟩
  · constructor
    · rintro ⟨s', hto, -⟩
      rw [sendToAt_eq, StateT.run_bind] at hto
      rcases hrun : (b.messages.forM fun hdr => processNlmsghdrAt n nl (shift b.memory hdr)).run s
        with e | ⟨⟨⟩, s₁⟩
      · rw [hrun] at hto
        cases hto
      · rw [hrun] at hto
        have hv : b.stop.len = bytes.length := congrArg Prod.fst (Except.ok.inj hto)
        exact b.stop_len.mp hv
    · intro hno
      have hnil : b.messages = [] := accepted_stop _ hno
      have hlen : b.stop.len = bytes.length := b.stop_len.mpr hno
      refine ⟨s, ?_, ?_⟩
      · rw [sendToAt_eq, hnil, hlen]
        rfl
      · rw [sendMsgAt_single, ← hmsgs, hnil]
        rfl

/-- A request for the links of a node with a loopback device. -/
def linkRequest : List UInt8 := [20, 0, 0, 0, 18, 0, 1, 1, 1, 0, 0, 0, 0, 0, 0, 0, 0, 0, 0, 0]

def loopbackNode : St := St.initial { devices := [{ type := .loopback }] } (Env.script [] [])

theorem sendto_answers_zero :
    let b : Buffer := ⟨linkRequest, fun _ => 0⟩
    ((sendToAt 1 0 b 0).run loopbackNode).toOption.map Prod.fst = some 0 ∧
    ((sendMsgAt 1 0 [b]).run loopbackNode).toOption.map Prod.fst = some 20 ∧
    ¬ ∃ s', (sendToAt 1 0 b 0).run loopbackNode = .ok (linkRequest.length, s') ∧
      (sendMsgAt 1 0 [b]).run loopbackNode = .ok (linkRequest.length, s') := by
  have hto : ((sendToAt 1 0 ⟨linkRequest, fun _ => 0⟩ 0).run loopbackNode).toOption.map Prod.fst =
    some 0 := by decide +kernel
  have hmsg : ((sendMsgAt 1 0 [⟨linkRequest, fun _ => 0⟩]).run loopbackNode).toOption.map Prod.fst =
    some 20 := by decide +kernel
  refine ⟨hto, hmsg, ?_⟩
  rintro ⟨s', h, -⟩
  rw [h] at hto
  have hlen : linkRequest.length = 0 := Option.some.inj hto
  exact absurd hlen (by decide)

end Grail
