import Grail.Frames
import Grail.TraceeMemory

/-! # The bytes that `write` and `sendto` hand to ns-3

The handlers of calls on a connected TCP socket, with the bytes that they copy.  `handleWrite` and
`handleSendTo` say for one call which bytes are passed to `Send` and how the call ends;
`handleWrite_follows` and `handleSendTo_follows` relate them to the handlers of the emulator, which
record the results of ns-3 but not the bytes.

Only `write` looks at the free send space and cuts the buffer to it.  The two calls behave the same
exactly if the buffer is not empty and fits (`write_eq_sendto`). -/

namespace Grail.Stream

open AddressSpace Bytes Ptrace Programs

/-! ### ns-3's socket -/

/-- The conversion to `uint32_t`. -/
def uint32 (n : ℕ) : ℕ := n % 2 ^ 32

/-- The conversion of a `uint32_t` to `int`. -/
def int32 (n : ℕ) : ℤ := Int.bmod n (2 ^ 32)

/-- What ns-3's socket answers in one call. -/
structure Ns3Socket where
  /-- `GetTxAvailable` -/
  txAvailable : ℕ
  /-- `GetRxAvailable` -/
  rxAvailable : ℕ
  /-- the result of `Send` and `SendTo` for the bytes that they are given -/
  send : List UInt8 → ℤ
  /-- the bytes that `Recv` and `RecvFrom` put in a buffer of a given size -/
  recv : ℕ → List UInt8
  /-- both amounts are of the type `uint32_t` -/
  txAvailable_lt : txAvailable < 2 ^ 32
  rxAvailable_lt : rxAvailable < 2 ^ 32

/-- How a call ends for its thread. -/
inductive Answer where
  /-- it returns, and the thread continues -/
  | returned (val : ℤ)
  /-- `SYSC_DELAYED` -/
  | waits
  /-- `SYSC_ERROR`, with which the emulator ends -/
  | ends
deriving DecidableEq, Repr

/-- The bytes that a call passes to ns-3, and its end. -/
structure Sending where
  handed : List UInt8
  answer : Answer
deriving DecidableEq, Repr

/-- An array on the stack, in which there was `stack` before. -/
def fromTracee (tracee : Space) (stack : Memory) (src len : ℕ) : List UInt8 :=
  Bytes.read (memcpyFromTracee tracee stack 0 src len).2 len 0

/-- `HandleWrite` for a connected TCP socket. -/
def handleWrite (tracee : Space) (stack : Memory) (sock : Ns3Socket) (nonblocking : Bool)
    (str count : ℕ) : Sending :=
  if sock.txAvailable = 0 then ⟨[], if nonblocking then .returned (-EWOULDBLOCK) else .waits⟩
  else
    let towrite := if count < sock.txAvailable then count else sock.txAvailable
    let mystr := fromTracee tracee stack str towrite
    let ret := sock.send (mystr.take (uint32 towrite))
    ⟨mystr.take (uint32 towrite), if 0 < ret then .returned ret else .ends⟩

/-- `HandleSendTo` without a destination for a TCP socket. -/
def handleSendTo (tracee : Space) (heap : Memory) (sock : Ns3Socket) (buf len : ℕ) (flags : ℤ) :
    Sending :=
  if flags ≠ 0 ∧ flags ≠ MSG_DONTROUTE then ⟨[], .ends⟩
  else
    let _buf := fromTracee tracee heap buf len
    ⟨_buf.take (uint32 len), .returned (sock.send (_buf.take (uint32 len)))⟩

/-! ### The handlers of the emulator -/

/-- The handler's status and the thread's call agree with `a`.  (If the thread ends before the
result is set, the status is `SYSC_ERROR`.) -/
def Follows (a : Answer) (s : St) (res : SyscallHandlerStatusCode) (s' : St) : Prop :=
  match a with
  | .returned val => res = .error ∨ res.resumes ∧ Completes s.c.pid val s.c s'.c
  | .waits => res = .delayed ∧ s'.c.threads = s.c.threads
  | .ends => res = .error

section follows

variable {s : St} {fd : Fd} {sock : SockId} {ns : Ns3Socket}

theorem follows_fake {v : ℤ} {res : SyscallHandlerStatusCode} {d : Data} (hres : res.resumes) :
    wp (fake v res) (Follows (.returned v) s) { s with d := d } :=
  wp_fake (fun _ => .inl rfl) fun _ hc => .inr ⟨hres, hc⟩

theorem handleWrite_follows (tracee : Space) (stack : Memory) (str count : ℕ)
    (hfd : s.d.fds.sockets.find fd = some sock) (hconn : fd ∈ s.d.fds.connectedSockets)
    (htx : ns.txAvailable = s.d.txAvailable sock) (answer : Sending)
    (hanswer : answer =
      handleWrite tracee stack ns (decide (fd ∈ s.d.fds.nonblockingSockets)) str count)
    (hsend : ns.send answer.handed = (s.c.env.ns3 s.d.asks).ret) :
    wp (Grail.handleWrite fd str count) (Follows answer.answer s) s := by
  have hemu : s.d.fds.isEmulated fd = true := by simp [Fds.isEmulated, hfd]
  unfold Grail.handleWrite unsupported
  simp only [wp_bind, wp_get, wp_ite, wp_throw, wp_socketsAt, wp_pure, wp_modifyCtl]
  refine ⟨fun hk => absurd hk.2.2 (by simp [hemu]), fun _ => ⟨fun hk => absurd hk (by simp [hemu]),
    fun _ => ⟨fun hk => absurd hconn hk, fun _ sock' hsock' => ?_⟩⟩⟩
  obtain rfl : sock = sock' := Option.some.inj (hfd.symm.trans hsock')
  refine ⟨fun hzero => ⟨fun hnb => ?_, fun hnb => ?_⟩, fun hzero => ?_⟩
  · have ha : answer.answer = .returned (-EWOULDBLOCK) := by
      rw [hanswer, handleWrite, if_pos (htx.trans hzero)]
      simp [hnb]
    rw [ha]
    exact follows_fake resumes_failure
  · have ha : answer.answer = .waits := by
      rw [hanswer, handleWrite, if_pos (htx.trans hzero)]
      simp [hnb]
    rw [ha]
    exact ⟨rfl, rfl⟩
  · have ha : answer.answer = if 0 < ns.send answer.handed then .returned (ns.send answer.handed)
        else .ends := by
      rw [hanswer, handleWrite, if_neg (htx ▸ hzero)]
    rw [ha, hsend]
    unfold ns3Send
    simp only [wp_bind, wp_ask, wp_modifyData, wp_pure]
    refine wp_fake (fun s' => ⟨fun _ => ?_, fun h => absurd rfl h⟩) fun c' hc' => ?_
    · split_ifs
      · exact .inl rfl
      · rfl
    · refine ⟨fun h => absurd h (by decide), fun _ => ⟨fun hpos => ?_, fun hpos => ?_⟩⟩
      · rw [if_pos hpos]
        exact .inr ⟨resumes_success, hc'⟩
      · rw [if_neg hpos]
        rfl

theorem handleSendTo_follows (tracee : Space) (heap : Memory) (buf len : ℕ) (flags : ℤ)
    (msgs : Iovec) (hfd : s.d.fds.sockets.find fd = some sock) (answer : Sending)
    (hanswer : answer = handleSendTo tracee heap ns buf len flags)
    (hsend : ns.send answer.handed = (s.c.env.ns3 s.d.asks).ret) :
    wp (Grail.handleSendTo fd msgs flags none) (Follows answer.answer s) s := by
  unfold Grail.handleSendTo
  simp only [wp_bind, wp_get, hfd, wp_ite, wp_pure]
  refine ⟨fun hflags => ?_, fun hflags => ?_⟩
  · have ha : answer.answer = .ends := by rw [hanswer, handleSendTo, if_pos hflags]
    rw [ha]
    rfl
  · have ha : answer.answer = .returned (ns.send answer.handed) := by
      rw [hanswer, handleSendTo, if_neg hflags]
    rw [ha, hsend]
    unfold ns3Send
    simp only [wp_bind, wp_ask, wp_modifyData, wp_pure]
    exact follows_fake resumes_success

end follows

/-! ### The two calls compared -/

/-- TCP's `Send` and `SendTo` take all bytes or none. -/
def AllOrNothing (sock : Ns3Socket) : Prop :=
  ∀ bs : List UInt8, sock.send bs = if bs.length ≤ sock.txAvailable then int32 bs.length else -1

section compare

variable {tracee : Space} {stack : Memory} {src len n : ℕ}

@[simp] theorem length_fromTracee : (fromTracee tracee stack src len).length = len :=
  length_read ..

/-- The bytes do not depend on the length, nor on what was in the array. -/
theorem fromTracee_eq :
    fromTracee tracee stack src len = (List.range len).map (delivered tracee src) := by
  refine List.ext_getElem (by simp) fun i hi _ => ?_
  rw [length_fromTracee] at hi
  have hbyte := (@memcpyFromTracee_delivered tracee stack 0 src len).inside i hi
  simpa [fromTracee, Bytes.read] using hbyte

theorem take_fromTracee (h : n ≤ len) :
    (fromTracee tracee stack src len).take n = (List.range n).map (delivered tracee src) := by
  rw [fromTracee_eq, ← List.map_take, List.take_range, min_eq_left h]

theorem uint32_of_lt (h : n < 2 ^ 32) : uint32 n = n := Nat.mod_eq_of_lt h

theorem uint32_le (n : ℕ) : uint32 n ≤ n := Nat.mod_le n _

/-- A number of bytes is positive as an `int` if it is below `2^31`. -/
theorem int32_pos_iff (h : n < 2 ^ 32) : 0 < int32 n ↔ 0 < n ∧ n < 2 ^ 31 := by
  unfold int32 Int.bmod
  dsimp only
  split_ifs <;> omega

theorem int32_of_lt (h : n < 2 ^ 31) : int32 n = n := by
  unfold int32 Int.bmod
  dsimp only
  split_ifs <;> omega

end compare

/-- `write` and `sendto` pass the same bytes to ns-3 and end alike exactly if there is free send
space, the buffer is not empty and fits in it, and the number of bytes is an `int`.  (The length is
cut to 32 bits by `sendto`, which may be what `write` cuts the buffer to.) -/
theorem write_eq_sendto (tracee : Space) (stack heap : Memory) (sock : Ns3Socket)
    (nonblocking : Bool) (buf n : ℕ) (hsock : AllOrNothing sock) :
    handleWrite tracee stack sock nonblocking buf n = handleSendTo tracee heap sock buf n 0 ↔
      0 < sock.txAvailable ∧ 0 < n ∧ min n sock.txAvailable < 2 ^ 31 ∧
        (n ≤ sock.txAvailable ∨ n % 2 ^ 32 = sock.txAvailable) := by
  have htx := sock.txAvailable_lt
  have hcut : (if n < sock.txAvailable then n else sock.txAvailable) = min n sock.txAvailable := by
    split_ifs <;> omega
  have hto : handleSendTo tracee heap sock buf n 0 =
      ⟨(List.range (uint32 n)).map (delivered tracee buf),
        .returned (if uint32 n ≤ sock.txAvailable then int32 (uint32 n) else -1)⟩ := by
    simp [handleSendTo, take_fromTracee (uint32_le n), hsock _]
  rw [hto]
  by_cases hzero : sock.txAvailable = 0
  · -- `write` waits or returns -EWOULDBLOCK, `sendto` returns 0 or -1
    rw [handleWrite, if_pos hzero]
    refine iff_of_false (fun heq => ?_) (by omega)
    have hans := congrArg Sending.answer heq
    cases nonblocking with
    | false => cases hans
    | true =>
        have hval : -EWOULDBLOCK = if uint32 n ≤ sock.txAvailable then int32 (uint32 n) else -1 := by
          simpa using hans
        split_ifs at hval with hle
        · rw [hzero, Nat.le_zero] at hle
          rw [hle] at hval
          revert hval
          decide
        · revert hval
          decide
  · have hmin : min n sock.txAvailable < 2 ^ 32 := by omega
    have hwrite : handleWrite tracee stack sock nonblocking buf n =
        ⟨(List.range (min n sock.txAvailable)).map (delivered tracee buf),
          if 0 < int32 (min n sock.txAvailable) then .returned (int32 (min n sock.txAvailable))
          else .ends⟩ := by
      simp [handleWrite, hzero, hcut, uint32_of_lt hmin, take_fromTracee le_rfl, hsock _]
    rw [hwrite, Sending.mk.injEq]
    constructor
    · rintro ⟨hbytes, hans⟩
      have hlen : min n sock.txAvailable = uint32 n := by
        simpa using congrArg List.length hbytes
      have hpos : 0 < int32 (min n sock.txAvailable) := by
        by_contra hpos
        rw [if_neg hpos] at hans
        cases hans
      rw [int32_pos_iff hmin] at hpos
      unfold uint32 at hlen
      omega
    · rintro ⟨-, hn, hlt, hfits⟩
      have hlen : uint32 n = min n sock.txAvailable := by
        unfold uint32
        omega
      rw [hlen, if_pos ((int32_pos_iff hmin).mpr (by omega)), if_pos (min_le_right _ _)]
      exact ⟨rfl, rfl⟩

/-- A socket with two bytes of free send space. -/
def twoBytes : Ns3Socket where
  txAvailable := 2
  rxAvailable := 0
  send bs := if bs.length ≤ 2 then int32 bs.length else -1
  recv _ := []
  txAvailable_lt := by decide
  rxAvailable_lt := by decide

theorem write_eq_sendto_two :
    handleWrite sixteenBytes (fun _ => 0) twoBytes false 16 2 =
        handleSendTo sixteenBytes (fun _ => 7) twoBytes 16 2 0 ∧
      handleWrite sixteenBytes (fun _ => 0) twoBytes false 16 2 = ⟨[16, 17], .returned 2⟩ :=
  ⟨(write_eq_sendto sixteenBytes (fun _ => 0) (fun _ => 7) twoBytes false 16 2 fun _ => rfl).mpr
    (by decide), by decide⟩

/-- Of three bytes `write` sends two, `sendto` none. -/
theorem sendto_unclamped :
    ¬ ∀ tracee stack heap sock nonblocking buf n, AllOrNothing sock →
      handleWrite tracee stack sock nonblocking buf n = handleSendTo tracee heap sock buf n 0 := by
  intro hall
  have heq := hall sixteenBytes (fun _ => 0) (fun _ => 0) twoBytes false 16 3 fun _ => rfl
  revert heq
  decide

end Grail.Stream
