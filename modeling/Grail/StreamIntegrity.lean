import Grail.StreamCalls

/-! # The byte streams of a connected TCP socket

The calls on a connected TCP socket one after the other: `write`, `read` and `recvfrom` without an
address, the arrival of data, which completes a call that waits, and in between the tracee, which
may change its memory.  `sent` and `received` are the bytes that pass between the emulator and ns-3,
`writes` and `reads` the calls that have returned.

What a call returns is the number of bytes that it has moved: the first bytes of the buffers that
were written make up what is sent, those of the buffers that were read what is received, and nothing
else in the tracee is touched (`stream_integrity`).

The handlers of the emulator take the same branches and record the same results
(`handleWrite_follows`, `handleRead_follows`, `handleRecvFrom_follows`). -/

namespace Grail.Stream

open AddressSpace Bytes Ptrace

/-! ### The calls -/

/-- A `write` that has returned `ret`; `tracee` is the tracee's memory. -/
structure Wrote where
  tracee : Space
  str : ℕ
  ret : ℤ

/-- A `read` or `recvfrom` that has returned `ret`, and the tracee's memory before and after it. -/
structure Got where
  before : Space
  after : Space
  buf : ℕ
  ret : ℤ

/-- The bytes in a range, all of which are mapped. -/
def bytesAt (tracee : Space) (a n : ℕ) : List UInt8 := cells (fun x => (tracee x).getD 0) a n

/-- The first `ret` bytes of the buffer that was written. -/
def Wrote.bytes (w : Wrote) : List UInt8 := bytesAt w.tracee w.str w.ret.toNat

/-- The first `ret` bytes left in the buffer that was read. -/
def Got.bytes (g : Got) : List UInt8 := bytesAt g.after g.buf g.ret.toNat

structure State where
  tracee : Space
  /-- the buffer and the length of the call that waits for data -/
  recvCallback : Option (ℕ × ℕ)
  sent : List UInt8
  received : List UInt8
  writes : List Wrote
  reads : List Got

def State.initial (tracee : Space) : State := ⟨tracee, none, [], [], [], []⟩

inductive Event where
  | write (str count : ℕ)
  | read (buf count : ℕ)
  | recvfrom (buffer length : ℕ) (flags : ℤ)
  /-- data arrive: `NotifyDataRecv` -/
  | arrives
  /-- the tracee runs -/
  | runs (tracee : Space)

/-- An event, with what ns-3's socket answers, what is on the stack, and whether the descriptor is
in `m_nonblocking_sockets`. -/
structure Label where
  event : Event
  sock : Ns3Socket
  stack : Memory
  nonblocking : Bool

/-- The closure `g` of `HandleRead` and of `HandleRecvFrom` without an address. -/
def receive (l : Label) (buf count : ℕ) (s : State) : Option State := do
  let data := l.sock.recv (uint32 count)
  let rlen := int32 data.length
  let tracee ←
    if 0 < rlen then
      (Ptrace.memcpyToTracee s.tracee (store l.stack 0 data) buf 0
        (min count rlen.toNat)).map Prod.snd
    else some s.tracee
  return { s with
    tracee := tracee
    recvCallback := none
    received := s.received ++ data
    reads := s.reads ++ [⟨s.tracee, tracee, buf, rlen⟩] }

/-- What `HandleRead` and `HandleRecvFrom` do with the closure. -/
def receiveOrWait (l : Label) (buf count : ℕ) (s : State) : Option State :=
  if l.sock.rxAvailable ≠ 0 then receive l buf count s
  else if l.nonblocking then
    some { s with reads := s.reads ++ [⟨s.tracee, s.tracee, buf, -EWOULDBLOCK⟩] }
  else some { s with recvCallback := some (buf, count) }

def handleRead (l : Label) (buf count : ℕ) (s : State) : Option State :=
  receiveOrWait l buf count s

/-- The flags are not used with TCP. -/
def handleRecvFrom (l : Label) (buffer length : ℕ) (_flags : ℤ) (s : State) : Option State :=
  receiveOrWait l buffer length s

/-- A `write`; `SYSC_ERROR` ends the emulator. -/
def write (l : Label) (str count : ℕ) (s : State) : Option State :=
  let sending := handleWrite s.tracee l.stack l.sock l.nonblocking str count
  match sending.answer with
  | .returned ret => some { s with
      sent := s.sent ++ sending.handed
      writes := s.writes ++ [⟨s.tracee, str, ret⟩] }
  | .waits => some { s with sent := s.sent ++ sending.handed }
  | .ends => none

def step (s : State) (l : Label) : Option State :=
  match l.event with
  | .write str count => write l str count s
  | .read buf count => handleRead l buf count s
  | .recvfrom buffer length flags => handleRecvFrom l buffer length flags s
  | .arrives =>
      match s.recvCallback with
      | none => some s
      | some (buf, count) => receive l buf count s
  | .runs tracee => some { s with tracee }

/-! ### The handlers of the emulator -/

/-- The closure of `τ` stores the bytes `data` that `Recv` returns and answers the call with their
number (or meets the end of the thread); it is removed. -/
structure Received (τ : Task) (s : St) (sock : SockId) (buf count : ℕ) (data : List UInt8)
    (s' : St) : Prop where
  stores : s'.d.stores = (if 0 < int32 data.length
    then [(τ.thread, buf, Val.bytes (min count (int32 data.length).toNat))] else []) ++ s.d.stores
  answered : ∃ c₁, (Completes τ.thread (int32 data.length) s.c c₁ ∨ Vanishes τ.thread s.c c₁) ∧
    s'.c = (c₁.resched τ.thread).setRecvCallback sock none

section follows

open Programs

variable {s : St} {fd : Fd} {sock : SockId} {ns : Ns3Socket} {buf count : ℕ}

theorem wp_stored {p : Pid} {dst : Ptr} {val : Val} {Q : Unit → St → Prop}
    (h : Q () { s with d := s.d.setStores ((p, dst, val) :: s.d.stores) }) :
    wp (Grail.memcpyToTracee p dst val) Q s := by
  unfold Grail.memcpyToTracee
  simp only [wp_bind, wp_get]
  cases s.c.threads p with
  | none => simp
  | some th => simpa [Data.setStores] using h

/-- The end of both closures. -/
theorem wp_received {τ : Task} {data : List UInt8} {d : Data}
    (hstores : d.stores = (if 0 < int32 data.length
      then [(τ.thread, buf, Val.bytes (min count (int32 data.length).toNat))] else []) ++
        s.d.stores) :
    wp (fakeAt τ.thread (int32 data.length) .success) (fun _ s₁ =>
      wp (processStatusCode .success τ.thread) (fun _ s₂ =>
        Received τ s sock buf count data { s₂ with c := s₂.c.setRecvCallback sock none }) s₁)
      { s with d := d } := by
  refine wp_fakeAt (fun c₁ h₁ => ?_) fun c₁ h₁ => ?_
  · exact (wp_processStatusCode_success _ _ _).mpr ⟨hstores, c₁, .inl h₁, rfl⟩
  · exact (wp_processStatusCode_success _ _ _).mpr ⟨hstores, c₁, .inr h₁, rfl⟩

theorem readCallback_follows {τ : Task} {data : List UInt8}
    (hrecv : (s.c.env.ns3 s.d.asks).ret = int32 data.length) :
    wp (readCallback τ buf count sock) (fun _ s' => Received τ s sock buf count data s') s := by
  unfold readCallback ns3Recv
  simp only [wp_bind, wp_ask, wp_modifyData, wp_pure, wp_ite, wp_modifyCtl, hrecv]
  refine ⟨fun hpos => wp_stored (wp_received ?_), fun hpos => wp_received ?_⟩
  · rw [if_pos hpos]
    rfl
  · rw [if_neg hpos]
    rfl

theorem recvfromCallback_follows {τ : Task} {data : List UInt8} {out : SockaddrOut}
    (hout : out.addr = 0) (hrecv : (s.c.env.ns3 s.d.asks).ret = int32 data.length) :
    wp (recvfromCallback τ buf count out sock)
      (fun _ s' => Received τ s sock buf count data s') s := by
  unfold recvfromCallback ns3Recv setBsdAddress
  simp only [wp_bind, wp_ask, wp_modifyData, wp_pure, hout, if_true, Bool.not_true,
    Bool.false_eq_true, wp_ite, false_implies, not_false_eq_true, forall_const, true_and,
    wp_modifyCtl, hrecv]
  refine ⟨fun hpos => wp_stored (wp_received ?_), fun hpos => wp_received ?_⟩
  · rw [if_pos hpos]
    rfl
  · rw [if_neg hpos]
    rfl

/-- `HandleRead` takes the branches of `receiveOrWait`. -/
theorem handleRead_follows (hfd : s.d.fds.sockets.find fd = some sock)
    (htcp : fd ∈ s.d.fds.tcpSockets) (hrandom : fd ∉ s.d.fds.randomFds)
    (hrx : ns.rxAvailable = s.d.rxAvailable sock)
    (hrecv : (s.c.env.ns3 s.d.asks).ret = int32 (ns.recv (uint32 count)).length) :
    wp (Grail.handleRead fd buf count) (fun res s' =>
      if ns.rxAvailable ≠ 0 then
        res = .manual ∧ Received s.c.task s sock buf count (ns.recv (uint32 count)) s'
      else if fd ∈ s.d.fds.nonblockingSockets then Follows (.returned (-EWOULDBLOCK)) s res s'
      else res = .delayed ∧ s'.c.recvCallback sock = some (.read s.c.task buf count)) s := by
  have hemu : s.d.fds.isEmulated fd = true := by simp [Fds.isEmulated, hfd]
  unfold Grail.handleRead
  simp only [wp_bind, wp_get, wp_ite, wp_throw, wp_socketsAt, wp_pure, wp_modifyCtl, hrx]
  refine ⟨fun hk => absurd hk (by simp [hemu]), fun _ => ⟨fun hk => absurd hk hrandom, fun _ =>
    ⟨fun _ sock' hsock' => ?_, fun hk => absurd hk (by simp [hfd, htcp])⟩⟩⟩
  obtain rfl : sock = sock' := Option.some.inj (hfd.symm.trans hsock')
  refine ⟨fun hdata => ?_, fun hdata => ⟨fun hnb => ?_, fun hnb => ?_⟩⟩
  · simp only [if_pos hdata]
    exact (readCallback_follows hrecv).mono fun _ s' hs' => ⟨trivial, hs'⟩
  · simp only [if_neg hdata, if_pos hnb]
    exact follows_fake resumes_failure
  · simp only [if_neg hdata, if_neg hnb]
    exact ⟨trivial, Function.update_self ..⟩

/-- So does `HandleRecvFrom` without an address. -/
theorem handleRecvFrom_follows {flags : ℤ} {out : SockaddrOut}
    (hfd : s.d.fds.sockets.find fd = some sock) (htcp : s.d.isTcp sock = true)
    (hout : out.addr = 0) (hrx : ns.rxAvailable = s.d.rxAvailable sock)
    (hrecv : (s.c.env.ns3 s.d.asks).ret = int32 (ns.recv (uint32 count)).length) :
    wp (Grail.handleRecvFrom fd buf count flags out) (fun res s' =>
      if ns.rxAvailable ≠ 0 then
        res = .manual ∧ Received s.c.task s sock buf count (ns.recv (uint32 count)) s'
      else if fd ∈ s.d.fds.nonblockingSockets then Follows (.returned (-EWOULDBLOCK)) s res s'
      else res = .delayed ∧
        s'.c.recvCallback sock = some (.recvfrom s.c.task buf count 0 out)) s := by
  unfold Grail.handleRecvFrom
  simp only [wp_bind, wp_get, hfd, wp_ite, wp_pure, wp_modifyCtl, hrx, htcp, if_true]
  refine ⟨fun hdata => ?_, fun hdata => ⟨fun hnb => ?_, fun hnb => ?_⟩⟩
  · simp only [if_pos hdata]
    exact (recvfromCallback_follows hout hrecv).mono fun _ s' hs' => ⟨trivial, hs'⟩
  · simp only [if_neg hdata, if_pos hnb]
    exact follows_fake resumes_success
  · simp only [if_neg hdata, if_neg hnb]
    exact ⟨trivial, Function.update_self ..⟩

end follows

/-! ### What is assumed -/

/-- The words that a call touches are mapped. -/
def Mapped (s : State) (l : Label) : Prop :=
  match l.event with
  | .write str count => Touched s.tracee str (min count l.sock.txAvailable)
  | .read buf count => Touched s.tracee buf (l.sock.recv (uint32 count)).length
  | .recvfrom buffer length _ => Touched s.tracee buffer (l.sock.recv (uint32 length)).length
  | .arrives => ∀ buf count, s.recvCallback = some (buf, count) →
      Touched s.tracee buf (l.sock.recv (uint32 count)).length
  | .runs _ => True

/-- `Send` accepts what fits, `Recv` returns no more than is requested and available, the amounts
are below `2^31`, and what is touched is mapped. -/
structure Regular (s : State) (l : Label) : Prop where
  tx : l.sock.txAvailable < 2 ^ 31
  rx : l.sock.rxAvailable < 2 ^ 31
  send : ∀ bs : List UInt8, bs.length ≤ l.sock.txAvailable → l.sock.send bs = int32 bs.length
  recv : ∀ n, (l.sock.recv n).length ≤ n ∧ (l.sock.recv n).length ≤ l.sock.rxAvailable
  mapped : Mapped s l

/-! ### One step -/

/-- What a step keeps: the streams are made of the bytes that the calls have moved. -/
structure Intact (s : State) : Prop where
  sent : s.sent = s.writes.flatMap Wrote.bytes
  received : s.received = s.reads.flatMap Got.bytes

/-- Only the tracee itself changes its memory outside the bytes of the calls that return. -/
def Kept (s : State) (l : Label) : Prop :=
  ∀ s' ∈ step s l, (∃ tracee, l.event = .runs tracee) ∨
    ∃ gs, s'.reads = s.reads ++ gs ∧
      ∀ x, (∀ g ∈ gs, ¬ (g.buf ≤ x ∧ x < g.buf + g.ret.toNat)) → s'.tracee x = s.tracee x

section steps

variable {s s' : State} {l : Label} {buf count : ℕ}

/-- Bytes that are mapped are delivered as they are. -/
theorem fromTracee_touched {tracee : Space} {stack : Memory} {src len : ℕ}
    (h : Touched tracee src len) : fromTracee tracee stack src len = bytesAt tracee src len := by
  refine List.ext_getElem (by simp [bytesAt]) fun i hi _ => ?_
  rw [length_fromTracee] at hi
  have hbyte := (@memcpyFromTracee_copied tracee stack 0 src len h).inside i hi
  simpa [fromTracee, Bytes.read, bytesAt, cells] using hbyte

/-- A `write` that does not end the emulator passes on what it says it has written. -/
theorem write_intact (hr : Regular s l) (hm : Touched s.tracee buf (min count l.sock.txAvailable))
    (h : write l buf count s = some s') (hi : Intact s) :
    Intact s' ∧ s'.reads = s.reads ∧ s'.tracee = s.tracee := by
  have hcut : (if count < l.sock.txAvailable then count else l.sock.txAvailable) =
      min count l.sock.txAvailable := by
    split_ifs <;> omega
  have hlt : min count l.sock.txAvailable < 2 ^ 31 := (min_le_right _ _).trans_lt hr.tx
  unfold write handleWrite at h
  by_cases hzero : l.sock.txAvailable = 0
  · rw [if_pos hzero] at h
    cases hnb : l.nonblocking with
    | false =>
        simp only [hnb, Bool.false_eq_true, if_false, List.append_nil, Option.some.injEq] at h
        subst h
        exact ⟨hi, rfl, rfl⟩
    | true =>
        simp only [hnb, if_true, List.append_nil, Option.some.injEq] at h
        subst h
        refine ⟨⟨?_, hi.received⟩, rfl, rfl⟩
        have hnone : (-EWOULDBLOCK : ℤ).toNat = 0 := by decide
        simp [hi.sent, Wrote.bytes, bytesAt, cells, hnone]
  · have hret : l.sock.send (fromTracee s.tracee l.stack buf (min count l.sock.txAvailable)) =
        (min count l.sock.txAvailable : ℕ) := by
      rw [hr.send _ (by simp), length_fromTracee, int32_of_lt hlt]
    have htake : (fromTracee s.tracee l.stack buf (min count l.sock.txAvailable)).take
        (uint32 (min count l.sock.txAvailable)) =
          fromTracee s.tracee l.stack buf (min count l.sock.txAvailable) := by
      rw [uint32_of_lt (by omega)]
      exact List.take_of_length_le length_fromTracee.le
    rw [if_neg hzero] at h
    simp only [hcut, htake, hret] at h
    by_cases hpos : 0 < ((min count l.sock.txAvailable : ℕ) : ℤ)
    · rw [if_pos hpos] at h
      cases h
      refine ⟨⟨?_, hi.received⟩, rfl, rfl⟩
      rw [List.flatMap_append, ← hi.sent, fromTracee_touched hm]
      simp only [List.flatMap_singleton, Wrote.bytes, Int.toNat_natCast]
    · rw [if_neg hpos] at h
      cases h

/-- Data are received in the buffer, and nowhere else. -/
theorem receive_intact (hr : Regular s l)
    (hm : Touched s.tracee buf (l.sock.recv (uint32 count)).length)
    (h : receive l buf count s = some s') (hi : Intact s) :
    Intact s' ∧ ∃ g, s'.reads = s.reads ++ [g] ∧
      ∀ x, ¬ (g.buf ≤ x ∧ x < g.buf + g.ret.toNat) → s'.tracee x = s.tracee x := by
  obtain ⟨hreq, havail⟩ := hr.recv (uint32 count)
  have hlt : (l.sock.recv (uint32 count)).length < 2 ^ 31 := havail.trans_lt hr.rx
  have hmin : min count (l.sock.recv (uint32 count)).length = (l.sock.recv (uint32 count)).length :=
    min_eq_right (hreq.trans (uint32_le count))
  unfold receive at h
  simp only [int32_of_lt hlt, Int.toNat_natCast, hmin] at h
  generalize l.sock.recv (uint32 count) = data at *
  by_cases hpos : 0 < (data.length : ℤ)
  · obtain ⟨tracee', hrun, hcopy⟩ :=
      @memcpyToTracee_copied s.tracee (store l.stack 0 data) buf 0 data.length hm
    simp only [if_pos hpos, hrun, Option.map_some, Option.bind_eq_bind, Option.bind_some] at h
    cases h
    refine ⟨⟨hi.sent, ?_⟩, _, rfl, hcopy.outside⟩
    have hbytes : bytesAt tracee' buf data.length = data := by
      refine List.ext_getElem (by simp [bytesAt]) fun i hi₁ hi₂ => ?_
      have hbyte := hcopy.inside i hi₂
      simp only [store_of_lt hi₂] at hbyte
      simp [bytesAt, cells, hbyte]
    simp [hi.received, Got.bytes, hbytes]
  · have hnil : data = [] := List.eq_nil_of_length_eq_zero (by omega)
    subst hnil
    simp only [List.length_nil, Nat.cast_zero, lt_irrefl, if_false, Option.bind_eq_bind,
      Option.bind_some] at h
    cases h
    refine ⟨⟨hi.sent, ?_⟩, _, rfl, fun _ _ => rfl⟩
    simp [hi.received, Got.bytes, bytesAt, cells]

theorem receiveOrWait_intact (hr : Regular s l)
    (hm : Touched s.tracee buf (l.sock.recv (uint32 count)).length)
    (h : receiveOrWait l buf count s = some s') (hi : Intact s) :
    Intact s' ∧ ∃ gs, s'.reads = s.reads ++ gs ∧
      ∀ x, (∀ g ∈ gs, ¬ (g.buf ≤ x ∧ x < g.buf + g.ret.toNat)) → s'.tracee x = s.tracee x := by
  unfold receiveOrWait at h
  split_ifs at h with hrx hnb
  · obtain ⟨hi', g, hg, hkept⟩ := receive_intact hr hm h hi
    exact ⟨hi', [g], hg, fun x hx => hkept x (hx g (List.mem_singleton_self g))⟩
  · cases h
    refine ⟨⟨hi.sent, ?_⟩, _, rfl, fun _ _ => rfl⟩
    have hnone : (-EWOULDBLOCK : ℤ).toNat = 0 := by decide
    simp [hi.received, Got.bytes, bytesAt, cells, hnone]
  · cases h
    exact ⟨⟨hi.sent, hi.received⟩, [], (List.append_nil _).symm, fun _ _ => rfl⟩

/-- A closure ends the emulator only if its buffer is not mapped. -/
theorem receive_isSome (hr : Regular s l)
    (hm : Touched s.tracee buf (l.sock.recv (uint32 count)).length) :
    (receive l buf count s).isSome = true := by
  obtain ⟨hreq, havail⟩ := hr.recv (uint32 count)
  have hlt : (l.sock.recv (uint32 count)).length < 2 ^ 31 := havail.trans_lt hr.rx
  have hmin : min count (l.sock.recv (uint32 count)).length = (l.sock.recv (uint32 count)).length :=
    min_eq_right (hreq.trans (uint32_le count))
  unfold receive
  simp only [int32_of_lt hlt, Int.toNat_natCast, hmin]
  generalize l.sock.recv (uint32 count) = data at *
  obtain ⟨tracee', hrun, -⟩ :=
    @memcpyToTracee_copied s.tracee (store l.stack 0 data) buf 0 data.length hm
  split_ifs <;> simp [hrun]

theorem receiveOrWait_isSome (hr : Regular s l)
    (hm : Touched s.tracee buf (l.sock.recv (uint32 count)).length) :
    (receiveOrWait l buf count s).isSome = true := by
  unfold receiveOrWait
  split_ifs
  · exact receive_isSome hr hm
  · rfl
  · rfl

/-- Only a `write` of no bytes ends the emulator, if there is free send space. -/
theorem step_isSome (hr : Regular s l) (hw : ∀ str, l.event ≠ .write str 0) :
    (step s l).isSome = true := by
  have hm := hr.mapped
  unfold step
  unfold Mapped at hm
  cases he : l.event with
  | write str count =>
      have hcount : 0 < count := Nat.pos_of_ne_zero fun h0 => hw str (h0 ▸ he)
      have hlt : min count l.sock.txAvailable < 2 ^ 31 := (min_le_right _ _).trans_lt hr.tx
      have hcut : (if count < l.sock.txAvailable then count else l.sock.txAvailable) =
          min count l.sock.txAvailable := by
        split_ifs <;> omega
      simp only [write, handleWrite, hcut]
      by_cases hzero : l.sock.txAvailable = 0
      · cases l.nonblocking <;> simp [hzero]
      · have hlen : ((fromTracee s.tracee l.stack str (min count l.sock.txAvailable)).take
            (uint32 (min count l.sock.txAvailable))).length = min count l.sock.txAvailable := by
          rw [List.length_take, length_fromTracee, uint32_of_lt (by omega), min_self]
        have hret := hr.send _ (hlen.trans_le (min_le_right _ _))
        rw [hlen] at hret
        have hpos : 0 < int32 (min count l.sock.txAvailable) :=
          (int32_pos_iff (by omega)).mpr (by omega)
        simp [hzero, hret, hpos]
  | read buf count =>
      rw [he] at hm
      exact receiveOrWait_isSome hr hm
  | recvfrom buffer length flags =>
      rw [he] at hm
      exact receiveOrWait_isSome hr hm
  | arrives =>
      rw [he] at hm
      cases hcb : s.recvCallback with
      | none => simp
      | some cb => simpa using receive_isSome hr (hm cb.1 cb.2 hcb)
  | runs tracee => rfl

theorem step_intact (hr : Regular s l) (h : step s l = some s') (hi : Intact s) :
    Intact s' ∧ Kept s l := by
  suffices H : Intact s' ∧ ((∃ tracee, l.event = .runs tracee) ∨
      ∃ gs, s'.reads = s.reads ++ gs ∧
        ∀ x, (∀ g ∈ gs, ¬ (g.buf ≤ x ∧ x < g.buf + g.ret.toNat)) → s'.tracee x = s.tracee x) by
    refine ⟨H.1, fun s'' hs'' => ?_⟩
    rw [Option.mem_def, h, Option.some.injEq] at hs''
    exact hs'' ▸ H.2
  have hm := hr.mapped
  unfold step at h
  unfold Mapped at hm
  cases he : l.event with
  | write str count =>
      rw [he] at h hm
      obtain ⟨hi', hreads, htracee⟩ := write_intact hr hm h hi
      exact ⟨hi', .inr ⟨[], by rw [hreads, List.append_nil], fun x _ => by rw [htracee]⟩⟩
  | read buf count =>
      rw [he] at h hm
      exact (receiveOrWait_intact hr hm h hi).imp_right .inr
  | recvfrom buffer length flags =>
      rw [he] at h hm
      exact (receiveOrWait_intact hr hm h hi).imp_right .inr
  | arrives =>
      rw [he] at h hm
      cases hcb : s.recvCallback with
      | none =>
          rw [hcb] at h
          cases h
          exact ⟨hi, .inr ⟨[], (List.append_nil _).symm, fun _ _ => rfl⟩⟩
      | some cb =>
          obtain ⟨buf, count⟩ := cb
          rw [hcb] at h
          obtain ⟨hi', g, hg, hkept⟩ := receive_intact hr (hm buf count hcb) h hi
          exact ⟨hi', .inr ⟨[g], hg, fun x hx => hkept x (hx g (List.mem_singleton_self g))⟩⟩
  | runs tracee =>
      rw [he] at h
      cases h
      exact ⟨⟨hi.sent, hi.received⟩, .inl ⟨tracee, rfl⟩⟩

end steps

/-- In every run, the bytes that are sent are those that the calls of `write` say they have written,
and the bytes that are received are those that the calls of `read` and `recvfrom` have left in their
buffers; no other byte of the tracee is touched. -/
theorem stream_integrity (tracee : Space) (ls : List Label) (s : State)
    (hrun : Runs.run step (.initial tracee) ls = some s)
    (hregular : Runs.Meets step Regular (.initial tracee) ls) :
    s.sent = s.writes.flatMap Wrote.bytes ∧ s.received = s.reads.flatMap Got.bytes ∧
      Runs.Meets step Kept (.initial tracee) ls := by
  have hinit : Intact (.initial tracee) := ⟨rfl, rfl⟩
  have hi : Intact s := Runs.run_induction (I := Intact)
    (fun _ _ _ hi hr hs => (step_intact hr hs hi).1) hinit hrun hregular
  exact ⟨hi.sent, hi.received,
    Runs.meets_of_invariant (fun _ _ _ hi hr hs => step_intact hr hs hi) hinit hrun hregular⟩

/-- A socket with `tx` bytes of free send space, and the bytes `data` to be read. -/
def tinySocket (tx : ℕ) (htx : tx < 2 ^ 32) (data : List UInt8) (hrx : data.length < 2 ^ 32) :
    Ns3Socket where
  txAvailable := tx
  rxAvailable := data.length
  send bs := if bs.length ≤ tx then int32 bs.length else -1
  recv n := data.take n
  txAvailable_lt := htx
  rxAvailable_lt := hrx

theorem two_lt : 2 < 2 ^ 32 := by decide

theorem tinySocket_regular {s : State} {event : Event} {stack : Memory} {nonblocking : Bool}
    {tx : ℕ} {data : List UInt8} (htx : tx < 2 ^ 31) (hrx : data.length < 2 ^ 31)
    (hm : Mapped s ⟨event, tinySocket tx (by omega) data (by omega), stack, nonblocking⟩) :
    Regular s ⟨event, tinySocket tx (by omega) data (by omega), stack, nonblocking⟩ where
  tx := htx
  rx := hrx
  send bs hbs := if_pos hbs
  recv n := by simp [tinySocket]
  mapped := hm

/-- Two of the three bytes at 16 are written. -/
def tinyWrite : Label :=
  ⟨.write 16 3, tinySocket 2 two_lt [] (by decide), fun _ => 0, false⟩

/-- Three bytes are read. -/
def tinyRead : Label :=
  ⟨.read 20 8, tinySocket 2 two_lt [7, 8, 9] (by decide), fun _ => 0, false⟩

theorem stream_integrity_tiny :
    ∃ s, Runs.run step (.initial sixteenBytes) [tinyWrite, tinyRead] = some s ∧
      s.sent = [16, 17] ∧ s.received = [7, 8, 9] ∧
      s.reads.flatMap Got.bytes = [7, 8, 9] ∧ s.writes.flatMap Wrote.bytes = [16, 17] := by
  have hrun : (Runs.run step (.initial sixteenBytes) [tinyWrite, tinyRead]).any
      (fun s => s.sent = [16, 17] ∧ s.received = [7, 8, 9]) = true := by decide
  obtain ⟨s, hs, hview⟩ := (Option.any_eq_true _ _).mp hrun
  obtain ⟨hsent, hreceived⟩ := of_decide_eq_true hview
  have hwrite : Touched sixteenBytes 16 (min 3 2) := by
    unfold Touched WordsMapped
    decide
  have hread : Touched sixteenBytes 20 3 := by
    unfold Touched WordsMapped
    decide
  have hregular : Runs.Meets step Regular (.initial sixteenBytes) [tinyWrite, tinyRead] := by
    have hfirst : Regular (.initial sixteenBytes) tinyWrite :=
      @tinySocket_regular (.initial sixteenBytes) (.write 16 3) (fun _ => 0) false 2 [] (by decide)
        (by decide) hwrite
    refine ⟨hfirst, fun s₁ hs₁ => ⟨?_, fun _ _ => trivial⟩⟩
    obtain ⟨-, -, htracee⟩ := write_intact hfirst hwrite hs₁ ⟨rfl, rfl⟩
    have hmapped : Touched s₁.tracee 20 3 := by rwa [htracee]
    exact @tinySocket_regular s₁ (.read 20 8) (fun _ => 0) false 2 [7, 8, 9] (by decide) (by decide)
      hmapped
  obtain ⟨h₁, h₂, -⟩ := stream_integrity sixteenBytes [tinyWrite, tinyRead] s hs hregular
  exact ⟨s, hs, hsent, hreceived, h₂ ▸ hreceived, h₁ ▸ hsent⟩

end Grail.Stream
