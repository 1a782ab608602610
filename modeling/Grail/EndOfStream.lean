import Grail.Blocked
import Grail.Allocation
import Grail.SelectTime

/-! # The end of a stream

The peer of a TCP connection can close it.  ns-3 reports that to the close callbacks of the socket,
and the emulator installs none, so nothing of the emulator runs: `Net` adds to its state which
connections have been closed, and from which socket each dispatched call receives.

`EndsReported`: no thread is blocked in a call that receives from a connection which has been closed
and drained.  `ReturnsEnd`: a call that is made on such a connection returns 0.  No handler does so,
so both hold of a step exactly if it meets `SeesEnd`: nobody gets to the end of a stream. -/

namespace Grail

open Programs

/-- The socket that a call receives from. -/
def receivesFrom (f : Fds) (call : Syscall) : Option SockId := call.recvFd.bind f.sockets.find

structure Net where
  s : St
  /-- the peer has closed the connection -/
  closed : SockId → Bool
  /-- history: the socket that the call of a dispatch receives from -/
  source : ℕ → Option SockId

inductive NetLabel where
  | emulator (l : Label)
  | peerCloses (sock : SockId)
deriving DecidableEq, Repr

/-- Data arrive on a connection that the peer has closed. -/
def Net.arrivesLate (w : Net) (l : Label) : Bool :=
  match l.what with
  | .received sock _ => w.closed sock
  | _ => false

/-- After a step of the emulator. -/
def Net.after (w : Net) (l : Label) (s' : St) : Net :=
  { w with
    s := s'
    source := Function.update w.source w.s.c.nextAct
      ((dispatched w.s l).bind fun disp => receivesFrom w.s.d.fds disp.2) }

/-- The peer closes a TCP connection once, and sends nothing afterwards. -/
def Net.step (w : Net) : NetLabel → Option Net
  | .emulator l => if w.arrivesLate l then none else (Grail.step w.s l).map (w.after l)
  | .peerCloses sock =>
      if sock < w.s.d.nextSock ∧ w.s.d.isTcp sock = true ∧ w.closed sock = false then
        some { w with closed := Function.update w.closed sock true }
      else none

def Net.initial (app : App) (env : Env) : Net :=
  ⟨St.initial app env, fun _ => false, fun _ => none⟩

/-- Thread `p` is blocked in a call that receives from `sock`. -/
def Net.Receives (w : Net) (p : Pid) (sock : SockId) : Prop :=
  ∃ k, w.s.c.inCall p = some k ∧ w.source k = some sock

/-- Nobody is blocked in receiving from a connection that has been closed and drained. -/
def EndsReported (w : Net) : Prop :=
  ∀ p sock, w.Receives p sock → w.closed sock = true → w.s.d.rxAvailable sock ≠ 0

/-- A call that receives from a connection which has been closed and drained returns 0. -/
def ReturnsEnd (w : Net) : NetLabel → Prop
  | .peerCloses _ => True
  | .emulator l =>
      ∀ p call fd sock, dispatched w.s l = some (p, call) → call.recvFd = some fd →
        w.s.d.fds.sockets.find fd = some sock → w.closed sock = true →
        w.s.d.rxAvailable sock = 0 → ∀ s' ∈ Grail.step w.s l,
          ∃ vs, taskResults s'.c.log = vs ++ taskResults w.s.c.log ∧ (⟨p, w.s.c.nextAct⟩, 0) ∈ vs

/-- A connection without data is closed only while nobody receives from it; once a connection is
closed, a call that receives from it finds data, and nobody else is blocked in receiving the last
data. -/
def SeesEnd (w : Net) : NetLabel → Prop
  | .peerCloses sock => w.s.d.rxAvailable sock = 0 → ∀ p, ¬ w.Receives p sock
  | .emulator l =>
      ∀ p call fd sock, dispatched w.s l = some (p, call) → call.recvFd = some fd →
        w.s.d.fds.sockets.find fd = some sock → w.closed sock = true →
        w.s.d.rxAvailable sock ≠ 0 ∧
          ((w.s.c.env.ns3 w.s.d.asks).rx = 0 → ∀ q, q ≠ p → ¬ w.Receives q sock)

/-! ### What is received -/

section receive

variable {s s' : St} {l : Label}

/-- How a call that receives from `sock` ends. -/
inductive ReceiveEnds (sock : SockId) (s : St) : SyscallHandlerStatusCode → St → Prop
  | data {s' : St} : s.d.rxAvailable sock ≠ 0 →
      s'.d.rxAvailable sock = (s.c.env.ns3 s.d.asks).rx →
      s'.c.inCall = Function.update s.c.inCall s.c.task.thread none →
      ReceiveEnds sock s .manual s'
  | empty {res : SyscallHandlerStatusCode} {s' : St} {vs : List (Task × ℤ)} :
      s.d.rxAvailable sock = 0 → taskResults s'.c.log = vs ++ taskResults s.c.log →
      (s.c.task, 0) ∉ vs → ReceiveEnds sock s res s'

/-- The end of both closures. -/
theorem wp_reply_data {sock : SockId} {d : Data} {v : ℤ}
    (hrx : s.d.rxAvailable sock ≠ 0) (hd : d.rxAvailable sock = (s.c.env.ns3 s.d.asks).rx) :
    wp (fakeAt s.c.task.thread v .success) (fun _ s₁ =>
      wp (processStatusCode .success s.c.task.thread) (fun _ s₂ =>
        ReceiveEnds sock s .manual { s₂ with c := s₂.c.setRecvCallback sock none }) s₁)
      { s with d := d } := by
  refine wp_fakeAt (fun c₁ h₁ => ?_) fun c₁ h₁ => ?_
  · have hr : Reads s.c.task s.c (c₁.resched s.c.task.thread) := .finish (Finish.of_completes h₁)
    exact (wp_processStatusCode_success _ _ _).mpr (.data hrx hd hr.inCall)
  · have hr : Reads s.c.task s.c (c₁.resched s.c.task.thread) := Reads.of_vanishes h₁
    exact (wp_processStatusCode_success _ _ _).mpr (.data hrx hd hr.inCall)

theorem wp_readCallback_data {buf : Ptr} {count : ℕ} {sock : SockId}
    (hrx : s.d.rxAvailable sock ≠ 0) :
    wp (readCallback s.c.task buf count sock) (fun _ s' => ReceiveEnds sock s .manual s') s := by
  unfold readCallback ns3Recv
  simp only [wp_bind, wp_ask, wp_modifyData, wp_pure, wp_ite, wp_modifyCtl]
  refine ⟨fun _ => wp_memcpyToTracee fun st => ?_, fun _ => ?_⟩
  · exact wp_reply_data hrx (Function.update_self ..)
  · exact wp_reply_data hrx (Function.update_self ..)

theorem wp_recvfromCallback_data {buffer : Ptr} {length : ℕ} {out : SockaddrOut} {sock : SockId}
    (hrx : s.d.rxAvailable sock ≠ 0) :
    wp (recvfromCallback s.c.task buffer length out sock)
      (fun _ s' => ReceiveEnds sock s .manual s') s := by
  unfold recvfromCallback ns3Recv
  simp only [wp_bind, wp_ask, wp_modifyData, wp_pure]
  refine wp_setBsdAddress fun b st => ?_
  cases b with
  | false => simp
  | true =>
      simp only [Bool.not_true, Bool.false_eq_true, if_false, wp_bind, wp_ite, wp_modifyCtl]
      refine ⟨fun _ => wp_memcpyToTracee fun st' => ?_, fun _ => ?_⟩
      · exact wp_reply_data hrx (Function.update_self ..)
      · exact wp_reply_data hrx (Function.update_self ..)

/-- Without data the call is answered with -`EWOULDBLOCK`, or waits. -/
theorem ReceiveEnds.again {sock : SockId} {res : SyscallHandlerStatusCode} {c' : Ctl}
    (hrx : s.d.rxAvailable sock = 0) (h : Completes s.c.pid (-EWOULDBLOCK) s.c c') :
    ReceiveEnds sock s res { s with c := c' } :=
  .empty hrx (Gives.of_completes h).results (by simp [EWOULDBLOCK])

theorem ReceiveEnds.waits {sock : SockId} {s' : St} (hrx : s.d.rxAvailable sock = 0)
    (hlog : s'.c.log = s.c.log) : ReceiveEnds sock s .delayed s' :=
  .empty hrx (congrArg taskResults hlog) List.not_mem_nil

theorem handle_receives {call : Syscall} {fd : Fd} {sock : SockId} (hcall : call.recvFd = some fd)
    (hsock : s.d.fds.sockets.find fd = some sock) (hrandom : fd ∉ s.d.fds.randomFds) :
    wp (handle call) (fun res s' => res ≠ .error → ReceiveEnds sock s res s') s := by
  unfold handle
  simp only [wp_bind, wp_get]
  cases call with
  | read fd' buf count =>
      obtain rfl : fd' = fd := Option.some.inj hcall
      have hemu : s.d.fds.isEmulated fd' = true := by simp [Fds.isEmulated, hsock]
      unfold handleRead
      simp only [wp_bind, wp_get, wp_ite, wp_throw, wp_socketsAt, wp_pure, wp_modifyCtl]
      refine ⟨fun hk => absurd hk (by simp [hemu]), fun _ => ⟨fun hk => absurd hk hrandom, fun _ =>
        ⟨fun _ sock' hsock' => ?_, fun _ => trivial⟩⟩⟩
      obtain rfl : sock = sock' := Option.some.inj (hsock.symm.trans hsock')
      refine ⟨fun hrx => ?_, fun hrx => ⟨fun _ => ?_, fun _ _ => ?_⟩⟩
      · exact (wp_readCallback_data hrx).mono fun _ _ h _ => h
      · exact wp_fake (fun _ hres => absurd rfl hres) fun c' hc' _ => .again (not_not.mp hrx) hc'
      · exact .waits (not_not.mp hrx) rfl
  | recvfrom fd' buffer length flags out =>
      obtain rfl : fd' = fd := Option.some.inj hcall
      unfold handleRecvFrom
      simp only [wp_bind, wp_get, hsock, wp_ite, wp_pure, wp_modifyCtl]
      refine ⟨fun hrx => ?_, fun hrx => ⟨fun _ => ?_, fun _ _ => ?_⟩⟩
      · exact (wp_recvfromCallback_data hrx).mono fun _ _ h _ => h
      · exact wp_fake (fun _ hres => absurd rfl hres) fun c' hc' _ => .again (not_not.mp hrx) hc'
      · exact .waits (not_not.mp hrx) rfl
  | _ => cases hcall

end receive

/-! ### What is not received -/

/-- The amounts of readable data of the sockets that exist are the same, apart from one socket. -/
structure Untouched (except : Option SockId) (d d' : Data) : Prop where
  nextSock : d.nextSock ≤ d'.nextSock
  rxAvailable : ∀ sock, sock < d.nextSock → except ≠ some sock →
    d'.rxAvailable sock = d.rxAvailable sock

section untouched

variable {s s' : St} {l : Label} {except : Option SockId} {d d₁ d' : Data}

theorem Untouched.of_eq (hn : d'.nextSock = d.nextSock) (hr : d'.rxAvailable = d.rxAvailable) :
    Untouched except d d' := ⟨hn.ge, fun _ _ _ => by rw [hr]⟩

theorem Quiet.untouched (hq : Quiet d₁ d') (h : Untouched except d d₁) : Untouched except d d' := by
  refine ⟨?_, fun sock hlt hne => ?_⟩
  · rw [hq.nextSock]
    exact h.nextSock
  · rw [hq.rxAvailable]
    exact h.rxAvailable sock hlt hne

theorem Untouched.of_set {sock : SockId} {rx : ℕ} (hn : d'.nextSock = d.nextSock)
    (hr : d'.rxAvailable = Function.update d.rxAvailable sock rx) :
    Untouched (some sock) d d' := by
  refine ⟨hn.ge, fun sock' _ hne => ?_⟩
  have hother : sock' ≠ sock := fun h => hne (by rw [h])
  rw [hr, Function.update_of_ne hother]

/-- A new socket is not among those that exist. -/
theorem Untouched.of_new {rx : ℕ} (hn : d'.nextSock = d.nextSock + 1)
    (hr : d'.rxAvailable = Function.update d.rxAvailable d.nextSock rx) :
    Untouched except d d' := by
  refine ⟨?_, fun sock hlt _ => ?_⟩
  · rw [hn]
    exact Nat.le_succ _
  · rw [hr, Function.update_of_ne hlt.ne]

theorem Edit.untouched {call : Syscall} {p : Pid} (h : Edit call p d d') :
    Untouched except d d' := by
  cases h with
  | quiet hq => exact hq.untouched (.of_eq rfl rfl)
  | random _ hq => exact hq.untouched (.of_eq rfl rfl)
  | socket _ hq => exact hq.untouched (.of_new rfl rfl)
  | tcpSocket _ hq => exact hq.untouched (.of_new rfl rfl)
  | netlink _ hq => exact hq.untouched (.of_eq rfl rfl)
  | closeSocket _ _ hq => exact hq.untouched (.of_eq rfl rfl)
  | closeNetlink _ _ _ hq => exact hq.untouched (.of_eq rfl rfl)
  | closeRandom _ _ hq => exact hq.untouched (.of_eq rfl rfl)
  | nonblocking _ hq => exact hq.untouched (.of_eq rfl rfl)
  | listenFailed _ _ hq => exact hq.untouched (.of_eq rfl rfl)

theorem NlWork.untouched {nl : NlId} (h : NlWork nl s s') : Untouched except s.d s'.d := by
  have hsame : s'.d.nextSock = s.d.nextSock ∧ s'.d.rxAvailable = s.d.rxAvailable := by
    induction h with
    | refl => exact ⟨rfl, rfl⟩
    | tail _ h ih =>
        cases h with
        | push => exact ih
        | route => exact ih
        | notify => exact ih
  exact .of_eq hsame.1 hsame.2

theorem St.returning_untouched (sock : Option SockId) (conn : SockId) (s : St)
    (h : Untouched except d s.d) : Untouched except d (s.returning sock conn).d := by
  unfold St.returning
  cases sock with
  | none => exact h
  | some sock =>
      simp only
      split_ifs
      · exact ⟨h.nextSock, h.rxAvailable⟩
      · exact h

theorem Handled.untouched {call : Syscall} {res : SyscallHandlerStatusCode}
    (h : Handled call s res s') (hres : res ≠ .error) :
    Untouched (receivesFrom s.d.fds call) s.d s'.d := by
  cases h with
  | error => exact absurd rfl hres
  | answered _ _ _ he => exact he.untouched
  | listened _ _ _ _ hq => exact hq.untouched (.of_eq rfl rfl)
  | accepted _ _ _ _ hq => exact St.returning_untouched _ _ _ (hq.untouched (.of_eq rfl rfl))
  | nlSend _ _ hw => exact hw.untouched
  | nlOther _ _ _ hq => exact hq.untouched (.of_eq rfl rfl)
  | passed _ _ _ hq => exact hq.untouched (.of_eq rfl rfl)
  | unadvanced _ _ hq => exact hq.untouched (.of_eq rfl rfl)
  | @recvNow _ sock rx _ _ hcall hsock _ hq =>
      have hfrom : receivesFrom s.d.fds call = some sock := by simp [receivesFrom, hcall, hsock]
      rw [hfrom]
      exact hq.untouched (.of_set rfl rfl)
  | connectRefused _ _ _ hq => exact hq.untouched (.of_eq rfl rfl)
  | connectWait _ _ _ hq => exact hq.untouched (.of_eq rfl rfl)
  | connectNow _ _ _ hq => exact hq.untouched (.of_eq rfl rfl)
  | selectNow _ _ _ hq => exact hq.untouched (.of_eq rfl rfl)
  | _ => exact .of_eq rfl rfl

/-- The socket on which data arrive. -/
def Occurrence.arrivesOn : Occurrence → Option SockId
  | received sock _ => some sock
  | _ => none

/-- A step that dispatches no call changes the amount of data of a socket only if data arrive. -/
theorem step_untouched (h : step s l = some s') (hd : dispatched s l = none) :
    Untouched l.what.arrivesOn s.d s'.d := by
  obtain ⟨-, -, ho⟩ := step_cases h
  generalize hl : l.what = what at ho ⊢
  cases ho with
  | @fired i e _ hev _ hf =>
      obtain ⟨t, kind⟩ := e
      have hev : s.c.events[i]? = some ⟨t, kind⟩ := hev
      cases hf with
      | dispatched hc hth =>
          have hcaught : dispatched s l = some _ :=
            dispatched_eq (resumes_eq hl hev rfl) (hc.catches hth)
          rw [hd] at hcaught
          cases hcaught
      | removed hq => exact hq.untouched (.of_eq rfl rfl)
      | _ => exact .of_eq rfl rfl
  | receivedIdle => exact .of_set rfl rfl
  | receivedRead _ _ hq => exact hq.untouched (.of_set rfl (Function.update_idem ..))
  | receivedSelect => exact .of_set rfl rfl
  | incomingLost _ _ hq => exact hq.untouched (.of_new rfl rfl)
  | incomingStored _ _ hq => exact hq.untouched (.of_new rfl rfl)
  | incomingSelect _ _ _ _ hq => exact hq.untouched (.of_new rfl rfl)
  | incomingAccept _ _ _ hq =>
      exact St.returning_untouched _ _ _ (hq.untouched (.of_new rfl rfl))
  | _ => exact .of_eq rfl rfl

end untouched

/-! ### Steps -/

/-- What holds after every run, whatever the peers do. -/
structure Net.Sound (w : Net) : Prop where
  known : Known w.s.c
  partition : w.s.d.fds.Partition
  closed_lt : ∀ sock, w.closed sock = true → sock < w.s.d.nextSock

section steps

variable {w w' : Net} {l : Label} {s' : St}

theorem Net.step_emulator (h : w.step (.emulator l) = some w') :
    w.arrivesLate l = false ∧ ∃ s', Grail.step w.s l = some s' ∧ w' = w.after l s' := by
  simp only [Net.step] at h
  split_ifs at h with hlate
  obtain ⟨s', hs', rfl⟩ := Option.map_eq_some_iff.mp h
  exact ⟨eq_false_of_ne_true hlate, s', hs', rfl⟩

theorem step_nextSock_le {s : St} (h : step s l = some s') : s.d.nextSock ≤ s'.d.nextSock := by
  cases hd : dispatched s l with
  | none => exact (step_untouched h hd).nextSock
  | some disp =>
      obtain ⟨p, call⟩ := disp
      obtain ⟨s₁, res, s₂, hhandles, hrun, hp⟩ := step_handles h hd
      have hh : Handled call s₁ res s₂ := (handle_spec call).elim hrun
      rw [hp.d, ← hhandles.begins.d]
      exact (hh.untouched hp.ne_error).nextSock

theorem Net.Sound.step (hw : w.Sound) {l : NetLabel} (h : w.step l = some w') : w'.Sound := by
  cases l with
  | emulator l =>
      obtain ⟨-, s', hs', rfl⟩ := Net.step_emulator h
      refine ⟨hw.known.step hs', (table_step hs').partition hw.partition, fun sock hc => ?_⟩
      exact (hw.closed_lt sock hc).trans_le (step_nextSock_le hs')
  | peerCloses sock =>
      simp only [Net.step] at h
      split_ifs at h with hguard
      cases h
      refine ⟨hw.known, hw.partition, fun sock' hc => ?_⟩
      by_cases hs : sock' = sock
      · rw [hs]
        exact hguard.1
      · exact hw.closed_lt sock' (by simpa [hs] using hc)

theorem Net.Sound.initial (app : App) (env : Env) : (Net.initial app env).Sound :=
  ⟨Known.initial app env, Fds.Partition.initial, nofun⟩

/-- The calls that were dispatched before receive from where they did. -/
theorem Net.source_after (hw : w.Sound) {p : Pid} {k : ℕ} (hin : w.s.c.inCall p = some k) :
    (w.after l s').source k = w.source k := by
  obtain ⟨a, ha, -⟩ := hw.known.inCall hin
  exact Function.update_of_ne (hw.known.acts_lt ha).ne _ _

/-- A step of the emulator that dispatches no call. -/
theorem endsReported_idle (hw : w.Sound) (he : EndsReported w) (hlate : w.arrivesLate l = false)
    (h : Grail.step w.s l = some s') (hd : dispatched w.s l = none) :
    EndsReported (w.after l s') := by
  rintro p sock ⟨k, hin, hsource⟩ hc
  have hin₀ : w.s.c.inCall p = some k := (step_unblocks h hd).inCall p k hin
  rw [Net.source_after hw hin₀] at hsource
  have hrx : s'.d.rxAvailable sock = w.s.d.rxAvailable sock := by
    refine (step_untouched h hd).rxAvailable sock (hw.closed_lt sock hc) fun harrives => ?_
    unfold Net.arrivesLate at hlate
    cases hwhat : l.what with
    | received sock' rx =>
        rw [hwhat] at harrives hlate
        cases harrives
        exact Bool.false_ne_true (hlate.symm.trans hc)
    | _ => rw [hwhat] at harrives; cases harrives
  show s'.d.rxAvailable sock ≠ 0
  rw [hrx]
  exact he p sock ⟨k, hin₀, hsource⟩ hc

theorem Handles.results {s s₁ : St} {p : Pid} {call : Syscall} (h : Handles s l p call s₁) :
    taskResults s₁.c.log = taskResults s.c.log := by
  cases h with
  | mk _ _ hc _ => exact (Gives.of_caught hc).results

/-- The handling of a call that has been dispatched by `p`. -/
structure Handling (w : Net) (l : Label) (p : Pid) (call : Syscall) (s₁ : St)
    (res : SyscallHandlerStatusCode) (s₂ s' : St) : Prop where
  dispatched : dispatched w.s l = some (p, call)
  begins : Begins w.s p call s₁
  results : taskResults s₁.c.log = taskResults w.s.c.log
  handled : Handled call s₁ res s₂
  processed : Processed p s₂ res s'

namespace Handling

variable {p : Pid} {call : Syscall} {s₁ s₂ : St} {res : SyscallHandlerStatusCode}

/-- Afterwards another thread is blocked only if it was, in the same call. -/
theorem receives_of_ne (h : Handling w l p call s₁ res s₂ s') (hw : w.Sound) {q : Pid}
    {sock : SockId} (hq : q ≠ p) (hr : (w.after l s').Receives q sock) : w.Receives q sock := by
  obtain ⟨k, hin, hsource⟩ := hr
  have hu := (h.handled.unblocks h.processed.ne_error).trans (.of_calm h.processed.calm)
  have hin₁ : s₁.c.inCall q = some k := hu.inCall q k hin
  rw [h.begins.inCall, Function.update_of_ne hq] at hin₁
  exact ⟨k, hin₁, Net.source_after hw hin₁ ▸ hsource⟩

/-- The thread itself receives from the socket of its call. -/
theorem receives_self (h : Handling w l p call s₁ res s₂ s') {sock : SockId}
    (hr : (w.after l s').Receives p sock) : receivesFrom w.s.d.fds call = some sock := by
  obtain ⟨k, hin, hsource⟩ := hr
  have hu := (h.handled.unblocks h.processed.ne_error).trans (.of_calm h.processed.calm)
  have hin₁ : s₁.c.inCall p = some k := hu.inCall p k hin
  rw [h.begins.inCall, Function.update_self, Option.some.injEq] at hin₁
  subst hin₁
  simpa [Net.after, h.dispatched] using hsource

/-- Another thread stays blocked in its call, if the call is not completed. -/
theorem receives_kept (h : Handling w l p call s₁ res s₂ s') (hw : w.Sound) {q : Pid}
    {sock : SockId} (hq : q ≠ p) (hin : s'.c.inCall q = s₁.c.inCall q)
    (hr : w.Receives q sock) : (w.after l s').Receives q sock := by
  obtain ⟨k, hk, hsource⟩ := hr
  refine ⟨k, ?_, (Net.source_after hw hk).trans hsource⟩
  show s'.c.inCall q = some k
  rw [hin, h.begins.inCall, Function.update_of_ne hq, hk]

/-- The data of other sockets are as before. -/
theorem rxAvailable (h : Handling w l p call s₁ res s₂ s') {sock : SockId}
    (hlt : sock < w.s.d.nextSock) (hne : receivesFrom w.s.d.fds call ≠ some sock) :
    s'.d.rxAvailable sock = w.s.d.rxAvailable sock := by
  have hu := h.handled.untouched h.processed.ne_error
  rw [h.begins.d] at hu
  rw [h.processed.d]
  exact hu.rxAvailable sock hlt hne

/-- The call receives from no socket. -/
theorem endsReported_other (h : Handling w l p call s₁ res s₂ s') (hw : w.Sound)
    (he : EndsReported w) (hnone : receivesFrom w.s.d.fds call = none) :
    EndsReported (w.after l s') := by
  intro q sock hr hc
  have hq : q ≠ p := by
    rintro rfl
    have hself := h.receives_self hr
    rw [hnone] at hself
    cases hself
  show s'.d.rxAvailable sock ≠ 0
  rw [h.rxAvailable (hw.closed_lt sock hc) (by simp [hnone])]
  exact he q sock (h.receives_of_ne hw hq hr) hc

/-- The conditions are about the dispatched call. -/
theorem forall_iff (h : Handling w l p call s₁ res s₂ s') {fd : Fd} {sock : SockId}
    (hcall : call.recvFd = some fd) (hsock : w.s.d.fds.sockets.find fd = some sock)
    {P : Pid → SockId → Prop} :
    (∀ p call fd sock, Grail.dispatched w.s l = some (p, call) → call.recvFd = some fd →
      w.s.d.fds.sockets.find fd = some sock → P p sock) ↔ P p sock := by
  constructor
  · intro hall
    exact hall p call fd sock h.dispatched hcall hsock
  · intro hP p' call' fd' sock' hd' hcall' hsock'
    rw [h.dispatched] at hd'
    cases hd'
    rw [hcall] at hcall'
    cases hcall'
    rw [hsock] at hsock'
    cases hsock'
    exact hP

theorem seesEnd_iff (h : Handling w l p call s₁ res s₂ s') {fd : Fd} {sock : SockId}
    (hcall : call.recvFd = some fd) (hsock : w.s.d.fds.sockets.find fd = some sock) :
    SeesEnd w (.emulator l) ↔ (w.closed sock = true → w.s.d.rxAvailable sock ≠ 0 ∧
      ((w.s.c.env.ns3 w.s.d.asks).rx = 0 → ∀ q, q ≠ p → ¬ w.Receives q sock)) :=
  h.forall_iff hcall hsock

theorem returnsEnd_iff (h : Handling w l p call s₁ res s₂ s') (hs : Grail.step w.s l = some s')
    {fd : Fd} {sock : SockId} (hcall : call.recvFd = some fd)
    (hsock : w.s.d.fds.sockets.find fd = some sock) :
    ReturnsEnd w (.emulator l) ↔ (w.closed sock = true → w.s.d.rxAvailable sock = 0 →
      ∃ vs, taskResults s'.c.log = vs ++ taskResults w.s.c.log ∧ (⟨p, w.s.c.nextAct⟩, 0) ∈ vs) := by
  refine (h.forall_iff hcall hsock).trans (imp_congr_right fun _ => imp_congr_right fun _ => ?_)
  simp [hs]

/-- A call that finds no data is not answered with 0. -/
theorem not_zero (h : Handling w l p call s₁ res s₂ s') {vs : List (Task × ℤ)}
    (hvs : taskResults s₂.c.log = vs ++ taskResults s₁.c.log) (hzero : (s₁.c.task, 0) ∉ vs) :
    ¬ ∃ vs, taskResults s'.c.log = vs ++ taskResults w.s.c.log ∧ (⟨p, w.s.c.nextAct⟩, 0) ∈ vs := by
  rintro ⟨vs', hvs', hmem⟩
  have hlog : taskResults s'.c.log = vs ++ taskResults w.s.c.log := by
    rw [h.processed.gives.results, hvs, h.results, List.nil_append]
  obtain rfl : vs' = vs := List.append_cancel_right (hvs'.symm.trans hlog)
  exact hzero (h.begins.task ▸ hmem)

/-- The call receives from `sock`. -/
theorem endsReported_iff (h : Handling w l p call s₁ res s₂ s') (hw : w.Sound)
    (hs : Grail.step w.s l = some s') (he : EndsReported w) {fd : Fd} {sock : SockId}
    (hcall : call.recvFd = some fd) (hsock : w.s.d.fds.sockets.find fd = some sock)
    (hends : ReceiveEnds sock s₁ res s₂) :
    EndsReported (w.after l s') ∧ ReturnsEnd w (.emulator l) ↔ SeesEnd w (.emulator l) := by
  have hfrom : receivesFrom w.s.d.fds call = some sock := by simp [receivesFrom, hcall, hsock]
  -- nothing happens to other sockets
  have other : ∀ q sock', sock' ≠ sock → (w.after l s').Receives q sock' →
      w.closed sock' = true → s'.d.rxAvailable sock' ≠ 0 := by
    intro q sock' hne hr hc
    have hq : q ≠ p := by
      rintro rfl
      have hself := h.receives_self hr
      rw [hfrom] at hself
      exact hne (Option.some.inj hself).symm
    have hsource : receivesFrom w.s.d.fds call ≠ some sock' := by
      rw [hfrom]
      exact fun hs => hne (Option.some.inj hs).symm
    rw [h.rxAvailable (hw.closed_lt sock' hc) hsource]
    exact he q sock' (h.receives_of_ne hw hq hr) hc
  have reported : (w.closed sock = true → ∀ q, (w.after l s').Receives q sock →
      s'.d.rxAvailable sock ≠ 0) ↔ EndsReported (w.after l s') := by
    constructor
    · intro hs q sock' hr hc
      by_cases hne : sock' = sock
      · subst hne
        exact hs hc q hr
      · exact other q sock' hne hr hc
    · exact fun hr hc q hq => hr q sock hq hc
  rw [h.seesEnd_iff hcall hsock, h.returnsEnd_iff hs hcall hsock, ← reported, ← forall_and]
  refine forall_congr' fun hc => ?_
  have hb := h.begins
  cases hends with
  | data hrx hd hin =>
      obtain rfl : s' = s₂ := h.processed.waits_eq not_resumes_manual
      rw [hb.d] at hrx hd
      rw [hb.env] at hd
      rw [hb.task] at hin
      rw [hd, and_iff_right hrx, and_iff_left fun h0 => absurd h0 hrx]
      have hself : s'.c.inCall p = none := by rw [hin, Function.update_self]
      constructor
      · intro hall hzero q hq hr
        have hkept : s'.c.inCall q = s₁.c.inCall q := by rw [hin, Function.update_of_ne hq]
        exact hall q (h.receives_kept hw hq hkept hr) hzero
      · intro hno q hr hzero
        have hq : q ≠ p := by
          rintro rfl
          obtain ⟨k, hk, -⟩ := hr
          have hk : s'.c.inCall q = some k := hk
          rw [hself] at hk
          cases hk
        exact hno hzero q hq (h.receives_of_ne hw hq hr)
  | empty hrx hvs hzero =>
      rw [hb.d] at hrx
      -- the call gets to the end of the stream
      constructor
      · rintro ⟨-, hreturns⟩
        exact absurd (hreturns hrx) (h.not_zero hvs hzero)
      · rintro ⟨hdata, -⟩
        exact absurd hrx hdata

end Handling

/-- A step keeps `EndsReported` and meets `ReturnsEnd` exactly if it meets `SeesEnd`. -/
theorem endsReported_step (hw : w.Sound) (he : EndsReported w) {l : NetLabel}
    (h : w.step l = some w') : EndsReported w' ∧ ReturnsEnd w l ↔ SeesEnd w l := by
  cases l with
  | peerCloses sock =>
      simp only [Net.step] at h
      split_ifs at h
      cases h
      rw [ReturnsEnd, and_true]
      constructor
      · intro he' hrx p hr
        exact he' p sock hr (Function.update_self ..) hrx
      · intro hsees p sock' hr hc hrx
        by_cases hs : sock' = sock
        · subst hs
          exact hsees hrx p hr
        · exact he p sock' hr (by simpa [hs] using hc) hrx
  | emulator l =>
      obtain ⟨hlate, s', hs', rfl⟩ := Net.step_emulator h
      cases hd : dispatched w.s l with
      | none =>
          refine ⟨fun _ p call fd sock hd' => by simp [hd] at hd', fun _ => ⟨?_, ?_⟩⟩
          · exact endsReported_idle hw he hlate hs' hd
          · exact fun p call fd sock hd' => by simp [hd] at hd'
      | some disp =>
          obtain ⟨p, call⟩ := disp
          obtain ⟨s₁, res, s₂, hhandles, hrun, hp⟩ := step_handles hs' hd
          have hh : Handling w l p call s₁ res s₂ s' :=
            ⟨hd, hhandles.begins, hhandles.results, (handle_spec call).elim hrun, hp⟩
          cases hfrom : receivesFrom w.s.d.fds call with
          | none =>
              have hno : ∀ {fd sock}, call.recvFd = some fd →
                  w.s.d.fds.sockets.find fd ≠ some sock := by
                intro fd sock hcall hsock
                simp [receivesFrom, hcall, hsock] at hfrom
              refine ⟨fun _ p' call' fd sock hd' hcall hsock => ?_, fun _ => ⟨?_, ?_⟩⟩
              · cases hd.symm.trans hd'
                exact absurd hsock (hno hcall)
              · exact hh.endsReported_other hw he hfrom
              · intro p' call' fd sock hd' hcall hsock
                cases hd.symm.trans hd'
                exact absurd hsock (hno hcall)
          | some sock =>
              obtain ⟨fd, hcall, hsock⟩ := Option.bind_eq_some_iff.mp hfrom
              have hkey : fd ∈ w.s.d.fds.sockets.keys := StdMap.mem_keys.mpr (by simp [hsock])
              have hrandom : fd ∉ w.s.d.fds.randomFds :=
                Finset.disjoint_left.mp hw.partition.sockets_random hkey
              refine hh.endsReported_iff hw hs' he hcall hsock ?_
              exact (handle_receives hcall (by rw [hh.begins.d]; exact hsock)
                (by rw [hh.begins.d]; exact hrandom)).elim hrun hp.ne_error

end steps

/-! ### Runs -/

/-- In a run nobody is ever blocked in receiving from a connection that has been closed and drained,
and every call that receives from one returns 0, exactly if every step meets `SeesEnd`. -/
theorem run_seesEnd {app : App} {env : Env} {ls : List NetLabel} {w : Net}
    (hrun : Runs.run Net.step (Net.initial app env) ls = some w) :
    Runs.Along Net.step EndsReported (Net.initial app env) ls ∧
        Runs.Meets Net.step ReturnsEnd (Net.initial app env) ls ↔
      Runs.Meets Net.step SeesEnd (Net.initial app env) ls :=
  Runs.along_meets_iff (J := Net.Sound) (fun _ _ _ hw hs => hw.step hs)
    (fun _ _ _ hw he hs => endsReported_step hw he hs)
    (Net.Sound.initial app env)
    (by rintro p sock ⟨k, hk, -⟩; cases hk) hrun

/-- A TCP socket connects, then it is read. -/
def streamEnv : Env :=
  .script [.entry (.socket AF_INET SOCK_STREAM 0), .exit 0,
    .entry (.connect 100 { sa_family := AF_INET }), .exit 0, .entry (.read 100 8 16), .exit 0]
    [{}, {}, { ret := 5 }]

/-- The steps until the socket is connected. -/
def connectLabels : List NetLabel :=
  [.emulator ⟨0, .fire 0⟩, .emulator ⟨0, .fire 0⟩, .emulator ⟨0, .connected 0⟩]

/-- The peer sends five bytes and closes the connection, then the socket is read. -/
def lastDataLabels : List NetLabel :=
  connectLabels ++ [.emulator ⟨0, .received 0 5⟩, .peerCloses 0, .emulator ⟨0, .fire 0⟩]

/-- The socket is read, then the peer closes the connection. -/
def closeLabels : List NetLabel := connectLabels ++ [.emulator ⟨0, .fire 0⟩, .peerCloses 0]

/-- No thread, apart from `p`, is in a call. -/
def Ctl.free (p : Pid) (c : Ctl) : Bool :=
  (List.range c.nextAct).all fun k =>
    match c.acts k with
    | none => true
    | some a => decide (a.pid = p ∨ c.inCall a.pid = none)

theorem Net.not_receives_of_free {w : Net} (hw : w.Sound) {p q : Pid} {sock : SockId}
    (hfree : w.s.c.free p = true) (hq : q ≠ p) : ¬ w.Receives q sock := by
  rintro ⟨k, hk, -⟩
  obtain ⟨a, ha, rfl⟩ := hw.known.inCall hk
  have hact := List.all_eq_true.mp hfree k (List.mem_range.mpr (hw.known.acts_lt ha))
  simp only [ha] at hact
  rcases of_decide_eq_true hact with h | h
  · exact hq h
  · rw [hk] at h
    cases h

/-- Connections are closed while they hold data, and read while nobody else is in a call. -/
def Net.draining (w : Net) : NetLabel → Bool
  | .peerCloses sock => w.s.d.rxAvailable sock ≠ 0
  | .emulator l =>
      match dispatched w.s l with
      | none => true
      | some (p, call) =>
          match receivesFrom w.s.d.fds call with
          | none => true
          | some sock => !w.closed sock || (w.s.d.rxAvailable sock ≠ 0 && w.s.c.free p)

theorem SeesEnd.of_draining {w : Net} (hw : w.Sound) {l : NetLabel} (h : w.draining l = true) :
    SeesEnd w l := by
  cases l with
  | peerCloses sock => exact fun hrx => absurd hrx (of_decide_eq_true h)
  | emulator l =>
      intro p call fd sock hd hcall hsock hc
      have hfrom : receivesFrom w.s.d.fds call = some sock := by simp [receivesFrom, hcall, hsock]
      simp only [Net.draining, hd, hfrom, hc, Bool.not_true, Bool.false_or, Bool.and_eq_true] at h
      exact ⟨of_decide_eq_true h.1, fun _ q hq => Net.not_receives_of_free hw h.2 hq⟩

/-- The last five bytes are read after the end of the stream. -/
theorem run_seesEnd_lastData :
    ∃ w, Runs.run Net.step (Net.initial {} streamEnv) lastDataLabels = some w ∧
      w.closed 0 = true ∧ w.s.d.rxAvailable 0 = 0 ∧ returnValues w.s.c.log = [5, 0, 100] ∧
      Runs.Along Net.step EndsReported (Net.initial {} streamEnv) lastDataLabels ∧
      Runs.Meets Net.step ReturnsEnd (Net.initial {} streamEnv) lastDataLabels := by
  have hrun : (Runs.run Net.step (Net.initial {} streamEnv) lastDataLabels).any
      (fun w => w.closed 0 = true ∧ w.s.d.rxAvailable 0 = 0 ∧
        returnValues w.s.c.log = [5, 0, 100]) = true := by
    decide +kernel
  obtain ⟨w, hs, hview⟩ := (Option.any_eq_true _ _).mp hrun
  obtain ⟨hclosed, hrx, hlog⟩ := of_decide_eq_true hview
  have hmeets : Runs.Meets Net.step (fun w l => w.draining l = true) (Net.initial {} streamEnv)
      lastDataLabels := by
    decide +kernel
  have hsees := Runs.meets_of_invariant (I := Net.Sound)
    (fun _ _ _ hw hd hs => ⟨hw.step hs, SeesEnd.of_draining hw hd⟩)
    (Net.Sound.initial _ _) hs hmeets
  exact ⟨w, hs, hclosed, hrx, hlog, (run_seesEnd hs).mpr hsees⟩

/-- A thread stays blocked in `read` when the peer closes the connection. -/
theorem read_misses_close :
    ¬ ∀ app env ls w, Runs.run Net.step (Net.initial app env) ls = some w → EndsReported w := by
  intro hall
  have hrun : (Runs.run Net.step (Net.initial {} streamEnv) closeLabels).any
      (fun w => w.s.c.inCall 1 = some 2 ∧ w.source 2 = some 0 ∧ w.closed 0 = true ∧
        w.s.d.rxAvailable 0 = 0) = true := by
    decide +kernel
  obtain ⟨w, hs, hview⟩ := (Option.any_eq_true _ _).mp hrun
  obtain ⟨hin, hsource, hclosed, hrx⟩ := of_decide_eq_true hview
  exact hall _ _ _ w hs 1 0 ⟨2, hin, hsource⟩ hclosed hrx

end Grail
