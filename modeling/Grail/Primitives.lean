import Grail.State

/-! # Specifications of the primitive operations

One lemma `wp_*` for each primitive of `State.lean`.  The operations that act on a tracee can
end in a stop at which the emulator does not expect the tracee, so their results are relations:

* `Completes p v c c'`: a `FAKE` of `p` that reached a stop.  From an entry stop the call is
  answered (`Ctl.answer`); from an exit stop the thread runs on to its next call
  (`Ctl.overrun`).
* `Passes p c c'`: a `HandleSyscallAfter` that reached a stop.
* `Finish τ p v c c'`: on behalf of `τ`, the call of `p` is completed and the thread of `τ`
  rescheduled.

`Quiet d d'` says that only stores into tracees, the answers of ns-3, the free send space and
the routing table differ. -/

namespace Grail

open Programs

/-! ### Access -/

@[simp] theorem wp_modifyCtl (f : Ctl → Ctl) (Q : Unit → St → Prop) (s : St) :
    wp (modifyCtl f) Q s ↔ Q () { s with c := f s.c } := wp_modify _ _ _

@[simp] theorem wp_modifyData (f : Data → Data) (Q : Unit → St → Prop) (s : St) :
    wp (modifyData f) Q s ↔ Q () { s with d := f s.d } := wp_modify _ _ _

@[simp] theorem wp_modifyFds (f : Fds → Fds) (Q : Unit → St → Prop) (s : St) :
    wp (modifyFds f) Q s ↔ Q () { s with d := s.d.withFds (f s.d.fds) } := wp_modify _ _ _

def Data.setStores (st : List (Pid × Ptr × Val)) (d : Data) : Data := { d with stores := st }

def Data.setAsks (n : ℕ) (d : Data) : Data := { d with asks := n }

@[simp] theorem wp_ask (Q : Ns3Answer → St → Prop) (s : St) :
    wp ask Q s ↔ Q (s.c.env.ns3 s.d.asks) { s with d := s.d.setAsks (s.d.asks + 1) } := by
  simp [ask, Data.setAsks]

/-! ### Tracees -/

namespace Ctl

/-- The thread `p`, stopped at the entry of `th`, gets the answer `v` instead of the kernel's. -/
def answer (p : Pid) (th : Tracee) (v : ℤ) (c : Ctl) : Ctl :=
  { c with
    threads := Function.update c.threads p (some { th with faked := true, phase := .exit, rax := v })
    waits := c.waits + 1
    log :=
      ⟨c.task, p, .rax v, c.inCall c.task.thread, some (.exit, th.serial)⟩ ::
      ⟨c.task, p, .wait, c.inCall c.task.thread, some (.entry, th.serial)⟩ ::
      ⟨c.task, p, .origRax, c.inCall c.task.thread, some (.entry, th.serial)⟩ :: c.log }

/-- The same for a thread at an exit stop: it runs to the entry stop of the call `next`. -/
def overrun (p : Pid) (th : Tracee) (next : Syscall) (v : ℤ) (c : Ctl) : Ctl :=
  { c with
    threads := Function.update c.threads p (some ⟨.entry, next, false, v, c.nextSerial, c.now⟩)
    waits := c.waits + 1
    nextSerial := c.nextSerial + 1
    log :=
      ⟨c.task, p, .rax v, c.inCall c.task.thread, some (.entry, c.nextSerial)⟩ ::
      ⟨c.task, p, .wait, c.inCall c.task.thread, some (.exit, th.serial)⟩ ::
      ⟨c.task, p, .origRax, c.inCall c.task.thread, some (.exit, th.serial)⟩ :: c.log }

/-- The thread `p` ends while it should be answered. -/
def vanish (p : Pid) (th : Tracee) (c : Ctl) : Ctl :=
  { c with
    threads := Function.update c.threads p none
    waits := c.waits + 1
    log :=
      ⟨c.task, p, .wait, c.inCall c.task.thread, some (th.phase, th.serial)⟩ ::
      ⟨c.task, p, .origRax, c.inCall c.task.thread, some (th.phase, th.serial)⟩ :: c.log }

/-- The kernel answers the call of `p`. -/
def pass (p : Pid) (th : Tracee) (retval : ℤ) (c : Ctl) : Ctl :=
  { c with
    threads := Function.update c.threads p (some { th with phase := .exit, rax := retval })
    waits := c.waits + 1
    executed := executes true th (some retval) ++ c.executed
    log := ⟨c.task, p, .wait, c.inCall c.task.thread, some (.entry, th.serial)⟩ :: c.log }

/-- The same for a thread at an exit stop. -/
def passOver (p : Pid) (th : Tracee) (next : Syscall) (c : Ctl) : Ctl :=
  { c with
    threads := Function.update c.threads p (some ⟨.entry, next, false, -ENOSYS, c.nextSerial, c.now⟩)
    waits := c.waits + 1
    nextSerial := c.nextSerial + 1
    log := ⟨c.task, p, .wait, c.inCall c.task.thread, some (.exit, th.serial)⟩ :: c.log }

end Ctl

/-- A `FAKE` of thread `p` reaches a stop. -/
inductive Completes (p : Pid) (v : ℤ) (c : Ctl) : Ctl → Prop
  | atEntry {th : Tracee} : c.threads p = some th → th.phase = .entry →
      Completes p v c (c.answer p th v)
  | atExit {th : Tracee} (next : Syscall) : c.threads p = some th → th.phase = .exit →
      Completes p v c (c.overrun p th next v)

/-- A `FAKE` of thread `p` meets the end of the thread. -/
inductive Vanishes (p : Pid) (c : Ctl) : Ctl → Prop
  | mk {th : Tracee} : c.threads p = some th → c.env.wait c.waits = .exited →
      Vanishes p c (c.vanish p th)

/-- A `HandleSyscallAfter` of thread `p` reaches a stop. -/
inductive Passes (p : Pid) (c : Ctl) : Ctl → Prop
  | atEntry {th : Tracee} (retval : ℤ) : c.threads p = some th → th.phase = .entry →
      th.origRax ≠ .exit → Passes p c (c.pass p th retval)
  | atExit {th : Tracee} (next : Syscall) : c.threads p = some th → th.phase = .exit →
      Passes p c (c.passOver p th next)

/-- On behalf of `τ`, the call of `p` is answered with `v` and the thread of `τ` rescheduled. -/
def Finish (τ : Task) (p : Pid) (v : ℤ) (c c' : Ctl) : Prop :=
  ∃ c₁, Completes p v (c.onTask τ) c₁ ∧ c' = (c₁.resched τ.thread).onTask c.task

theorem wp_waitForSyscall {handled : Bool} {p : Pid} {Q : Bool → St → Prop} {s : St}
    (hgone : ∀ th, s.c.threads p = some th →
      (th.phase = .entry ∧ th.origRax = .exit ∨ s.c.env.wait s.c.waits = .exited) →
      Q false { s with c := s.c.exited p th handled })
    (hexit : ∀ th next retval, s.c.threads p = some th → th.phase = .entry →
      th.origRax ≠ .exit → s.c.env.wait s.c.waits = .stopped next retval →
      Q true { s with c := s.c.toExit p th retval handled })
    (hentry : ∀ th next retval, s.c.threads p = some th → th.phase = .exit →
      s.c.env.wait s.c.waits = .stopped next retval → Q true { s with c := s.c.toEntry p next }) :
    wp (waitForSyscall handled p) Q s := by
  unfold waitForSyscall
  simp only [wp_bind, wp_get]
  cases hth : s.c.threads p with
  | none => simp
  | some th =>
      simp only [wp_ite]
      refine ⟨fun h => ?_, fun h => ?_⟩
      · simpa using hgone th hth (Or.inl h)
      · cases hw : s.c.env.wait s.c.waits with
        | never => simp
        | exited => simpa using hgone th hth (Or.inr hw)
        | stopped next retval =>
            cases hp : th.phase with
            | entry =>
                have hx : th.origRax ≠ .exit := fun hx => h ⟨hp, hx⟩
                simpa using hexit th next retval hth hp hx hw
            | exit => simpa using hentry th next retval hth hp hw

theorem wp_setOrigRax {p : Pid} {Q : Unit → St → Prop} {s : St}
    (h : ∀ th, s.c.threads p = some th →
      Q () { s with c := (s.c.note .origRax p).setThread p (some { th with faked := true }) }) :
    wp (setOrigRax p) Q s := by
  unfold setOrigRax
  simp only [wp_bind, wp_get]
  cases hth : s.c.threads p with
  | none => simp
  | some th => simpa using h th hth

theorem wp_setRax {p : Pid} {v : ℤ} {Q : Unit → St → Prop} {s : St}
    (h : ∀ th, s.c.threads p = some th →
      Q () { s with c := (s.c.note (.rax v) p).setThread p (some { th with rax := v }) }) :
    wp (setRax p v) Q s := by
  unfold setRax
  simp only [wp_bind, wp_get]
  cases hth : s.c.threads p with
  | none => simp
  | some th => simpa using h th hth

theorem wp_fakeAt {p : Pid} {v : ℤ} {res : SyscallHandlerStatusCode}
    {Q : SyscallHandlerStatusCode → St → Prop} {s : St}
    (hc : ∀ c', Completes p v s.c c' → Q res { s with c := c' })
    (hv : ∀ c', Vanishes p s.c c' → Q .error { s with c := c' }) : wp (fakeAt p v res) Q s := by
  unfold fakeAt
  rw [wp_bind]
  refine wp_setOrigRax fun th hth => ?_
  rw [wp_bind, wp_modifyCtl, wp_bind]
  refine wp_waitForSyscall ?_ ?_ ?_
  · intro th' hth' h
    simp only [Ctl.note, Ctl.setThread, Function.update_self, Option.some.injEq] at hth'
    subst hth'
    have hw : s.c.env.wait s.c.waits = .exited := by
      simpa [Tracee.origRax, Ctl.note, Ctl.setThread] using h
    simpa [Ctl.exited, Ctl.note, Ctl.setThread, Ctl.executes, Ctl.vanish, Ctl.stop, hth]
      using hv _ (.mk hth hw)
  · intro th' next retval hth' hp _ _
    simp only [Ctl.note, Ctl.setThread, Function.update_self, Option.some.injEq] at hth'
    subst hth'
    simp only [Bool.not_true, Bool.false_eq_true, if_false]
    rw [wp_bind]
    refine wp_setRax fun th' hth' => ?_
    simp only [Ctl.toExit, Ctl.note, Ctl.setThread, Function.update_self, Option.some.injEq] at hth'
    subst hth'
    have hp : th.phase = .entry := hp
    simpa [Ctl.toExit, Ctl.note, Ctl.setThread, Ctl.executes, Ctl.answer, Ctl.stop, hth, hp]
      using hc _ (.atEntry hth hp)
  · intro th' next retval hth' hp _
    simp only [Ctl.note, Ctl.setThread, Function.update_self, Option.some.injEq] at hth'
    subst hth'
    simp only [Bool.not_true, Bool.false_eq_true, if_false]
    rw [wp_bind]
    refine wp_setRax fun th' hth' => ?_
    simp only [Ctl.toEntry, Ctl.note, Ctl.setThread, Function.update_self, Option.some.injEq] at hth'
    subst hth'
    have hp : th.phase = .exit := hp
    simpa [Ctl.toEntry, Ctl.note, Ctl.setThread, Ctl.overrun, Ctl.stop, hth, hp]
      using hc _ (.atExit next hth hp)

theorem wp_fake {v : ℤ} {res : SyscallHandlerStatusCode}
    {Q : SyscallHandlerStatusCode → St → Prop} {s : St} (he : ∀ s', Q .error s')
    (hc : ∀ c', Completes s.c.pid v s.c c' → Q res { s with c := c' }) : wp (fake v res) Q s := by
  unfold fake
  simp only [wp_bind, wp_get]
  exact wp_fakeAt hc fun _ _ => he _

/-- A `FAKE` at an entry stop. -/
theorem run_fakeAt {p : Pid} {s : St} {th : Tracee} {next : Syscall} {retval v : ℤ}
    {res : SyscallHandlerStatusCode} (hth : s.c.threads p = some th) (hph : th.phase = .entry)
    (hw : s.c.env.wait s.c.waits = .stopped next retval) :
    (fakeAt p v res).run s = .ok (res, { s with c := s.c.answer p th v }) := by
  obtain ⟨phase, call, faked, rax, serial, since⟩ := th
  cases hph
  simp [fakeAt, setOrigRax, setRax, waitForSyscall, modifyCtl, hth, hw, Ctl.note, Ctl.setThread,
    Tracee.origRax, Ctl.toExit, Ctl.answer, Ctl.executes, Ctl.stop]
  rfl

/-- The wait in which the kernel answers the call of `p`. -/
theorem wp_passWait {p : Pid} {Q : Bool → St → Prop} {s : St} (hg : ∀ s', Q false s')
    (hc : ∀ c', Passes p s.c c' → Q true { s with c := c' }) :
    wp (waitForSyscall true p) Q { s with c := s.c.note .wait p } := by
  refine wp_waitForSyscall ?_ ?_ ?_
  · intro th _ _
    exact hg _
  · intro th next retval hth hp hx _
    have hth : s.c.threads p = some th := hth
    simpa [Ctl.toExit, Ctl.note, Ctl.setThread, Ctl.executes, Ctl.pass, Ctl.stop, hth, hp]
      using hc _ (.atEntry retval hth hp hx)
  · intro th next retval hth hp _
    have hth : s.c.threads p = some th := hth
    simpa [Ctl.toEntry, Ctl.note, Ctl.setThread, Ctl.passOver, Ctl.stop, hth, hp]
      using hc _ (.atExit next hth hp)

theorem wp_handleSyscallAfter {Q : SyscallHandlerStatusCode → St → Prop} {s : St}
    (he : ∀ s', Q .error s')
    (hc : ∀ c', Passes s.c.pid s.c c' → Q .success { s with c := c' }) :
    wp handleSyscallAfter Q s := by
  unfold handleSyscallAfter
  simp only [wp_bind, wp_get, wp_modifyCtl]
  refine wp_passWait (fun s' => ?_) fun c' h => ?_
  · simpa using he s'
  · simpa using hc c' h

/-! ### Tracee memory -/

theorem wp_memcpyToTracee {p : Pid} {dst : Ptr} {val : Val} {Q : Unit → St → Prop} {s : St}
    (h : ∀ st, Q () { s with d := s.d.setStores st }) :
    wp (memcpyToTracee p dst val) Q s := by
  unfold memcpyToTracee
  simp only [wp_bind, wp_get]
  cases s.c.threads p with
  | none => simp
  | some th => simpa [Data.setStores] using h ((p, dst, val) :: s.d.stores)

theorem wp_storeToTracee {p : Pid} {dst : Ptr} {val : Val} {Q : Unit → St → Prop} {s : St}
    (h : ∀ st, Q () { s with d := s.d.setStores st }) :
    wp (storeToTracee p dst val) Q s := by
  unfold storeToTracee
  split_ifs with h0
  · exact (wp_pure _ _ _).mpr (h s.d.stores)
  · exact wp_memcpyToTracee h

theorem wp_storeFdSets {p : Pid} {act : ℕ} {r w e : FdSet} {Q : Unit → St → Prop} {s : St}
    (h : Q () { s with d := s.d.setSel act ((s.d.selMem act).store r w e) }) :
    wp (storeFdSets p act r w e) Q s := by
  unfold storeFdSets
  simp only [wp_bind, wp_get]
  split_ifs with hp
  · simp
  · simpa using h

theorem wp_setBsdAddress {addr : Option (ℕ × ℕ)} {out : SockaddrOut} {Q : Bool → St → Prop}
    {s : St} (h : ∀ b st, Q b { s with d := s.d.setStores st }) :
    wp (setBsdAddress addr out) Q s := by
  unfold setBsdAddress
  split_ifs with h0
  · exact (wp_pure _ _ _).mpr (h true s.d.stores)
  · cases addr with
    | none => exact (wp_pure _ _ _).mpr (h false s.d.stores)
    | some a =>
        simp only [wp_bind, wp_get]
        refine wp_memcpyToTracee fun st => ?_
        refine wp_memcpyToTracee fun st' => ?_
        exact (wp_pure _ _ _).mpr (h true st')

theorem wp_getNs3Address {addr : Sockaddr} {Q : Bool → St → Prop} {s : St} (h : ∀ b, Q b s) :
    wp (getNs3Address addr) Q s := by
  unfold getNs3Address
  split_ifs with h0
  · simp
  · simpa using h _

/-! ### Scheduling -/

@[simp] theorem wp_schedule (delay : ℤ) (kind : EventKind) (Q : Unit → St → Prop) (s : St) :
    wp (schedule delay kind) Q s ↔
      (0 ≤ delay → Q () { s with c := s.c.schedule delay.toNat kind }) := by
  unfold schedule
  by_cases h : delay < 0
  · simp [h]
  · simp [h, not_lt.mp h]

/-- The status codes for which `ProcessStatusCode` reschedules the thread. -/
def SyscallHandlerStatusCode.resumes (res : SyscallHandlerStatusCode) : Prop :=
  res = .success ∨ res = .failure

theorem wp_processStatusCode {res : SyscallHandlerStatusCode} {p : Pid} {Q : Unit → St → Prop}
    {s : St} (hr : res.resumes → Q () { s with c := s.c.resched p })
    (hd : res = .manual ∨ res = .delayed → Q () s)
    (hx : res = .systemExit → s.c.app.mayQuit = true → Q () s) :
    wp (processStatusCode res p) Q s := by
  unfold processStatusCode
  cases res with
  | success => simpa using hr (Or.inl rfl)
  | failure => simpa using hr (Or.inr rfl)
  | error => simp
  | manual => simpa using hd (Or.inl rfl)
  | delayed => simpa using hd (Or.inr rfl)
  | systemExit => simpa using hx rfl

@[simp] theorem wp_processStatusCode_error (p : Pid) (Q : Unit → St → Prop) (s : St) :
    wp (processStatusCode .error p) Q s ↔ True := by
  simp [processStatusCode]

@[simp] theorem wp_processStatusCode_success (p : Pid) (Q : Unit → St → Prop) (s : St) :
    wp (processStatusCode .success p) Q s ↔ Q () { s with c := s.c.resched p } := by
  simp [processStatusCode]

@[simp] theorem wp_processStatusCode_failure (p : Pid) (Q : Unit → St → Prop) (s : St) :
    wp (processStatusCode .failure p) Q s ↔ Q () { s with c := s.c.resched p } := by
  simp [processStatusCode]

/-! ### Descriptors and ns-3 sockets -/

@[simp] theorem wp_getNextFD (Q : Fd → St → Prop) (s : St) :
    wp getNextFD Q s ↔ ∀ fd, s.d.fds.nextFD = some fd →
      Q fd { s with d := s.d.withFds (s.d.fds.eraseAvailable fd) } := by
  unfold getNextFD
  simp only [wp_bind, wp_get]
  cases s.d.fds.nextFD with
  | none => simp
  | some fd => simp

@[simp] theorem wp_socketsAt (fd : Fd) (Q : SockId → St → Prop) (s : St) :
    wp (socketsAt fd) Q s ↔ ∀ sock, s.d.fds.sockets.find fd = some sock → Q sock s := by
  unfold socketsAt
  simp only [wp_bind, wp_get]
  cases s.d.fds.sockets.find fd with
  | none => simp
  | some sock => simp

@[simp] theorem wp_newSocket (tcp : Bool) (rx tx : ℕ) (Q : SockId → St → Prop) (s : St) :
    wp (newSocket tcp rx tx) Q s ↔ Q s.d.nextSock { s with d := s.d.newSock tcp rx tx } := by
  simp [newSocket]

@[simp] theorem wp_noteReturned (sock : Option SockId) (conn : SockId) (Q : Unit → St → Prop) (s : St) :
    wp (noteReturned sock conn) Q s ↔ Q () (s.returning sock conn) := wp_modify _ _ _

end Grail
