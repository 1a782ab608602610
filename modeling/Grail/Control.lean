import Grail.Node
import Grail.PollDetector

/-! # Threads, callbacks and events

The control part `Ctl` of the emulator's state: which thread the emulator works on (`pid`), at
which ptrace stop each traced thread is, the scheduled events of the simulator, the callback
slots of the ns-3 sockets (one per kind and socket) and of the netlink sockets, and the shared
`already_handled` flags of `select`.

* A traced thread is stopped at the entry or at the exit of a system call (`Phase`).  The
  kernel executes the call between the two, or `getpid` if `orig_rax` was rewritten
  (`faked`).  Resumed from an exit stop, it runs until the entry stop of its next call.
* What the outside world answers is read from `env`: how each `WaitForSyscall` ends, and the
  results of the ns-3 calls.
* `Task` identifies the handling of one system call: the thread and the number of the
  dispatch.  Closures carry the task that armed them; the number also names the
  `already_handled` flag that the callbacks of one `select` share.
* The fields of `Ctl` after `waits` are history.  No branch of the emulator reads them; they
  record which call a thread is in, every dispatch, and every effect on a tracee. -/

namespace Grail

/-- The two ptrace stops of a system call. -/
inductive Phase where
  | entry
  | exit
deriving DecidableEq, Repr

/-- A traced thread, stopped in a system call. -/
structure Tracee where
  phase : Phase
  call : Syscall
  /-- `orig_rax` has been set to `SYS_getpid` -/
  faked : Bool
  rax : ℤ
  /-- the number of this system call among all calls of the process -/
  serial : ℕ
  /-- the time of the call's entry stop -/
  since : ℕ
deriving DecidableEq

/-- The system call that `orig_rax` names. -/
def Tracee.origRax (th : Tracee) : Syscall := if th.faked then .getpid else th.call

/-- The handling of one system call. -/
structure Task where
  thread : Pid
  act : ℕ
deriving DecidableEq, Repr

/-! ### Closures -/

/-- What the callbacks of `select` capture: `saved_pid`, `already_handled` and `timeout_event`
(both named by the task) and `fdnr`.  The three pointers are those of the task's call. -/
structure SelectClosure where
  task : Task
  fdnr : Fd
deriving DecidableEq, Repr

inductive RecvCallback where
  | read (task : Task) (buf : Ptr) (count : ℕ)
  | recvfrom (task : Task) (buffer : Ptr) (length : ℕ) (flags : ℤ) (out : SockaddrOut)
  | select (closure : SelectClosure)
deriving DecidableEq, Repr

inductive SendCallback where
  | write (task : Task)
  | select (closure : SelectClosure)
deriving DecidableEq, Repr

inductive AcceptCallback where
  /-- the default handler that `listen` registers -/
  | fakeAccept (sockfd : Fd)
  | select (closure : SelectClosure)
  | accept (task : Task) (sockfd : Fd) (out : SockaddrOut)
deriving DecidableEq, Repr

structure ConnectCallback where
  task : Task
  sockfd : Fd
deriving DecidableEq, Repr

/-- The functions that the emulator schedules. -/
inductive EventKind where
  | handleSyscallBefore (pid : Pid)
  | selectTimeout (task : Task)
  | nanosleep (task : Task)
  | removeClosedSocket (sock : SockId)
deriving DecidableEq, Repr

structure Event where
  time : ℕ
  kind : EventKind
deriving DecidableEq, Repr

/-! ### The outside world -/

/-- How a `WaitForSyscall` ends: with a system call stop (of the call `next` if the thread was
at an exit stop, of the running call with the kernel's result `retval` otherwise), with the
exit of the thread, or not at all. -/
inductive WaitResult where
  | stopped (next : Syscall) (retval : ℤ)
  | exited
  | never
deriving DecidableEq

/-- An answer of ns-3: the result of a call, the amounts of readable data and of free send
space afterwards, and the address it reports (`none` if it is not an `InetSocketAddress`). -/
structure Ns3Answer where
  ret : ℤ := 0
  rx : ℕ := 0
  tx : ℕ := 0
  addr : Option (ℕ × ℕ) := none
deriving DecidableEq, Repr

/-- The answers of the outside world, in the order in which they are asked for. -/
structure Env where
  wait : ℕ → WaitResult
  ns3 : ℕ → Ns3Answer
  /-- what is in the memory of the `nl_pid` of a new netlink socket -/
  heap : NlId → ℤ := fun _ => 0

/-- A call stop at the entry of `call`. -/
def WaitResult.entry (call : Syscall) : WaitResult := .stopped call 0

/-- A call stop at the exit, with the kernel's result `retval`. -/
def WaitResult.exit (retval : ℤ) : WaitResult := .stopped .getpid retval

/-- The outside world whose first answers are `ws` and `as`. -/
def Env.script (ws : List WaitResult) (as : List Ns3Answer) : Env where
  wait i := ws.getD i .never
  ns3 i := as.getD i {}

/-! ### History -/

/-- The effects on tracees that complete a system call. -/
inductive EffectKind where
  /-- `set_reg(target, orig_rax, SYS_getpid)` -/
  | origRax
  /-- `WaitForSyscall(target)` -/
  | wait
  /-- `set_reg(target, rax, val)` -/
  | rax (val : ℤ)
  /-- `ProcessStatusCode` schedules `HandleSyscallBefore(target)` -/
  | resched
deriving DecidableEq, Repr

/-- An effect of completing `task` on the thread `target`, with the dispatch that `task.thread`
is in and the stop `target` is at when it happens. -/
structure Effect where
  task : Task
  target : Pid
  kind : EffectKind
  inCall : Option ℕ
  stop : Option (Phase × ℕ)
deriving DecidableEq, Repr

/-- The value that an effect puts in `rax`. -/
def EffectKind.rax? : EffectKind → Option ℤ
  | .rax v => some v
  | _ => none

/-- The return values, the last one first. -/
def returnValues (log : List Effect) : List ℤ := log.filterMap fun e => e.kind.rax?

/-- A dispatch of `HandleSyscallBefore`: the stop, the call and the time at which it happened. -/
structure Activation where
  pid : Pid
  call : Syscall
  phase : Phase
  serial : ℕ
  start : ℕ
deriving DecidableEq

/-- A call that the kernel executed as the thread made it: `handled` says that a handler passed it
on, `retval` is the result (`none` if the thread ended in the call). -/
structure Executed where
  call : Syscall
  handled : Bool
  retval : Option ℤ
deriving DecidableEq

/-! ### The control state -/

structure Ctl where
  app : App
  env : Env
  /-- the current `pid` -/
  pid : Pid
  /-- `Simulator::Now()` in nanoseconds -/
  now : ℕ
  threads : Pid → Option Tracee
  tidVector : List Pid
  events : List Event
  recvCallback : SockId → Option RecvCallback
  sendCallback : SockId → Option SendCallback
  acceptCallback : SockId → Option AcceptCallback
  connectCallback : SockId → Option ConnectCallback
  /-- a connection attempt is under way -/
  connecting : SockId → Bool
  /-- `recv_callback` of a netlink socket, `none` without `has_recv_callback` -/
  nlCallback : NlId → Option SelectClosure
  alreadyHandled : ℕ → Bool
  pollLoopDetector : PollLoopDetector
  /-- the number of completed waits -/
  waits : ℕ
  /-- the task on whose behalf the emulator works -/
  task : Task
  /-- the dispatch whose call has not been completed -/
  inCall : Pid → Option ℕ
  acts : ℕ → Option Activation
  nextAct : ℕ
  nextSerial : ℕ
  log : List Effect
  executed : List Executed

namespace Ctl

def setThread (p : Pid) (th : Option Tracee) (c : Ctl) : Ctl :=
  { c with threads := Function.update c.threads p th }

/-- The stop thread `p` is at. -/
def stop (c : Ctl) (p : Pid) : Option (Phase × ℕ) :=
  (c.threads p).map fun th => (th.phase, th.serial)

def note (kind : EffectKind) (target : Pid) (c : Ctl) : Ctl :=
  { c with log := ⟨c.task, target, kind, c.inCall c.task.thread, c.stop target⟩ :: c.log }

/-- What the kernel executes when `th` is resumed. -/
def executes (handled : Bool) (th : Tracee) (retval : Option ℤ) : List Executed :=
  if th.phase = .entry ∧ th.faked = false then [⟨th.call, handled, retval⟩] else []

/-- Thread `p` is gone. -/
def exited (p : Pid) (th : Tracee) (handled : Bool) (c : Ctl) : Ctl :=
  { c.setThread p none with
    waits := c.waits + 1, executed := executes handled th none ++ c.executed }

/-- Thread `p` reaches the exit stop of its call. -/
def toExit (p : Pid) (th : Tracee) (retval : ℤ) (handled : Bool) (c : Ctl) : Ctl :=
  { c.setThread p (some { th with phase := .exit, rax := retval }) with
    waits := c.waits + 1, executed := executes handled th (some retval) ++ c.executed }

/-- Thread `p` reaches the entry stop of its next call. -/
def toEntry (p : Pid) (next : Syscall) (c : Ctl) : Ctl :=
  { c.setThread p (some ⟨.entry, next, false, -ENOSYS, c.nextSerial, c.now⟩) with
    waits := c.waits + 1, nextSerial := c.nextSerial + 1 }

/-- A system call of `p` has been caught, the poll loop detector sees it, its handling begins. -/
def dispatch (p : Pid) (th : Tracee) (c : Ctl) : Ctl :=
  { c with
    pollLoopDetector :=
      if c.app.pollLoopDetection then c.pollLoopDetector.handleSystemCall th.origRax
      else c.pollLoopDetector
    task := ⟨p, c.nextAct⟩
    inCall := Function.update c.inCall p (some c.nextAct)
    acts := Function.update c.acts c.nextAct (some ⟨p, th.origRax, th.phase, th.serial, c.now⟩)
    nextAct := c.nextAct + 1 }

/-- `Simulator::Schedule`. -/
def schedule (delay : ℕ) (kind : EventKind) (c : Ctl) : Ctl :=
  { c with events := c.events ++ [⟨c.now + delay, kind⟩] }

/-- The rescheduling of `p` by `ProcessStatusCode`. -/
def resched (p : Pid) (c : Ctl) : Ctl :=
  { (c.note .resched p).schedule (c.app.syscallProcessingTime + c.pollLoopDetector.getDelay)
      (.handleSyscallBefore p) with
    inCall := Function.update c.inCall p none }

/-- `timeout_event->Cancel()`. -/
def cancelTimeout (task : Task) (c : Ctl) : Ctl :=
  { c with events := c.events.filter fun e => e.kind ≠ .selectTimeout task }

def setPid (p : Pid) (c : Ctl) : Ctl := { c with pid := p }

def setNow (time : ℕ) (c : Ctl) : Ctl := { c with now := time }

/-- The `i`-th scheduled event is removed. -/
def removeEvent (i : ℕ) (c : Ctl) : Ctl := { c with events := c.events.eraseIdx i }

/-- The emulator works on behalf of `task`. -/
def onTask (task : Task) (c : Ctl) : Ctl := { c with task := task }

def setRecvCallback (sock : SockId) (cb : Option RecvCallback) (c : Ctl) : Ctl :=
  { c with recvCallback := Function.update c.recvCallback sock cb }

def setSendCallback (sock : SockId) (cb : Option SendCallback) (c : Ctl) : Ctl :=
  { c with sendCallback := Function.update c.sendCallback sock cb }

def setAcceptCallback (sock : SockId) (cb : Option AcceptCallback) (c : Ctl) : Ctl :=
  { c with acceptCallback := Function.update c.acceptCallback sock cb }

def setConnectCallback (sock : SockId) (cb : Option ConnectCallback) (c : Ctl) : Ctl :=
  { c with connectCallback := Function.update c.connectCallback sock cb }

def setConnecting (sock : SockId) (b : Bool) (c : Ctl) : Ctl :=
  { c with connecting := Function.update c.connecting sock b }

def setNlCallback (nl : NlId) (cb : Option SelectClosure) (c : Ctl) : Ctl :=
  { c with nlCallback := Function.update c.nlCallback nl cb }

def setHandled (act : ℕ) (c : Ctl) : Ctl :=
  { c with alreadyHandled := Function.update c.alreadyHandled act true }

/-- The kernel has created the thread `tid`, which starts after the `clone`. -/
def spawn (tid : Pid) (c : Ctl) : Ctl :=
  if 0 < tid then c.setThread tid (some ⟨.exit, .clone, false, 0, 0, c.now⟩) else c

/-- A `clone` returned `tid`: it is recorded, and scheduled after 100 ns. -/
def cloned (tid : Pid) (c : Ctl) : Ctl :=
  ({ c.spawn tid with tidVector := c.tidVector ++ [tid] }).schedule 100 (.handleSyscallBefore tid)

/-- The task's own call has been answered: its thread is at the exit stop of that call. -/
def answered (c : Ctl) (task : Task) : Bool :=
  match c.threads task.thread, c.acts task.act with
  | some th, some a => th.phase = .exit ∧ th.serial = a.serial
  | _, _ => false

end Ctl

end Grail
