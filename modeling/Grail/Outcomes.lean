import Grail.Emulator
import Grail.Primitives

/-! # What a step of the emulator can do

`Handled call s res s'` lists the ways in which the handler of `call` can end: with the status
`res`, in the state `s'`.  `Occurs s l s'` does the same for a step.  Both say everything that a
handler and a step do, so later modules reason by cases on them and never unfold a handler;
`Handlers` of all calls are covered by `Handled` in `HandlerSpecs`, all steps by `Occurs` in
`StepSpecs`.

A status of `error` ends the emulator, so `Handled` says nothing about it. -/

namespace Grail

/-! ### Changes of the data -/

/-- Only stores into tracees, the answers of ns-3, the free send space and the routing table
differ. -/
structure Quiet (d d' : Data) : Prop where
  fds : d'.fds = d.fds
  nls : d'.nls = d.nls
  isTcp : d'.isTcp = d.isTcp
  listening : d'.listening = d.listening
  rxAvailable : d'.rxAvailable = d.rxAvailable
  selMem : d'.selMem = d.selMem
  nextSock : d'.nextSock = d.nextSock
  nextNl : d'.nextNl = d.nextNl
  arrived : d'.arrived = d.arrived
  returned : d'.returned = d.returned

/-- A change of the data by a call that is answered at once. -/
inductive Edit (call : Syscall) (p : Pid) (d : Data) : Data → Prop
  | quiet {d' : Data} : Quiet d d' → Edit call p d d'
  | random {fd : Fd} {d' : Data} : d.fds.nextFD = some fd →
      Quiet (d.withFds ((d.fds.eraseAvailable fd).addRandom fd)) d' → Edit call p d d'
  | socket {fd : Fd} {tx : ℕ} {d' : Data} : d.fds.nextFD = some fd →
      Quiet ((d.newSock false 0 tx).withFds ((d.fds.eraseAvailable fd).addSocket fd d.nextSock)) d' →
      Edit call p d d'
  | tcpSocket {fd : Fd} {tx : ℕ} {d' : Data} : d.fds.nextFD = some fd →
      Quiet
        ((d.newSock true 0 tx).withFds ((d.fds.eraseAvailable fd).addTcpSocket fd d.nextSock)) d' →
      Edit call p d d'
  | netlink {fd : Fd} {nl_pid : ℤ} {d' : Data} : d.fds.nextFD = some fd →
      Quiet ((d.newNetlink p nl_pid).withFds ((d.fds.eraseAvailable fd).addNetlink fd d.nextNl)) d' →
      Edit call p d d'
  | closeSocket {fd : Fd} {sock : SockId} {d' : Data} : call = .close fd →
      d.fds.sockets.find fd = some sock → Quiet (d.withFds (d.fds.closeSocket fd)) d' →
      Edit call p d d'
  | closeNetlink {fd : Fd} {nl : NlId} {d' : Data} : call = .close fd →
      d.fds.sockets.find fd = none → d.fds.netlinks.find fd = some nl →
      Quiet (d.withFds (d.fds.closeNetlink fd)) d' → Edit call p d d'
  | closeRandom {fd : Fd} {d' : Data} : call = .close fd → fd ∈ d.fds.randomFds →
      Quiet (d.withFds (d.fds.closeRandom fd)) d' → Edit call p d d'
  | nonblocking {fd : Fd} {sock : SockId} {d' : Data} : d.fds.sockets.find fd = some sock →
      Quiet (d.withFds (d.fds.setNonblocking fd)) d' → Edit call p d d'
  | listenFailed {fd : Fd} {sock : SockId} {d' : Data} : d.fds.sockets.find fd = some sock →
      fd ∈ d.fds.tcpSockets → Quiet (d.withFds (d.fds.setListen fd)) d' → Edit call p d d'

/-- The sets that a callback of the select closure `cl` stores. -/
def Data.storeSel (cl : SelectClosure) (r w : FdSet) (d : Data) : Data :=
  d.setSel cl.task.act ((d.selMem cl.task.act).store r w ∅)

/-- The data after a connection came in on `sock`. -/
def Data.income (sock : SockId) (rx tx : ℕ) (d : Data) : Data :=
  (d.newSock true rx tx).arrive sock d.nextSock

/-- What a handler does on tracees and events before it answers its call. -/
inductive Prelude (p : Pid) (c : Ctl) : Ctl → Prop
  | none : Prelude p c c
  | close {sock : SockId} : Prelude p c (c.schedule 1000000000 (.removeClosedSocket sock))
  | origRax {th : Tracee} : c.threads p = some th →
      Prelude p c ((c.note .origRax p).setThread p (some { th with faked := true }))

/-- What the handling of one netlink request does. -/
inductive NlStep (nl : NlId) (s : St) : St → Prop
  | push {replies : List Reply} : NlStep nl s { s with d := s.d.push nl replies }
  | route (rt : List RtEntry) : NlStep nl s { s with d := s.d.setRoutes rt }
  | notify {cl : SelectClosure} {c' : Ctl} : s.c.nlCallback nl = some cl →
      s.c.alreadyHandled cl.task.act = false →
      ((s.d.nls nl).replyQueue ≠ [] ∨ s.c.app.devices = []) →
      Finish cl.task cl.task.thread 1 (s.c.claim cl) c' →
      NlStep nl s ⟨c'.setNlCallback nl none, s.d.storeSel cl {cl.fdnr} ∅⟩

/-- The requests of one call, one after the other. -/
abbrev NlWork (nl : NlId) : St → St → Prop := Relation.ReflTransGen (NlStep nl)

/-! ### `select` -/

/-- The socket `sock` of `fd` is ready for reading, which is requested. -/
def ReadReady (args : SelectArgs) (d : Data) (fd : Fd) (sock : SockId) : Prop :=
  SelectArgs.isSet args.readfds fd = true ∧
    (d.rxAvailable sock ≠ 0 ∨ (d.fds.fakeAcceptedSockets.find fd).isSome = true)

def NetlinkReady (args : SelectArgs) (d : Data) (fd : Fd) (nl : NlId) : Prop :=
  SelectArgs.isSet args.readfds fd = true ∧ (d.nls nl).replyQueue ≠ []

def WriteReady (args : SelectArgs) (d : Data) (fd : Fd) (sock : SockId) : Prop :=
  SelectArgs.isSet args.writefds fd = true ∧ d.txAvailable sock ≠ 0

/-- The requested descriptors that are ready: sockets and netlink sockets for reading, sockets
for writing. -/
structure ReadySets (args : SelectArgs) (d : Data) (rs rn w : FdSet) : Prop where
  sockets : ∀ fd, fd ∈ rs ↔ ∃ sock, d.fds.sockets.find fd = some sock ∧ ReadReady args d fd sock
  netlinks : ∀ fd, fd ∈ rn ↔ ∃ nl, d.fds.netlinks.find fd = some nl ∧ NetlinkReady args d fd nl
  write : ∀ fd, fd ∈ w ↔ ∃ sock, d.fds.sockets.find fd = some sock ∧ WriteReady args d fd sock

/-- A requested descriptor for which `select` can install a callback. -/
def Requested (args : SelectArgs) (f : Fds) : Prop :=
  (∃ fd ∈ f.sockets.keys, SelectArgs.isSet args.readfds fd = true ∨
    SelectArgs.isSet args.writefds fd = true) ∨
  ∃ fd ∈ f.netlinks.keys, SelectArgs.isSet args.readfds fd = true

/-- The callbacks that a `select` without a ready descriptor installs. -/
structure SelectArms (args : SelectArgs) (d : Data) (τ : Task) (c c' : Ctl) : Prop where
  frame : c' = { c with
    recvCallback := c'.recvCallback
    sendCallback := c'.sendCallback
    acceptCallback := c'.acceptCallback
    nlCallback := c'.nlCallback }
  recv : ∀ sock, c'.recvCallback sock = c.recvCallback sock ∨
    ∃ fd, d.fds.sockets.find fd = some sock ∧ SelectArgs.isSet args.readfds fd = true ∧
      d.rxAvailable sock = 0 ∧ fd ∉ d.fds.isListenTcpSocket ∧
      c'.recvCallback sock = some (.select ⟨τ, fd⟩)
  send : ∀ sock, c'.sendCallback sock = c.sendCallback sock ∨
    ∃ fd, d.fds.sockets.find fd = some sock ∧ SelectArgs.isSet args.writefds fd = true ∧
      d.txAvailable sock = 0 ∧ c'.sendCallback sock = some (.select ⟨τ, fd⟩)
  accept : ∀ sock, c'.acceptCallback sock = c.acceptCallback sock ∨
    ∃ fd, d.fds.sockets.find fd = some sock ∧ SelectArgs.isSet args.readfds fd = true ∧
      fd ∈ d.fds.isListenTcpSocket ∧ d.fds.fakeAcceptedSockets.find fd = none ∧
      c'.acceptCallback sock = some (.select ⟨τ, fd⟩)
  nl : ∀ nl, c'.nlCallback nl = c.nlCallback nl ∨
    ∃ fd, d.fds.netlinks.find fd = some nl ∧ SelectArgs.isSet args.readfds fd = true ∧
      c'.nlCallback nl = some ⟨τ, fd⟩

/-- `τ` waits in a callback that a `select` installed. -/
inductive SelectWaits (τ : Task) (f : Fds) (c : Ctl) : Prop
  | recv {sock : SockId} {fd : Fd} : c.recvCallback sock = some (.select ⟨τ, fd⟩) →
      SelectWaits τ f c
  | send {sock : SockId} {fd : Fd} : c.sendCallback sock = some (.select ⟨τ, fd⟩) →
      SelectWaits τ f c
  | accept {sock : SockId} {fd : Fd} : c.acceptCallback sock = some (.select ⟨τ, fd⟩) →
      SelectWaits τ f c
  | nl {nl : NlId} {fd : Fd} : f.netlinks.find fd = some nl →
      c.nlCallback nl = some ⟨τ, fd⟩ → SelectWaits τ f c

/-- The timer of a `select` that waits. -/
inductive SelectTimer (args : SelectArgs) (τ : Task) (c : Ctl) : Ctl → Prop
  | none : args.timeout = none → SelectTimer args τ c c
  | timer {t : Timeval} : args.timeout = some t → 0 ≤ t.toNs →
      SelectTimer args τ c (c.schedule t.toNs.toNat (.selectTimeout τ))

/-! ### Handlers -/

/-- The answer to a `read` or `recvfrom` of `τ`: its thread is rescheduled even if it ended. -/
inductive Reads (τ : Task) (c : Ctl) : Ctl → Prop
  | finish {v : ℤ} {c' : Ctl} : Finish τ τ.thread v c c' → Reads τ c c'
  | vanish {c₁ : Ctl} : Vanishes τ.thread (c.onTask τ) c₁ →
      Reads τ c ((c₁.resched τ.thread).onTask c.task)

/-- The calls that a handler answers without `FAKE`, leaving the thread at the stop it is at. -/
def unadvanced (app : App) (f : Fds) : Syscall → Bool
  | .exit => true
  | .clockGettime clk_id _ => !isCpuClock clk_id
  | .clockGetres clk_id _ => !isCpuClock clk_id
  | .ioctl fd request (some ifreq) =>
      f.isEmulated fd && decide (request = SIOCGIWNAME) && decide (¬ (fd = 1 ∧ request = TCGETS)) &&
        (match getWifiDeviceByName app.devices ifreq.ifr_name with
         | .ok none => true
         | _ => false)
  | _ => false

/-- The calls that a handler can pass on to the kernel. -/
def passable (f : Fds) : Syscall → Bool
  | .plain _ => true
  | .dup fd => !f.isEmulated fd
  | .stat arg => !f.isEmulated arg
  | .read fd _ _ => !f.isEmulated fd
  | .open pathname => !isRandomDevice (pathname.take 256)
  | .openat _ pathname => !isRandomDevice (pathname.take 256)
  | .close fd => !f.isEmulated fd
  | .pipe2 pipefd => !f.isEmulated pipefd.1 && !f.isEmulated pipefd.2
  | .ioctl fd _ _ => !f.isEmulated fd
  | .fcntl fd _ _ => !f.isEmulated fd
  | .write fd _ _ => !f.isEmulated fd
  | .setsockopt sockfd _ _ _ => !f.isEmulated sockfd
  | .getsockopt sockfd _ _ _ _ => !f.isEmulated sockfd
  | .poll fds _ => !fds.any fun pollfd => (f.sockets.find pollfd.fd).isSome
  | .futex args => decide (¬ ((args.futex_op = FUTEX_WAIT ∨ args.futex_op = FUTEX_WAIT_PRIVATE) ∧
      args.word = args.val))
  | _ => false

/-- The descriptors of a call that its handler passes on without having checked them. -/
def unchecked (f : Fds) : Syscall → List Fd
  | .plain call => call.fds
  | .openat dirfd pathname => if isRandomDevice (pathname.take 256) then [] else [dirfd]
  -- sockets are looked for, netlink sockets and random devices are not
  | .poll fds _ => (fds.map PollFd.fd).filter fun fd => (f.sockets.find fd).isNone
  | _ => []

/-- The descriptor of a call that a netlink socket may handle. -/
def netlinkFd (f : Fds) : Syscall → Option Fd
  | .sendmsg fd _ => some fd
  | .recvmsg fd _ _ => some fd
  | .getsockname fd _ => some fd
  | .sendto fd _ _ _ => if (f.sockets.find fd).isNone then some fd else none
  | .bind fd _ => if (f.sockets.find fd).isNone then some fd else none
  | _ => none

/-- The netlink socket that handles the call. -/
def netlinkOf (f : Fds) (call : Syscall) : Option NlId :=
  (netlinkFd f call).bind f.netlinks.find

/-- The descriptor of a call that receives from a socket. -/
def Syscall.recvFd : Syscall → Option Fd
  | .read fd _ _ => some fd
  | .recvfrom fd _ _ _ _ => some fd
  | _ => none

/-- The callback of a blocked `read` or `recvfrom`. -/
def RecvCallback.owner : RecvCallback → Option Task
  | .read task _ _ => some task
  | .recvfrom task _ _ _ _ => some task
  | .select _ => none

def Syscall.isSelect : Syscall → Bool
  | .select _ => true
  | _ => false

/-- The calls that `Handled.answered` and `Handled.passed` are about. -/
def Syscall.plainly : Syscall → Bool
  | .select _ => false
  | .exitGroup => false
  | .exit => false
  | .nanosleep _ => false
  | _ => true

/-- How the handler of `call` can end. -/
inductive Handled (call : Syscall) (s : St) : SyscallHandlerStatusCode → St → Prop
  | error {s' : St} : Handled call s .error s'
  | answered {v : ℤ} {res : SyscallHandlerStatusCode} {d' : Data} {c₁ c' : Ctl} :
      call.plainly = true → netlinkOf s.d.fds call = none → res.resumes →
      Edit call s.c.pid s.d d' → Prelude s.c.pid s.c c₁ →
      Completes s.c.pid v c₁ c' → Handled call s res ⟨c', d'⟩
  | listened {fd : Fd} {backlog : ℤ} {sock : SockId} {d' : Data} {c' : Ctl} :
      call = .listen fd backlog → s.d.fds.sockets.find fd = some sock → fd ∈ s.d.fds.tcpSockets →
      fd ∉ s.d.fds.isListenTcpSocket →
      Quiet { s.d.withFds (s.d.fds.setListen fd) with
        listening := Function.update s.d.listening sock true } d' →
      Completes s.c.pid 0 s.c c' →
      Handled call s .success ⟨c'.setAcceptCallback sock (some (.fakeAccept fd)), d'⟩
  | accepted {fd fd' : Fd} {out : SockaddrOut} {conn : SockId} {addr : Option (ℕ × ℕ)}
      {d' : Data} {c' : Ctl} :
      call = .accept fd out →
      fd ∈ s.d.fds.isListenTcpSocket → s.d.fds.fakeAcceptedSockets.find fd = some (conn, addr) →
      s.d.fds.nextFD = some fd' →
      Quiet (s.d.withFds
        (((s.d.fds.eraseFakeAccepted fd).eraseAvailable fd').addAccepted fd' conn)) d' →
      Completes s.c.pid fd' s.c c' →
      Handled call s .success (St.returning (s.d.fds.sockets.find fd) conn ⟨c', d'⟩)
  | nlSend {nl : NlId} {v : ℤ} {res : SyscallHandlerStatusCode} {s₁ : St} {c' : Ctl} :
      netlinkOf s.d.fds call = some nl → res.resumes → NlWork nl s s₁ →
      Completes (s.d.nls nl).pid v s₁.c c' → Handled call s res ⟨c', s₁.d⟩
  | nlOther {nl : NlId} {v : ℤ} {res : SyscallHandlerStatusCode} {sock : NetlinkSocket}
      {d' : Data} {c' : Ctl} :
      netlinkOf s.d.fds call = some nl → res.resumes → sock.pid = (s.d.nls nl).pid →
      Quiet (s.d.setNetlink nl sock) d' →
      Completes (s.d.nls nl).pid v s.c c' → Handled call s res ⟨c', d'⟩
  | passed {d' : Data} {c' : Ctl} : call.plainly = true → netlinkOf s.d.fds call = none →
      passable s.d.fds call = true → Quiet s.d d' → Passes s.c.pid s.c c' → Handled call s .success ⟨c', d'⟩
  | cloned {c₁ : Ctl} {th : Tracee} : call = .clone → Passes s.c.pid s.c c₁ →
      c₁.threads s.c.pid = some th → (0 < th.rax → c₁.threads th.rax = none) →
      Handled call s .success { s with c := c₁.cloned th.rax }
  | unadvanced {res : SyscallHandlerStatusCode} {d' : Data} :
      Grail.unadvanced s.c.app s.d.fds call = true → res.resumes → Quiet s.d d' →
      Handled call s res { s with d := d' }
  | systemExit : call = .exitGroup → Handled call s .systemExit s
  | recvNow {fd : Fd} {sock : SockId} {rx : ℕ} {d' : Data} {c' : Ctl} : call.recvFd = some fd →
      s.d.fds.sockets.find fd = some sock → s.d.rxAvailable sock ≠ 0 →
      Quiet (s.d.setRx sock rx) d' → Reads s.c.task s.c c' →
      Handled call s .manual ⟨c'.setRecvCallback sock none, d'⟩
  | recvWait {fd : Fd} {sock : SockId} {cb : RecvCallback} : call.recvFd = some fd →
      s.d.fds.sockets.find fd = some sock → s.d.rxAvailable sock = 0 →
      fd ∉ s.d.fds.nonblockingSockets → cb.owner = some s.c.task →
      Handled call s .delayed { s with c := s.c.setRecvCallback sock (some cb) }
  | writeWait {fd : Fd} {buf : Ptr} {count : ℕ} {sock : SockId} : call = .write fd buf count →
      s.d.fds.sockets.find fd = some sock → s.d.txAvailable sock = 0 →
      fd ∈ s.d.fds.connectedSockets → fd ∉ s.d.fds.nonblockingSockets →
      Handled call s .delayed { s with c := s.c.setSendCallback sock (some (.write s.c.task)) }
  | connectRefused {fd : Fd} {addr : Sockaddr} {sock : SockId} {d' : Data} :
      call = .connect fd addr →
      s.d.fds.sockets.find fd = some sock → (s.c.env.ns3 s.d.asks).ret < 0 → Quiet s.d d' →
      Handled call s .delayed ⟨s.c.setConnectCallback sock (some ⟨s.c.task, fd⟩), d'⟩
  | connectWait {fd : Fd} {addr : Sockaddr} {sock : SockId} {d' : Data} : call = .connect fd addr →
      s.d.fds.sockets.find fd = some sock → s.d.isTcp sock = true → Quiet s.d d' →
      Handled call s .delayed
        ⟨(s.c.setConnectCallback sock (some ⟨s.c.task, fd⟩)).setConnecting sock true, d'⟩
  | connectNow {fd : Fd} {addr : Sockaddr} {sock : SockId} {d' : Data} {c' : Ctl} :
      call = .connect fd addr →
      s.d.fds.sockets.find fd = some sock → s.d.isTcp sock = false →
      Quiet (s.d.withFds (s.d.fds.setConnected fd)) d' →
      Finish s.c.task s.c.task.thread 0 (s.c.setConnectCallback sock (some ⟨s.c.task, fd⟩)) c' →
      Handled call s .delayed ⟨c', d'⟩
  | acceptWait {fd : Fd} {out : SockaddrOut} {sock : SockId} : call = .accept fd out →
      s.d.fds.sockets.find fd = some sock → fd ∈ s.d.fds.isListenTcpSocket →
      s.d.fds.fakeAcceptedSockets.find fd = none → fd ∉ s.d.fds.nonblockingSockets →
      Handled call s .delayed
        { s with c := s.c.setAcceptCallback sock (some (.accept s.c.task fd out)) }
  | selectNow {args : SelectArgs} {rs rn w : FdSet} {d' : Data} {c' : Ctl} : call = .select args →
      ReadySets args s.d rs rn w →
      (rs = ∅ → rn = ∅ → w = ∅ → args.mayBlock = true → ¬ Requested args s.d.fds) →
      Quiet (s.d.setSel s.c.task.act (args.mem.store (rs ∪ rn) w ∅)) d' →
      Completes s.c.pid (rs.card + rn.card + w.card : ℕ) s.c c' →
      Handled call s .success ⟨c', d'⟩
  | selectWait {args : SelectArgs} {c₁ c' : Ctl} : call = .select args →
      selectMayBlock args s.d = some true → SelectArms args s.d s.c.task s.c c₁ →
      SelectWaits s.c.task s.d.fds c₁ → SelectTimer args s.c.task c₁ c' →
      Handled call s .delayed ⟨c', s.d.setSel s.c.task.act args.mem⟩
  | sleeping {req : Timespec} : call = .nanosleep req → 0 ≤ req.toNs →
      Handled call s .delayed
        { s with c := s.c.schedule req.toNs.toNat (.nanosleep s.c.task) }

/-! ### Steps -/

/-- The call is left as it is. -/
def Stays (s : St) (res : SyscallHandlerStatusCode) (s' : St) : Prop :=
  res.resumes ∧ ∃ d', Quiet s.d d' ∧ s' = { s with d := d' }

/-- How the handling of `call` can end: as `Handled` says, and if the call is one of `unadvanced`
it is left as it is; if it has unchecked descriptors it is passed on. -/
structure Answers (call : Syscall) (s : St) (res : SyscallHandlerStatusCode) (s' : St) : Prop where
  handled : Handled call s res s'
  stays : Grail.unadvanced s.c.app s.d.fds call = true → Stays s res s'
  passes : unchecked s.d.fds call ≠ [] → res ≠ .error → Passes s.c.pid s.c s'.c

/-- What `ProcessStatusCode` does with the status of a handler. -/
inductive Processed (p : Pid) (s : St) : SyscallHandlerStatusCode → St → Prop
  | resumed {res : SyscallHandlerStatusCode} : res.resumes →
      Processed p s res { s with c := s.c.resched p }
  | waits {res : SyscallHandlerStatusCode} : res = .manual ∨ res = .delayed → Processed p s res s
  | quits : s.c.app.mayQuit = true → Processed p s .systemExit s

/-- The wait of `HandleSyscallBefore(p)` ends at a stop. -/
inductive Caught (p : Pid) (c : Ctl) : Ctl → Prop
  | entry {th : Tracee} {next : Syscall} {retval : ℤ} : c.threads p = some th → th.phase = .exit →
      c.env.wait c.waits = .stopped next retval → Caught p c (c.toEntry p next)
  | exit {th : Tracee} {next : Syscall} {retval : ℤ} : c.threads p = some th → th.phase = .entry →
      th.origRax ≠ .exit → c.env.wait c.waits = .stopped next retval →
      Caught p c (c.toExit p th retval false)

/-- What a scheduled function does, from the state in which its event has been removed. -/
inductive Fires (s : St) : EventKind → St → Prop
  | gone {p : Pid} {th : Tracee} : s.c.threads p = some th →
      th.phase = .entry ∧ th.origRax = .exit ∨ s.c.env.wait s.c.waits = .exited →
      Fires s (.handleSyscallBefore p) { s with c := (s.c.setPid p).exited p th false }
  | dispatched {p : Pid} {c₁ : Ctl} {th : Tracee} {res : SyscallHandlerStatusCode} {s₂ s' : St} :
      Caught p (s.c.setPid p) c₁ → c₁.threads p = some th →
      Answers th.origRax { s with c := c₁.dispatch p th } res s₂ → Processed p s₂ res s' →
      Fires s (.handleSyscallBefore p) s'
  | timeoutStale {τ : Task} : s.c.alreadyHandled τ.act = true → Fires s (.selectTimeout τ) s
  | timeout {τ : Task} {c' : Ctl} : s.c.alreadyHandled τ.act = false →
      Finish τ τ.thread 0 (s.c.setHandled τ.act) c' →
      Fires s (.selectTimeout τ) { s with c := c' }
  | slept {τ : Task} {c' : Ctl} : Finish τ τ.thread 0 s.c c' →
      Fires s (.nanosleep τ) { s with c := c' }
  | removed {sock : SockId} {d' : Data} : Quiet s.d d' →
      Fires s (.removeClosedSocket sock) { s with d := d' }

/-- What an occurrence does, from the state in which the simulator has moved to its time. -/
inductive Occurs (s : St) : Occurrence → St → Prop
  | fired {i : ℕ} {e : Event} {s' : St} : s.c.events[i]? = some e → e.time = s.c.now →
      Fires { s with c := s.c.removeEvent i } e.kind s' →
      Occurs s (.fire i) s'
  | receivedIdle {sock : SockId} {rx : ℕ} :
      (∀ cb, s.c.recvCallback sock = some cb →
        ∃ cl, cb = .select cl ∧ s.c.alreadyHandled cl.task.act = true) →
      Occurs s (.received sock rx) { s with d := s.d.setRx sock rx }
  | receivedRead {sock : SockId} {rx rx' : ℕ} {cb : RecvCallback} {τ : Task} {d' : Data}
      {c' : Ctl} : s.c.recvCallback sock = some cb → cb.owner = some τ →
      Quiet ((s.d.setRx sock rx).setRx sock rx') d' → Reads τ s.c c' →
      Occurs s (.received sock rx) ⟨c'.setRecvCallback sock none, d'⟩
  | receivedSelect {sock : SockId} {rx : ℕ} {cl : SelectClosure} {c' : Ctl} : rx ≠ 0 →
      s.c.recvCallback sock = some (.select cl) → s.c.alreadyHandled cl.task.act = false →
      Finish cl.task s.c.pid 1 (s.c.claim cl) c' →
      Occurs s (.received sock rx)
        ⟨c'.setRecvCallback sock none, (s.d.setRx sock rx).storeSel cl {cl.fdnr} ∅⟩
  | sendableIdle {sock : SockId} {tx : ℕ} :
      (∀ cl, s.c.sendCallback sock = some (.select cl) →
        s.c.alreadyHandled cl.task.act = true) →
      Occurs s (.sendable sock tx) { s with d := s.d.setTx sock tx }
  | sendableSelect {sock : SockId} {tx : ℕ} {cl : SelectClosure} {c' : Ctl} : tx ≠ 0 →
      s.c.sendCallback sock = some (.select cl) → s.c.alreadyHandled cl.task.act = false →
      Finish cl.task cl.task.thread 1 (s.c.claim cl) c' →
      Occurs s (.sendable sock tx)
        ⟨c'.setSendCallback sock none, (s.d.setTx sock tx).storeSel cl ∅ {cl.fdnr}⟩
  | incomingLost {sock : SockId} {addr : Option (ℕ × ℕ)} {rx tx : ℕ} {d' : Data} :
      s.d.listening sock = true →
      (∀ cb, s.c.acceptCallback sock = some cb →
        ∃ cl, cb = .select cl ∧ s.c.alreadyHandled cl.task.act = true) →
      Quiet (s.d.income sock rx tx) d' → Occurs s (.incoming sock addr) { s with d := d' }
  | incomingStored {sock : SockId} {addr : Option (ℕ × ℕ)} {rx tx : ℕ} {fd : Fd} {d' : Data} :
      s.d.listening sock = true →
      s.c.acceptCallback sock = some (.fakeAccept fd) →
      Quiet ((s.d.income sock rx tx).withFds (s.d.fds.fakeAccept fd (s.d.nextSock, addr))) d' →
      Occurs s (.incoming sock addr) { s with d := d' }
  | incomingSelect {sock sock' : SockId} {addr : Option (ℕ × ℕ)} {rx tx : ℕ} {cl : SelectClosure}
      {d' : Data} {c' : Ctl} : s.d.listening sock = true →
      s.c.acceptCallback sock = some (.select cl) → s.c.alreadyHandled cl.task.act = false →
      s.d.fds.sockets.find cl.fdnr = some sock' →
      Quiet (((s.d.income sock rx tx).withFds
        (s.d.fds.fakeAccept cl.fdnr (s.d.nextSock, addr))).storeSel cl {cl.fdnr} ∅) d' →
      Finish cl.task cl.task.thread 1 ((s.c.claim cl).setAcceptCallback sock' none) c' →
      Occurs s (.incoming sock addr) ⟨c', d'⟩
  | incomingAccept {sock : SockId} {addr : Option (ℕ × ℕ)} {rx tx : ℕ} {τ : Task} {fd fd' : Fd}
      {out : SockaddrOut} {d' : Data} {c₁ : Ctl} : s.d.listening sock = true →
      s.c.acceptCallback sock = some (.accept τ fd out) → s.d.fds.nextFD = some fd' →
      Quiet ((s.d.income sock rx tx).withFds
        ((s.d.fds.eraseAvailable fd').addAccepted fd' s.d.nextSock)) d' →
      Completes s.c.pid fd' (s.c.onTask τ) c₁ →
      Occurs s (.incoming sock addr)
        ⟨(c₁.resched τ.thread).onTask s.c.task, (St.returning (some sock) s.d.nextSock ⟨c₁, d'⟩).d⟩
  | connectIdle {sock : SockId} {what : Occurrence} : what = .connected sock ∨ what = .refused sock →
      s.c.connectCallback sock = none →
      Occurs s what { s with c := s.c.setConnecting sock false }
  | connected {sock : SockId} {cl : ConnectCallback} {c' : Ctl} : s.c.connecting sock = true →
      s.c.connectCallback sock = some cl →
      Finish cl.task cl.task.thread 0 (s.c.setConnecting sock false) c' →
      Occurs s (.connected sock) ⟨c', s.d.withFds (s.d.fds.setConnected cl.sockfd)⟩
  | refused {sock : SockId} {cl : ConnectCallback} {c' : Ctl} : s.c.connecting sock = true →
      s.c.connectCallback sock = some cl →
      Finish cl.task cl.task.thread (-1) (s.c.setConnecting sock false) c' →
      Occurs s (.refused sock) { s with c := c' }

end Grail
