import Grail.Select
import Grail.Sockets

/-! # The emulator

`handleSyscallBefore` waits for the next system call of a thread and dispatches it.  A step of
the emulator is one event: a function that the emulator scheduled (`fire`), or an event of an
ns-3 socket, which invokes the callback that is installed at that time.

`step s l` is the state after the event `l`, `none` if the event cannot occur in `s` or if it
ends the emulator. -/

namespace Grail

open Programs

/-! ### System calls -/

def handlePlain : M SyscallHandlerStatusCode := handleSyscallAfter

/-- `dup` and `stat`. -/
def handleOnKernelFd (fd : Fd) : M SyscallHandlerStatusCode := do
  if (← get).d.fds.isEmulated fd then throw .exit1 else handleSyscallAfter

/-- The `switch` of `HandleSyscallBefore`. -/
def handle (syscall : Syscall) : M SyscallHandlerStatusCode := do
  let app := (← get).c.app
  match syscall with
  | .plain _ => handlePlain
  | .dup fd => handleOnKernelFd fd
  | .stat arg => handleOnKernelFd arg
  | .read fd buf count => handleRead fd buf count
  | .open pathname => handleOpen pathname
  | .openat dirfd pathname => handleOpenAt dirfd pathname
  | .close fd => handleClose fd
  | .pipe2 pipefd => handlePipe2 pipefd
  | .getpid => handleGetPid
  | .ioctl fd request ifreq => handleIoctl fd request ifreq
  | .fcntl fd cmd flags => handleFcntl fd cmd flags
  | .exitGroup => return .systemExit
  | .getsockname sockfd out => handleGetSockName sockfd out
  | .getpeername sockfd out => handleGetPeerName sockfd out
  | .write fd buf count => handleWrite fd buf count
  | .setsockopt sockfd level optname optlen => handleSetSockOpt sockfd level optname optlen
  | .getsockopt sockfd level optname optval optlen =>
      handleGetSockOpt sockfd level optname optval optlen
  | .socket domain type protocol => handleSocket domain type protocol
  | .connect sockfd addr => handleConnect sockfd addr
  | .listen sockfd backlog => handleListen sockfd backlog
  | .sendto sockfd buf flags dest_addr => handleSendTo sockfd buf flags dest_addr
  | .recvfrom sockfd buffer length flags out => handleRecvFrom sockfd buffer length flags out
  | .accept sockfd out => handleAccept sockfd out
  | .recvmsg sockfd iov_base iov_len => handleRecvMsg sockfd iov_base iov_len
  | .sendmsg sockfd msg_iov => handleSendMsg sockfd msg_iov
  | .nanosleep req => handleNanoSleep req
  | .time tloc => handleTime tloc
  | .alarm seconds => handleAlarm seconds
  | .gettimeofday tv tz => handleGetTimeOfDay tv tz
  | .clockGettime clk_id tp => handleClockGetTime clk_id tp
  | .clockGetres clk_id res => handleClockGetRes clk_id res
  | .bind sockfd addr => handleBind sockfd addr
  | .poll fds timeout => handlePoll fds timeout
  | .getrandom buf buflen flags => handleGetRandom buf buflen flags
  | .select args => handleSelect args
  | .getrusage r_usage => handleGetRUsage r_usage
  | .getuid => fake app.uid .success
  | .geteuid => fake app.euid .success
  | .getgid => fake app.gid .success
  | .getegid => fake app.egid .success
  | .clone => handleClone
  | .futex args => handleFutex args
  | .exit => handleExit
  | .unsupported _ => throw .exit1

/-- A system call of `p` has been caught: it is handled. -/
def dispatchSyscall (p : Pid) : M Unit := do
  match (← get).c.threads p with
  | none => throw .assert
  | some th => do
      modifyCtl (·.dispatch p th)
      let res ← handle th.origRax
      processStatusCode res p

/-- `HandleSyscallBefore(p)`. -/
def handleSyscallBefore (p : Pid) : M Unit := do
  modifyCtl (·.setPid p)
  if !(← waitForSyscall false p) then return
  dispatchSyscall p

/-! ### Events -/

/-- What happens next: the `i`-th scheduled event, or an event of an ns-3 socket.  Data arrive
(`rx` bytes are then readable), send space becomes free, a connection comes in on a listening
socket, a connection attempt succeeds or fails. -/
inductive Occurrence where
  | fire (i : ℕ)
  | received (sock : SockId) (rx : ℕ)
  | sendable (sock : SockId) (tx : ℕ)
  | incoming (sock : SockId) (addr : Option (ℕ × ℕ))
  | connected (sock : SockId)
  | refused (sock : SockId)
deriving DecidableEq, Repr

/-- An occurrence with its time. -/
structure Label where
  time : ℕ
  what : Occurrence
deriving DecidableEq, Repr

/-- The function of an event. -/
def runEvent : EventKind → M Unit
  | .handleSyscallBefore p => handleSyscallBefore p
  | .selectTimeout task => onBehalf task (selectTimeout task)
  | .nanosleep task => onBehalf task (nanosleepDone task)
  | .removeClosedSocket _ => do
      let _ ← ask

/-- The `i`-th scheduled event. -/
def fire (i : ℕ) (time : ℕ) : M Unit := do
  match (← get).c.events[i]? with
  | none => throw .impossible
  | some e =>
      if e.time ≠ time then throw .impossible
      else do
        modifyCtl (·.removeEvent i)
        runEvent e.kind

/-- Data arrive on `sock`: `NotifyDataRecv`. -/
def received (sock : SockId) (rx : ℕ) : M Unit := do
  if rx = 0 then throw .impossible
  else do
    modifyData (·.setRx sock rx)
    match (← get).c.recvCallback sock with
    | none => pure ()
    | some (.read task buf count) => onBehalf task (readCallback task buf count sock)
    | some (.recvfrom task buffer length _ out) =>
        onBehalf task (recvfromCallback task buffer length out sock)
    | some (.select cl) => onBehalf cl.task (selectRecvCallback cl sock)

/-- Send space of `sock` becomes free: `NotifySend`. -/
def sendable (sock : SockId) (tx : ℕ) : M Unit := do
  if tx = 0 then throw .impossible
  else do
    modifyData (·.setTx sock tx)
    match (← get).c.sendCallback sock with
    | none => pure ()
    -- the callback of a blocked `write` only logs an error
    | some (.write _) => pure ()
    | some (.select cl) => onBehalf cl.task (selectSendCallback cl sock)

/-- A connection comes in on `sock`: `NotifyNewConnectionCreated` with a new socket. -/
def incoming (sock : SockId) (addr : Option (ℕ × ℕ)) : M Unit := do
  if !(← get).d.listening sock then throw .impossible
  let a ← ask
  let newSock ← newSocket true a.rx a.tx
  modifyData (·.arrive sock newSock)
  match (← get).c.acceptCallback sock with
  | none => pure ()
  | some (.fakeAccept sockfd) => modifyFds (·.fakeAccept sockfd (newSock, addr))
  | some (.select cl) => onBehalf cl.task (selectAcceptCallback cl newSock addr)
  | some (.accept task _ out) => onBehalf task (acceptCallback task out sock newSock addr)

/-- The connection attempt of `sock` ends. -/
def connectEnds (sock : SockId) (callback : ConnectCallback → M Unit) : M Unit := do
  let c := (← get).c
  if !c.connecting sock then throw .impossible
  else do
    modifyCtl (·.setConnecting sock false)
    match c.connectCallback sock with
    | none => pure ()
    | some cl => onBehalf cl.task (callback cl)

def occur (l : Label) : M Unit :=
  match l.what with
  | .fire i => fire i l.time
  | .received sock rx => received sock rx
  | .sendable sock tx => sendable sock tx
  | .incoming sock addr => incoming sock addr
  | .connected sock => connectEnds sock connectSucceeded
  | .refused sock => connectEnds sock connectFailed

/-- The simulator moves to the time of the event, which no scheduled event precedes. -/
def advance (l : Label) : M Unit := do
  let c := (← get).c
  if c.now ≤ l.time ∧ ∀ e ∈ c.events, l.time ≤ e.time then
    modifyCtl (·.setNow l.time)
  else throw .impossible

def emulate (l : Label) : M Unit := do
  advance l
  occur l

/-- The transition function of the emulator. -/
def step (s : St) (l : Label) : Option St :=
  match (emulate l).run s with
  | .ok (_, s') => some s'
  | .error _ => none

/-- The runs of the emulator. -/
abbrev run (s : St) (ls : List Label) : Option St := Runs.run step s ls

end Grail
