import Grail.Control
import Grail.Descriptors
import Grail.Programs
import Grail.Route

/-! # The state of the emulator and its primitive operations

`St` joins the control part `Ctl` with the data `Data`: the descriptor tables, the netlink
sockets, the routing table, the buffers of the ns-3 sockets, the `fd_set` objects of the
`select` calls, and the stores into the tracee's memory.  Handlers are programs `M` over `St`
that stop when the emulator does (`Crash`).

`waitForSyscall`, `fakeAt` (the `FAKE` macros) and `handleSyscallAfter` act on tracees;
`processStatusCode` reschedules them.  `arrived` and `returned` are history: the connections
that arrived at a listening socket, and those that an `accept` on it returned. -/

namespace Grail

open Programs

/-- A reply in the queue of a netlink socket. -/
inductive Reply where
  | newLink (ifi_index : ℕ) (ifname : List Char)
  | newAddr (ifa_index : ℕ) (ifa_prefixlen : ℕ) (addr : ℕ)
  | done
  /-- `NLMSG_ERROR` with error 0 -/
  | ack
deriving DecidableEq, Repr

/-- `nlmsg_len` of a reply: header, ancillary header and aligned attributes. -/
def Reply.nlmsgLen : Reply → ℕ
  | newLink _ ifname => 16 + 16 + 4 * ((4 + ifname.length + 1 + 3) / 4)
  | newAddr _ _ _ => 16 + 16 + 8
  | done => 16
  | ack => 16 + 20

structure NetlinkSocket where
  /-- the thread that created the socket -/
  pid : Pid
  nl_pid : ℤ
  nl_groups : ℤ
  replyQueue : List Reply
  /-- history: `nl_pid` is one that the tracee named -/
  named : Bool
deriving DecidableEq, Repr

/-- The `fd_set` objects that the pointers of a `select` call name (`none` for `NULL`). -/
structure FdSets where
  readfds : Option FdSet
  writefds : Option FdSet
  exceptfds : Option FdSet
deriving DecidableEq

/-- Three `StoreToTracee`; nothing is stored through `NULL`. -/
def FdSets.store (m : FdSets) (r w e : FdSet) : FdSets :=
  ⟨m.readfds.map fun _ => r, m.writefds.map fun _ => w, m.exceptfds.map fun _ => e⟩

/-- The objects that the emulator copies into the tracee. -/
inductive Val where
  | bytes (n : ℕ)
  | int (v : ℤ)
  | sockaddrIn (addr port : ℕ) (copylen : ℕ)
  | sockaddrNl (nl_pid : ℤ) (copylen : ℕ)
  | timeval (t : Timeval)
  | timespec (t : Timespec)
  | ifFlags (up broadcast multicast pointToPoint : Bool)
  | ifName
  | ifAddr (addr : ℕ)
  | ifMask (mask : ℕ)
  | ifMtu (mtu : ℕ)
  | rusage
  | reply (r : Reply)
deriving DecidableEq, Repr

structure Data where
  fds : Fds
  nls : NlId → NetlinkSocket
  rt : List RtEntry
  /-- the socket is a `TcpSocketBase` -/
  isTcp : SockId → Bool
  /-- `Listen` has succeeded -/
  listening : SockId → Bool
  /-- `GetRxAvailable` -/
  rxAvailable : SockId → ℕ
  /-- `GetTxAvailable` -/
  txAvailable : SockId → ℕ
  /-- the `fd_set` objects of the `select` handled as a given dispatch -/
  selMem : ℕ → FdSets
  stores : List (Pid × Ptr × Val)
  asks : ℕ
  nextSock : SockId
  nextNl : NlId
  arrived : SockId → List SockId
  returned : SockId → List SockId

namespace Data

def withFds (f : Fds) (d : Data) : Data := { d with fds := f }

/-- The new ns-3 socket `d.nextSock`. -/
def newSock (tcp : Bool) (rx tx : ℕ) (d : Data) : Data :=
  { d with
    nextSock := d.nextSock + 1
    isTcp := Function.update d.isTcp d.nextSock tcp
    rxAvailable := Function.update d.rxAvailable d.nextSock rx
    txAvailable := Function.update d.txAvailable d.nextSock tx }

/-- The new netlink socket `d.nextNl`, created by thread `p`; its `nl_pid` is not assigned. -/
def newNetlink (p : Pid) (nl_pid : ℤ) (d : Data) : Data :=
  { d with
    nextNl := d.nextNl + 1
    nls := Function.update d.nls d.nextNl ⟨p, nl_pid, 0, [], false⟩ }

def setRx (sock : SockId) (rx : ℕ) (d : Data) : Data :=
  { d with rxAvailable := Function.update d.rxAvailable sock rx }

def setTx (sock : SockId) (tx : ℕ) (d : Data) : Data :=
  { d with txAvailable := Function.update d.txAvailable sock tx }

/-- The three sets of the `select` of dispatch `act`. -/
def setSel (act : ℕ) (m : FdSets) (d : Data) : Data :=
  { d with selMem := Function.update d.selMem act m }

/-- The connection `conn` arrives at `sock`. -/
def arrive (sock conn : SockId) (d : Data) : Data :=
  { d with arrived := Function.update d.arrived sock (d.arrived sock ++ [conn]) }

end Data

structure St where
  c : Ctl
  d : Data

/-- The connection `conn` that arrived at `sock` is returned, if the current task's call is
answered. -/
def St.returning (sock : Option SockId) (conn : SockId) (s : St) : St :=
  match sock with
  | none => s
  | some sock =>
      if s.c.answered s.c.task then
        { s with d := { s.d with
            returned := Function.update s.d.returned sock (s.d.returned sock ++ [conn]) } }
      else s

/-- Programs of the emulator. -/
abbrev M (α : Type) := Program St Crash α

/-- The state in which `StartApplication` is about to call `HandleSyscallBefore(app_pid)`. -/
def St.initial (app : App) (env : Env) : St where
  c :=
    { app, env
      pid := app.appPid
      now := 0
      threads := fun p =>
        if p = app.appPid then some ⟨.exit, .plain .execve, false, 0, 0, 0⟩ else none
      tidVector := []
      events := [⟨app.startTime, .handleSyscallBefore app.appPid⟩]
      recvCallback := fun _ => none
      sendCallback := fun _ => none
      acceptCallback := fun _ => none
      connectCallback := fun _ => none
      connecting := fun _ => false
      nlCallback := fun _ => none
      alreadyHandled := fun _ => false
      pollLoopDetector := .initial
      waits := 0
      task := ⟨app.appPid, 0⟩
      inCall := fun _ => none
      acts := fun _ => none
      nextAct := 0
      nextSerial := 1
      log := []
      executed := [] }
  d :=
    { fds := .initial
      nls := fun _ => ⟨0, 0, 0, [], false⟩
      rt := []
      isTcp := fun _ => false
      listening := fun _ => false
      rxAvailable := fun _ => 0
      txAvailable := fun _ => 0
      selMem := fun _ => ⟨none, none, none⟩
      stores := []
      asks := 0
      nextSock := 0
      nextNl := 0
      arrived := fun _ => []
      returned := fun _ => [] }

/-! ### Access -/

def modifyCtl (f : Ctl → Ctl) : M Unit := modify fun s => { s with c := f s.c }

def modifyData (f : Data → Data) : M Unit := modify fun s => { s with d := f s.d }

def modifyFds (f : Fds → Fds) : M Unit := modifyData fun d => d.withFds (f d.fds)

/-- An answer of ns-3. -/
def ask : M Ns3Answer := do
  let s ← get
  modifyData fun d => { d with asks := d.asks + 1 }
  return s.c.env.ns3 s.d.asks

/-! ### Tracees -/

/-- `WaitForSyscall(p)`: `true` if a system call stop was reached (the C++ function returns 0).
`handled` says that a handler passes the call on to the kernel. -/
def waitForSyscall (handled : Bool) (p : Pid) : M Bool := do
  let s ← get
  match s.c.threads p with
  | none => throw .hang
  | some th =>
      if th.phase = .entry ∧ th.origRax = .exit then
        -- the kernel executes `exit`: there is no exit stop
        modifyCtl (·.exited p th handled)
        return false
      else
        match s.c.env.wait s.c.waits, th.phase with
        | .never, _ => throw .hang
        | .exited, _ => do
            modifyCtl (·.exited p th handled)
            return false
        | .stopped _ retval, .entry => do
            modifyCtl (·.toExit p th retval handled)
            return true
        | .stopped next _, .exit => do
            modifyCtl (·.toEntry p next)
            return true

/-- `set_reg(p, orig_rax, SYS_getpid)`. -/
def setOrigRax (p : Pid) : M Unit := do
  let s ← get
  match s.c.threads p with
  | none => throw .assert
  | some th => modifyCtl fun c => (c.note .origRax p).setThread p (some { th with faked := true })

/-- `set_reg(p, rax, val)`. -/
def setRax (p : Pid) (val : ℤ) : M Unit := do
  let s ← get
  match s.c.threads p with
  | none => throw .assert
  | some th => modifyCtl fun c => (c.note (.rax val) p).setThread p (some { th with rax := val })

/-- The `FAKE` macros applied to thread `p`, followed by `return res`. -/
def fakeAt (p : Pid) (retVal : ℤ) (res : SyscallHandlerStatusCode) :
    M SyscallHandlerStatusCode := do
  setOrigRax p
  modifyCtl (·.note .wait p)
  if !(← waitForSyscall true p) then return .error
  setRax p retVal
  return res

/-- `FAKE(retVal); return res;` in a handler. -/
def fake (retVal : ℤ) (res : SyscallHandlerStatusCode) : M SyscallHandlerStatusCode := do
  fakeAt (← get).c.pid retVal res

/-- `HandleSyscallAfter`: the kernel answers the call. -/
def handleSyscallAfter : M SyscallHandlerStatusCode := do
  let p := (← get).c.pid
  modifyCtl (·.note .wait p)
  if !(← waitForSyscall true p) then return .error
  return .success

/-- `MemcpyToTracee(p, dst, &val, ...)`, which ends the emulator if there is no such thread. -/
def memcpyToTracee (p : Pid) (dst : Ptr) (val : Val) : M Unit := do
  let s ← get
  match s.c.threads p with
  | none => throw .exit1
  | some _ => modifyData fun d => { d with stores := (p, dst, val) :: d.stores }

/-- `StoreToTracee`, which stores nothing through `NULL`. -/
def storeToTracee (p : Pid) (dst : Ptr) (val : Val) : M Unit :=
  if dst = 0 then pure () else memcpyToTracee p dst val

/-- The three `StoreToTracee` of `select` into the objects of dispatch `act`. -/
def storeFdSets (p : Pid) (act : ℕ) (r w e : FdSet) : M Unit := do
  let s ← get
  let m := s.d.selMem act
  if (m.readfds.isSome || m.writefds.isSome || m.exceptfds.isSome) && (s.c.threads p).isNone then
    throw .exit1
  modifyData (·.setSel act (m.store r w e))

/-- `SetBsdAddress`, with `this->pid`. -/
def setBsdAddress (addr : Option (ℕ × ℕ)) (out : SockaddrOut) : M Bool := do
  if out.addr = 0 then return true
  match addr with
  | none => return false
  | some (ip, port) => do
      let p := (← get).c.pid
      memcpyToTracee p out.addr (.sockaddrIn ip port (min out.len 16))
      memcpyToTracee p out.addrlen (.int 16)
      return true

/-- `GetNs3Address`: `false` stands for a null result. -/
def getNs3Address (addr : Sockaddr) : M Bool := do
  if 16 < addr.addrlen then throw .assert
  return decide (addr.sa_family = AF_INET)

/-! ### Scheduling -/

/-- `Simulator::Schedule`, which asserts that the delay is not negative. -/
def schedule (delay : ℤ) (kind : EventKind) : M Unit := do
  if delay < 0 then throw .assert
  modifyCtl (·.schedule delay.toNat kind)

/-- `ProcessStatusCode(res, syscall, p)`. -/
def processStatusCode (res : SyscallHandlerStatusCode) (p : Pid) : M Unit := do
  match res with
  | .manual => pure ()
  | .success => modifyCtl (·.resched p)
  | .failure => modifyCtl (·.resched p)
  | .error => throw .exit1
  | .delayed => pure ()
  | .systemExit => if (← get).c.app.mayQuit then pure () else throw .exit1

/-! ### Descriptors and ns-3 sockets -/

/-- `GetNextFD`. -/
def getNextFD : M Fd := do
  match (← get).d.fds.nextFD with
  | none => throw .outOfFds
  | some fd => do
      modifyFds (·.eraseAvailable fd)
      return fd

/-- `m_sockets.at(fd)`. -/
def socketsAt (fd : Fd) : M SockId := do
  match (← get).d.fds.sockets.find fd with
  | none => throw .outOfRange
  | some sock => return sock

/-- A new ns-3 socket. -/
def newSocket (tcp : Bool) (rx tx : ℕ) : M SockId := do
  let sock := (← get).d.nextSock
  modifyData (·.newSock tcp rx tx)
  return sock

/-- `Socket::CreateSocket`. -/
def createSocket (tcp : Bool) : M SockId := do
  let a ← ask
  newSocket tcp 0 a.tx

/-- `Listen`. -/
def ns3Listen (sock : SockId) : M ℤ := do
  let a ← ask
  if a.ret = 0 then
    modifyData fun d => { d with listening := Function.update d.listening sock true }
  return a.ret

/-- `Recv` or `RecvFrom`: the result, with the sender's address. -/
def ns3Recv (sock : SockId) : M Ns3Answer := do
  let a ← ask
  modifyData (·.setRx sock a.rx)
  return a

/-- `Send` or `SendTo`. -/
def ns3Send (sock : SockId) : M ℤ := do
  let a ← ask
  modifyData (·.setTx sock a.tx)
  return a.ret

/-- A connection has been returned by an `accept` on `sock` that was answered (history). -/
def noteReturned (sock : Option SockId) (conn : SockId) : M Unit := modify (·.returning sock conn)

end Grail
