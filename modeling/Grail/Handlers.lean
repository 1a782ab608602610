import Grail.State

/-! # Handlers of the calls that do not block

One definition for each handler of `grail.cc` that answers its call at once, in the order of
the source.  `fake v res` is `FAKE(v); return res;`. -/

namespace Grail

open Programs

/-- `UNSUPPORTED(...)`. -/
def unsupported : M SyscallHandlerStatusCode := return .error

/-- `HandleSyscallAfterClone`: the new thread is scheduled whatever `clone` returned. -/
def handleSyscallAfterClone : M SyscallHandlerStatusCode := do
  let p := (← get).c.pid
  modifyCtl (·.note .wait p)
  if !(← waitForSyscall true p) then return .error
  let s ← get
  match s.c.threads p with
  | none => throw .assert
  | some th => do
      let retval := th.rax
      -- the kernel does not reuse the id of a live thread
      if 0 < retval ∧ (s.c.threads retval).isSome then throw .impossible
      modifyCtl (·.cloned retval)
      return .success

def handleGetPid : M SyscallHandlerStatusCode := do
  fake (← get).c.app.fakePid .success

def handlePipe2 (pipefd : Fd × Fd) : M SyscallHandlerStatusCode := do
  let f := (← get).d.fds
  if f.isEmulated pipefd.1 || f.isEmulated pipefd.2 then unsupported
  else handleSyscallAfter

def handleGetRUsage (r_usage : Ptr) : M SyscallHandlerStatusCode := do
  memcpyToTracee (← get).c.pid r_usage .rusage
  fake 0 .success

/-- `HandleClose`; the ns-3 socket is closed again one second later. -/
def handleClose (fd : Fd) : M SyscallHandlerStatusCode := do
  let f := (← get).d.fds
  if !f.isEmulated fd then handleSyscallAfter
  else
    match f.sockets.find fd with
    | some sock => do
        let _ ← ask
        modifyFds (·.closeSocket fd)
        schedule 1000000000 (.removeClosedSocket sock)
        fake 0 .success
    | none =>
        if (f.netlinks.find fd).isSome then do
          modifyFds (·.closeNetlink fd)
          fake 0 .success
        else if fd ∈ f.randomFds then do
          modifyFds (·.closeRandom fd)
          fake 0 .success
        else throw .assert

/-- The path matches `dev/random` or `dev/urandom`. -/
def isRandomDevice (pathname : List Char) : Bool :=
  decide (['d', 'e', 'v', '/', 'r', 'a', 'n', 'd', 'o', 'm'] <:+: pathname) ||
    decide (['d', 'e', 'v', '/', 'u', 'r', 'a', 'n', 'd', 'o', 'm'] <:+: pathname)

/-- `HandleOpen`; only the first 256 characters of the path are read. -/
def handleOpen (pathname : List Char) : M SyscallHandlerStatusCode := do
  if isRandomDevice (pathname.take 256) then do
    let newSocketFd ← getNextFD
    modifyFds (·.addRandom newSocketFd)
    fake newSocketFd .success
  else handleSyscallAfter

/-- `HandleOpenAt` treats its path as `HandleOpen` does, whatever `dirfd` is. -/
def handleOpenAt (_dirfd : Fd) (pathname : List Char) : M SyscallHandlerStatusCode :=
  handleOpen pathname

def handleFcntl (fd : Fd) (cmd flags : ℤ) : M SyscallHandlerStatusCode := do
  let f := (← get).d.fds
  if !f.isEmulated fd then handleSyscallAfter
  else if cmd = F_SETFL ∧ (f.netlinks.find fd).isSome then fake 0 .success
  else if cmd = F_GETFL ∧ (f.sockets.find fd).isSome then fake 0 .success
  else if cmd = F_SETFL ∧ (f.sockets.find fd).isSome then
    if flags = O_NONBLOCK then do
      modifyFds (·.setNonblocking fd)
      fake 0 .success
    else fake (-1) .failure
  else return .error

/-- The part that the interface requests of `HandleIoctl` share: the name is read from the
request object and the wifi device is looked up; without one, the call fails. -/
def withWifiDevice (ifreq : Option Ifreq) (noDevice : M SyscallHandlerStatusCode)
    (body : Ptr → NetDevice → M SyscallHandlerStatusCode) : M SyscallHandlerStatusCode := do
  match ifreq with
  | none => fake (-1) .failure
  | some ifreq =>
      match getWifiDeviceByName (← get).c.app.devices ifreq.ifr_name with
      | .error e => throw e
      | .ok none => noDevice
      | .ok (some wifi) => body ifreq.addr wifi

/-- The first address of the device's interface; `GetAddress` asserts that there is one. -/
def firstAddress (wifi : NetDevice) : M InterfaceAddress := do
  match wifi.addresses with
  | [] => throw .assert
  | a :: _ => return a

def handleIoctl (fd : Fd) (request : ℕ) (ifreq : Option Ifreq) :
    M SyscallHandlerStatusCode := do
  let s ← get
  let p := s.c.pid
  if fd = 1 ∧ request = TCGETS then fake (-1) .failure
  else if !s.d.fds.isEmulated fd then handleSyscallAfter
  else if request = SIOCGIFFLAGS then
    withWifiDevice ifreq (fake (-1) .failure) fun ifr wifi => do
      memcpyToTracee p ifr
        (.ifFlags wifi.isLinkUp wifi.isBroadcast wifi.isMulticast wifi.isPointToPoint)
      fake 0 .success
  else if request = SIOCGIWNAME then
    -- the branch without a device returns without `FAKE`
    withWifiDevice ifreq (return .failure) fun iwr _ => do
      memcpyToTracee p iwr .ifName
      fake 0 .success
  else if request = SIOCGIFADDR ∨ request = SIOCGIFBRDADDR then
    withWifiDevice ifreq (fake (-1) .failure) fun ifr wifi => do
      let iaddr ← firstAddress wifi
      memcpyToTracee p ifr
        (.ifAddr (if request = SIOCGIFADDR then iaddr.getLocal else iaddr.getBroadcast))
      fake 0 .success
  else if request = SIOCGIFNETMASK then
    withWifiDevice ifreq (fake (-1) .failure) fun ifr wifi => do
      let iaddr ← firstAddress wifi
      memcpyToTracee p ifr (.ifMask iaddr.getMask)
      fake 0 .success
  else if request = SIOCGIFMTU then
    withWifiDevice ifreq (fake (-1) .failure) fun ifr wifi => do
      memcpyToTracee p ifr (.ifMtu wifi.getMtu)
      fake 0 .success
  else unsupported

/-- The options that `getsockopt` reads from an attribute of the ns-3 socket: the value is
stored with its length of 4. -/
def getSockOptValue (optval optlen : Ptr) : M SyscallHandlerStatusCode := do
  let p := (← get).c.pid
  let a ← ask
  memcpyToTracee p optval (.int a.ret)
  memcpyToTracee p optlen (.int 4)
  fake 0 .success

/-- `DynamicCast<TcpSocket>(m_sockets.at(fd))`, which is then dereferenced. -/
def tcpSocketAt (fd : Fd) : M SockId := do
  let sock ← socketsAt fd
  if (← get).d.isTcp sock then return sock else throw .nullPtr

def handleGetSockOpt (sockfd : Fd) (level optname : ℤ) (optval optlen : Ptr) :
    M SyscallHandlerStatusCode := do
  let s ← get
  if !s.d.fds.isEmulated sockfd then handleSyscallAfter
  else if optval = 0 then throw .assert
  else if level = SOL_SOCKET then
    if optname = SO_SNDBUF then do
      let _ ← socketsAt sockfd
      getSockOptValue optval optlen
    else if optname = SO_RCVBUF then do
      let _ ← tcpSocketAt sockfd
      getSockOptValue optval optlen
    else if optname = SO_BROADCAST then do
      let _ ← socketsAt sockfd
      getSockOptValue optval optlen
    else unsupported
  else if level = IPPROTO_IP then unsupported
  else if level = IPPROTO_TCP then
    if optname = TCP_MAXSEG then do
      let _ ← tcpSocketAt sockfd
      getSockOptValue optval optlen
    else if optname = TCP_CONGESTION then do
      memcpyToTracee s.c.pid optval (.bytes 5)
      memcpyToTracee s.c.pid optlen (.int 5)
      fake 0 .success
    else if optname = TCP_INFO then fake (-ENOPROTOOPT) .failure
    else unsupported
  else fake (-ENOPROTOOPT) .failure

def handleSetSockOpt (sockfd : Fd) (level optname : ℤ) (optlen : ℕ) :
    M SyscallHandlerStatusCode := do
  let s ← get
  if !s.d.fds.isEmulated sockfd then handleSyscallAfter
  else if level = SOL_SOCKET then
    if optname = SO_BROADCAST then
      if 4 < optlen then throw .assert
      else do
        let _ ← socketsAt sockfd
        let _ ← ask
        fake 0 .success
    else if optname = SO_REUSEADDR then fake 0 .success
    else if optname = SO_RCVBUF then
      if 4 < optlen then throw .assert else fake 0 .success
    else if optname = SO_BINDTODEVICE then fake 0 .success
    else if optname = SO_PRIORITY then fake 0 .success
    else unsupported
  else if level = IPPROTO_IP then
    if optname = IP_TOS then fake 0 .success else unsupported
  else if level = IPPROTO_TCP then
    if optname = TCP_CONGESTION then
      if 4 < optlen then throw .assert else unsupported
    else unsupported
  else fake (-ENOPROTOOPT) .failure

/-- `HandleAlarm` starts with `NS_ASSERT(false)`. -/
def handleAlarm (_seconds : ℕ) : M SyscallHandlerStatusCode := throw .assert

/-- The simulated time in seconds (`Simulator::Now().ToInteger(Time::S)`). -/
def Ctl.nowSeconds (c : Ctl) : ℤ := (c.now / 1000000000 : ℕ)

def handleTime (tloc : Ptr) : M SyscallHandlerStatusCode := do
  let c := (← get).c
  storeToTracee c.pid tloc (.int c.nowSeconds)
  fake c.nowSeconds .success

def handleGetTimeOfDay (tv tz : Ptr) : M SyscallHandlerStatusCode := do
  let c := (← get).c
  if tz ≠ 0 then throw .assert
  else do
    storeToTracee c.pid tv
      (.timeval ⟨c.nowSeconds, (c.now / 1000 : ℕ) - c.nowSeconds * 1000000⟩)
    fake 0 .success

/-- The clocks that the emulator does not support. -/
def isCpuClock (clk_id : ℤ) : Bool :=
  clk_id = CLOCK_PROCESS_CPUTIME_ID || clk_id = CLOCK_THREAD_CPUTIME_ID

/-- `HandleClockGetTime`; a supported clock is answered without `FAKE`. -/
def handleClockGetTime (clk_id : ℤ) (tp : Ptr) : M SyscallHandlerStatusCode := do
  let c := (← get).c
  if isCpuClock clk_id then fake (-1) .failure
  else do
    storeToTracee c.pid tp
      (.timespec ⟨c.nowSeconds, (c.now : ℤ) - c.nowSeconds * 1000000000⟩)
    return .success

/-- `HandleClockGetRes`; a supported clock is answered without `FAKE`. -/
def handleClockGetRes (clk_id : ℤ) (res : Ptr) : M SyscallHandlerStatusCode := do
  let c := (← get).c
  if isCpuClock clk_id then fake (-1) .failure
  else do
    storeToTracee c.pid res (.timespec ⟨0, 10⟩)
    return .success

def handlePoll (fds : List PollFd) (_timeout : ℤ) : M SyscallHandlerStatusCode := do
  let f := (← get).d.fds
  if fds.any fun pollfd => (f.sockets.find pollfd.fd).isSome then return .error
  else handleSyscallAfter

def handleGetRandom (buf : Ptr) (buflen flags : ℕ) : M SyscallHandlerStatusCode := do
  -- `flags & ~(GRND_RANDOM | GRND_NONBLOCK)`
  if 4 ≤ flags then return .error
  else do
    if buflen ≠ 0 then memcpyToTracee (← get).c.pid buf (.bytes buflen)
    fake buflen .success

/-- `HandleClone`: the flag `CLONE_PTRACE` is added, the kernel executes the call. -/
def handleClone : M SyscallHandlerStatusCode := handleSyscallAfterClone

def handleFutex (args : FutexArgs) : M SyscallHandlerStatusCode := do
  if (args.futex_op = FUTEX_WAIT ∨ args.futex_op = FUTEX_WAIT_PRIVATE) ∧ args.word = args.val then
    fake 0 .success
  else handleSyscallAfter

/-- `HandleExit`: the kernel executes the call when the thread is resumed. -/
def handleExit : M SyscallHandlerStatusCode := return .success

end Grail
