import Grail.Handlers
import Grail.Netlink

/-! # Handlers of sockets

The handlers of `read`, `write` and of the socket calls.  A call that cannot be answered at once
installs a callback and returns `delayed`. -/

namespace Grail

open Programs

def handleRead (fd : Fd) (buf : Ptr) (count : ℕ) : M SyscallHandlerStatusCode := do
  let s ← get
  let f := s.d.fds
  if !f.isEmulated fd then handleSyscallAfter
  else if fd ∈ f.randomFds then do
    if count ≠ 0 then memcpyToTracee s.c.pid buf (.bytes count)
    fake count .success
  else if (f.sockets.find fd).isSome && decide (fd ∈ f.tcpSockets) then do
    let ns3socket ← socketsAt fd
    if s.d.rxAvailable ns3socket ≠ 0 then do
      -- return immediately
      readCallback s.c.task buf count ns3socket
      return .manual
    else if fd ∈ f.nonblockingSockets then fake (-EWOULDBLOCK) .failure
    else do
      -- block until data arrives
      modifyCtl (·.setRecvCallback ns3socket (some (.read s.c.task buf count)))
      return .delayed
  else throw .exit1

/-- `HandleWrite`; a write on a full socket installs a callback that only reports an error. -/
def handleWrite (fd : Fd) (buf : Ptr) (count : ℕ) : M SyscallHandlerStatusCode := do
  let s ← get
  let f := s.d.fds
  if fd ≠ 1 ∧ fd ≠ 2 ∧ f.isEmulated fd = false then handleSyscallAfter
  else if !f.isEmulated fd then do
    if buf = 0 ∨ count = 0 then throw .assert
    setOrigRax s.c.pid
    fake count .success
  else if fd ∉ f.connectedSockets then unsupported
  else do
    let sock ← socketsAt fd
    let txAvailable := s.d.txAvailable sock
    if txAvailable = 0 then
      if fd ∈ f.nonblockingSockets then fake (-EWOULDBLOCK) .failure
      else do
        modifyCtl (·.setSendCallback sock (some (.write s.c.task)))
        return .delayed
    else do
      let ret ← ns3Send sock
      let res ← fake ret .success
      if res = .error then return .error
      if 0 < ret then return .success else return .error

/-- The address of an ns-3 socket is reported with the result `a.ret` of the query. -/
def replyAddress (out : SockaddrOut) : M SyscallHandlerStatusCode := do
  let a ← ask
  let _ ← setBsdAddress a.addr out
  fake a.ret (if 0 ≤ a.ret then .success else .failure)

def handleGetSockName (sockfd : Fd) (out : SockaddrOut) : M SyscallHandlerStatusCode := do
  let f := (← get).d.fds
  match f.netlinks.find sockfd with
  | some nl => nlHandleGetSockName nl out
  | none => if (f.sockets.find sockfd).isSome then replyAddress out else unsupported

def handleGetPeerName (sockfd : Fd) (out : SockaddrOut) : M SyscallHandlerStatusCode := do
  if sockfd ∉ (← get).d.fds.tcpSockets then throw .assert
  let _ ← socketsAt sockfd
  replyAddress out

def handleSocket (domain type protocol : ℤ) : M SyscallHandlerStatusCode := do
  let s ← get
  if domain = AF_INET then
    if type = SOCK_DGRAM then do
      let socket ← createSocket false
      let newSocketFd ← getNextFD
      modifyFds (·.addSocket newSocketFd socket)
      fake newSocketFd .success
    else if type = SOCK_STREAM then do
      let socket ← createSocket true
      let newSocketFd ← getNextFD
      modifyFds (·.addTcpSocket newSocketFd socket)
      fake newSocketFd .success
    else fake (-EPROTONOSUPPORT) .failure
  else if domain = AF_NETLINK then
    if type ≠ SOCK_RAW ∧ type ≠ SOCK_DGRAM then fake (-EPROTOTYPE) .failure
    else if protocol = NETLINK_ROUTE then do
      let newSocketFd ← getNextFD
      modifyData (·.newNetlink s.c.pid (s.c.env.heap s.d.nextNl))
      modifyFds (·.addNetlink newSocketFd s.d.nextNl)
      fake newSocketFd .success
    else fake (-EPROTONOSUPPORT) .error
  else fake (-EAFNOSUPPORT) .failure

def handleListen (sockfd : Fd) (_backlog : ℤ) : M SyscallHandlerStatusCode := do
  let f := (← get).d.fds
  if sockfd ∉ f.tcpSockets then fake (-EOPNOTSUPP) .failure
  else if sockfd ∈ f.isListenTcpSocket then fake (-EOPNOTSUPP) .failure
  else do
    let sock ← socketsAt sockfd
    let ret ← ns3Listen sock
    modifyFds (·.setListen sockfd)
    let res ← fake ret .success
    if res = .error then return .error
    if ret ≠ 0 then return .failure
    -- register default fake accept handler
    modifyCtl (·.setAcceptCallback sock (some (.fakeAccept sockfd)))
    return .success

/-- `Connect`: an attempt that ns-3 refuses invokes no callback, a TCP socket starts to connect,
a UDP socket is connected at once. -/
def ns3Connect (cl : ConnectCallback) (sock : SockId) : M Unit := do
  let a ← ask
  if a.ret < 0 then pure ()
  else if (← get).d.isTcp sock then modifyCtl (·.setConnecting sock true)
  else connectSucceeded cl

def handleConnect (sockfd : Fd) (addr : Sockaddr) : M SyscallHandlerStatusCode := do
  let s ← get
  if (s.d.fds.sockets.find sockfd).isNone then fake (-1) .failure
  else if !(← getNs3Address addr) then return .error
  else do
    let sock ← socketsAt sockfd
    let cl : ConnectCallback := ⟨s.c.task, sockfd⟩
    modifyCtl (·.setConnectCallback sock (some cl))
    ns3Connect cl sock
    return .delayed

/-- `HandleSendTo`; a destination that `GetNs3Address` rejects is a null pointer. -/
def handleSendTo (sockfd : Fd) (buf : Iovec) (flags : ℤ) (dest_addr : Option Sockaddr) :
    M SyscallHandlerStatusCode := do
  let f := (← get).d.fds
  match f.sockets.find sockfd with
  | some sock =>
      if flags ≠ 0 ∧ flags ≠ MSG_DONTROUTE then return .error
      else do
        match dest_addr with
        | none => pure ()
        | some addr => if !(← getNs3Address addr) then throw .nullPtr
        let ret ← ns3Send sock
        fake ret .success
  | none =>
      match f.netlinks.find sockfd with
      | some nl => nlHandleSendTo nl buf flags
      | none => return .error

def handleRecvFrom (sockfd : Fd) (buffer : Ptr) (length : ℕ) (flags : ℤ) (out : SockaddrOut) :
    M SyscallHandlerStatusCode := do
  let s ← get
  match s.d.fds.sockets.find sockfd with
  | none => return .error
  | some ns3socket =>
      -- flags are not supported by ns-3's TCP implementation
      let flags := if s.d.isTcp ns3socket then 0 else flags
      if s.d.rxAvailable ns3socket ≠ 0 then do
        -- return immediately
        recvfromCallback s.c.task buffer length out ns3socket
        return .manual
      else if sockfd ∈ s.d.fds.nonblockingSockets then fake (-EWOULDBLOCK) .success
      else do
        -- block until data arrives
        modifyCtl (·.setRecvCallback ns3socket
          (some (.recvfrom s.c.task buffer length flags out)))
        return .delayed

def handleRecvMsg (sockfd : Fd) (iov_base : Ptr) (iov_len : ℕ) : M SyscallHandlerStatusCode := do
  match (← get).d.fds.netlinks.find sockfd with
  | some nl => nlHandleRecvMsg nl iov_base iov_len
  | none => throw .assert

def handleSendMsg (sockfd : Fd) (msg_iov : List Iovec) : M SyscallHandlerStatusCode := do
  match (← get).d.fds.netlinks.find sockfd with
  | some nl => nlHandleSendMsg nl msg_iov
  | none => throw .assert

def handleAccept (sockfd : Fd) (out : SockaddrOut) : M SyscallHandlerStatusCode := do
  let s ← get
  let f := s.d.fds
  if !(f.isEmulated sockfd && decide (sockfd ∈ f.isListenTcpSocket)) then throw .assert
  match f.fakeAcceptedSockets.find sockfd with
  | some (ns3Sock, ns3Addr) => do
      modifyFds (·.eraseFakeAccepted sockfd)
      let _ ← setBsdAddress ns3Addr out
      let newSocketFd ← getNextFD
      modifyFds (·.addAccepted newSocketFd ns3Sock)
      let res ← fake newSocketFd .success
      noteReturned (f.sockets.find sockfd) ns3Sock
      return res
  | none =>
      if sockfd ∈ f.nonblockingSockets then fake (-EWOULDBLOCK) .failure
      else do
        let sock ← socketsAt sockfd
        modifyCtl (·.setAcceptCallback sock (some (.accept s.c.task sockfd out)))
        return .delayed

def handleNanoSleep (req : Timespec) : M SyscallHandlerStatusCode := do
  let task := (← get).c.task
  schedule req.toNs (.nanosleep task)
  return .delayed

def handleBind (sockfd : Fd) (addr : Sockaddr) : M SyscallHandlerStatusCode := do
  let f := (← get).d.fds
  match f.sockets.find sockfd with
  | some _ =>
      if !(← getNs3Address addr) then return .error
      else do
        let a ← ask
        fake a.ret .success
  | none =>
      match f.netlinks.find sockfd with
      | some nl => nlHandleBind nl addr
      | none => return .error

end Grail
