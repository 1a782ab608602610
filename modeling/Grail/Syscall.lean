import Mathlib

/-! # System calls of the tracee

The system calls that `HandleSyscallBefore` dispatches, with the arguments their handlers
read.  A register argument is the integer it holds; an argument that points into the tracee's
memory is given with the object it points to when the call is made (`none` for `NULL`), since
a thread stopped in a call does not change it:

* `Sockaddr` is the address object of `bind`, `connect` and `sendto`, `SockaddrOut` an address
  result argument (`addr`, `addrlen`, and the value of `*addrlen`);
* `SelectArgs` has the three `fd_set` objects and the `timeval` of `select`;
* `Iovec` is the buffer of `sendto` or one entry of the vector of `sendmsg`.

`SyscallHandlerStatusCode` is the result of a handler, `Crash` a reason for which the emulator
itself ends. -/

namespace Grail

/-- `pid_t`: process and thread ids. -/
abbrev Pid := ℤ
/-- File descriptors. -/
abbrev Fd := ℤ
/-- Addresses in the tracee; `0` is `NULL`. -/
abbrev Ptr := ℕ
/-- ns-3 socket objects. -/
abbrev SockId := ℕ
/-- `NetlinkSocket` objects. -/
abbrev NlId := ℕ
/-- An `fd_set`, by its members. -/
abbrev FdSet := Finset ℤ

/-- Results of a system call handler. -/
inductive SyscallHandlerStatusCode where
  /-- application will run again -/
  | success
  /-- simulation will stop -/
  | error
  /-- application will stop -/
  | systemExit
  /-- application will pause -/
  | delayed
  /-- application will run again, failure logged -/
  | failure
  /-- same as `delayed`, but without logging -/
  | manual
deriving DecidableEq, Repr

/-- Reasons for which the emulator ends. -/
inductive Crash where
  /-- `exit(1)` -/
  | exit1
  /-- a failed `assert` or `NS_ASSERT` -/
  | assert
  /-- the assertion of `GetNextFD`: "Out of file descriptors!" -/
  | outOfFds
  /-- `std::map::at` of a missing key -/
  | outOfRange
  /-- a null `Ptr` or pointer is dereferenced -/
  | nullPtr
  /-- `WaitForSyscall` does not return -/
  | hang
  /-- an answer that the kernel does not give -/
  | impossible
deriving DecidableEq, Repr

/-! ### Constants of Linux/amd64 -/

def EWOULDBLOCK : ℤ := 11
def ENOSYS : ℤ := 38
def EPROTOTYPE : ℤ := 91
def ENOPROTOOPT : ℤ := 92
def EPROTONOSUPPORT : ℤ := 93
def EOPNOTSUPP : ℤ := 95
def EAFNOSUPPORT : ℤ := 97

def AF_INET : ℤ := 2
def AF_NETLINK : ℤ := 16
def SOCK_STREAM : ℤ := 1
def SOCK_DGRAM : ℤ := 2
def SOCK_RAW : ℤ := 3
def NETLINK_ROUTE : ℤ := 0

def F_GETFL : ℤ := 3
def F_SETFL : ℤ := 4
def O_NONBLOCK : ℤ := 2048

def TCGETS : ℕ := 0x5401
def SIOCGIFFLAGS : ℕ := 0x8913
def SIOCGIFADDR : ℕ := 0x8915
def SIOCGIFBRDADDR : ℕ := 0x8919
def SIOCGIFNETMASK : ℕ := 0x891b
def SIOCGIFMTU : ℕ := 0x8921
def SIOCGIWNAME : ℕ := 0x8b01

def SOL_SOCKET : ℤ := 1
def SO_REUSEADDR : ℤ := 2
def SO_BROADCAST : ℤ := 6
def SO_SNDBUF : ℤ := 7
def SO_RCVBUF : ℤ := 8
def SO_PRIORITY : ℤ := 12
def SO_BINDTODEVICE : ℤ := 25
def IPPROTO_IP : ℤ := 0
def IP_TOS : ℤ := 1
def IPPROTO_TCP : ℤ := 6
def TCP_MAXSEG : ℤ := 2
def TCP_INFO : ℤ := 11
def TCP_CONGESTION : ℤ := 13
def MSG_DONTROUTE : ℤ := 4

def F_DUPFD : ℤ := 0
def F_DUPFD_CLOEXEC : ℤ := 1030

def FUTEX_WAIT : ℤ := 0
def FUTEX_WAIT_PRIVATE : ℤ := 128
def CLOCK_PROCESS_CPUTIME_ID : ℤ := 2
def CLOCK_THREAD_CPUTIME_ID : ℤ := 3

/-! ### Argument objects -/

structure Timeval where
  tv_sec : ℤ
  tv_usec : ℤ
deriving DecidableEq, Repr

structure Timespec where
  tv_sec : ℤ
  tv_nsec : ℤ
deriving DecidableEq, Repr

/-- An address object read by a call, with the `addrlen` argument. -/
structure Sockaddr where
  sa_family : ℤ
  sin_port : ℕ := 0
  sin_addr : ℕ := 0
  nl_pid : ℤ := 0
  nl_groups : ℤ := 0
  addrlen : ℕ := 16
deriving DecidableEq, Repr

/-- An address result argument; `len` is the value of `*addrlen`. -/
structure SockaddrOut where
  addr : Ptr
  addrlen : Ptr
  len : ℕ
deriving DecidableEq, Repr

/-- The arguments of `select`. -/
structure SelectArgs where
  nfds : ℤ
  readfds : Option FdSet
  writefds : Option FdSet
  exceptfds : Option FdSet
  timeout : Option Timeval
deriving DecidableEq

/-- The request object of an interface `ioctl`, at `addr`. -/
structure Ifreq where
  addr : Ptr
  ifr_name : List Char
deriving DecidableEq, Repr

/-- The arguments of `futex`; `word` is the value of `*uaddr`. -/
structure FutexArgs where
  uaddr : Ptr
  word : ℤ
  futex_op : ℤ
  val : ℤ
  timeout : Option Timespec := none
  uaddr2 : Ptr := 0
  val3 : ℤ := 0
deriving DecidableEq, Repr

/-- The events of `poll`. -/
inductive PollEvent where
  | pollin | pollpri | pollout | pollerr | pollhup | pollnval
deriving DecidableEq, Repr

/-- An entry of `poll`; `events` is given by its members. -/
structure PollFd where
  fd : Fd
  events : Finset PollEvent
deriving DecidableEq

/-- A route attribute of a netlink message. -/
inductive Rta where
  | dst (addr : ℕ)
  | src
  | gateway (addr : ℕ)
  | priority
  | oif
  | iif
  | other (rta_type : ℕ)
deriving DecidableEq, Repr

/-- The body of `RTM_NEWROUTE` and `RTM_DELROUTE`. -/
structure RtMsg where
  rtm_dst_len : ℕ
  /-- `rtm_flags & RTM_F_NOTIFY` -/
  notify : Bool
  attrs : List Rta
deriving DecidableEq, Repr

/-- A netlink request. -/
inductive Nlmsg where
  /-- `RTM_GETLINK`; `root` is `nlmsg_flags & NLM_F_ROOT` -/
  | getLink (root : Bool)
  | getAddr (root : Bool)
  /-- `none` when `nlmsg_len` is the size of the header -/
  | newRoute (body : Option RtMsg)
  | delRoute (body : Option RtMsg)
  | other (nlmsg_type : ℕ)
deriving DecidableEq, Repr

/-- A buffer that is sent: its length, the netlink messages it holds, and the length of what
follows them. -/
structure Iovec where
  iov_len : ℕ
  msgs : List Nlmsg := []
  left : ℕ := 0
deriving DecidableEq, Repr

/-- The calls that are always passed on to the kernel. -/
inductive PlainCall where
  | execve | brk | mprotect
  | fstat (fd : Fd) | unlink | access | mmap (fd : Fd) | munmap | getrlimit | getcwd
  | lseek (fd : Fd) | readahead (fd : Fd) | umask | ftruncate (fd : Fd) | readlink
  | prlimit64 | setTidAddress | setRobustList | getRobustList | archPrctl
  | madvise
  | rtSigaction | rtSigprocmask | gettid | tgkill
  | uname
deriving DecidableEq, Repr

/-- The system calls, with the arguments their handlers read. -/
inductive Syscall where
  | plain (call : PlainCall)
  | dup (fd : Fd)
  /-- the first argument of `stat`, read as an `int` -/
  | stat (arg : Fd)
  | read (fd : Fd) (buf : Ptr) (count : ℕ)
  | open (pathname : List Char)
  | openat (dirfd : Fd) (pathname : List Char)
  | close (fd : Fd)
  | pipe2 (pipefd : Fd × Fd)
  | getpid
  | ioctl (fd : Fd) (request : ℕ) (ifreq : Option Ifreq)
  | fcntl (fd : Fd) (cmd : ℤ) (flags : ℤ)
  | exitGroup
  | getsockname (sockfd : Fd) (out : SockaddrOut)
  | getpeername (sockfd : Fd) (out : SockaddrOut)
  | write (fd : Fd) (buf : Ptr) (count : ℕ)
  | setsockopt (sockfd : Fd) (level optname : ℤ) (optlen : ℕ)
  | getsockopt (sockfd : Fd) (level optname : ℤ) (optval optlen : Ptr)
  | socket (domain type protocol : ℤ)
  | connect (sockfd : Fd) (addr : Sockaddr)
  | listen (sockfd : Fd) (backlog : ℤ)
  | sendto (sockfd : Fd) (buf : Iovec) (flags : ℤ) (dest_addr : Option Sockaddr)
  | recvfrom (sockfd : Fd) (buffer : Ptr) (length : ℕ) (flags : ℤ) (out : SockaddrOut)
  | accept (sockfd : Fd) (out : SockaddrOut)
  | recvmsg (sockfd : Fd) (iov_base : Ptr) (iov_len : ℕ)
  | sendmsg (sockfd : Fd) (msg_iov : List Iovec)
  | nanosleep (req : Timespec)
  | time (tloc : Ptr)
  | alarm (seconds : ℕ)
  | gettimeofday (tv tz : Ptr)
  | clockGettime (clk_id : ℤ) (tp : Ptr)
  | clockGetres (clk_id : ℤ) (res : Ptr)
  | bind (sockfd : Fd) (addr : Sockaddr)
  /-- the timeout is in milliseconds -/
  | poll (fds : List PollFd) (timeout : ℤ)
  | getrandom (buf : Ptr) (buflen : ℕ) (flags : ℕ)
  | select (args : SelectArgs)
  | getrusage (r_usage : Ptr)
  | getuid
  | geteuid
  | getgid
  | getegid
  | clone
  | futex (args : FutexArgs)
  | exit
  | unsupported (nr : ℕ)
deriving DecidableEq

/-- The descriptors that a call operates on: its descriptor argument, or the entries of `poll`. -/
def PlainCall.fds : PlainCall → List Fd
  | fstat fd => [fd]
  | mmap fd => [fd]
  | lseek fd => [fd]
  | readahead fd => [fd]
  | ftruncate fd => [fd]
  | _ => []

def Syscall.fds : Syscall → List Fd
  | plain call => call.fds
  | dup fd => [fd]
  | read fd _ _ => [fd]
  | openat dirfd _ => [dirfd]
  | close fd => [fd]
  | ioctl fd _ _ => [fd]
  | fcntl fd _ _ => [fd]
  | getsockname sockfd _ => [sockfd]
  | getpeername sockfd _ => [sockfd]
  | write fd _ _ => [fd]
  | setsockopt sockfd _ _ _ => [sockfd]
  | getsockopt sockfd _ _ _ _ => [sockfd]
  | connect sockfd _ => [sockfd]
  | listen sockfd _ => [sockfd]
  | sendto sockfd _ _ _ => [sockfd]
  | recvfrom sockfd _ _ _ _ => [sockfd]
  | accept sockfd _ => [sockfd]
  | recvmsg sockfd _ _ => [sockfd]
  | sendmsg sockfd _ => [sockfd]
  | bind sockfd _ => [sockfd]
  | poll fds _ => fds.map PollFd.fd
  | _ => []

/-- The pause that `select` and `nanosleep` ask for, in nanoseconds. -/
def Timeval.toNs (t : Timeval) : ℤ := t.tv_sec * 1000000000 + t.tv_usec * 1000

def Timespec.toNs (t : Timespec) : ℤ := t.tv_sec * 1000000000 + t.tv_nsec

end Grail
