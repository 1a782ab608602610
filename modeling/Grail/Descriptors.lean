import Grail.StdMap
import Grail.Syscall

/-! # The descriptor tables

The tables of emulated descriptors (`m_sockets` and the five sets and maps beside it,
`m_netlinks`, `m_random_fds`, `availableFDs`), and the groups of updates that the handlers make
on them. -/

namespace Grail

/-- The computable order of descriptors. -/
instance instLinearOrderFd : LinearOrder Fd := Int.instLinearOrder

/-- The descriptor tables; an accepted connection waits with the address of its peer. -/
structure Fds where
  sockets : StdMap Fd SockId
  fakeAcceptedSockets : StdMap Fd (SockId × Option (ℕ × ℕ))
  tcpSockets : Finset Fd
  connectedSockets : Finset Fd
  isListenTcpSocket : Finset Fd
  nonblockingSockets : Finset Fd
  randomFds : Finset Fd
  netlinks : StdMap Fd NlId
  availableFDs : Finset Fd

namespace Fds

/-- The constructor makes the numbers from 100 on available, `MAX_NUM_FDS` of them. -/
def initial : Fds where
  sockets := .empty
  fakeAcceptedSockets := .empty
  tcpSockets := ∅
  connectedSockets := ∅
  isListenTcpSocket := ∅
  nonblockingSockets := ∅
  randomFds := ∅
  netlinks := .empty
  availableFDs := (Finset.range 100).image fun i : ℕ => 100 + (i : ℤ)

/-- `FdIsEmulatedSocket(fd)`. -/
def isEmulated (f : Fds) (fd : Fd) : Bool :=
  (f.netlinks.find fd).isSome || (f.sockets.find fd).isSome || decide (fd ∈ f.randomFds)

/-- The number `GetNextFD` hands out: `*availableFDs.begin()`. -/
def nextFD (f : Fds) : Option Fd :=
  if h : f.availableFDs.Nonempty then some (f.availableFDs.min' h) else none

def eraseAvailable (fd : Fd) (f : Fds) : Fds := { f with availableFDs := f.availableFDs.erase fd }

def addRandom (fd : Fd) (f : Fds) : Fds := { f with randomFds := insert fd f.randomFds }

def addNetlink (fd : Fd) (nl : NlId) (f : Fds) : Fds := { f with netlinks := f.netlinks.assign fd nl }

/-- `m_sockets[fd] = sock`. -/
def addSocket (fd : Fd) (sock : SockId) (f : Fds) : Fds :=
  { f with sockets := f.sockets.assign fd sock }

def addTcpSocket (fd : Fd) (sock : SockId) (f : Fds) : Fds :=
  { f.addSocket fd sock with tcpSockets := insert fd f.tcpSockets }

/-- The entries of an accepted connection. -/
def addAccepted (fd : Fd) (sock : SockId) (f : Fds) : Fds :=
  { f.addTcpSocket fd sock with connectedSockets := insert fd f.connectedSockets }

def setListen (fd : Fd) (f : Fds) : Fds :=
  { f with isListenTcpSocket := insert fd f.isListenTcpSocket }

def setConnected (fd : Fd) (f : Fds) : Fds :=
  { f with connectedSockets := insert fd f.connectedSockets }

def setNonblocking (fd : Fd) (f : Fds) : Fds :=
  { f with nonblockingSockets := insert fd f.nonblockingSockets }

/-- `m_fakeAcceptedSockets[fd] = (sock, addr)`. -/
def fakeAccept (fd : Fd) (conn : SockId × Option (ℕ × ℕ)) (f : Fds) : Fds :=
  { f with fakeAcceptedSockets := f.fakeAcceptedSockets.assign fd conn }

def eraseFakeAccepted (fd : Fd) (f : Fds) : Fds :=
  { f with fakeAcceptedSockets := f.fakeAcceptedSockets.erase fd }

/-- `HandleClose` of an ns-3 socket: "remove from all socket state sets". -/
def closeSocket (fd : Fd) (f : Fds) : Fds :=
  { f with
    sockets := f.sockets.erase fd
    tcpSockets := f.tcpSockets.erase fd
    connectedSockets := f.connectedSockets.erase fd
    isListenTcpSocket := f.isListenTcpSocket.erase fd
    nonblockingSockets := f.nonblockingSockets.erase fd
    availableFDs := insert fd f.availableFDs }

def closeNetlink (fd : Fd) (f : Fds) : Fds :=
  { f with netlinks := f.netlinks.erase fd, availableFDs := insert fd f.availableFDs }

def closeRandom (fd : Fd) (f : Fds) : Fds :=
  { f with randomFds := f.randomFds.erase fd, availableFDs := insert fd f.availableFDs }

end Fds

end Grail
