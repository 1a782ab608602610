import Grail.State

/-! # The callbacks that the handlers install

The functions that blocking calls install as socket callbacks and timers, one definition for
each closure of the source.  `onBehalf task` runs a closure; it only sets the history field
`task`.

`selectReady` is the tail that the four callbacks of `select` share: the three sets are stored
through `saved_pid`, the call of thread `target` is completed, and `saved_pid` is rescheduled.
The callback for received data is the one that completes the call of the current `pid`
(`FAKE2`) instead of its own (`FAKE4`); the callback of a blocking `accept` does so too. -/

namespace Grail

open Programs

/-- Run a closure that handles `task`. -/
def onBehalf (task : Task) (m : M Unit) : M Unit := do
  let saved := (← get).c.task
  modifyCtl (·.onTask task)
  m
  modifyCtl (·.onTask saved)

/-! ### `read`, `recvfrom` -/

/-- The closure `g` of `HandleRead`; after `FAKE4` the result is `SYSC_SUCCESS` in any case. -/
def readCallback (task : Task) (buf : Ptr) (count : ℕ) (sock : SockId) : M Unit := do
  let saved_pid := task.thread
  let a ← ns3Recv sock
  if 0 < a.ret then memcpyToTracee saved_pid buf (.bytes (min count a.ret.toNat))
  let _ ← fakeAt saved_pid a.ret .success
  processStatusCode .success saved_pid
  modifyCtl (·.setRecvCallback sock none)

/-- The closure `g` of `HandleRecvFrom`. -/
def recvfromCallback (task : Task) (buffer : Ptr) (length : ℕ) (out : SockaddrOut)
    (sock : SockId) : M Unit := do
  let saved_pid := task.thread
  let a ← ns3Recv sock
  if !(← setBsdAddress a.addr out) then processStatusCode .error saved_pid
  else
    if 0 < a.ret then memcpyToTracee saved_pid buffer (.bytes (min length a.ret.toNat))
    let _ ← fakeAt saved_pid a.ret .success
    processStatusCode .success saved_pid
  modifyCtl (·.setRecvCallback sock none)

/-! ### `select` -/

/-- The sets are stored, the call of `target` is answered with 1, `saved_pid` is rescheduled. -/
def selectReady (cl : SelectClosure) (target : Pid) (readfds writefds : FdSet) : M Unit := do
  let saved_pid := cl.task.thread
  storeFdSets saved_pid cl.task.act readfds writefds ∅
  let res ← fakeAt target 1 .success
  processStatusCode res saved_pid

/-- `*already_handled = true; timeout_event->Cancel();` -/
def Ctl.claim (cl : SelectClosure) (c : Ctl) : Ctl :=
  (c.setHandled cl.task.act).cancelTimeout cl.task

def claimSelect (cl : SelectClosure) : M Unit := modifyCtl (·.claim cl)

def selectSendCallback (cl : SelectClosure) (sock : SockId) : M Unit := do
  if (← get).c.alreadyHandled cl.task.act then return
  claimSelect cl
  selectReady cl cl.task.thread ∅ {cl.fdnr}
  modifyCtl (·.setSendCallback sock none)

/-- The callback for received data uses `FAKE2`. -/
def selectRecvCallback (cl : SelectClosure) (sock : SockId) : M Unit := do
  if (← get).c.alreadyHandled cl.task.act then return
  claimSelect cl
  selectReady cl (← get).c.pid {cl.fdnr} ∅
  modifyCtl (·.setRecvCallback sock none)

/-- The accept callback of `select` restores the default and removes it again. -/
def selectAcceptCallback (cl : SelectClosure) (newSock : SockId) (newAddr : Option (ℕ × ℕ)) :
    M Unit := do
  if (← get).c.alreadyHandled cl.task.act then return
  claimSelect cl
  modifyFds (·.fakeAccept cl.fdnr (newSock, newAddr))
  let sock ← socketsAt cl.fdnr
  modifyCtl (·.setAcceptCallback sock (some (.fakeAccept cl.fdnr)))
  modifyCtl (·.setAcceptCallback sock none)
  selectReady cl cl.task.thread {cl.fdnr} ∅

def selectNetlinkCallback (cl : SelectClosure) (nl : NlId) : M Unit := do
  if (← get).c.alreadyHandled cl.task.act then return
  claimSelect cl
  selectReady cl cl.task.thread {cl.fdnr} ∅
  modifyCtl (·.setNlCallback nl none)

/-- `to_cb`: the sets in the tracee's memory are left as they are. -/
def selectTimeout (task : Task) : M Unit := do
  if (← get).c.alreadyHandled task.act then return
  modifyCtl (·.setHandled task.act)
  let res ← fakeAt task.thread 0 .success
  processStatusCode res task.thread

/-! ### `accept`, `connect`, `nanosleep` -/

/-- The callback of a blocking `accept`, which uses `FAKE2` and leaves itself installed. -/
def acceptCallback (task : Task) (out : SockaddrOut) (sock newSock : SockId)
    (newAddr : Option (ℕ × ℕ)) : M Unit := do
  let saved_pid := task.thread
  let _ ← setBsdAddress newAddr out
  let newSocketFd ← getNextFD
  modifyFds (·.addAccepted newSocketFd newSock)
  let res ← fakeAt (← get).c.pid newSocketFd .success
  noteReturned (some sock) newSock
  processStatusCode res saved_pid

/-- The closure `success` of `HandleConnect`. -/
def connectSucceeded (cl : ConnectCallback) : M Unit := do
  modifyFds (·.setConnected cl.sockfd)
  let res ← fakeAt cl.task.thread 0 .success
  processStatusCode res cl.task.thread

/-- The closure `failure` of `HandleConnect`. -/
def connectFailed (cl : ConnectCallback) : M Unit := do
  let res ← fakeAt cl.task.thread (-1) .failure
  processStatusCode res cl.task.thread

/-- The closure of `HandleNanoSleep`. -/
def nanosleepDone (task : Task) : M Unit := do
  let res ← fakeAt task.thread 0 .success
  processStatusCode res task.thread

end Grail
