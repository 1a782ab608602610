import Grail.Callbacks
import Grail.Runs

/-! # `select`

`HandleSelect` visits the emulated descriptors in the order of the tables.  A first pass
(`selectHasData`) looks for a requested descriptor that is ready; only if there is none may the
call block.  The second pass (`selectSocket`, `selectNetlink`) collects the ready descriptors or
installs a callback for each requested one.  `UNSUPPORTED` ends both passes (`none`). -/

namespace Grail

open Programs

namespace SelectArgs

/-- `fds && FD_ISSET(fd, &myfds)`. -/
def isSet (fds : Option FdSet) (fd : Fd) : Bool :=
  match fds with
  | none => false
  | some set => decide (fd ∈ set)

/-- `!timeout || (mytimeout.tv_sec || mytimeout.tv_usec)`. -/
def mayBlock (args : SelectArgs) : Bool :=
  match args.timeout with
  | none => true
  | some t => decide (t.tv_sec ≠ 0) || decide (t.tv_usec ≠ 0)

/-- The objects that the three pointers name. -/
def mem (args : SelectArgs) : FdSets := ⟨args.readfds, args.writefds, args.exceptfds⟩

end SelectArgs

open SelectArgs

/-! ### The first pass -/

/-- The netlink sockets: is a requested one ready? -/
def netlinksHaveData (args : SelectArgs) (d : Data) : List (Fd × NlId) → Option Bool
  | [] => some false
  | (fd, nl) :: kvs =>
      if isSet args.readfds fd && (d.nls nl).replyQueue ≠ [] then some true
      else if isSet args.exceptfds fd then none
      else netlinksHaveData args d kvs

/-- A requested socket is ready. -/
def socketHasData (args : SelectArgs) (d : Data) (fd : Fd) (sock : SockId) : Bool :=
  isSet args.writefds fd && decide (d.txAvailable sock ≠ 0) ||
    isSet args.readfds fd && decide (d.rxAvailable sock ≠ 0) ||
    isSet args.readfds fd && (d.fds.fakeAcceptedSockets.find fd).isSome

/-- The ns-3 sockets, then the netlink sockets: is a requested one ready? -/
def selectHasData (args : SelectArgs) (d : Data) : List (Fd × SockId) → Option Bool
  | [] => netlinksHaveData args d d.fds.netlinks.entries
  | (fd, sock) :: kvs =>
      if socketHasData args d fd sock then some true
      else if isSet args.exceptfds fd then none
      else selectHasData args d kvs

/-! ### The second pass -/

/-- The variables of the loops, with the control state on which callbacks are installed. -/
structure SelectLoop where
  mayBlock : Bool
  doesBlock : Bool
  newreadfds : FdSet
  newwritefds : FdSet
  ctx : ℕ
  c : Ctl

namespace SelectLoop

def readReady (fd : Fd) (v : SelectLoop) : SelectLoop :=
  { v with newreadfds := insert fd v.newreadfds, mayBlock := false, ctx := v.ctx + 1 }

def writeReady (fd : Fd) (v : SelectLoop) : SelectLoop :=
  { v with newwritefds := insert fd v.newwritefds, mayBlock := false, ctx := v.ctx + 1 }

/-- A callback is installed. -/
def install (f : Ctl → Ctl) (v : SelectLoop) : SelectLoop :=
  { v with c := f v.c, doesBlock := true }

end SelectLoop

def selectWrite (args : SelectArgs) (d : Data) (task : Task) (fd : Fd) (sock : SockId)
    (v : SelectLoop) : SelectLoop :=
  if isSet args.writefds fd then
    if d.txAvailable sock ≠ 0 then v.writeReady fd
    else if v.mayBlock then v.install (·.setSendCallback sock (some (.select ⟨task, fd⟩)))
    else v
  else v

def selectRead (args : SelectArgs) (d : Data) (task : Task) (fd : Fd) (sock : SockId)
    (v : SelectLoop) : SelectLoop :=
  if isSet args.readfds fd then
    if d.rxAvailable sock ≠ 0 then v.readReady fd
    else if (d.fds.fakeAcceptedSockets.find fd).isSome then v.readReady fd
    else if v.mayBlock && decide (fd ∈ d.fds.isListenTcpSocket) then
      v.install (·.setAcceptCallback sock (some (.select ⟨task, fd⟩)))
    else if v.mayBlock then v.install (·.setRecvCallback sock (some (.select ⟨task, fd⟩)))
    else v
  else v

def selectSocket (args : SelectArgs) (d : Data) (task : Task) (v : SelectLoop)
    (kv : Fd × SockId) : Option SelectLoop :=
  let v := selectWrite args d task kv.1 kv.2 v
  if isSet args.exceptfds kv.1 then none
  else some (selectRead args d task kv.1 kv.2 v)

def selectNetlink (args : SelectArgs) (d : Data) (task : Task) (v : SelectLoop)
    (kv : Fd × NlId) : Option SelectLoop :=
  if isSet args.readfds kv.1 then
    if (d.nls kv.2).replyQueue ≠ [] then some (v.readReady kv.1)
    else if v.mayBlock then some (v.install (·.setNlCallback kv.2 (some ⟨task, kv.1⟩)))
    else some v
  else some v

/-- Both loops of the second pass. -/
def selectPass (args : SelectArgs) (d : Data) (task : Task) (v : SelectLoop) : Option SelectLoop := do
  let v ← Runs.run (selectSocket args d task) v d.fds.sockets.entries
  Runs.run (selectNetlink args d task) v d.fds.netlinks.entries

/-! ### The handler -/

/-- The first pass is made only if the call may block. -/
def selectMayBlock (args : SelectArgs) (d : Data) : Option Bool :=
  if args.mayBlock then (selectHasData args d d.fds.sockets.entries).map (!·) else some false

/-- `if(may_block && does_block)`: a timer is set if there is a timeout. -/
def selectBlock (args : SelectArgs) (task : Task) : M SyscallHandlerStatusCode := do
  match args.timeout with
  | none => return .delayed
  | some mytimeout => do
      schedule mytimeout.toNs (.selectTimeout task)
      return .delayed

/-- The sets are stored, the timeout is cleared, the call is answered. -/
def selectAnswer (args : SelectArgs) (task : Task) (v : SelectLoop) :
    M SyscallHandlerStatusCode := do
  let p := (← get).c.pid
  if v.doesBlock then modifyCtl (·.setHandled task.act)
  storeFdSets p task.act v.newreadfds v.newwritefds ∅
  if args.timeout.isSome then memcpyToTracee p 0 (.timeval ⟨0, 0⟩)
  fake v.ctx .success

def handleSelect (args : SelectArgs) : M SyscallHandlerStatusCode := do
  let s ← get
  let task := s.c.task
  modifyData (·.setSel task.act args.mem)
  match selectMayBlock args s.d with
  | none => return .error
  | some mayBlock =>
      match selectPass args s.d task ⟨mayBlock, false, ∅, ∅, 0, s.c⟩ with
      | none => return .error
      | some v => do
          modifyCtl fun _ => v.c
          if v.mayBlock && v.doesBlock then selectBlock args task else selectAnswer args task v

end Grail
