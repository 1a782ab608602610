import Grail.Callbacks

/-! # Netlink sockets

`NetlinkSocket`: requests for links and addresses are answered from the devices of the node,
requests that change routes edit the routing table.  Replies wait in the queue of the socket;
after the answer to a link or address request, the callback of a waiting `select` runs.

Every handler works on the `pid` that the socket was created with. -/

namespace Grail

open Programs

/-! ### Replies -/

/-- `sprintf("%d", n)` of an `uint32_t`, which is read as an `int`. -/
def decimal (n : ℕ) : List Char :=
  if n % 2 ^ 32 < 2 ^ 31 then Nat.toDigits 10 (n % 2 ^ 32)
  else '-' :: Nat.toDigits 10 (2 ^ 32 - n % 2 ^ 32)

/-- The interface counters `loi`, `wlani` and `ethi`. -/
structure IfCounters where
  lo : ℕ
  wlan : ℕ
  eth : ℕ

/-- The name of the next interface of a class; other devices fail an assertion. -/
def IfCounters.next (k : IfCounters) : DeviceType → Except Crash (List Char × IfCounters)
  | .loopback => .ok (['l', 'o'] ++ decimal k.lo, { k with lo := k.lo + 1 })
  | .wifi => .ok (['w', 'l', 'a', 'n'] ++ decimal k.wlan, { k with wlan := k.wlan + 1 })
  | .pointToPoint => .ok (['e', 't', 'h'] ++ decimal k.eth, { k with eth := k.eth + 1 })
  | .other => .error .assert

/-- The answer to `RTM_GETLINK`: one reply for each device, from index `i` on. -/
def linkReplies : ℕ → IfCounters → List NetDevice → Except Crash (List Reply)
  | _, _, [] => .ok []
  | i, k, dev :: devices => do
      let (ifname, k) ← k.next dev.type
      let replies ← linkReplies (i + 1) k devices
      return .newLink i ifname :: replies

/-- The answer to `RTM_GETADDR`: the first address of each device. -/
def addrReplies : ℕ → List NetDevice → Except Crash (List Reply)
  | _, [] => .ok []
  | i, dev :: devices => do
      match dev.addresses with
      | [] => .error .assert
      | a :: _ => do
          let replies ← addrReplies (i + 1) devices
          return .newAddr i a.getPrefixLength a.getLocal :: replies

/-- The replies with the finalizer that follows the last of them. -/
def finalize (replies : List Reply) : List Reply :=
  if replies = [] then [] else replies ++ [.done]

/-! ### Requests -/

def Data.setNetlink (nl : NlId) (sock : NetlinkSocket) (d : Data) : Data :=
  { d with nls := Function.update d.nls nl sock }

/-- `reply_queue.push` of each reply. -/
def Data.push (nl : NlId) (replies : List Reply) (d : Data) : Data :=
  d.setNetlink nl { d.nls nl with replyQueue := (d.nls nl).replyQueue ++ replies }

def Data.setRoutes (rt : List RtEntry) (d : Data) : Data := { d with rt := rt }

def pushReplies (nl : NlId) (replies : List Reply) : M Unit := modifyData (·.push nl replies)

/-- `if(has_recv_callback) recv_callback();` -/
def notifyRecv (nl : NlId) : M Unit := do
  match (← get).c.nlCallback nl with
  | none => pure ()
  | some cl => onBehalf cl.task (selectNetlinkCallback cl nl)

/-- The last destination and gateway among the attributes; `RTA_IIF` is known to
`RTM_NEWROUTE` only, other attributes fail an assertion. -/
def routeAttrs (iifOk : Bool) : List Rta → Option ℕ × Option ℕ → Except Crash (Option ℕ × Option ℕ)
  | [], r => .ok r
  | .dst a :: as, (_, gw) => routeAttrs iifOk as (some a, gw)
  | .gateway a :: as, (dst, _) => routeAttrs iifOk as (dst, some a)
  | .src :: as, r => routeAttrs iifOk as r
  | .priority :: as, r => routeAttrs iifOk as r
  | .oif :: as, r => routeAttrs iifOk as r
  | .iif :: as, r => if iifOk then routeAttrs iifOk as r else .error .assert
  | .other _ :: _, _ => .error .assert

/-- What `RTM_NEWROUTE` and `RTM_DELROUTE` share: `edit` is `AddRoute` or `DelRoute`. -/
def routeRequest (nl : NlId) (iifOk : Bool) (edit : List RtEntry → ℕ → ℕ → ℕ → List RtEntry)
    (body : Option RtMsg) : M Unit := do
  match body with
  | none => throw .assert
  | some amsg =>
      if amsg.notify then throw .assert
      match routeAttrs iifOk amsg.attrs (none, none) with
      | .error e => throw e
      | .ok (some dst, some gw) => do
          modifyData fun d => d.setRoutes (edit d.rt dst amsg.rtm_dst_len gw)
          pushReplies nl [.ack]
      | .ok _ => throw .assert

/-- What `RTM_GETLINK` and `RTM_GETADDR` share. -/
def dumpRequest (nl : NlId) (root : Bool) (replies : Except Crash (List Reply)) : M Unit := do
  if !root then throw .assert
  match replies with
  | .error e => throw e
  | .ok replies => do
      pushReplies nl (finalize replies)
      notifyRecv nl

/-- `ProcessNlmsghdr`. -/
def processNlmsghdr (nl : NlId) (hdr : Nlmsg) : M Unit := do
  let devices := (← get).c.app.devices
  match hdr with
  | .getLink root => dumpRequest nl root (linkReplies 0 ⟨0, 0, 0⟩ devices)
  | .getAddr root => dumpRequest nl root (addrReplies 0 devices)
  | .newRoute body => routeRequest nl true RtEntry.addRoute body
  | .delRoute body => routeRequest nl false RtEntry.delRoute body
  | .other _ => throw .exit1

/-- The loop over the messages of a buffer. -/
def processNlmsgs (nl : NlId) : List Nlmsg → M Unit
  | [] => pure ()
  | hdr :: hdrs => do
      processNlmsghdr nl hdr
      processNlmsgs nl hdrs

/-- The loop over the I/O vector of `sendmsg`. -/
def processIovecs (nl : NlId) : List Iovec → M Unit
  | [] => pure ()
  | iov :: iovs => do
      processNlmsgs nl iov.msgs
      processIovecs nl iovs

/-! ### Handlers -/

/-- `FAKE(retVal); return res;` in a handler of `NetlinkSocket`: `pid` is the socket's. -/
def nlFake (nl : NlId) (retVal : ℤ) (res : SyscallHandlerStatusCode) :
    M SyscallHandlerStatusCode := do
  fakeAt ((← get).d.nls nl).pid retVal res

def nlHandleBind (nl : NlId) (addr : Sockaddr) : M SyscallHandlerStatusCode := do
  let sock := (← get).d.nls nl
  let nl_pid := if addr.nl_pid = 0 then sock.pid else addr.nl_pid
  modifyData (·.setNetlink nl { sock with
    nl_pid, nl_groups := addr.nl_groups, named := decide (addr.nl_pid ≠ 0) })
  nlFake nl 0 .success

/-- The size of `sockaddr_nl` is 12. -/
def nlHandleGetSockName (nl : NlId) (out : SockaddrOut) : M SyscallHandlerStatusCode := do
  let sock := (← get).d.nls nl
  if out.addr = 0 ∨ out.addrlen = 0 then throw .assert
  let copysize := min 12 out.len
  memcpyToTracee sock.pid out.addr (.sockaddrNl sock.nl_pid copysize)
  memcpyToTracee sock.pid out.addrlen (.int copysize)
  nlFake nl 0 .success

def nlHandleRecvMsg (nl : NlId) (iov_base : Ptr) (iov_len : ℕ) : M SyscallHandlerStatusCode := do
  let sock := (← get).d.nls nl
  match sock.replyQueue with
  | [] => nlFake nl (-1) .failure
  | reply :: rest => do
      if iov_len < reply.nlmsgLen then throw .assert
      memcpyToTracee sock.pid iov_base (.reply reply)
      modifyData (·.setNetlink nl { sock with replyQueue := rest })
      nlFake nl reply.nlmsgLen .success

/-- `HandleSendMsg` answers with the total length of the buffers. -/
def nlHandleSendMsg (nl : NlId) (msg_iov : List Iovec) : M SyscallHandlerStatusCode := do
  processIovecs nl msg_iov
  nlFake nl (msg_iov.map Iovec.iov_len).sum .success

/-- `HandleSendTo`; the loop over the messages decrements `len`. -/
def nlHandleSendTo (nl : NlId) (buf : Iovec) (flags : ℤ) : M SyscallHandlerStatusCode := do
  if flags ≠ 0 then throw .assert
  processNlmsgs nl buf.msgs
  nlFake nl buf.left .success

end Grail
