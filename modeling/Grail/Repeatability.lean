import Grail.Lockstep
import Grail.NetlinkCalls
import Grail.Primitives
import Grail.Emulator
import Grail.Replies

/-! # Two runs of a netlink program

A program decides on its next call by what it has been told: by the bytes that were stored and by
the values that were returned.  The same program is run on the same node twice; the host gives the
tracee the process id `p` in the one run and `p'` in the other, and its uninitialised memory may
differ.  `Alike` relates the states of the two runs: everything that the program can see is the
same, except a `nl_pid` that it has not named itself.

Both runs go in lockstep (`alike_step`).  As long as the program receives no reply but
`NLMSG_DONE`, asks for the name of no socket that it has not named, and its route messages are
contained, they store the same bytes and return the same values (`netlink_repeatable`). -/

namespace Grail

open Programs Bytes Runs

/-! ### What the tracee is told -/

/-- The bytes of a value that the netlink handlers store; `stack` is what was in the memory in
which a reply is built. -/
def Val.netlinkBytes (stack : Memory) : Val → Option (List UInt8)
  | .int v => some (toBytes 4 (v % 2 ^ 32).toNat)
  | .sockaddrNl nl_pid copylen =>
      some ((toBytes 2 16 ++ toBytes 2 0 ++ toBytes 4 (nl_pid % 2 ^ 32).toNat ++
        toBytes 4 0).take copylen)
  | .reply r => some (r.encode stack)
  | _ => none

/-- What is stored where, the last store first. -/
def storedBytes (stack : ℕ → Memory) : List (Pid × Ptr × Val) → List (Ptr × Option (List UInt8))
  | [] => []
  | (_, dst, val) :: st => (dst, val.netlinkBytes (stack st.length)) :: storedBytes stack st

/-- What the tracee has been given: bytes in its memory and return values. -/
structure Told where
  stored : List (Ptr × Option (List UInt8))
  returned : List ℤ
deriving DecidableEq

def St.told (stack : ℕ → Memory) (s : St) : Told :=
  ⟨storedBytes stack s.d.stores, returnValues s.c.log⟩

/-! ### The two runs -/

/-- The tracee runs the program `prog`, which makes the call `prog t` when it has been told `t`,
and ends if there is none. -/
structure Follows (prog : Told → Option NlCall) (stack : ℕ → Memory) (s : St) (_ : Label) :
    Prop where
  call : ∀ c, prog (s.told stack) = some c →
    ∃ call retval, c.Reads call ∧ s.c.env.wait s.c.waits = .stopped call retval
  answered : ∀ c, prog (s.told stack) = some c →
    ∃ next retval, s.c.env.wait (s.c.waits + 1) = .stopped next retval
  ends : prog (s.told stack) = none → s.c.env.wait s.c.waits = .exited

/-- The nodes are the same, up to the process id of the tracee. -/
def SameNode (app app' : App) : Prop :=
  app' = { app with appPid := app'.appPid, appPid_pos := app'.appPid_pos }

structure SameEvent (p p' : Pid) (e e' : Event) : Prop where
  time : e'.time = e.time
  kind : e.kind = .handleSyscallBefore p
  kind' : e'.kind = .handleSyscallBefore p'

/-- No callback is installed and no connection attempt is under way. -/
def Ctl.Idle (c : Ctl) : Prop :=
  (∀ sock, c.recvCallback sock = none) ∧ (∀ sock, c.sendCallback sock = none) ∧
    (∀ nl, c.nlCallback nl = none) ∧ ∀ sock, c.connecting sock = false

/-- `ph` is the stop that the tracee is at, `none` after its end. -/
structure CtlAlike (p p' : Pid) (ph : Option Phase) (c c' : Ctl) : Prop where
  app : SameNode c.app c'.app
  pid : c.pid = p
  pid' : c'.pid = p'
  now : c'.now = c.now
  thread : (c.threads p).map Tracee.phase = ph
  thread' : (c'.threads p').map Tracee.phase = ph
  answered : ph = some .entry → ∃ next retval, c.env.wait c.waits = .stopped next retval
  answered' : ph = some .entry → ∃ next retval, c'.env.wait c'.waits = .stopped next retval
  events : List.Forall₂ (SameEvent p p') c.events c'.events
  detector : c'.pollLoopDetector = c.pollLoopDetector
  idle : c.Idle
  idle' : c'.Idle
  log : returnValues c'.log = returnValues c.log

/-- Two netlink sockets whose `nl_pid` is the same if the tracee has named it. -/
structure SockAlike (p p' : Pid) (sock sock' : NetlinkSocket) : Prop where
  pid : sock.pid = p
  pid' : sock'.pid = p'
  replyQueue : sock'.replyQueue = sock.replyQueue
  named : sock'.named = sock.named
  nl_pid : sock.named = true → sock'.nl_pid = sock.nl_pid

structure DataAlike (p p' : Pid) (d d' : Data) : Prop where
  fds : d'.fds = d.fds
  sockets : ∀ fd, d.fds.sockets.find fd = none
  nls : ∀ fd nl, d.fds.netlinks.find fd = some nl → SockAlike p p' (d.nls nl) (d'.nls nl)
  nextNl : d'.nextNl = d.nextNl
  rt : d'.rt = d.rt
  listening : ∀ sock, d.listening sock = false
  listening' : ∀ sock, d'.listening sock = false
  stores : ∀ stack stack', storedBytes stack' d'.stores = storedBytes stack d.stores

/-- The two runs are at the same point. -/
structure Alike (p p' : Pid) (ph : Option Phase) (s t : St) : Prop where
  c : CtlAlike p p' ph s.c t.c
  d : DataAlike p p' s.d t.d

/-- The calls that tell the tracee nothing of the host. -/
def NlCall.Repeatable (d : Data) : NlCall → Prop
  | .getsockname sockfd out =>
      ∀ nl, d.fds.netlinks.find sockfd = some nl → out.len ≤ 4 ∨ (d.nls nl).named = true
  | .recvmsg sockfd _ _ =>
      ∀ nl, d.fds.netlinks.find sockfd = some nl → ∀ r ∈ (d.nls nl).replyQueue.head?, r = .done
  | .sendto _ buf _ _ => PayloadContained buf
  | .sendmsg _ bufs => ∀ buf ∈ bufs, PayloadContained buf
  | _ => True

/-- The tracee's next call is repeatable. -/
def Repeats (prog : Told → Option NlCall) (stack : ℕ → Memory) (s : St) (_ : Label) : Prop :=
  ∀ c, prog (s.told stack) = some c → c.Repeatable s.d

variable {p p' : Pid} {ph : Option Phase} {s t : St}

theorem NlCall.Reads.not_qualifies {c : NlCall} {call : Syscall} (h : c.Reads call) :
    PollLoopDetector.qualifies call = false := by
  cases h <;> rfl

/-! ### Tracees -/

theorem phase_update (threads : Pid → Option Tracee) (q : Pid) (th : Option Tracee) :
    (Function.update threads q th q).map Tracee.phase = th.map Tracee.phase := by
  rw [Function.update_self]

/-- Both handlers have answered the call. -/
def Answered (p p' : Pid) (res res' : SyscallHandlerStatusCode)
    (s t : St) : Prop :=
  res' = res ∧ (res = .error ∨ Alike p p' (some .exit) s t)

namespace CtlAlike

variable {c c' : Ctl}

theorem threads {q : Phase} (h : CtlAlike p p' (some q) c c') :
    ∃ th th', c.threads p = some th ∧ c'.threads p' = some th' ∧ th.phase = q ∧ th'.phase = q := by
  obtain ⟨th, hth, hph⟩ := Option.map_eq_some_iff.mp h.thread
  obtain ⟨th', hth', hph'⟩ := Option.map_eq_some_iff.mp h.thread'
  exact ⟨th, th', hth, hth', hph, hph'⟩

theorem answer (h : CtlAlike p p' (some .entry) c c') (th th' : Tracee) (v : ℤ) :
    CtlAlike p p' (some .exit) (c.answer p th v) (c'.answer p' th' v) where
  app := h.app
  pid := h.pid
  pid' := h.pid'
  now := h.now
  thread := phase_update c.threads _ _
  thread' := phase_update c'.threads _ _
  answered hph := nomatch hph
  answered' hph := nomatch hph
  events := h.events
  detector := h.detector
  idle := h.idle
  idle' := h.idle'
  log := congrArg (v :: ·) h.log

end CtlAlike

theorem both_fakeAt (h : Alike p p' (some .entry) s t) (v : ℤ)
    (res : SyscallHandlerStatusCode) :
    Both (fakeAt p v res) (fakeAt p' v res) (Answered p p') s t := by
  obtain ⟨th, th', hth, hth', hph, hph'⟩ := h.c.threads
  obtain ⟨next, retval, hw⟩ := h.c.answered rfl
  obtain ⟨next', retval', hw'⟩ := h.c.answered' rfl
  exact both_of_ok (run_fakeAt hth hph hw) (run_fakeAt hth' hph' hw')
    ⟨rfl, Or.inr ⟨h.c.answer th th' v, h.d⟩⟩

theorem both_fake (h : Alike p p' (some .entry) s t) (v : ℤ)
    (res : SyscallHandlerStatusCode) :
    Both (fake v res) (fake v res) (Answered p p') s t := by
  unfold fake
  refine both_bind (both_get ?_)
  rw [h.c.pid, h.c.pid']
  exact both_fakeAt h v res

/-! ### The data of the emulator -/

theorem sockAlike_update {f f' : NlId → NetlinkSocket} {nl nl' : NlId} {sock sock' : NetlinkSocket}
    (h : nl' ≠ nl → SockAlike p p' (f nl') (f' nl')) (hs : SockAlike p p' sock sock') :
    SockAlike p p' (Function.update f nl sock nl') (Function.update f' nl sock' nl') := by
  by_cases hnl : nl' = nl
  · subst hnl
    rw [Function.update_self, Function.update_self]
    exact hs
  · rw [Function.update_of_ne hnl, Function.update_of_ne hnl]
    exact h hnl

namespace DataAlike

variable {d d' : Data} {nl : NlId}

/-- The netlink socket is changed in the same way. -/
theorem setNetlink (h : DataAlike p p' d d') (nl : NlId) {sock sock' : NetlinkSocket}
    (hs : SockAlike p p' sock sock') :
    DataAlike p p' (d.setNetlink nl sock) (d'.setNetlink nl sock') where
  fds := h.fds
  sockets := h.sockets
  nls fd _ hfd := sockAlike_update (fun _ => h.nls fd _ hfd) hs
  nextNl := h.nextNl
  rt := h.rt
  listening := h.listening
  listening' := h.listening'
  stores := h.stores

theorem push (h : DataAlike p p' d d') (hnl : SockAlike p p' (d.nls nl) (d'.nls nl))
    (replies : List Reply) : DataAlike p p' (d.push nl replies) (d'.push nl replies) :=
  h.setNetlink nl ⟨hnl.pid, hnl.pid', congrArg (· ++ replies) hnl.replyQueue, hnl.named, hnl.nl_pid⟩

/-- The new netlink socket gets the next descriptor. -/
theorem newNetlink (h : DataAlike p p' d d') (fd : Fd) (nl_pid nl_pid' : ℤ) :
    DataAlike p p'
      ((d.newNetlink p nl_pid).withFds (d.fds.addNetlink fd d.nextNl))
      ((d'.newNetlink p' nl_pid').withFds (d'.fds.addNetlink fd d'.nextNl)) where
  fds := by
    simp only [Data.withFds, h.fds, h.nextNl]
  sockets := h.sockets
  nls fd' nl hfd := by
    have hs : SockAlike p p' ⟨p, nl_pid, 0, [], false⟩ ⟨p', nl_pid', 0, [], false⟩ :=
      ⟨rfl, rfl, rfl, rfl, fun hn => nomatch hn⟩
    have hfd : (d.fds.netlinks.assign fd d.nextNl).find fd' = some nl := hfd
    show SockAlike p p' (Function.update d.nls d.nextNl _ nl) (Function.update d'.nls d'.nextNl _ nl)
    rw [h.nextNl]
    refine sockAlike_update (fun hnl => h.nls fd' nl ?_) hs
    by_cases hne : fd' = fd
    · subst hne
      rw [StdMap.find_assign_self] at hfd
      exact absurd (Option.some.inj hfd).symm hnl
    · rwa [StdMap.find_assign_ne _ _ hne] at hfd
  nextNl := congrArg (· + 1) h.nextNl
  rt := h.rt
  listening := h.listening
  listening' := h.listening'
  stores := h.stores

theorem eraseAvailable (h : DataAlike p p' d d') (fd : Fd) :
    DataAlike p p' (d.withFds (d.fds.eraseAvailable fd)) (d'.withFds (d'.fds.eraseAvailable fd)) where
  fds := congrArg (Fds.eraseAvailable fd) h.fds
  sockets := h.sockets
  nls := h.nls
  nextNl := h.nextNl
  rt := h.rt
  listening := h.listening
  listening' := h.listening'
  stores := h.stores

end DataAlike

/-! ### Requests -/

/-- The tracee is at the entry stop and `nl` is one of its netlink sockets. -/
def NlAlike (p p' : Pid) (nl : NlId) (s t : St) : Prop :=
  Alike p p' (some .entry) s t ∧ ∃ fd, s.d.fds.netlinks.find fd = some nl

variable {nl : NlId}

theorem NlAlike.sock (h : NlAlike p p' nl s t) : SockAlike p p' (s.d.nls nl) (t.d.nls nl) := by
  obtain ⟨h, fd, hfd⟩ := h
  exact h.d.nls fd nl hfd

theorem NlAlike.withData (h : NlAlike p p' nl s t) {d d' : Data} (hd : DataAlike p p' d d')
    (hfds : d.fds = s.d.fds) : NlAlike p p' nl { s with d := d } { t with d := d' } := by
  refine ⟨⟨h.1.c, hd⟩, ?_⟩
  show ∃ fd, d.fds.netlinks.find fd = some nl
  rw [hfds]
  exact h.2

theorem both_memcpyToTracee (h : NlAlike p p' nl s t) (dst : Ptr) {val val' : Val}
    (hval : ∀ stack stack', val'.netlinkBytes stack' = val.netlinkBytes stack) :
    Both (memcpyToTracee p dst val) (memcpyToTracee p' dst val')
      (fun _ _ s' t' => NlAlike p p' nl s' t') s t := by
  obtain ⟨th, th', hth, hth', -, -⟩ := h.1.c.threads
  unfold memcpyToTracee
  refine both_bind (both_get ?_)
  rw [hth, hth']
  refine both_modify (h.withData ?_ rfl)
  refine { h.1.d with stores := fun stack stack' => ?_ }
  simp only [storedBytes]
  rw [hval (stack s.d.stores.length) (stack' t.d.stores.length), h.1.d.stores stack stack']

theorem both_pushReplies (h : NlAlike p p' nl s t) (replies : List Reply) :
    Both (pushReplies nl replies) (pushReplies nl replies)
      (fun _ _ s' t' => NlAlike p p' nl s' t') s t :=
  both_modify ⟨⟨h.1.c, h.1.d.push h.sock replies⟩, h.2⟩

theorem both_notifyRecv (h : NlAlike p p' nl s t) :
    Both (notifyRecv nl) (notifyRecv nl) (fun _ _ s' t' => NlAlike p p' nl s' t') s t := by
  unfold notifyRecv
  refine both_bind (both_get ?_)
  rw [h.1.c.idle.2.2.1 nl, h.1.c.idle'.2.2.1 nl]
  exact both_pure h

theorem both_dumpRequest (h : NlAlike p p' nl s t) (root : Bool)
    (replies : Except Crash (List Reply)) :
    Both (dumpRequest nl root replies) (dumpRequest nl root replies)
      (fun _ _ s' t' => NlAlike p p' nl s' t') s t := by
  unfold dumpRequest
  refine both_ite (fun _ => both_bind both_throw) fun _ => ?_
  cases replies with
  | error e => exact both_throw
  | ok replies =>
      exact both_bind ((both_pushReplies h _).mono fun _ _ _ _ h => both_notifyRecv h)

theorem both_routeRequest (h : NlAlike p p' nl s t) (iifOk : Bool)
    (edit : List RtEntry → ℕ → ℕ → ℕ → List RtEntry) (body : Option RtMsg) :
    Both (routeRequest nl iifOk edit body) (routeRequest nl iifOk edit body)
      (fun _ _ s' t' => NlAlike p p' nl s' t') s t := by
  unfold routeRequest
  cases body with
  | none => exact both_throw
  | some amsg =>
      refine both_ite (fun _ => both_bind both_throw) fun _ => ?_
      dsimp only
      rcases routeAttrs iifOk amsg.attrs (none, none) with e | ⟨_ | dst, _ | gw⟩
      · exact both_throw
      · exact both_throw
      · exact both_throw
      · exact both_throw
      · have hd : DataAlike p p' (s.d.setRoutes (edit s.d.rt dst amsg.rtm_dst_len gw))
            (t.d.setRoutes (edit t.d.rt dst amsg.rtm_dst_len gw)) := by
          refine { h.1.d with rt := ?_ }
          simp only [Data.setRoutes, h.1.d.rt]
        exact both_bind (both_modify (both_pushReplies (h.withData hd rfl) _))

theorem both_processNlmsghdr (h : NlAlike p p' nl s t) (hdr : Nlmsg) :
    Both (processNlmsghdr nl hdr) (processNlmsghdr nl hdr)
      (fun _ _ s' t' => NlAlike p p' nl s' t') s t := by
  unfold processNlmsghdr
  refine both_bind (both_get ?_)
  have hdev : t.c.app.devices = s.c.app.devices := by rw [h.1.c.app]
  rw [hdev]
  cases hdr with
  | getLink root => exact both_dumpRequest h root _
  | getAddr root => exact both_dumpRequest h root _
  | newRoute body => exact both_routeRequest h true _ body
  | delRoute body => exact both_routeRequest h false _ body
  | other _ => exact both_throw

theorem both_processNlmsgs (h : NlAlike p p' nl s t) (msgs : List Nlmsg) :
    Both (processNlmsgs nl msgs) (processNlmsgs nl msgs)
      (fun _ _ s' t' => NlAlike p p' nl s' t') s t := by
  induction msgs generalizing s t with
  | nil => exact both_pure h
  | cons hdr hdrs ih =>
      exact both_bind ((both_processNlmsghdr h hdr).mono fun _ _ _ _ h => ih h)

theorem both_processIovecs (h : NlAlike p p' nl s t) (iovs : List Iovec) :
    Both (processIovecs nl iovs) (processIovecs nl iovs)
      (fun _ _ s' t' => NlAlike p p' nl s' t') s t := by
  induction iovs generalizing s t with
  | nil => exact both_pure h
  | cons iov iovs ih =>
      exact both_bind ((both_processNlmsgs h iov.msgs).mono fun _ _ _ _ h => ih h)

/-! ### Handlers -/

theorem both_nlFake (h : NlAlike p p' nl s t) (v : ℤ) (res : SyscallHandlerStatusCode) :
    Both (nlFake nl v res) (nlFake nl v res) (Answered p p') s t := by
  unfold nlFake
  refine both_bind (both_get ?_)
  rw [h.sock.pid, h.sock.pid']
  exact both_fakeAt h.1 v res

theorem both_nlHandleBind (h : NlAlike p p' nl s t) (addr : Sockaddr) :
    Both (nlHandleBind nl addr) (nlHandleBind nl addr) (Answered p p') s t := by
  have hs := h.sock
  unfold nlHandleBind
  refine both_bind (both_get (both_bind (both_modify ?_)))
  refine both_nlFake (h.withData (h.1.d.setNetlink nl ?_) rfl) 0 .success
  refine ⟨hs.pid, hs.pid', hs.replyQueue, rfl, fun hn => ?_⟩
  have hn : addr.nl_pid ≠ 0 := of_decide_eq_true hn
  simp only [if_neg hn]

/-- The first four bytes of a `sockaddr_nl` are before `nl_pid`. -/
theorem sockaddrNl_bytes {nl_pid nl_pid' : ℤ} {n : ℕ} (h : n ≤ 4 ∨ nl_pid' = nl_pid)
    (stack stack' : Memory) : (Val.sockaddrNl nl_pid' n).netlinkBytes stack' =
      (Val.sockaddrNl nl_pid n).netlinkBytes stack := by
  rcases h with h | rfl
  · have hlen : n ≤ (toBytes 2 16 ++ toBytes 2 0).length := h
    unfold Val.netlinkBytes
    simp only [List.append_assoc _ _ (toBytes 4 0), List.take_append_of_le_length hlen]
  · rfl

theorem both_nlHandleGetSockName (h : NlAlike p p' nl s t) (out : SockaddrOut)
    (hout : out.len ≤ 4 ∨ (s.d.nls nl).named = true) :
    Both (nlHandleGetSockName nl out) (nlHandleGetSockName nl out) (Answered p p') s t := by
  have hs := h.sock
  unfold nlHandleGetSockName
  refine both_bind (both_get (both_ite (fun _ => both_bind both_throw) fun _ => ?_))
  dsimp only
  rw [hs.pid, hs.pid']
  have hbytes := sockaddrNl_bytes (n := min 12 out.len)
    (hout.imp (fun hlen => (min_le_right _ _).trans hlen) hs.nl_pid)
  refine both_bind ((both_memcpyToTracee h _ hbytes).mono fun _ _ s₁ t₁ h₁ => ?_)
  refine both_bind ((both_memcpyToTracee h₁ _ fun _ _ => rfl).mono fun _ _ s₂ t₂ h₂ => ?_)
  exact both_nlFake h₂ 0 .success

theorem both_nlHandleRecvMsg (h : NlAlike p p' nl s t) (iov_base : Ptr) (iov_len : ℕ)
    (hdone : ∀ r ∈ (s.d.nls nl).replyQueue.head?, r = .done) :
    Both (nlHandleRecvMsg nl iov_base iov_len) (nlHandleRecvMsg nl iov_base iov_len)
      (Answered p p') s t := by
  have hs := h.sock
  unfold nlHandleRecvMsg
  refine both_bind (both_get ?_)
  dsimp only
  rw [hs.pid, hs.pid', hs.replyQueue]
  cases hq : (s.d.nls nl).replyQueue with
  | nil => exact both_nlFake h _ _
  | cons reply rest =>
      have hreply : reply = .done := hdone reply (by rw [hq]; rfl)
      subst hreply
      refine both_ite (fun _ => both_bind both_throw) fun _ => ?_
      refine both_bind ((both_memcpyToTracee h _ fun _ _ => rfl).mono fun _ _ s₁ t₁ h₁ => ?_)
      refine both_bind (both_modify ?_)
      refine both_nlFake (h₁.withData (h₁.1.d.setNetlink nl ?_) rfl) _ _
      exact ⟨rfl, rfl, rfl, hs.named, hs.nl_pid⟩

theorem both_nlHandleSendMsg (h : NlAlike p p' nl s t) {iovs iovs' : List Iovec}
    (hsum : (iovs.map Iovec.iov_len).sum = (iovs'.map Iovec.iov_len).sum)
    (heq : processIovecs nl iovs = processIovecs nl iovs') :
    Both (nlHandleSendMsg nl iovs) (nlHandleSendMsg nl iovs') (Answered p p') s t := by
  unfold nlHandleSendMsg
  rw [← heq, ← hsum]
  exact both_bind ((both_processIovecs h iovs).mono fun _ _ _ _ h => both_nlFake h _ _)

theorem both_nlHandleSendTo (h : NlAlike p p' nl s t) {iov iov' : Iovec} (flags : ℤ)
    (hleft : iov.left = iov'.left)
    (heq : processNlmsgs nl iov.msgs = processNlmsgs nl iov'.msgs) :
    Both (nlHandleSendTo nl iov flags) (nlHandleSendTo nl iov' flags) (Answered p p') s t := by
  unfold nlHandleSendTo
  rw [← heq, ← hleft]
  refine both_ite (fun _ => both_bind both_throw) fun _ => ?_
  exact both_bind ((both_processNlmsgs h iov.msgs).mono fun _ _ _ _ h => both_nlFake h _ _)

theorem both_getNextFD {Q : Fd → Fd → St → St → Prop} (hfds : t.d.fds = s.d.fds)
    (h : ∀ fd, Q fd fd { s with d := s.d.withFds (s.d.fds.eraseAvailable fd) }
      { t with d := t.d.withFds (t.d.fds.eraseAvailable fd) }) : Both getNextFD getNextFD Q s t := by
  unfold getNextFD
  refine both_bind (both_get ?_)
  rw [hfds]
  cases s.d.fds.nextFD with
  | none => exact both_throw
  | some fd => exact both_bind (both_modify (both_pure (h fd)))

theorem both_handleSocket (h : Alike p p' (some .entry) s t) (type protocol : ℤ) :
    Both (handleSocket AF_NETLINK type protocol) (handleSocket AF_NETLINK type protocol)
      (Answered p p') s t := by
  have hdomain : ¬ AF_NETLINK = AF_INET := by decide
  unfold handleSocket
  refine both_bind (both_get ?_)
  rw [if_neg hdomain, if_pos rfl, h.c.pid, h.c.pid']
  refine both_ite (fun _ => both_fake h _ _) fun _ => ?_
  refine both_ite (fun _ => ?_) fun _ => both_fake h _ _
  refine both_bind (both_getNextFD h.d.fds fun fd => both_bind (both_modify ?_))
  refine both_bind (both_modify (both_fake ⟨?_, ?_⟩ _ _))
  · exact h.c
  · exact (h.d.eraseAvailable fd).newNetlink fd _ _

/-- What a handler does with a descriptor of a netlink socket; other descriptors are an error. -/
theorem both_netlink (h : Alike p p' (some .entry) s t) (fd : Fd)
    {m m' : NlId → M SyscallHandlerStatusCode} {e e' : M SyscallHandlerStatusCode}
    (he : Both e e' (Answered p p') s t)
    (hm : ∀ nl, s.d.fds.netlinks.find fd = some nl → NlAlike p p' nl s t →
      Both (m nl) (m' nl) (Answered p p') s t) :
    Both (match s.d.fds.netlinks.find fd with | some nl => m nl | none => e)
      (match t.d.fds.netlinks.find fd with | some nl => m' nl | none => e') (Answered p p') s t := by
  rw [h.d.fds]
  cases hfd : s.d.fds.netlinks.find fd with
  | none => exact he
  | some nl => exact hm nl hfd ⟨h, fd, hfd⟩

theorem both_error : Both (pure .error : M SyscallHandlerStatusCode)
    (pure .error : M SyscallHandlerStatusCode) (Answered p p') s t := both_pure ⟨rfl, Or.inl rfl⟩

theorem both_handle {c : NlCall} {call call' : Syscall} (h : Alike p p' (some .entry) s t)
    (hc : c.Reads call) (hc' : c.Reads call') (hr : c.Repeatable s.d) :
    Both (handle call) (handle call') (Answered p p') s t := by
  have hnone : ∀ fd, t.d.fds.sockets.find fd = none := by
    rw [h.d.fds]
    exact h.d.sockets
  unfold handle
  refine both_bind (both_get ?_)
  cases hc with
  | getpid =>
      cases hc'
      unfold handleGetPid
      have hpid : t.c.app.fakePid = s.c.app.fakePid := by rw [h.c.app]
      refine both_bind (both_get ?_)
      rw [hpid]
      exact both_fake h _ _
  | socket =>
      cases hc'
      exact both_handleSocket h _ _
  | @bind sockfd addr =>
      cases hc'
      unfold handleBind
      refine both_bind (both_get ?_)
      dsimp only
      rw [h.d.sockets sockfd, hnone sockfd]
      exact both_netlink h sockfd both_error fun nl _ hnl => both_nlHandleBind hnl addr
  | @getsockname sockfd out =>
      cases hc'
      unfold handleGetSockName
      refine both_bind (both_get ?_)
      dsimp only
      rw [h.d.sockets sockfd, hnone sockfd]
      exact both_netlink h sockfd both_error fun nl hfd hnl =>
        both_nlHandleGetSockName hnl out (hr nl hfd)
  | @sendto sockfd buf iov flags dest_addr hiov =>
      cases hc' with
      | @sendto _ _ iov' _ _ hiov' =>
          obtain ⟨-, hleft, hmsgs⟩ := readsAs_congr hiov hiov' hr
          unfold handleSendTo
          refine both_bind (both_get ?_)
          dsimp only
          rw [h.d.sockets sockfd, hnone sockfd]
          exact both_netlink h sockfd both_error fun nl _ hnl =>
            both_nlHandleSendTo hnl flags hleft (hmsgs nl)
  | @recvmsg sockfd iov_base iov_len =>
      cases hc'
      unfold handleRecvMsg
      refine both_bind (both_get (both_netlink h sockfd both_throw fun nl hfd hnl => ?_))
      exact both_nlHandleRecvMsg hnl iov_base iov_len (hr nl hfd)
  | @sendmsg sockfd bufs msg_iov hiovs =>
      cases hc' with
      | @sendmsg _ _ msg_iov' hiovs' =>
          obtain ⟨hsum, heq⟩ := processIovecs_congr hiovs hiovs' hr
          unfold handleSendMsg
          exact both_bind (both_get (both_netlink h sockfd both_throw fun nl _ hnl =>
            both_nlHandleSendMsg hnl hsum (heq nl)))

/-! ### Steps -/

/-- A thread at an exit stop goes on to its next call. -/
theorem run_waitForSyscall {th : Tracee} {call : Syscall} {retval : ℤ}
    (hth : s.c.threads p = some th) (hph : th.phase = .exit)
    (hw : s.c.env.wait s.c.waits = .stopped call retval) :
    (waitForSyscall false p).run s = .ok (true, { s with c := s.c.toEntry p call }) := by
  simp [waitForSyscall, modifyCtl, hth, hph, hw]
  rfl

theorem run_waitForSyscall_exited {th : Tracee} (hth : s.c.threads p = some th)
    (hph : th.phase = .exit) (hw : s.c.env.wait s.c.waits = .exited) :
    (waitForSyscall false p).run s = .ok (false, { s with c := s.c.exited p th false }) := by
  simp [waitForSyscall, modifyCtl, hth, hph, hw]
  rfl

namespace CtlAlike

variable {c c' : Ctl}

/-- Both tracees make a call that the poll loop detector does not look for. -/
theorem dispatch (h : CtlAlike p p' (some .exit) c c') {call call' : Syscall}
    (hq : PollLoopDetector.qualifies call = false) (hq' : PollLoopDetector.qualifies call' = false)
    (hw : ∃ next retval, c.env.wait (c.waits + 1) = .stopped next retval)
    (hw' : ∃ next retval, c'.env.wait (c'.waits + 1) = .stopped next retval) :
    CtlAlike p p' (some .entry)
      ((c.toEntry p call).dispatch p ⟨.entry, call, false, -ENOSYS, c.nextSerial, c.now⟩)
      ((c'.toEntry p' call').dispatch p' ⟨.entry, call', false, -ENOSYS, c'.nextSerial, c'.now⟩) where
  app := h.app
  pid := h.pid
  pid' := h.pid'
  now := h.now
  thread := phase_update c.threads _ _
  thread' := phase_update c'.threads _ _
  answered _ := hw
  answered' _ := hw'
  events := h.events
  detector := by
    have happ : c'.app.pollLoopDetection = c.app.pollLoopDetection := by rw [h.app]
    simp only [Ctl.dispatch, Ctl.toEntry, Ctl.setThread, Tracee.origRax, happ, h.detector,
      PollLoopDetector.handleSystemCall, Bool.false_eq_true, if_false, hq, hq']
  idle := h.idle
  idle' := h.idle'
  log := h.log

theorem exited (h : CtlAlike p p' (some .exit) c c') (th th' : Tracee) :
    CtlAlike p p' none (c.exited p th false) (c'.exited p' th' false) where
  app := h.app
  pid := h.pid
  pid' := h.pid'
  now := h.now
  thread := phase_update c.threads _ none
  thread' := phase_update c'.threads _ none
  answered hph := nomatch hph
  answered' hph := nomatch hph
  events := h.events
  detector := h.detector
  idle := h.idle
  idle' := h.idle'
  log := h.log

theorem resched (h : CtlAlike p p' (some .exit) c c') :
    CtlAlike p p' (some .exit) (c.resched p) (c'.resched p') where
  app := h.app
  pid := h.pid
  pid' := h.pid'
  now := h.now
  thread := h.thread
  thread' := h.thread'
  answered hph := nomatch hph
  answered' hph := nomatch hph
  events := by
    have happ : c'.app.syscallProcessingTime = c.app.syscallProcessingTime := by rw [h.app]
    refine List.rel_append h.events (.cons ⟨?_, rfl, rfl⟩ .nil)
    show c'.now + (c'.app.syscallProcessingTime + c'.pollLoopDetector.getDelay) =
      c.now + (c.app.syscallProcessingTime + c.pollLoopDetector.getDelay)
    rw [h.now, happ, h.detector]
  detector := h.detector
  idle := h.idle
  idle' := h.idle'
  log := h.log

end CtlAlike

/-- Between two steps the tracee is at an exit stop, or it has ended. -/
def Stopped (p p' : Pid) (s t : St) : Prop :=
  Alike p p' (some .exit) s t ∨ Alike p p' none s t

theorem both_processStatusCode (h : Alike p p' (some .exit) s t) (res : SyscallHandlerStatusCode) :
    Both (processStatusCode res p) (processStatusCode res p') (fun _ _ => Stopped p p') s t := by
  have hquit : t.c.app.mayQuit = s.c.app.mayQuit := by rw [h.c.app]
  unfold processStatusCode
  cases res with
  | manual => exact both_pure (Or.inl h)
  | success => exact both_modify (Or.inl ⟨h.c.resched, h.d⟩)
  | failure => exact both_modify (Or.inl ⟨h.c.resched, h.d⟩)
  | error => exact both_throw
  | delayed => exact both_pure (Or.inl h)
  | systemExit =>
      refine both_bind (both_get ?_)
      rw [hquit]
      exact both_ite (fun _ => both_pure (Or.inl h)) fun _ => both_throw

variable {prog : Told → Option NlCall} {stack stack' : ℕ → Memory} {l : Label}

theorem Alike.told (h : Alike p p' ph s t) : t.told stack' = s.told stack := by
  unfold St.told
  rw [h.d.stores stack stack', h.c.log]

theorem both_dispatchSyscall {c : NlCall} {call call' : Syscall} (h : Alike p p' (some .exit) s t)
    (hc : c.Reads call) (hc' : c.Reads call') (hr : c.Repeatable s.d)
    (hw : ∃ next retval, s.c.env.wait (s.c.waits + 1) = .stopped next retval)
    (hw' : ∃ next retval, t.c.env.wait (t.c.waits + 1) = .stopped next retval) :
    Both (dispatchSyscall p) (dispatchSyscall p') (fun _ _ => Stopped p p')
      { s with c := s.c.toEntry p call } { t with c := t.c.toEntry p' call' } := by
  have hth : (s.c.toEntry p call).threads p =
      some ⟨.entry, call, false, -ENOSYS, s.c.nextSerial, s.c.now⟩ := Function.update_self ..
  have hth' : (t.c.toEntry p' call').threads p' =
      some ⟨.entry, call', false, -ENOSYS, t.c.nextSerial, t.c.now⟩ := Function.update_self ..
  have h₁ : Alike p p' (some .entry) ⟨_, s.d⟩ ⟨_, t.d⟩ :=
    ⟨h.c.dispatch hc.not_qualifies hc'.not_qualifies hw hw', h.d⟩
  unfold dispatchSyscall
  refine both_bind (both_get ?_)
  dsimp only
  rw [hth, hth']
  refine both_bind (both_modify (both_bind ((both_handle h₁ hc hc' hr).mono ?_)))
  rintro res res' s₂ t₂ ⟨rfl, rfl | h₂⟩
  · exact both_throw
  · exact both_processStatusCode h₂ res'

theorem both_handleSyscallBefore (h : Alike p p' (some .exit) s t) (hf : Follows prog stack s l)
    (hf' : Follows prog stack' t l) (hr : Repeats prog stack s l) :
    Both (handleSyscallBefore p) (handleSyscallBefore p') (fun _ _ => Stopped p p') s t := by
  have htold : t.told stack' = s.told stack := h.told
  obtain ⟨th, th', hth, hth', hph, hph'⟩ := h.c.threads
  have h₁ : Alike p p' (some .exit) { s with c := s.c.setPid p } { t with c := t.c.setPid p' } :=
    ⟨{ h.c with pid := rfl, pid' := rfl }, h.d⟩
  unfold handleSyscallBefore
  refine both_bind (both_modify ?_)
  cases hprog : prog (s.told stack) with
  | none =>
      have hw := hf.ends hprog
      have hw' := hf'.ends (htold ▸ hprog)
      refine both_bind (both_of_ok (run_waitForSyscall_exited hth hph hw)
        (run_waitForSyscall_exited hth' hph' hw') ?_)
      exact both_pure (Or.inr ⟨h₁.c.exited th th', h₁.d⟩)
  | some c =>
      obtain ⟨call, retval, hc, hw⟩ := hf.call c hprog
      obtain ⟨call', retval', hc', hw'⟩ := hf'.call c (htold ▸ hprog)
      refine both_bind (both_of_ok (run_waitForSyscall hth hph hw)
        (run_waitForSyscall hth' hph' hw') ?_)
      exact both_dispatchSyscall h₁ hc hc' (hr c hprog) (hf.answered c hprog)
        (hf'.answered c (htold ▸ hprog))

/-- After its end, the tracee is waited for in vain. -/
theorem both_handleSyscallBefore_none (h : Alike p p' none s t) :
    Both (handleSyscallBefore p) (handleSyscallBefore p') (fun _ _ => Stopped p p') s t := by
  have hth : s.c.threads p = none := Option.map_eq_none_iff.mp h.c.thread
  have hth' : t.c.threads p' = none := Option.map_eq_none_iff.mp h.c.thread'
  unfold handleSyscallBefore waitForSyscall
  refine both_bind (both_modify (both_bind (both_bind (both_get ?_))))
  simp only [Ctl.setPid, hth, hth']
  exact both_throw

theorem rel_getElem? {R : Event → Event → Prop} {es es' : List Event}
    (h : List.Forall₂ R es es') (i : ℕ) : Option.Rel R es[i]? es'[i]? := by
  induction h generalizing i with
  | nil => exact .none
  | cons he _ ih =>
      cases i with
      | zero => exact .some he
      | succ i => exact ih i

theorem forall₂_eraseIdx {R : Event → Event → Prop} {es es' : List Event}
    (h : List.Forall₂ R es es') (i : ℕ) : List.Forall₂ R (es.eraseIdx i) (es'.eraseIdx i) := by
  induction h generalizing i with
  | nil => exact .nil
  | cons he h ih =>
      cases i with
      | zero => exact h
      | succ i => exact .cons he (ih i)

/-- The first event that is due is due at the same time. -/
theorem due_iff {es es' : List Event} (h : List.Forall₂ (SameEvent p p') es es') (time : ℕ) :
    (∀ e ∈ es', time ≤ e.time) ↔ ∀ e ∈ es, time ≤ e.time := by
  induction h with
  | nil => exact Iff.rfl
  | cons he _ ih => rw [List.forall_mem_cons, List.forall_mem_cons, he.time, ih]

theorem both_fire (h : Stopped p p' s t) (hf : Follows prog stack s l)
    (hf' : Follows prog stack' t l) (hr : Repeats prog stack s l) (i time : ℕ) :
    Both (fire i time) (fire i time) (fun _ _ => Stopped p p') s t := by
  have hevents : List.Forall₂ (SameEvent p p') s.c.events t.c.events :=
    h.elim (fun h => h.c.events) fun h => h.c.events
  have he := rel_getElem? hevents i
  have hrest := forall₂_eraseIdx hevents i
  unfold fire
  refine both_bind (both_get ?_)
  revert he
  rcases s.c.events[i]? with _ | e <;> rcases t.c.events[i]? with _ | e' <;> intro he
  · exact both_throw
  · cases he
  · cases he
  · cases he with
    | some he =>
        dsimp only
        rw [he.time]
        refine both_ite (fun _ => both_throw) fun _ => both_bind (both_modify ?_)
        rw [he.kind, he.kind']
        rcases h with h | h
        · have hf : Follows prog stack ⟨s.c.removeEvent i, s.d⟩ l :=
            ⟨hf.call, hf.answered, hf.ends⟩
          have hf' : Follows prog stack' ⟨t.c.removeEvent i, t.d⟩ l :=
            ⟨hf'.call, hf'.answered, hf'.ends⟩
          exact both_handleSyscallBefore ⟨{ h.c with events := hrest }, h.d⟩ hf hf' hr
        · exact both_handleSyscallBefore_none ⟨{ h.c with events := hrest }, h.d⟩

/-- Nobody waits for the events of the ns-3 sockets. -/
theorem both_occur (h : Stopped p p' s t) (hf : Follows prog stack s l)
    (hf' : Follows prog stack' t l) (hr : Repeats prog stack s l) :
    Both (occur l) (occur l) (fun _ _ => Stopped p p') s t := by
  have hidle : s.c.Idle ∧ t.c.Idle := h.elim (fun h => ⟨h.c.idle, h.c.idle'⟩) fun h => ⟨h.c.idle, h.c.idle'⟩
  obtain ⟨⟨hrecv, hsend, -, hconn⟩, ⟨hrecv', hsend', -, hconn'⟩⟩ := hidle
  have hlisten : ∀ sock, s.d.listening sock = false ∧ t.d.listening sock = false := fun sock =>
    h.elim (fun h => ⟨h.d.listening sock, h.d.listening' sock⟩) fun h =>
      ⟨h.d.listening sock, h.d.listening' sock⟩
  unfold occur
  cases l.what with
  | fire i => exact both_fire h hf hf' hr i l.time
  | received sock rx =>
      unfold received
      refine both_ite (fun _ => both_throw) fun _ => both_bind (both_modify (both_bind (both_get ?_)))
      rw [hrecv, hrecv']
      exact both_pure (h.imp (fun h => ⟨h.c, { h.d with }⟩) fun h => ⟨h.c, { h.d with }⟩)
  | sendable sock tx =>
      unfold sendable
      refine both_ite (fun _ => both_throw) fun _ => both_bind (both_modify (both_bind (both_get ?_)))
      rw [hsend, hsend']
      exact both_pure (h.imp (fun h => ⟨h.c, { h.d with }⟩) fun h => ⟨h.c, { h.d with }⟩)
  | incoming sock addr =>
      unfold incoming
      refine both_bind (both_get ?_)
      rw [(hlisten sock).1, (hlisten sock).2]
      exact both_bind both_throw
  | connected sock =>
      unfold connectEnds
      refine both_bind (both_get ?_)
      dsimp only
      rw [hconn, hconn']
      exact both_throw
  | refused sock =>
      unfold connectEnds
      refine both_bind (both_get ?_)
      dsimp only
      rw [hconn, hconn']
      exact both_throw

theorem both_emulate (h : Stopped p p' s t) (hf : Follows prog stack s l)
    (hf' : Follows prog stack' t l) (hr : Repeats prog stack s l) :
    Both (emulate l) (emulate l) (fun _ _ => Stopped p p') s t := by
  have hnow : t.c.now = s.c.now := h.elim (fun h => h.c.now) fun h => h.c.now
  have hdue := due_iff (h.elim (fun h => h.c.events) fun h => h.c.events) l.time
  unfold emulate advance
  refine both_bind (both_bind (both_get ?_))
  simp only [hnow, hdue]
  refine both_ite (fun _ => both_modify ?_) fun _ => both_throw
  refine both_occur ?_ ⟨hf.call, hf.answered, hf.ends⟩ ⟨hf'.call, hf'.answered, hf'.ends⟩ hr
  exact h.imp (fun h => ⟨{ h.c with now := rfl }, h.d⟩) fun h => ⟨{ h.c with now := rfl }, h.d⟩

theorem step_eq_map (s : St) (l : Label) :
    step s l = ((emulate l).run s).toOption.map Prod.snd := by
  unfold step
  cases (emulate l).run s <;> rfl

theorem alike_step (h : Stopped p p' s t)
    (hC : (Follows prog stack s l ∧ Repeats prog stack s l) ∧ Follows prog stack' t l) :
    Option.Rel (Stopped p p') (step s l) (step t l) := by
  obtain ⟨⟨hf, hr⟩, hf'⟩ := hC
  rw [step_eq_map, step_eq_map]
  exact (both_emulate h hf hf' hr).option_rel

theorem alike_initial {app app' : App} {env env' : Env} (h : SameNode app app') :
    Alike app.appPid app'.appPid (some .exit) (St.initial app env) (St.initial app' env') where
  c := {
    app := h
    pid := rfl
    pid' := rfl
    now := rfl
    thread := by simp [St.initial]
    thread' := by simp [St.initial]
    answered := fun hph => nomatch hph
    answered' := fun hph => nomatch hph
    events := by
      have hstart : app'.startTime = app.startTime := by rw [h]
      exact .cons ⟨hstart, rfl, rfl⟩ .nil
    detector := rfl
    idle := ⟨fun _ => rfl, fun _ => rfl, fun _ => rfl, fun _ => rfl⟩
    idle' := ⟨fun _ => rfl, fun _ => rfl, fun _ => rfl, fun _ => rfl⟩
    log := rfl }
  d := {
    fds := rfl
    sockets := fun _ => rfl
    nls := fun _ _ hfd => nomatch hfd
    nextNl := rfl
    rt := rfl
    listening := fun _ => rfl
    listening' := fun _ => rfl
    stores := fun _ _ => rfl }

theorem map_told {o o' : Option St} (h : Option.Rel (Stopped p p') o o') :
    o'.map (St.told stack') = o.map (St.told stack) := by
  cases h with
  | none => rw [Option.map_none, Option.map_none]
  | @some s t h =>
      have htold : t.told stack' = s.told stack := h.elim Alike.told Alike.told
      rw [Option.map_some, Option.map_some, htold]

/-- Two runs of a program, of which the first has repeatable calls only, tell the tracee the same,
whatever its process id and the memory of the host. -/
theorem netlink_repeatable {app app' : App} {env env' : Env} {ls : List Label}
    (happ : SameNode app app') (hf : Meets step (Follows prog stack) (St.initial app env) ls)
    (hf' : Meets step (Follows prog stack') (St.initial app' env') ls)
    (hr : Meets step (Repeats prog stack) (St.initial app env) ls) :
    (run (St.initial app' env') ls).map (St.told stack') =
      (run (St.initial app env) ls).map (St.told stack) := by
  have hstep : ∀ s t l, Stopped app.appPid app'.appPid s t →
      (Follows prog stack s l ∧ Repeats prog stack s l) ∧ Follows prog stack' t l →
      Option.Rel (Stopped app.appPid app'.appPid) (step s l) (step t l) := fun _ _ _ => alike_step
  have hrel := run_lockstep hstep (Or.inl (alike_initial happ)) (hf.and hr) hf'
  exact map_told hrel

/-- A program that creates a socket, binds it and asks for its name. -/
def nameProgram (nl_pid : ℤ) (t : Told) : Option NlCall :=
  match t.returned with
  | [] => some (.socket SOCK_RAW NETLINK_ROUTE)
  | [fd] => some (.bind fd { sa_family := AF_NETLINK, nl_pid })
  | [_, fd] => some (.getsockname fd ⟨8, 16, 12⟩)
  | _ => none

/-- The waits of the program, with what has been returned before. -/
def nameWaits (nl_pid : ℤ) : List (List ℤ × WaitResult × WaitResult) :=
  [([], .entry (.socket AF_NETLINK SOCK_RAW NETLINK_ROUTE), .exit 0),
    ([100], .entry (.bind 100 { sa_family := AF_NETLINK, nl_pid }), .exit 0),
    ([0, 100], .entry (.getsockname 100 ⟨8, 16, 12⟩), .exit 0),
    ([0, 0, 100], .exited, .never)]

def nameEnv (nl_pid : ℤ) : Env :=
  .script ((nameWaits nl_pid).flatMap fun w => [w.2.1, w.2.2]) []

theorem follows_call {c : NlCall} {call : Syscall} {v : ℤ} (hprog : prog (s.told stack) = some c)
    (hc : c.Reads call) (hw : s.c.env.wait s.c.waits = .entry call)
    (hw' : s.c.env.wait (s.c.waits + 1) = .exit v) : Follows prog stack s l where
  call c' hc' := by
    obtain rfl := Option.some.inj (hprog.symm.trans hc')
    exact ⟨call, 0, hc, hw⟩
  answered _ _ := ⟨_, v, hw'⟩
  ends hnone := nomatch hprog.symm.trans hnone

theorem follows_name {nl_pid : ℤ} (h : ((s.told stack).returned, s.c.env.wait s.c.waits,
      s.c.env.wait (s.c.waits + 1)) ∈ nameWaits nl_pid) :
    Follows (nameProgram nl_pid) stack s l := by
  simp only [nameWaits, List.mem_cons, List.not_mem_nil, or_false, Prod.mk.injEq] at h
  rcases h with ⟨ht, hw, hw'⟩ | ⟨ht, hw, hw'⟩ | ⟨ht, hw, hw'⟩ | ⟨ht, hw, -⟩
  · exact follows_call (by rw [nameProgram, ht]) .socket hw hw'
  · exact follows_call (by rw [nameProgram, ht]) .bind hw hw'
  · exact follows_call (by rw [nameProgram, ht]) .getsockname hw hw'
  · have hnone : ∀ c, nameProgram nl_pid (s.told stack) ≠ some c := by
      intro c
      rw [nameProgram, ht]
      exact Option.some_ne_none c ∘ Eq.symm
    exact ⟨fun c hc => absurd hc (hnone c), fun c hc => absurd hc (hnone c), fun _ => hw⟩

theorem meets_name (nl_pid : ℤ) (app : App) (stack : ℕ → Memory) (ls : List Label)
    (h : Meets step (fun s _ => ((s.told stack).returned, s.c.env.wait s.c.waits,
      s.c.env.wait (s.c.waits + 1)) ∈ nameWaits nl_pid) (St.initial app (nameEnv nl_pid)) ls) :
    Meets step (Follows (nameProgram nl_pid) stack) (St.initial app (nameEnv nl_pid)) ls :=
  h.mono fun _ _ => follows_name

/-- The name 7 is told in every run. -/
theorem netlink_repeatable_named :
    (run (St.initial { appPid := 2 } (nameEnv 7)) (.replicate 4 ⟨0, .fire 0⟩)).map
        (St.told fun _ _ => 1) =
      (run (St.initial {} (nameEnv 7)) (.replicate 4 ⟨0, .fire 0⟩)).map (St.told fun _ _ => 0) := by
  have hnamed : Meets step (fun s _ => (s.told fun _ _ => 0).returned.length = 2 →
      ∀ fd ∈ (s.told fun _ _ => 0).returned.getLast?, ∀ nl ∈ s.d.fds.netlinks.find fd,
        (s.d.nls nl).named = true) (St.initial {} (nameEnv 7)) (.replicate 4 ⟨0, .fire 0⟩) := by
    decide +kernel
  refine netlink_repeatable rfl (meets_name 7 _ _ _ (by decide +kernel))
    (meets_name 7 _ _ _ (by decide +kernel)) (hnamed.mono fun s _ h c hc => ?_)
  unfold nameProgram at hc
  split at hc
  next =>
    cases hc
    trivial
  next =>
    cases hc
    trivial
  next ht =>
    cases hc
    rw [ht] at h
    exact fun nl hnl => Or.inr (h rfl _ rfl nl hnl)
  next => cases hc

/-- A program that lets the kernel choose the name is told its process id. -/
theorem getsockname_reveals :
    ¬ ∀ app app' env env' prog stack stack' ls, SameNode app app' →
      Meets step (Follows prog stack) (St.initial app env) ls →
      Meets step (Follows prog stack') (St.initial app' env') ls →
      (run (St.initial app' env') ls).map (St.told stack') =
        (run (St.initial app env) ls).map (St.told stack) := by
  intro hall
  have htold := hall {} { appPid := 2 } (nameEnv 0) (nameEnv 0) (nameProgram 0) (fun _ _ => 0)
    (fun _ _ => 0) (.replicate 4 ⟨0, .fire 0⟩) rfl (meets_name 0 _ _ _ (by decide +kernel))
    (meets_name 0 _ _ _ (by decide +kernel))
  exact absurd htold (by decide +kernel)

end Grail
