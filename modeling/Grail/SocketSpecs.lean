import Grail.CallbackSpecs

/-! # The handlers of sockets end as `Handled` says

The socket handlers, and the handlers of netlink sockets: handling the requests of a call is
`NlWork`, a sequence of the steps `NlStep`, which also covers the callback of a waiting `select`
that runs in between. -/

namespace Grail

open Programs

variable {s : St}

/-! ### Netlink requests -/

/-- A part of the handling of netlink requests does `NlWork`. -/
def NlFrame (nl : NlId) (m : M Unit) : Prop := Frames (NlWork nl) m

section netlink

variable {nl : NlId}

theorem NlFrame.bind {m : M Unit} {f : Unit → M Unit} (hm : NlFrame nl m)
    (hf : NlFrame nl (f ())) : NlFrame nl (m >>= f) :=
  Frames.bind (fun h h' => h.trans h') hm fun _ => hf

/-- A reply is made for each device. -/
theorem linkReplies_ne_nil {i : ℕ} {k : IfCounters} {devices : List NetDevice}
    {replies : List Reply} (h : linkReplies i k devices = .ok replies) (hd : devices ≠ []) :
    replies ≠ [] := by
  cases devices with
  | nil => exact absurd rfl hd
  | cons dev devices =>
      unfold linkReplies at h
      cases hk : k.next dev.type with
      | error e => simp [hk, bind, Except.bind] at h
      | ok r =>
          cases hr : linkReplies (i + 1) r.2 devices with
          | error e => simp [hk, hr, bind, Except.bind] at h
          | ok rs =>
              simp only [hk, hr, bind, Except.bind, pure, Except.pure, Except.ok.injEq] at h
              simp [← h]

theorem addrReplies_ne_nil {i : ℕ} {devices : List NetDevice} {replies : List Reply}
    (h : addrReplies i devices = .ok replies) (hd : devices ≠ []) : replies ≠ [] := by
  cases devices with
  | nil => exact absurd rfl hd
  | cons dev devices =>
      unfold addrReplies at h
      cases ha : dev.addresses with
      | nil => simp [ha] at h
      | cons a as =>
          cases hr : addrReplies (i + 1) devices with
          | error e => simp [ha, hr, bind, Except.bind] at h
          | ok rs =>
              simp only [ha, hr, bind, Except.bind, pure, Except.pure, Except.ok.injEq] at h
              simp [← h]

theorem dumpRequest_frame {root : Bool} {replies : Except Crash (List Reply)}
    (h : ∀ rs, replies = .ok rs → s.c.app.devices ≠ [] → rs ≠ []) :
    wp (dumpRequest nl root replies) (fun _ s' => NlWork nl s s') s := by
  unfold dumpRequest
  cases root with
  | false => simp
  | true =>
      cases replies with
      | error e => simp
      | ok rs =>
          simp only [Bool.not_true, Bool.false_eq_true, if_false]
          unfold pushReplies notifyRecv
          simp only [wp_bind, wp_modifyData, wp_get]
          have hpush : NlStep nl s { s with d := s.d.push nl (finalize rs) } := .push
          cases hcb : s.c.nlCallback nl with
          | none => exact (wp_pure _ _ _).mpr (.single hpush)
          | some cl =>
              refine wp_selectNetlinkCallback (fun _ => .single hpush) fun c' hn hc' => ?_
              refine .tail (.single hpush) (.notify hcb hn ?_ hc')
              by_cases hd : s.c.app.devices = []
              · exact Or.inr hd
              · left
                simp [Data.push, Data.setNetlink, finalize, h rs rfl hd]

theorem routeRequest_frame {iifOk : Bool} {edit : List RtEntry → ℕ → ℕ → ℕ → List RtEntry}
    {body : Option RtMsg} : NlFrame nl (routeRequest nl iifOk edit body) := by
  intro s
  unfold routeRequest
  cases body with
  | none => simp
  | some amsg =>
      by_cases hn : amsg.notify = true
      · simp [hn]
      · simp only [hn, Bool.false_eq_true, if_false]
        cases routeAttrs iifOk amsg.attrs (none, none) with
        | error e => simp
        | ok attrs =>
            rcases attrs with ⟨_ | dst, _ | gw⟩
            · simp
            · simp
            · simp
            · unfold pushReplies
              simp only [wp_bind, wp_modifyData]
              exact .tail (.single (.route (edit s.d.rt dst amsg.rtm_dst_len gw))) .push

theorem processNlmsghdr_frame (hdr : Nlmsg) : NlFrame nl (processNlmsghdr nl hdr) := by
  intro s
  unfold processNlmsghdr
  simp only [wp_bind, wp_get]
  cases hdr with
  | getLink root => exact dumpRequest_frame fun _ => linkReplies_ne_nil
  | getAddr root => exact dumpRequest_frame fun _ => addrReplies_ne_nil
  | newRoute body => exact routeRequest_frame s
  | delRoute body => exact routeRequest_frame s
  | other t => simp

theorem processNlmsgs_frame : ∀ hdrs : List Nlmsg, NlFrame nl (processNlmsgs nl hdrs)
  | [] => Frames.pure (fun _ => .refl) ()
  | hdr :: hdrs => (processNlmsghdr_frame hdr).bind (processNlmsgs_frame hdrs)

theorem processIovecs_frame : ∀ iovs : List Iovec, NlFrame nl (processIovecs nl iovs)
  | [] => Frames.pure (fun _ => .refl) ()
  | iov :: iovs => (processNlmsgs_frame iov.msgs).bind (processIovecs_frame iovs)

theorem NlStep.pid {s s' : St} (h : NlStep nl s s') : (s'.d.nls nl).pid = (s.d.nls nl).pid := by
  cases h with
  | push => simp [Data.push, Data.setNetlink]
  | route => rfl
  | notify => rfl

/-- The requests do not change the creator of the socket. -/
theorem NlWork.pid {s s' : St} (h : NlWork nl s s') : (s'.d.nls nl).pid = (s.d.nls nl).pid := by
  induction h with
  | refl => rfl
  | tail _ h ih => exact h.pid.trans ih

variable {call : Syscall}

theorem wp_nlFake {v : ℤ} {res : SyscallHandlerStatusCode} {s₁ : St}
    (h : ∀ c', Completes (s₁.d.nls nl).pid v s₁.c c' → Handled call s res ⟨c', s₁.d⟩) :
    wp (nlFake nl v res) (Handled call s) s₁ := by
  unfold nlFake
  simp only [wp_bind, wp_get]
  exact wp_fakeAt h fun _ _ => .error

theorem wp_nlSend (hn : netlinkOf s.d.fds call = some nl) {m : M Unit} (hm : NlFrame nl m)
    (v : ℤ) : wp (m >>= fun _ => nlFake nl v .success) (Handled call s) s := by
  rw [wp_bind]
  refine (hm s).mono fun _ s₁ hw => wp_nlFake fun c' hc' => ?_
  rw [hw.pid] at hc'
  exact .nlSend hn resumes_success hw hc'

/-- After a quiet change of the data and of the socket itself the call is answered. -/
theorem wp_nlAnswer (hn : netlinkOf s.d.fds call = some nl) {v : ℤ}
    {res : SyscallHandlerStatusCode} (hr : res.resumes) {sock : NetlinkSocket}
    (hpid : sock.pid = (s.d.nls nl).pid) {s₁ : St} (hc : s₁.c = s.c)
    (hd : Quiet (s.d.setNetlink nl sock) s₁.d) : wp (nlFake nl v res) (Handled call s) s₁ := by
  refine wp_nlFake fun c' hc' => ?_
  have hnl : (s₁.d.nls nl).pid = (s.d.nls nl).pid := by
    rw [hd.nls]
    simp [Data.setNetlink, hpid]
  rw [hnl, hc] at hc'
  exact .nlOther hn hr hpid hd hc'

theorem setNetlink_self (d : Data) : d.setNetlink nl (d.nls nl) = d := by
  simp [Data.setNetlink]

theorem wp_nlHandleBind (hn : netlinkOf s.d.fds call = some nl) (addr : Sockaddr) :
    wp (nlHandleBind nl addr) (Handled call s) s := by
  unfold nlHandleBind
  simp only [wp_bind, wp_get, wp_modifyData]
  exact wp_nlAnswer hn resumes_success (by rfl) rfl (Quiet.refl _)

theorem wp_nlHandleGetSockName (hn : netlinkOf s.d.fds call = some nl) (out : SockaddrOut) :
    wp (nlHandleGetSockName nl out) (Handled call s) s := by
  unfold nlHandleGetSockName
  simp only [wp_bind, wp_get, wp_ite, wp_throw]
  refine ⟨fun _ => trivial, fun _ => ?_⟩
  refine wp_memcpyToTracee fun st => wp_memcpyToTracee fun st' => ?_
  refine wp_nlAnswer hn resumes_success rfl rfl ?_
  rw [setNetlink_self]
  exact ((Quiet.refl _).stores st).stores st'

theorem wp_nlHandleRecvMsg (hn : netlinkOf s.d.fds call = some nl) (iov_base : Ptr)
    (iov_len : ℕ) : wp (nlHandleRecvMsg nl iov_base iov_len) (Handled call s) s := by
  unfold nlHandleRecvMsg
  simp only [wp_bind, wp_get]
  cases hq : (s.d.nls nl).replyQueue with
  | nil =>
      refine wp_nlAnswer hn resumes_failure rfl rfl ?_
      rw [setNetlink_self]
      exact Quiet.refl _
  | cons reply rest =>
      simp only [wp_bind, wp_ite, wp_throw]
      refine ⟨fun _ => trivial, fun _ => wp_memcpyToTracee fun st => ?_⟩
      rw [wp_modifyData]
      exact wp_nlAnswer hn resumes_success (by rfl) rfl ((Quiet.refl _).stores st)

theorem wp_nlHandleSendTo (hn : netlinkOf s.d.fds call = some nl) (buf : Iovec) (flags : ℤ) :
    wp (nlHandleSendTo nl buf flags) (Handled call s) s := by
  unfold nlHandleSendTo
  split_ifs with h
  · simp
  · exact wp_nlSend hn (processNlmsgs_frame _) _

end netlink

/-! ### Reading and writing -/

theorem handleRead_spec (fd : Fd) (buf : Ptr) (count : ℕ) :
    wp (handleRead fd buf count) (Handled (.read fd buf count) s) s := by
  unfold handleRead
  simp only [wp_bind, wp_get, wp_ite, wp_throw, wp_socketsAt, wp_pure, wp_modifyCtl]
  refine ⟨fun hk => Plain.start (Plain.after rfl rfl hk),
    fun _ => ⟨fun _ => ⟨fun _ => ?_, fun _ => ?_⟩, ?_⟩⟩
  · exact wp_memcpyToTracee fun st =>
      Plain.fake rfl rfl resumes_success _ rfl ((Quiet.refl _).stores st)
  · exact (Plain.fake rfl rfl resumes_success).start
  · refine fun _ => ⟨fun _ sock hsock => ⟨fun hrx => ?_, fun hrx => ⟨fun _ => ?_, fun hnb => ?_⟩⟩,
      fun _ => trivial⟩
    · exact wp_readCallback fun rx d' c' hd' hc' => .recvNow rfl hsock hrx hd' hc'
    · exact (Plain.fake rfl rfl resumes_failure).start
    · exact .recvWait rfl hsock (not_not.mp hrx) hnb rfl

theorem handleRecvFrom_spec (fd : Fd) (buffer : Ptr) (length : ℕ) (flags : ℤ)
    (out : SockaddrOut) :
    wp (handleRecvFrom fd buffer length flags out)
      (Handled (.recvfrom fd buffer length flags out) s) s := by
  unfold handleRecvFrom
  simp only [wp_bind, wp_get]
  cases hsock : s.d.fds.sockets.find fd with
  | none => exact (wp_pure _ _ _).mpr .error
  | some sock =>
      simp only [wp_bind, wp_ite, wp_pure, wp_modifyCtl]
      refine ⟨fun hrx => ?_, fun hrx => ⟨fun _ => ?_, fun hnb => ?_⟩⟩
      · exact wp_recvfromCallback fun rx d' c' hd' hc' => .recvNow rfl hsock hrx hd' hc'
      · exact (Plain.fake rfl rfl resumes_success).start
      · exact .recvWait rfl hsock (not_not.mp hrx) hnb rfl

theorem handleWrite_spec (fd : Fd) (buf : Ptr) (count : ℕ) :
    wp (handleWrite fd buf count) (Handled (.write fd buf count) s) s := by
  unfold handleWrite unsupported
  simp only [wp_bind, wp_get, wp_ite, wp_throw, wp_socketsAt, wp_pure, wp_modifyCtl]
  refine ⟨fun hk => Plain.start (Plain.after rfl rfl (by rw [passable, hk.2.2]; rfl)),
    fun _ => ⟨fun _ => ⟨fun _ => trivial, fun _ => ?_⟩,
    fun _ => ⟨fun _ => .error, fun hconn sock hsock => ?_⟩⟩⟩
  · -- standard output: `orig_rax` is written twice
    refine wp_setOrigRax fun th hth => ?_
    exact wp_fake_edit rfl rfl resumes_success (.quiet (Quiet.refl _)) (.origRax hth) rfl
  · refine ⟨fun htx => ⟨fun _ => (Plain.fake rfl rfl resumes_failure).start, fun hnb => ?_⟩,
      fun _ => ?_⟩
    · exact .writeWait rfl hsock htx (not_not.mp hconn) hnb
    · unfold ns3Send
      simp only [wp_bind, wp_ask, wp_modifyData, wp_pure]
      refine wp_fake (fun _ => ⟨fun _ => .error, fun h => absurd rfl h⟩) fun c' hc' => ?_
      refine ⟨fun h => absurd h (by decide), fun _ => ⟨fun _ => ?_, fun _ => .error⟩⟩
      exact .answered rfl rfl resumes_success (.quiet (((Quiet.refl _).asked _).setTx _ _)) .none
        hc'

/-! ### Addresses -/

theorem netlinkOf_eq {f : Fds} {call : Syscall} {fd : Fd} (h : netlinkFd f call = some fd) :
    netlinkOf f call = f.netlinks.find fd := by
  simp [netlinkOf, h]

theorem handleGetSockName_spec (fd : Fd) (out : SockaddrOut) :
    wp (handleGetSockName fd out) (Handled (.getsockname fd out) s) s := by
  have hn : netlinkOf s.d.fds (.getsockname fd out) = s.d.fds.netlinks.find fd := netlinkOf_eq rfl
  unfold handleGetSockName
  simp only [wp_bind, wp_get]
  cases hnl : s.d.fds.netlinks.find fd with
  | some nl => exact wp_nlHandleGetSockName (hn.trans hnl) out
  | none =>
      simp only [wp_ite]
      refine ⟨fun _ => ?_, fun _ => Plain.error.start⟩
      exact (replyAddress_plain rfl (hn.trans hnl) out).start

theorem handleBind_spec (fd : Fd) (addr : Sockaddr) :
    wp (handleBind fd addr) (Handled (.bind fd addr) s) s := by
  unfold handleBind
  simp only [wp_bind, wp_get]
  cases hsock : s.d.fds.sockets.find fd with
  | some sock =>
      have hn : netlinkOf s.d.fds (.bind fd addr) = none := by simp [netlinkOf, netlinkFd, hsock]
      refine Plain.start (Plain.getNs3Address fun b => ?_)
      exact Plain.ite (fun _ => Plain.error) fun _ =>
        Plain.ask fun _ => Plain.fake rfl hn resumes_success
  | none =>
      have hn : netlinkOf s.d.fds (.bind fd addr) = s.d.fds.netlinks.find fd :=
        netlinkOf_eq (by simp [netlinkFd, hsock])
      cases hnl : s.d.fds.netlinks.find fd with
      | some nl => exact wp_nlHandleBind (hn.trans hnl) addr
      | none => exact (wp_pure _ _ _).mpr .error

theorem handleSendTo_spec (fd : Fd) (buf : Iovec) (flags : ℤ) (dest_addr : Option Sockaddr) :
    wp (handleSendTo fd buf flags dest_addr) (Handled (.sendto fd buf flags dest_addr) s) s := by
  unfold handleSendTo
  simp only [wp_bind, wp_get]
  cases hsock : s.d.fds.sockets.find fd with
  | some sock =>
      have hn : netlinkOf s.d.fds (.sendto fd buf flags dest_addr) = none := by
        simp [netlinkOf, netlinkFd, hsock]
      have send : Plain (.sendto fd buf flags dest_addr) s
          (ns3Send sock >>= fun ret => fake ret .success) :=
        Plain.send fun _ => Plain.fake rfl hn resumes_success
      refine Plain.start (Plain.ite (fun _ => Plain.error) fun _ => ?_)
      cases dest_addr with
      | none => exact send
      | some addr =>
          refine Plain.getNs3Address fun b => ?_
          exact Plain.ite (fun _ => Plain.throw_bind) fun _ => send
  | none =>
      have hn : netlinkOf s.d.fds (.sendto fd buf flags dest_addr) = s.d.fds.netlinks.find fd :=
        netlinkOf_eq (by simp [netlinkFd, hsock])
      cases hnl : s.d.fds.netlinks.find fd with
      | some nl => exact wp_nlHandleSendTo (hn.trans hnl) buf flags
      | none => exact (wp_pure _ _ _).mpr .error

theorem handleRecvMsg_spec (fd : Fd) (iov_base : Ptr) (iov_len : ℕ) :
    wp (handleRecvMsg fd iov_base iov_len) (Handled (.recvmsg fd iov_base iov_len) s) s := by
  have hn : netlinkOf s.d.fds (.recvmsg fd iov_base iov_len) = s.d.fds.netlinks.find fd :=
    netlinkOf_eq rfl
  unfold handleRecvMsg
  simp only [wp_bind, wp_get]
  cases hnl : s.d.fds.netlinks.find fd with
  | some nl => exact wp_nlHandleRecvMsg (hn.trans hnl) iov_base iov_len
  | none => simp

theorem handleSendMsg_spec (fd : Fd) (msg_iov : List Iovec) :
    wp (handleSendMsg fd msg_iov) (Handled (.sendmsg fd msg_iov) s) s := by
  have hn : netlinkOf s.d.fds (.sendmsg fd msg_iov) = s.d.fds.netlinks.find fd := netlinkOf_eq rfl
  unfold handleSendMsg
  simp only [wp_bind, wp_get]
  cases hnl : s.d.fds.netlinks.find fd with
  | some nl => exact wp_nlSend (hn.trans hnl) (processIovecs_frame _) _
  | none => simp

/-! ### Connections -/

theorem handleListen_spec (fd : Fd) (backlog : ℤ) :
    wp (handleListen fd backlog) (Handled (.listen fd backlog) s) s := by
  unfold handleListen ns3Listen
  simp only [wp_bind, wp_get, wp_ite, wp_socketsAt, wp_ask, wp_pure, wp_modifyFds, wp_modifyData,
    wp_modifyCtl]
  refine ⟨fun _ => (Plain.fake rfl rfl resumes_failure).start, fun htcp =>
    ⟨fun _ => (Plain.fake rfl rfl resumes_failure).start, fun hl sock hsock =>
      ⟨fun hret => ?_, fun hret => ?_⟩⟩⟩
  · -- `Listen` succeeded
    rw [hret]
    refine wp_fake (fun _ => ⟨fun _ => .error, fun h => absurd rfl h⟩) fun c' hc' => ?_
    refine ⟨fun h => absurd h (by decide), fun _ => ⟨fun h => absurd rfl h, fun _ => ?_⟩⟩
    exact .listened rfl hsock (not_not.mp htcp) hl ((Quiet.refl _).asked _) hc'
  · refine wp_fake (fun _ => ⟨fun _ => .error, fun h => absurd rfl h⟩) fun c' hc' => ?_
    refine ⟨fun h => absurd h (by decide), fun _ => ⟨fun _ => ?_, fun h => absurd hret h⟩⟩
    exact .answered rfl rfl resumes_failure
      (.listenFailed hsock (not_not.mp htcp) ((Quiet.refl _).asked _)) .none hc'

theorem handleConnect_spec (fd : Fd) (addr : Sockaddr) :
    wp (handleConnect fd addr) (Handled (.connect fd addr) s) s := by
  unfold handleConnect ns3Connect
  simp only [wp_bind, wp_get, wp_ite, wp_socketsAt, wp_ask, wp_pure, wp_modifyCtl]
  refine ⟨fun _ => (Plain.fake rfl rfl resumes_failure).start, fun _ => wp_getNs3Address fun b =>
    ⟨fun _ => .error, fun _ sock hsock => ⟨fun hret => ?_, fun _ => ⟨fun htcp => ?_, fun htcp => ?_⟩⟩⟩⟩
  · exact .connectRefused rfl hsock hret ((Quiet.refl _).asked _)
  · exact .connectWait rfl hsock htcp ((Quiet.refl _).asked _)
  · unfold connectSucceeded
    rw [wp_bind, wp_modifyFds]
    refine wp_complete resumes_success fun c₁ h₁ => ?_
    exact .connectNow rfl hsock (eq_false_of_ne_true htcp) ((Quiet.refl _).asked _)
      (Finish.of_completes h₁)

theorem handleAccept_spec (fd : Fd) (out : SockaddrOut) :
    wp (handleAccept fd out) (Handled (.accept fd out) s) s := by
  unfold handleAccept
  simp only [wp_bind, wp_get, wp_ite, wp_throw]
  refine ⟨fun _ => trivial, fun hl => ?_⟩
  have hl : fd ∈ s.d.fds.isListenTcpSocket := by
    simp only [Bool.not_eq_true', Bool.not_eq_false, Bool.and_eq_true, decide_eq_true_eq] at hl
    exact hl.2
  cases hfake : s.d.fds.fakeAcceptedSockets.find fd with
  | none =>
      simp only [wp_bind, wp_ite, wp_socketsAt, wp_pure, wp_modifyCtl]
      refine ⟨fun _ => (Plain.fake rfl rfl resumes_failure).start, fun hnb sock hsock => ?_⟩
      exact .acceptWait rfl hsock hl hfake hnb
  | some conn =>
      obtain ⟨conn, addr⟩ := conn
      simp only [wp_bind, wp_modifyFds]
      refine wp_setBsdAddress fun b st => ?_
      simp only [wp_getNextFD, wp_noteReturned, wp_pure]
      intro fd' hfd'
      refine wp_fake (fun s' => ?_) fun c' hc' => ?_
      · exact .error
      · exact .accepted rfl hl hfake hfd' ((Quiet.refl _).stores st) hc'

end Grail
