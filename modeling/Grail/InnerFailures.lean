import Grail.Failures
import Grail.Frames

/-! # Failures inside the emulator

A handler fails inside the emulator when it looks up a descriptor that is not in `m_sockets`,
dereferences a null pointer, or takes a descriptor when none is available (`Crash.IsInner`).

Most parts of a handler never do (`Robust`).  `Breaks` lists the calls that do, in terms of the
descriptor tables and the devices: `handle_breaks` says that these are all of them. -/

namespace Grail

open Programs

/-- `m_sockets.at` of a missing descriptor, a null pointer, or no descriptor left. -/
def Crash.IsInner (e : Crash) : Prop := e = .outOfRange ∨ e = .nullPtr ∨ e = .outOfFds

instance (e : Crash) : Decidable e.IsInner := inferInstanceAs (Decidable (_ ∨ _ ∨ _))

/-- The program never fails inside the emulator. -/
abbrev Robust {α : Type} (m : M α) : Prop := Never Crash.IsInner m

/-- A statement that is executed under a condition, with what follows it. -/
theorem when_robust {α : Type} {c : Prop} [Decidable c] {m : M PUnit} {rest : M α} (hm : Robust m)
    (h : Robust rest) : Robust (if c then m >>= fun _ => rest else rest) :=
  Never.ite (fun _ => hm.bind fun _ => h) fun _ => h

/-- An assertion. -/
theorem assert_robust {α : Type} {c : Prop} [Decidable c] {rest : M α} (h : Robust rest) :
    Robust (if c then (throw .assert : M PUnit) >>= fun _ => rest else rest) :=
  when_robust (Never.throw (by decide)) h

/-! ### Primitives -/

section primitives

variable {p : Pid} {v : ℤ} {res : SyscallHandlerStatusCode}

theorem modifyCtl_robust (f : Ctl → Ctl) : Robust (modifyCtl f) := Never.modify _

theorem modifyData_robust (f : Data → Data) : Robust (modifyData f) := Never.modify _

theorem modifyFds_robust (f : Fds → Fds) : Robust (modifyFds f) := Never.modify _

theorem ask_robust : Robust ask :=
  Never.get.bind fun _ => (modifyData_robust _).bind fun _ => Never.pure _

theorem waitForSyscall_robust (handled : Bool) (p : Pid) : Robust (waitForSyscall handled p) := by
  unfold waitForSyscall
  refine Never.get.bind fun s => ?_
  cases s.c.threads p with
  | none => exact Never.throw (by decide)
  | some th =>
      refine Never.ite (fun _ => (modifyCtl_robust _).bind fun _ => Never.pure _) fun _ => ?_
      cases s.c.env.wait s.c.waits with
      | never => exact Never.throw (by decide)
      | exited => exact (modifyCtl_robust _).bind fun _ => Never.pure _
      | stopped next retval =>
          cases th.phase with
          | entry => exact (modifyCtl_robust _).bind fun _ => Never.pure _
          | exit => exact (modifyCtl_robust _).bind fun _ => Never.pure _

theorem setOrigRax_robust (p : Pid) : Robust (setOrigRax p) := by
  unfold setOrigRax
  refine Never.get.bind fun s => ?_
  cases s.c.threads p with
  | none => exact Never.throw (by decide)
  | some th => exact modifyCtl_robust _

theorem setRax_robust (p : Pid) (v : ℤ) : Robust (setRax p v) := by
  unfold setRax
  refine Never.get.bind fun s => ?_
  cases s.c.threads p with
  | none => exact Never.throw (by decide)
  | some th => exact modifyCtl_robust _

theorem fakeAt_robust : Robust (fakeAt p v res) := by
  unfold fakeAt
  refine (setOrigRax_robust p).bind fun _ => (modifyCtl_robust _).bind fun _ => ?_
  refine (waitForSyscall_robust true p).bind fun b => Never.ite (fun _ => Never.pure _) fun _ => ?_
  exact (setRax_robust p v).bind fun _ => Never.pure _

theorem fake_robust : Robust (fake v res) := Never.get.bind fun _ => fakeAt_robust

theorem handleSyscallAfter_robust : Robust handleSyscallAfter := by
  unfold handleSyscallAfter
  refine Never.get.bind fun s => (modifyCtl_robust _).bind fun _ => ?_
  exact (waitForSyscall_robust true _).bind fun b => Never.ite (fun _ => Never.pure _) fun _ =>
    Never.pure _

theorem memcpyToTracee_robust (p : Pid) (dst : Ptr) (val : Val) :
    Robust (memcpyToTracee p dst val) := by
  unfold memcpyToTracee
  refine Never.get.bind fun s => ?_
  cases s.c.threads p with
  | none => exact Never.throw (by decide)
  | some th => exact modifyData_robust _

theorem storeToTracee_robust (p : Pid) (dst : Ptr) (val : Val) : Robust (storeToTracee p dst val) :=
  Never.ite (fun _ => Never.pure _) fun _ => memcpyToTracee_robust p dst val

theorem storeFdSets_robust (p : Pid) (act : ℕ) (r w e : FdSet) :
    Robust (storeFdSets p act r w e) := by
  unfold storeFdSets
  refine Never.get.bind fun s => Never.ite (fun _ => ?_) fun _ => modifyData_robust _
  exact (Never.throw (by decide)).bind fun _ => modifyData_robust _

theorem setBsdAddress_robust (addr : Option (ℕ × ℕ)) (out : SockaddrOut) :
    Robust (setBsdAddress addr out) := by
  unfold setBsdAddress
  refine Never.ite (fun _ => Never.pure _) fun _ => ?_
  cases addr with
  | none => exact Never.pure _
  | some a =>
      refine Never.get.bind fun s => (memcpyToTracee_robust _ _ _).bind fun _ => ?_
      exact (memcpyToTracee_robust _ _ _).bind fun _ => Never.pure _

theorem getNs3Address_robust (addr : Sockaddr) : Robust (getNs3Address addr) :=
  Never.ite (fun _ => (Never.throw (by decide)).bind fun _ => Never.pure _) fun _ => Never.pure _

theorem schedule_robust (delay : ℤ) (kind : EventKind) : Robust (schedule delay kind) :=
  Never.ite (fun _ => (Never.throw (by decide)).bind fun _ => modifyCtl_robust _) fun _ =>
    modifyCtl_robust _

theorem processStatusCode_robust : Robust (processStatusCode res p) := by
  unfold processStatusCode
  cases res with
  | success => exact modifyCtl_robust _
  | error => exact Never.throw (by decide)
  | systemExit =>
      exact Never.get.bind fun _ => Never.ite (fun _ => Never.pure _) fun _ => Never.throw (by decide)
  | delayed => exact Never.pure _
  | failure => exact modifyCtl_robust _
  | manual => exact Never.pure _

theorem ns3Listen_robust (sock : SockId) : Robust (ns3Listen sock) := by
  unfold ns3Listen
  refine ask_robust.bind fun a => Never.ite (fun _ => ?_) fun _ => Never.pure _
  exact (modifyData_robust _).bind fun _ => Never.pure _

theorem ns3Recv_robust (sock : SockId) : Robust (ns3Recv sock) :=
  ask_robust.bind fun _ => (modifyData_robust _).bind fun _ => Never.pure _

theorem ns3Send_robust (sock : SockId) : Robust (ns3Send sock) :=
  ask_robust.bind fun _ => (modifyData_robust _).bind fun _ => Never.pure _

theorem noteReturned_robust (sock : Option SockId) (conn : SockId) :
    Robust (noteReturned sock conn) := Never.modify _

theorem unsupported_robust : Robust unsupported := Never.pure _

end primitives

/-! ### Callbacks -/

theorem onBehalf_robust {m : M Unit} (h : Robust m) (τ : Task) : Robust (onBehalf τ m) :=
  Never.get.bind fun _ => (modifyCtl_robust _).bind fun _ => h.bind fun _ => modifyCtl_robust _

/-- The call of `p` is answered and `q` rescheduled. -/
theorem complete_robust {p q : Pid} {v : ℤ} {res : SyscallHandlerStatusCode} :
    Robust (fakeAt p v res >>= fun res => processStatusCode res q) :=
  fakeAt_robust.bind fun _ => processStatusCode_robust

theorem readCallback_robust (task : Task) (buf : Ptr) (count : ℕ) (sock : SockId) :
    Robust (readCallback task buf count sock) := by
  unfold readCallback
  refine (ns3Recv_robust sock).bind fun a => ?_
  refine when_robust (memcpyToTracee_robust _ _ _) ?_
  exact fakeAt_robust.bind fun _ => processStatusCode_robust.bind fun _ => modifyCtl_robust _

theorem recvfromCallback_robust (task : Task) (buffer : Ptr) (length : ℕ) (out : SockaddrOut)
    (sock : SockId) : Robust (recvfromCallback task buffer length out sock) := by
  unfold recvfromCallback
  refine (ns3Recv_robust sock).bind fun a => (setBsdAddress_robust _ _).bind fun b => ?_
  refine Never.ite (fun _ => processStatusCode_robust.bind fun _ => modifyCtl_robust _) fun _ => ?_
  refine when_robust (memcpyToTracee_robust _ _ _) ?_
  exact fakeAt_robust.bind fun _ => processStatusCode_robust.bind fun _ => modifyCtl_robust _

theorem selectReady_robust (cl : SelectClosure) (target : Pid) (r w : FdSet) :
    Robust (selectReady cl target r w) :=
  (storeFdSets_robust _ _ _ _ _).bind fun _ => complete_robust

theorem selectSendCallback_robust (cl : SelectClosure) (sock : SockId) :
    Robust (selectSendCallback cl sock) := by
  unfold selectSendCallback
  refine Never.get.bind fun _ => Never.ite (fun _ => Never.pure _) fun _ => ?_
  refine (modifyCtl_robust _).bind fun _ => (selectReady_robust _ _ _ _).bind fun _ => ?_
  exact modifyCtl_robust _

theorem selectRecvCallback_robust (cl : SelectClosure) (sock : SockId) :
    Robust (selectRecvCallback cl sock) := by
  unfold selectRecvCallback
  refine Never.get.bind fun _ => Never.ite (fun _ => Never.pure _) fun _ => ?_
  refine (modifyCtl_robust _).bind fun _ => Never.get.bind fun _ => ?_
  exact (selectReady_robust _ _ _ _).bind fun _ => modifyCtl_robust _

theorem selectNetlinkCallback_robust (cl : SelectClosure) (nl : NlId) :
    Robust (selectNetlinkCallback cl nl) := by
  unfold selectNetlinkCallback
  refine Never.get.bind fun _ => Never.ite (fun _ => Never.pure _) fun _ => ?_
  refine (modifyCtl_robust _).bind fun _ => (selectReady_robust _ _ _ _).bind fun _ => ?_
  exact modifyCtl_robust _

theorem selectTimeout_robust (task : Task) : Robust (selectTimeout task) := by
  unfold selectTimeout
  refine Never.get.bind fun _ => Never.ite (fun _ => Never.pure _) fun _ => ?_
  exact (modifyCtl_robust _).bind fun _ => complete_robust

theorem connectSucceeded_robust (cl : ConnectCallback) : Robust (connectSucceeded cl) :=
  (modifyFds_robust _).bind fun _ => complete_robust

theorem connectFailed_robust (cl : ConnectCallback) : Robust (connectFailed cl) := complete_robust

theorem nanosleepDone_robust (task : Task) : Robust (nanosleepDone task) := complete_robust

/-! ### Netlink sockets -/

section netlink

variable {nl : NlId}

theorem notifyRecv_robust (nl : NlId) : Robust (notifyRecv nl) := by
  unfold notifyRecv
  refine Never.get.bind fun s => ?_
  cases s.c.nlCallback nl with
  | none => exact Never.pure _
  | some cl => exact onBehalf_robust (selectNetlinkCallback_robust cl nl) _

theorem linkReplies_notInner {i : ℕ} {k : IfCounters} {devices : List NetDevice} {e : Crash}
    (h : linkReplies i k devices = .error e) : e = .assert := by
  induction devices generalizing i k with
  | nil => cases h
  | cons dev devices ih =>
      rw [linkReplies] at h
      cases hk : k.next dev.type with
      | error e' =>
          have he' : e' = .assert := by
            cases htype : dev.type <;> rw [htype] at hk <;> cases hk
            rfl
          rw [hk] at h
          cases h
          exact he'
      | ok r =>
          rw [hk] at h
          cases hrest : linkReplies (i + 1) r.2 devices with
          | error e' =>
              have he : (linkReplies (i + 1) r.2 devices >>= fun replies =>
                (pure (.newLink i r.1 :: replies) : Except Crash (List Reply))) = .error e := h
              rw [hrest] at he
              cases he
              exact ih hrest
          | ok rs =>
              have he : (linkReplies (i + 1) r.2 devices >>= fun replies =>
                (pure (.newLink i r.1 :: replies) : Except Crash (List Reply))) = .error e := h
              rw [hrest] at he
              cases he

theorem addrReplies_notInner {i : ℕ} {devices : List NetDevice} {e : Crash}
    (h : addrReplies i devices = .error e) : e = .assert := by
  induction devices generalizing i with
  | nil => cases h
  | cons dev devices ih =>
      rw [addrReplies] at h
      cases ha : dev.addresses with
      | nil =>
          rw [ha] at h
          cases h
          rfl
      | cons a as =>
          rw [ha] at h
          cases hrest : addrReplies (i + 1) devices with
          | error e' =>
              rw [hrest] at h
              cases h
              exact ih hrest
          | ok rs =>
              rw [hrest] at h
              cases h

theorem routeAttrs_notInner {iifOk : Bool} {as : List Rta} {r : Option ℕ × Option ℕ} {e : Crash}
    (h : routeAttrs iifOk as r = .error e) : e = .assert := by
  induction as generalizing r with
  | nil => cases h
  | cons a as ih =>
      cases a with
      | iif =>
          rw [routeAttrs] at h
          split_ifs at h
          · exact ih h
          · cases h
            rfl
      | other t =>
          cases h
          rfl
      | _ => exact ih h

theorem dumpRequest_robust {root : Bool} {replies : Except Crash (List Reply)}
    (h : ∀ e, replies = .error e → e = .assert) : Robust (dumpRequest nl root replies) := by
  unfold dumpRequest
  refine assert_robust ?_
  cases replies with
  | error e =>
      obtain rfl := h e rfl
      exact Never.throw (by decide)
  | ok rs => exact (modifyData_robust _).bind fun _ => notifyRecv_robust nl

theorem routeRequest_robust {iifOk : Bool} {edit : List RtEntry → ℕ → ℕ → ℕ → List RtEntry}
    {body : Option RtMsg} : Robust (routeRequest nl iifOk edit body) := by
  unfold routeRequest
  cases body with
  | none => exact Never.throw (by decide)
  | some amsg =>
      refine assert_robust ?_
      rcases ha : routeAttrs iifOk amsg.attrs (none, none) with e | ⟨_ | dst, _ | gw⟩
      · obtain rfl := routeAttrs_notInner ha
        exact Never.throw (by decide)
      · exact Never.throw (by decide)
      · exact Never.throw (by decide)
      · exact Never.throw (by decide)
      · exact (modifyData_robust _).bind fun _ => modifyData_robust _

theorem processNlmsghdr_robust (hdr : Nlmsg) : Robust (processNlmsghdr nl hdr) := by
  unfold processNlmsghdr
  refine Never.get.bind fun s => ?_
  cases hdr with
  | getLink root => exact dumpRequest_robust fun e he => linkReplies_notInner he
  | getAddr root => exact dumpRequest_robust fun e he => addrReplies_notInner he
  | newRoute body => exact routeRequest_robust
  | delRoute body => exact routeRequest_robust
  | other t => exact Never.throw (by decide)

theorem processNlmsgs_robust : ∀ hdrs : List Nlmsg, Robust (processNlmsgs nl hdrs)
  | [] => Never.pure _
  | hdr :: hdrs => (processNlmsghdr_robust hdr).bind fun _ => processNlmsgs_robust hdrs

theorem processIovecs_robust : ∀ iovs : List Iovec, Robust (processIovecs nl iovs)
  | [] => Never.pure _
  | iov :: iovs => (processNlmsgs_robust iov.msgs).bind fun _ => processIovecs_robust iovs

theorem nlFake_robust {v : ℤ} {res : SyscallHandlerStatusCode} : Robust (nlFake nl v res) :=
  Never.get.bind fun _ => fakeAt_robust

theorem nlHandleBind_robust (addr : Sockaddr) : Robust (nlHandleBind nl addr) :=
  Never.get.bind fun _ => (modifyData_robust _).bind fun _ => nlFake_robust

theorem nlHandleGetSockName_robust (out : SockaddrOut) : Robust (nlHandleGetSockName nl out) := by
  unfold nlHandleGetSockName
  refine Never.get.bind fun s => assert_robust ?_
  refine (memcpyToTracee_robust _ _ _).bind fun _ => (memcpyToTracee_robust _ _ _).bind fun _ => ?_
  exact nlFake_robust

theorem nlHandleRecvMsg_robust (iov_base : Ptr) (iov_len : ℕ) :
    Robust (nlHandleRecvMsg nl iov_base iov_len) := by
  unfold nlHandleRecvMsg
  refine Never.get.bind fun s => ?_
  dsimp only
  rcases (s.d.nls nl).replyQueue with _ | ⟨reply, rest⟩
  · exact nlFake_robust
  · refine assert_robust ((memcpyToTracee_robust _ _ _).bind fun _ => ?_)
    exact (modifyData_robust _).bind fun _ => nlFake_robust

theorem nlHandleSendMsg_robust (msg_iov : List Iovec) : Robust (nlHandleSendMsg nl msg_iov) :=
  (processIovecs_robust msg_iov).bind fun _ => nlFake_robust

theorem nlHandleSendTo_robust (buf : Iovec) (flags : ℤ) : Robust (nlHandleSendTo nl buf flags) :=
  assert_robust ((processNlmsgs_robust _).bind fun _ => nlFake_robust)

end netlink

/-! ### Handlers that never fail -/

section handlers

variable {s : St}

theorem breaks_socketsAt {fd : Fd} {α : Type} {f : SockId → M α} :
    Fails Crash.IsInner (socketsAt fd >>= f) s ↔ s.d.fds.sockets.find fd = none ∨
      ∃ sock, s.d.fds.sockets.find fd = some sock ∧ Fails Crash.IsInner (f sock) s := by
  unfold socketsAt
  simp only [fails_bind_assoc, fails_get_bind]
  cases s.d.fds.sockets.find fd with
  | none => simp [show Crash.outOfRange.IsInner by decide]
  | some sock => simp

/-- What follows `GetNs3Address`, unless its assertion fails. -/
theorem breaks_getNs3Address {addr : Sockaddr} {α : Type} {f : Bool → M α} :
    Fails Crash.IsInner (getNs3Address addr >>= f) s ↔
      addr.addrlen ≤ 16 ∧ Fails Crash.IsInner (f (decide (addr.sa_family = AF_INET))) s := by
  by_cases h : 16 < addr.addrlen
  · have hthrow : (getNs3Address addr).run s = .error .assert := by
      simp [getNs3Address, h]
      rfl
    rw [fails_bind_of_error hthrow]
    exact ⟨fun hE => absurd hE (by decide), fun hf => absurd h (not_lt.mpr hf.1)⟩
  · have hpure : (getNs3Address addr).run s = .ok (decide (addr.sa_family = AF_INET), s) := by
      simp [getNs3Address, h]
      rfl
    rw [fails_bind_of_run hpure]
    exact ⟨fun hf => ⟨not_lt.mp h, hf⟩, fun hf => hf.2⟩

theorem handleOnKernelFd_robust (fd : Fd) : Robust (handleOnKernelFd fd) :=
  Never.get.bind fun _ => Never.ite (fun _ => Never.throw (by decide)) fun _ =>
    handleSyscallAfter_robust

theorem handleRead_robust (fd : Fd) (buf : Ptr) (count : ℕ) : Robust (handleRead fd buf count) := by
  intro s
  unfold handleRead
  simp only [fails_get_bind, fails_ite]
  rintro (⟨-, h⟩ | ⟨-, ⟨-, ⟨-, h⟩ | ⟨-, h⟩⟩ | ⟨-, ⟨hfd, h⟩ | ⟨-, h⟩⟩⟩)
  · exact handleSyscallAfter_robust s h
  · exact (memcpyToTracee_robust _ _ _).bind (fun _ => fake_robust) s h
  · exact fake_robust s h
  · rw [breaks_socketsAt] at h
    rcases h with hnone | ⟨sock, -, h⟩
    · simp [hnone] at hfd
    · have hrest : Robust (if s.d.rxAvailable sock ≠ 0 then do
            readCallback s.c.task buf count sock
            return .manual
          else if fd ∈ s.d.fds.nonblockingSockets then fake (-EWOULDBLOCK) .failure
          else do
            modifyCtl (·.setRecvCallback sock (some (.read s.c.task buf count)))
            return .delayed) :=
        Never.ite (fun _ => (readCallback_robust _ _ _ _).bind fun _ => Never.pure _) fun _ =>
          Never.ite (fun _ => fake_robust) fun _ => (modifyCtl_robust _).bind fun _ => Never.pure _
      exact hrest s h
  · exact Never.throw (by decide) s h

theorem handlePipe2_robust (pipefd : Fd × Fd) : Robust (handlePipe2 pipefd) :=
  Never.get.bind fun _ => Never.ite (fun _ => unsupported_robust) fun _ => handleSyscallAfter_robust

theorem handleGetRUsage_robust (r_usage : Ptr) : Robust (handleGetRUsage r_usage) :=
  Never.get.bind fun _ => (memcpyToTracee_robust _ _ _).bind fun _ => fake_robust

theorem handleClose_robust (fd : Fd) : Robust (handleClose fd) := by
  unfold handleClose
  refine Never.get.bind fun s => Never.ite (fun _ => handleSyscallAfter_robust) fun _ => ?_
  cases s.d.fds.sockets.find fd with
  | some sock =>
      refine ask_robust.bind fun _ => (modifyFds_robust _).bind fun _ => ?_
      exact (schedule_robust _ _).bind fun _ => fake_robust
  | none =>
      refine Never.ite (fun _ => (modifyFds_robust _).bind fun _ => fake_robust) fun _ => ?_
      refine Never.ite (fun _ => (modifyFds_robust _).bind fun _ => fake_robust) fun _ => ?_
      exact Never.throw (by decide)

theorem handleFcntl_robust (fd : Fd) (cmd flags : ℤ) : Robust (handleFcntl fd cmd flags) := by
  unfold handleFcntl
  refine Never.get.bind fun s => Never.ite (fun _ => handleSyscallAfter_robust) fun _ => ?_
  refine Never.ite (fun _ => fake_robust) fun _ => Never.ite (fun _ => fake_robust) fun _ => ?_
  refine Never.ite (fun _ => ?_) fun _ => Never.pure _
  exact Never.ite (fun _ => (modifyFds_robust _).bind fun _ => fake_robust) fun _ => fake_robust

theorem handleTime_robust (tloc : Ptr) : Robust (handleTime tloc) :=
  Never.get.bind fun _ => (storeToTracee_robust _ _ _).bind fun _ => fake_robust

theorem handleGetTimeOfDay_robust (tv tz : Ptr) : Robust (handleGetTimeOfDay tv tz) :=
  Never.get.bind fun _ => Never.ite (fun _ => Never.throw (by decide)) fun _ =>
    (storeToTracee_robust _ _ _).bind fun _ => fake_robust

theorem handleClockGetTime_robust (clk_id : ℤ) (tp : Ptr) : Robust (handleClockGetTime clk_id tp) :=
  Never.get.bind fun _ => Never.ite (fun _ => fake_robust) fun _ =>
    (storeToTracee_robust _ _ _).bind fun _ => Never.pure _

theorem handleClockGetRes_robust (clk_id : ℤ) (res : Ptr) : Robust (handleClockGetRes clk_id res) :=
  Never.get.bind fun _ => Never.ite (fun _ => fake_robust) fun _ =>
    (storeToTracee_robust _ _ _).bind fun _ => Never.pure _

theorem handlePoll_robust (fds : List PollFd) (timeout : ℤ) : Robust (handlePoll fds timeout) :=
  Never.get.bind fun _ => Never.ite (fun _ => Never.pure _) fun _ => handleSyscallAfter_robust

theorem handleGetRandom_robust (buf : Ptr) (buflen flags : ℕ) :
    Robust (handleGetRandom buf buflen flags) := by
  unfold handleGetRandom
  refine Never.ite (fun _ => Never.pure _) fun _ => ?_
  refine Never.ite (fun _ => Never.get.bind fun s => ?_) fun _ => fake_robust
  exact (memcpyToTracee_robust _ _ _).bind fun _ => fake_robust

theorem handleClone_robust : Robust handleClone := by
  unfold handleClone handleSyscallAfterClone
  refine Never.get.bind fun s => (modifyCtl_robust _).bind fun _ => ?_
  refine (waitForSyscall_robust _ _).bind fun b => Never.ite (fun _ => Never.pure _) fun _ => ?_
  refine Never.get.bind fun s₁ => ?_
  dsimp only
  cases s₁.c.threads s.c.pid with
  | none => exact Never.throw (by decide)
  | some th =>
      refine when_robust (Never.throw (by decide)) ?_
      exact (modifyCtl_robust _).bind fun _ => Never.pure _

theorem handleFutex_robust (args : FutexArgs) : Robust (handleFutex args) :=
  Never.ite (fun _ => fake_robust) fun _ => handleSyscallAfter_robust

theorem replyAddress_robust (out : SockaddrOut) : Robust (replyAddress out) :=
  ask_robust.bind fun _ => (setBsdAddress_robust _ _).bind fun _ => fake_robust

theorem handleGetSockName_robust (sockfd : Fd) (out : SockaddrOut) :
    Robust (handleGetSockName sockfd out) := by
  unfold handleGetSockName
  refine Never.get.bind fun s => ?_
  dsimp only
  cases s.d.fds.netlinks.find sockfd with
  | some nl => exact nlHandleGetSockName_robust out
  | none => exact Never.ite (fun _ => replyAddress_robust out) fun _ => unsupported_robust

theorem ns3Connect_robust (cl : ConnectCallback) (sock : SockId) : Robust (ns3Connect cl sock) := by
  unfold ns3Connect
  refine ask_robust.bind fun a => Never.ite (fun _ => Never.pure _) fun _ => Never.get.bind fun s => ?_
  exact Never.ite (fun _ => modifyCtl_robust _) fun _ => connectSucceeded_robust cl

theorem handleConnect_robust (sockfd : Fd) (addr : Sockaddr) :
    Robust (handleConnect sockfd addr) := by
  intro s
  unfold handleConnect
  simp only [fails_get_bind, fails_ite, breaks_getNs3Address, breaks_socketsAt]
  rintro (⟨-, h⟩ | ⟨hfd, -, ⟨-, h⟩ | ⟨-, hnone | ⟨sock, -, h⟩⟩⟩)
  · exact fake_robust s h
  · exact Never.pure _ s h
  · exact hfd (by rw [hnone]; rfl)
  · exact (modifyCtl_robust _).bind (fun _ => (ns3Connect_robust _ _).bind fun _ => Never.pure _) s h

theorem handleRecvFrom_robust (sockfd : Fd) (buffer : Ptr) (length : ℕ) (flags : ℤ)
    (out : SockaddrOut) : Robust (handleRecvFrom sockfd buffer length flags out) := by
  unfold handleRecvFrom
  refine Never.get.bind fun s => ?_
  cases s.d.fds.sockets.find sockfd with
  | none => exact Never.pure _
  | some sock =>
      refine Never.ite (fun _ => ?_) fun _ => Never.ite (fun _ => fake_robust) fun _ => ?_
      · exact (recvfromCallback_robust _ _ _ _ _).bind fun _ => Never.pure _
      · exact (modifyCtl_robust _).bind fun _ => Never.pure _

theorem handleRecvMsg_robust (sockfd : Fd) (iov_base : Ptr) (iov_len : ℕ) :
    Robust (handleRecvMsg sockfd iov_base iov_len) := by
  unfold handleRecvMsg
  refine Never.get.bind fun s => ?_
  cases s.d.fds.netlinks.find sockfd with
  | some nl => exact nlHandleRecvMsg_robust iov_base iov_len
  | none => exact Never.throw (by decide)

theorem handleSendMsg_robust (sockfd : Fd) (msg_iov : List Iovec) :
    Robust (handleSendMsg sockfd msg_iov) := by
  unfold handleSendMsg
  refine Never.get.bind fun s => ?_
  cases s.d.fds.netlinks.find sockfd with
  | some nl => exact nlHandleSendMsg_robust msg_iov
  | none => exact Never.throw (by decide)

theorem handleNanoSleep_robust (req : Timespec) : Robust (handleNanoSleep req) :=
  Never.get.bind fun _ => (schedule_robust _ _).bind fun _ => Never.pure _

theorem handleBind_robust (sockfd : Fd) (addr : Sockaddr) : Robust (handleBind sockfd addr) := by
  unfold handleBind
  refine Never.get.bind fun s => ?_
  dsimp only
  cases s.d.fds.sockets.find sockfd with
  | some sock =>
      refine (getNs3Address_robust addr).bind fun b => Never.ite (fun _ => Never.pure _) fun _ => ?_
      exact ask_robust.bind fun _ => fake_robust
  | none =>
      dsimp only
      cases s.d.fds.netlinks.find sockfd with
      | some nl => exact nlHandleBind_robust addr
      | none => exact Never.pure _

theorem handleSelect_robust (args : SelectArgs) : Robust (handleSelect args) := by
  unfold handleSelect
  refine Never.get.bind fun s => (modifyData_robust _).bind fun _ => ?_
  cases selectMayBlock args s.d with
  | none => exact Never.pure _
  | some mayBlock =>
      dsimp only
      cases selectPass args s.d s.c.task ⟨mayBlock, false, ∅, ∅, 0, s.c⟩ with
      | none => exact Never.pure _
      | some v =>
          refine (modifyCtl_robust _).bind fun _ => Never.ite (fun _ => ?_) fun _ => ?_
          · unfold selectBlock
            cases args.timeout with
            | none => exact Never.pure _
            | some t => exact (schedule_robust _ _).bind fun _ => Never.pure _
          · unfold selectAnswer
            refine Never.get.bind fun s₁ => when_robust (modifyCtl_robust _) ?_
            refine (storeFdSets_robust _ _ _ _ _).bind fun _ => ?_
            exact when_robust (memcpyToTracee_robust _ _ _) fake_robust

/-! ### Handlers that can fail -/

/-- The descriptor that the handler of a call looks up in `m_sockets` without having checked that
it is there. -/
def unguarded (f : Fds) : Syscall → Option Fd
  | .write fd _ _ => if f.isEmulated fd ∧ fd ∈ f.connectedSockets then some fd else none
  | .getpeername sockfd _ => if sockfd ∈ f.tcpSockets then some sockfd else none
  | .listen sockfd _ =>
      if sockfd ∈ f.tcpSockets ∧ sockfd ∉ f.isListenTcpSocket then some sockfd else none
  | .getsockopt sockfd level optname optval _ =>
      if f.isEmulated sockfd ∧ optval ≠ 0 ∧
        (level = SOL_SOCKET ∧ (optname = SO_SNDBUF ∨ optname = SO_RCVBUF ∨ optname = SO_BROADCAST) ∨
          level = IPPROTO_TCP ∧ optname = TCP_MAXSEG) then some sockfd
      else none
  | .setsockopt sockfd level optname optlen =>
      if f.isEmulated sockfd ∧ level = SOL_SOCKET ∧ optname = SO_BROADCAST ∧ optlen ≤ 4 then
        some sockfd
      else none
  | .accept sockfd _ =>
      if f.isEmulated sockfd ∧ sockfd ∈ f.isListenTcpSocket ∧
        f.fakeAcceptedSockets.find sockfd = none ∧ sockfd ∉ f.nonblockingSockets then some sockfd
      else none
  | _ => none

/-- The descriptor whose socket is cast to `TcpSocket`. -/
def tcpCast (f : Fds) : Syscall → Option Fd
  | .getsockopt sockfd level optname optval _ =>
      if f.isEmulated sockfd ∧ optval ≠ 0 ∧
        (level = SOL_SOCKET ∧ optname = SO_RCVBUF ∨ level = IPPROTO_TCP ∧ optname = TCP_MAXSEG) then
        some sockfd
      else none
  | _ => none

/-- The handler of the call takes a new descriptor. -/
def allocates (f : Fds) : Syscall → Bool
  | .open pathname => isRandomDevice (pathname.take 256)
  | .openat _ pathname => isRandomDevice (pathname.take 256)
  | .socket domain type protocol =>
      decide (domain = AF_INET ∧ (type = SOCK_DGRAM ∨ type = SOCK_STREAM) ∨
        domain = AF_NETLINK ∧ (type = SOCK_RAW ∨ type = SOCK_DGRAM) ∧ protocol = NETLINK_ROUTE)
  | .accept sockfd _ => f.isEmulated sockfd && decide (sockfd ∈ f.isListenTcpSocket) &&
      (f.fakeAcceptedSockets.find sockfd).isSome
  | _ => false

/-- `GetNetDeviceByName` finds no device of the class. -/
def NoDevice (devices : List NetDevice) (name : List Char) : Prop :=
  nameStartsWith ['w', 'l', 'a', 'n'] name = true ∧ (∀ dev ∈ devices, dev.type ≠ .wifi) ∨
    nameStartsWith ['e', 't', 'h'] name = true ∧ ∀ dev ∈ devices, dev.type ≠ .pointToPoint

/-- The requests that look up a device. -/
def deviceRequests : List ℕ :=
  [SIOCGIFFLAGS, SIOCGIWNAME, SIOCGIFADDR, SIOCGIFBRDADDR, SIOCGIFNETMASK, SIOCGIFMTU]

/-- The calls whose handlers fail inside the emulator. -/
inductive Breaks (app : App) (d : Data) : Syscall → Prop
  | notInSockets {call : Syscall} {fd : Fd} : unguarded d.fds call = some fd →
      d.fds.sockets.find fd = none → Breaks app d call
  | notTcp {call : Syscall} {fd : Fd} {sock : SockId} : tcpCast d.fds call = some fd →
      d.fds.sockets.find fd = some sock → d.isTcp sock = false → Breaks app d call
  | badAddress {fd : Fd} {sock : SockId} {buf : Iovec} {flags : ℤ} {addr : Sockaddr} :
      d.fds.sockets.find fd = some sock → flags = 0 ∨ flags = MSG_DONTROUTE →
      addr.addrlen ≤ 16 → addr.sa_family ≠ AF_INET → Breaks app d (.sendto fd buf flags (some addr))
  | noDevice {fd : Fd} {request : ℕ} {ifr : Ifreq} : d.fds.isEmulated fd = true →
      request ∈ deviceRequests → NoDevice app.devices ifr.ifr_name →
      Breaks app d (.ioctl fd request (some ifr))
  | outOfFds {call : Syscall} : allocates d.fds call = true → d.fds.nextFD = none →
      Breaks app d call

/-- The calls other than `sendto` and `ioctl`. -/
theorem breaks_iff {app : App} {d : Data} {call : Syscall}
    (hs : ∀ fd buf flags addr, call ≠ .sendto fd buf flags (some addr))
    (hi : ∀ fd request ifr, call ≠ .ioctl fd request (some ifr)) :
    Breaks app d call ↔
      (∃ fd, unguarded d.fds call = some fd ∧ d.fds.sockets.find fd = none) ∨
      (∃ fd, tcpCast d.fds call = some fd ∧
        ∃ sock, d.fds.sockets.find fd = some sock ∧ d.isTcp sock = false) ∨
      allocates d.fds call = true ∧ d.fds.nextFD = none := by
  constructor
  · intro h
    cases h with
    | notInSockets hfd hnone => exact .inl ⟨_, hfd, hnone⟩
    | notTcp hfd hsock htcp => exact .inr (.inl ⟨_, hfd, _, hsock, htcp⟩)
    | badAddress => exact absurd rfl (hs _ _ _ _)
    | noDevice => exact absurd rfl (hi _ _ _)
    | outOfFds hall hnext => exact .inr (.inr ⟨hall, hnext⟩)
  · rintro (⟨fd, hfd, hnone⟩ | ⟨fd, hfd, sock, hsock, htcp⟩ | ⟨hall, hnext⟩)
    · exact .notInSockets hfd hnone
    · exact .notTcp hfd hsock htcp
    · exact .outOfFds hall hnext

/-- A call that takes no part in any of this. -/
theorem breaks_of_robust {call : Syscall} {m : M SyscallHandlerStatusCode} (h : Robust m)
    (hu : unguarded s.d.fds call = none) (ht : tcpCast s.d.fds call = none)
    (ha : allocates s.d.fds call = false)
    (hs : ∀ fd buf flags addr, call ≠ .sendto fd buf flags (some addr))
    (hi : ∀ fd request ifr, call ≠ .ioctl fd request (some ifr)) :
    Fails Crash.IsInner m s ↔ Breaks s.c.app s.d call := by
  refine iff_of_false (h s) ?_
  rw [breaks_iff hs hi, hu, ht, ha]
  simp

/-- A call whose only danger is the lookup of its descriptor. -/
theorem breaks_of_unguarded {call : Syscall} {m : M SyscallHandlerStatusCode} {fd : Fd} {c : Prop}
    [Decidable c] (h : Fails Crash.IsInner m s ↔ c ∧ s.d.fds.sockets.find fd = none)
    (hu : unguarded s.d.fds call = if c then some fd else none) (ht : tcpCast s.d.fds call = none)
    (ha : allocates s.d.fds call = false)
    (hs : ∀ fd buf flags addr, call ≠ .sendto fd buf flags (some addr))
    (hi : ∀ fd request ifr, call ≠ .ioctl fd request (some ifr)) :
    Fails Crash.IsInner m s ↔ Breaks s.c.app s.d call := by
  rw [h, breaks_iff hs hi, hu, ht, ha]
  by_cases hc : c <;> simp [hc]

/-- A call whose only danger is that it takes a new descriptor. -/
theorem breaks_of_allocates {call : Syscall} {m : M SyscallHandlerStatusCode}
    (h : Fails Crash.IsInner m s ↔ allocates s.d.fds call = true ∧ s.d.fds.nextFD = none)
    (hu : unguarded s.d.fds call = none) (ht : tcpCast s.d.fds call = none)
    (hs : ∀ fd buf flags addr, call ≠ .sendto fd buf flags (some addr))
    (hi : ∀ fd request ifr, call ≠ .ioctl fd request (some ifr)) :
    Fails Crash.IsInner m s ↔ Breaks s.c.app s.d call := by
  rw [h, breaks_iff hs hi, hu, ht]
  simp

theorem breaks_getNextFD {α : Type} {f : Fd → M α} (hf : ∀ fd, Robust (f fd)) :
    Fails Crash.IsInner (getNextFD >>= f) s ↔ s.d.fds.nextFD = none := by
  rw [fails_bind_never hf]
  unfold getNextFD
  rw [fails_get_bind]
  cases s.d.fds.nextFD with
  | none => simp [show Crash.outOfFds.IsInner by decide]
  | some fd =>
      refine iff_of_false (fun h => ?_) (by simp)
      exact (modifyFds_robust _).bind (fun _ => Never.pure _) s h

theorem handleOpen_breaks (pathname : List Char) : Fails Crash.IsInner (handleOpen pathname) s ↔
    isRandomDevice (pathname.take 256) = true ∧ s.d.fds.nextFD = none := by
  unfold handleOpen
  rw [fails_ite, breaks_getNextFD fun fd => (modifyFds_robust _).bind fun _ => fake_robust]
  exact or_iff_left fun h => handleSyscallAfter_robust s h.2

theorem breaks_socketsAt_robust {fd : Fd} {α : Type} {f : SockId → M α} (hf : ∀ sock, Robust (f sock)) :
    Fails Crash.IsInner (socketsAt fd >>= f) s ↔ s.d.fds.sockets.find fd = none := by
  rw [breaks_socketsAt]
  refine or_iff_left ?_
  rintro ⟨sock, -, h⟩
  exact hf sock s h

theorem handleWrite_breaks (fd : Fd) (buf : Ptr) (count : ℕ) :
    Fails Crash.IsInner (handleWrite fd buf count) s ↔
      (s.d.fds.isEmulated fd = true ∧ fd ∈ s.d.fds.connectedSockets) ∧
        s.d.fds.sockets.find fd = none := by
  unfold handleWrite
  simp only [fails_get_bind, fails_ite]
  rw [breaks_socketsAt_robust]
  · constructor
    · rintro (⟨-, h⟩ | ⟨-, ⟨-, h⟩ | ⟨hemu, ⟨-, h⟩ | ⟨hconn, hnone⟩⟩⟩)
      · exact absurd h (handleSyscallAfter_robust s)
      · refine absurd h ?_
        rintro (⟨-, h⟩ | ⟨-, h⟩)
        · exact (Never.throw (by decide)).bind (fun _ => (setOrigRax_robust _).bind fun _ =>
            fake_robust) s h
        · exact (setOrigRax_robust _).bind (fun _ => fake_robust) s h
      · exact absurd h (unsupported_robust s)
      · exact ⟨⟨by simpa using hemu, not_not.mp hconn⟩, hnone⟩
    · rintro ⟨⟨hemu, hconn⟩, hnone⟩
      exact .inr ⟨by simp [hemu], .inr ⟨by simp [hemu], .inr ⟨not_not.mpr hconn, hnone⟩⟩⟩
  · intro sock
    refine Never.ite (fun _ => Never.ite (fun _ => fake_robust) fun _ => ?_) fun _ => ?_
    · exact (modifyCtl_robust _).bind fun _ => Never.pure _
    · refine (ns3Send_robust sock).bind fun ret => fake_robust.bind fun res => ?_
      exact Never.ite (fun _ => Never.pure _) fun _ =>
        Never.ite (fun _ => Never.pure _) fun _ => Never.pure _

theorem handleGetPeerName_breaks (sockfd : Fd) (out : SockaddrOut) :
    Fails Crash.IsInner (handleGetPeerName sockfd out) s ↔
      sockfd ∈ s.d.fds.tcpSockets ∧ s.d.fds.sockets.find sockfd = none := by
  unfold handleGetPeerName
  simp only [fails_get_bind, fails_ite, fails_throw_bind]
  rw [breaks_socketsAt_robust fun _ => replyAddress_robust out, not_not]
  exact or_iff_right fun h => absurd h.2 (by decide)

theorem handleListen_breaks (sockfd : Fd) (backlog : ℤ) :
    Fails Crash.IsInner (handleListen sockfd backlog) s ↔
      (sockfd ∈ s.d.fds.tcpSockets ∧ sockfd ∉ s.d.fds.isListenTcpSocket) ∧
        s.d.fds.sockets.find sockfd = none := by
  unfold handleListen
  simp only [fails_get_bind, fails_ite]
  rw [breaks_socketsAt_robust, not_not]
  · constructor
    · rintro (⟨-, h⟩ | ⟨htcp, ⟨-, h⟩ | ⟨hlisten, hnone⟩⟩)
      · exact absurd h (fake_robust s)
      · exact absurd h (fake_robust s)
      · exact ⟨⟨htcp, hlisten⟩, hnone⟩
    · rintro ⟨⟨htcp, hlisten⟩, hnone⟩
      exact .inr ⟨htcp, .inr ⟨hlisten, hnone⟩⟩
  · intro sock
    refine (ns3Listen_robust sock).bind fun ret => (modifyFds_robust _).bind fun _ => ?_
    refine fake_robust.bind fun res => Never.ite (fun _ => Never.pure _) fun _ => ?_
    exact Never.ite (fun _ => Never.pure _) fun _ => (modifyCtl_robust _).bind fun _ => Never.pure _

theorem getSockOptValue_robust (optval optlen : Ptr) : Robust (getSockOptValue optval optlen) := by
  unfold getSockOptValue
  refine Never.get.bind fun s => ask_robust.bind fun a => ?_
  exact (memcpyToTracee_robust _ _ _).bind fun _ => (memcpyToTracee_robust _ _ _).bind fun _ =>
    fake_robust

theorem breaks_tcpSocketAt {fd : Fd} {α : Type} {f : SockId → M α} (hf : ∀ sock, Robust (f sock)) :
    Fails Crash.IsInner (tcpSocketAt fd >>= f) s ↔ s.d.fds.sockets.find fd = none ∨
      ∃ sock, s.d.fds.sockets.find fd = some sock ∧ s.d.isTcp sock = false := by
  rw [fails_bind_never hf]
  unfold tcpSocketAt
  rw [breaks_socketsAt]
  simp only [fails_get_bind, fails_ite, fails_throw]
  refine or_congr_right (exists_congr fun sock => and_congr_right fun _ => ?_)
  have hinner : Crash.nullPtr.IsInner := by decide
  have hpure : ¬ Fails Crash.IsInner (pure sock : M SockId) s := fails_pure sock s
  simp [hinner, hpure]

/-- What the descriptor of `getsockopt` and the options that are read make fail. -/
theorem handleGetSockOpt_breaks (sockfd : Fd) (level optname : ℤ) (optval optlen : Ptr) :
    Fails Crash.IsInner (handleGetSockOpt sockfd level optname optval optlen) s ↔
      s.d.fds.isEmulated sockfd = true ∧ optval ≠ 0 ∧
        ((level = SOL_SOCKET ∧ (optname = SO_SNDBUF ∨ optname = SO_RCVBUF ∨ optname = SO_BROADCAST) ∨
          level = IPPROTO_TCP ∧ optname = TCP_MAXSEG) ∧ s.d.fds.sockets.find sockfd = none ∨
        (level = SOL_SOCKET ∧ optname = SO_RCVBUF ∨ level = IPPROTO_TCP ∧ optname = TCP_MAXSEG) ∧
          ∃ sock, s.d.fds.sockets.find sockfd = some sock ∧ s.d.isTcp sock = false) := by
  have hval : ∀ _ : SockId, Robust (getSockOptValue optval optlen) := fun _ =>
    getSockOptValue_robust optval optlen
  have hcongestion : ¬ Fails Crash.IsInner (do
      memcpyToTracee s.c.pid optval (.bytes 5)
      memcpyToTracee s.c.pid optlen (.int 5)
      fake 0 .success) s :=
    (memcpyToTracee_robust _ _ _).bind (fun _ => (memcpyToTracee_robust _ _ _).bind fun _ =>
      fake_robust) s
  have hfake : ∀ v res, ¬ Fails Crash.IsInner (fake v res) s := fun v res => fake_robust s
  have hassert : ¬ Crash.assert.IsInner := by decide
  unfold handleGetSockOpt
  simp only [fails_get_bind, fails_ite, fails_throw, breaks_socketsAt_robust hval,
    breaks_tcpSocketAt hval, hcongestion, hfake, hassert, handleSyscallAfter_robust s,
    unsupported_robust s, and_false, or_false, false_or, Bool.not_eq_true', Bool.not_eq_false]
  refine and_congr_right fun _ => and_congr_right fun _ => ?_
  -- the branches exclude each other
  have h₁ : SO_SNDBUF ≠ SO_RCVBUF ∧ SO_SNDBUF ≠ SO_BROADCAST ∧ SO_RCVBUF ≠ SO_BROADCAST := by decide
  have h₂ : IPPROTO_TCP ≠ SOL_SOCKET ∧ IPPROTO_TCP ≠ IPPROTO_IP := by decide
  grind

theorem handleSetSockOpt_breaks (sockfd : Fd) (level optname : ℤ) (optlen : ℕ) :
    Fails Crash.IsInner (handleSetSockOpt sockfd level optname optlen) s ↔
      (s.d.fds.isEmulated sockfd = true ∧ level = SOL_SOCKET ∧ optname = SO_BROADCAST ∧ optlen ≤ 4) ∧
        s.d.fds.sockets.find sockfd = none := by
  have hrest : ∀ _ : SockId, Robust (do
      let _ ← ask
      fake 0 .success) := fun _ => ask_robust.bind fun _ => fake_robust
  have hfake : ∀ v res, ¬ Fails Crash.IsInner (fake v res) s := fun v res => fake_robust s
  have hassert : ¬ Crash.assert.IsInner := by decide
  unfold handleSetSockOpt
  simp only [fails_get_bind, fails_ite, fails_throw, breaks_socketsAt_robust hrest, hfake, hassert,
    handleSyscallAfter_robust s, unsupported_robust s, and_false, or_false, false_or,
    Bool.not_eq_true', Bool.not_eq_false, not_lt]
  simp only [and_assoc]

theorem run_memcpyToTracee {p : Pid} {th : Tracee} (h : s.c.threads p = some th) (dst : Ptr)
    (val : Val) : (memcpyToTracee p dst val).run s =
      .ok ((), { s with d := s.d.setStores ((p, dst, val) :: s.d.stores) }) := by
  simp only [memcpyToTracee, StateT.run_bind, StateT.run_get, pure_bind, h]
  rfl

/-- `setBsdAddress` succeeds if the thread that is handled exists. -/
theorem run_setBsdAddress {addr : Option (ℕ × ℕ)} {out : SockaddrOut}
    (h : out.addr = 0 ∨ addr = none ∨ (s.c.threads s.c.pid).isSome = true) :
    ∃ b s', (setBsdAddress addr out).run s = .ok (b, s') ∧ s'.d.fds = s.d.fds := by
  unfold setBsdAddress
  by_cases h0 : out.addr = 0
  · rw [if_pos h0]
    exact ⟨_, _, rfl, rfl⟩
  · rw [if_neg h0]
    rcases h with h | rfl | h
    · exact absurd h h0
    · exact ⟨_, _, rfl, rfl⟩
    · obtain ⟨th, hth⟩ := Option.isSome_iff_exists.mp h
      cases addr with
      | none => exact ⟨_, _, rfl, rfl⟩
      | some a =>
          obtain ⟨ip, port⟩ := a
          let s₁ : St := { s with
            d := s.d.setStores ((s.c.pid, out.addr, .sockaddrIn ip port (min out.len 16)) ::
              s.d.stores) }
          have hfirst : (memcpyToTracee s.c.pid out.addr (.sockaddrIn ip port (min out.len 16))).run s =
              .ok ((), s₁) := run_memcpyToTracee hth _ _
          have hsecond := run_memcpyToTracee (s := s₁) hth out.addrlen (.int 16)
          refine ⟨true, ⟨s₁.c, s₁.d.setStores ((s.c.pid, out.addrlen, .int 16) :: s₁.d.stores)⟩, ?_, rfl⟩
          simp only [StateT.run_bind, StateT.run_get, pure_bind, hfirst]
          show ((memcpyToTracee s.c.pid out.addrlen (.int 16)).run s₁ >>= fun p => _) = _
          rw [hsecond]
          rfl

theorem handleAccept_breaks (sockfd : Fd) (out : SockaddrOut)
    (hth : (s.c.threads s.c.pid).isSome = true) :
    Fails Crash.IsInner (handleAccept sockfd out) s ↔
      (s.d.fds.isEmulated sockfd = true ∧ sockfd ∈ s.d.fds.isListenTcpSocket) ∧
        ((s.d.fds.fakeAcceptedSockets.find sockfd).isSome = true ∧ s.d.fds.nextFD = none ∨
          s.d.fds.fakeAcceptedSockets.find sockfd = none ∧ sockfd ∉ s.d.fds.nonblockingSockets ∧
            s.d.fds.sockets.find sockfd = none) := by
  unfold handleAccept
  simp only [fails_get_bind, fails_ite, fails_throw_bind]
  rw [or_iff_right fun h => absurd h.2 (by decide)]
  have hguard : (¬ (!(s.d.fds.isEmulated sockfd &&
      decide (sockfd ∈ s.d.fds.isListenTcpSocket))) = true) ↔
      s.d.fds.isEmulated sockfd = true ∧ sockfd ∈ s.d.fds.isListenTcpSocket := by simp
  rw [hguard]
  refine and_congr_right fun _ => ?_
  rcases hconn : s.d.fds.fakeAcceptedSockets.find sockfd with _ | ⟨conn, addr⟩
  · have hwait : ∀ sock, Robust (do
        modifyCtl (·.setAcceptCallback sock (some (.accept s.c.task sockfd out)))
        return SyscallHandlerStatusCode.delayed) := fun sock => (modifyCtl_robust _).bind fun _ => Never.pure _
    have hfake : ∀ v res, ¬ Fails Crash.IsInner (fake v res) s := fun v res => fake_robust s
    simp only [fails_ite, hfake, breaks_socketsAt_robust hwait, and_false, false_or,
      Option.isSome_none, Bool.false_eq_true, false_and, true_and]
  · have hrest : ∀ fd, Robust (do
        modifyFds (·.addAccepted fd conn)
        let res ← fake fd .success
        noteReturned (s.d.fds.sockets.find sockfd) conn
        return res) := fun fd => (modifyFds_robust _).bind fun _ => fake_robust.bind fun _ =>
      (noteReturned_robust _ _).bind fun _ => Never.pure _
    let s₁ : St := { s with d := s.d.withFds (s.d.fds.eraseFakeAccepted sockfd) }
    obtain ⟨b, s₂, hrun, hfds⟩ := @run_setBsdAddress s₁ addr out (.inr (.inr hth))
    have herase : (modifyFds (·.eraseFakeAccepted sockfd) : M Unit).run s = .ok ((), s₁) := rfl
    show Fails Crash.IsInner (modifyFds (·.eraseFakeAccepted sockfd) >>= fun _ => _) s ↔ _
    rw [fails_bind_of_run herase, fails_bind_of_run hrun, breaks_getNextFD hrest, hfds]
    have hnext : s₁.d.fds.nextFD = s.d.fds.nextFD := rfl
    rw [hnext]
    simp

theorem handleSendTo_breaks (sockfd : Fd) (buf : Iovec) (flags : ℤ) (dest_addr : Option Sockaddr) :
    Fails Crash.IsInner (handleSendTo sockfd buf flags dest_addr) s ↔
      ∃ sock addr, dest_addr = some addr ∧ s.d.fds.sockets.find sockfd = some sock ∧
        (flags = 0 ∨ flags = MSG_DONTROUTE) ∧ addr.addrlen ≤ 16 ∧ addr.sa_family ≠ AF_INET := by
  unfold handleSendTo
  rw [fails_get_bind]
  dsimp only
  cases hsock : s.d.fds.sockets.find sockfd with
  | none =>
      refine iff_of_false ?_ (by simp)
      cases s.d.fds.netlinks.find sockfd with
      | some nl => exact nlHandleSendTo_robust buf flags s
      | none => exact Never.pure _ s
  | some sock =>
      have hsend : Robust (do
          let ret ← ns3Send sock
          fake ret .success) := (ns3Send_robust sock).bind fun _ => fake_robust
      have hpure : ¬ Fails Crash.IsInner (pure .error : M SyscallHandlerStatusCode) s := fails_pure _ s
      have hnull : Crash.nullPtr.IsInner := by decide
      cases dest_addr with
      | none =>
          refine iff_of_false ?_ (by simp)
          exact Never.ite (fun _ => Never.pure _) (fun _ => hsend) s
      | some addr =>
          simp only [fails_ite, breaks_getNs3Address, fails_throw_bind, hpure, hnull, hsend s]
          simp
          tauto

theorem run_createSocket (tcp : Bool) :
    ∃ sock s', (createSocket tcp).run s = .ok (sock, s') ∧ s'.d.fds = s.d.fds :=
  ⟨_, _, rfl, rfl⟩

theorem handleSocket_breaks (domain type protocol : ℤ) :
    Fails Crash.IsInner (handleSocket domain type protocol) s ↔
      (domain = AF_INET ∧ (type = SOCK_DGRAM ∨ type = SOCK_STREAM) ∨
        domain = AF_NETLINK ∧ (type = SOCK_RAW ∨ type = SOCK_DGRAM) ∧ protocol = NETLINK_ROUTE) ∧
        s.d.fds.nextFD = none := by
  have hcreate : ∀ (tcp : Bool) (add : Fd → SockId → Fds → Fds), Fails Crash.IsInner (do
      let socket ← createSocket tcp
      let newSocketFd ← getNextFD
      modifyFds (add newSocketFd socket)
      fake newSocketFd .success) s ↔ s.d.fds.nextFD = none := by
    intro tcp add
    obtain ⟨sock, s', hrun, hfds⟩ := run_createSocket (s := s) tcp
    rw [fails_bind_of_run hrun, breaks_getNextFD fun fd => (modifyFds_robust _).bind fun _ =>
      fake_robust, hfds]
  have hnetlink : Fails Crash.IsInner (do
      let newSocketFd ← getNextFD
      modifyData (·.newNetlink s.c.pid (s.c.env.heap s.d.nextNl))
      modifyFds (·.addNetlink newSocketFd s.d.nextNl)
      fake newSocketFd .success) s ↔ s.d.fds.nextFD = none :=
    breaks_getNextFD fun fd => (modifyData_robust _).bind fun _ => (modifyFds_robust _).bind fun _ =>
      fake_robust
  have hfake : ∀ v res, ¬ Fails Crash.IsInner (fake v res) s := fun v res => fake_robust s
  unfold handleSocket
  simp only [fails_get_bind, fails_ite, hcreate false Fds.addSocket, hcreate true Fds.addTcpSocket,
    hnetlink, hfake, and_false, or_false, false_or]
  have hdomain : AF_NETLINK ≠ AF_INET := by decide
  have htype : SOCK_DGRAM ≠ SOCK_STREAM := by decide
  grind

theorem getWifiDeviceByName_breaks {devices : List NetDevice} {name : List Char} :
    (∃ e, getWifiDeviceByName devices name = .error e ∧ e.IsInner) ↔ NoDevice devices name := by
  have hinner : Crash.nullPtr.IsInner := by decide
  have hassert : ¬ Crash.assert.IsInner := by decide
  unfold getWifiDeviceByName NoDevice
  by_cases hw : nameStartsWith ['w', 'l', 'a', 'n'] name = true
  · have he : ¬ nameStartsWith ['e', 't', 'h'] name = true := by
      intro he
      rw [nameStartsWith, List.isPrefixOf_iff_prefix] at hw he
      obtain ⟨x, rfl⟩ := hw
      obtain ⟨y, hy⟩ := he
      simp at hy
    rw [if_pos hw]
    cases hf : devices.find? fun d => d.type = .wifi with
    | none =>
        have hnone : ∀ dev ∈ devices, dev.type ≠ .wifi := by simpa using hf
        exact iff_of_true ⟨_, rfl, hinner⟩ (.inl ⟨hw, hnone⟩)
    | some dev =>
        refine iff_of_false (by simp) ?_
        rintro (⟨-, h⟩ | ⟨h, -⟩)
        · exact h dev (List.mem_of_find?_eq_some hf) (of_decide_eq_true (List.find?_some hf :))
        · exact he h
  · rw [if_neg hw]
    by_cases he : nameStartsWith ['e', 't', 'h'] name = true
    · rw [if_pos he]
      cases hf : devices.find? fun d => d.type = .pointToPoint with
      | none =>
          have hnone : ∀ dev ∈ devices, dev.type ≠ .pointToPoint := by simpa using hf
          exact iff_of_true ⟨_, rfl, hinner⟩ (.inr ⟨he, hnone⟩)
      | some dev =>
          refine iff_of_false (by simp) ?_
          rintro (⟨h, -⟩ | ⟨-, h⟩)
          · exact hw h
          · exact h dev (List.mem_of_find?_eq_some hf) (of_decide_eq_true (List.find?_some hf :))
    · rw [if_neg he]
      refine iff_of_false ?_ (by rintro (⟨h, -⟩ | ⟨h, -⟩) <;> contradiction)
      rintro ⟨e, h, hE⟩
      cases h
      exact hassert hE

theorem withWifiDevice_breaks {ifreq : Option Ifreq} {noDevice : M SyscallHandlerStatusCode}
    {body : Ptr → NetDevice → M SyscallHandlerStatusCode} (hn : Robust noDevice)
    (hb : ∀ ifr wifi, Robust (body ifr wifi)) :
    Fails Crash.IsInner (withWifiDevice ifreq noDevice body) s ↔
      ∃ ifr, ifreq = some ifr ∧ NoDevice s.c.app.devices ifr.ifr_name := by
  unfold withWifiDevice
  cases ifreq with
  | none => exact iff_of_false (fake_robust s) (by simp)
  | some ifr =>
      rw [fails_get_bind]
      have hiff : (∃ ifr', some ifr = some ifr' ∧ NoDevice s.c.app.devices ifr'.ifr_name) ↔
          ∃ e, getWifiDeviceByName s.c.app.devices ifr.ifr_name = .error e ∧ e.IsInner := by
        rw [getWifiDeviceByName_breaks]
        simp
      rw [hiff]
      rcases getWifiDeviceByName s.c.app.devices ifr.ifr_name with e | _ | wifi
      · simp
      · exact iff_of_false (hn s) (by simp)
      · exact iff_of_false (hb _ _ s) (by simp)

theorem firstAddress_robust (wifi : NetDevice) : Robust (firstAddress wifi) := by
  unfold firstAddress
  cases wifi.addresses with
  | nil => exact Never.throw (by decide)
  | cons a as => exact Never.pure _

theorem handleIoctl_breaks (fd : Fd) (request : ℕ) (ifreq : Option Ifreq) :
    Fails Crash.IsInner (handleIoctl fd request ifreq) s ↔
      s.d.fds.isEmulated fd = true ∧ request ∈ deviceRequests ∧
        ∃ ifr, ifreq = some ifr ∧ NoDevice s.c.app.devices ifr.ifr_name := by
  have hstore : ∀ ifr val, Robust (do
      memcpyToTracee s.c.pid ifr val
      fake 0 .success) := fun ifr val => (memcpyToTracee_robust _ _ _).bind fun _ => fake_robust
  have haddr : ∀ (val : InterfaceAddress → Val) (ifr : Ptr) (wifi : NetDevice), Robust (do
      let iaddr ← firstAddress wifi
      memcpyToTracee s.c.pid ifr (val iaddr)
      fake 0 .success) := fun val ifr wifi => (firstAddress_robust wifi).bind fun _ => hstore _ _
  have hfake : ∀ v res, ¬ Fails Crash.IsInner (fake v res) s := fun v res => fake_robust s
  unfold handleIoctl
  simp only [fails_get_bind, fails_ite, hfake, handleSyscallAfter_robust s, unsupported_robust s,
    and_false, false_or, or_false]
  rw [withWifiDevice_breaks fake_robust fun ifr wifi => hstore ifr (.ifFlags wifi.isLinkUp
      wifi.isBroadcast wifi.isMulticast wifi.isPointToPoint),
    withWifiDevice_breaks (Never.pure _) fun ifr _ => hstore ifr .ifName,
    withWifiDevice_breaks fake_robust (haddr fun iaddr =>
      .ifAddr (if request = SIOCGIFADDR then iaddr.getLocal else iaddr.getBroadcast)),
    withWifiDevice_breaks fake_robust (haddr fun iaddr => .ifMask iaddr.getMask),
    withWifiDevice_breaks fake_robust fun ifr wifi => hstore ifr (.ifMtu wifi.getMtu)]
  have htty : request ∈ deviceRequests → request ≠ TCGETS := by
    rintro h rfl
    exact absurd h (by decide)
  have hmem : request ∈ deviceRequests ↔ request = SIOCGIFFLAGS ∨ request = SIOCGIWNAME ∨
      request = SIOCGIFADDR ∨ request = SIOCGIFBRDADDR ∨ request = SIOCGIFNETMASK ∨
      request = SIOCGIFMTU := by simp [deviceRequests]
  grind

/-! ### Every call -/

/-- A handler fails inside the emulator exactly if the call is one of `Breaks`. -/
theorem handle_breaks (hth : (s.c.threads s.c.pid).isSome = true) (call : Syscall) :
    Fails Crash.IsInner (handle call) s ↔ Breaks s.c.app s.d call := by
  unfold handle
  rw [fails_get_bind]
  cases call with
  | plain call => exact breaks_of_robust handleSyscallAfter_robust rfl rfl rfl nofun nofun
  | dup fd => exact breaks_of_robust (handleOnKernelFd_robust fd) rfl rfl rfl nofun nofun
  | stat arg => exact breaks_of_robust (handleOnKernelFd_robust arg) rfl rfl rfl nofun nofun
  | read fd buf count => exact breaks_of_robust (handleRead_robust _ _ _) rfl rfl rfl nofun nofun
  | «open» pathname =>
      exact breaks_of_allocates (handleOpen_breaks pathname) rfl rfl nofun nofun
  | openat dirfd pathname =>
      exact breaks_of_allocates (handleOpen_breaks pathname) rfl rfl nofun nofun
  | close fd => exact breaks_of_robust (handleClose_robust fd) rfl rfl rfl nofun nofun
  | pipe2 pipefd => exact breaks_of_robust (handlePipe2_robust pipefd) rfl rfl rfl nofun nofun
  | getpid => exact breaks_of_robust (Never.get.bind fun _ => fake_robust) rfl rfl rfl nofun nofun
  | ioctl fd request ifreq =>
      refine (handleIoctl_breaks fd request ifreq).trans ⟨?_, ?_⟩
      · rintro ⟨hemu, hreq, ifr, rfl, hdev⟩
        exact .noDevice hemu hreq hdev
      · intro h
        cases h with
        | noDevice hemu hreq hdev => exact ⟨hemu, hreq, _, rfl, hdev⟩
        | notInSockets h _ => cases h
        | notTcp h _ _ => cases h
        | outOfFds h _ => cases h
  | fcntl fd cmd flags => exact breaks_of_robust (handleFcntl_robust _ _ _) rfl rfl rfl nofun nofun
  | exitGroup => exact breaks_of_robust (Never.pure _) rfl rfl rfl nofun nofun
  | getsockname sockfd out =>
      exact breaks_of_robust (handleGetSockName_robust _ _) rfl rfl rfl nofun nofun
  | getpeername sockfd out =>
      exact breaks_of_unguarded (handleGetPeerName_breaks sockfd out) rfl rfl rfl nofun nofun
  | write fd buf count =>
      exact breaks_of_unguarded (handleWrite_breaks fd buf count) rfl rfl rfl nofun nofun
  | setsockopt sockfd level optname optlen =>
      exact breaks_of_unguarded (handleSetSockOpt_breaks sockfd level optname optlen) rfl rfl rfl nofun nofun
  | getsockopt sockfd level optname optval optlen =>
      refine (handleGetSockOpt_breaks sockfd level optname optval optlen).trans ?_
      refine Iff.trans ?_ (breaks_iff ?_ ?_).symm
      case refine_2 => exact nofun
      case refine_3 => exact nofun
      simp only [unguarded, tcpCast, allocates]
      grind
  | socket domain type protocol =>
      refine breaks_of_allocates ?_ rfl rfl nofun nofun
      rw [allocates, decide_eq_true_eq]
      exact handleSocket_breaks domain type protocol
  | connect sockfd addr =>
      exact breaks_of_robust (handleConnect_robust _ _) rfl rfl rfl nofun nofun
  | listen sockfd backlog =>
      exact breaks_of_unguarded (handleListen_breaks sockfd backlog) rfl rfl rfl nofun nofun
  | sendto sockfd buf flags dest_addr =>
      refine (handleSendTo_breaks sockfd buf flags dest_addr).trans ⟨?_, ?_⟩
      · rintro ⟨sock, addr, rfl, hsock, hflags, hlen, hfamily⟩
        exact .badAddress hsock hflags hlen hfamily
      · intro h
        cases h with
        | badAddress hsock hflags hlen hfamily => exact ⟨_, _, rfl, hsock, hflags, hlen, hfamily⟩
        | notInSockets h _ => cases h
        | notTcp h _ _ => cases h
        | outOfFds h _ => cases h
  | recvfrom sockfd buffer length flags out =>
      exact breaks_of_robust (handleRecvFrom_robust _ _ _ _ _) rfl rfl rfl nofun nofun
  | accept sockfd out =>
      refine (handleAccept_breaks sockfd out hth).trans ?_
      refine Iff.trans ?_ (breaks_iff ?_ ?_).symm
      case refine_2 => exact nofun
      case refine_3 => exact nofun
      simp only [unguarded, tcpCast, allocates]
      grind
  | recvmsg sockfd iov_base iov_len =>
      exact breaks_of_robust (handleRecvMsg_robust _ _ _) rfl rfl rfl nofun nofun
  | sendmsg sockfd msg_iov =>
      exact breaks_of_robust (handleSendMsg_robust _ _) rfl rfl rfl nofun nofun
  | nanosleep req => exact breaks_of_robust (handleNanoSleep_robust req) rfl rfl rfl nofun nofun
  | time tloc => exact breaks_of_robust (handleTime_robust tloc) rfl rfl rfl nofun nofun
  | alarm seconds =>
      exact breaks_of_robust (Never.throw (by decide)) rfl rfl rfl nofun nofun
  | gettimeofday tv tz =>
      exact breaks_of_robust (handleGetTimeOfDay_robust tv tz) rfl rfl rfl nofun nofun
  | clockGettime clk_id tp =>
      exact breaks_of_robust (handleClockGetTime_robust _ _) rfl rfl rfl nofun nofun
  | clockGetres clk_id res =>
      exact breaks_of_robust (handleClockGetRes_robust _ _) rfl rfl rfl nofun nofun
  | bind sockfd addr => exact breaks_of_robust (handleBind_robust _ _) rfl rfl rfl nofun nofun
  | poll fds timeout => exact breaks_of_robust (handlePoll_robust _ _) rfl rfl rfl nofun nofun
  | getrandom buf buflen flags =>
      exact breaks_of_robust (handleGetRandom_robust _ _ _) rfl rfl rfl nofun nofun
  | select args => exact breaks_of_robust (handleSelect_robust args) rfl rfl rfl nofun nofun
  | getrusage r_usage =>
      exact breaks_of_robust (handleGetRUsage_robust r_usage) rfl rfl rfl nofun nofun
  | clone => exact breaks_of_robust handleClone_robust rfl rfl rfl nofun nofun
  | futex args => exact breaks_of_robust (handleFutex_robust args) rfl rfl rfl nofun nofun
  | exit => exact breaks_of_robust (Never.pure _) rfl rfl rfl nofun nofun
  | unsupported nr => exact breaks_of_robust (Never.throw (by decide)) rfl rfl rfl nofun nofun
  | _ => exact breaks_of_robust fake_robust rfl rfl rfl nofun nofun

end handlers

end Grail
