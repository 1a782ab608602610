import Grail.SelectSpecs
import Grail.SocketSpecs

/-! # Every step is one of `Occurs`

`handle_spec` collects the specifications of the handlers; `step_cases` says that a step of the
emulator moves to a time that no scheduled event precedes and then does one of the things that
`Occurs` lists. -/

namespace Grail

open Programs

variable {s : St}

theorem handle_spec (call : Syscall) : wp (handle call) (Handled call s) s := by
  unfold handle
  simp only [wp_bind, wp_get]
  cases call with
  | plain call => exact handlePlain_spec call
  | dup fd => exact handleOnKernelFd_spec rfl rfl fun h => congrArg not h
  | stat arg => exact handleOnKernelFd_spec rfl rfl fun h => congrArg not h
  | read fd buf count => exact handleRead_spec fd buf count
  | «open» pathname => exact handleOpen_spec rfl rfl fun h => congrArg not h
  | openat dirfd pathname => exact handleOpen_spec rfl rfl fun h => congrArg not h
  | close fd => exact handleClose_spec fd
  | pipe2 pipefd => exact handlePipe2_spec pipefd
  | getpid => exact handleGetPid_spec
  | ioctl fd request ifreq => exact handleIoctl_spec fd request ifreq
  | fcntl fd cmd flags => exact handleFcntl_spec fd cmd flags
  | exitGroup => exact (wp_pure _ _ _).mpr (.systemExit rfl)
  | getsockname fd out => exact handleGetSockName_spec fd out
  | getpeername fd out => exact handleGetPeerName_spec fd out
  | write fd buf count => exact handleWrite_spec fd buf count
  | setsockopt fd level optname optlen => exact handleSetSockOpt_spec fd level optname optlen
  | getsockopt fd level optname optval optlen =>
      exact handleGetSockOpt_spec fd level optname optval optlen
  | socket domain type protocol => exact handleSocket_spec domain type protocol
  | connect fd addr => exact handleConnect_spec fd addr
  | listen fd backlog => exact handleListen_spec fd backlog
  | sendto fd buf flags dest_addr => exact handleSendTo_spec fd buf flags dest_addr
  | recvfrom fd buffer length flags out => exact handleRecvFrom_spec fd buffer length flags out
  | accept fd out => exact handleAccept_spec fd out
  | recvmsg fd iov_base iov_len => exact handleRecvMsg_spec fd iov_base iov_len
  | sendmsg fd msg_iov => exact handleSendMsg_spec fd msg_iov
  | nanosleep req => exact handleNanoSleep_spec req
  | time tloc => exact handleTime_spec tloc
  | alarm seconds => exact Plain.throw.start
  | gettimeofday tv tz => exact handleGetTimeOfDay_spec tv tz
  | clockGettime clk_id tp => exact handleClockGetTime_spec clk_id tp
  | clockGetres clk_id res => exact handleClockGetRes_spec clk_id res
  | bind fd addr => exact handleBind_spec fd addr
  | poll fds timeout => exact handlePoll_spec fds timeout
  | getrandom buf buflen flags => exact handleGetRandom_spec buf buflen flags
  | select args => exact handleSelect_spec args
  | getrusage r_usage => exact handleGetRUsage_spec r_usage
  | getuid => exact (Plain.fake rfl rfl resumes_success).start
  | geteuid => exact (Plain.fake rfl rfl resumes_success).start
  | getgid => exact (Plain.fake rfl rfl resumes_success).start
  | getegid => exact (Plain.fake rfl rfl resumes_success).start
  | clone => exact handleClone_spec
  | futex args => exact handleFutex_spec args
  | exit => exact handleExit_spec
  | unsupported nr => exact Plain.throw.start

theorem stays_store {dst : Ptr} {val : Val} :
    wp (storeToTracee s.c.pid dst val >>= fun _ => pure .success) (Stays s) s := by
  rw [wp_bind]
  refine wp_storeToTracee fun st => (wp_pure _ _ _).mpr ?_
  exact ⟨resumes_success, _, (Quiet.refl _).stores st, rfl⟩

/-- The handlers that do not advance the thread. -/
theorem handle_stays {call : Syscall} (h : unadvanced s.c.app s.d.fds call = true) :
    wp (handle call) (Stays s) s := by
  unfold handle
  simp only [wp_bind, wp_get]
  cases call with
  | exit => exact (wp_pure _ _ _).mpr ⟨resumes_success, s.d, Quiet.refl _, rfl⟩
  | clockGettime clk_id tp =>
      have hk : isCpuClock clk_id = false := by simpa [unadvanced] using h
      simp only [handleClockGetTime, wp_bind, wp_get, hk, Bool.false_eq_true, if_false]
      exact (wp_bind _ _ _ _).mp stays_store
  | clockGetres clk_id res =>
      have hk : isCpuClock clk_id = false := by simpa [unadvanced] using h
      simp only [handleClockGetRes, wp_bind, wp_get, hk, Bool.false_eq_true, if_false]
      exact (wp_bind _ _ _ _).mp stays_store
  | ioctl fd request ifreq =>
      cases ifreq with
      | none => simp [unadvanced] at h
      | some ifr =>
          simp only [unadvanced, Bool.and_eq_true, decide_eq_true_eq] at h
          obtain ⟨⟨⟨hemu, rfl⟩, htty⟩, hdev⟩ := h
          have hdev : getWifiDeviceByName s.c.app.devices ifr.ifr_name = .ok none := by
            split at hdev
            next hn => exact hn
            next => cases hdev
          have hflags : ¬ SIOCGIWNAME = SIOCGIFFLAGS := by decide
          simp only [handleIoctl, withWifiDevice, wp_bind, wp_get, wp_ite, hemu, hdev]
          refine ⟨fun h => absurd h htty, fun _ => ⟨fun h => by simp at h, fun _ => ?_⟩⟩
          refine ⟨fun h => absurd h hflags, fun _ => ⟨fun _ => ?_, fun h => absurd trivial h⟩⟩
          exact (wp_pure _ _ _).mpr ⟨resumes_failure, s.d, Quiet.refl _, rfl⟩
  | _ => cases h

/-- The handlers that pass on descriptors without having checked them. -/
theorem handle_passes {call : Syscall} (h : unchecked s.d.fds call ≠ []) :
    wp (handle call) (fun res s' => res ≠ .error → Passes s.c.pid s.c s'.c) s := by
  have after : wp handleSyscallAfter (fun res s' => res ≠ .error → Passes s.c.pid s.c s'.c) s :=
    wp_handleSyscallAfter (fun _ hres => absurd rfl hres) fun _ hc _ => hc
  unfold handle
  simp only [wp_bind, wp_get]
  cases call with
  | plain call => exact after
  | openat dirfd pathname =>
      have hr : isRandomDevice (pathname.take 256) = false := by
        by_contra hr
        exact h (if_pos (eq_true_of_ne_false hr))
      simp only [handleOpenAt, handleOpen, hr, Bool.false_eq_true, if_false]
      exact after
  | poll fds timeout =>
      simp only [handlePoll, wp_bind, wp_get, wp_ite, wp_pure]
      exact ⟨fun _ hres => absurd rfl hres, fun _ => after⟩
  | _ => exact absurd rfl h

theorem handle_answers (call : Syscall) : wp (handle call) (Answers call s) s := by
  have hspec : wp (handle call) (Handled call s) s := handle_spec call
  have hstays : wp (handle call) (fun res s' =>
      unadvanced s.c.app s.d.fds call = true → Stays s res s') s := by
    by_cases h : unadvanced s.c.app s.d.fds call = true
    · exact (handle_stays h).mono fun _ _ hs _ => hs
    · exact hspec.mono fun _ _ _ h' => absurd h' h
  have hpasses : wp (handle call) (fun res s' =>
      unchecked s.d.fds call ≠ [] → res ≠ .error → Passes s.c.pid s.c s'.c) s := by
    by_cases h : unchecked s.d.fds call = []
    · exact hspec.mono fun _ _ _ h' => absurd h h'
    · exact (handle_passes h).mono fun _ _ hs _ => hs
  exact (hspec.and (hstays.and hpasses)).mono fun _ _ hs => ⟨hs.1, hs.2.1, hs.2.2⟩

theorem wp_processed {p : Pid} {res : SyscallHandlerStatusCode} :
    wp (processStatusCode res p) (fun _ s' => Processed p s res s') s :=
  wp_processStatusCode .resumed .waits fun hres hq => by
    subst hres
    exact .quits hq

theorem dispatchSyscall_spec {p : Pid} {c₁ : Ctl} (hc : Caught p (s.c.setPid p) c₁) :
    wp (dispatchSyscall p) (fun _ s' => Fires s (.handleSyscallBefore p) s')
      { s with c := c₁ } := by
  unfold dispatchSyscall
  simp only [wp_bind, wp_get]
  cases hth : c₁.threads p with
  | none => simp
  | some th =>
      simp only [wp_bind, wp_modifyCtl]
      refine (handle_answers th.origRax).mono fun res s₂ hh => ?_
      exact wp_processed.mono fun _ s' hs' => .dispatched hc hth hh hs'

theorem handleSyscallBefore_spec (p : Pid) :
    wp (handleSyscallBefore p) (fun _ s' => Fires s (.handleSyscallBefore p) s') s := by
  unfold handleSyscallBefore
  simp only [wp_bind, wp_modifyCtl]
  refine wp_waitForSyscall ?_ ?_ ?_
  · intro th hth hx
    have hth : s.c.threads p = some th := hth
    simpa using Fires.gone hth hx
  · intro th next retval hth hp hx hw
    exact dispatchSyscall_spec (.exit hth hp hx hw)
  · intro th next retval hth hp hw
    exact dispatchSyscall_spec (.entry hth hp hw)

theorem runEvent_spec (kind : EventKind) :
    wp (runEvent kind) (fun _ s' => Fires s kind s') s := by
  unfold runEvent
  cases kind with
  | handleSyscallBefore p => exact handleSyscallBefore_spec p
  | selectTimeout τ => exact wp_selectTimeout .timeoutStale fun _ hn hc => .timeout hn hc
  | nanosleep τ => exact wp_complete_onBehalf resumes_success fun _ hc => .slept hc
  | removeClosedSocket sock =>
      simp only [wp_bind, wp_ask, wp_pure]
      exact .removed ((Quiet.refl _).asked _)

/-! ### Events of sockets -/

theorem received_spec (sock : SockId) (rx : ℕ) :
    wp (received sock rx) (fun _ s' => Occurs s (.received sock rx) s') s := by
  unfold received
  rw [wp_ite]
  refine ⟨fun _ => by simp, fun hrx => ?_⟩
  simp only [wp_bind, wp_modifyData, wp_get]
  cases hcb : s.c.recvCallback sock with
  | none => exact (wp_pure _ _ _).mpr (.receivedIdle fun cb hcb' => by simp [hcb] at hcb')
  | some cb =>
      cases cb with
      | read τ buf count =>
          exact wp_read_onBehalf fun rx' d' c' hd' hc' => .receivedRead hcb rfl hd' hc'
      | recvfrom τ buffer length flags out =>
          exact wp_recvfrom_onBehalf fun rx' d' c' hd' hc' => .receivedRead hcb rfl hd' hc'
      | select cl =>
          refine wp_selectRecvCallback (fun hh => ?_) fun c' hn hc' => ?_
          · refine .receivedIdle fun cb hcb' => ?_
            rw [hcb] at hcb'
            cases hcb'
            exact ⟨cl, rfl, hh⟩
          · exact .receivedSelect hrx hcb hn hc'

theorem sendable_spec (sock : SockId) (tx : ℕ) :
    wp (sendable sock tx) (fun _ s' => Occurs s (.sendable sock tx) s') s := by
  unfold sendable
  rw [wp_ite]
  refine ⟨fun _ => by simp, fun htx => ?_⟩
  simp only [wp_bind, wp_modifyData, wp_get]
  cases hcb : s.c.sendCallback sock with
  | none => exact (wp_pure _ _ _).mpr (.sendableIdle fun cl hcl => by simp [hcb] at hcl)
  | some cb =>
      cases cb with
      | write τ => exact (wp_pure _ _ _).mpr (.sendableIdle fun cl hcl => by simp [hcb] at hcl)
      | select cl =>
          refine wp_selectSendCallback (fun hh => ?_) fun c' hn hc' => ?_
          · refine .sendableIdle fun cl' hcl => ?_
            rw [hcb] at hcl
            cases hcl
            exact hh
          · exact .sendableSelect htx hcb hn hc'

theorem incoming_spec (sock : SockId) (addr : Option (ℕ × ℕ)) :
    wp (incoming sock addr) (fun _ s' => Occurs s (.incoming sock addr) s') s := by
  unfold incoming
  simp only [wp_bind, wp_get, wp_ite, wp_throw, wp_ask, wp_newSocket, wp_modifyData]
  refine ⟨fun _ => trivial, fun hl => ?_⟩
  have hl : s.d.listening sock = true := by simpa using hl
  cases hcb : s.c.acceptCallback sock with
  | none =>
      refine (wp_pure _ _ _).mpr (.incomingLost hl (fun cb hcb' => ?_) ((Quiet.refl _).asked _))
      simp [hcb] at hcb'
  | some cb =>
      cases cb with
      | fakeAccept fd =>
          rw [wp_modifyFds]
          exact .incomingStored hl hcb ((Quiet.refl _).asked _)
      | select cl =>
          refine wp_selectAcceptCallback (fun hh => ?_) fun sock' c' hn hsock' hc' => ?_
          · refine .incomingLost hl (fun cb hcb' => ?_) ((Quiet.refl _).asked _)
            rw [hcb] at hcb'
            cases hcb'
            exact ⟨cl, rfl, hh⟩
          · exact .incomingSelect hl hcb hn hsock' ((Quiet.refl _).asked _) hc'
      | accept τ fd out =>
          exact wp_acceptCallback fun fd' d' c₁ hfd' hd' hc₁ =>
            .incomingAccept hl hcb hfd' (((Quiet.refl _).asked _).trans hd') hc₁

theorem connectEnds_spec {sock : SockId} {callback : ConnectCallback → M Unit} {what : Occurrence}
    (hwhat : what = .connected sock ∨ what = .refused sock)
    (h : ∀ cl, s.c.connecting sock = true → s.c.connectCallback sock = some cl →
      wp (onBehalf cl.task (callback cl)) (fun _ s' => Occurs s what s')
        { s with c := s.c.setConnecting sock false }) :
    wp (connectEnds sock callback) (fun _ s' => Occurs s what s') s := by
  unfold connectEnds
  simp only [wp_bind, wp_get, wp_ite, wp_throw, wp_modifyCtl]
  refine ⟨fun _ => trivial, fun hc => ?_⟩
  cases hcb : s.c.connectCallback sock with
  | none => exact (wp_pure _ _ _).mpr (.connectIdle hwhat hcb)
  | some cl => exact h cl (by simpa using hc) hcb

theorem fire_spec (i : ℕ) : wp (fire i s.c.now) (fun _ s' => Occurs s (.fire i) s') s := by
  unfold fire
  simp only [wp_bind, wp_get]
  cases he : s.c.events[i]? with
  | none => simp
  | some e =>
      simp only [wp_ite, wp_throw, wp_bind, wp_modifyCtl, not_not, implies_true, true_and]
      intro ht
      exact (runEvent_spec e.kind).mono fun _ s' hs' => .fired he ht hs'

theorem occur_spec {l : Label} (hl : s.c.now = l.time) :
    wp (occur l) (fun _ s' => Occurs s l.what s') s := by
  obtain ⟨t, what⟩ := l
  simp only at hl
  subst hl
  unfold occur
  cases what with
  | fire i => exact fire_spec i
  | received sock rx => exact received_spec sock rx
  | sendable sock tx => exact sendable_spec sock tx
  | incoming sock addr => exact incoming_spec sock addr
  | connected sock =>
      refine connectEnds_spec (.inl rfl) fun cl hc hcb => ?_
      exact wp_connectSucceeded fun c' hc' => .connected hc hcb hc'
  | refused sock =>
      refine connectEnds_spec (.inr rfl) fun cl hc hcb => ?_
      exact wp_complete_onBehalf resumes_failure fun c' hc' => .refused hc hcb hc'

/-- The state in which `l` occurs: the simulator has moved to the time of `l`. -/
def St.moveTo (l : Label) (s : St) : St := { s with c := s.c.setNow l.time }

/-- What a step does. -/
theorem step_cases {l : Label} {s' : St} (h : step s l = some s') :
    s.c.now ≤ l.time ∧ (∀ e ∈ s.c.events, l.time ≤ e.time) ∧ Occurs (s.moveTo l) l.what s' := by
  have hm : wp (emulate l) (fun _ s' => s.c.now ≤ l.time ∧ (∀ e ∈ s.c.events, l.time ≤ e.time) ∧
      Occurs (s.moveTo l) l.what s') s := by
    unfold emulate advance
    simp only [wp_bind, wp_get, wp_ite, wp_throw, wp_modifyCtl, implies_true, and_true]
    intro hl
    exact (occur_spec rfl).mono fun _ s' hs' => ⟨hl.1, hl.2, hs'⟩
  unfold step at h
  split at h
  next a s₁ hr =>
    cases h
    exact hm.elim hr
  next => cases h

end Grail
