import Grail.Outcomes

/-! # The handlers end as `Handled` says

One lemma `*_spec` for each handler.  Most handlers change no table: they store results into the
tracee, ask ns-3 and answer the call or pass it on.  `Plain call s m` says that of a part `m` of
a handler of `call` that was dispatched in `s`; it is closed under the constructs that the
handlers use. -/

namespace Grail

open Programs

/-! ### Quiet changes -/

theorem Quiet.refl (d : Data) : Quiet d d := ⟨rfl, rfl, rfl, rfl, rfl, rfl, rfl, rfl, rfl, rfl⟩

/-- The changes that `Quiet` allows. -/
theorem Quiet.of_fields (d : Data) (st : List (Pid × Ptr × Val)) (n : ℕ) (tx : SockId → ℕ)
    (rt : List RtEntry) : Quiet d { d with stores := st, asks := n, txAvailable := tx, rt := rt } :=
  ⟨rfl, rfl, rfl, rfl, rfl, rfl, rfl, rfl, rfl, rfl⟩

theorem Quiet.trans {d d' d'' : Data} (h : Quiet d d') (h' : Quiet d' d'') : Quiet d d'' where
  fds := h'.fds.trans h.fds
  nls := h'.nls.trans h.nls
  isTcp := h'.isTcp.trans h.isTcp
  listening := h'.listening.trans h.listening
  rxAvailable := h'.rxAvailable.trans h.rxAvailable
  selMem := h'.selMem.trans h.selMem
  nextSock := h'.nextSock.trans h.nextSock
  nextNl := h'.nextNl.trans h.nextNl
  arrived := h'.arrived.trans h.arrived
  returned := h'.returned.trans h.returned

theorem Quiet.stores {d d' : Data} (h : Quiet d d') (st : List (Pid × Ptr × Val)) :
    Quiet d (d'.setStores st) :=
  h.trans (Quiet.of_fields d' st d'.asks d'.txAvailable d'.rt)

theorem Quiet.asked {d d' : Data} (h : Quiet d d') (n : ℕ) : Quiet d (d'.setAsks n) :=
  h.trans (Quiet.of_fields d' d'.stores n d'.txAvailable d'.rt)

theorem Quiet.setTx {d d' : Data} (h : Quiet d d') (sock : SockId) (tx : ℕ) :
    Quiet d (d'.setTx sock tx) :=
  h.trans (Quiet.of_fields d' d'.stores d'.asks _ d'.rt)

theorem resumes_success : SyscallHandlerStatusCode.success.resumes := Or.inl rfl

theorem resumes_failure : SyscallHandlerStatusCode.failure.resumes := Or.inr rfl

/-! ### Handlers that change no table -/

/-- Where it is reached with the state of the dispatch up to quiet changes, `m` ends as `Handled`
says. -/
def Plain (call : Syscall) (s : St) (m : M SyscallHandlerStatusCode) : Prop :=
  ∀ s₁ : St, s₁.c = s.c → Quiet s.d s₁.d → wp m (Handled call s) s₁

namespace Plain

variable {call : Syscall} {s : St} {α : Type}

theorem start {m : M SyscallHandlerStatusCode} (h : Plain call s m) : wp m (Handled call s) s :=
  h s rfl (Quiet.refl s.d)

theorem throw {e : Crash} : Plain call s (MonadExcept.throw e) := fun _ _ _ => by simp

theorem error : Plain call s (pure .error) := fun _ _ _ => by
  rw [wp_pure]
  exact Handled.error

theorem fake (hp : call.plainly = true) (hn : netlinkOf s.d.fds call = none) {v : ℤ}
    {res : SyscallHandlerStatusCode} (hr : res.resumes) : Plain call s (fake v res) := by
  intro s₁ hc hd
  refine wp_fake (fun _ => Handled.error) fun c' h => ?_
  rw [hc] at h
  exact .answered hp hn hr (.quiet hd) .none h

theorem after (hp : call.plainly = true) (hn : netlinkOf s.d.fds call = none)
    (hk : passable s.d.fds call = true) : Plain call s handleSyscallAfter := by
  intro s₁ hc hd
  refine wp_handleSyscallAfter (fun _ => Handled.error) fun c' h => ?_
  rw [hc] at h
  exact .passed hp hn hk hd h

theorem get {f : St → M SyscallHandlerStatusCode}
    (h : ∀ s₁ : St, s₁.c = s.c → Quiet s.d s₁.d → Plain call s (f s₁)) :
    Plain call s (MonadState.get >>= f) := by
  intro s₁ hc hd
  rw [wp_bind]
  exact (wp_get _ _).mpr (h s₁ hc hd s₁ hc hd)

theorem ite {c : Prop} [Decidable c] {m n : M SyscallHandlerStatusCode}
    (hm : c → Plain call s m) (hn : ¬ c → Plain call s n) : Plain call s (if c then m else n) := by
  intro s₁ hc hd
  rw [wp_ite]
  exact ⟨fun h => hm h s₁ hc hd, fun h => hn h s₁ hc hd⟩

theorem ask {f : Ns3Answer → M SyscallHandlerStatusCode} (h : ∀ a, Plain call s (f a)) :
    Plain call s (ask >>= f) := by
  intro s₁ hc hd
  rw [wp_bind, wp_ask]
  exact h _ _ hc (hd.asked _)

theorem memcpy {p : Pid} {dst : Ptr} {val : Val} {f : Unit → M SyscallHandlerStatusCode}
    (h : Plain call s (f ())) : Plain call s (memcpyToTracee p dst val >>= f) := by
  intro s₁ hc hd
  rw [wp_bind]
  exact wp_memcpyToTracee fun st => h _ hc (hd.stores st)

theorem store {p : Pid} {dst : Ptr} {val : Val} {f : Unit → M SyscallHandlerStatusCode}
    (h : Plain call s (f ())) : Plain call s (storeToTracee p dst val >>= f) := by
  intro s₁ hc hd
  rw [wp_bind]
  exact wp_storeToTracee fun st => h _ hc (hd.stores st)

theorem socketsAt {fd : Fd} {f : SockId → M SyscallHandlerStatusCode}
    (h : ∀ sock, Plain call s (f sock)) : Plain call s (socketsAt fd >>= f) := by
  intro s₁ hc hd
  rw [wp_bind, wp_socketsAt]
  exact fun sock _ => h sock s₁ hc hd

theorem setBsdAddress {addr : Option (ℕ × ℕ)} {out : SockaddrOut}
    {f : Bool → M SyscallHandlerStatusCode} (h : ∀ b, Plain call s (f b)) :
    Plain call s (setBsdAddress addr out >>= f) := by
  intro s₁ hc hd
  rw [wp_bind]
  exact wp_setBsdAddress fun b st => h b _ hc (hd.stores st)

theorem getNs3Address {addr : Sockaddr} {f : Bool → M SyscallHandlerStatusCode}
    (h : ∀ b, Plain call s (f b)) : Plain call s (getNs3Address addr >>= f) := by
  intro s₁ hc hd
  rw [wp_bind]
  exact wp_getNs3Address fun b => h b s₁ hc hd

theorem send {sock : SockId} {f : ℤ → M SyscallHandlerStatusCode} (h : ∀ v, Plain call s (f v)) :
    Plain call s (ns3Send sock >>= f) := by
  intro s₁ hc hd
  unfold ns3Send
  simp only [wp_bind, wp_ask, wp_modifyData, wp_pure]
  exact h _ _ hc ((hd.asked _).setTx _ _)

theorem throw_bind {β : Type} {e : Crash} {f : β → M SyscallHandlerStatusCode} :
    Plain call s ((MonadExcept.throw e : M β) >>= f) := fun _ _ _ => by simp

end Plain

variable {s : St}

theorem handlePlain_spec (call : PlainCall) : wp handlePlain (Handled (.plain call) s) s :=
  Plain.start (Plain.after rfl rfl rfl)

theorem handleOnKernelFd_spec {call : Syscall} (hp : call.plainly = true)
    (hn : netlinkOf s.d.fds call = none) {fd : Fd}
    (hk : s.d.fds.isEmulated fd = false → passable s.d.fds call = true) :
    wp (handleOnKernelFd fd) (Handled call s) s := by
  refine Plain.start (Plain.get fun s₁ _ hd => ?_)
  refine Plain.ite (fun _ => Plain.throw) fun hemu => Plain.after hp hn (hk ?_)
  rw [← hd.fds]
  exact Bool.eq_false_iff.mpr hemu

theorem handleGetPid_spec : wp handleGetPid (Handled .getpid s) s :=
  Plain.start (Plain.get fun _ _ _ => Plain.fake rfl rfl resumes_success)

theorem handlePipe2_spec (pipefd : Fd × Fd) :
    wp (handlePipe2 pipefd) (Handled (.pipe2 pipefd) s) s := by
  refine Plain.start (Plain.get fun s₁ _ hd => ?_)
  refine Plain.ite (fun _ => Plain.error) fun hemu => Plain.after rfl rfl ?_
  rw [hd.fds] at hemu
  simpa [passable] using hemu

theorem handleGetRUsage_spec (r_usage : Ptr) :
    wp (handleGetRUsage r_usage) (Handled (.getrusage r_usage) s) s :=
  Plain.start (Plain.get fun _ _ _ => Plain.memcpy (Plain.fake rfl rfl resumes_success))

theorem handleTime_spec (tloc : Ptr) : wp (handleTime tloc) (Handled (.time tloc) s) s :=
  Plain.start (Plain.get fun _ _ _ => Plain.store (Plain.fake rfl rfl resumes_success))

theorem handleGetTimeOfDay_spec (tv tz : Ptr) :
    wp (handleGetTimeOfDay tv tz) (Handled (.gettimeofday tv tz) s) s := by
  refine Plain.start (Plain.get fun _ _ _ => ?_)
  exact Plain.ite (fun _ => Plain.throw) fun _ =>
    Plain.store (Plain.fake rfl rfl resumes_success)

theorem handlePoll_spec (fds : List PollFd) (timeout : ℤ) :
    wp (handlePoll fds timeout) (Handled (.poll fds timeout) s) s := by
  refine Plain.start (Plain.get fun s₁ _ hd => ?_)
  refine Plain.ite (fun _ => Plain.error) fun hsock => Plain.after rfl rfl ?_
  rw [hd.fds] at hsock
  rw [passable, Bool.eq_false_iff.mpr hsock]
  rfl

theorem handleGetRandom_spec (buf : Ptr) (buflen flags : ℕ) :
    wp (handleGetRandom buf buflen flags) (Handled (.getrandom buf buflen flags) s) s := by
  refine Plain.start (Plain.ite (fun _ => Plain.error) fun _ => ?_)
  refine Plain.ite (fun _ => ?_) fun _ => Plain.fake rfl rfl resumes_success
  exact Plain.get fun _ _ _ => Plain.memcpy (Plain.fake rfl rfl resumes_success)

theorem handleFutex_spec (args : FutexArgs) :
    wp (handleFutex args) (Handled (.futex args) s) s :=
  Plain.start <| Plain.ite (fun _ => Plain.fake rfl rfl resumes_success) fun hk =>
    Plain.after rfl rfl (decide_eq_true hk)

section sockopt

variable {call : Syscall}

theorem getSockOptValue_plain (hp : call.plainly = true) (hn : netlinkOf s.d.fds call = none)
    (optval optlen : Ptr) : Plain call s (getSockOptValue optval optlen) :=
  Plain.get fun _ _ _ => Plain.ask fun _ => Plain.memcpy <| Plain.memcpy <|
    Plain.fake hp hn resumes_success

theorem tcpSocketAt_plain {fd : Fd} {f : SockId → M SyscallHandlerStatusCode}
    (h : ∀ sock, Plain call s (f sock)) : Plain call s (tcpSocketAt fd >>= f) := by
  unfold tcpSocketAt
  simp only [bind_assoc]
  refine Plain.socketsAt fun sock => Plain.get fun s₁ _ _ => ?_
  by_cases ht : s₁.d.isTcp sock = true
  · simpa [ht] using h sock
  · simpa [ht] using Plain.throw_bind

theorem handleGetSockOpt_spec (sockfd : Fd) (level optname : ℤ) (optval optlen : Ptr) :
    wp (handleGetSockOpt sockfd level optname optval optlen)
      (Handled (.getsockopt sockfd level optname optval optlen) s) s := by
  have value : Plain (.getsockopt sockfd level optname optval optlen) s
      (getSockOptValue optval optlen) := getSockOptValue_plain rfl rfl optval optlen
  refine Plain.start (Plain.get fun s₁ _ hd => ?_)
  refine Plain.ite (fun hk => Plain.after rfl rfl (hd.fds ▸ hk)) fun _ => ?_
  refine Plain.ite (fun _ => Plain.throw) fun _ => ?_
  refine Plain.ite (fun _ => ?_) fun _ => ?_
  · -- `SOL_SOCKET`
    refine Plain.ite (fun _ => Plain.socketsAt fun _ => value) fun _ => ?_
    refine Plain.ite (fun _ => tcpSocketAt_plain fun _ => value) fun _ => ?_
    exact Plain.ite (fun _ => Plain.socketsAt fun _ => value) fun _ => Plain.error
  · refine Plain.ite (fun _ => Plain.error) fun _ => ?_
    refine Plain.ite (fun _ => ?_) fun _ => Plain.fake rfl rfl resumes_failure
    -- `IPPROTO_TCP`
    refine Plain.ite (fun _ => tcpSocketAt_plain fun _ => value) fun _ => ?_
    refine Plain.ite (fun _ => ?_) fun _ => ?_
    · exact Plain.memcpy (Plain.memcpy (Plain.fake rfl rfl resumes_success))
    · exact Plain.ite (fun _ => Plain.fake rfl rfl resumes_failure) fun _ => Plain.error

theorem handleSetSockOpt_spec (sockfd : Fd) (level optname : ℤ) (optlen : ℕ) :
    wp (handleSetSockOpt sockfd level optname optlen)
      (Handled (.setsockopt sockfd level optname optlen) s) s := by
  have ok : Plain (.setsockopt sockfd level optname optlen) s (fake 0 .success) :=
    Plain.fake rfl rfl resumes_success
  refine Plain.start (Plain.get fun s₁ _ hd => ?_)
  refine Plain.ite (fun hk => Plain.after rfl rfl (hd.fds ▸ hk)) fun _ => ?_
  refine Plain.ite (fun _ => ?_) fun _ => ?_
  · -- `SOL_SOCKET`
    refine Plain.ite (fun _ => ?_) fun _ => ?_
    · exact Plain.ite (fun _ => Plain.throw) fun _ =>
        Plain.socketsAt fun _ => Plain.ask fun _ => ok
    · refine Plain.ite (fun _ => ok) fun _ => ?_
      refine Plain.ite (fun _ => Plain.ite (fun _ => Plain.throw) fun _ => ok) fun _ => ?_
      refine Plain.ite (fun _ => ok) fun _ => ?_
      exact Plain.ite (fun _ => ok) fun _ => Plain.error
  · refine Plain.ite (fun _ => Plain.ite (fun _ => ok) fun _ => Plain.error) fun _ => ?_
    refine Plain.ite (fun _ => ?_) fun _ => Plain.fake rfl rfl resumes_failure
    exact Plain.ite (fun _ => Plain.ite (fun _ => Plain.throw) fun _ => Plain.error) fun _ =>
      Plain.error

theorem replyAddress_plain (hp : call.plainly = true) (hn : netlinkOf s.d.fds call = none)
    (out : SockaddrOut) : Plain call s (replyAddress out) := by
  refine Plain.ask fun a => Plain.setBsdAddress fun _ => ?_
  by_cases h : 0 ≤ a.ret
  · simpa [h] using Plain.fake hp hn resumes_success
  · simpa [h] using Plain.fake hp hn resumes_failure

end sockopt

theorem handleGetPeerName_spec (sockfd : Fd) (out : SockaddrOut) :
    wp (handleGetPeerName sockfd out) (Handled (.getpeername sockfd out) s) s := by
  refine Plain.start (Plain.get fun _ _ _ => ?_)
  refine Plain.ite (fun _ => Plain.throw_bind) fun _ => ?_
  exact Plain.socketsAt fun _ => replyAddress_plain rfl rfl out

/-! ### `ioctl` and the clocks -/

/-- A call answered without `FAKE`. -/
theorem handled_unadvanced {call : Syscall} {s₁ : St} {res : SyscallHandlerStatusCode}
    (hu : unadvanced s.c.app s.d.fds call = true) (hr : res.resumes) (hc : s₁.c = s.c)
    (hd : Quiet s.d s₁.d) : Handled call s res s₁ := by
  obtain ⟨c₁, d₁⟩ := s₁
  subst hc
  exact .unadvanced hu hr hd

theorem handleClockGetTime_spec (clk_id : ℤ) (tp : Ptr) :
    wp (handleClockGetTime clk_id tp) (Handled (.clockGettime clk_id tp) s) s := by
  refine Plain.start (Plain.get fun _ _ _ => ?_)
  refine Plain.ite (fun _ => Plain.fake rfl rfl resumes_failure) fun hk => Plain.store ?_
  intro s₁ hc hd
  exact (wp_pure _ _ _).mpr (handled_unadvanced (by simp [unadvanced, hk]) resumes_success hc hd)

theorem handleClockGetRes_spec (clk_id : ℤ) (res : Ptr) :
    wp (handleClockGetRes clk_id res) (Handled (.clockGetres clk_id res) s) s := by
  refine Plain.start (Plain.get fun _ _ _ => ?_)
  refine Plain.ite (fun _ => Plain.fake rfl rfl resumes_failure) fun hk => Plain.store ?_
  intro s₁ hc hd
  exact (wp_pure _ _ _).mpr (handled_unadvanced (by simp [unadvanced, hk]) resumes_success hc hd)

theorem withWifiDevice_plain {call : Syscall} (hp : call.plainly = true)
    (hn : netlinkOf s.d.fds call = none) {ifreq : Option Ifreq}
    {noDevice : M SyscallHandlerStatusCode} {body : Ptr → NetDevice → M SyscallHandlerStatusCode}
    (h : ∀ ifr, ifreq = some ifr → getWifiDeviceByName s.c.app.devices ifr.ifr_name = .ok none →
      Plain call s noDevice)
    (hb : ∀ ifr wifi, Plain call s (body ifr wifi)) :
    Plain call s (withWifiDevice ifreq noDevice body) := by
  unfold withWifiDevice
  cases ifreq with
  | none => exact Plain.fake hp hn resumes_failure
  | some ifr =>
      refine Plain.get fun s₁ hc _ => ?_
      rw [hc]
      cases hdev : getWifiDeviceByName s.c.app.devices ifr.ifr_name with
      | error e => exact Plain.throw
      | ok dev =>
          cases dev with
          | none => exact h ifr rfl hdev
          | some wifi => exact hb ifr.addr wifi

theorem firstAddress_plain {call : Syscall} {wifi : NetDevice}
    {f : InterfaceAddress → M SyscallHandlerStatusCode} (h : ∀ a, Plain call s (f a)) :
    Plain call s (firstAddress wifi >>= f) := by
  unfold firstAddress
  cases wifi.addresses with
  | nil => exact Plain.throw_bind
  | cons a _ =>
      rw [pure_bind]
      exact h a

theorem handleIoctl_spec (fd : Fd) (request : ℕ) (ifreq : Option Ifreq) :
    wp (handleIoctl fd request ifreq) (Handled (.ioctl fd request ifreq) s) s := by
  have ok : Plain (.ioctl fd request ifreq) s (fake 0 .success) :=
    Plain.fake rfl rfl resumes_success
  have failed : Plain (.ioctl fd request ifreq) s (fake (-1) .failure) :=
    Plain.fake rfl rfl resumes_failure
  refine Plain.start (Plain.get fun s₀ hc₀ hd₀ => ?_)
  refine Plain.ite (fun _ => failed) fun htty => ?_
  refine Plain.ite (fun hk => Plain.after rfl rfl (hd₀.fds ▸ hk)) fun hemu => ?_
  refine Plain.ite (fun _ => ?_) fun _ => ?_
  · exact withWifiDevice_plain rfl rfl (fun _ _ _ => failed) fun _ _ => Plain.memcpy ok
  refine Plain.ite (fun hreq => ?_) fun _ => ?_
  · refine withWifiDevice_plain rfl rfl (fun ifr hifr hdev => ?_) fun _ _ => Plain.memcpy ok
    intro s₁ hc hd
    refine (wp_pure _ _ _).mpr (handled_unadvanced ?_ resumes_failure hc hd)
    have hemu : s.d.fds.isEmulated fd = true := by simpa [hd₀.fds] using hemu
    subst hifr
    simp only [unadvanced, hdev, hemu, hreq, decide_true, Bool.true_and, Bool.and_true,
      decide_eq_true_eq]
    rwa [hreq] at htty
  refine Plain.ite (fun _ => ?_) fun _ => ?_
  · exact withWifiDevice_plain rfl rfl (fun _ _ _ => failed) fun _ _ =>
      firstAddress_plain fun _ => Plain.memcpy ok
  refine Plain.ite (fun _ => ?_) fun _ => ?_
  · exact withWifiDevice_plain rfl rfl (fun _ _ _ => failed) fun _ _ =>
      firstAddress_plain fun _ => Plain.memcpy ok
  refine Plain.ite (fun _ => ?_) fun _ => Plain.error
  exact withWifiDevice_plain rfl rfl (fun _ _ _ => failed) fun _ _ => Plain.memcpy ok

/-! ### Handlers that change the descriptor tables -/

section edits

variable {call : Syscall}

/-- After a change of the tables the call is answered. -/
theorem wp_fake_edit (hp : call.plainly = true) (hn : netlinkOf s.d.fds call = none) {v : ℤ}
    {res : SyscallHandlerStatusCode} (hr : res.resumes) {s₁ : St}
    (he : Edit call s.c.pid s.d s₁.d) (hpre : Prelude s.c.pid s.c s₁.c)
    (hpid : s₁.c.pid = s.c.pid) : wp (fake v res) (Handled call s) s₁ := by
  refine wp_fake (fun _ => Handled.error) fun c' h => ?_
  rw [hpid] at h
  exact .answered hp hn hr he hpre h

end edits

theorem handleOpen_spec {call : Syscall} (hp : call.plainly = true)
    (hn : netlinkOf s.d.fds call = none) {pathname : List Char}
    (hk : isRandomDevice (pathname.take 256) = false → passable s.d.fds call = true) :
    wp (handleOpen pathname) (Handled call s) s := by
  unfold handleOpen
  rw [wp_ite]
  refine ⟨fun _ => ?_, fun hr => Plain.start (Plain.after hp hn (hk (Bool.eq_false_iff.mpr hr)))⟩
  simp only [wp_bind, wp_getNextFD, wp_modifyFds]
  intro fd hfd
  exact wp_fake_edit hp hn resumes_success (.random hfd (Quiet.refl _)) .none rfl

theorem handleClose_spec (fd : Fd) : wp (handleClose fd) (Handled (.close fd) s) s := by
  unfold handleClose
  simp only [wp_bind, wp_get, wp_ite]
  refine ⟨fun hk => Plain.start (Plain.after rfl rfl hk), fun _ => ?_⟩
  cases hsock : s.d.fds.sockets.find fd with
  | some sock =>
      simp only [wp_bind, wp_ask, wp_modifyFds, wp_schedule]
      intro _
      exact wp_fake_edit rfl rfl resumes_success
        (.closeSocket rfl hsock ((Quiet.refl _).asked _)) .close rfl
  | none =>
      cases hnl : s.d.fds.netlinks.find fd with
      | some nl =>
          simp only [Option.isSome_some, if_true, wp_bind, wp_modifyFds]
          exact wp_fake_edit rfl rfl resumes_success
            (.closeNetlink rfl hsock hnl (Quiet.refl _)) .none rfl
      | none =>
          simp only [Option.isSome_none, Bool.false_eq_true, if_false, wp_ite, wp_throw, wp_bind,
            wp_modifyFds]
          refine ⟨fun hr => ?_, fun _ => trivial⟩
          exact wp_fake_edit rfl rfl resumes_success (.closeRandom rfl hr (Quiet.refl _)) .none rfl

theorem handleFcntl_spec (fd : Fd) (cmd flags : ℤ) :
    wp (handleFcntl fd cmd flags) (Handled (.fcntl fd cmd flags) s) s := by
  unfold handleFcntl
  simp only [wp_bind, wp_get, wp_ite, wp_pure, wp_modifyFds]
  refine ⟨fun hk => Plain.start (Plain.after rfl rfl hk), fun _ => ?_⟩
  refine ⟨fun _ => (Plain.fake rfl rfl resumes_success).start, fun _ => ?_⟩
  refine ⟨fun _ => (Plain.fake rfl rfl resumes_success).start, fun _ => ?_⟩
  refine ⟨fun hset => ⟨fun _ => ?_, fun _ => (Plain.fake rfl rfl resumes_failure).start⟩,
    fun _ => .error⟩
  obtain ⟨sock, hsock⟩ := Option.isSome_iff_exists.mp hset.2
  exact wp_fake_edit rfl rfl resumes_success (.nonblocking hsock (Quiet.refl _)) .none rfl

theorem handleSocket_spec (domain type protocol : ℤ) :
    wp (handleSocket domain type protocol) (Handled (.socket domain type protocol) s) s := by
  unfold handleSocket createSocket
  simp only [wp_bind, wp_get, wp_ite, wp_ask, wp_newSocket, wp_getNextFD, wp_modifyFds,
    wp_modifyData]
  refine ⟨fun _ => ⟨fun _ fd hfd => ?_, fun _ => ⟨fun _ fd hfd => ?_, fun _ => ?_⟩⟩, fun _ => ?_⟩
  · exact wp_fake_edit rfl rfl resumes_success (.socket hfd ((Quiet.refl _).asked _)) .none rfl
  · exact wp_fake_edit rfl rfl resumes_success (.tcpSocket hfd ((Quiet.refl _).asked _)) .none rfl
  · exact (Plain.fake rfl rfl resumes_failure).start
  · refine ⟨fun _ => ⟨fun _ => ?_, fun _ => ⟨fun _ fd hfd => ?_, fun _ => ?_⟩⟩, fun _ => ?_⟩
    · exact (Plain.fake rfl rfl resumes_failure).start
    · exact wp_fake_edit rfl rfl resumes_success (.netlink hfd (Quiet.refl _)) .none rfl
    · exact wp_fake (fun _ => .error) fun _ _ => .error
    · exact (Plain.fake rfl rfl resumes_failure).start

/-! ### Threads -/

theorem handleClone_spec : wp handleClone (Handled .clone s) s := by
  unfold handleClone handleSyscallAfterClone
  simp only [wp_bind, wp_get, wp_modifyCtl]
  refine wp_passWait (fun s' => by simpa using Handled.error) fun c' h => ?_
  simp only [Bool.not_true, Bool.false_eq_true, if_false, wp_bind, wp_get]
  cases hth : c'.threads s.c.pid with
  | none => simp
  | some th =>
      simp only [wp_ite, wp_bind, wp_throw, wp_modifyCtl, wp_pure]
      refine ⟨fun _ => trivial, fun hfree => .cloned rfl h hth fun hpos => ?_⟩
      simpa using fun hs => hfree ⟨hpos, hs⟩

theorem handleExit_spec : wp handleExit (Handled .exit s) s :=
  (wp_pure _ _ _).mpr (.unadvanced rfl resumes_success (Quiet.refl _))

theorem handleNanoSleep_spec (req : Timespec) :
    wp (handleNanoSleep req) (Handled (.nanosleep req) s) s := by
  unfold handleNanoSleep
  simp only [wp_bind, wp_get, wp_schedule, wp_pure]
  exact fun h => .sleeping rfl h

end Grail
