import Grail.Allocation

/-! # Failed calls and the descriptor tables

A call on sockets that is answered with a negative result leaves the descriptor tables as they
were, with one exception: `HandleListen` marks the socket as a listening one before it looks at the
result of `Listen`.

`Settled` lists how the handlers of these calls can end: the tables are kept, the result is not
negative, or it is this `listen`.  A result that a callback gives is negative only for a refused
connection.  `Atomic` is the statement about one step, `run_atomic` that about a run. -/

namespace Grail

open Programs

/-- The calls on sockets that are considered. -/
def Syscall.onSocket : Syscall → Bool
  | .socket _ _ _ => true
  | .bind _ _ => true
  | .listen _ _ => true
  | .connect _ _ => true
  | .accept _ _ => true
  | .getsockname _ _ => true
  | .getpeername _ _ => true
  | .fcntl _ _ _ => true
  | .setsockopt _ _ _ _ => true
  | .close _ => true
  | _ => false

/-! ### Results -/

/-- Between `c` and `c'` the results `vs` are given, the last one first. -/
def Returns (c c' : Ctl) (vs : List ℤ) : Prop :=
  returnValues c'.log = vs ++ returnValues c.log

theorem Returns.unique {c c' : Ctl} {vs vs' : List ℤ} (h : Returns c c' vs)
    (h' : Returns c c' vs') : vs = vs' :=
  List.append_cancel_right (h.symm.trans h')

theorem Completes.returns {p : Pid} {v : ℤ} {c c' : Ctl} (h : Completes p v c c') :
    Returns c c' [v] := by
  cases h with
  | atEntry => rfl
  | atExit => rfl

theorem returnValues_cons {e : Effect} {log : List Effect} (h : e.kind.rax? = none) :
    returnValues (e :: log) = returnValues log := List.filterMap_cons_none h

theorem returns_resched {p : Pid} {c c' : Ctl} {vs : List ℤ} (h : Returns c c' vs) :
    Returns c (c'.resched p) vs := by
  have hlog : returnValues (c'.resched p).log = returnValues c'.log := returnValues_cons rfl
  exact hlog.trans h

theorem Finish.returns {τ : Task} {p : Pid} {v : ℤ} {c c' : Ctl} (h : Finish τ p v c c') :
    Returns c c' [v] := by
  obtain ⟨c₁, h₁, rfl⟩ := h
  exact returns_resched (p := τ.thread) h₁.returns

/-! ### Handlers that keep the tables -/

/-- The program does not change the descriptor tables. -/
abbrev KeepsFds {α : Type} (m : M α) : Prop := Frames (fun s s' : St => s'.d.fds = s.d.fds) m

theorem keepsFds_get : KeepsFds (get : M St) := fun _ => (wp_get _ _).mpr rfl

theorem keepsFds_ask : KeepsFds ask := fun _ => (wp_ask _ _).mpr rfl

theorem keepsFds_socketsAt (fd : Fd) : KeepsFds (socketsAt fd) := fun _ =>
  (wp_socketsAt _ _ _).mpr fun _ _ => rfl

theorem keepsFds_memcpyToTracee (p : Pid) (dst : Ptr) (val : Val) :
    KeepsFds (memcpyToTracee p dst val) := fun _ => wp_memcpyToTracee fun _ => rfl

theorem keepsFds_setBsdAddress (addr : Option (ℕ × ℕ)) (out : SockaddrOut) :
    KeepsFds (setBsdAddress addr out) := fun _ => wp_setBsdAddress fun _ _ => rfl

theorem keepsFds_getNs3Address (addr : Sockaddr) : KeepsFds (getNs3Address addr) := fun _ =>
  wp_getNs3Address fun _ => rfl

/-- A handler, or the rest of one, that keeps the tables unless it ends the emulator. -/
def Keeps (m : M SyscallHandlerStatusCode) : Prop :=
  ∀ s, wp m (fun res s' => res ≠ .error → s'.d.fds = s.d.fds) s

namespace Keeps

theorem bind {α : Type} {m : M α} {f : α → M SyscallHandlerStatusCode} (hm : KeepsFds m)
    (hf : ∀ a, Keeps (f a)) : Keeps (m >>= f) := by
  intro s
  rw [wp_bind]
  refine (hm s).mono fun a s₁ h₁ => ?_
  exact (hf a s₁).mono fun res s' h hres => (h hres).trans h₁

theorem ite {c : Prop} [Decidable c] {m n : M SyscallHandlerStatusCode} (hm : Keeps m)
    (hn : Keeps n) : Keeps (if c then m else n) := by
  split_ifs
  · exact hm
  · exact hn

theorem throw {e : Crash} : Keeps (MonadExcept.throw e) := fun _ => (wp_throw _ _ _).mpr trivial

theorem error : Keeps (pure .error) := fun _ => (wp_pure _ _ _).mpr fun h => absurd rfl h

theorem fake (v : ℤ) (res : SyscallHandlerStatusCode) : Keeps (fake v res) := fun _ =>
  wp_fake (fun _ h => absurd rfl h) fun _ _ _ => rfl

theorem fakeAt (p : Pid) (v : ℤ) (res : SyscallHandlerStatusCode) : Keeps (fakeAt p v res) :=
  fun _ => wp_fakeAt (fun _ _ _ => rfl) fun _ _ _ => rfl

theorem handleSyscallAfter : Keeps handleSyscallAfter := fun _ =>
  wp_handleSyscallAfter (fun _ h => absurd rfl h) fun _ _ _ => rfl

theorem nlFake (nl : NlId) (v : ℤ) (res : SyscallHandlerStatusCode) : Keeps (nlFake nl v res) :=
  bind keepsFds_get fun _ => fakeAt _ _ _

theorem replyAddress (out : SockaddrOut) : Keeps (replyAddress out) :=
  bind keepsFds_ask fun _ => bind (keepsFds_setBsdAddress _ _) fun _ => fake _ _

theorem nlHandleBind (nl : NlId) (addr : Sockaddr) : Keeps (nlHandleBind nl addr) := by
  refine bind keepsFds_get fun s => bind (fun _ => ?_) fun _ => nlFake _ _ _
  exact (wp_modifyData _ _ _).mpr rfl

theorem nlHandleGetSockName (nl : NlId) (out : SockaddrOut) : Keeps (nlHandleGetSockName nl out) := by
  refine bind keepsFds_get fun s => ?_
  have hstore : Keeps (do
      memcpyToTracee (s.d.nls nl).pid out.addr (.sockaddrNl (s.d.nls nl).nl_pid (min 12 out.len))
      memcpyToTracee (s.d.nls nl).pid out.addrlen (.int (min 12 out.len : ℕ))
      Grail.nlFake nl 0 .success) :=
    bind (keepsFds_memcpyToTracee _ _ _) fun _ => bind (keepsFds_memcpyToTracee _ _ _) fun _ =>
      nlFake _ _ _
  exact ite (bind (Frames.throw _) fun _ => hstore) hstore

theorem handleBind (sockfd : Fd) (addr : Sockaddr) : Keeps (handleBind sockfd addr) := by
  refine bind keepsFds_get fun s => ?_
  dsimp only
  cases s.d.fds.sockets.find sockfd with
  | some sock =>
      refine bind (keepsFds_getNs3Address addr) fun b => ite error ?_
      exact bind keepsFds_ask fun _ => fake _ _
  | none =>
      dsimp only
      cases s.d.fds.netlinks.find sockfd with
      | some nl => exact nlHandleBind nl addr
      | none => exact error

theorem handleGetSockName (sockfd : Fd) (out : SockaddrOut) : Keeps (handleGetSockName sockfd out) := by
  refine bind keepsFds_get fun s => ?_
  dsimp only
  cases s.d.fds.netlinks.find sockfd with
  | some nl => exact nlHandleGetSockName nl out
  | none => exact ite (replyAddress out) error

theorem handleGetPeerName (sockfd : Fd) (out : SockaddrOut) : Keeps (handleGetPeerName sockfd out) := by
  have hreply : Keeps (do
      let _ ← socketsAt sockfd
      Grail.replyAddress out) := bind (keepsFds_socketsAt sockfd) fun _ => replyAddress out
  refine bind keepsFds_get fun s => ite (bind (Frames.throw _) fun _ => hreply) hreply

theorem handleSetSockOpt (sockfd : Fd) (level optname : ℤ) (optlen : ℕ) :
    Keeps (handleSetSockOpt sockfd level optname optlen) := by
  have hbroadcast : Keeps (do
      let _ ← socketsAt sockfd
      let _ ← ask
      Grail.fake 0 .success) :=
    bind (keepsFds_socketsAt sockfd) fun _ => bind keepsFds_ask fun _ => fake _ _
  refine bind keepsFds_get fun s => ite handleSyscallAfter (ite ?_ (ite ?_ (ite ?_ (fake _ _))))
  · -- `SOL_SOCKET`
    refine ite (ite throw hbroadcast) (ite (fake _ _) (ite (ite throw (fake _ _)) ?_))
    exact ite (fake _ _) (ite (fake _ _) error)
  · exact ite (fake _ _) error
  · exact ite (ite throw error) error

end Keeps

/-! ### Handlers that change the tables -/

/-- `listen` on a TCP socket that does not listen, which ns-3 refuses. -/
def ListenRefused (s : St) (fd : Fd) : Prop :=
  fd ∈ s.d.fds.tcpSockets ∧ fd ∉ s.d.fds.isListenTcpSocket ∧ (s.c.env.ns3 s.d.asks).ret < 0

instance (s : St) (fd : Fd) : Decidable (ListenRefused s fd) :=
  inferInstanceAs (Decidable (_ ∧ _ ∧ _))

/-- How the handler of a call on sockets can end. -/
inductive Settled (call : Syscall) (s s' : St) : Prop
  | kept : s'.d.fds = s.d.fds → Settled call s s'
  | done {v : ℤ} : 0 ≤ v → Returns s.c s'.c [v] → Settled call s s'
  | refused {fd : Fd} {backlog : ℤ} : call = .listen fd backlog → ListenRefused s fd →
      Settled call s s'

variable {s : St} {call : Syscall}

theorem Keeps.settled {m : M SyscallHandlerStatusCode} (h : Keeps m) :
    wp m (fun res s' => res ≠ .error → Settled call s s') s :=
  (h s).mono fun _ _ h hres => .kept (h hres)

/-- The call is answered with a result that is not negative. -/
theorem wp_fake_done {v : ℤ} {res : SyscallHandlerStatusCode} {s₁ : St} (hv : 0 ≤ v)
    (hlog : s₁.c.log = s.c.log) :
    wp (fake v res) (fun res s' => res ≠ .error → Settled call s s') s₁ := by
  refine wp_fake (fun _ h => absurd rfl h) fun c' hc' _ => .done hv ?_
  have hret : returnValues c'.log = v :: returnValues s₁.c.log := hc'.returns
  rw [hlog] at hret
  exact hret

/-- The call is answered before the tables have been changed. -/
theorem wp_fake_kept {v : ℤ} {res : SyscallHandlerStatusCode} {s₁ : St}
    (hfds : s₁.d.fds = s.d.fds) :
    wp (fake v res) (fun res s' => res ≠ .error → Settled call s s') s₁ :=
  wp_fake (fun _ h => absurd rfl h) fun _ _ _ => .kept hfds

theorem handleClose_settled (fd : Fd) :
    wp (handleClose fd) (fun res s' => res ≠ .error → Settled call s s') s := by
  unfold handleClose
  simp only [wp_bind, wp_get, wp_ite]
  refine ⟨fun _ => Keeps.handleSyscallAfter.settled, fun _ => ?_⟩
  cases s.d.fds.sockets.find fd with
  | some sock =>
      simp only [wp_bind, wp_ask, wp_modifyFds, wp_schedule]
      exact fun _ => wp_fake_done le_rfl rfl
  | none =>
      simp only [wp_ite, wp_bind, wp_modifyFds, wp_throw]
      exact ⟨fun _ => wp_fake_done le_rfl rfl, fun _ =>
        ⟨fun _ => wp_fake_done le_rfl rfl, fun _ => trivial⟩⟩

theorem handleFcntl_settled (fd : Fd) (cmd flags : ℤ) :
    wp (handleFcntl fd cmd flags) (fun res s' => res ≠ .error → Settled call s s') s := by
  unfold handleFcntl
  simp only [wp_bind, wp_get, wp_ite, wp_modifyFds]
  refine ⟨fun _ => Keeps.handleSyscallAfter.settled, fun _ => ⟨fun _ => wp_fake_kept rfl, fun _ =>
    ⟨fun _ => wp_fake_kept rfl, fun _ => ⟨fun _ => ?_, fun _ => Keeps.error.settled⟩⟩⟩⟩
  exact ⟨fun _ => wp_fake_done le_rfl rfl, fun _ => wp_fake_kept rfl⟩

theorem handleSocket_settled (hnext : ∀ fd, s.d.fds.nextFD = some fd → 0 ≤ fd)
    (domain type protocol : ℤ) :
    wp (handleSocket domain type protocol) (fun res s' => res ≠ .error → Settled call s s') s := by
  unfold handleSocket createSocket
  simp only [wp_bind, wp_get, wp_ite, wp_ask, wp_newSocket, wp_getNextFD, wp_modifyFds,
    wp_modifyData]
  refine ⟨fun _ => ⟨fun _ fd hfd => wp_fake_done (hnext fd hfd) rfl, fun _ =>
    ⟨fun _ fd hfd => wp_fake_done (hnext fd hfd) rfl, fun _ => wp_fake_kept rfl⟩⟩, fun _ => ?_⟩
  refine ⟨fun _ => ⟨fun _ => wp_fake_kept rfl, fun _ => ⟨fun _ fd hfd => ?_, fun _ => ?_⟩⟩, fun _ => ?_⟩
  · exact wp_fake_done (hnext fd hfd) rfl
  · exact wp_fake_kept rfl
  · exact wp_fake_kept rfl

theorem handleConnect_settled (fd : Fd) (addr : Sockaddr) :
    wp (handleConnect fd addr) (fun res s' => res ≠ .error → Settled call s s') s := by
  unfold handleConnect ns3Connect
  simp only [wp_bind, wp_get, wp_ite, wp_socketsAt, wp_ask, wp_pure, wp_modifyCtl]
  refine ⟨fun _ => wp_fake_kept rfl, fun _ => wp_getNs3Address fun b => ⟨fun _ h => absurd rfl h,
    fun _ sock hsock => ⟨fun _ _ => .kept rfl, fun _ => ⟨fun _ _ => .kept rfl, fun _ => ?_⟩⟩⟩⟩
  -- a UDP socket is connected at once
  unfold connectSucceeded
  rw [wp_bind, wp_modifyFds]
  exact wp_complete resumes_success fun c₁ h₁ _ => .done le_rfl (returns_resched h₁.returns)

theorem handleAccept_settled (hnext : ∀ fd, s.d.fds.nextFD = some fd → 0 ≤ fd) (fd : Fd)
    (out : SockaddrOut) :
    wp (handleAccept fd out) (fun res s' => res ≠ .error → Settled call s s') s := by
  unfold handleAccept
  simp only [wp_bind, wp_get, wp_ite, wp_throw]
  refine ⟨fun _ => trivial, fun _ => ?_⟩
  cases s.d.fds.fakeAcceptedSockets.find fd with
  | none =>
      simp only [wp_bind, wp_ite, wp_socketsAt, wp_pure, wp_modifyCtl]
      exact ⟨fun _ => wp_fake_kept rfl, fun _ _ _ _ => .kept rfl⟩
  | some conn =>
      simp only [wp_bind, wp_modifyFds]
      refine wp_setBsdAddress fun b st => ?_
      simp only [wp_getNextFD, wp_noteReturned, wp_pure]
      intro fd' hfd'
      refine wp_fake (fun _ h => absurd rfl h) fun c' hc' _ => ?_
      refine .done (hnext fd' hfd') ?_
      rw [St.returning_c]
      exact hc'.returns

theorem handleListen_settled (fd : Fd) (backlog : ℤ) :
    wp (handleListen fd backlog)
      (fun res s' => res ≠ .error → Settled (.listen fd backlog) s s') s := by
  unfold handleListen ns3Listen
  simp only [wp_bind, wp_get, wp_ite, wp_socketsAt, wp_ask, wp_pure, wp_modifyFds, wp_modifyData,
    wp_modifyCtl]
  refine ⟨fun _ => wp_fake_kept rfl, fun htcp => ⟨fun _ => wp_fake_kept rfl, fun hl sock hsock =>
    ⟨fun hret => ?_, fun hret => ?_⟩⟩⟩
  · -- `Listen` succeeded
    rw [hret]
    refine wp_fake (fun _ => ⟨fun _ h => absurd rfl h, fun h => absurd rfl h⟩) fun c' hc' => ?_
    refine ⟨fun h => absurd h (by decide), fun _ => ⟨fun h => absurd rfl h, fun _ _ => ?_⟩⟩
    exact .done le_rfl hc'.returns
  · refine wp_fake (fun _ => ⟨fun _ h => absurd rfl h, fun h => absurd rfl h⟩) fun c' hc' => ?_
    refine ⟨fun h => absurd h (by decide), fun _ => ⟨fun _ _ => ?_, fun h => absurd hret h⟩⟩
    by_cases hneg : (s.c.env.ns3 s.d.asks).ret < 0
    · exact .refused rfl ⟨not_not.mp htcp, hl, hneg⟩
    · exact .done (not_lt.mp hneg) hc'.returns

/-- A refused socket is marked as a listening one nevertheless. -/
theorem handleListen_refused {fd : Fd} {backlog : ℤ} (h : ListenRefused s fd) :
    wp (handleListen fd backlog) (fun res s' => res ≠ .error →
      Returns s.c s'.c [(s.c.env.ns3 s.d.asks).ret] ∧ s'.d.fds = s.d.fds.setListen fd) s := by
  obtain ⟨htcp, hfresh, hneg⟩ := h
  unfold handleListen ns3Listen
  simp only [wp_bind, wp_get, wp_ite, wp_socketsAt, wp_ask, wp_pure, wp_modifyFds, wp_modifyData,
    wp_modifyCtl]
  refine ⟨fun h => absurd htcp h, fun _ => ⟨fun h => absurd h hfresh, fun _ sock hsock =>
    ⟨fun hret => absurd hret hneg.ne, fun hret => ?_⟩⟩⟩
  refine wp_fake (fun _ => ⟨fun _ h => absurd rfl h, fun h => absurd rfl h⟩) fun c' hc' => ?_
  exact ⟨fun h => absurd h (by decide), fun _ => ⟨fun _ _ => ⟨hc'.returns, rfl⟩, fun h => absurd hret h⟩⟩

theorem handle_settled (hnext : ∀ fd, s.d.fds.nextFD = some fd → 0 ≤ fd)
    (hcall : call.onSocket = true) :
    wp (handle call) (fun res s' => res ≠ .error → Settled call s s') s := by
  unfold handle
  simp only [wp_bind, wp_get]
  cases call with
  | socket domain type protocol => exact handleSocket_settled hnext domain type protocol
  | bind fd addr => exact (Keeps.handleBind fd addr).settled
  | listen fd backlog => exact handleListen_settled fd backlog
  | connect fd addr => exact handleConnect_settled fd addr
  | accept fd out => exact handleAccept_settled hnext fd out
  | getsockname fd out => exact (Keeps.handleGetSockName fd out).settled
  | getpeername fd out => exact (Keeps.handleGetPeerName fd out).settled
  | fcntl fd cmd flags => exact handleFcntl_settled fd cmd flags
  | setsockopt fd level optname optlen => exact (Keeps.handleSetSockOpt fd level optname optlen).settled
  | close fd => exact handleClose_settled fd
  | _ => cases hcall

/-! ### Steps -/

/-- The call that `l` dispatches is a `listen` that ns-3 refuses. -/
def refusesListen (s : St) (l : Label) : Bool :=
  match dispatched s l with
  | some (_, .listen fd _) => decide (ListenRefused s fd)
  | _ => false

/-- Where the step dispatches a call on a socket that is not answered yet or only with a negative
result, or gives a negative result in a callback, it leaves the tables as they were. -/
def Atomic (s : St) (l : Label) : Prop :=
  ∀ s' ∈ step s l, ∀ vs, Returns s.c s'.c vs →
    (∀ p call, dispatched s l = some (p, call) → call.onSocket = true → (∀ v ∈ vs, v < 0) →
      s'.d.fds = s.d.fds) ∧
    (dispatched s l = none → (∃ v ∈ vs, v < 0) → s'.d.fds = s.d.fds)

variable {s' : St} {l : Label} {p : Pid}

/-- The state in which the handler is called. -/
theorem Handles.start {s₁ : St} (h : Handles s l p call s₁) :
    s₁.d = s.d ∧ s₁.c.env = s.c.env ∧ s₁.c.log = s.c.log := by
  cases h with
  | mk hl he hc hth =>
      refine ⟨rfl, (Calm.of_caught hc).env, ?_⟩
      cases hc <;> rfl

theorem Processed.settles {s₂ : St} {res : SyscallHandlerStatusCode} (h : Processed p s₂ res s') :
    s'.d = s₂.d ∧ ∀ c vs, Returns c s₂.c vs → Returns c s'.c vs := by
  cases h with
  | resumed _ => exact ⟨rfl, fun _ _ hr => returns_resched hr⟩
  | waits _ => exact ⟨rfl, fun _ _ hr => hr⟩
  | quits _ => exact ⟨rfl, fun _ _ hr => hr⟩

theorem nextFD_nonneg (hp : s.d.fds.Partition) {fd : Fd} (h : s.d.fds.nextFD = some fd) : 0 ≤ fd := by
  have hmem : fd ∈ numbers := by
    rw [← hp.union]
    simp [Fds.nextFD_mem h]
  exact le_trans (by decide) (mem_numbers.mp hmem).1

/-- A step that dispatches a call on a socket. -/
theorem step_settled (hp : s.d.fds.Partition) (h : step s l = some s')
    (hd : dispatched s l = some (p, call)) (hcall : call.onSocket = true) {vs : List ℤ}
    (hvs : Returns s.c s'.c vs) :
    s'.d.fds = s.d.fds ∨ (∃ v ∈ vs, 0 ≤ v) ∨ refusesListen s l = true := by
  obtain ⟨s₁, res, s₂, hh, hrun, hproc⟩ := step_handles h hd
  obtain ⟨hd₁, henv, hlog⟩ := hh.start
  obtain ⟨hd₂, hret⟩ := hproc.settles
  have hnext : ∀ fd, s₁.d.fds.nextFD = some fd → 0 ≤ fd := by
    rw [hd₁]
    exact fun fd hfd => nextFD_nonneg hp hfd
  have hsettled : Settled call s₁ s₂ := (handle_settled hnext hcall).elim hrun hproc.ne_error
  cases hsettled with
  | kept hfds => exact .inl (by rw [hd₂, hfds, hd₁])
  | @done v hv hr =>
      have hr' : Returns s.c s'.c [v] := by
        have hr₁ := hret _ _ hr
        rwa [Returns, hlog] at hr₁
      rw [hvs.unique hr']
      exact .inr (.inl ⟨v, by simp, hv⟩)
  | @refused fd backlog hlisten hrefused =>
      subst hlisten
      refine .inr (.inr ?_)
      rw [refusesListen, hd, decide_eq_true_eq]
      rwa [ListenRefused, hd₁, henv] at hrefused

theorem step_refused (h : step s l = some s') (hr : refusesListen s l = true) :
    ∃ p fd backlog v, dispatched s l = some (p, .listen fd backlog) ∧ v < 0 ∧
      Returns s.c s'.c [v] ∧ s'.d.fds ≠ s.d.fds := by
  obtain ⟨p, fd, backlog, hd, hrefused⟩ : ∃ p fd backlog,
      dispatched s l = some (p, .listen fd backlog) ∧ ListenRefused s fd := by
    unfold refusesListen at hr
    split at hr
    next p fd backlog hd => exact ⟨p, fd, backlog, hd, of_decide_eq_true hr⟩
    next => cases hr
  obtain ⟨s₁, res, s₂, hh, hrun, hproc⟩ := step_handles h hd
  obtain ⟨hd₁, henv, hlog⟩ := hh.start
  obtain ⟨hd₂, hret⟩ := hproc.settles
  have hrefused₁ : ListenRefused s₁ fd := by rwa [ListenRefused, hd₁, henv]
  have hwp := @handleListen_refused s₁ fd backlog hrefused₁
  obtain ⟨hvs, hfds⟩ := hwp.elim hrun hproc.ne_error
  refine ⟨p, fd, backlog, _, hd, hrefused.2.2, ?_, fun heq => ?_⟩
  · have hr₁ := hret _ _ hvs
    rwa [Returns, hlog, hd₁, henv] at hr₁
  · rw [hd₂, hfds, hd₁] at heq
    have hmem : fd ∈ (s.d.fds.setListen fd).isListenTcpSocket := Finset.mem_insert_self _ _
    rw [heq] at hmem
    exact hrefused.2.1 hmem

/-- The results that a callback gives: only that of a refused connection is negative. -/
theorem callback_settled (hp : s.d.fds.Partition) (h : step s l = some s')
    (hd : dispatched s l = none) {vs : List ℤ} (hvs : Returns s.c s'.c vs) :
    s'.d.fds = s.d.fds ∨ ∀ v ∈ vs, 0 ≤ v := by
  have single : ∀ {v}, 0 ≤ v → Returns s.c s'.c [v] → ∀ v ∈ vs, 0 ≤ v := by
    intro v hv hr
    rw [hvs.unique hr]
    simpa using hv
  obtain ⟨-, -, h⟩ := step_cases h
  generalize hl : l.what = what at h
  cases h with
  | @fired i e _ hev _ hf =>
      obtain ⟨t, kind⟩ := e
      have hev : s.c.events[i]? = some ⟨t, kind⟩ := hev
      cases hf with
      | @dispatched p c₁ th res s₂ _ hc hth hh hproc =>
          have hsome := dispatched_eq (resumes_eq hl hev rfl) (hc.catches hth)
          rw [hd] at hsome
          cases hsome
      | removed hq => exact .inl hq.fds
      | _ => exact .inl rfl
  | receivedRead _ _ hq _ => exact .inl hq.fds
  | incomingLost _ _ hq => exact .inl hq.fds
  | incomingStored _ _ _ =>
      have hnil : Returns s.c s.c [] := rfl
      rw [hvs.unique hnil]
      exact .inr (by simp)
  | incomingSelect _ _ _ _ _ hc => exact .inr (single zero_le_one hc.returns)
  | @incomingAccept sock addr rx tx τ fd fd' out d' c₁ _ _ hfd' _ hc =>
      have hfd : s.d.fds.nextFD = some fd' := hfd'
      exact .inr (single (nextFD_nonneg hp hfd) (returns_resched hc.returns))
  | connected _ _ hc => exact .inr (single le_rfl hc.returns)
  | _ => exact .inl rfl

theorem step_atomic (hp : s.d.fds.Partition) (h : step s l = some s') :
    Atomic s l ↔ refusesListen s l = false := by
  constructor
  · intro hat
    by_contra hr
    obtain ⟨p, fd, backlog, v, hd, hneg, hvs, hne⟩ := step_refused h (eq_true_of_ne_false hr)
    exact hne ((hat s' h [v] hvs).1 p _ hd rfl (by simpa using hneg))
  · intro hr s'' hs'' vs hvs
    rw [Option.mem_def, h, Option.some.injEq] at hs''
    subst hs''
    refine ⟨fun p call hd hcall hneg => ?_, fun hd hneg => ?_⟩
    · rcases step_settled hp h hd hcall hvs with hfds | ⟨v, hv, hpos⟩ | hrefused
      · exact hfds
      · exact absurd hpos (not_le.mpr (hneg v hv))
      · rw [hr] at hrefused
        cases hrefused
    · obtain ⟨v, hv, hlt⟩ := hneg
      rcases callback_settled hp h hd hvs with hfds | hpos
      · exact hfds
      · exact absurd (hpos v hv) (not_le.mpr hlt)

/-- In a run, the calls on sockets that fail leave the tables as they were exactly if ns-3 refuses
no `listen`. -/
theorem run_atomic {app : App} {env : Env} {ls : List Label} {s : St}
    (hrun : run (St.initial app env) ls = some s) :
    Runs.Meets step Atomic (St.initial app env) ls ↔
      Runs.Meets step (fun s l => refusesListen s l = false) (St.initial app env) ls :=
  Runs.meets_congr_of (I := fun s => s.d.fds.Partition)
    (fun _ _ _ hp hs => (table_step hs).partition hp) (fun _ _ _ hp hs => step_atomic hp hs)
    Fds.Partition.initial hrun

/-- `listen` twice; the second one fails. -/
def listenTwiceEnv : Env :=
  .script [.entry (.socket AF_INET SOCK_STREAM 0), .exit 0, .entry (.listen 100 1), .exit 0,
    .entry (.listen 100 1), .exit 0] []

theorem run_atomic_twice :
    ∃ s, run (St.initial {} listenTwiceEnv) [⟨0, .fire 0⟩, ⟨0, .fire 0⟩, ⟨0, .fire 0⟩] = some s ∧
      returnValues s.c.log = [-EOPNOTSUPP, 0, 100] ∧
      Runs.Meets step Atomic (St.initial {} listenTwiceEnv)
        [⟨0, .fire 0⟩, ⟨0, .fire 0⟩, ⟨0, .fire 0⟩] := by
  have hrun : (run (St.initial {} listenTwiceEnv) [⟨0, .fire 0⟩, ⟨0, .fire 0⟩, ⟨0, .fire 0⟩]).any
      (fun s => returnValues s.c.log = [-EOPNOTSUPP, 0, 100]) = true := by
    decide +kernel
  obtain ⟨s, hs, hview⟩ := (Option.any_eq_true _ _).mp hrun
  exact ⟨s, hs, of_decide_eq_true hview, (run_atomic hs).mpr (by decide +kernel)⟩

/-- A TCP socket listens, ns-3 answers with -1. -/
def refusedEnv : Env :=
  .script [.entry (.socket AF_INET SOCK_STREAM 0), .exit 0, .entry (.listen 100 1), .exit 0]
    [{}, { ret := -1 }]

/-- The socket is marked as a listening one although `listen` failed. -/
theorem listen_refused_marks :
    ¬ ∀ app env ls s, run (St.initial app env) ls = some s →
      Runs.Meets step Atomic (St.initial app env) ls := by
  intro hall
  have hrun : (run (St.initial {} refusedEnv) [⟨0, .fire 0⟩, ⟨0, .fire 0⟩]).any
      (fun s => returnValues s.c.log = [-1, 100] ∧ s.d.fds.isListenTcpSocket = {100}) = true := by
    decide +kernel
  obtain ⟨s, hs, -⟩ := (Option.any_eq_true _ _).mp hrun
  have hrefuses : ¬ Runs.Meets step (fun s l => refusesListen s l = false)
      (St.initial {} refusedEnv) [⟨0, .fire 0⟩, ⟨0, .fire 0⟩] := by
    decide +kernel
  have hiff := Runs.meets_congr_of (I := fun s => s.d.fds.Partition)
    (fun _ _ _ hp hs => (table_step hs).partition hp) (fun _ _ _ hp hs => step_atomic hp hs)
    Fds.Partition.initial hs
  exact hrefuses (hiff.mp (hall _ _ _ s hs))

end Grail
