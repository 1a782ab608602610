import Grail.HandlerSpecs

/-! # What the callbacks do

Each callback completes the call of a thread and reschedules the thread that installed it; run
on behalf of its task, that is `Finish` (or `Reads`), up to the stores it makes. -/

namespace Grail

open Programs

/-! ### Completing a call on behalf of a task -/

theorem Completes.task {p : Pid} {v : ℤ} {c c' : Ctl} (h : Completes p v c c') :
    c'.task = c.task := by
  cases h <;> rfl

/-- In a state whose task is `τ`, completing and rescheduling is `Finish τ`. -/
theorem Finish.of_completes {p : Pid} {v : ℤ} {c c₁ : Ctl} (h : Completes p v c c₁) :
    Finish c.task p v c (c₁.resched c.task.thread) := by
  refine ⟨c₁, h, ?_⟩
  rw [← h.task]
  rfl

theorem Reads.of_vanishes {c c₁ : Ctl} (h : Vanishes c.task.thread c c₁) :
    Reads c.task c (c₁.resched c.task.thread) := by
  have ht : c₁.task = c.task := by cases h; rfl
  have h' : Reads c.task c ((c₁.resched c.task.thread).onTask c.task) := Reads.vanish h
  rw [← ht] at h' ⊢
  exact h'

/-- A completion does not depend on the task the emulator worked on before. -/
theorem Reads.onTask {τ τ' : Task} {c c' : Ctl} (h : Reads τ (c.onTask τ') c') :
    Reads τ c (c'.onTask c.task) := by
  cases h with
  | finish h =>
      obtain ⟨c₁, h₁, rfl⟩ := h
      exact .finish ⟨c₁, h₁, rfl⟩
  | @vanish c₁ h =>
      have h' : Reads τ c ((c₁.resched τ.thread).onTask c.task) := .vanish h
      exact h'

variable {s : St}

@[simp] theorem wp_onBehalf (τ : Task) (m : M Unit) (Q : Unit → St → Prop) (s : St) :
    wp (onBehalf τ m) Q s ↔
      wp m (fun _ s' => Q () { s' with c := s'.c.onTask s.c.task })
        { s with c := s.c.onTask τ } := by
  unfold onBehalf
  simp only [wp_bind, wp_get, wp_modifyCtl]

theorem wp_complete {p q : Pid} {v : ℤ} {res : SyscallHandlerStatusCode} (hr : res.resumes)
    {Q : Unit → St → Prop} (h : ∀ c₁, Completes p v s.c c₁ → Q () { s with c := c₁.resched q }) :
    wp (fakeAt p v res >>= fun res => processStatusCode res q) Q s := by
  rw [wp_bind]
  refine wp_fakeAt (fun c₁ h₁ => ?_) fun c₁ _ => by simp
  rcases hr with rfl | rfl
  · exact (wp_processStatusCode_success _ _ _).mpr (h c₁ h₁)
  · exact (wp_processStatusCode_failure _ _ _).mpr (h c₁ h₁)

/-- The same on behalf of `τ`. -/
theorem wp_complete_onBehalf {τ : Task} {p : Pid} {v : ℤ} {res : SyscallHandlerStatusCode}
    (hr : res.resumes) {Q : Unit → St → Prop}
    (h : ∀ c', Finish τ p v s.c c' → Q () { s with c := c' }) :
    wp (onBehalf τ (fakeAt p v res >>= fun res => processStatusCode res τ.thread)) Q s := by
  rw [wp_onBehalf]
  exact wp_complete hr fun c₁ h₁ => h _ ⟨c₁, h₁, rfl⟩

/-! ### `read`, `recvfrom` -/

/-- The end of both closures: the answer, the rescheduling, the callback is removed. -/
theorem wp_recvReply {sock : SockId} {v : ℤ} {Q : Unit → St → Prop}
    (h : ∀ c', Reads s.c.task s.c c' → Q () { s with c := c'.setRecvCallback sock none }) :
    wp (fakeAt s.c.task.thread v .success) (fun _ s₁ =>
      wp (processStatusCode .success s.c.task.thread)
        (fun _ s₂ => Q () { s₂ with c := s₂.c.setRecvCallback sock none }) s₁) s := by
  refine wp_fakeAt (fun c₁ h₁ => ?_) fun c₁ h₁ => ?_
  · exact (wp_processStatusCode_success _ _ _).mpr (h _ (.finish (Finish.of_completes h₁)))
  · exact (wp_processStatusCode_success _ _ _).mpr (h _ (Reads.of_vanishes h₁))

theorem wp_ns3Recv {sock : SockId} {Q : Ns3Answer → St → Prop}
    (h : ∀ a : Ns3Answer, Q a { s with d := (s.d.setAsks (s.d.asks + 1)).setRx sock a.rx }) :
    wp (ns3Recv sock) Q s := by
  unfold ns3Recv
  simp only [wp_bind, wp_ask, wp_modifyData, wp_pure]
  exact h _

theorem wp_readCallback {buf : Ptr} {count : ℕ} {sock : SockId} {Q : Unit → St → Prop}
    (h : ∀ rx d' c', Quiet (s.d.setRx sock rx) d' → Reads s.c.task s.c c' →
      Q () ⟨c'.setRecvCallback sock none, d'⟩) :
    wp (readCallback s.c.task buf count sock) Q s := by
  unfold readCallback
  rw [wp_bind]
  refine wp_ns3Recv fun a => ?_
  have hq : Quiet (s.d.setRx sock a.rx) ((s.d.setAsks (s.d.asks + 1)).setRx sock a.rx) :=
    (Quiet.refl _).asked _
  simp only [wp_bind, wp_ite, wp_modifyCtl]
  refine ⟨fun _ => ?_, fun _ => ?_⟩
  · refine wp_memcpyToTracee fun st => ?_
    exact wp_recvReply fun c' hc' => h a.rx _ c' (hq.stores st) hc'
  · exact wp_recvReply fun c' hc' => h a.rx _ c' hq hc'

theorem wp_recvfromCallback {buffer : Ptr} {length : ℕ} {out : SockaddrOut} {sock : SockId}
    {Q : Unit → St → Prop}
    (h : ∀ rx d' c', Quiet (s.d.setRx sock rx) d' → Reads s.c.task s.c c' →
      Q () ⟨c'.setRecvCallback sock none, d'⟩) :
    wp (recvfromCallback s.c.task buffer length out sock) Q s := by
  unfold recvfromCallback
  rw [wp_bind]
  refine wp_ns3Recv fun a => ?_
  have hq : Quiet (s.d.setRx sock a.rx) ((s.d.setAsks (s.d.asks + 1)).setRx sock a.rx) :=
    (Quiet.refl _).asked _
  rw [wp_bind]
  refine wp_setBsdAddress fun b st => ?_
  cases b with
  | false => simp
  | true =>
      simp only [Bool.not_true, Bool.false_eq_true, if_false, wp_bind, wp_ite, wp_modifyCtl]
      refine ⟨fun _ => ?_, fun _ => ?_⟩
      · refine wp_memcpyToTracee fun st' => ?_
        exact wp_recvReply fun c' hc' => h a.rx _ c' ((hq.stores st).stores st') hc'
      · exact wp_recvReply fun c' hc' => h a.rx _ c' (hq.stores st) hc'

/-- The closure of a blocked `read`, invoked by the socket. -/
theorem wp_read_onBehalf {τ : Task} {buf : Ptr} {count : ℕ} {sock : SockId} {Q : Unit → St → Prop}
    (h : ∀ rx d' c', Quiet (s.d.setRx sock rx) d' → Reads τ s.c c' →
      Q () ⟨c'.setRecvCallback sock none, d'⟩) :
    wp (onBehalf τ (readCallback τ buf count sock)) Q s := by
  rw [wp_onBehalf]
  have H := @wp_readCallback { s with c := s.c.onTask τ } buf count sock
    (fun _ s' => Q () { s' with c := s'.c.onTask s.c.task })
  exact H fun rx d' c' hd' hc' => h rx d' (c'.onTask s.c.task) hd' hc'.onTask

theorem wp_recvfrom_onBehalf {τ : Task} {buffer : Ptr} {length : ℕ} {out : SockaddrOut}
    {sock : SockId} {Q : Unit → St → Prop}
    (h : ∀ rx d' c', Quiet (s.d.setRx sock rx) d' → Reads τ s.c c' →
      Q () ⟨c'.setRecvCallback sock none, d'⟩) :
    wp (onBehalf τ (recvfromCallback τ buffer length out sock)) Q s := by
  rw [wp_onBehalf]
  have H := @wp_recvfromCallback { s with c := s.c.onTask τ } buffer length out sock
    (fun _ s' => Q () { s' with c := s'.c.onTask s.c.task })
  exact H fun rx d' c' hd' hc' => h rx d' (c'.onTask s.c.task) hd' hc'.onTask

/-! ### `select` -/

theorem wp_selectReady {cl : SelectClosure} {p : Pid} {r w : FdSet} {Q : Unit → St → Prop}
    (h : ∀ c₁, Completes p 1 s.c c₁ →
      Q () ⟨c₁.resched cl.task.thread, s.d.storeSel cl r w⟩) :
    wp (selectReady cl p r w) Q s := by
  unfold selectReady
  rw [wp_bind]
  refine wp_storeFdSets ?_
  exact wp_complete resumes_success h

/-- The closure of a `select` that has not been answered claims the call and answers it. -/
theorem wp_selectRecvCallback {cl : SelectClosure} {sock : SockId} {Q : Unit → St → Prop}
    (hs : s.c.alreadyHandled cl.task.act = true → Q () s)
    (h : ∀ c', s.c.alreadyHandled cl.task.act = false →
      Finish cl.task s.c.pid 1 (s.c.claim cl) c' →
      Q () ⟨c'.setRecvCallback sock none, s.d.storeSel cl {cl.fdnr} ∅⟩) :
    wp (onBehalf cl.task (selectRecvCallback cl sock)) Q s := by
  rw [wp_onBehalf]
  unfold selectRecvCallback claimSelect
  simp only [wp_bind, wp_get, wp_ite, wp_pure, wp_modifyCtl]
  refine ⟨hs, fun hn => wp_selectReady fun c₁ h₁ => ?_⟩
  exact h _ (eq_false_of_ne_true hn) ⟨c₁, h₁, rfl⟩

theorem wp_selectSendCallback {cl : SelectClosure} {sock : SockId} {Q : Unit → St → Prop}
    (hs : s.c.alreadyHandled cl.task.act = true → Q () s)
    (h : ∀ c', s.c.alreadyHandled cl.task.act = false →
      Finish cl.task cl.task.thread 1 (s.c.claim cl) c' →
      Q () ⟨c'.setSendCallback sock none, s.d.storeSel cl ∅ {cl.fdnr}⟩) :
    wp (onBehalf cl.task (selectSendCallback cl sock)) Q s := by
  rw [wp_onBehalf]
  unfold selectSendCallback claimSelect
  simp only [wp_bind, wp_get, wp_ite, wp_pure, wp_modifyCtl]
  refine ⟨hs, fun hn => wp_selectReady fun c₁ h₁ => ?_⟩
  exact h _ (eq_false_of_ne_true hn) ⟨c₁, h₁, rfl⟩

theorem wp_selectNetlinkCallback {cl : SelectClosure} {nl : NlId} {Q : Unit → St → Prop}
    (hs : s.c.alreadyHandled cl.task.act = true → Q () s)
    (h : ∀ c', s.c.alreadyHandled cl.task.act = false →
      Finish cl.task cl.task.thread 1 (s.c.claim cl) c' →
      Q () ⟨c'.setNlCallback nl none, s.d.storeSel cl {cl.fdnr} ∅⟩) :
    wp (onBehalf cl.task (selectNetlinkCallback cl nl)) Q s := by
  rw [wp_onBehalf]
  unfold selectNetlinkCallback claimSelect
  simp only [wp_bind, wp_get, wp_ite, wp_pure, wp_modifyCtl]
  refine ⟨hs, fun hn => wp_selectReady fun c₁ h₁ => ?_⟩
  exact h _ (eq_false_of_ne_true hn) ⟨c₁, h₁, rfl⟩

theorem setAcceptCallback_again (c : Ctl) (sock : SockId) (cb cb' : Option AcceptCallback) :
    (c.setAcceptCallback sock cb).setAcceptCallback sock cb' = c.setAcceptCallback sock cb' := by
  simp [Ctl.setAcceptCallback]

theorem wp_selectAcceptCallback {cl : SelectClosure} {conn : SockId} {addr : Option (ℕ × ℕ)}
    {Q : Unit → St → Prop} (hs : s.c.alreadyHandled cl.task.act = true → Q () s)
    (h : ∀ sock' c', s.c.alreadyHandled cl.task.act = false →
      s.d.fds.sockets.find cl.fdnr = some sock' →
      Finish cl.task cl.task.thread 1 ((s.c.claim cl).setAcceptCallback sock' none) c' →
      Q () ⟨c', (s.d.withFds (s.d.fds.fakeAccept cl.fdnr (conn, addr))).storeSel cl {cl.fdnr} ∅⟩) :
    wp (onBehalf cl.task (selectAcceptCallback cl conn addr)) Q s := by
  rw [wp_onBehalf]
  unfold selectAcceptCallback claimSelect
  simp only [wp_bind, wp_get, wp_ite, wp_pure, wp_modifyCtl, wp_modifyFds, wp_socketsAt]
  refine ⟨hs, fun hn sock' hsock' => wp_selectReady fun c₁ h₁ => ?_⟩
  rw [setAcceptCallback_again] at h₁
  exact h sock' _ (eq_false_of_ne_true hn) hsock' ⟨c₁, h₁, rfl⟩

theorem wp_selectTimeout {τ : Task} {Q : Unit → St → Prop}
    (hs : s.c.alreadyHandled τ.act = true → Q () s)
    (h : ∀ c', s.c.alreadyHandled τ.act = false →
      Finish τ τ.thread 0 (s.c.setHandled τ.act) c' → Q () { s with c := c' }) :
    wp (onBehalf τ (selectTimeout τ)) Q s := by
  rw [wp_onBehalf]
  unfold selectTimeout
  simp only [wp_bind, wp_get, wp_ite, wp_pure, wp_modifyCtl]
  refine ⟨hs, fun hn => ?_⟩
  rw [← wp_bind]
  exact wp_complete resumes_success fun c₁ h₁ => h _ (eq_false_of_ne_true hn) ⟨c₁, h₁, rfl⟩

/-! ### `accept`, `connect` -/

@[simp] theorem St.returning_c (sock : Option SockId) (conn : SockId) (s : St) :
    (s.returning sock conn).c = s.c := by
  unfold St.returning
  cases sock with
  | none => rfl
  | some sock => simp only [apply_ite St.c, ite_self]

theorem wp_acceptCallback {τ : Task} {out : SockaddrOut} {sock conn : SockId}
    {addr : Option (ℕ × ℕ)} {Q : Unit → St → Prop}
    (h : ∀ fd' d' c₁, s.d.fds.nextFD = some fd' →
      Quiet (s.d.withFds ((s.d.fds.eraseAvailable fd').addAccepted fd' conn)) d' →
      Completes s.c.pid fd' (s.c.onTask τ) c₁ →
      Q () ⟨(c₁.resched τ.thread).onTask s.c.task, (St.returning (some sock) conn ⟨c₁, d'⟩).d⟩) :
    wp (onBehalf τ (acceptCallback τ out sock conn addr)) Q s := by
  rw [wp_onBehalf]
  unfold acceptCallback
  rw [wp_bind]
  refine wp_setBsdAddress fun b st => ?_
  simp only [wp_bind, wp_getNextFD, wp_modifyFds, wp_get, wp_noteReturned]
  intro fd' hfd'
  have hq : Quiet (s.d.withFds ((s.d.fds.eraseAvailable fd').addAccepted fd' conn))
      (((s.d.setStores st).withFds (s.d.fds.eraseAvailable fd')).withFds
        ((s.d.fds.eraseAvailable fd').addAccepted fd' conn)) := (Quiet.refl _).stores st
  refine wp_fakeAt (fun c₁ h₁ => ?_) fun c₁ _ => by simp
  rw [wp_processStatusCode_success]
  rw [St.returning_c]
  exact h fd' _ c₁ hfd' hq h₁

theorem wp_connectSucceeded {cl : ConnectCallback} {Q : Unit → St → Prop}
    (h : ∀ c', Finish cl.task cl.task.thread 0 s.c c' →
      Q () ⟨c', s.d.withFds (s.d.fds.setConnected cl.sockfd)⟩) :
    wp (onBehalf cl.task (connectSucceeded cl)) Q s := by
  rw [wp_onBehalf]
  unfold connectSucceeded
  rw [wp_bind, wp_modifyFds]
  exact wp_complete resumes_success fun c₁ h₁ => h _ ⟨c₁, h₁, rfl⟩

end Grail
