import Grail.InnerFailures

/-! # Steps that fail inside the emulator

A step that resumes a thread fails inside the emulator exactly if the call that it dispatches is
one of `Breaks`.  Among the callbacks, that of `select` on a listening socket fails if its
descriptor has been closed, and that of a blocking `accept` if no descriptor is available.
`StepBreaks` is the list of all of these steps (`emulate_breaks`), so a run is free of such
failures exactly if it avoids them (`run_robust`). -/

namespace Grail

open Programs

variable {s : St}

/-! ### Callbacks that can fail -/

theorem selectAcceptCallback_breaks {cl : SelectClosure} {newSock : SockId}
    {newAddr : Option (ℕ × ℕ)} :
    Fails Crash.IsInner (selectAcceptCallback cl newSock newAddr) s ↔
      s.c.alreadyHandled cl.task.act = false ∧ s.d.fds.sockets.find cl.fdnr = none := by
  have hrest : ∀ sock, Robust (do
      modifyCtl (·.setAcceptCallback sock (some (.fakeAccept cl.fdnr)))
      modifyCtl (·.setAcceptCallback sock none)
      selectReady cl cl.task.thread {cl.fdnr} ∅) := fun sock =>
    (modifyCtl_robust _).bind fun _ => (modifyCtl_robust _).bind fun _ =>
      selectReady_robust _ _ _ _
  unfold selectAcceptCallback
  rw [fails_get_bind]
  cases hh : s.c.alreadyHandled cl.task.act with
  | true => simp
  | false =>
      let s₁ : St := ⟨s.c.claim cl, s.d.withFds (s.d.fds.fakeAccept cl.fdnr (newSock, newAddr))⟩
      have hclaim : (claimSelect cl).run s = .ok ((), ⟨s.c.claim cl, s.d⟩) := rfl
      have hwait : (modifyFds (·.fakeAccept cl.fdnr (newSock, newAddr)) : M Unit).run
          ⟨s.c.claim cl, s.d⟩ = .ok ((), s₁) := rfl
      have hlookup := @breaks_socketsAt_robust s₁ cl.fdnr _ _ hrest
      simp only [Bool.false_eq_true, if_false, true_and]
      rw [fails_bind_of_run hclaim, fails_bind_of_run hwait, hlookup]
      exact Iff.rfl

/-- If the address of the peer cannot be stored, `MemcpyToTracee` has ended the emulator before. -/
theorem acceptCallback_breaks {task : Task} {out : SockaddrOut} {sock newSock : SockId}
    {newAddr : Option (ℕ × ℕ)} :
    Fails Crash.IsInner (acceptCallback task out sock newSock newAddr) s ↔
      (out.addr = 0 ∨ newAddr = none ∨ (s.c.threads s.c.pid).isSome = true) ∧
        s.d.fds.nextFD = none := by
  have hrest : ∀ fd, Robust (do
      modifyFds (·.addAccepted fd newSock)
      let res ← fakeAt (← get).c.pid fd .success
      noteReturned (some sock) newSock
      processStatusCode res task.thread) := fun fd =>
    (modifyFds_robust _).bind fun _ => Never.get.bind fun _ => fakeAt_robust.bind fun _ =>
      (noteReturned_robust _ _).bind fun _ => processStatusCode_robust
  unfold acceptCallback
  by_cases h : out.addr = 0 ∨ newAddr = none ∨ (s.c.threads s.c.pid).isSome = true
  · obtain ⟨b, s₁, hrun, hfds⟩ := run_setBsdAddress h
    rw [fails_bind_of_run hrun, breaks_getNextFD hrest, hfds]
    exact (and_iff_right h).symm
  · refine iff_of_false ?_ fun hc => h hc.1
    simp only [not_or] at h
    obtain ⟨hout, haddr, hth⟩ := h
    have hth : s.c.threads s.c.pid = none := by simpa using hth
    obtain ⟨a, rfl⟩ := Option.ne_none_iff_exists'.mp haddr
    have hthrow : (setBsdAddress (some a) out).run s = .error .exit1 := by
      simp only [setBsdAddress, if_neg hout, StateT.run_bind, StateT.run_get, pure_bind,
        memcpyToTracee, hth]
      rfl
    rw [fails_bind_of_error hthrow]
    decide

/-! ### The call that is dispatched -/

theorem dispatchSyscall_breaks {p : Pid} {th : Tracee} (hp : s.c.pid = p)
    (hth : s.c.threads p = some th) :
    Fails Crash.IsInner (dispatchSyscall p) s ↔ Breaks s.c.app s.d th.origRax := by
  unfold dispatchSyscall
  rw [fails_get_bind, hth]
  dsimp only
  have hdispatch : (modifyCtl (·.dispatch p th) : M Unit).run s = .ok ((), ⟨s.c.dispatch p th, s.d⟩) :=
    rfl
  rw [fails_bind_of_run hdispatch, fails_bind_never fun _ => processStatusCode_robust]
  have hsome : (s.c.threads s.c.pid).isSome = true := by rw [hp, hth]; rfl
  exact handle_breaks (s := ⟨s.c.dispatch p th, s.d⟩) hsome th.origRax

/-- The wait of a thread whose next call is caught reaches a stop. -/
theorem run_wait_of_catches {p : Pid} {call : Syscall} (h : s.c.catches p = some call) :
    ∃ c₁, (waitForSyscall false p).run s = .ok (true, ⟨c₁, s.d⟩) := by
  unfold Ctl.catches at h
  simp only [waitForSyscall, StateT.run_bind, StateT.run_get, pure_bind]
  cases hth : s.c.threads p with
  | none => simp [hth] at h
  | some th =>
      cases hw : s.c.env.wait s.c.waits with
      | never => simp [hth, hw] at h
      | exited => simp [hth, hw] at h
      | stopped next retval =>
          simp only [hth, hw] at h
          cases hp : th.phase with
          | entry =>
              have hx : th.origRax ≠ .exit := by
                intro hx
                simp [hp, hx] at h
              refine ⟨s.c.toExit p th retval false, ?_⟩
              simp only [hp, hx, and_false, if_false]
              rfl
          | exit =>
              refine ⟨s.c.toEntry p next, ?_⟩
              simp only [hp, reduceCtorEq, false_and, if_false]
              rfl

theorem handleSyscallBefore_breaks {p : Pid} :
    Fails Crash.IsInner (handleSyscallBefore p) s ↔
      ∃ call, s.c.catches p = some call ∧ Breaks s.c.app s.d call := by
  unfold handleSyscallBefore
  have hset : (modifyCtl (·.setPid p) : M Unit).run s = .ok ((), ⟨s.c.setPid p, s.d⟩) := rfl
  rw [fails_bind_of_run hset]
  -- what is caught, and by which state it is handled
  have hcaught : wp (waitForSyscall false p) (fun b s' =>
      b = true → Caught p (s.c.setPid p) s'.c ∧ s'.d = s.d ∧ ∃ th, s'.c.threads p = some th)
      ⟨s.c.setPid p, s.d⟩ :=
    wp_waitForSyscall (fun _ _ _ h => absurd h Bool.false_ne_true)
      (fun _ _ _ hth hp hx hw _ => ⟨.exit hth hp hx hw, rfl, _, Function.update_self ..⟩)
      (fun _ _ _ hth hp hw _ => ⟨.entry hth hp hw, rfl, _, Function.update_self ..⟩)
  have hdispatch : ∀ s₁, (waitForSyscall false p).run ⟨s.c.setPid p, s.d⟩ = .ok (true, s₁) →
      ∃ call, s.c.catches p = some call ∧
        (Fails Crash.IsInner (dispatchSyscall p) s₁ ↔ Breaks s.c.app s.d call) := by
    intro s₁ hrun
    obtain ⟨hc, hd, th, hth⟩ := hcaught.elim hrun rfl
    have hcalm := Calm.of_caught hc
    refine ⟨th.origRax, hc.catches hth, ?_⟩
    have hpid : s₁.c.pid = p := hcalm.pid
    rw [dispatchSyscall_breaks hpid hth, hd, hcalm.app]
    exact Iff.rfl
  rw [fails_bind]
  constructor
  · rintro (h | ⟨b, s₁, hrun, h⟩)
    · exact absurd h (waitForSyscall_robust _ _ _)
    · cases b with
      | false => simp at h
      | true =>
          obtain ⟨call, hcall, hiff⟩ := hdispatch s₁ hrun
          exact ⟨call, hcall, hiff.mp (by simpa using h)⟩
  · rintro ⟨call, hcall, hb⟩
    obtain ⟨c₁, hrun⟩ := run_wait_of_catches (s := ⟨s.c.setPid p, s.d⟩) hcall
    obtain ⟨call', hcall', hiff⟩ := hdispatch _ hrun
    rw [hcall, Option.some.injEq] at hcall'
    subst hcall'
    exact .inr ⟨true, _, hrun, by simpa using hiff.mpr hb⟩

/-! ### Steps -/

/-- The events that fail inside the emulator. -/
inductive EventBreaks (s : St) (l : Label) : Prop
  | dispatch {i : ℕ} {p : Pid} {call : Syscall} : l.what = .fire i →
      s.c.events[i]? = some ⟨l.time, .handleSyscallBefore p⟩ → s.c.catches p = some call →
      Breaks s.c.app s.d call → EventBreaks s l
  | select {sock : SockId} {addr : Option (ℕ × ℕ)} {cl : SelectClosure} :
      l.what = .incoming sock addr → s.d.listening sock = true →
      s.c.acceptCallback sock = some (.select cl) → s.c.alreadyHandled cl.task.act = false →
      s.d.fds.sockets.find cl.fdnr = none → EventBreaks s l
  | accept {sock : SockId} {addr : Option (ℕ × ℕ)} {task : Task} {fd : Fd} {out : SockaddrOut} :
      l.what = .incoming sock addr → s.d.listening sock = true →
      s.c.acceptCallback sock = some (.accept task fd out) →
      out.addr = 0 ∨ addr = none ∨ (s.c.threads s.c.pid).isSome = true →
      s.d.fds.nextFD = none → EventBreaks s l

/-- The steps that fail inside the emulator: `l` is due, and it is one of these events. -/
def StepBreaks (s : St) (l : Label) : Prop :=
  (s.c.now ≤ l.time ∧ ∀ e ∈ s.c.events, l.time ≤ e.time) ∧ EventBreaks s l

theorem breaks_onBehalf {task : Task} {m : M Unit} :
    Fails Crash.IsInner (onBehalf task m) s ↔ Fails Crash.IsInner m ⟨s.c.onTask task, s.d⟩ := by
  unfold onBehalf
  have htask : (modifyCtl (·.onTask task) : M Unit).run s = .ok ((), ⟨s.c.onTask task, s.d⟩) := rfl
  rw [fails_get_bind, fails_bind_of_run htask, fails_bind_never fun _ => modifyCtl_robust _]

theorem runEvent_breaks {kind : EventKind} : Fails Crash.IsInner (runEvent kind) s ↔
    ∃ p call, kind = .handleSyscallBefore p ∧ s.c.catches p = some call ∧
      Breaks s.c.app s.d call := by
  cases kind with
  | handleSyscallBefore p =>
      refine handleSyscallBefore_breaks.trans ⟨?_, ?_⟩
      · rintro ⟨call, hcall, hb⟩
        exact ⟨p, call, rfl, hcall, hb⟩
      · rintro ⟨_, call, hp, hcall, hb⟩
        cases hp
        exact ⟨call, hcall, hb⟩
  | selectTimeout task =>
      exact iff_of_false (onBehalf_robust (selectTimeout_robust task) task s) (by simp)
  | nanosleep task =>
      exact iff_of_false (onBehalf_robust (nanosleepDone_robust task) task s) (by simp)
  | removeClosedSocket sock =>
      exact iff_of_false (ask_robust.bind (fun _ => Never.pure _) s) (by simp)

theorem fire_breaks {i time : ℕ} : Fails Crash.IsInner (fire i time) s ↔
    ∃ p call, s.c.events[i]? = some ⟨time, .handleSyscallBefore p⟩ ∧
      s.c.catches p = some call ∧ Breaks s.c.app s.d call := by
  have hthrow : ¬ Crash.impossible.IsInner := by decide
  unfold fire
  rw [fails_get_bind]
  cases he : s.c.events[i]? with
  | none => simp [hthrow]
  | some e =>
      obtain ⟨t, kind⟩ := e
      have hremove : (modifyCtl (·.removeEvent i) : M Unit).run s =
          .ok ((), ⟨s.c.removeEvent i, s.d⟩) := rfl
      dsimp only
      rw [fails_ite, fails_throw, fails_bind_of_run hremove, runEvent_breaks]
      constructor
      · rintro (⟨-, h⟩ | ⟨ht, p, call, rfl, hcall, hb⟩)
        · exact absurd h hthrow
        · rw [not_not] at ht
          subst ht
          exact ⟨p, call, rfl, hcall, hb⟩
      · rintro ⟨p, call, h, hcall, hb⟩
        cases h
        exact .inr ⟨not_not.mpr rfl, p, call, rfl, hcall, hb⟩

theorem received_robust (sock : SockId) (rx : ℕ) : Robust (received sock rx) := by
  unfold received
  refine Never.ite (fun _ => Never.throw (by decide)) fun _ => ?_
  refine (modifyData_robust _).bind fun _ => Never.get.bind fun s => ?_
  rcases s.c.recvCallback sock with _ | cb
  · exact Never.pure _
  · cases cb with
    | read task buf count => exact onBehalf_robust (readCallback_robust _ _ _ _) task
    | recvfrom task buffer length flags out =>
        exact onBehalf_robust (recvfromCallback_robust _ _ _ _ _) task
    | select cl => exact onBehalf_robust (selectRecvCallback_robust cl sock) cl.task

theorem sendable_robust (sock : SockId) (tx : ℕ) : Robust (sendable sock tx) := by
  unfold sendable
  refine Never.ite (fun _ => Never.throw (by decide)) fun _ => ?_
  refine (modifyData_robust _).bind fun _ => Never.get.bind fun s => ?_
  rcases s.c.sendCallback sock with _ | cb
  · exact Never.pure _
  · cases cb with
    | write task => exact Never.pure _
    | select cl => exact onBehalf_robust (selectSendCallback_robust cl sock) cl.task

theorem connectEnds_robust {sock : SockId} {callback : ConnectCallback → M Unit}
    (h : ∀ cl, Robust (callback cl)) : Robust (connectEnds sock callback) := by
  unfold connectEnds
  refine Never.get.bind fun s => Never.ite (fun _ => Never.throw (by decide)) fun _ => ?_
  refine (modifyCtl_robust _).bind fun _ => ?_
  rcases s.c.connectCallback sock with _ | cl
  · exact Never.pure _
  · exact onBehalf_robust (h cl) cl.task

theorem incoming_breaks {sock : SockId} {addr : Option (ℕ × ℕ)} :
    Fails Crash.IsInner (incoming sock addr) s ↔ s.d.listening sock = true ∧
      ((∃ cl, s.c.acceptCallback sock = some (.select cl) ∧
          s.c.alreadyHandled cl.task.act = false ∧ s.d.fds.sockets.find cl.fdnr = none) ∨
        ∃ task fd out, s.c.acceptCallback sock = some (.accept task fd out) ∧
          (out.addr = 0 ∨ addr = none ∨ (s.c.threads s.c.pid).isSome = true) ∧
          s.d.fds.nextFD = none) := by
  have hthrow : ¬ Crash.impossible.IsInner := by decide
  unfold incoming
  rw [fails_get_bind]
  cases hl : s.d.listening sock with
  | false => simp [hthrow]
  | true =>
      let d₁ := s.d.setAsks (s.d.asks + 1)
      obtain ⟨newSock, d₂, hnew, hfds⟩ : ∃ newSock d₂, (newSocket true (s.c.env.ns3 s.d.asks).rx
          (s.c.env.ns3 s.d.asks).tx).run ⟨s.c, d₁⟩ = .ok (newSock, ⟨s.c, d₂⟩) ∧ d₂.fds = s.d.fds :=
        ⟨_, _, rfl, rfl⟩
      have hask : ask.run s = .ok (s.c.env.ns3 s.d.asks, ⟨s.c, d₁⟩) := rfl
      have harrive : (modifyData (·.arrive sock newSock) : M Unit).run ⟨s.c, d₂⟩ =
          .ok ((), ⟨s.c, d₂.arrive sock newSock⟩) := rfl
      simp only [Bool.not_true, Bool.false_eq_true, if_false, true_and]
      rw [fails_bind_of_run hask, fails_bind_of_run hnew, fails_bind_of_run harrive, fails_get_bind]
      dsimp only
      cases s.c.acceptCallback sock with
      | none => simp
      | some cb =>
          cases cb with
          | fakeAccept fd => exact iff_of_false (modifyFds_robust _ _) (by simp)
          | select cl =>
              dsimp only
              rw [breaks_onBehalf, selectAcceptCallback_breaks, ← hfds]
              constructor
              · intro h
                exact .inl ⟨cl, rfl, h⟩
              · rintro (⟨_, he, h⟩ | ⟨_, _, _, he, -⟩)
                · cases he
                  exact h
                · cases he
          | accept task fd out =>
              dsimp only
              rw [breaks_onBehalf, acceptCallback_breaks, ← hfds]
              constructor
              · intro h
                exact .inr ⟨task, fd, out, rfl, h⟩
              · rintro (⟨_, he, -⟩ | ⟨_, _, _, he, h⟩)
                · cases he
                · cases he
                  exact h

theorem occur_breaks {l : Label} : Fails Crash.IsInner (occur l) (s.moveTo l) ↔ EventBreaks s l := by
  obtain ⟨t, what⟩ := l
  have hnone : (∀ i, what ≠ .fire i) → (∀ sock addr, what ≠ .incoming sock addr) →
      ¬ EventBreaks s ⟨t, what⟩ := by
    intro hf hi h
    cases h with
    | dispatch hw => exact hf _ hw
    | select hw => exact hi _ _ hw
    | accept hw => exact hi _ _ hw
  cases what with
  | fire i =>
      refine fire_breaks.trans ⟨?_, ?_⟩
      · rintro ⟨p, call, he, hcall, hb⟩
        exact .dispatch rfl he hcall hb
      · intro h
        cases h with
        | dispatch hw he hcall hb =>
            cases hw
            exact ⟨_, _, he, hcall, hb⟩
        | select hw => cases hw
        | accept hw => cases hw
  | incoming sock addr =>
      refine incoming_breaks.trans ⟨?_, ?_⟩
      · rintro ⟨hl, ⟨cl, hcb, hh, hnone⟩ | ⟨task, fd, out, hcb, hout, hnext⟩⟩
        · exact .select rfl hl hcb hh hnone
        · exact .accept rfl hl hcb hout hnext
      · intro h
        cases h with
        | dispatch hw => cases hw
        | select hw hl hcb hh hnone =>
            cases hw
            exact ⟨hl, .inl ⟨_, hcb, hh, hnone⟩⟩
        | accept hw hl hcb hout hnext =>
            cases hw
            exact ⟨hl, .inr ⟨_, _, _, hcb, hout, hnext⟩⟩
  | received sock rx => exact iff_of_false (received_robust sock rx _) (hnone nofun nofun)
  | sendable sock tx => exact iff_of_false (sendable_robust sock tx _) (hnone nofun nofun)
  | connected sock =>
      exact iff_of_false (connectEnds_robust connectSucceeded_robust _) (hnone nofun nofun)
  | refused sock =>
      exact iff_of_false (connectEnds_robust connectFailed_robust _) (hnone nofun nofun)

/-- A step fails inside the emulator exactly if it is one of `StepBreaks`. -/
theorem emulate_breaks {l : Label} : Fails Crash.IsInner (emulate l) s ↔ StepBreaks s l := by
  have hthrow : ¬ Crash.impossible.IsInner := by decide
  unfold emulate advance StepBreaks
  simp only [fails_bind_assoc, fails_get_bind]
  by_cases hl : s.c.now ≤ l.time ∧ ∀ e ∈ s.c.events, l.time ≤ e.time
  · have hmove : (modifyCtl (·.setNow l.time) : M Unit).run s = .ok ((), s.moveTo l) := rfl
    rw [if_pos hl, fails_bind_of_run hmove, occur_breaks]
    exact (and_iff_right hl).symm
  · rw [if_neg hl, fails_throw_bind]
    exact iff_of_false hthrow fun h => hl h.1

/-- A run is free of failures inside the emulator exactly if none of its steps is one of
`StepBreaks`.  The emulator also refuses calls, by `SYSC_ERROR` or an assertion, and so ends the
simulation: `bind` and `connect` with a family other than `AF_INET`, `bind` and `sendto` on a random
descriptor.  Refusals are no failures here, and which error code a call gets is not said. -/
theorem run_robust {app : App} {env : Env} {ls : List Label} :
    Runs.Meets step (fun s l => ¬ Fails Crash.IsInner (emulate l) s) (St.initial app env) ls ↔
      Runs.Meets step (fun s l => ¬ StepBreaks s l) (St.initial app env) ls :=
  ⟨Runs.Meets.mono fun _ _ => mt emulate_breaks.mpr, Runs.Meets.mono fun _ _ => mt emulate_breaks.mp⟩

/-- A netlink socket is asked for the size of its send buffer. -/
def netlinkOptionEnv : Env :=
  .script [.entry (.socket AF_NETLINK SOCK_RAW NETLINK_ROUTE), .exit 0,
    .entry (.getsockopt 100 SOL_SOCKET SO_SNDBUF 8 16), .exit 0] []

/-- `getsockopt` looks up the netlink socket in `m_sockets`. -/
theorem getsockopt_netlink :
    ¬ ∀ app env ls s l, run (St.initial app env) ls = some s →
      ¬ Fails Crash.IsInner (emulate l) s := by
  intro hall
  have hrun : (run (St.initial {} netlinkOptionEnv) [⟨0, .fire 0⟩]).any
      (fun s => Fails Crash.IsInner (emulate ⟨0, .fire 0⟩) s) = true := by
    decide +kernel
  obtain ⟨s, hs, hfails⟩ := (Option.any_eq_true _ _).mp hrun
  exact hall _ _ _ s _ hs (of_decide_eq_true hfails)

end Grail
