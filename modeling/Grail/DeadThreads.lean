import Grail.Frames

/-! # The status of a deferred completion

A blocked call is answered by a callback: it sets results, answers the call with `FAKE2` or `FAKE4`,
and passes a status to `ProcessStatusCode`.  `Deferred.status` is the part of a callback before
`ProcessStatusCode` (`Deferred.callback_eq`).

If the tracee ends in the `WaitForSyscall` of the macro, the macro leaves `SYSC_ERROR` in `res`.
The callbacks of `read` and `recvfrom` assign `SYSC_SUCCESS` behind the macro and so reschedule a
dead thread; all others pass the error on (`status_reportsEnd`). -/

namespace Grail

open Programs

/-- The callbacks and timers that complete blocked calls, with what they captured and are passed. -/
inductive Deferred where
  | read (task : Task) (buf : Ptr) (count : ℕ) (sock : SockId)
  | recvfrom (task : Task) (buffer : Ptr) (length : ℕ) (out : SockaddrOut) (sock : SockId)
  | accept (task : Task) (out : SockaddrOut) (sock newSock : SockId) (newAddr : Option (ℕ × ℕ))
  | connected (cl : ConnectCallback)
  | refused (cl : ConnectCallback)
  | selectRecv (cl : SelectClosure) (sock : SockId)
  | selectSend (cl : SelectClosure) (sock : SockId)
  | selectAccept (cl : SelectClosure) (newSock : SockId) (newAddr : Option (ℕ × ℕ))
  | selectNetlink (cl : SelectClosure) (nl : NlId)
  | selectTimeout (task : Task)
  | nanosleep (task : Task)

namespace Deferred

def callback : Deferred → M Unit
  | read task buf count sock => readCallback task buf count sock
  | recvfrom task buffer length out sock => recvfromCallback task buffer length out sock
  | accept task out sock newSock newAddr => acceptCallback task out sock newSock newAddr
  | connected cl => connectSucceeded cl
  | refused cl => connectFailed cl
  | selectRecv cl sock => selectRecvCallback cl sock
  | selectSend cl sock => selectSendCallback cl sock
  | selectAccept cl newSock newAddr => selectAcceptCallback cl newSock newAddr
  | selectNetlink cl nl => selectNetlinkCallback cl nl
  | selectTimeout task => Grail.selectTimeout task
  | nanosleep task => nanosleepDone task

/-- `saved_pid`, the thread whose call is completed. -/
def savedPid : Deferred → Pid
  | read task .. => task.thread
  | recvfrom task .. => task.thread
  | accept task .. => task.thread
  | connected cl => cl.task.thread
  | refused cl => cl.task.thread
  | selectRecv cl _ => cl.task.thread
  | selectSend cl _ => cl.task.thread
  | selectAccept cl _ _ => cl.task.thread
  | selectNetlink cl _ => cl.task.thread
  | selectTimeout task => task.thread
  | nanosleep task => task.thread

/-- The flag that the callbacks of one `select` share. -/
def act? : Deferred → Option ℕ
  | selectRecv cl _ => some cl.task.act
  | selectSend cl _ => some cl.task.act
  | selectAccept cl _ _ => some cl.task.act
  | selectNetlink cl _ => some cl.task.act
  | selectTimeout task => some task.act
  | _ => none

/-- The completions of `read` and `recvfrom`. -/
def receives : Deferred → Bool
  | read .. => true
  | recvfrom .. => true
  | _ => false

/-- What follows `ProcessStatusCode`. -/
def cleanup : Deferred → M Unit
  | read _ _ _ sock => modifyCtl (·.setRecvCallback sock none)
  | recvfrom _ _ _ _ sock => modifyCtl (·.setRecvCallback sock none)
  | selectRecv _ sock => modifyCtl (·.setRecvCallback sock none)
  | selectSend _ sock => modifyCtl (·.setSendCallback sock none)
  | selectNetlink _ nl => modifyCtl (·.setNlCallback nl none)
  | _ => pure ()

/-- The end of the callbacks of `select`, up to the status. -/
def storeSelected (cl : SelectClosure) (target : Pid) (readfds writefds : FdSet) :
    M SyscallHandlerStatusCode := do
  storeFdSets cl.task.thread cl.task.act readfds writefds ∅
  fakeAt target 1 .success

/-- The status that is passed to `ProcessStatusCode`. -/
def status : Deferred → M SyscallHandlerStatusCode
  | read task buf count sock => do
      let a ← ns3Recv sock
      if 0 < a.ret then memcpyToTracee task.thread buf (.bytes (min count a.ret.toNat))
      let _ ← fakeAt task.thread a.ret .success
      return .success
  | recvfrom task buffer length out sock => do
      let a ← ns3Recv sock
      if !(← setBsdAddress a.addr out) then return .error
      else do
        if 0 < a.ret then memcpyToTracee task.thread buffer (.bytes (min length a.ret.toNat))
        let _ ← fakeAt task.thread a.ret .success
        return .success
  | accept _ out sock newSock newAddr => do
      let _ ← setBsdAddress newAddr out
      let newSocketFd ← getNextFD
      modifyFds (·.addAccepted newSocketFd newSock)
      let res ← fakeAt (← get).c.pid newSocketFd .success
      noteReturned (some sock) newSock
      return res
  | connected cl => do
      modifyFds (·.setConnected cl.sockfd)
      fakeAt cl.task.thread 0 .success
  | refused cl => fakeAt cl.task.thread (-1) .failure
  | selectRecv cl _ => do
      claimSelect cl
      storeSelected cl (← get).c.pid {cl.fdnr} ∅
  | selectSend cl _ => do
      claimSelect cl
      storeSelected cl cl.task.thread ∅ {cl.fdnr}
  | selectAccept cl newSock newAddr => do
      claimSelect cl
      modifyFds (·.fakeAccept cl.fdnr (newSock, newAddr))
      let sock ← socketsAt cl.fdnr
      modifyCtl (·.setAcceptCallback sock (some (.fakeAccept cl.fdnr)))
      modifyCtl (·.setAcceptCallback sock none)
      storeSelected cl cl.task.thread {cl.fdnr} ∅
  | selectNetlink cl _ => do
      claimSelect cl
      storeSelected cl cl.task.thread {cl.fdnr} ∅
  | selectTimeout task => do
      modifyCtl (·.setHandled task.act)
      fakeAt task.thread 0 .success
  | nanosleep task => fakeAt task.thread 0 .success

/-- A callback of a `select` that has been handled does nothing; the others pass their status to
`ProcessStatusCode`. -/
theorem callback_eq (d : Deferred) : d.callback = (do
    let s ← get
    if d.act?.any s.c.alreadyHandled then pure ()
    else do
      let res ← d.status
      processStatusCode res d.savedPid
      d.cleanup) := by
  refine StateT.ext fun s => ?_
  cases d with
  | read =>
      simp only [callback, readCallback, status, act?, savedPid, cleanup, StateT.run_bind,
        Option.any_none, Bool.false_eq_true, if_false, bind_assoc, StateT.run_get, pure_bind]
      refine bind_congr fun a => ?_
      split_ifs <;> simp
  | recvfrom =>
      simp only [callback, recvfromCallback, status, act?, savedPid, cleanup, StateT.run_bind,
        Option.any_none, Bool.false_eq_true, if_false, bind_assoc, StateT.run_get, pure_bind]
      refine bind_congr fun a => bind_congr fun b => ?_
      split_ifs <;> simp
  | accept => simp [callback, acceptCallback, status, act?, savedPid, cleanup]
  | connected => simp [callback, connectSucceeded, status, act?, savedPid, cleanup]
  | refused => simp [callback, connectFailed, status, act?, savedPid, cleanup]
  | selectRecv =>
      simp [callback, selectRecvCallback, selectReady, storeSelected, status, act?, savedPid,
        cleanup]
  | selectSend =>
      simp [callback, selectSendCallback, selectReady, storeSelected, status, act?, savedPid,
        cleanup]
  | selectAccept =>
      simp [callback, selectAcceptCallback, selectReady, storeSelected, status, act?, savedPid,
        cleanup]
  | selectNetlink =>
      simp [callback, selectNetlinkCallback, selectReady, storeSelected, status, act?, savedPid,
        cleanup]
  | selectTimeout => simp [callback, Grail.selectTimeout, status, act?, savedPid, cleanup]
  | nanosleep => simp [callback, nanosleepDone, status, act?, savedPid, cleanup]

end Deferred

/-! ### The end of the tracee -/

section status

variable {d : Deferred} {s s₀ s' : St} {res : SyscallHandlerStatusCode}

/-- The wait of `FAKE2` and `FAKE4` decides about their result. -/
theorem fakeAt_reports {p : Pid} {v : ℤ} (henv : s.c.env = s₀.c.env)
    (hwaits : s.c.waits = s₀.c.waits) :
    wp (fakeAt p v res) (fun r _ => s₀.c.env.wait s₀.c.waits = .exited → r = .error) s := by
  unfold fakeAt
  rw [wp_bind]
  refine wp_setOrigRax fun th hth => ?_
  rw [wp_bind, wp_modifyCtl, wp_bind]
  have hstops : ∀ next retval, s.c.env.wait s.c.waits = .stopped next retval →
      s₀.c.env.wait s₀.c.waits ≠ .exited := by
    intro next retval hw
    rw [← henv, ← hwaits, hw]
    exact nofun
  refine wp_waitForSyscall ?_ ?_ ?_
  · intro th' _ _
    simp
  · intro th' next retval _ _ _ hw
    simp only [Bool.not_true, Bool.false_eq_true, if_false]
    rw [wp_bind]
    exact wp_setRax fun _ _ => (wp_pure _ _ _).mpr fun h => absurd h (hstops _ _ hw)
  · intro th' next retval _ _ hw
    simp only [Bool.not_true, Bool.false_eq_true, if_false]
    rw [wp_bind]
    exact wp_setRax fun _ _ => (wp_pure _ _ _).mpr fun h => absurd h (hstops _ _ hw)

theorem storeSelected_reports {cl : SelectClosure} {target : Pid} {r w : FdSet}
    (henv : s.c.env = s₀.c.env) (hwaits : s.c.waits = s₀.c.waits) :
    wp (Deferred.storeSelected cl target r w)
      (fun res _ => s₀.c.env.wait s₀.c.waits = .exited → res = .error) s := by
  unfold Deferred.storeSelected
  rw [wp_bind]
  exact wp_storeFdSets (fakeAt_reports henv hwaits)

theorem status_of_not_receives (h : d.receives = false) :
    wp d.status (fun res _ => s.c.env.wait s.c.waits = .exited → res = .error) s := by
  cases d with
  | read => cases h
  | recvfrom => cases h
  | accept task out sock newSock newAddr =>
      unfold Deferred.status
      rw [wp_bind]
      refine wp_setBsdAddress fun _ st => ?_
      simp only [wp_bind, wp_getNextFD, wp_modifyFds, wp_get, wp_noteReturned, wp_pure]
      intro fd _
      exact fakeAt_reports rfl rfl
  | connected cl =>
      simp only [Deferred.status, wp_bind, wp_modifyFds]
      exact fakeAt_reports rfl rfl
  | refused cl => exact fakeAt_reports rfl rfl
  | selectRecv cl sock =>
      simp only [Deferred.status, claimSelect, wp_bind, wp_modifyCtl, wp_get]
      exact storeSelected_reports rfl rfl
  | selectSend cl sock =>
      simp only [Deferred.status, claimSelect, wp_bind, wp_modifyCtl]
      exact storeSelected_reports rfl rfl
  | selectAccept cl newSock newAddr =>
      simp only [Deferred.status, claimSelect, wp_bind, wp_modifyCtl, wp_modifyFds, wp_socketsAt]
      intro sock _
      exact storeSelected_reports rfl rfl
  | selectNetlink cl nl =>
      simp only [Deferred.status, claimSelect, wp_bind, wp_modifyCtl]
      exact storeSelected_reports rfl rfl
  | selectTimeout task =>
      simp only [Deferred.status, wp_bind, wp_modifyCtl]
      exact fakeAt_reports rfl rfl
  | nanosleep task => exact fakeAt_reports rfl rfl

/-- A `read` or `recvfrom` that has waited has succeeded. -/
theorem status_of_receives (h : d.receives = true) :
    wp d.status (fun res s' => s'.c.waits ≠ s.c.waits → res = .success) s := by
  -- whatever the result of the `FAKE` is, the status is a success
  have answer : ∀ {p v s₁},
      wp (fakeAt p v .success) (fun _ s' => s'.c.waits ≠ s.c.waits → True) s₁ :=
    fun _ _ _ _ => trivial
  cases d with
  | read task buf count sock =>
      simp only [Deferred.status, ns3Recv, wp_bind, wp_ask, wp_modifyData, wp_pure, wp_ite]
      refine ⟨fun _ => wp_memcpyToTracee fun st => ?_, fun _ => ?_⟩
      · exact answer
      · exact answer
  | recvfrom task buffer length out sock =>
      simp only [Deferred.status, ns3Recv, wp_bind, wp_ask, wp_modifyData, wp_pure]
      refine wp_setBsdAddress fun b st => ?_
      simp only [wp_ite, wp_pure, wp_bind]
      refine ⟨fun _ hne => absurd rfl hne, fun _ => ⟨fun _ => ?_, fun _ => ?_⟩⟩
      · exact wp_memcpyToTracee fun st => answer
      · exact answer
  | _ => cases h

end status

/-- If the tracee has ended in the wait, the status is an error, which ends the emulator. -/
def ReportsEnd (d : Deferred) (s : St) (res : SyscallHandlerStatusCode) : Prop :=
  s.c.env.wait s.c.waits = .exited → res = .error ∧ d.callback.run s = .error .exit1

/-- A completion whose `FAKE` has waited reports the end of the tracee exactly if it is none of
`read` and `recvfrom`, or the tracee has not ended. -/
theorem status_reportsEnd {d : Deferred} {s s' : St} {res : SyscallHandlerStatusCode}
    (hnot : d.act?.any s.c.alreadyHandled = false) (h : d.status.run s = .ok (res, s'))
    (hwait : s'.c.waits ≠ s.c.waits) :
    ReportsEnd d s res ↔ (s.c.env.wait s.c.waits = .exited → d.receives = false) := by
  cases hd : d.receives with
  | true =>
      obtain rfl : res = .success := (status_of_receives hd).elim h hwait
      refine forall_congr' fun hexit => iff_of_false ?_ nofun
      rintro ⟨herror, -⟩
      cases herror
  | false =>
      refine forall_congr' fun hexit => iff_of_true ?_ rfl
      obtain rfl : res = .error := (status_of_not_receives hd).elim h hexit
      refine ⟨rfl, ?_⟩
      rw [Deferred.callback_eq]
      simp only [StateT.run_bind, StateT.run_get, pure_bind, hnot, Bool.false_eq_true, if_false, h]
      rfl

/-- The status of a completion, and the number of waits afterwards. -/
def Deferred.result (d : Deferred) (s : St) : Option (SyscallHandlerStatusCode × ℕ) :=
  (d.status.run s).toOption.map fun r => (r.1, r.2.c.waits)

theorem Deferred.result_eq_some {d : Deferred} {s : St} {res : SyscallHandlerStatusCode} {n : ℕ}
    (h : d.result s = some (res, n)) : ∃ s', d.status.run s = .ok (res, s') ∧ s'.c.waits = n := by
  unfold Deferred.result at h
  cases hr : d.status.run s with
  | error =>
      rw [hr] at h
      cases h
  | ok r =>
      rw [hr] at h
      cases h
      exact ⟨_, rfl, rfl⟩

/-- A thread that ends while the end of its `nanosleep` is answered. -/
def dyingSleeperEnv : Env := .script [.entry (.nanosleep ⟨1, 0⟩), .exited] []

theorem status_reportsEnd_nanosleep :
    ∃ s, run (St.initial {} dyingSleeperEnv) [⟨0, .fire 0⟩] = some s ∧
      s.c.env.wait s.c.waits = .exited ∧ ReportsEnd (.nanosleep ⟨1, 0⟩) s .error := by
  have hrun : (run (St.initial {} dyingSleeperEnv) [⟨0, .fire 0⟩]).any (fun s =>
      s.c.waits = 1 ∧ s.c.env.wait s.c.waits = .exited ∧
        Deferred.result (.nanosleep ⟨1, 0⟩) s = some (.error, 2)) = true := by
    decide +kernel
  obtain ⟨s, hs, hview⟩ := (Option.any_eq_true _ _).mp hrun
  obtain ⟨hone, hexit, hresult⟩ := of_decide_eq_true hview
  obtain ⟨s', hstatus, htwo⟩ := Deferred.result_eq_some hresult
  have hwait : s'.c.waits ≠ s.c.waits := by
    rw [hone, htwo]
    decide
  exact ⟨s, hs, hexit, (status_reportsEnd rfl hstatus hwait).mpr fun _ => rfl⟩

/-- A thread that ends while its `read` is answered. -/
def dyingReaderEnv : Env :=
  .script [.entry (.socket AF_INET SOCK_STREAM 0), .exit 0, .entry (.read 100 16 4), .exited] []

/-- It is rescheduled when the data arrive. -/
theorem read_revives :
    (∃ s, run (St.initial {} dyingReaderEnv)
        [⟨0, .fire 0⟩, ⟨0, .fire 0⟩, ⟨0, .received 0 4⟩] = some s ∧
      s.c.threads 1 = none ∧ pend s.c (.handleSyscallBefore 1) = 1) ∧
    ¬ ∀ app env ls s d s' res, run (St.initial app env) ls = some s →
      d.act?.any s.c.alreadyHandled = false → d.status.run s = .ok (res, s') →
      s'.c.waits ≠ s.c.waits → ReportsEnd d s res := by
  constructor
  · have hrun : (run (St.initial {} dyingReaderEnv)
        [⟨0, .fire 0⟩, ⟨0, .fire 0⟩, ⟨0, .received 0 4⟩]).any (fun s =>
        s.c.threads 1 = none ∧ pend s.c (.handleSyscallBefore 1) = 1) = true := by
      decide +kernel
    obtain ⟨s, hs, hview⟩ := (Option.any_eq_true _ _).mp hrun
    exact ⟨s, hs, of_decide_eq_true hview⟩
  · intro hall
    have hrun : (run (St.initial {} dyingReaderEnv) [⟨0, .fire 0⟩, ⟨0, .fire 0⟩]).any (fun s =>
        s.c.waits = 3 ∧ s.c.env.wait s.c.waits = .exited ∧
          Deferred.result (.read ⟨1, 1⟩ 16 4 0) s = some (.success, 4)) = true := by
      decide +kernel
    obtain ⟨s, hs, hview⟩ := (Option.any_eq_true _ _).mp hrun
    obtain ⟨hthree, hexit, hresult⟩ := of_decide_eq_true hview
    obtain ⟨s', hstatus, hfour⟩ := Deferred.result_eq_some hresult
    have hwait : s'.c.waits ≠ s.c.waits := by
      rw [hthree, hfour]
      decide
    obtain ⟨herror, -⟩ := hall _ _ _ s _ s' _ hs rfl hstatus hwait hexit
    cases herror

end Grail
