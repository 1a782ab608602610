import Grail.Blocked
import Grail.LinkDump

/-! # Selects that wait for a netlink socket

A request to a netlink socket can append replies to its queue, and `RTM_GETLINK` and `RTM_GETADDR`
call the receive callback afterwards; `RTM_NEWROUTE` and `RTM_DELROUTE` do not.  `Serves` says what
the requests of a call do to the queue and to the threads that wait.

`QueuesEmpty`: no thread is blocked in a `select` on a netlink socket that has replies.  A step
keeps it exactly if it wakes the threads that wait for the socket to which it appends
(`WakesWaiters`). -/

namespace Grail

open Programs SelectArgs

/-! ### Requests -/

/-- `ProcessNlmsghdr` appends a reply, on a node with these devices. -/
def Nlmsg.replies (devices : List NetDevice) : Nlmsg → Bool
  | getLink _ => !devices.isEmpty
  | getAddr _ => !devices.isEmpty
  | newRoute _ => true
  | delRoute _ => true
  | other _ => false

/-- `ProcessNlmsghdr` calls the receive callback. -/
def Nlmsg.notifies : Nlmsg → Bool
  | getLink _ => true
  | getAddr _ => true
  | _ => false

/-- The requests that a call sends. -/
def Syscall.requests : Syscall → List Nlmsg
  | sendmsg _ msg_iov => msg_iov.flatMap Iovec.msgs
  | sendto _ buf _ _ => buf.msgs
  | _ => []

def Syscall.replies (devices : List NetDevice) (call : Syscall) : Bool :=
  call.requests.any (·.replies devices)

def Syscall.notifies (call : Syscall) : Bool := call.requests.any (·.notifies)

/-- The calls that are not completed after the receive callback of `nl`, if it is set. -/
def Ctl.notified (nl : NlId) (c : Ctl) : Pid → Option ℕ :=
  match c.nlCallback nl with
  | none => c.inCall
  | some cl =>
      if c.alreadyHandled cl.task.act then c.inCall
      else Function.update c.inCall cl.task.thread none

section notified

variable {nl : NlId} {c : Ctl} {cl : SelectClosure}

theorem Ctl.notified_none (h : c.nlCallback nl = none) : c.notified nl = c.inCall := by
  simp only [notified, h]

theorem Ctl.notified_handled (h : c.nlCallback nl = some cl)
    (hh : c.alreadyHandled cl.task.act = true) : c.notified nl = c.inCall := by
  simp only [notified, h, hh, if_true]

theorem Ctl.notified_waiting (h : c.nlCallback nl = some cl)
    (hh : c.alreadyHandled cl.task.act = false) :
    c.notified nl = Function.update c.inCall cl.task.thread none := by
  simp only [notified, h, hh, Bool.false_eq_true, if_false]

end notified

/-- What the requests `msgs` to `nl` do. -/
structure Serves (nl : NlId) (msgs : List Nlmsg) (s s' : St) : Prop where
  app : s'.c.app = s.c.app
  fds : s'.d.fds = s.d.fds
  others : ∀ nl', nl' ≠ nl → s'.d.nls nl' = s.d.nls nl'
  queue : (s'.d.nls nl).replyQueue = [] ↔
    (s.d.nls nl).replyQueue = [] ∧ msgs.any (·.replies s.c.app.devices) = false
  silent : msgs.any (·.notifies) = false → s'.c = s.c
  notified : msgs.any (·.notifies) = true →
    s'.c.inCall = s.c.notified nl ∧ s'.c.notified nl = s'.c.inCall

namespace Serves

variable {nl : NlId} {s s' s'' : St} {msgs msgs' : List Nlmsg}

theorem refl (nl : NlId) (s : St) : Serves nl [] s s :=
  ⟨rfl, rfl, fun _ _ => rfl, by simp, fun _ => rfl, nofun⟩

theorem append (h : Serves nl msgs s s') (h' : Serves nl msgs' s' s'') :
    Serves nl (msgs ++ msgs') s s'' := by
  refine ⟨h'.app.trans h.app, h'.fds.trans h.fds,
    fun nl' hnl => (h'.others nl' hnl).trans (h.others nl' hnl), ?_, fun hn => ?_, fun hn => ?_⟩
  · rw [h'.queue, h.queue, h.app, List.any_append, Bool.or_eq_false_iff, and_assoc]
  · rw [List.any_append, Bool.or_eq_false_iff] at hn
    exact (h'.silent hn.2).trans (h.silent hn.1)
  · rw [List.any_append, Bool.or_eq_true] at hn
    cases hfirst : msgs.any (·.notifies) with
    | false =>
        have hn := hn.resolve_left (by simp [hfirst])
        rw [← h.silent hfirst]
        exact h'.notified hn
    | true =>
        obtain ⟨hcall, hagain⟩ := h.notified hfirst
        cases hsecond : msgs'.any (·.notifies) with
        | false =>
            rw [h'.silent hsecond]
            exact ⟨hcall, hagain⟩
        | true =>
            -- the callback has been removed, or the `select` has been answered
            obtain ⟨hcall', hagain'⟩ := h'.notified hsecond
            exact ⟨hcall'.trans (hagain.trans hcall), hagain'⟩

end Serves

section requests

variable {s : St} {nl : NlId}

theorem Data.push_of_ne {nl' : NlId} (h : nl' ≠ nl) (replies : List Reply) (d : Data) :
    (d.push nl replies).nls nl' = d.nls nl' := by
  simp [Data.push, Data.setNetlink, h]

theorem finalize_eq_nil {replies : List Reply} : finalize replies = [] ↔ replies = [] := by
  unfold finalize
  split_ifs with h <;> simp [h]

theorem dumpRequest_serves {root : Bool} {replies : Except Crash (List Reply)} {hdr : Nlmsg}
    (hnot : hdr.notifies = true)
    (hrep : ∀ rs, replies = .ok rs → (rs = [] ↔ hdr.replies s.c.app.devices = false)) :
    wp (dumpRequest nl root replies) (fun _ s' => Serves nl [hdr] s s') s := by
  unfold dumpRequest
  cases root with
  | false => simp
  | true =>
      cases replies with
      | error e => simp
      | ok rs =>
          simp only [Bool.not_true, Bool.false_eq_true, if_false]
          unfold pushReplies notifyRecv
          simp only [wp_bind, wp_modifyData, wp_get]
          have hqueue : ((s.d.push nl (finalize rs)).nls nl).replyQueue = [] ↔
              (s.d.nls nl).replyQueue = [] ∧ [hdr].any (·.replies s.c.app.devices) = false := by
            simp [Data.push, Data.setNetlink, finalize_eq_nil, hrep rs rfl]
          have hothers : ∀ nl', nl' ≠ nl → (s.d.push nl (finalize rs)).nls nl' = s.d.nls nl' :=
            fun nl' hnl => Data.push_of_ne hnl _ _
          have hloud : ¬ [hdr].any (·.notifies) = false := by simp [hnot]
          cases hcb : s.c.nlCallback nl with
          | none =>
              have hnone : s.c.notified nl = s.c.inCall := Ctl.notified_none hcb
              refine (wp_pure _ _ _).mpr
                ⟨rfl, rfl, hothers, hqueue, fun h => absurd h hloud, fun _ => ?_⟩
              exact ⟨hnone.symm, hnone⟩
          | some cl =>
              refine wp_selectNetlinkCallback (fun hh => ?_) fun c' hn hc' => ?_
              · have hsame : s.c.notified nl = s.c.inCall := Ctl.notified_handled hcb hh
                exact ⟨rfl, rfl, hothers, hqueue, fun h => absurd h hloud,
                  fun _ => ⟨hsame.symm, hsame⟩⟩
              · refine ⟨(Calm.of_finish hc').app, rfl, hothers, hqueue,
                  fun h => absurd h hloud, fun _ => ?_⟩
                have hnone : (c'.setNlCallback nl none).notified nl = c'.inCall :=
                  Ctl.notified_none (by simp [Ctl.setNlCallback])
                rw [Ctl.notified_waiting hcb hn]
                exact ⟨hc'.inCall, hnone⟩

theorem routeRequest_serves {iifOk : Bool} {edit : List RtEntry → ℕ → ℕ → ℕ → List RtEntry}
    {body : Option RtMsg} {hdr : Nlmsg} (hnot : hdr.notifies = false)
    (hrep : hdr.replies s.c.app.devices = true) :
    wp (routeRequest nl iifOk edit body) (fun _ s' => Serves nl [hdr] s s') s := by
  unfold routeRequest
  cases body with
  | none => simp
  | some amsg =>
      by_cases hn : amsg.notify = true
      · simp [hn]
      · simp only [hn, Bool.false_eq_true, if_false]
        cases routeAttrs iifOk amsg.attrs (none, none) with
        | error e => simp
        | ok attrs =>
            rcases attrs with ⟨_ | dst, _ | gw⟩
            · simp
            · simp
            · simp
            · unfold pushReplies
              simp only [wp_bind, wp_modifyData]
              refine ⟨rfl, rfl, fun nl' hnl => Data.push_of_ne hnl _ _, ?_, fun _ => rfl,
                fun h => ?_⟩
              · simp [Data.push, Data.setNetlink, hrep]
              · simp [hnot] at h

theorem processNlmsghdr_serves (hdr : Nlmsg) :
    wp (processNlmsghdr nl hdr) (fun _ s' => Serves nl [hdr] s s') s := by
  have link : ∀ rs, linkReplies 0 ⟨0, 0, 0⟩ s.c.app.devices = .ok rs →
      (rs = [] ↔ (!s.c.app.devices.isEmpty) = false) := by
    intro rs hrs
    rw [Bool.not_eq_false', List.isEmpty_iff]
    refine ⟨fun h => by_contra fun hd => linkReplies_ne_nil hrs hd h, fun h => ?_⟩
    rw [h] at hrs
    cases hrs
    rfl
  have addr : ∀ rs, addrReplies 0 s.c.app.devices = .ok rs →
      (rs = [] ↔ (!s.c.app.devices.isEmpty) = false) := by
    intro rs hrs
    rw [Bool.not_eq_false', List.isEmpty_iff]
    refine ⟨fun h => by_contra fun hd => addrReplies_ne_nil hrs hd h, fun h => ?_⟩
    rw [h] at hrs
    cases hrs
    rfl
  unfold processNlmsghdr
  simp only [wp_bind, wp_get]
  cases hdr with
  | getLink root => exact dumpRequest_serves rfl link
  | getAddr root => exact dumpRequest_serves rfl addr
  | newRoute body => exact routeRequest_serves rfl rfl
  | delRoute body => exact routeRequest_serves rfl rfl
  | other t => simp

theorem processNlmsgs_serves :
    ∀ (msgs : List Nlmsg) (s : St), wp (processNlmsgs nl msgs) (fun _ s' => Serves nl msgs s s') s
  | [], s => (wp_pure _ _ _).mpr (.refl nl s)
  | hdr :: hdrs, s => by
      unfold processNlmsgs
      rw [wp_bind]
      refine (processNlmsghdr_serves hdr).mono fun _ s₁ h₁ => ?_
      exact (processNlmsgs_serves hdrs s₁).mono fun _ s₂ h₂ => h₁.append h₂

theorem processIovecs_serves : ∀ (iovs : List Iovec) (s : St),
    wp (processIovecs nl iovs) (fun _ s' => Serves nl (iovs.flatMap Iovec.msgs) s s') s
  | [], s => (wp_pure _ _ _).mpr (.refl nl s)
  | iov :: iovs, s => by
      unfold processIovecs
      rw [wp_bind, List.flatMap_cons]
      refine (processNlmsgs_serves iov.msgs s).mono fun _ s₁ h₁ => ?_
      exact (processIovecs_serves iovs s₁).mono fun _ s₂ h₂ => h₁.append h₂

end requests

/-! ### Calls of netlink sockets -/

/-- How a call that `nl` handles ends. -/
structure NlAnswered (nl : NlId) (call : Syscall) (s : St) (res : SyscallHandlerStatusCode)
    (s' : St) : Prop where
  resumes : res.resumes
  fds : s'.d.fds = s.d.fds
  others : ∀ nl', nl' ≠ nl → s'.d.nls nl' = s.d.nls nl'
  kept : call.replies s.c.app.devices = false → (s.d.nls nl).replyQueue = [] →
    (s'.d.nls nl).replyQueue = []
  filled : call.replies s.c.app.devices = true → (s'.d.nls nl).replyQueue ≠ []
  inCall : s'.c.inCall = if call.notifies then s.c.notified nl else s.c.inCall

section calls

variable {s : St} {nl : NlId} {call : Syscall}

theorem setNetlink_of_ne {nl' : NlId} (h : nl' ≠ nl) (sock : NetlinkSocket) (d : Data) :
    (d.setNetlink nl sock).nls nl' = d.nls nl' := by
  simp [Data.setNetlink, h]

theorem wp_nlFake_answered {v : ℤ} {res : SyscallHandlerStatusCode} {s₁ : St}
    (h : ∀ c', c'.inCall = s₁.c.inCall → NlAnswered nl call s res ⟨c', s₁.d⟩) :
    wp (nlFake nl v res) (fun res s' => res ≠ .error → NlAnswered nl call s res s') s₁ := by
  unfold nlFake
  simp only [wp_bind, wp_get]
  exact wp_fakeAt (fun c' hc' _ => h c' hc'.inCall) fun _ _ hres => absurd rfl hres

/-- The call sends nothing, and the queue does not grow. -/
theorem wp_silent_answered (hreq : call.requests = []) {v : ℤ} {res : SyscallHandlerStatusCode}
    (hres : res.resumes) {s₁ : St} (hc : s₁.c = s.c) (hfds : s₁.d.fds = s.d.fds)
    (hothers : ∀ nl', nl' ≠ nl → s₁.d.nls nl' = s.d.nls nl')
    (hq : (s.d.nls nl).replyQueue = [] → (s₁.d.nls nl).replyQueue = []) :
    wp (nlFake nl v res) (fun res s' => res ≠ .error → NlAnswered nl call s res s') s₁ := by
  refine wp_nlFake_answered fun c' hc' => ⟨hres, hfds, hothers, fun _ => hq, fun h => ?_, ?_⟩
  · simp [Syscall.replies, hreq] at h
  · simpa [Syscall.notifies, hreq, hc] using hc'

/-- The requests of the call are handled, then it is answered. -/
theorem wp_send_answered {m : M Unit} (hm : wp m (fun _ s' => Serves nl call.requests s s') s)
    (v : ℤ) : wp (m >>= fun _ => nlFake nl v .success)
      (fun res s' => res ≠ .error → NlAnswered nl call s res s') s := by
  rw [wp_bind]
  refine hm.mono fun _ s₁ h₁ => wp_nlFake_answered fun c' hc' =>
    ⟨resumes_success, h₁.fds, h₁.others, ?_, ?_, ?_⟩
  · exact fun hrep hq => h₁.queue.mpr ⟨hq, hrep⟩
  · intro hrep hq
    have hnone : call.replies s.c.app.devices = false := (h₁.queue.mp hq).2
    rw [hrep] at hnone
    cases hnone
  · rw [hc']
    cases hnot : call.notifies with
    | false => exact congrArg Ctl.inCall (h₁.silent hnot)
    | true => exact (h₁.notified hnot).1

theorem handle_answered (hn : netlinkOf s.d.fds call = some nl) :
    wp (handle call) (fun res s' => res ≠ .error → NlAnswered nl call s res s') s := by
  unfold netlinkOf at hn
  obtain ⟨fd, hfd, hnl⟩ := Option.bind_eq_some_iff.mp hn
  unfold handle
  simp only [wp_bind, wp_get]
  cases call with
  | sendmsg fd' msg_iov =>
      obtain rfl : fd' = fd := Option.some.inj hfd
      simp only [handleSendMsg, wp_bind, wp_get, hnl]
      exact wp_send_answered (processIovecs_serves _ _) _
  | recvmsg fd' iov_base iov_len =>
      obtain rfl : fd' = fd := Option.some.inj hfd
      simp only [handleRecvMsg, nlHandleRecvMsg, wp_bind, wp_get, hnl]
      cases hq : (s.d.nls nl).replyQueue with
      | nil => exact wp_silent_answered rfl resumes_failure rfl rfl (fun _ _ => rfl) id
      | cons reply rest =>
          simp only [wp_bind, wp_ite, wp_throw]
          refine ⟨fun _ => trivial, fun _ => wp_memcpyToTracee fun st => ?_⟩
          rw [wp_modifyData]
          refine wp_silent_answered rfl resumes_success rfl rfl
            (fun nl' hne => setNetlink_of_ne hne _ _) fun hnil => ?_
          rw [hq] at hnil
          cases hnil
  | getsockname fd' out =>
      obtain rfl : fd' = fd := Option.some.inj hfd
      simp only [handleGetSockName, nlHandleGetSockName, wp_bind, wp_get, hnl, wp_ite, wp_throw]
      refine ⟨fun _ => trivial, fun _ => wp_memcpyToTracee fun st => wp_memcpyToTracee fun st' => ?_⟩
      exact wp_silent_answered rfl resumes_success rfl rfl (fun _ _ => rfl) id
  | sendto fd' buf flags dest_addr =>
      have hsock : s.d.fds.sockets.find fd' = none := by
        by_contra hsome
        simp [netlinkFd, hsome] at hfd
      obtain rfl : fd' = fd := by simpa [netlinkFd, hsock] using hfd
      simp only [handleSendTo, nlHandleSendTo, wp_bind, wp_get, hsock, hnl, wp_ite, wp_throw]
      refine ⟨fun _ => trivial, fun _ => ?_⟩
      have hm : wp (processNlmsgs nl buf.msgs)
          (fun _ s' => Serves nl (Syscall.sendto fd' buf flags dest_addr).requests s s') s :=
        processNlmsgs_serves _ _
      rw [← wp_bind]
      exact wp_send_answered hm _
  | bind fd' addr =>
      have hsock : s.d.fds.sockets.find fd' = none := by
        by_contra hsome
        simp [netlinkFd, hsome] at hfd
      obtain rfl : fd' = fd := by simpa [netlinkFd, hsock] using hfd
      simp only [handleBind, nlHandleBind, wp_bind, wp_get, hsock, hnl, wp_modifyData]
      refine wp_silent_answered rfl resumes_success rfl rfl
        (fun nl' hne => setNetlink_of_ne hne _ _) fun hq => ?_
      simpa [Data.setNetlink] using hq
  | _ => cases hfd

end calls

/-! ### Other calls and steps -/

section others

variable {s s' : St} {l : Label}

/-- The netlink sockets that have names in `d'` have the queues they had in `d`, or empty ones. -/
def KeepsQueues (d d' : Data) : Prop :=
  ∀ fd nl, d'.fds.netlinks.find fd = some nl → (d'.nls nl).replyQueue = [] ∨
    d.fds.netlinks.find fd = some nl ∧ (d'.nls nl).replyQueue = (d.nls nl).replyQueue

theorem KeepsQueues.same {d d' : Data} (hf : d'.fds.netlinks = d.fds.netlinks)
    (hn : d'.nls = d.nls) : KeepsQueues d d' := fun fd nl h => .inr ⟨hf ▸ h, by rw [hn]⟩

theorem Quiet.keepsQueues {d d₁ d' : Data} (h : Quiet d₁ d') (hk : KeepsQueues d d₁) :
    KeepsQueues d d' := by
  unfold KeepsQueues
  rw [h.fds, h.nls]
  exact hk

theorem Edit.keepsQueues {call : Syscall} {p : Pid} {d d' : Data} (h : Edit call p d d') :
    KeepsQueues d d' := by
  cases h with
  | quiet hq => exact hq.keepsQueues (.same rfl rfl)
  | random _ hq => exact hq.keepsQueues (.same rfl rfl)
  | socket _ hq => exact hq.keepsQueues (.same rfl rfl)
  | tcpSocket _ hq => exact hq.keepsQueues (.same rfl rfl)
  | @netlink fd nl_pid _ _ hq =>
      refine hq.keepsQueues fun fd' nl hfd' => ?_
      by_cases hnl : nl = d.nextNl
      · left
        simp [Data.withFds, Data.newNetlink, hnl]
      · right
        have hfd : fd' ≠ fd := by
          rintro rfl
          have hnew : d.nextNl = nl := by simpa [Data.withFds, Fds.addNetlink] using hfd'
          exact hnl hnew.symm
        have hold : (d.fds.netlinks.assign fd d.nextNl).find fd' = some nl := hfd'
        rw [StdMap.find_assign_ne _ _ hfd] at hold
        exact ⟨hold, by simp [Data.withFds, Data.newNetlink, hnl]⟩
  | closeSocket _ _ hq => exact hq.keepsQueues (.same rfl rfl)
  | @closeNetlink fd nl₀ _ _ _ _ hq =>
      refine hq.keepsQueues fun fd' nl hfd' => .inr ⟨?_, rfl⟩
      have hleft : (d.fds.netlinks.erase fd).find fd' = some nl := hfd'
      rw [StdMap.find_erase] at hleft
      split_ifs at hleft with hfd
      exact hleft
  | closeRandom _ _ hq => exact hq.keepsQueues (.same rfl rfl)
  | nonblocking _ hq => exact hq.keepsQueues (.same rfl rfl)
  | listenFailed _ _ hq => exact hq.keepsQueues (.same rfl rfl)

theorem Handled.keepsQueues {call : Syscall} {res : SyscallHandlerStatusCode}
    (h : Handled call s res s') (hres : res ≠ .error) (hn : netlinkOf s.d.fds call = none) :
    KeepsQueues s.d s'.d := by
  have absurd_nl : ∀ {nl : NlId}, netlinkOf s.d.fds call = some nl → KeepsQueues s.d s'.d :=
    fun hnl => by simp [hn] at hnl
  cases h with
  | error => exact absurd rfl hres
  | answered _ _ _ he => exact he.keepsQueues
  | listened _ _ _ _ hq => exact hq.keepsQueues (.same rfl rfl)
  | accepted _ _ _ _ hq =>
      have hkeeps : KeepsQueues s.d _ := hq.keepsQueues (.same rfl rfl)
      intro fd nl hfd
      rw [(returning_same _ _ _).fds] at hfd
      rw [St.returning_nls]
      exact hkeeps fd nl hfd
  | nlSend hnl => exact absurd_nl hnl
  | nlOther hnl => exact absurd_nl hnl
  | passed _ _ _ hq => exact hq.keepsQueues (.same rfl rfl)
  | unadvanced _ _ hq => exact hq.keepsQueues (.same rfl rfl)
  | recvNow _ _ _ hq => exact hq.keepsQueues (.same rfl rfl)
  | connectRefused _ _ _ hq => exact hq.keepsQueues (.same rfl rfl)
  | connectWait _ _ _ hq => exact hq.keepsQueues (.same rfl rfl)
  | connectNow _ _ _ hq => exact hq.keepsQueues (.same rfl rfl)
  | selectNow _ _ _ hq => exact hq.keepsQueues (.same rfl rfl)
  | _ => exact .same rfl rfl

/-- A step that dispatches no call keeps the netlink sockets. -/
theorem step_keepsQueues (h : step s l = some s') (hd : dispatched s l = none) :
    KeepsQueues s.d s'.d := by
  obtain ⟨-, -, ho⟩ := step_cases h
  generalize hl : l.what = what at ho
  cases ho with
  | @fired i e _ hev _ hf =>
      obtain ⟨t, kind⟩ := e
      have hev : s.c.events[i]? = some ⟨t, kind⟩ := hev
      cases hf with
      | dispatched hc hth =>
          have hcaught : dispatched s l = some _ :=
            dispatched_eq (resumes_eq hl hev rfl) (hc.catches hth)
          rw [hd] at hcaught
          cases hcaught
      | removed hq => exact hq.keepsQueues (.same rfl rfl)
      | _ => exact .same rfl rfl
  | receivedRead _ _ hq => exact hq.keepsQueues (.same rfl rfl)
  | incomingLost _ _ hq => exact hq.keepsQueues (.same rfl rfl)
  | incomingStored _ _ hq => exact hq.keepsQueues (.same rfl rfl)
  | incomingSelect _ _ _ _ hq => exact hq.keepsQueues (.same rfl rfl)
  | incomingAccept _ _ _ hq =>
      have hkeeps : KeepsQueues s.d _ := hq.keepsQueues (.same rfl rfl)
      intro fd nl hfd
      rw [(returning_same _ _ _).fds] at hfd
      rw [St.returning_nls]
      exact hkeeps fd nl hfd
  | _ => exact .same rfl rfl

end others

/-! ### Threads that wait -/

/-- Thread `p` is blocked in a `select` that has `nl` in its read set. -/
def Waits (s : St) (p : Pid) (nl : NlId) : Prop :=
  ∃ args fd, s.c.BlockedIn p (.select args) ∧ isSet args.readfds fd = true ∧
    s.d.fds.netlinks.find fd = some nl

/-- A netlink socket for which a thread waits has no replies. -/
def QueuesEmpty (s : St) : Prop := ∀ p nl, Waits s p nl → (s.d.nls nl).replyQueue = []

/-- The receive callback of `nl` is that of a `select` of `p` which has not been answered. -/
def Ctl.Notifies (c : Ctl) (nl : NlId) (p : Pid) : Prop :=
  ∃ cl, c.nlCallback nl = some cl ∧ cl.task.thread = p ∧ c.alreadyHandled cl.task.act = false

/-- If the call that `l` dispatches makes a netlink socket append a reply, it also calls the receive
callback, and that answers the `select` of every other thread that waits for the socket. -/
def WakesWaiters (s : St) (l : Label) : Prop :=
  ∀ q call nl, dispatched s l = some (q, call) → netlinkOf s.d.fds call = some nl →
    call.replies s.c.app.devices = true →
    ∀ p, p ≠ q → Waits s p nl → call.notifies = true ∧ s.c.Notifies nl p

section steps

variable {s s' : St} {l : Label}

/-- A `select` in which its thread is blocked found no replies. -/
theorem select_found_none {s₁ s₂ : St} {q : Pid} {args : SelectArgs}
    {res : SyscallHandlerStatusCode} (hh : Handled (.select args) s₁ res s₂)
    (hp : Processed q s₂ res s') {k : ℕ} (hb : s'.c.inCall q = some k) :
    NotReady args s₁.d := by
  have answered : res.resumes → NotReady args s₁.d := by
    intro hres
    rw [hp.resumed_eq hres] at hb
    simp [Ctl.resched] at hb
  cases hh with
  | error => exact absurd rfl hp.ne_error
  | answered hplain => cases hplain
  | listened hcall => cases hcall
  | accepted hcall => cases hcall
  | nlSend hn => cases hn
  | nlOther hn => cases hn
  | passed hplain => cases hplain
  | cloned hcall => cases hcall
  | unadvanced hun => cases hun
  | systemExit hcall => cases hcall
  | recvNow hcall => cases hcall
  | recvWait hcall => cases hcall
  | writeWait hcall => cases hcall
  | connectRefused hcall => cases hcall
  | connectWait hcall => cases hcall
  | connectNow hcall => cases hcall
  | acceptWait hcall => cases hcall
  | selectNow => exact answered resumes_success
  | selectWait hcall hm =>
      cases hcall
      exact (selectMayBlock_eq_true hm).2
  | sleeping hcall => cases hcall

/-- A call that is not handled by a netlink socket. -/
theorem queuesEmpty_other (hk : Known s.c) (he : QueuesEmpty s) {q : Pid} {call : Syscall}
    {s₁ s₂ : St} {res : SyscallHandlerStatusCode} (hb : Begins s q call s₁)
    (hh : Handled call s₁ res s₂) (hp : Processed q s₂ res s')
    (hn : netlinkOf s.d.fds call = none) : QueuesEmpty s' := by
  rintro p nl ⟨args, fd, hblocked, hset, hfd⟩
  have hblocked₁ : s₁.c.BlockedIn p (.select args) := ((hh.unblocks hp.ne_error).trans
    (.of_calm hp.calm)).blockedIn hblocked
  have hkeeps : KeepsQueues s.d s'.d := by
    rw [hp.d, ← hb.d]
    exact hh.keepsQueues hp.ne_error (by rw [hb.d]; exact hn)
  rcases hkeeps fd nl hfd with hnil | ⟨hold, hsame⟩
  · exact hnil
  · rw [hsame]
    by_cases hpq : p = q
    · subst hpq
      obtain rfl := hb.blockedIn_self.mp hblocked₁
      obtain ⟨k, -, hk', -⟩ := hblocked
      have hready := select_found_none hh hp hk'
      rw [hb.d] at hready
      exact hready.netlinks (fd, nl) (StdMap.mem_entries.mpr hold) hset
    · exact he p nl ⟨args, fd, (hb.blockedIn_of_ne hk hpq).mp hblocked₁, hset, hold⟩

theorem notified_of_notifies {c : Ctl} {nl : NlId} {p : Pid} (h : c.Notifies nl p) :
    c.notified nl p = none := by
  obtain ⟨cl, hcb, rfl, hh⟩ := h
  rw [Ctl.notified_waiting hcb hh, Function.update_self]

theorem notified_of_not {c : Ctl} {nl : NlId} {p : Pid} (h : ¬ c.Notifies nl p) :
    c.notified nl p = c.inCall p := by
  cases hcb : c.nlCallback nl with
  | none => rw [Ctl.notified_none hcb]
  | some cl =>
      cases hh : c.alreadyHandled cl.task.act with
      | true => rw [Ctl.notified_handled hcb hh]
      | false =>
          have hne : p ≠ cl.task.thread := fun hp => h ⟨cl, hcb, hp.symm, hh⟩
          rw [Ctl.notified_waiting hcb hh, Function.update_of_ne hne]

/-- The calls that the handling of a netlink call completes. -/
theorem NlAnswered.inCall_of_ne {q : Pid} {call : Syscall} {s₁ s₂ : St}
    {res : SyscallHandlerStatusCode} {nl : NlId} (hb : Begins s q call s₁)
    (ha : NlAnswered nl call s₁ res s₂) (hp : Processed q s₂ res s') {p : Pid} (hpq : p ≠ q) :
    (call.notifies = true ∧ s.c.Notifies nl p → s'.c.inCall p = none) ∧
    (¬ (call.notifies = true ∧ s.c.Notifies nl p) → s'.c.inCall p = s.c.inCall p) := by
  have hcalm : s'.c.inCall p = s₂.c.inCall p := by
    cases hp with
    | resumed => simp [Ctl.resched, Ctl.schedule, Ctl.note, hpq]
    | waits => rfl
    | quits => rfl
  have hold : s₁.c.inCall p = s.c.inCall p := by rw [hb.inCall, Function.update_of_ne hpq]
  have hsame : s₁.c.Notifies nl p ↔ s.c.Notifies nl p := by
    unfold Ctl.Notifies
    rw [hb.nlCallback, hb.alreadyHandled]
  rw [hcalm, ha.inCall]
  constructor
  · rintro ⟨hnot, hw⟩
    rw [if_pos hnot]
    exact notified_of_notifies (hsame.mpr hw)
  · intro hn
    split_ifs with hnot
    · exact (notified_of_not fun hw => hn ⟨hnot, hsame.mp hw⟩).trans hold
    · exact hold

/-- A call that `nl` handles. -/
theorem queuesEmpty_netlink (hk : Known s.c) (he : QueuesEmpty s) {q : Pid} {call : Syscall}
    {s₁ s₂ : St} {res : SyscallHandlerStatusCode} (hb : Begins s q call s₁)
    (hh : Handled call s₁ res s₂) (hp : Processed q s₂ res s') {nl : NlId}
    (hn : netlinkOf s.d.fds call = some nl) (ha : NlAnswered nl call s₁ res s₂) :
    QueuesEmpty s' ↔ (call.replies s.c.app.devices = true →
      ∀ p, p ≠ q → Waits s p nl → call.notifies = true ∧ s.c.Notifies nl p) := by
  have hu := (hh.unblocks hp.ne_error).trans (.of_calm hp.calm)
  have hfds : s'.d.fds = s.d.fds := by rw [hp.d, ha.fds, hb.d]
  -- after the step, only threads wait that waited before
  have before : ∀ {p nl'}, Waits s' p nl' → p ≠ q ∧ Waits s p nl' := by
    rintro p nl' ⟨args, fd, hblocked, hset, hfd⟩
    have hblocked₁ := hu.blockedIn hblocked
    have hpq : p ≠ q := by
      rintro rfl
      obtain rfl := hb.blockedIn_self.mp hblocked₁
      cases hn
    exact ⟨hpq, args, fd, (hb.blockedIn_of_ne hk hpq).mp hblocked₁, hset, hfds ▸ hfd⟩
  have hqueue : ∀ nl', nl' ≠ nl → (s'.d.nls nl').replyQueue = (s.d.nls nl').replyQueue :=
    fun nl' hne => by rw [hp.d, ha.others nl' hne, hb.d]
  have hkept := ha.kept
  have hfilled := ha.filled
  rw [hb.app, hb.d] at hkept
  rw [hb.app] at hfilled
  cases hrep : call.replies s.c.app.devices with
  | false =>
      refine ⟨fun _ => nofun, fun _ p nl' hw => ?_⟩
      have hold := he p nl' (before hw).2
      by_cases hne : nl' = nl
      · subst hne
        rw [hp.d]
        exact hkept hrep hold
      · rw [hqueue nl' hne]
        exact hold
  | true =>
      have hfull : (s'.d.nls nl).replyQueue ≠ [] := by
        rw [hp.d]
        exact hfilled hrep
      refine ⟨fun he' _ p hpq hw => ?_, fun hwakes p nl' hw' => ?_⟩
      · by_contra hnot
        obtain ⟨args, fd, hblocked, hset, hfd⟩ := hw
        obtain ⟨k, a, hk', hacts, hcall⟩ := (hb.blockedIn_of_ne hk hpq).mpr hblocked
        have hstill : s'.c.inCall p = s₁.c.inCall p := by
          rw [(ha.inCall_of_ne hb hp hpq).2 hnot, hb.inCall, Function.update_of_ne hpq]
        refine hfull (he' p nl ⟨args, fd, ⟨k, a, hstill ▸ hk', ?_, hcall⟩, hset, hfds ▸ hfd⟩)
        rw [hu.acts]
        exact hacts
      · obtain ⟨hpq, hw⟩ := before hw'
        by_cases hne : nl' = nl
        · subst hne
          have hwoken := (ha.inCall_of_ne hb hp hpq).1 (hwakes rfl p hpq hw)
          obtain ⟨-, -, ⟨k, -, hk', -⟩, -⟩ := hw'
          rw [hwoken] at hk'
          cases hk'
        · rw [hqueue nl' hne]
          exact he p nl' hw

/-- A step keeps the queues of the threads that wait empty exactly if it wakes them when it appends a
reply. -/
theorem step_wakes (hk : Known s.c) (he : QueuesEmpty s) (h : step s l = some s') :
    QueuesEmpty s' ↔ WakesWaiters s l := by
  cases hd : dispatched s l with
  | none =>
      refine ⟨fun _ q call nl hd' => by simp [hd] at hd', fun _ => ?_⟩
      rintro p nl ⟨args, fd, hblocked, hset, hfd⟩
      rcases step_keepsQueues h hd fd nl hfd with hnil | ⟨hold, hsame⟩
      · exact hnil
      · rw [hsame]
        exact he p nl ⟨args, fd, (step_unblocks h hd).blockedIn hblocked, hset, hold⟩
  | some disp =>
      obtain ⟨q, call⟩ := disp
      obtain ⟨s₁, res, s₂, hhandles, hrun, hp⟩ := step_handles h hd
      have hb := hhandles.begins
      have hh : Handled call s₁ res s₂ := (handle_spec call).elim hrun
      cases hn : netlinkOf s.d.fds call with
      | none =>
          refine ⟨fun _ q' call' nl hd' hn' => ?_, fun _ => queuesEmpty_other hk he hb hh hp hn⟩
          rw [hd] at hd'
          cases hd'
          rw [hn] at hn'
          cases hn'
      | some nl =>
          have ha : NlAnswered nl call s₁ res s₂ :=
            (handle_answered (by rw [hb.d]; exact hn)).elim hrun hp.ne_error
          rw [queuesEmpty_netlink hk he hb hh hp hn ha]
          constructor
          · intro hwakes q' call' nl' hd' hn'
            rw [hd] at hd'
            cases hd'
            rw [hn] at hn'
            cases hn'
            exact hwakes
          · exact fun hwakes => hwakes q call nl hd hn

end steps

/-! ### Runs -/

theorem QueuesEmpty.initial (app : App) (env : Env) : QueuesEmpty (St.initial app env) := by
  rintro p nl ⟨args, fd, ⟨k, a, hk, -⟩, -⟩
  cases hk

/-- In a run, the queues of the threads that wait are empty in every state exactly if every step
that appends a reply wakes the threads that wait for it. -/
theorem run_wakes {app : App} {env : Env} {ls : List Label} {s : St}
    (hrun : run (St.initial app env) ls = some s) :
    Runs.Along step QueuesEmpty (St.initial app env) ls ↔
      Runs.Meets step WakesWaiters (St.initial app env) ls :=
  Runs.along_iff_meets (J := fun s => Known s.c) (fun _ _ _ hk hs => hk.step hs)
    (fun _ _ _ hk he hs => step_wakes hk he hs) (Known.initial app env)
    (QueuesEmpty.initial app env) hrun

/-- Thread 2 creates a netlink socket, thread 1 waits for it, thread 2 sends a request. -/
def requestEnv (hdr : Nlmsg) : Env :=
  .script [.entry .clone, .exit 2, .entry (.socket AF_NETLINK SOCK_RAW NETLINK_ROUTE), .exit 0,
    .entry (.select ⟨101, some {100}, none, none, none⟩),
    .entry (.sendmsg 100 [⟨32, [hdr], 0⟩]), .exit 0, .exit 0] []

/-- The node of that run. -/
def requestApp : App :=
  { syscallProcessingTime := 200, devices := mixedDevices, appPid_pos := Int.one_pos }

/-- The steps of that run. -/
def requestLabels : List Label := [⟨0, .fire 0⟩, ⟨100, .fire 0⟩, ⟨200, .fire 0⟩, ⟨300, .fire 0⟩]

instance decidableNotifies (c : Ctl) (nl : NlId) (p : Pid) : Decidable (c.Notifies nl p) :=
  match h : c.nlCallback nl with
  | none => isFalse fun ⟨_, hcb, _⟩ => by simp [h] at hcb
  | some cl =>
      decidable_of_iff (cl.task.thread = p ∧ c.alreadyHandled cl.task.act = false)
        (by simp [Ctl.Notifies, h])

/-- The call that `l` dispatches notifies every other thread that is blocked, if it makes a netlink
socket append a reply. -/
def notifiesBlocked (s : St) (l : Label) : Bool :=
  match dispatched s l with
  | none => true
  | some (q, call) =>
      match netlinkOf s.d.fds call with
      | none => true
      | some nl =>
          !call.replies s.c.app.devices || (List.range s.c.nextAct).all fun k =>
            match s.c.acts k with
            | none => true
            | some a => decide (a.pid = q ∨ s.c.inCall a.pid = none ∨
                call.notifies = true ∧ s.c.Notifies nl a.pid)

theorem WakesWaiters.of_notifiesBlocked {s : St} {l : Label} (hk : Known s.c)
    (h : notifiesBlocked s l = true) : WakesWaiters s l := by
  rintro q call nl hd hn hrep p hpq ⟨args, fd, ⟨k, a, hik, ha, -⟩, -⟩
  obtain ⟨b, hb, rfl⟩ := hk.inCall hik
  simp only [notifiesBlocked, hd, hn, hrep, Bool.not_true, Bool.false_or, List.all_eq_true,
    List.mem_range] at h
  have hact := h k (hk.acts_lt hb)
  rw [hb] at hact
  rcases of_decide_eq_true hact with hq | hnone | hw
  · exact absurd hq hpq
  · rw [hik] at hnone
    cases hnone
  · exact hw

/-- `RTM_GETLINK` wakes thread 1. -/
theorem run_wakes_getLink :
    ∃ s, run (St.initial requestApp (requestEnv (.getLink true))) requestLabels = some s ∧
      (s.d.nls 0).replyQueue.length = 5 ∧ s.c.inCall 1 = none ∧
      Runs.Along step QueuesEmpty (St.initial requestApp (requestEnv (.getLink true)))
        requestLabels := by
  have hrun : (run (St.initial requestApp (requestEnv (.getLink true))) requestLabels).any
      (fun s => (s.d.nls 0).replyQueue.length = 5 ∧ s.c.inCall 1 = none) = true := by
    decide +kernel
  obtain ⟨s, hs, hview⟩ := (Option.any_eq_true _ _).mp hrun
  obtain ⟨hq, hin⟩ := of_decide_eq_true hview
  have hmeets : Runs.Meets step (fun s l => notifiesBlocked s l = true)
      (St.initial requestApp (requestEnv (.getLink true))) requestLabels := by
    decide +kernel
  have hwakes := Runs.meets_of_invariant (I := fun s => Known s.c)
    (fun _ _ _ hk hn hs => ⟨hk.step hs, WakesWaiters.of_notifiesBlocked hk hn⟩)
    (Known.initial _ _) hs hmeets
  exact ⟨s, hs, hq, hin, (run_wakes hs).mpr hwakes⟩

/-- `RTM_NEWROUTE` leaves its acknowledgement in the queue, and thread 1 waiting. -/
theorem newRoute_wakes_nobody :
    ¬ ∀ app env ls s, run (St.initial app env) ls = some s → QueuesEmpty s := by
  intro hall
  have hrun : (run (St.initial requestApp
      (requestEnv (.newRoute (some ⟨24, false, [.dst 1, .gateway 2]⟩)))) requestLabels).any
      (fun s => s.c.inCall 1 = some 2 ∧
        (s.c.acts 2).map Activation.call = some (.select ⟨101, some {100}, none, none, none⟩) ∧
        s.d.fds.netlinks.find 100 = some 0 ∧ (s.d.nls 0).replyQueue = [.ack]) = true := by
    decide +kernel
  obtain ⟨s, hs, hview⟩ := (Option.any_eq_true _ _).mp hrun
  obtain ⟨hin, hact, hfd, hq⟩ := of_decide_eq_true hview
  obtain ⟨a, ha, hcall⟩ := Option.map_eq_some_iff.mp hact
  have hempty := hall _ _ _ s hs 1 0 ⟨_, 100, ⟨2, a, hin, ha, hcall⟩, by decide, hfd⟩
  rw [hq] at hempty
  cases hempty

end Grail
