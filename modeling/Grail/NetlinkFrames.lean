import Grail.Frames

/-! # What leaves the routing table alone

Only requests to netlink sockets change the routing table, and only `recvmsg` on a netlink socket
stores a reply in the tracee.  `Unserved s s'` says that neither has happened; it holds of every
handler but those of `sendmsg`, `sendto` and `recvmsg` on netlink sockets (`handle_unserved`) and
of every step that dispatches no such call (`step_unserved`).

The lemmas follow the order of the definitions that they are about. -/

namespace Grail

open Programs

/-- The reply that is stored. -/
def Val.reply? : Val → Option Reply
  | reply r => some r
  | _ => none

/-- The replies that the tracee has been given, in order. -/
def Data.delivered (d : Data) : List Reply :=
  d.stores.reverse.filterMap fun store => store.2.2.reply?

/-- Descriptors name netlink sockets that have been created, and the queues of the others are
empty. -/
structure NlTables (d : Data) : Prop where
  named : ∀ fd nl, d.fds.netlinks.find fd = some nl → nl < d.nextNl
  fresh : ∀ nl, d.nextNl ≤ nl → (d.nls nl).replyQueue = []

/-- No route is changed, no reply queued or delivered. -/
structure Unserved (s s' : St) : Prop where
  rt : s'.d.rt = s.d.rt
  delivered : s'.d.delivered = s.d.delivered
  tables : NlTables s.d →
    NlTables s'.d ∧ ∀ nl, (s'.d.nls nl).replyQueue = (s.d.nls nl).replyQueue

theorem Unserved.refl (s : St) : Unserved s s := ⟨rfl, rfl, fun h => ⟨h, fun _ => rfl⟩⟩

theorem Unserved.trans {s s' s'' : St} (h : Unserved s s') (h' : Unserved s' s'') :
    Unserved s s'' := by
  refine ⟨h'.rt.trans h.rt, h'.delivered.trans h.delivered, fun ht => ?_⟩
  obtain ⟨ht', hq⟩ := h.tables ht
  obtain ⟨ht'', hq'⟩ := h'.tables ht'
  exact ⟨ht'', fun nl => (hq' nl).trans (hq nl)⟩

/-- Neither the netlink sockets nor the routing table differ. -/
structure SameService (d d' : Data) : Prop where
  rt : d'.rt = d.rt
  stores : d'.stores = d.stores
  nls : d'.nls = d.nls
  nextNl : d'.nextNl = d.nextNl
  netlinks : d'.fds.netlinks = d.fds.netlinks

theorem Unserved.of_delivered {s s' : St} (hrt : s'.d.rt = s.d.rt)
    (hd : s'.d.delivered = s.d.delivered) (hnls : s'.d.nls = s.d.nls)
    (hnext : s'.d.nextNl = s.d.nextNl) (hnetlinks : s'.d.fds.netlinks = s.d.fds.netlinks) :
    Unserved s s' := by
  refine ⟨hrt, hd, fun ht => ⟨⟨?_, ?_⟩, fun nl => by rw [hnls]⟩⟩
  · rw [hnetlinks, hnext]
    exact ht.named
  · rw [hnls, hnext]
    exact ht.fresh

theorem SameService.unserved {s s' : St} (h : SameService s.d s'.d) : Unserved s s' :=
  .of_delivered h.rt (by simp only [Data.delivered, h.stores]) h.nls h.nextNl h.netlinks

/-- Only the control part differs. -/
theorem Unserved.of_data {s s' : St} (h : s'.d = s.d) : Unserved s s' :=
  SameService.unserved (h ▸ ⟨rfl, rfl, rfl, rfl, rfl⟩)

/-- The name of a netlink socket is changed. -/
theorem Unserved.setNetlink {s : St} {nl : NlId} {sock : NetlinkSocket}
    (h : sock.replyQueue = (s.d.nls nl).replyQueue) :
    Unserved s { s with d := s.d.setNetlink nl sock } := by
  have hq : ∀ nl', ((s.d.setNetlink nl sock).nls nl').replyQueue = (s.d.nls nl').replyQueue := by
    intro nl'
    by_cases hnl : nl' = nl
    · subst hnl
      simp [Data.setNetlink, h]
    · simp [Data.setNetlink, hnl]
  refine ⟨rfl, rfl, fun ht => ⟨⟨ht.named, fun nl' hnl => ?_⟩, hq⟩⟩
  exact (hq nl').trans (ht.fresh nl' hnl)

/-- Neither the routing table nor the replies in the tracee depend on the program. -/
abbrev KeepsService {α : Type} (m : M α) : Prop := Frames Unserved m

namespace KeepsService

variable {α β : Type}

theorem bind {m : M α} {f : α → M β} (hm : KeepsService m) (hf : ∀ a, KeepsService (f a)) :
    KeepsService (m >>= f) := Frames.bind (R := Unserved) Unserved.trans hm hf

theorem pure (a : α) : KeepsService (Pure.pure a : M α) := Frames.pure Unserved.refl a

theorem throw (e : Crash) : KeepsService (MonadExcept.throw e : M α) := Frames.throw e

theorem throw_bind (e : Crash) (f : α → M β) : KeepsService ((MonadExcept.throw e : M α) >>= f) :=
  fun _ => by simp

theorem ite {c : Prop} [Decidable c] {m n : M α} (hm : KeepsService m) (hn : KeepsService n) :
    KeepsService (if c then m else n) := by
  split_ifs
  · exact hm
  · exact hn

theorem get : KeepsService (MonadState.get : M St) := fun s => (wp_get _ _).mpr (Unserved.refl s)

/-! ### Primitives -/

theorem modifyCtl (f : Ctl → Ctl) : KeepsService (modifyCtl f) := fun _ =>
  (wp_modifyCtl _ _ _).mpr (.of_data rfl)

/-- Other fields of the data are changed. -/
theorem modifyData {f : Data → Data} (h : ∀ d, SameService d (f d)) : KeepsService (modifyData f) :=
  fun s => (wp_modifyData _ _ _).mpr (h s.d).unserved

/-- Tables of other descriptors are changed. -/
theorem modifyFds {f : Fds → Fds} (h : ∀ fs, (f fs).netlinks = fs.netlinks) :
    KeepsService (modifyFds f) := modifyData fun d => ⟨rfl, rfl, rfl, rfl, h d.fds⟩

theorem ask : KeepsService ask := fun _ =>
  (wp_ask _ _).mpr (SameService.unserved ⟨rfl, rfl, rfl, rfl, rfl⟩)

theorem waitForSyscall (handled : Bool) (p : Pid) : KeepsService (waitForSyscall handled p) :=
  fun _ => wp_waitForSyscall (fun _ _ _ => .of_data rfl) (fun _ _ _ _ _ _ _ => .of_data rfl)
    fun _ _ _ _ _ _ => .of_data rfl

theorem setOrigRax (p : Pid) : KeepsService (setOrigRax p) := fun _ =>
  wp_setOrigRax fun _ _ => .of_data rfl

theorem fakeAt (p : Pid) (v : ℤ) (res : SyscallHandlerStatusCode) : KeepsService (fakeAt p v res) :=
  fun _ => wp_fakeAt (fun _ _ => .of_data rfl) fun _ _ => .of_data rfl

theorem fake (v : ℤ) (res : SyscallHandlerStatusCode) : KeepsService (fake v res) :=
  bind get fun _ => fakeAt _ v res

theorem handleSyscallAfter : KeepsService handleSyscallAfter := by
  refine bind get fun _ => bind (modifyCtl _) fun _ => bind (waitForSyscall _ _) fun _ => ?_
  exact ite (pure _) (pure _)

theorem memcpyToTracee (p : Pid) (dst : Ptr) {val : Val} (h : val.reply? = none) :
    KeepsService (memcpyToTracee p dst val) := by
  refine bind get fun s => ?_
  cases s.c.threads p with
  | none => exact throw _
  | some th =>
      refine fun s₁ => (wp_modifyData _ _ _).mpr (.of_delivered rfl ?_ rfl rfl rfl)
      simp [Data.delivered, h]

theorem storeToTracee (p : Pid) (dst : Ptr) {val : Val} (h : val.reply? = none) :
    KeepsService (storeToTracee p dst val) := ite (pure ()) (memcpyToTracee p dst h)

theorem storeFdSets (p : Pid) (act : ℕ) (r w e : FdSet) :
    KeepsService (storeFdSets p act r w e) := by
  refine bind get fun _ => ite (throw_bind _ _) ?_
  exact modifyData fun _ => ⟨rfl, rfl, rfl, rfl, rfl⟩

theorem setBsdAddress (addr : Option (ℕ × ℕ)) (out : SockaddrOut) :
    KeepsService (setBsdAddress addr out) := by
  refine ite (pure true) ?_
  cases addr with
  | none => exact pure false
  | some a =>
      refine bind get fun _ => bind (memcpyToTracee _ _ rfl) fun _ => ?_
      exact bind (memcpyToTracee _ _ rfl) fun _ => pure true

theorem getNs3Address (addr : Sockaddr) : KeepsService (getNs3Address addr) :=
  ite (throw_bind _ _) (pure _)

theorem schedule (delay : ℤ) (kind : EventKind) : KeepsService (schedule delay kind) :=
  ite (throw_bind _ _) (modifyCtl _)

theorem processStatusCode (res : SyscallHandlerStatusCode) (p : Pid) :
    KeepsService (processStatusCode res p) := fun _ =>
  wp_processStatusCode (fun _ => .of_data rfl) (fun _ => .refl _) fun _ _ => .refl _

theorem getNextFD : KeepsService getNextFD := fun _ =>
  (wp_getNextFD _ _).mpr fun _ _ => SameService.unserved ⟨rfl, rfl, rfl, rfl, rfl⟩

theorem socketsAt (fd : Fd) : KeepsService (socketsAt fd) := fun _ =>
  (wp_socketsAt _ _ _).mpr fun _ _ => .refl _

theorem newSocket (tcp : Bool) (rx tx : ℕ) : KeepsService (newSocket tcp rx tx) := fun _ =>
  (wp_newSocket _ _ _ _ _).mpr (SameService.unserved ⟨rfl, rfl, rfl, rfl, rfl⟩)

theorem createSocket (tcp : Bool) : KeepsService (createSocket tcp) :=
  bind ask fun _ => newSocket _ _ _

theorem ns3Listen (sock : SockId) : KeepsService (ns3Listen sock) := by
  refine bind ask fun a => ite (bind ?_ fun _ => pure _) (pure _)
  exact modifyData fun _ => ⟨rfl, rfl, rfl, rfl, rfl⟩

theorem ns3Recv (sock : SockId) : KeepsService (ns3Recv sock) :=
  bind ask fun _ => bind (modifyData fun _ => ⟨rfl, rfl, rfl, rfl, rfl⟩) fun _ => pure _

theorem ns3Send (sock : SockId) : KeepsService (ns3Send sock) :=
  bind ask fun _ => bind (modifyData fun _ => ⟨rfl, rfl, rfl, rfl, rfl⟩) fun _ => pure _

theorem noteReturned (sock : Option SockId) (conn : SockId) :
    KeepsService (noteReturned sock conn) := by
  intro s
  refine (wp_noteReturned _ _ _ _).mpr ?_
  unfold St.returning
  cases sock with
  | none => exact Unserved.refl s
  | some sock =>
      dsimp only
      split_ifs
      · exact SameService.unserved ⟨rfl, rfl, rfl, rfl, rfl⟩
      · exact Unserved.refl s

/-! ### Callbacks -/

theorem onBehalf (task : Task) {m : M Unit} (hm : KeepsService m) :
    KeepsService (onBehalf task m) :=
  bind get fun _ => bind (modifyCtl _) fun _ => bind hm fun _ => modifyCtl _

/-- The bytes that have been received are copied, if there are any. -/
theorem storeBytes (p : Pid) (buf : Ptr) (n : ℕ) (c : Prop) [Decidable c] {f : Unit → M α}
    (hf : KeepsService (f ())) :
    KeepsService (if c then Grail.memcpyToTracee p buf (.bytes n) >>= f else f ()) :=
  ite (bind (memcpyToTracee p buf rfl) fun _ => hf) hf

theorem readCallback (task : Task) (buf : Ptr) (count : ℕ) (sock : SockId) :
    KeepsService (readCallback task buf count sock) := by
  refine bind (ns3Recv sock) fun a => storeBytes _ _ _ _ ?_
  refine bind (fakeAt _ _ _) fun _ => bind (processStatusCode _ _) fun _ => modifyCtl _

theorem recvfromCallback (task : Task) (buffer : Ptr) (length : ℕ) (out : SockaddrOut)
    (sock : SockId) : KeepsService (recvfromCallback task buffer length out sock) := by
  refine bind (ns3Recv sock) fun a => bind (setBsdAddress _ _) fun ok => ?_
  refine ite (bind (processStatusCode _ _) fun _ => modifyCtl _) (storeBytes _ _ _ _ ?_)
  exact bind (fakeAt _ _ _) fun _ => bind (processStatusCode _ _) fun _ => modifyCtl _

theorem selectReady (cl : SelectClosure) (target : Pid) (r w : FdSet) :
    KeepsService (selectReady cl target r w) :=
  bind (storeFdSets _ _ _ _ _) fun _ => bind (fakeAt _ _ _) fun _ => processStatusCode _ _

/-- A callback of `select` does nothing if the call has been answered. -/
theorem unlessHandled (cl : SelectClosure) {m : M Unit} (hm : KeepsService m) :
    KeepsService (do
      if (← MonadState.get).c.alreadyHandled cl.task.act then return
      m) := bind get fun _ => ite (pure ()) hm

theorem selectSendCallback (cl : SelectClosure) (sock : SockId) :
    KeepsService (selectSendCallback cl sock) :=
  unlessHandled cl <| bind (modifyCtl _) fun _ => bind (selectReady _ _ _ _) fun _ => modifyCtl _

theorem selectRecvCallback (cl : SelectClosure) (sock : SockId) :
    KeepsService (selectRecvCallback cl sock) :=
  unlessHandled cl <| bind (modifyCtl _) fun _ => bind get fun _ =>
    bind (selectReady _ _ _ _) fun _ => modifyCtl _

theorem selectAcceptCallback (cl : SelectClosure) (newSock : SockId) (newAddr : Option (ℕ × ℕ)) :
    KeepsService (selectAcceptCallback cl newSock newAddr) :=
  unlessHandled cl <| bind (modifyCtl _) fun _ => bind (modifyFds fun _ => rfl) fun _ =>
    bind (socketsAt _) fun _ => bind (modifyCtl _) fun _ => bind (modifyCtl _) fun _ =>
      selectReady _ _ _ _

theorem selectNetlinkCallback (cl : SelectClosure) (nl : NlId) :
    KeepsService (selectNetlinkCallback cl nl) :=
  unlessHandled cl <| bind (modifyCtl _) fun _ => bind (selectReady _ _ _ _) fun _ => modifyCtl _

theorem selectTimeout (task : Task) : KeepsService (selectTimeout task) :=
  unlessHandled ⟨task, 0⟩ <| bind (modifyCtl _) fun _ => bind (fakeAt _ _ _) fun _ =>
    processStatusCode _ _

theorem acceptCallback (task : Task) (out : SockaddrOut) (sock newSock : SockId)
    (newAddr : Option (ℕ × ℕ)) : KeepsService (acceptCallback task out sock newSock newAddr) :=
  bind (setBsdAddress _ _) fun _ => bind getNextFD fun _ => bind (modifyFds fun _ => rfl) fun _ =>
    bind get fun _ => bind (fakeAt _ _ _) fun _ => bind (noteReturned _ _) fun _ =>
      processStatusCode _ _

theorem connectSucceeded (cl : ConnectCallback) : KeepsService (connectSucceeded cl) :=
  bind (modifyFds fun _ => rfl) fun _ => bind (fakeAt _ _ _) fun _ => processStatusCode _ _

theorem connectFailed (cl : ConnectCallback) : KeepsService (connectFailed cl) :=
  bind (fakeAt _ _ _) fun _ => processStatusCode _ _

theorem nanosleepDone (task : Task) : KeepsService (nanosleepDone task) :=
  bind (fakeAt _ _ _) fun _ => processStatusCode _ _

/-! ### Handlers -/

theorem handleOnKernelFd (fd : Fd) : KeepsService (handleOnKernelFd fd) :=
  bind get fun _ => ite (throw _) handleSyscallAfter

theorem handleClone : KeepsService handleClone := by
  refine bind get fun _ => bind (modifyCtl _) fun _ => bind (waitForSyscall _ _) fun _ => ?_
  refine ite (pure _) (bind get fun s => ?_)
  dsimp only
  split
  · exact throw _
  · exact ite (throw_bind _ _) (bind (modifyCtl _) fun _ => pure _)

theorem handlePipe2 (pipefd : Fd × Fd) : KeepsService (handlePipe2 pipefd) :=
  bind get fun _ => ite (pure _) handleSyscallAfter

theorem handleGetRUsage (r_usage : Ptr) : KeepsService (handleGetRUsage r_usage) :=
  bind get fun _ => bind (memcpyToTracee _ _ rfl) fun _ => fake _ _

/-- The queue of a closed socket stays as it is. -/
theorem closeNetlink (fd : Fd) : KeepsService (Grail.modifyFds (·.closeNetlink fd)) := by
  intro s
  refine (wp_modifyFds _ _ _).mpr ⟨rfl, rfl, fun ht => ⟨⟨fun fd' nl h => ?_, ht.fresh⟩, ?_⟩⟩
  have h : (s.d.fds.netlinks.erase fd).find fd' = some nl := h
  rw [StdMap.find_erase] at h
  split_ifs at h
  · exact ht.named fd' nl h
  · exact fun _ => rfl

theorem handleClose (fd : Fd) : KeepsService (handleClose fd) := by
  refine bind get fun s => ite handleSyscallAfter ?_
  split
  · exact bind ask fun _ => bind (modifyFds fun _ => rfl) fun _ =>
      bind (schedule _ _) fun _ => fake _ _
  · refine ite (bind (closeNetlink fd) fun _ => fake _ _) ?_
    exact ite (bind (modifyFds fun _ => rfl) fun _ => fake _ _) (throw _)

theorem handleOpen (pathname : List Char) : KeepsService (handleOpen pathname) :=
  ite (bind getNextFD fun _ => bind (modifyFds fun _ => rfl) fun _ => fake _ _) handleSyscallAfter

theorem handleFcntl (fd : Fd) (cmd flags : ℤ) : KeepsService (handleFcntl fd cmd flags) := by
  refine bind get fun _ => ite handleSyscallAfter (ite (fake _ _) (ite (fake _ _) ?_))
  exact ite (ite (bind (modifyFds fun _ => rfl) fun _ => fake _ _) (fake _ _)) (pure _)

theorem withWifiDevice (ifreq : Option Ifreq) {noDevice : M SyscallHandlerStatusCode}
    {body : Ptr → NetDevice → M SyscallHandlerStatusCode} (hn : KeepsService noDevice)
    (hb : ∀ ifr wifi, KeepsService (body ifr wifi)) :
    KeepsService (withWifiDevice ifreq noDevice body) := by
  cases ifreq with
  | none => exact fake _ _
  | some ifreq =>
      refine bind get fun s => ?_
      split
      · exact throw _
      · exact hn
      · exact hb _ _

theorem firstAddress (wifi : NetDevice) : KeepsService (firstAddress wifi) := by
  unfold Grail.firstAddress
  split
  · exact throw _
  · exact pure _

theorem handleIoctl (fd : Fd) (request : ℕ) (ifreq : Option Ifreq) :
    KeepsService (handleIoctl fd request ifreq) := by
  have answer : ∀ (p : Pid) (ifr : Ptr) (val : Val), val.reply? = none → KeepsService (do
      Grail.memcpyToTracee p ifr val
      Grail.fake 0 .success) := fun p ifr _ h => bind (memcpyToTracee p ifr h) fun _ => fake _ _
  refine bind get fun s => ite (fake _ _) (ite handleSyscallAfter ?_)
  refine ite (withWifiDevice _ (fake _ _) fun _ _ => answer _ _ _ rfl) ?_
  refine ite (withWifiDevice _ (pure _) fun _ _ => answer _ _ _ rfl) ?_
  refine ite (withWifiDevice _ (fake _ _) fun _ _ =>
    bind (firstAddress _) fun _ => answer _ _ _ rfl) ?_
  refine ite (withWifiDevice _ (fake _ _) fun _ _ =>
    bind (firstAddress _) fun _ => answer _ _ _ rfl) ?_
  exact ite (withWifiDevice _ (fake _ _) fun _ _ => answer _ _ _ rfl) (pure _)

theorem getSockOptValue (optval optlen : Ptr) : KeepsService (getSockOptValue optval optlen) :=
  bind get fun _ => bind ask fun _ => bind (memcpyToTracee _ _ rfl) fun _ =>
    bind (memcpyToTracee _ _ rfl) fun _ => fake _ _

theorem tcpSocketAt (fd : Fd) : KeepsService (tcpSocketAt fd) :=
  bind (socketsAt fd) fun _ => bind get fun _ => ite (pure _) (throw _)

theorem handleGetSockOpt (sockfd : Fd) (level optname : ℤ) (optval optlen : Ptr) :
    KeepsService (handleGetSockOpt sockfd level optname optval optlen) := by
  have socket : KeepsService (do
      let _ ← Grail.socketsAt sockfd
      Grail.getSockOptValue optval optlen) :=
    bind (socketsAt _) fun _ => getSockOptValue _ _
  have tcp : KeepsService (do
      let _ ← Grail.tcpSocketAt sockfd
      Grail.getSockOptValue optval optlen) :=
    bind (tcpSocketAt _) fun _ => getSockOptValue _ _
  refine bind get fun _ => ite handleSyscallAfter (ite (throw _) (ite ?_ (ite (pure _) ?_)))
  · -- `SOL_SOCKET`
    exact ite socket (ite tcp (ite socket (pure _)))
  · refine ite (ite tcp (ite ?_ (ite (fake _ _) (pure _)))) (fake _ _)
    exact bind (memcpyToTracee _ _ rfl) fun _ => bind (memcpyToTracee _ _ rfl) fun _ => fake _ _

theorem handleSetSockOpt (sockfd : Fd) (level optname : ℤ) (optlen : ℕ) :
    KeepsService (handleSetSockOpt sockfd level optname optlen) := by
  have broadcast : KeepsService (do
      let _ ← Grail.socketsAt sockfd
      let _ ← Grail.ask
      Grail.fake 0 .success) := bind (socketsAt _) fun _ => bind ask fun _ => fake _ _
  refine bind get fun _ => ite handleSyscallAfter (ite ?_ (ite (ite (fake _ _) (pure _)) ?_))
  · -- `SOL_SOCKET`
    refine ite (ite (throw _) broadcast) (ite (fake _ _) (ite (ite (throw _) (fake _ _)) ?_))
    exact ite (fake _ _) (ite (fake _ _) (pure _))
  · exact ite (ite (ite (throw _) (pure _)) (pure _)) (fake _ _)

theorem handleTime (tloc : Ptr) : KeepsService (handleTime tloc) :=
  bind get fun _ => bind (storeToTracee _ _ rfl) fun _ => fake _ _

theorem handleGetTimeOfDay (tv tz : Ptr) : KeepsService (handleGetTimeOfDay tv tz) :=
  bind get fun _ => ite (throw _) (bind (storeToTracee _ _ rfl) fun _ => fake _ _)

theorem handleClockGetTime (clk_id : ℤ) (tp : Ptr) : KeepsService (handleClockGetTime clk_id tp) :=
  bind get fun _ => ite (fake _ _) (bind (storeToTracee _ _ rfl) fun _ => pure _)

theorem handleClockGetRes (clk_id : ℤ) (res : Ptr) : KeepsService (handleClockGetRes clk_id res) :=
  bind get fun _ => ite (fake _ _) (bind (storeToTracee _ _ rfl) fun _ => pure _)

theorem handlePoll (fds : List PollFd) (timeout : ℤ) : KeepsService (handlePoll fds timeout) :=
  bind get fun _ => ite (pure _) handleSyscallAfter

theorem handleGetRandom (buf : Ptr) (buflen flags : ℕ) :
    KeepsService (handleGetRandom buf buflen flags) := by
  refine ite (pure _) (ite (bind get fun _ => ?_) (fake _ _))
  exact bind (memcpyToTracee _ _ rfl) fun _ => fake _ _

theorem handleFutex (args : FutexArgs) : KeepsService (handleFutex args) :=
  ite (fake _ _) handleSyscallAfter

/-! ### Handlers of sockets -/

theorem handleRead (fd : Fd) (buf : Ptr) (count : ℕ) : KeepsService (handleRead fd buf count) := by
  refine bind get fun s => ite handleSyscallAfter (ite (storeBytes _ _ _ _ (fake _ _)) ?_)
  refine ite (bind (socketsAt _) fun sock => ite ?_ (ite (fake _ _) ?_)) (throw _)
  · exact bind (readCallback _ _ _ _) fun _ => pure _
  · exact bind (modifyCtl _) fun _ => pure _

theorem handleWrite (fd : Fd) (buf : Ptr) (count : ℕ) :
    KeepsService (handleWrite fd buf count) := by
  refine bind get fun s => ite handleSyscallAfter (ite ?_ (ite (pure _) ?_))
  · exact ite (throw_bind _ _) (bind (setOrigRax _) fun _ => fake _ _)
  · refine bind (socketsAt _) fun sock => ite (ite (fake _ _) ?_) ?_
    · exact bind (modifyCtl _) fun _ => pure _
    · refine bind (ns3Send _) fun _ => bind (fake _ _) fun _ => ?_
      exact ite (pure _) (ite (pure _) (pure _))

theorem replyAddress (out : SockaddrOut) : KeepsService (replyAddress out) :=
  bind ask fun _ => bind (setBsdAddress _ _) fun _ => fake _ _

theorem handleGetPeerName (sockfd : Fd) (out : SockaddrOut) :
    KeepsService (handleGetPeerName sockfd out) :=
  bind get fun _ => ite (throw_bind _ _) (bind (socketsAt _) fun _ => replyAddress _)

/-- The queue of a new netlink socket is empty, as it was before the socket was created. -/
theorem openNetlink (p : Pid) (nl_pid : ℤ) (s : St) : wp (do
    let newSocketFd ← Grail.getNextFD
    Grail.modifyData (·.newNetlink p nl_pid)
    Grail.modifyFds (·.addNetlink newSocketFd s.d.nextNl)
    Grail.fake newSocketFd .success) (fun _ s' => Unserved s s') s := by
  simp only [wp_bind, wp_getNextFD, wp_modifyData, wp_modifyFds]
  intro fd _
  refine (fake fd .success _).mono fun _ s' h => Unserved.trans ?_ h
  refine ⟨rfl, rfl, fun ht => ⟨⟨fun fd' nl hfd => ?_, fun nl hnl => ?_⟩, fun nl => ?_⟩⟩
  · have hfd : (s.d.fds.netlinks.assign fd s.d.nextNl).find fd' = some nl := hfd
    rw [StdMap.find_assign] at hfd
    show nl < s.d.nextNl + 1
    split_ifs at hfd with he
    · cases hfd
      exact Nat.lt_succ_self _
    · exact (ht.named fd' nl hfd).trans (Nat.lt_succ_self _)
  · have hnl : s.d.nextNl + 1 ≤ nl := hnl
    have hne : nl ≠ s.d.nextNl := (Nat.lt_of_succ_le hnl).ne'
    simpa [Data.newNetlink, Data.withFds, hne] using ht.fresh nl (Nat.le_of_succ_le hnl)
  · by_cases hne : nl = s.d.nextNl
    · subst hne
      simp [Data.newNetlink, Data.withFds, ht.fresh s.d.nextNl le_rfl]
    · simp [Data.newNetlink, Data.withFds, hne]

theorem handleSocket (domain type protocol : ℤ) :
    KeepsService (handleSocket domain type protocol) := by
  have openSocket : ∀ (tcp : Bool) (add : Fd → SockId → Fds → Fds),
      (∀ fd sock fs, (add fd sock fs).netlinks = fs.netlinks) → KeepsService (do
        let socket ← Grail.createSocket tcp
        let newSocketFd ← Grail.getNextFD
        Grail.modifyFds (add newSocketFd socket)
        Grail.fake newSocketFd .success) := fun tcp add h =>
    bind (createSocket tcp) fun _ => bind getNextFD fun _ => bind (modifyFds (h _ _)) fun _ =>
      fake _ _
  intro s
  unfold Grail.handleSocket
  rw [wp_bind, wp_get]
  simp only [wp_ite]
  refine ⟨fun _ => ⟨fun _ => ?_, fun _ => ⟨fun _ => ?_, fun _ => fake _ _ s⟩⟩,
    fun _ => ⟨fun _ => ⟨fun _ => fake _ _ s, fun _ => ⟨fun _ => ?_, fun _ => fake _ _ s⟩⟩,
      fun _ => fake _ _ s⟩⟩
  · exact openSocket false Fds.addSocket (fun _ _ _ => rfl) s
  · exact openSocket true Fds.addTcpSocket (fun _ _ _ => rfl) s
  · exact openNetlink _ _ s

theorem handleListen (sockfd : Fd) (backlog : ℤ) : KeepsService (handleListen sockfd backlog) := by
  refine bind get fun _ => ite (fake _ _) (ite (fake _ _) (bind (socketsAt _) fun _ => ?_))
  refine bind (ns3Listen _) fun _ => bind (modifyFds fun _ => rfl) fun _ => ?_
  refine bind (fake _ _) fun _ => ?_
  exact ite (pure _) (ite (pure _) (bind (modifyCtl _) fun _ => pure _))

theorem ns3Connect (cl : ConnectCallback) (sock : SockId) : KeepsService (ns3Connect cl sock) := by
  refine bind ask fun _ => ite (pure _) (bind get fun _ => ?_)
  exact ite (modifyCtl _) (connectSucceeded cl)

theorem handleConnect (sockfd : Fd) (addr : Sockaddr) :
    KeepsService (handleConnect sockfd addr) := by
  refine bind get fun _ => ite (fake _ _) (bind (getNs3Address _) fun _ => ite (pure _) ?_)
  refine bind (socketsAt _) fun _ => bind (modifyCtl _) fun _ => ?_
  exact bind (ns3Connect _ _) fun _ => pure _

theorem handleRecvFrom (sockfd : Fd) (buffer : Ptr) (length : ℕ) (flags : ℤ) (out : SockaddrOut) :
    KeepsService (handleRecvFrom sockfd buffer length flags out) := by
  refine bind get fun s => ?_
  dsimp only
  split
  · exact pure _
  · refine ite (bind (recvfromCallback _ _ _ _ _) fun _ => pure _) (ite (fake _ _) ?_)
    exact bind (modifyCtl _) fun _ => pure _

theorem handleAccept (sockfd : Fd) (out : SockaddrOut) :
    KeepsService (handleAccept sockfd out) := by
  refine bind get fun s => ite (throw_bind _ _) ?_
  dsimp only
  split
  · refine bind (modifyFds fun _ => rfl) fun _ => bind (setBsdAddress _ _) fun _ => ?_
    refine bind getNextFD fun _ => ?_
    refine bind (modifyFds fun _ => rfl) fun _ => bind (fake _ _) fun _ => ?_
    exact bind (noteReturned _ _) fun _ => pure _
  · refine ite (fake _ _) (bind (socketsAt _) fun _ => bind (modifyCtl _) fun _ => pure _)

theorem handleNanoSleep (req : Timespec) : KeepsService (handleNanoSleep req) :=
  bind get fun _ => bind (schedule _ _) fun _ => pure _

theorem handleSelect (args : SelectArgs) : KeepsService (handleSelect args) := by
  refine bind get fun s => bind (modifyData fun _ => ⟨rfl, rfl, rfl, rfl, rfl⟩) fun _ => ?_
  split
  · exact pure _
  · split
    · exact pure _
    · refine bind (modifyCtl _) fun _ => ite ?_ ?_
      · unfold selectBlock
        split
        · exact pure _
        · exact bind (schedule _ _) fun _ => pure _
      · have answer : ∀ p : Pid, ∀ v : ℤ, KeepsService (do
            if args.timeout.isSome then Grail.memcpyToTracee p 0 (.timeval ⟨0, 0⟩)
            Grail.fake v .success) := fun _ _ =>
          ite (bind (memcpyToTracee _ _ rfl) fun _ => fake _ _) (fake _ _)
        refine bind get fun _ => ite (bind (modifyCtl _) fun _ => ?_) ?_
        · exact bind (storeFdSets _ _ _ _ _) fun _ => answer _ _
        · exact bind (storeFdSets _ _ _ _ _) fun _ => answer _ _

theorem nlFake (nl : NlId) (v : ℤ) (res : SyscallHandlerStatusCode) :
    KeepsService (nlFake nl v res) := bind get fun _ => fakeAt _ _ _

theorem nlHandleBind (nl : NlId) (addr : Sockaddr) : KeepsService (nlHandleBind nl addr) := by
  intro s
  unfold Grail.nlHandleBind
  rw [wp_bind, wp_get, wp_bind, wp_modifyData]
  refine (nlFake nl 0 .success _).mono fun _ s' h => Unserved.trans ?_ h
  exact Unserved.setNetlink rfl

theorem nlHandleGetSockName (nl : NlId) (out : SockaddrOut) :
    KeepsService (nlHandleGetSockName nl out) := by
  refine bind get fun _ => ite (throw_bind _ _) ?_
  exact bind (memcpyToTracee _ _ rfl) fun _ => bind (memcpyToTracee _ _ rfl) fun _ => nlFake _ _ _

theorem handleBind (sockfd : Fd) (addr : Sockaddr) : KeepsService (handleBind sockfd addr) := by
  refine bind get fun s => ?_
  dsimp only
  split
  · exact bind (getNs3Address _) fun _ => ite (pure _) (bind ask fun _ => fake _ _)
  · split
    · exact nlHandleBind _ _
    · exact pure _

theorem handleGetSockName (sockfd : Fd) (out : SockaddrOut) :
    KeepsService (handleGetSockName sockfd out) := by
  refine bind get fun s => ?_
  dsimp only
  split
  · exact nlHandleGetSockName _ _
  · exact ite (replyAddress _) (pure _)

end KeepsService

/-! ### Calls -/

/-- The calls that the service of a netlink socket answers. -/
def Syscall.isService : Syscall → Bool
  | .sendmsg _ _ => true
  | .sendto _ _ _ _ => true
  | .recvmsg _ _ _ => true
  | _ => false

section calls

variable {s : St} {call : Syscall}

theorem handleSendTo_unserved {sockfd : Fd} {buf : Iovec} {flags : ℤ} {dest_addr : Option Sockaddr}
    (hn : netlinkOf s.d.fds (.sendto sockfd buf flags dest_addr) = none) :
    wp (handleSendTo sockfd buf flags dest_addr) (fun _ s' => Unserved s s') s := by
  unfold handleSendTo
  simp only [wp_bind, wp_get]
  cases hsock : s.d.fds.sockets.find sockfd with
  | none =>
      have hnl : s.d.fds.netlinks.find sockfd = none := by
        simpa [netlinkOf, netlinkFd, hsock] using hn
      simp only [hnl]
      exact (wp_pure _ _ _).mpr (Unserved.refl s)
  | some sock =>
      have send : KeepsService (do
          let ret ← ns3Send sock
          fake ret .success) := .bind (.ns3Send _) fun _ => .fake _ _
      refine KeepsService.ite (.pure _) ?_ s
      cases dest_addr with
      | none => exact send
      | some addr => exact .bind (.getNs3Address _) fun _ => .ite (.throw_bind _ _) send

/-- A call that is not answered by the service of a netlink socket. -/
theorem handle_unserved (h : call.isService = true → netlinkOf s.d.fds call = none) :
    wp (handle call) (fun _ s' => Unserved s s') s := by
  unfold handle
  rw [wp_bind, wp_get]
  cases call with
  | plain => exact KeepsService.handleSyscallAfter s
  | dup fd => exact KeepsService.handleOnKernelFd fd s
  | stat arg => exact KeepsService.handleOnKernelFd arg s
  | read => exact KeepsService.handleRead _ _ _ s
  | «open» => exact KeepsService.handleOpen _ s
  | openat => exact KeepsService.handleOpen _ s
  | close => exact KeepsService.handleClose _ s
  | pipe2 => exact KeepsService.handlePipe2 _ s
  | getpid => exact KeepsService.bind .get (fun _ => .fake _ _) s
  | ioctl => exact KeepsService.handleIoctl _ _ _ s
  | fcntl => exact KeepsService.handleFcntl _ _ _ s
  | exitGroup => exact KeepsService.pure _ s
  | getsockname => exact KeepsService.handleGetSockName _ _ s
  | getpeername => exact KeepsService.handleGetPeerName _ _ s
  | write => exact KeepsService.handleWrite _ _ _ s
  | setsockopt => exact KeepsService.handleSetSockOpt _ _ _ _ s
  | getsockopt => exact KeepsService.handleGetSockOpt _ _ _ _ _ s
  | socket => exact KeepsService.handleSocket _ _ _ s
  | connect => exact KeepsService.handleConnect _ _ s
  | listen => exact KeepsService.handleListen _ _ s
  | sendto => exact handleSendTo_unserved (h rfl)
  | recvfrom => exact KeepsService.handleRecvFrom _ _ _ _ _ s
  | accept => exact KeepsService.handleAccept _ _ s
  | recvmsg fd iov_base iov_len =>
      have hnl : s.d.fds.netlinks.find fd = none := h rfl
      simp [handleRecvMsg, hnl]
  | sendmsg fd msg_iov =>
      have hnl : s.d.fds.netlinks.find fd = none := h rfl
      simp [handleSendMsg, hnl]
  | nanosleep => exact KeepsService.handleNanoSleep _ s
  | time => exact KeepsService.handleTime _ s
  | alarm => exact KeepsService.throw _ s
  | gettimeofday => exact KeepsService.handleGetTimeOfDay _ _ s
  | clockGettime => exact KeepsService.handleClockGetTime _ _ s
  | clockGetres => exact KeepsService.handleClockGetRes _ _ s
  | bind => exact KeepsService.handleBind _ _ s
  | poll => exact KeepsService.handlePoll _ _ s
  | getrandom => exact KeepsService.handleGetRandom _ _ _ s
  | select => exact KeepsService.handleSelect _ s
  | getrusage => exact KeepsService.handleGetRUsage _ s
  | getuid => exact KeepsService.fake _ _ s
  | geteuid => exact KeepsService.fake _ _ s
  | getgid => exact KeepsService.fake _ _ s
  | getegid => exact KeepsService.fake _ _ s
  | clone => exact KeepsService.handleClone s
  | futex => exact KeepsService.handleFutex _ s
  | exit => exact KeepsService.pure _ s
  | unsupported => exact KeepsService.throw _ s

end calls

/-! ### Steps -/

section steps

variable {s s' : St} {l : Label}

theorem received_unserved (sock : SockId) (rx : ℕ) : KeepsService (received sock rx) := by
  refine .ite (.throw _) (.bind (.modifyData fun _ => ⟨rfl, rfl, rfl, rfl, rfl⟩) fun _ => ?_)
  refine .bind .get fun s => ?_
  split
  · exact .pure _
  · exact .onBehalf _ (.readCallback _ _ _ _)
  · exact .onBehalf _ (.recvfromCallback _ _ _ _ _)
  · exact .onBehalf _ (.selectRecvCallback _ _)

theorem sendable_unserved (sock : SockId) (tx : ℕ) : KeepsService (sendable sock tx) := by
  refine .ite (.throw _) (.bind (.modifyData fun _ => ⟨rfl, rfl, rfl, rfl, rfl⟩) fun _ => ?_)
  refine .bind .get fun s => ?_
  split
  · exact .pure _
  · exact .pure _
  · exact .onBehalf _ (.selectSendCallback _ _)

theorem incoming_unserved (sock : SockId) (addr : Option (ℕ × ℕ)) :
    KeepsService (incoming sock addr) := by
  refine .bind .get fun _ => .ite (.throw_bind _ _) (.bind .ask fun _ => ?_)
  refine .bind (.newSocket _ _ _) fun _ =>
    .bind (.modifyData fun _ => ⟨rfl, rfl, rfl, rfl, rfl⟩) fun _ => ?_
  refine .bind .get fun s => ?_
  split
  · exact .pure _
  · exact .modifyFds fun _ => rfl
  · exact .onBehalf _ (.selectAcceptCallback _ _ _)
  · exact .onBehalf _ (.acceptCallback _ _ _ _ _)

theorem connectEnds_unserved (sock : SockId) {callback : ConnectCallback → M Unit}
    (h : ∀ cl, KeepsService (callback cl)) : KeepsService (connectEnds sock callback) := by
  refine .bind .get fun _ => .ite (.throw _) (.bind (.modifyCtl _) fun _ => ?_)
  split
  · exact .pure _
  · exact .onBehalf _ (h _)

theorem advance_unserved (l : Label) : KeepsService (advance l) :=
  .bind .get fun _ => .ite (.modifyCtl _) (.throw _)

/-- An event that does not resume a thread. -/
theorem runEvent_unserved {kind : EventKind} (h : ∀ p, kind ≠ .handleSyscallBefore p) :
    KeepsService (runEvent kind) := by
  cases kind with
  | handleSyscallBefore p => exact absurd rfl (h p)
  | selectTimeout task => exact .onBehalf _ (.selectTimeout _)
  | nanosleep task => exact .onBehalf _ (.nanosleepDone _)
  | removeClosedSocket sock => exact .bind .ask fun _ => .pure _

/-- What happens is not that a thread is resumed. -/
theorem emulate_unserved (h : resumes s l = none) :
    wp (emulate l) (fun _ s' => Unserved s s') s := by
  obtain ⟨time, what⟩ := l
  cases what with
  | fire i =>
      unfold emulate advance occur fire
      simp only [wp_bind, wp_get, wp_ite, wp_throw, wp_modifyCtl, implies_true, and_true]
      intro _
      cases he : (s.c.setNow time).events[i]? with
      | none => simp
      | some e =>
          simp only [wp_ite, wp_throw, implies_true, true_and, wp_bind, wp_modifyCtl]
          intro _
          have hkind : ∀ p, e.kind ≠ .handleSyscallBefore p := by
            intro p hk
            have hsome : resumes s ⟨time, .fire i⟩ = some p := resumes_eq rfl he hk
            rw [h] at hsome
            cases hsome
          exact (runEvent_unserved hkind _).mono fun _ s' hs' => ⟨hs'.rt, hs'.delivered, hs'.tables⟩
  | received sock rx =>
      exact KeepsService.bind (advance_unserved _) (fun _ => received_unserved sock rx) s
  | sendable sock tx =>
      exact KeepsService.bind (advance_unserved _) (fun _ => sendable_unserved sock tx) s
  | incoming sock addr =>
      exact KeepsService.bind (advance_unserved _) (fun _ => incoming_unserved sock addr) s
  | connected sock =>
      exact KeepsService.bind (advance_unserved _)
        (fun _ => connectEnds_unserved sock .connectSucceeded) s
  | refused sock =>
      exact KeepsService.bind (advance_unserved _)
        (fun _ => connectEnds_unserved sock .connectFailed) s

/-- A thread is resumed and makes no call. -/
theorem gone_unserved {p : Pid} (h : step s l = some s') (hr : resumes s l = some p)
    (hc : s.c.catches p = none) : Unserved s s' := by
  obtain ⟨-, -, ho⟩ := step_cases h
  generalize hl : l.what = what at ho
  cases ho with
  | @fired i e _ hev _ hf =>
      obtain ⟨t, kind⟩ := e
      have hev : s.c.events[i]? = some ⟨t, kind⟩ := hev
      cases hf with
      | gone => exact .of_data rfl
      | @dispatched q c₁ th res s₂ _ hcaught hth =>
          have hcatch : s.c.catches q = some th.origRax := hcaught.catches hth
          have hq : resumes s l = some q := resumes_eq hl hev rfl
          rw [hr, Option.some.injEq] at hq
          subst hq
          rw [hc] at hcatch
          cases hcatch
      | timeoutStale => exact .of_data rfl
      | timeout => exact .of_data rfl
      | slept => exact .of_data rfl
      | removed => simp [resumes, hl, hev] at hr
  | connectIdle hw => rcases hw with rfl | rfl <;> simp [resumes, hl] at hr
  | _ => simp [resumes, hl] at hr

/-- A step that dispatches no call that the service of a netlink socket answers changes no route and
delivers no reply. -/
theorem step_unserved (h : step s l = some s')
    (hd : ∀ p call, dispatched s l = some (p, call) → call.isService = true →
      netlinkOf s.d.fds call = none) : Unserved s s' := by
  cases hr : resumes s l with
  | none =>
      unfold step at h
      split at h
      next a s₁ hrun =>
          cases h
          exact (emulate_unserved hr).elim hrun
      next => cases h
  | some p =>
      cases hc : s.c.catches p with
      | none => exact gone_unserved h hr hc
      | some call =>
          have hdisp : dispatched s l = some (p, call) := dispatched_eq hr hc
          obtain ⟨s₁, res, s₂, hh, hrun, hp⟩ := step_handles h hdisp
          cases hh with
          | @mk i t c₁ th =>
              have hs := (handle_unserved (s := ⟨c₁.dispatch p th, s.d⟩) (hd p _ hdisp)).elim hrun
              exact Unserved.trans ⟨hs.rt, hs.delivered, hs.tables⟩ (.of_data hp.d)

end steps

end Grail
