import Grail.LinkDump
import Grail.NetlinkFrames
import Grail.NetlinkWakes
import Grail.Refinement
import Grail.RouteTables

/-! # The service behind the netlink sockets

`Service` is what the netlink sockets of the emulator offer, apart from threads, descriptors and
time: each socket queues the answers to the requests that are sent to it, and takes the replies that
are received from the front of its queue; all sockets share one map of routes, from a destination
and prefix length to a gateway.

The emulator is an implementation of it: in every run, whatever else the threads do, the calls on
netlink sockets carry out operations of the service, one after the other (`service_of_run`).  So no
reply is lost, duplicated, reordered or given to another socket (`run_replies`). -/

namespace Grail

open Programs

/-! ### The service -/

/-- The queues of the sockets, the replies that have been received from them, the routes. -/
@[ext]
structure Service where
  queue : NlId → List Reply
  received : List Reply
  routes : ℕ × ℕ → Option ℕ

inductive ServiceOp where
  | request (nl : NlId) (msg : Nlmsg)
  | receive (nl : NlId) (reply : Reply)

/-- The change of the routes that is asked for. -/
def RouteOp.update (routes : ℕ × ℕ → Option ℕ) : RouteOp → ℕ × ℕ → Option ℕ
  | add dst len gw => Function.update routes (dst, len) (some gw)
  | del dst len _ => Function.update routes (dst, len) none

/-- The replies to a request, on a node with these devices. -/
def Nlmsg.answer (devices : List NetDevice) : Nlmsg → List Reply
  | getLink _ => (linkReplies 0 ⟨0, 0, 0⟩ devices).toOption.elim [] finalize
  | getAddr _ => (addrReplies 0 devices).toOption.elim [] finalize
  | newRoute _ => [.ack]
  | delRoute _ => [.ack]
  | other _ => []

namespace ServiceOp

/-- The replies that the operation appends to the queue of `nl`. -/
def queued (devices : List NetDevice) (nl : NlId) : ServiceOp → List Reply
  | request nl' msg => if nl' = nl then msg.answer devices else []
  | receive _ _ => []

/-- The replies that it takes from that queue. -/
def taken (nl : NlId) : ServiceOp → List Reply
  | request _ _ => []
  | receive nl' reply => if nl' = nl then [reply] else []

/-- The reply that is received, from any socket. -/
def reply : ServiceOp → List Reply
  | request _ _ => []
  | receive _ reply => [reply]

def routeOp : ServiceOp → Option RouteOp
  | request _ msg => msg.routeOp
  | receive _ _ => none

end ServiceOp

namespace Service

def initial : Service := ⟨fun _ => [], [], fun _ => none⟩

/-- A request is answered; a reply can be received if it is the next one of its socket. -/
def step (devices : List NetDevice) (σ : Service) : ServiceOp → Option Service
  | .request nl msg => some
      { σ with
        queue := Function.update σ.queue nl (σ.queue nl ++ msg.answer devices)
        routes := (msg.routeOp.elim σ.routes fun op => op.update σ.routes) }
  | .receive nl reply =>
      match σ.queue nl with
      | [] => none
      | next :: rest =>
          if reply = next then some
            { σ with
              queue := Function.update σ.queue nl rest
              received := σ.received ++ [reply] }
          else none

variable {devices : List NetDevice} {σ σ' : Service} {op : ServiceOp} {ops : List ServiceOp}

theorem step_receive {nl : NlId} {reply : Reply} :
    step devices σ (.receive nl reply) = some σ' ↔ ∃ rest, σ.queue nl = reply :: rest ∧
      σ' = ⟨Function.update σ.queue nl rest, σ.received ++ [reply], σ.routes⟩ := by
  rw [step]
  cases hq : σ.queue nl with
  | nil => simp
  | cons next rest =>
      dsimp only
      split_ifs with h
      · subst h
        simp [eq_comm]
      · simp [Ne.symm h]

theorem step_queue (nl : NlId) (h : step devices σ op = some σ') :
    σ.queue nl ++ op.queued devices nl = op.taken nl ++ σ'.queue nl := by
  cases op with
  | request nl' msg =>
      cases h
      by_cases hnl : nl' = nl
      · subst hnl
        simp [ServiceOp.queued, ServiceOp.taken]
      · simp [ServiceOp.queued, ServiceOp.taken, hnl, Ne.symm hnl]
  | receive nl' reply =>
      obtain ⟨rest, hq, rfl⟩ := step_receive.mp h
      by_cases hnl : nl' = nl
      · subst hnl
        simp [ServiceOp.queued, ServiceOp.taken, hq]
      · simp [ServiceOp.queued, ServiceOp.taken, hnl, Ne.symm hnl]

/-- What has been queued for a socket has been received from it, in the same order, or is still in
its queue. -/
theorem run_queue (nl : NlId) (h : Runs.run (step devices) σ ops = some σ') :
    σ.queue nl ++ ops.flatMap (·.queued devices nl) = ops.flatMap (·.taken nl) ++ σ'.queue nl :=
  Runs.run_queue (fun _ _ _ hs => step_queue nl hs) h

theorem step_received (h : step devices σ op = some σ') :
    σ'.received = σ.received ++ op.reply := by
  cases op with
  | request nl msg =>
      cases h
      simp [ServiceOp.reply]
  | receive nl reply =>
      obtain ⟨rest, -, rfl⟩ := step_receive.mp h
      rfl

theorem run_received (h : Runs.run (step devices) σ ops = some σ') :
    σ'.received = σ.received ++ ops.flatMap ServiceOp.reply :=
  Runs.run_log (fun _ _ _ hs => step_received hs) h

theorem step_routes (h : step devices σ op = some σ') :
    σ'.routes = op.routeOp.elim σ.routes fun op => op.update σ.routes := by
  cases op with
  | request nl msg =>
      cases h
      rfl
  | receive nl reply =>
      obtain ⟨rest, -, rfl⟩ := step_receive.mp h
      rfl

end Service

/-! ### The routes of a table -/

section routes

variable {entries : List RtEntry}

/-- The gateway of a destination and length. -/
def routeMap (entries : List RtEntry) (k : ℕ × ℕ) : Option ℕ :=
  (entries.find? fun e => e.key = k).map RtEntry.gw

theorem routeMap_delRoute (h : Keyed entries) (dst len gw : ℕ) :
    routeMap (RtEntry.delRoute entries dst len gw) =
      Function.update (routeMap entries) (dst, len) none := by
  funext k
  rw [routeMap, delRoute_eq h, List.find?_filter]
  by_cases hk : k = (dst, len)
  · subst hk
    have hnone : entries.find? (fun e => decide (decide (e.key ≠ (dst, len)) = true ∧
        decide (e.key = (dst, len)) = true)) = none := by
      rw [List.find?_eq_none]
      simp
    rw [hnone, Function.update_self]
    rfl
  · rw [Function.update_of_ne hk, routeMap]
    congr 2
    funext e
    by_cases he : e.key = k
    · simp [he, hk]
    · simp [he]

theorem routeMap_addRoute (h : Keyed entries) (dst len gw : ℕ) :
    routeMap (RtEntry.addRoute entries dst len gw) =
      Function.update (routeMap entries) (dst, len) (some gw) := by
  funext k
  have hdel := congrFun (routeMap_delRoute h dst len gw) k
  rw [routeMap] at hdel
  rw [routeMap, RtEntry.addRoute, List.find?_append, Option.map_or, hdel]
  by_cases hk : k = (dst, len)
  · subst hk
    simp [RtEntry.key]
  · have hnew : ¬ RtEntry.key ⟨dst, len, gw⟩ = k := fun he => hk he.symm
    simp [hk, hnew]

theorem Keyed.apply (h : Keyed entries) (op : RouteOp) : Keyed (op.apply entries) := by
  cases op with
  | add dst len gw => exact h.addRoute
  | del dst len gw => exact h.delRoute

/-- The table of entries implements the map of routes. -/
theorem routeMap_apply (h : Keyed entries) (op : RouteOp) :
    routeMap (op.apply entries) = op.update (routeMap entries) := by
  cases op with
  | add dst len gw => exact routeMap_addRoute h dst len gw
  | del dst len gw => exact routeMap_delRoute h dst len gw

end routes

/-! ### Requests -/

/-- The service that the emulator offers. -/
def St.service (s : St) : Service :=
  ⟨fun nl => (s.d.nls nl).replyQueue, s.d.delivered, routeMap s.d.rt⟩

/-- What the tables of the service satisfy. -/
structure ServiceTables (d : Data) : Prop extends NlTables d where
  keyed : Keyed d.rt

/-- The operations are carried out; `nl` is the netlink socket that is concerned. -/
structure Performs (nl : NlId) (ops : List ServiceOp) (s s' : St) : Prop where
  app : s'.c.app = s.c.app
  serves : ServiceTables s.d → nl < s.d.nextNl → ServiceTables s'.d ∧ nl < s'.d.nextNl ∧
    Runs.run (Service.step s.c.app.devices) s.service ops = some s'.service

namespace Performs

variable {nl : NlId} {ops ops' : List ServiceOp} {s s' s'' : St}

theorem refl (nl : NlId) (s : St) : Performs nl [] s s := ⟨rfl, fun ht hnl => ⟨ht, hnl, rfl⟩⟩

theorem append (h : Performs nl ops s s') (h' : Performs nl ops' s' s'') :
    Performs nl (ops ++ ops') s s'' := by
  refine ⟨h'.app.trans h.app, fun ht hnl => ?_⟩
  obtain ⟨ht', hnl', hrun⟩ := h.serves ht hnl
  obtain ⟨ht'', hnl'', hrun'⟩ := h'.serves ht' hnl'
  refine ⟨ht'', hnl'', ?_⟩
  rw [Runs.run_append_of hrun, ← h.app]
  exact hrun'

/-- What is not part of the service may change. -/
theorem same (h : Performs nl ops s s') (happ : s''.c.app = s'.c.app)
    (hd : SameService s'.d s''.d) : Performs nl ops s s'' := by
  refine ⟨happ.trans h.app, fun ht hnl => ?_⟩
  obtain ⟨ht', hnl', hrun⟩ := h.serves ht hnl
  obtain ⟨hnl'', hq⟩ := hd.unserved.tables ht'.toNlTables
  refine ⟨⟨hnl'', by rw [hd.rt]; exact ht'.keyed⟩, by rw [hd.nextNl]; exact hnl', ?_⟩
  have hservice : s''.service = s'.service :=
    Service.ext (funext hq) hd.unserved.delivered (congrArg routeMap hd.rt)
  rw [hrun, hservice]

/-- The replies to a request are queued and its change of the routes is made. -/
theorem request (msg : Nlmsg) (hd : s'.d = (s.d.setRoutes (msg.routeOp.elim s.d.rt
    fun op => op.apply s.d.rt)).push nl (msg.answer s.c.app.devices)) (happ : s'.c.app = s.c.app) :
    Performs nl [.request nl msg] s s' := by
  refine ⟨happ, fun ht hnl => ?_⟩
  have hqueue : ∀ nl', (s'.d.nls nl').replyQueue = Function.update
      (fun nl => (s.d.nls nl).replyQueue) nl
      ((s.d.nls nl).replyQueue ++ msg.answer s.c.app.devices) nl' := by
    intro nl'
    rw [hd]
    by_cases h : nl' = nl
    · subst h
      simp [Data.push, Data.setNetlink, Data.setRoutes]
    · simp [Data.push, Data.setNetlink, Data.setRoutes, h]
  have hrt : s'.d.rt = msg.routeOp.elim s.d.rt fun op => op.apply s.d.rt := by
    rw [hd]
    rfl
  have hnext : s'.d.nextNl = s.d.nextNl := by
    rw [hd]
    rfl
  refine ⟨⟨⟨?_, fun nl' hnl' => ?_⟩, ?_⟩, hnext ▸ hnl, ?_⟩
  · rw [hd]
    exact ht.named
  · rw [hnext] at hnl'
    have hne : nl' ≠ nl := by
      rintro rfl
      exact absurd hnl hnl'.not_gt
    rw [hqueue, Function.update_of_ne hne]
    exact ht.fresh nl' hnl'
  · rw [hrt]
    cases msg.routeOp with
    | none => exact ht.keyed
    | some op => exact ht.keyed.apply op
  · rw [Runs.run_singleton, Service.step]
    congr 1
    refine Service.ext (funext fun nl' => (hqueue nl').symm) ?_ ?_
    · rw [St.service, St.service, hd]
      rfl
    · show _ = routeMap s'.d.rt
      rw [hrt]
      cases msg.routeOp with
      | none => rfl
      | some op => exact (routeMap_apply ht.keyed op).symm

end Performs

section requests

variable {nl : NlId}

/-- The replies are queued, then a waiting `select` is told. -/
theorem dumpRequest_performs {s : St} {msg : Nlmsg} {root : Bool}
    {replies : Except Crash (List Reply)} (hop : msg.routeOp = none)
    (hans : msg.answer s.c.app.devices = replies.toOption.elim [] finalize) :
    wp (dumpRequest nl root replies) (fun _ s' => Performs nl [.request nl msg] s s') s := by
  unfold dumpRequest
  cases root with
  | false => simp
  | true =>
      cases replies with
      | error e => simp
      | ok rs =>
          simp only [Bool.not_true, Bool.false_eq_true, if_false]
          unfold pushReplies notifyRecv
          simp only [wp_bind, wp_modifyData, wp_get]
          have hpush : Performs nl [.request nl msg] s
              { s with d := s.d.push nl (finalize rs) } := by
            refine .request msg ?_ rfl
            rw [hop, hans]
            rfl
          cases hcb : s.c.nlCallback nl with
          | none => exact (wp_pure _ _ _).mpr hpush
          | some cl =>
              refine wp_selectNetlinkCallback (fun _ => hpush) fun c' _ hc' => ?_
              have happ : c'.app = s.c.app := (Calm.of_finish hc').app
              exact hpush.same happ ⟨rfl, rfl, rfl, rfl, rfl⟩

theorem routeRequest_performs {s : St} {msg : Nlmsg} {iifOk : Bool}
    {edit : List RtEntry → ℕ → ℕ → ℕ → List RtEntry} {body : Option RtMsg}
    (hans : msg.answer s.c.app.devices = [.ack])
    (hop : ∀ amsg dst gw, body = some amsg → routeAttrs iifOk amsg.attrs (none, none) =
      .ok (some dst, some gw) → (msg.routeOp.elim s.d.rt fun op => op.apply s.d.rt) =
        edit s.d.rt dst amsg.rtm_dst_len gw) :
    wp (routeRequest nl iifOk edit body) (fun _ s' => Performs nl [.request nl msg] s s') s := by
  unfold routeRequest
  cases body with
  | none => simp
  | some amsg =>
      by_cases hn : amsg.notify = true
      · simp [hn]
      · simp only [hn, Bool.false_eq_true, if_false]
        rcases ha : routeAttrs iifOk amsg.attrs (none, none) with e | ⟨_ | dst, _ | gw⟩
        · simp
        · simp
        · simp
        · simp
        · unfold pushReplies
          simp only [wp_bind, wp_modifyData]
          refine .request msg ?_ rfl
          rw [hans, hop amsg dst gw rfl ha]

theorem processNlmsghdr_performs (msg : Nlmsg) (s : St) :
    wp (processNlmsghdr nl msg) (fun _ s' => Performs nl [.request nl msg] s s') s := by
  unfold processNlmsghdr
  simp only [wp_bind, wp_get]
  cases msg with
  | getLink root => exact dumpRequest_performs rfl rfl
  | getAddr root => exact dumpRequest_performs rfl rfl
  | newRoute body =>
      refine routeRequest_performs rfl ?_
      rintro amsg dst gw rfl ha
      simp only [Nlmsg.routeOp, ha]
      rfl
  | delRoute body =>
      refine routeRequest_performs rfl ?_
      rintro amsg dst gw rfl ha
      simp only [Nlmsg.routeOp, ha]
      rfl
  | other t => simp

theorem processNlmsgs_performs : ∀ (msgs : List Nlmsg) (s : St),
    wp (processNlmsgs nl msgs) (fun _ s' => Performs nl (msgs.map (.request nl)) s s') s
  | [], s => (wp_pure _ _ _).mpr (.refl nl s)
  | msg :: msgs, s => by
      unfold processNlmsgs
      rw [wp_bind]
      refine (processNlmsghdr_performs msg s).mono fun _ s₁ h₁ => ?_
      exact (processNlmsgs_performs msgs s₁).mono fun _ s₂ h₂ => h₁.append h₂

theorem processIovecs_performs : ∀ (iovs : List Iovec) (s : St), wp (processIovecs nl iovs)
    (fun _ s' => Performs nl ((iovs.flatMap Iovec.msgs).map (.request nl)) s s') s
  | [], s => (wp_pure _ _ _).mpr (.refl nl s)
  | iov :: iovs, s => by
      unfold processIovecs
      rw [wp_bind, List.flatMap_cons, List.map_append]
      refine (processNlmsgs_performs iov.msgs s).mono fun _ s₁ h₁ => ?_
      exact (processIovecs_performs iovs s₁).mono fun _ s₂ h₂ => h₁.append h₂

end requests

/-! ### Calls -/

section calls

variable {nl : NlId} {s : St} {ops : List ServiceOp}

/-- The answer to the call is not part of the service. -/
theorem Performs.nlFake {s₁ : St} (h : Performs nl ops s s₁) (v : ℤ)
    (res : SyscallHandlerStatusCode) :
    wp (nlFake nl v res) (fun _ s' => Performs nl ops s s') s₁ := by
  refine (nlFake_frame s₁).mono fun _ s' h' => h.same h'.1 ?_
  rw [h'.2]
  exact ⟨rfl, rfl, rfl, rfl, rfl⟩

/-- The next reply is stored and taken from the queue. -/
theorem Performs.receive {reply : Reply} {rest : List Reply} {iov_base : Ptr}
    (hq : (s.d.nls nl).replyQueue = reply :: rest) : Performs nl [.receive nl reply] s
      ⟨s.c, ({ s.d with stores := ((s.d.nls nl).pid, iov_base, .reply reply) :: s.d.stores } : Data)
        |>.setNetlink nl { s.d.nls nl with replyQueue := rest }⟩ := by
  refine ⟨rfl, fun ht hnl => ⟨⟨⟨ht.named, fun nl' hnl' => ?_⟩, ht.keyed⟩, hnl, ?_⟩⟩
  · have hne : nl' ≠ nl := by
      rintro rfl
      exact absurd hnl (not_lt.mpr hnl')
    simpa [Data.setNetlink, hne] using ht.fresh nl' hnl'
  · rw [Runs.run_singleton, Service.step_receive]
    refine ⟨rest, hq, Service.ext (funext fun nl' => ?_) ?_ rfl⟩
    · by_cases h : nl' = nl
      · subst h
        simp [St.service, Data.setNetlink]
      · simp [St.service, Data.setNetlink, h]
    · simp [St.service, Data.setNetlink, Data.delivered, Val.reply?]

theorem nlHandleRecvMsg_performs (iov_base : Ptr) (iov_len : ℕ) :
    wp (nlHandleRecvMsg nl iov_base iov_len) (fun _ s' => Performs nl
      (((s.d.nls nl).replyQueue.take 1).map (.receive nl)) s s') s := by
  unfold nlHandleRecvMsg
  simp only [wp_bind, wp_get]
  cases hq : (s.d.nls nl).replyQueue with
  | nil => exact (Performs.refl nl s).nlFake _ _
  | cons reply rest =>
      unfold memcpyToTracee
      simp only [wp_bind, wp_ite, wp_throw, wp_get]
      refine ⟨fun _ => trivial, fun _ => ?_⟩
      cases s.c.threads (s.d.nls nl).pid with
      | none => simp only [wp_throw]
      | some th =>
          simp only [wp_modifyData]
          exact (Performs.receive hq).nlFake _ _

/-- The operations that a call on the netlink socket `nl` carries out. -/
def Syscall.serviceOps (nl : NlId) (queue : List Reply) : Syscall → List ServiceOp
  | .sendmsg _ msg_iov => (msg_iov.flatMap Iovec.msgs).map (.request nl)
  | .sendto _ buf _ _ => buf.msgs.map (.request nl)
  | .recvmsg _ _ _ => (queue.take 1).map (.receive nl)
  | _ => []

theorem serviceOps_of_not {call : Syscall} (h : call.isService = false) (queue : List Reply) :
    call.serviceOps nl queue = [] := by
  cases call <;> first | rfl | cases h

theorem handle_performs {call : Syscall} (hn : netlinkOf s.d.fds call = some nl)
    (hcall : call.isService = true) : wp (handle call) (fun _ s' =>
      Performs nl (call.serviceOps nl (s.d.nls nl).replyQueue) s s') s := by
  unfold handle
  rw [wp_bind, wp_get]
  cases call with
  | sendmsg fd msg_iov =>
      have hnl : s.d.fds.netlinks.find fd = some nl := hn
      simp only [handleSendMsg, wp_bind, wp_get, hnl, nlHandleSendMsg]
      exact (processIovecs_performs msg_iov s).mono fun _ s₁ h₁ => h₁.nlFake _ _
  | recvmsg fd iov_base iov_len =>
      have hnl : s.d.fds.netlinks.find fd = some nl := hn
      simp only [handleRecvMsg, wp_bind, wp_get, hnl]
      exact nlHandleRecvMsg_performs iov_base iov_len
  | sendto fd buf flags dest_addr =>
      have hsock : s.d.fds.sockets.find fd = none := by
        by_contra hsome
        simp [netlinkOf, netlinkFd, hsome] at hn
      have hnl : s.d.fds.netlinks.find fd = some nl := by
        simpa [netlinkOf, netlinkFd, hsock] using hn
      simp only [handleSendTo, nlHandleSendTo, wp_bind, wp_get, hsock, hnl, wp_ite, wp_throw]
      refine ⟨fun _ => trivial, fun _ => ?_⟩
      exact (processNlmsgs_performs buf.msgs s).mono fun _ s₁ h₁ => h₁.nlFake _ _
  | _ => cases hcall

end calls

/-! ### Runs -/

section runs

variable {s s' : St} {l : Label}

/-- The operations that a step carries out. -/
def serviceOps (s : St) (l : Label) (_ : St) : List ServiceOp :=
  match dispatched s l with
  | none => []
  | some (_, call) =>
      match netlinkOf s.d.fds call with
      | none => []
      | some nl => call.serviceOps nl (s.d.nls nl).replyQueue

theorem netlinkOf_named (ht : ServiceTables s.d) {call : Syscall} {nl : NlId}
    (hn : netlinkOf s.d.fds call = some nl) : nl < s.d.nextNl := by
  obtain ⟨fd, -, hfd⟩ := Option.bind_eq_some_iff.mp hn
  exact ht.named fd nl hfd

/-- A step that dispatches no call of the service carries out none. -/
theorem serviceOps_eq_nil (hd : ∀ p call, dispatched s l = some (p, call) →
    call.isService = true → netlinkOf s.d.fds call = none) : serviceOps s l s' = [] := by
  unfold serviceOps
  split
  · rfl
  next p call hdisp =>
    split
    · rfl
    next nl hn =>
      refine serviceOps_of_not (eq_false_of_ne_true fun hcall => ?_) _
      rw [hd p call hdisp hcall] at hn
      cases hn

theorem Unserved.service (h : Unserved s s') (ht : ServiceTables s.d) :
    ServiceTables s'.d ∧ s'.service = s.service := by
  obtain ⟨htables, hq⟩ := h.tables ht.toNlTables
  refine ⟨⟨htables, by rw [h.rt]; exact ht.keyed⟩, ?_⟩
  exact Service.ext (funext hq) h.delivered (congrArg routeMap h.rt)

/-- A step carries out its operations. -/
theorem step_service (ht : ServiceTables s.d) (h : step s l = some s') :
    ServiceTables s'.d ∧
      Runs.run (Service.step s.c.app.devices) s.service (serviceOps s l s') = some s'.service := by
  by_cases hd : ∀ p call, dispatched s l = some (p, call) → call.isService = true →
      netlinkOf s.d.fds call = none
  · obtain ⟨ht', hservice⟩ := (step_unserved h hd).service ht
    refine ⟨ht', ?_⟩
    rw [serviceOps_eq_nil hd, hservice]
    rfl
  · push Not at hd
    obtain ⟨p, call, hdisp, hcall, hn⟩ := hd
    obtain ⟨nl, hn⟩ := Option.ne_none_iff_exists'.mp hn
    obtain ⟨s₁, res, s₂, hh, hrun, hp⟩ := step_handles h hdisp
    have hops : serviceOps s l s' = call.serviceOps nl (s.d.nls nl).replyQueue := by
      simp only [serviceOps, hdisp, hn]
    cases hh with
    | @mk i t c₁ th _ _ hc hth =>
        have happ : c₁.app = s.c.app := (Calm.of_caught hc).app
        have hperf := (handle_performs (s := ⟨c₁.dispatch p th, s.d⟩) hn hcall).elim hrun
        obtain ⟨ht', -, hservice⟩ := hperf.serves ht (netlinkOf_named ht hn)
        have hsame : s'.service = s₂.service := by rw [St.service, St.service, hp.d]
        rw [hops, ← happ, hsame, hp.d]
        exact ⟨ht', hservice⟩

theorem serviceTables_initial (app : App) (env : Env) : ServiceTables (St.initial app env).d := by
  refine ⟨⟨fun fd nl h => ?_, fun nl _ => rfl⟩, List.nodup_nil⟩
  cases h

theorem serviceTables_of_run {app : App} {env : Env} {ls : List Label}
    (hr : run (St.initial app env) ls = some s) : ServiceTables s.d :=
  Runs.run_invariant (fun _ _ _ ht h => (step_service ht h).1) (serviceTables_initial app env) hr

/-- A run of the emulator is a run of the service. -/
theorem service_of_run {app : App} {env : Env} {ls : List Label}
    (hr : run (St.initial app env) ls = some s) : Runs.run (Service.step app.devices)
      Service.initial (Runs.emitted step serviceOps (St.initial app env) ls) = some s.service := by
  have hstep : ∀ s l s', (s.c.app = app ∧ ServiceTables s.d) → step s l = some s' →
      Runs.run (Service.step app.devices) s.service (serviceOps s l s') = some s'.service := by
    rintro s l s' ⟨rfl, ht⟩ h
    exact (step_service ht h).2
  refine Runs.run_refines (fun s l s' hJ h => ?_) hstep ⟨rfl, serviceTables_initial app env⟩ hr
  exact ⟨(step_app h).trans hJ.1, (step_service hJ.2 h).1⟩

/-- In every run, whatever the threads do on other descriptors and in whatever order their calls
are handled: the answers to the requests sent to a netlink socket are the replies that have been
received from it, in the same order, followed by those in its queue; and the replies in the tracee's
memory are those that have been received. -/
theorem run_replies {app : App} {env : Env} {ls : List Label}
    (hr : run (St.initial app env) ls = some s) :
    (∀ nl, (Runs.emitted step serviceOps (St.initial app env) ls).flatMap
        (·.queued app.devices nl) =
      (Runs.emitted step serviceOps (St.initial app env) ls).flatMap (·.taken nl) ++
        (s.d.nls nl).replyQueue) ∧
    s.d.delivered =
      (Runs.emitted step serviceOps (St.initial app env) ls).flatMap ServiceOp.reply :=
  ⟨fun nl => Service.run_queue nl (service_of_run hr), Service.run_received (service_of_run hr)⟩

end runs

/-- A thread opens two netlink sockets, asks the first for the links and the second for a route, and
receives from both. -/
def twoSocketsEnv : Env :=
  .script [.entry (.socket AF_NETLINK SOCK_RAW NETLINK_ROUTE), .exit 0,
    .entry (.socket AF_NETLINK SOCK_RAW NETLINK_ROUTE), .exit 0,
    .entry (.sendmsg 100 [⟨32, [.getLink true], 0⟩]), .exit 0,
    .entry (.sendmsg 101 [⟨44, [.newRoute (some (routeVia 0x0a010200 24))], 0⟩]), .exit 0,
    .entry (.recvmsg 101 7 4096), .exit 0, .entry (.recvmsg 100 7 4096), .exit 0] []

def twoSocketsLabels : List Label := (List.range 6).map fun i => ⟨200 * i, .fire 0⟩

theorem run_replies_twoSockets :
    ∃ s, run (St.initial requestApp twoSocketsEnv) twoSocketsLabels = some s ∧
      s.d.delivered = [.ack, .newLink 0 ['l', 'o', '0']] ∧
      (s.d.nls 0).replyQueue.length = 4 ∧ (s.d.nls 1).replyQueue = [] ∧
      ∀ nl, (Runs.emitted step serviceOps (St.initial requestApp twoSocketsEnv)
          twoSocketsLabels).flatMap (·.queued requestApp.devices nl) =
        (Runs.emitted step serviceOps (St.initial requestApp twoSocketsEnv)
          twoSocketsLabels).flatMap (·.taken nl) ++ (s.d.nls nl).replyQueue := by
  have hrun : (run (St.initial requestApp twoSocketsEnv) twoSocketsLabels).any
      (fun s => s.d.delivered = [.ack, .newLink 0 ['l', 'o', '0']] ∧
        (s.d.nls 0).replyQueue.length = 4 ∧ (s.d.nls 1).replyQueue = []) = true := by
    decide +kernel
  obtain ⟨s, hs, hview⟩ := (Option.any_eq_true _ _).mp hrun
  obtain ⟨hd, hq, hq'⟩ := of_decide_eq_true hview
  exact ⟨s, hs, hd, hq, hq', (run_replies hs).1⟩

end Grail
