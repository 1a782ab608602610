import Grail.Continuations
import Grail.Wakers

/-! # Which steps lose a wakeup

A handler that installs or removes a callback writes a slot (`Syscall.writes`); if the slot held the
callback of another blocked thread, nothing may be left that wakes it.  So does the accept callback
of a `select`, if its descriptor names another socket by then.  And some calls block without a waker
from the beginning: a `write`, whose callback only logs an error, a `connect` that ns-3 refuses,
whose result is ignored, and an `accept` or a `select` on a socket for which `Listen` failed.

`sparing` excludes these steps.  All other steps keep what wakes a blocked thread (`step_spares`),
and a handler that returns `SYSC_DELAYED` installs such a waker (`Handled.waker`).  So a thread that
is blocked after a run of such steps is woken by a closure that is installed (`run_waker`). -/

namespace Grail

open Programs SelectArgs

/-! ### The slots that are written -/

/-- The slots of the requested sockets and netlink sockets. -/
def selectSlots (args : SelectArgs) (f : Fds) : List Slot :=
  f.sockets.entries.flatMap (fun kv =>
    (if isSet args.readfds kv.1 then
      [if kv.1 ∈ f.isListenTcpSocket then .accept kv.2 else .recv kv.2] else []) ++
    if isSet args.writefds kv.1 then [.send kv.2] else []) ++
  f.netlinks.entries.flatMap fun kv => if isSet args.readfds kv.1 then [.netlink kv.2] else []

/-- The slots that the handler of a call writes. -/
def Syscall.writes (d : Data) : Syscall → List Slot
  | .read fd _ _ => receives fd
  | .recvfrom fd _ _ _ _ => receives fd
  | .accept fd _ =>
      if fd ∈ d.fds.isListenTcpSocket ∧ d.fds.fakeAcceptedSockets.find fd = none ∧
        fd ∉ d.fds.nonblockingSockets then (d.fds.sockets.find fd).toList.map .accept else []
  | .connect fd _ => (d.fds.sockets.find fd).toList.map .connect
  | .listen fd _ =>
      if fd ∈ d.fds.tcpSockets ∧ fd ∉ d.fds.isListenTcpSocket then
        (d.fds.sockets.find fd).toList.map .accept else []
  | .select args => if selectMayBlock args d = some true then selectSlots args d.fds else []
  | _ => []
where
  receives (fd : Fd) : List Slot :=
    (d.fds.sockets.find fd).toList.flatMap fun sock =>
      if d.rxAvailable sock ≠ 0 ∨ fd ∉ d.fds.nonblockingSockets then [.recv sock] else []

/-- A call that blocks, if it does, with a callback or timer that can be invoked. -/
def Syscall.wakeful (env : Env) (d : Data) : Syscall → Bool
  | .write fd _ _ => (d.fds.sockets.find fd).all fun sock =>
      d.txAvailable sock ≠ 0 ∨ fd ∉ d.fds.connectedSockets ∨ fd ∈ d.fds.nonblockingSockets
  | .connect _ _ => 0 ≤ (env.ns3 d.asks).ret
  | .accept fd _ => (d.fds.sockets.find fd).all fun sock => d.listening sock
  | .select args => d.fds.sockets.entries.all fun kv =>
      isSet args.readfds kv.1 → kv.1 ∈ d.fds.isListenTcpSocket → d.listening kv.2
  | _ => true

/-- The closure in the slot wakes no other thread than `p` from the call in which it is blocked. -/
def Slot.free (c : Ctl) (p : Pid) (x : Slot) : Bool :=
  (x.wakes c).all fun τ => τ.thread = p ∨ c.inCall τ.thread ≠ some τ.act

/-- The steps that lose no wakeup. -/
def sparing (s : St) (l : Label) : Bool :=
  match dispatched s l with
  | some (p, call) => call.wakeful s.c.env s.d && (call.writes s.d).all (·.free s.c p)
  | none =>
      match l.what with
      | .incoming sock _ =>
          match s.c.acceptCallback sock with
          | some (.select cl) => s.c.alreadyHandled cl.task.act ||
              (s.d.fds.sockets.find cl.fdnr).all fun sock' =>
                (Slot.accept sock').free s.c cl.task.thread
          | _ => true
      | _ => true

variable {s s' : St} {l : Label} {c c₁ c' f : Ctl} {x : Slot} {τ : Task} {p : Pid}
  {call : Syscall} {res : SyscallHandlerStatusCode} {args : SelectArgs} {fd : Fd} {sock : SockId}

theorem mem_writes_recv {d : Data} (hcall : call.recvFd = some fd)
    (hsock : d.fds.sockets.find fd = some sock)
    (h : d.rxAvailable sock ≠ 0 ∨ fd ∉ d.fds.nonblockingSockets) : .recv sock ∈ call.writes d := by
  have hmem : .recv sock ∈ Syscall.writes.receives d fd := by
    simp [Syscall.writes.receives, hsock, h]
  cases call with
  | read => cases hcall; exact hmem
  | recvfrom => cases hcall; exact hmem
  | _ => cases hcall

theorem mem_selectSlots {f : Fds} : x ∈ selectSlots args f ↔
    (∃ fd sock, f.sockets.find fd = some sock ∧
      (isSet args.readfds fd = true ∧
          x = (if fd ∈ f.isListenTcpSocket then .accept sock else .recv sock) ∨
        isSet args.writefds fd = true ∧ x = .send sock)) ∨
    ∃ fd nl, f.netlinks.find fd = some nl ∧ isSet args.readfds fd = true ∧ x = .netlink nl := by
  simp only [selectSlots, List.mem_append, List.mem_flatMap, Prod.exists, StdMap.mem_entries]
  refine or_congr ?_ ?_
  · refine exists₂_congr fun fd sock => and_congr_right fun _ => or_congr ?_ ?_
    · split_ifs <;> simp_all
    · split_ifs <;> simp_all
  · refine exists₂_congr fun fd nl => and_congr_right fun _ => ?_
    split_ifs <;> simp_all

/-- A `select` that waits leaves the other slots. -/
theorem SelectArms.wakes {d : Data} (h : SelectArms args d τ c c')
    (hx : x ∉ selectSlots args d.fds) : x.wakes c' = x.wakes c := by
  have hframe := h.frame
  have hh : c'.alreadyHandled = c.alreadyHandled := by rw [hframe]
  cases x with
  | recv sock =>
      rcases h.recv sock with he | ⟨fd, hsock, hset, -, hl, -⟩
      · simp only [Slot.wakes, he, hh]
      · refine absurd (mem_selectSlots.mpr (.inl ⟨fd, sock, hsock, .inl ⟨hset, ?_⟩⟩)) hx
        rw [if_neg hl]
  | send sock =>
      rcases h.send sock with he | ⟨fd, hsock, hset, -, -⟩
      · simp only [Slot.wakes, he, hh]
      · exact absurd (mem_selectSlots.mpr (.inl ⟨fd, sock, hsock, .inr ⟨hset, rfl⟩⟩)) hx
  | accept sock =>
      rcases h.accept sock with he | ⟨fd, hsock, hset, hl, -, -⟩
      · simp only [Slot.wakes, he, hh]
      · refine absurd (mem_selectSlots.mpr (.inl ⟨fd, sock, hsock, .inl ⟨hset, ?_⟩⟩)) hx
        rw [if_pos hl]
  | netlink nl =>
      rcases h.nl nl with he | ⟨fd, hnl, hset, -⟩
      · simp only [Slot.wakes, he, hh]
      · exact absurd (mem_selectSlots.mpr (.inr ⟨fd, nl, hnl, hset, rfl⟩)) hx
  | connect sock =>
      rw [hframe]
      rfl
  | timer kind =>
      rw [hframe]
      rfl

/-! ### Handlers -/

/-- After a call has been completed on behalf of `τ`, its thread is not blocked. -/
theorem ended {v : ℤ} (h : Finish τ p v c c')
    (hend : ∀ q k, f.inCall q = some k → c'.inCall q = some k) (k : ℕ) :
    f.inCall τ.thread ≠ some k := by
  intro hk
  have hin := hend _ _ hk
  rw [h.inCall, Function.update_self] at hin
  cases hin

theorem NlWork.spares {nl : NlId} (h : NlWork nl s s') (hk : Known s.c)
    (hend : ∀ q k, f.inCall q = some k → s'.c.inCall q = some k) : Spares f s.c s'.c := by
  induction h with
  | refl => exact .refl _ _
  | @tail s₁ s₂ hw hstep ih =>
      have hk₁ := NlWork.known hw hk
      cases hstep with
      | push => exact ih hend
      | route => exact ih hend
      | @notify cl c' hcb _ _ hf =>
          have hdone := ended hf hend
          have hclaim := Spares.claim (f := f) hk₁ (.nl hcb rfl rfl) hdone
          have hfin : Spares f s₁.c c' := hclaim.trans (.of_calm (Calm.of_finish hf))
          have hslot : Spares f c' (c'.setNlCallback nl none) := by
            refine .of_slot (y := .netlink nl) (fun _ hx => wakes_setNl hx) fun σ hσ => ?_
            rw [(Calm.of_finish hf).wakes] at hσ
            obtain ⟨cl', hcl', hw'⟩ := Option.bind_eq_some_iff.mp hσ
            cases hcb.symm.trans hcl'
            obtain ⟨rfl, -⟩ := unanswered_eq_some.mp hw'
            exact hdone _
          have hprev : Spares f s.c s₁.c := by
            refine ih fun q k hqk => ?_
            exact (Unblocks.of_calm (Calm.of_finish hf)).inCall _ _ (hend q k hqk)
          exact (hprev.trans hfin).trans hslot

theorem Handled.spares (h : Handled call s res s') (hres : res ≠ .error) (hk : Known s.c)
    (hw : call.wakeful s.c.env s.d = true)
    (hend : ∀ q k, f.inCall q = some k → s'.c.inCall q = some k)
    (hfree : ∀ x ∈ call.writes s.d, ∀ τ, x.wakes s.c = some τ → f.inCall τ.thread ≠ some τ.act) :
    Spares f s.c s'.c := by
  -- a slot is written after the call has been completed
  have calm_slot : ∀ {c₀ c' : Ctl} {y : Slot}, Calm s.c c₀ → y ∈ call.writes s.d →
      (∀ x, x ≠ y → x.wakes c' = x.wakes c₀) → Spares f s.c c' := by
    intro c₀ c' y hc hy hsame
    refine (Spares.of_calm hc).trans (.of_slot hsame fun τ hτ => hfree y hy τ ?_)
    rwa [hc.wakes] at hτ
  cases h with
  | error => exact absurd rfl hres
  | answered _ _ _ _ hpre hc => exact .of_calm ((Calm.of_prelude hpre).trans (Calm.of_completes hc))
  | @listened fd backlog sock d' c' hcall hsock htcp hl _ hc =>
      subst hcall
      refine calm_slot (y := .accept sock) (Calm.of_completes hc) ?_ fun _ hx => wakes_setAccept hx
      simp [Syscall.writes, htcp, hl, hsock]
  | accepted _ _ _ _ _ hc =>
      rw [St.returning_c]
      exact .of_calm (Calm.of_completes hc)
  | nlSend _ _ hw hc =>
      have hcalm := Calm.of_completes hc
      exact (NlWork.spares hw hk fun q k hqk => hcalm.inCall _ _ (hend q k hqk)).trans
        (.of_calm hcalm)
  | nlOther _ _ _ _ hc => exact .of_calm (Calm.of_completes hc)
  | passed _ _ _ _ hc => exact .of_calm (Calm.of_passes hc)
  | cloned _ hc => exact .of_calm ((Calm.of_passes hc).trans (Calm.cloned _ _))
  | unadvanced => exact .refl _ _
  | systemExit => exact .refl _ _
  | recvNow hcall hsock hrx _ hc =>
      exact calm_slot (Calm.of_reads hc) (mem_writes_recv hcall hsock (.inl hrx))
        fun _ hx => wakes_setRecv hx
  | recvWait hcall hsock _ hnb _ =>
      exact calm_slot (Calm.refl _) (mem_writes_recv hcall hsock (.inr hnb))
        fun _ hx => wakes_setRecv hx
  | writeWait hcall hsock htx hcon hnb =>
      subst hcall
      simp [Syscall.wakeful, hsock, htx, hcon, hnb] at hw
  | @connectRefused fd addr sock _ hcall hsock =>
      subst hcall
      exact calm_slot (y := .connect sock) (Calm.refl _) (by simp [Syscall.writes, hsock])
        fun _ hx => wakes_setConnect hx
  | @connectWait fd addr sock _ hcall hsock =>
      subst hcall
      refine calm_slot (y := .connect sock) (Calm.refl _) (by simp [Syscall.writes, hsock])
        fun _ hx => ?_
      rw [wakes_setConnecting hx, wakes_setConnect hx]
  | @connectNow fd addr sock _ _ hcall hsock _ _ hc =>
      subst hcall
      refine Spares.trans ?_ (.of_calm (Calm.of_finish hc))
      exact calm_slot (y := .connect sock) (Calm.refl _) (by simp [Syscall.writes, hsock])
        fun _ hx => wakes_setConnect hx
  | @acceptWait fd out sock hcall hsock hl hf hnb =>
      subst hcall
      exact calm_slot (y := .accept sock) (Calm.refl _)
        (by simp [Syscall.writes, hsock, hl, hf, hnb]) fun _ hx => wakes_setAccept hx
  | selectNow _ _ _ _ hc => exact .of_calm (Calm.of_completes hc)
  | @selectWait args c₁ c' hcall hmay harms _ ht =>
      subst hcall
      have harmed : Spares f s.c c₁ := by
        intro x τ hτ hx
        by_cases hmem : x ∈ selectSlots args s.d.fds
        · have hmem : x ∈ Syscall.writes s.d (.select args) := by
            simpa [Syscall.writes, hmay] using hmem
          exact absurd hτ (hfree x hmem τ hx)
        · rwa [harms.wakes hmem]
      cases ht with
      | none => exact harmed
      | timer => exact harmed.trans (.schedule _ _ _)
  | sleeping => exact .schedule _ _ _

/-- ns-3 reports connections of sockets that listen. -/
def Slot.live (d : Data) : Slot → Prop
  | .accept sock => d.listening sock = true
  | _ => True

/-- A `select` that waits is woken by a callback that it installed. -/
theorem SelectWaits.waker {d : Data} {env : Env} (h : SelectWaits τ d.fds c₁)
    (harms : SelectArms args d τ c c₁) (hf : Fresh c τ) (hh : c.alreadyHandled τ.act = false)
    (hw : Syscall.wakeful env d (.select args) = true) :
    ∃ x : Slot, x.wakes c₁ = some τ ∧ x.live d := by
  have hflag : c₁.alreadyHandled τ.act = false := by
    rw [harms.frame]
    exact hh
  have hτ : unanswered c₁.alreadyHandled τ = some τ := unanswered_eq_some.mpr ⟨rfl, hflag⟩
  cases h with
  | @recv sock fd hcb => exact ⟨.recv sock, Option.bind_eq_some_iff.mpr ⟨_, hcb, hτ⟩, trivial⟩
  | @send sock fd hcb => exact ⟨.send sock, Option.bind_eq_some_iff.mpr ⟨_, hcb, hτ⟩, trivial⟩
  | @accept sock fd hcb =>
      refine ⟨.accept sock, Option.bind_eq_some_iff.mpr ⟨_, hcb, hτ⟩, ?_⟩
      rcases harms.accept sock with hsame | ⟨fd', hsock, hset, hl, -, -⟩
      · exact absurd (.accept (hsame ▸ hcb) rfl) (hf .select)
      · have hall := List.all_eq_true.mp hw (fd', sock) (StdMap.mem_entries.mpr hsock)
        exact of_decide_eq_true hall hset hl
  | @nl nl fd _ hcb => exact ⟨.netlink nl, Option.bind_eq_some_iff.mpr ⟨_, hcb, hτ⟩, trivial⟩

theorem RecvCallback.wakes_owner {cb : RecvCallback} (h : cb.owner = some τ) :
    cb.wakes handled = some τ := by
  cases cb with
  | select => cases h
  | _ => exact h

/-- After a handler has returned, its call is answered, or something wakes its thread. -/
theorem Handled.waker {s'' : St} (h : Handled call s res s')
    (hp : Processed s.c.task.thread s' res s'') (hexit : call ≠ .exitGroup)
    (hw : call.wakeful s.c.env s.d = true) (hf : Fresh s.c s.c.task)
    (hh : s.c.alreadyHandled s.c.task.act = false) :
    s''.c.inCall s.c.task.thread = none ∨
      ∃ x : Slot, x.wakes s'.c = some s.c.task ∧ x.live s'.d := by
  cases hp with
  | resumed => exact .inl (Function.update_self ..)
  | quits =>
      cases h with
      | systemExit hcall => exact absurd hcall hexit
      | answered _ _ hres => exact absurd hres not_resumes_systemExit
      | nlSend _ hres => exact absurd hres not_resumes_systemExit
      | nlOther _ hres => exact absurd hres not_resumes_systemExit
      | unadvanced _ hres => exact absurd hres not_resumes_systemExit
  | waits hres =>
      have hwait : ¬ res.resumes := by
        rcases hres with rfl | rfl
        · exact not_resumes_manual
        · exact not_resumes_delayed
      cases h with
      | error => simp at hres
      | answered _ _ hr => exact absurd hr hwait
      | listened => exact absurd resumes_success hwait
      | accepted => exact absurd resumes_success hwait
      | nlSend _ hr => exact absurd hr hwait
      | nlOther _ hr => exact absurd hr hwait
      | passed => exact absurd resumes_success hwait
      | cloned => exact absurd resumes_success hwait
      | unadvanced _ hr => exact absurd hr hwait
      | systemExit => simp at hres
      | recvNow _ _ _ _ hc =>
          refine .inl ?_
          show Ctl.inCall _ _ = _
          rw [Ctl.setRecvCallback, hc.inCall, Function.update_self]
      | @recvWait fd sock cb _ _ _ _ ho =>
          refine .inr ⟨.recv sock, Option.bind_eq_some_iff.mpr ⟨cb, ?_, ?_⟩, trivial⟩
          · exact Function.update_self ..
          · exact RecvCallback.wakes_owner ho
      | writeWait hcall hsock htx hcon hnb =>
          subst hcall
          simp [Syscall.wakeful, hsock, htx, hcon, hnb] at hw
      | connectRefused hcall _ hneg =>
          subst hcall
          exact absurd (of_decide_eq_true hw) (not_le.mpr hneg)
      | @connectWait fd addr sock _ hcall =>
          refine .inr ⟨.connect sock, wakes_connect.mpr ⟨?_, ⟨s.c.task, fd⟩, ?_, rfl⟩, trivial⟩
          · exact Function.update_self ..
          · exact Function.update_self ..
      | connectNow _ _ _ _ hc =>
          refine .inl ?_
          show Ctl.inCall _ _ = _
          rw [hc.inCall, Function.update_self]
      | @acceptWait fd out sock hcall hsock =>
          subst hcall
          refine .inr ⟨.accept sock, Option.bind_eq_some_iff.mpr
            ⟨.accept s.c.task fd out, Function.update_self .., rfl⟩, ?_⟩
          show s.d.listening sock = true
          simpa [Syscall.wakeful, hsock] using hw
      | selectNow => exact absurd resumes_success hwait
      | selectWait hcall _ harms hwaits ht =>
          subst hcall
          obtain ⟨x, hx, hlive⟩ := hwaits.waker harms hf hh hw
          refine .inr ⟨x, ?_, ?_⟩
          · cases ht with
            | none => exact hx
            | timer => exact wakes_schedule hx
          · cases x <;> exact hlive
      | sleeping =>
          refine .inr ⟨.timer (.nanosleep s.c.task), wakes_timer.mpr ⟨?_, rfl⟩, trivial⟩
          rw [pend_schedule, if_pos rfl]
          exact Nat.succ_ne_zero _

/-! ### Steps -/

/-- The handler of the dispatched call starts with the closures of the state before. -/
theorem Caught.wakes {i t : ℕ} {c₁ : Ctl} (hev : s.c.events[i]? = some ⟨t, .handleSyscallBefore p⟩)
    (hc : Caught p (((s.moveTo l).c.removeEvent i).setPid p) c₁) (th : Tracee) (x : Slot) :
    x.wakes (c₁.dispatch p th) = x.wakes s.c := by
  have hrests : Rests s.c c₁ := by
    refine (Rests.setNow l.time s.c).trans (Rests.trans ?_ (Calm.of_caught hc).toRests)
    exact (Rests.removeEvent (c := (s.moveTo l).c) hev rfl).trans (Rests.setPid p _)
  rw [← hrests.wakes x]
  cases x <;> rfl

/-- A slot that the handler may write wakes no thread that is blocked afterwards. -/
theorem Slot.free_dispatch {s₁ : St} (hk : Known s.c) (hb : Begins s p call s₁)
    (hu : Unblocks s₁.c f) (hfree : x.free s.c p = true) (hx : x.wakes s.c = some τ) :
    f.inCall τ.thread ≠ some τ.act := by
  intro hin
  have hin : Function.update s.c.inCall p (some s.c.nextAct) τ.thread = some τ.act :=
    hb.inCall ▸ hu.inCall _ _ hin
  obtain ⟨w, harm⟩ := Slot.armed hx
  obtain ⟨a, ha, -⟩ := hk.armed harm
  by_cases hp : τ.thread = p
  · rw [hp, Function.update_self, Option.some.injEq] at hin
    exact (hk.acts_lt ha).ne hin.symm
  · rw [Function.update_of_ne hp] at hin
    have hfree : τ.thread = p ∨ ¬ s.c.inCall τ.thread = some τ.act := by
      simpa [Slot.free, hx] using hfree
    rcases hfree with h | h
    · exact hp h
    · exact h hin

/-- The step that dispatches a call. -/
theorem spares_dispatched (hk : Known s.c) (h : step s l = some s')
    (hd : dispatched s l = some (p, call)) (hs : sparing s l = true) : Spares s'.c s.c s'.c := by
  obtain ⟨i, t, c₁, th, res, s₂, hl, hev, hc, hth, hcall, hans, hp⟩ := step_dispatched h hd
  subst hcall
  obtain ⟨hw, hfree⟩ : th.origRax.wakeful s.c.env s.d = true ∧
      ∀ x ∈ th.origRax.writes s.d, x.free s.c p = true := by
    simpa only [sparing, hd, Bool.and_eq_true, List.all_eq_true] using hs
  have hbegins : Begins s p th.origRax ⟨c₁.dispatch p th, s.d⟩ := hc.begins
  have hk₁ : Known (c₁.dispatch p th) := (hk.caught hev hc).dispatch p th
  have hhandler : Spares s'.c (c₁.dispatch p th) s₂.c := by
    refine hans.handled.spares hp.ne_error hk₁ ?_ hp.calm.inCall fun x hmem τ hx => ?_
    · rw [hbegins.env]
      exact hw
    · rw [hc.wakes hev th x] at hx
      exact Slot.free_dispatch hk hbegins
        ((hans.handled.unblocks hp.ne_error).trans (.of_calm hp.calm)) (hfree x hmem) hx
  intro x τ hτ hx
  rw [← hc.wakes hev th x] at hx
  exact (hhandler.trans (.of_calm hp.calm)) x τ hτ hx

/-- A connection attempt ends. -/
theorem Spares.connectEnds {cl : ConnectCallback} {v : ℤ} (hcb : c.connectCallback sock = some cl)
    (hf : Finish cl.task p v (c.setConnecting sock false) c') : Spares c' c c' := by
  refine Spares.trans ?_ (.of_calm (Calm.of_finish hf))
  refine .of_slot (y := .connect sock) (fun _ hx => wakes_setConnecting hx) fun τ hτ => ?_
  obtain ⟨-, cl', hcl', rfl⟩ := wakes_connect.mp hτ
  cases hcb.symm.trans hcl'
  exact ended hf (fun _ _ h => h) _

/-- A callback or a timer that is invoked completes the call of the thread that it wakes. -/
theorem spares_occurred {what : Occurrence} (hk : Known s.c) (ho : Occurs s what s')
    (hd : ∀ i t p, what = .fire i → s.c.events[i]? = some ⟨t, .handleSyscallBefore p⟩ →
      s.c.catches p = none)
    (hs : ∀ sock addr cl sock', what = .incoming sock addr →
      s.c.acceptCallback sock = some (.select cl) → s.c.alreadyHandled cl.task.act = false →
      s.d.fds.sockets.find cl.fdnr = some sock' →
      (Slot.accept sock').free s.c cl.task.thread = true) : Spares s'.c s.c s'.c := by
  -- a slot is cleared after the call of its thread has been completed
  have cleared : ∀ {c₀ c' : Ctl} {y : Slot} {σ : Task} {v : ℤ} {q : Pid}, Spares c' s.c c₀ →
      Finish σ q v c₀ c' → ∀ {c'' : Ctl}, c''.inCall = c'.inCall →
      (∀ x, x ≠ y → x.wakes c'' = x.wakes c') → (∀ τ, y.wakes c₀ = some τ → τ.thread = σ.thread) →
      Spares c'' s.c c'' := by
    intro c₀ c' y σ v q h₀ hf c'' hin hsame hy
    have hdone := ended (f := c'') hf fun _ _ hk => hin ▸ hk
    have hbefore : Spares c'' s.c c₀ := fun x τ hτ hx => h₀ x τ (hin ▸ hτ) hx
    refine hbefore.trans ?_
    refine (Spares.of_calm (Calm.of_finish hf)).trans (.of_slot hsame fun τ hτ => ?_)
    rw [(Calm.of_finish hf).wakes] at hτ
    rw [hy τ hτ]
    exact hdone _
  cases ho with
  | @fired i e _ hev _ hf =>
      obtain ⟨t, kind⟩ := e
      cases hf with
      | @gone p th hth =>
          refine .of_rests ((Rests.removeEvent hev rfl).trans ?_)
          exact (Rests.setPid p _).trans (Calm.exited p th false _).toRests
      | dispatched hc hth => cases (hd i t _ rfl hev).symm.trans (hc.catches hth)
      | @timeoutStale τ hh =>
          refine .removeEvent hev fun σ hσ => ?_
          obtain ⟨rfl, hn⟩ := unanswered_eq_some.mp hσ
          cases hh.symm.trans hn
      | @timeout τ c' hn hf =>
          have hdone := ended (f := c') hf fun _ _ h => h
          have harm : Armed s.c .select τ := .timer (pend_ne_zero hev) rfl
          have hclaim : Spares c' s.c (s.c.setHandled τ.act) := .setHandled hk harm hdone
          refine (hclaim.trans ?_).trans (.of_calm (Calm.of_finish hf))
          refine Spares.removeEvent (c := s.c.setHandled τ.act) hev fun σ hσ => ?_
          obtain ⟨rfl, -⟩ := unanswered_eq_some.mp hσ
          exact hdone _
      | @slept τ c' hf =>
          have hdone := ended (f := c') hf fun _ _ h => h
          refine (Spares.removeEvent hev fun σ hσ => ?_).trans (.of_calm (Calm.of_finish hf))
          cases hσ
          exact hdone _
      | removed => exact .of_rests (Rests.removeEvent hev rfl)
  | receivedIdle => exact .refl _ _
  | @receivedRead sock rx rx' cb τ d' c' hcb ho _ hr =>
      have hcalm := Calm.of_reads hr
      refine (Spares.of_calm hcalm).trans
        (.of_slot (y := .recv sock) (fun _ hx => wakes_setRecv hx) fun σ hσ => ?_)
      rw [hcalm.wakes] at hσ
      obtain ⟨cb', hcb', hw⟩ := Option.bind_eq_some_iff.mp hσ
      cases hcb.symm.trans hcb'
      cases (RecvCallback.wakes_owner ho).symm.trans hw
      show c'.inCall τ.thread ≠ some τ.act
      rw [hr.inCall, Function.update_self]
      exact (Option.some_ne_none _).symm
  | @receivedSelect sock rx cl c' _ hcb hn hf =>
      have hclaim : Spares c' s.c (s.c.claim cl) :=
        .claim hk (.recv hcb rfl) (ended hf fun _ _ h => h)
      refine cleared (y := .recv sock) hclaim hf rfl (fun _ hx => wakes_setRecv hx) fun τ hτ => ?_
      obtain ⟨cb', hcb', hw⟩ := Option.bind_eq_some_iff.mp hτ
      cases hcb.symm.trans hcb'
      exact (congrArg Task.thread (unanswered_eq_some.mp hw).1).symm
  | sendableIdle => exact .refl _ _
  | @sendableSelect sock tx cl c' _ hcb hn hf =>
      have hclaim : Spares c' s.c (s.c.claim cl) :=
        .claim hk (.send hcb rfl) (ended hf fun _ _ h => h)
      refine cleared (y := .send sock) hclaim hf rfl (fun _ hx => wakes_setSend hx) fun τ hτ => ?_
      obtain ⟨cb', hcb', hw⟩ := Option.bind_eq_some_iff.mp hτ
      cases hcb.symm.trans hcb'
      exact (congrArg Task.thread (unanswered_eq_some.mp hw).1).symm
  | incomingLost => exact .refl _ _
  | incomingStored => exact .refl _ _
  | @incomingSelect sock sock' addr rx tx cl d' c' _ hcb hn hsock _ hf =>
      have hdone := ended (f := c') hf fun _ _ h => h
      have hfree := hs sock addr cl sock' rfl hcb hn hsock
      have hclaim : Spares c' s.c (s.c.claim cl) := .claim hk (.accept hcb rfl) hdone
      refine Spares.trans ?_ (.of_calm (Calm.of_finish hf))
      intro x τ hτ hx
      have hkeep : x ≠ .accept sock' := by
        rintro rfl
        rcases (by simpa [Slot.free, hx] using hfree :
          τ.thread = cl.task.thread ∨ ¬ s.c.inCall τ.thread = some τ.act) with h | h
        · rw [h] at hτ
          exact hdone _ hτ
        · have hcalm : Calm ((s.c.claim cl).setAcceptCallback sock' none) c' := Calm.of_finish hf
          exact h (hcalm.inCall _ _ hτ)
      rw [wakes_setAccept hkeep]
      exact hclaim x τ hτ hx
  | @incomingAccept sock addr rx tx τ fd fd' out d' c₁ _ _ _ _ hc =>
      exact .of_calm (Calm.of_finish ⟨c₁, hc, rfl⟩)
  | @connectIdle sock _ _ hcb =>
      refine .of_slot (y := .connect sock) (fun _ hx => wakes_setConnecting hx) fun τ hτ => ?_
      obtain ⟨-, cl, hcl, -⟩ := wakes_connect.mp hτ
      cases hcb.symm.trans hcl
  | @connected sock cl c' hcon hcb hf => exact .connectEnds hcb hf
  | @refused sock cl c' hcon hcb hf => exact .connectEnds hcb hf

/-- Nothing is lost that wakes a thread which is still blocked after the step. -/
theorem step_spares (hk : Known s.c) (h : step s l = some s') (hs : sparing s l = true) :
    Spares s'.c s.c s'.c := by
  cases hd : dispatched s l with
  | some disp => exact spares_dispatched hk h hd hs
  | none =>
      obtain ⟨-, -, ho⟩ := step_cases h
      have hmove : Rests s.c (s.moveTo l).c := Rests.setNow l.time s.c
      refine (Spares.of_rests hmove).trans (spares_occurred (hk.rests hmove) ho ?_ ?_)
      · intro i t p hl hev
        by_contra hc
        obtain ⟨call, hc⟩ := Option.ne_none_iff_exists'.mp hc
        cases hd.symm.trans (dispatched_eq (resumes_eq hl hev rfl) hc)
      · intro sock addr cl sock' hl hcb hn hsock
        have hcb : s.c.acceptCallback sock = some (.select cl) := hcb
        have hn : s.c.alreadyHandled cl.task.act = false := hn
        have hsock : s.d.fds.sockets.find cl.fdnr = some sock' := hsock
        have hfree : (Slot.accept sock').free s.c cl.task.thread = true := by
          simpa [sparing, hd, hl, hcb, hn, hsock] using hs
        exact hfree

/-- A socket that listens does not stop. -/
theorem step_listening (h : step s l = some s') (hl : s.d.listening sock = true) :
    s'.d.listening sock = true := by
  have same : ∀ {d : Data}, SameTables d s'.d → d.listening = s.d.listening →
      s'.d.listening sock = true := by
    intro d hd hsame
    rw [hd.listening, hsame]
    exact hl
  cases table_step h with
  | @listened fd sock' _ _ hd =>
      rw [hd.listening]
      by_cases hs : sock = sock'
      · exact hs ▸ Function.update_self ..
      · exact (Function.update_of_ne hs ..).trans hl
  | same hd => exact same hd rfl
  | random _ hd => exact same hd rfl
  | socket _ hd => exact same hd rfl
  | tcpSocket _ hd => exact same hd rfl
  | netlink _ hd => exact same hd rfl
  | closeSocket _ _ hd => exact same hd rfl
  | closeNetlink _ hd => exact same hd rfl
  | closeRandom _ hd => exact same hd rfl
  | nonblocking _ hd => exact same hd rfl
  | listenFailed _ _ hd => exact same hd rfl
  | accepted _ _ hd => exact same hd rfl
  | connectNow _ hd => exact same hd rfl
  | connected _ _ hd => exact same hd rfl
  | lost _ hd => exact same hd rfl
  | stored _ _ hd => exact same hd rfl
  | selectStored _ _ _ hd => exact same hd rfl
  | acceptedNow _ _ hd => exact same hd rfl

/-! ### Runs -/

/-- Every blocked thread is woken by a closure that can be invoked, but for one in `exit_group`. -/
def Watched (s : St) : Prop :=
  ∀ p k a, s.c.inCall p = some k → s.c.acts k = some a → a.call ≠ .exitGroup →
    ∃ x : Slot, x.wakes s.c = some ⟨p, k⟩ ∧ x.live s.d

theorem Slot.live_step (h : step s l = some s') (hx : x.live s.d) : x.live s'.d := by
  cases x with
  | accept sock => exact step_listening h hx
  | _ => trivial

theorem Watched.step (hw : Watched s) (hk : Known s.c) (h : Grail.step s l = some s')
    (hs : sparing s l = true) : Watched s' := by
  have hspares := step_spares hk h hs
  -- a thread that was blocked before
  have kept : ∀ q k a, s'.c.inCall q = some k → s.c.inCall q = some k → s.c.acts k = some a →
      a.call ≠ .exitGroup → ∃ x : Slot, x.wakes s'.c = some ⟨q, k⟩ ∧ x.live s'.d := by
    intro q k a hin' hin ha hexit
    obtain ⟨x, hx, hlive⟩ := hw q k a hin ha hexit
    exact ⟨x, hspares x ⟨q, k⟩ hin' hx, Slot.live_step h hlive⟩
  intro q k a hin ha hexit
  cases hd : dispatched s l with
  | none =>
      have hu := step_unblocks h hd
      exact kept q k a hin (hu.inCall _ _ hin) (hu.acts ▸ ha) hexit
  | some disp =>
      obtain ⟨p, call⟩ := disp
      obtain ⟨i, t, c₁, th, res, s₂, hl, hev, hc, hth, hcall, hans, hp⟩ := step_dispatched h hd
      subst hcall
      have hbegins : Begins s p th.origRax ⟨c₁.dispatch p th, s.d⟩ := hc.begins
      have hu : Unblocks (c₁.dispatch p th) s'.c :=
        (hans.handled.unblocks hp.ne_error).trans (.of_calm hp.calm)
      have hin₁ : Function.update s.c.inCall p (some s.c.nextAct) q = some k :=
        hbegins.inCall ▸ hu.inCall _ _ hin
      by_cases hq : q = p
      · subst hq
        rw [Function.update_self, Option.some.injEq] at hin₁
        subst hin₁
        have hfresh : Fresh (c₁.dispatch q th) (c₁.dispatch q th).task :=
          (hk.caught hev hc).fresh_dispatch q th
        have hcall : a.call = th.origRax := by
          refine hbegins.blockedIn_self.mp ⟨_, a, ?_, hu.acts ▸ ha, rfl⟩
          exact hu.inCall _ _ hin
        have hflag : (c₁.dispatch q th).alreadyHandled s.c.nextAct = false := by
          rw [hbegins.alreadyHandled]
          exact eq_false_of_ne_true fun hh => (hk.handled_lt hh).false
        have htask : (c₁.dispatch q th).task = ⟨q, s.c.nextAct⟩ := hbegins.task
        have hwakeful : th.origRax.wakeful (c₁.dispatch q th).env s.d = true := by
          rw [hbegins.env]
          have hs : (th.origRax.wakeful s.c.env s.d &&
              (th.origRax.writes s.d).all (·.free s.c q)) = true := by
            simpa only [sparing, hd] using hs
          exact (Bool.and_eq_true _ _ ▸ hs).1
        have hp' : Processed (c₁.dispatch q th).task.thread s₂ res s' := by rwa [htask]
        have hfinal := hans.handled.waker hp' (hcall ▸ hexit) hwakeful hfresh (by rwa [htask])
        rw [htask] at hfinal
        rcases hfinal with hnone | ⟨x, hx, hlive⟩
        · cases hnone.symm.trans hin
        · refine ⟨x, (hp.calm.wakes x).trans hx, ?_⟩
          rw [hp.d]
          exact hlive
      · rw [Function.update_of_ne hq] at hin₁
        obtain ⟨b, -, hacts⟩ := hbegins.acts
        obtain ⟨a', ha', -⟩ := hk.inCall hin₁
        have hacts' : s'.c.acts k = s.c.acts k := by
          rw [hu.acts, hacts, Function.update_of_ne (hk.acts_lt ha').ne]
        exact kept q k a hin hin₁ (hacts' ▸ ha) hexit

/-! ### Closures -/

/-- The closures that ns-3, the simulator or a netlink request can invoke, by their slots. -/
inductive Installed (s : St) : Slot → M Unit → Prop
  | read {sock : SockId} {τ : Task} {buf : Ptr} {count : ℕ} :
      s.c.recvCallback sock = some (.read τ buf count) →
      Installed s (.recv sock) (onBehalf τ (readCallback τ buf count sock))
  | recvfrom {sock : SockId} {τ : Task} {buffer : Ptr} {length : ℕ} {flags : ℤ}
      {out : SockaddrOut} : s.c.recvCallback sock = some (.recvfrom τ buffer length flags out) →
      Installed s (.recv sock) (onBehalf τ (recvfromCallback τ buffer length out sock))
  | selectRecv {sock : SockId} {cl : SelectClosure} : s.c.recvCallback sock = some (.select cl) →
      Installed s (.recv sock) (onBehalf cl.task (selectRecvCallback cl sock))
  | selectSend {sock : SockId} {cl : SelectClosure} : s.c.sendCallback sock = some (.select cl) →
      Installed s (.send sock) (onBehalf cl.task (selectSendCallback cl sock))
  | selectAccept {sock : SockId} {cl : SelectClosure} (conn : SockId) (addr : Option (ℕ × ℕ)) :
      s.d.listening sock = true → s.c.acceptCallback sock = some (.select cl) →
      Installed s (.accept sock) (onBehalf cl.task (selectAcceptCallback cl conn addr))
  | accept {sock : SockId} {τ : Task} {fd : Fd} {out : SockaddrOut} (conn : SockId)
      (addr : Option (ℕ × ℕ)) : s.d.listening sock = true →
      s.c.acceptCallback sock = some (.accept τ fd out) →
      Installed s (.accept sock) (onBehalf τ (acceptCallback τ out sock conn addr))
  | connected {sock : SockId} {cl : ConnectCallback} : s.c.connecting sock = true →
      s.c.connectCallback sock = some cl →
      Installed s (.connect sock) (onBehalf cl.task (connectSucceeded cl))
  | refused {sock : SockId} {cl : ConnectCallback} : s.c.connecting sock = true →
      s.c.connectCallback sock = some cl →
      Installed s (.connect sock) (onBehalf cl.task (connectFailed cl))
  | netlink {nl : NlId} {cl : SelectClosure} : s.c.nlCallback nl = some cl →
      Installed s (.netlink nl) (onBehalf cl.task (selectNetlinkCallback cl nl))
  | timer {kind : EventKind} : pend s.c kind ≠ 0 → Installed s (.timer kind) (runEvent kind)

/-- Thread `p` is in no call, and `HandleSyscallBefore(p)` is scheduled once more. -/
def Awakens (p : Pid) (c c' : Ctl) : Prop :=
  c'.inCall p = none ∧
    pend c' (.handleSyscallBefore p) = pend c (.handleSyscallBefore p) + 1

/-- Every execution of the closure that returns completes the call of `p`. -/
def Wakes (s : St) (m : M Unit) (p : Pid) : Prop := wp m (fun _ s' => Awakens p s.c s'.c) s

theorem Resumes.awakens (h : Resumes p c c') : Awakens p c c' :=
  ⟨by rw [h.inCall, Function.update_self], by rw [h.resumptions, if_pos rfl]⟩

theorem Finish.awakens {v : ℤ} (h : Finish τ p v c c') : Awakens τ.thread c c' :=
  (Resumes.of_finish h).awakens

theorem Reads.awakens (h : Reads τ c c') : Awakens τ.thread c c' := by
  cases h with
  | finish h => exact h.awakens
  | @vanish c₁ h =>
      have hsame : SameThreads c₁ (c₁.onTask c.task) := .of_fields rfl rfl rfl
      have hpend : pend ((c₁.resched τ.thread).onTask c.task) (.handleSyscallBefore τ.thread) =
          pend c₁ (.handleSyscallBefore τ.thread) + 1 :=
        (pend_resched τ.thread c₁ (.handleSyscallBefore τ.thread)).trans (by rw [if_pos rfl])
      refine ⟨Function.update_self .., hpend.trans ?_⟩
      cases h
      rfl

/-- The `select` of the closure is claimed before it is answered. -/
theorem awakens_claimed {cl : SelectClosure} {v : ℤ} {c₂ : Ctl} (hs : SameThreads (c.claim cl) c₁)
    (h : Finish cl.task p v c₁ c₂) (he : SameThreads c₂ c') : Awakens cl.task.thread c c' :=
  ((((SameThreads.claim cl c).trans hs).resumes (.of_finish h)).same he).awakens

/-- What wakes a task does so. -/
theorem Installed.wakes {m : M Unit} (h : Installed s x m) (hx : x.wakes s.c = some τ) :
    Wakes s m τ.thread := by
  -- a `select` that has been answered wakes nobody
  have unclaimed : ∀ {cl : SelectClosure}, unanswered s.c.alreadyHandled cl.task = some τ →
      cl.task = τ ∧ ∀ {P : Prop}, s.c.alreadyHandled cl.task.act = true → P := by
    intro cl hcl
    obtain ⟨rfl, hn⟩ := unanswered_eq_some.mp hcl
    exact ⟨rfl, fun hh => absurd (hn.symm.trans hh) Bool.false_ne_true⟩
  cases h with
  | read hcb =>
      obtain ⟨cb, hcb', hw⟩ := Option.bind_eq_some_iff.mp hx
      cases hcb.symm.trans hcb'
      cases hw
      exact wp_read_onBehalf fun rx d' c' _ hr => hr.awakens
  | recvfrom hcb =>
      obtain ⟨cb, hcb', hw⟩ := Option.bind_eq_some_iff.mp hx
      cases hcb.symm.trans hcb'
      cases hw
      exact wp_recvfrom_onBehalf fun rx d' c' _ hr => hr.awakens
  | selectRecv hcb =>
      obtain ⟨cb, hcb', hw⟩ := Option.bind_eq_some_iff.mp hx
      cases hcb.symm.trans hcb'
      obtain ⟨rfl, hno⟩ := unclaimed hw
      exact wp_selectRecvCallback hno fun c' _ hf =>
        awakens_claimed (.refl _) hf (.of_fields rfl rfl rfl)
  | selectSend hcb =>
      obtain ⟨cb, hcb', hw⟩ := Option.bind_eq_some_iff.mp hx
      cases hcb.symm.trans hcb'
      obtain ⟨rfl, hno⟩ := unclaimed hw
      exact wp_selectSendCallback hno fun c' _ hf =>
        awakens_claimed (.refl _) hf (.of_fields rfl rfl rfl)
  | @selectAccept sock cl conn addr _ hcb =>
      obtain ⟨cb, hcb', hw⟩ := Option.bind_eq_some_iff.mp hx
      cases hcb.symm.trans hcb'
      obtain ⟨rfl, hno⟩ := unclaimed hw
      refine wp_selectAcceptCallback hno fun sock' c' _ _ hf => ?_
      have hs : SameThreads (s.c.claim cl) ((s.c.claim cl).setAcceptCallback sock' none) :=
        .of_fields rfl rfl rfl
      exact awakens_claimed hs hf (.refl c')
  | accept conn addr _ hcb =>
      obtain ⟨cb, hcb', hw⟩ := Option.bind_eq_some_iff.mp hx
      cases hcb.symm.trans hcb'
      cases hw
      exact wp_acceptCallback fun fd' d' c₁ _ _ hc => Finish.awakens ⟨c₁, hc, rfl⟩
  | connected _ hcb =>
      obtain ⟨-, cl, hcl, rfl⟩ := wakes_connect.mp hx
      cases hcb.symm.trans hcl
      exact wp_connectSucceeded fun c' hf => hf.awakens
  | refused _ hcb =>
      obtain ⟨-, cl, hcl, rfl⟩ := wakes_connect.mp hx
      cases hcb.symm.trans hcl
      exact wp_complete_onBehalf resumes_failure fun c' hf => hf.awakens
  | netlink hcb =>
      obtain ⟨cl, hcl, hw⟩ := Option.bind_eq_some_iff.mp hx
      cases hcb.symm.trans hcl
      obtain ⟨rfl, hno⟩ := unclaimed hw
      exact wp_selectNetlinkCallback hno fun c' _ hf =>
        awakens_claimed (.refl _) hf (.of_fields rfl rfl rfl)
  | timer =>
      obtain ⟨-, hw⟩ := wakes_timer.mp hx
      rcases EventKind.wakes_inj hw with rfl | rfl
      · exact wp_complete_onBehalf resumes_success fun c' hf => hf.awakens
      · obtain ⟨-, hn⟩ := unanswered_eq_some.mp hw
        refine wp_selectTimeout (fun hh => ?_) fun c' _ hf => ?_
        · cases hn.symm.trans hh
        · have hs : SameThreads s.c (s.c.setHandled τ.act) := .of_fields rfl rfl rfl
          exact (hs.resumes (.of_finish hf)).awakens

theorem Watched.initial (app : App) (env : Env) : Watched (St.initial app env) :=
  fun _ _ _ h => absurd h (by simp [St.initial])

end Grail
