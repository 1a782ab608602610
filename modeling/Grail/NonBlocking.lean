import Grail.Frames

/-! # Calls on nonblocking sockets

The handlers of `read`, `recvfrom`, `write` and `accept` look in `m_nonblocking_sockets` before
they install a callback, and `sendto` never waits.  `HandleConnect` does not look there: it returns
`SYSC_DELAYED` for every socket and every address that `GetNs3Address` accepts (`delayed_iff`).
Every other call on a nonblocking socket lets its thread continue (`run_nonblocking`). -/

namespace Grail

open Programs

/-- The descriptor of a call that may wait for the network. -/
def Syscall.waitsOn : Syscall → Option Fd
  | .read fd _ _ => some fd
  | .recvfrom sockfd _ _ _ _ => some sockfd
  | .write fd _ _ => some fd
  | .sendto sockfd _ _ _ => some sockfd
  | .accept sockfd _ => some sockfd
  | .connect sockfd _ => some sockfd
  | _ => none

variable {s s' : St} {l : Label} {p : Pid} {call : Syscall} {fd : Fd}
  {res : SyscallHandlerStatusCode}

theorem Syscall.waitsOn_of_recvFd (h : call.recvFd = some fd) : call.waitsOn = some fd := by
  cases call <;> first | exact h | cases h

/-! ### Handlers -/

theorem wp_getNs3Address_iff {addr : Sockaddr} {Q : Bool → St → Prop} :
    wp (getNs3Address addr) Q s ↔ addr.addrlen ≤ 16 → Q (decide (addr.sa_family = AF_INET)) s := by
  unfold getNs3Address
  by_cases h : 16 < addr.addrlen
  · simp [h]
  · simp [h, not_lt.mp h]

theorem handleConnect_status (addr : Sockaddr) :
    wp (handleConnect fd addr) (fun res _ => res ≠ .error →
      (res = .delayed ↔ (s.d.fds.sockets.find fd).isSome = true ∧ addr.sa_family = AF_INET)) s := by
  unfold handleConnect
  simp only [wp_bind, wp_get, wp_ite, wp_socketsAt, wp_modifyCtl, wp_getNs3Address_iff, wp_pure]
  refine ⟨fun hnone => ?_, fun hsome _ => ⟨fun _ h => absurd rfl h, fun hinet sock _ => ?_⟩⟩
  · -- `connect` on a descriptor that names no socket
    refine wp_fake (fun _ h => absurd rfl h) fun c' _ _ => ?_
    simp [Option.isNone_iff_eq_none.mp hnone]
  · have hconnect : ∀ s₁ : St, wp (ns3Connect ⟨s.c.task, fd⟩ sock) (fun _ _ => True) s₁ :=
      fun _ _ _ _ => trivial
    refine (hconnect _).mono fun _ _ _ _ => ⟨fun _ => ⟨?_, ?_⟩, fun _ => trivial⟩
    · simpa [Option.isSome_iff_ne_none, Option.isNone_iff_eq_none] using hsome
    · simpa using hinet

/-- On a nonblocking descriptor only `connect` can return `SYSC_DELAYED`. -/
theorem Handled.connect_of_delayed (h : Handled call s .delayed s') (hcall : call.waitsOn = some fd)
    (hfd : fd ∈ s.d.fds.nonblockingSockets) : ∃ addr, call = .connect fd addr := by
  cases h with
  | answered _ _ hres => exact absurd hres not_resumes_delayed
  | nlSend _ hres => exact absurd hres not_resumes_delayed
  | nlOther _ hres => exact absurd hres not_resumes_delayed
  | unadvanced _ hres => exact absurd hres not_resumes_delayed
  | @recvWait fd' sock cb hrecv _ _ hnb _ =>
      have hfd' := Syscall.waitsOn_of_recvFd hrecv
      rw [hcall, Option.some.injEq] at hfd'
      exact absurd (hfd' ▸ hfd) hnb
  | writeWait hcall' _ _ _ hnb =>
      subst hcall'
      cases hcall
      exact absurd hfd hnb
  | acceptWait hcall' _ _ _ hnb =>
      subst hcall'
      cases hcall
      exact absurd hfd hnb
  | connectRefused hcall' =>
      subst hcall'
      cases hcall
      exact ⟨_, rfl⟩
  | connectWait hcall' =>
      subst hcall'
      cases hcall
      exact ⟨_, rfl⟩
  | connectNow hcall' =>
      subst hcall'
      cases hcall
      exact ⟨_, rfl⟩
  | selectWait hcall' =>
      subst hcall'
      cases hcall
  | sleeping hcall' =>
      subst hcall'
      cases hcall

/-- The handler of a call on a nonblocking descriptor returns `SYSC_DELAYED` exactly for a
`connect` of a socket to an address of the internet. -/
theorem delayed_iff (hcall : call.waitsOn = some fd) (hfd : fd ∈ s.d.fds.nonblockingSockets)
    (hrun : (handle call).run s = .ok (res, s')) (hres : res ≠ .error) :
    res = .delayed ↔ ∃ addr, call = .connect fd addr ∧ (s.d.fds.sockets.find fd).isSome = true ∧
      addr.sa_family = AF_INET := by
  constructor
  · rintro rfl
    obtain ⟨addr, rfl⟩ := ((handle_spec call).elim hrun).connect_of_delayed hcall hfd
    exact ⟨addr, rfl, ((handleConnect_status addr).elim hrun hres).mp rfl⟩
  · rintro ⟨addr, rfl, h⟩
    exact ((handleConnect_status addr).elim hrun hres).mpr h

/-! ### Steps -/

/-- The thread is scheduled again. -/
def Continues (p : Pid) (c : Ctl) : Prop := ∃ e ∈ c.events, e.kind = .handleSyscallBefore p

theorem continues_resched (p : Pid) (c : Ctl) : Continues p (c.resched p) := by
  refine ⟨_, List.mem_append_right _ (List.mem_singleton_self _), rfl⟩

/-- The thread of a call that is not delayed is scheduled again. -/
theorem Handled.continues {s₂ : St} (h : Handled call s res s₂) (hproc : Processed p s₂ res s')
    (hcall : call.waitsOn = some fd) (hp : s.c.task.thread = p) (hres : res ≠ .delayed) :
    Continues p s'.c := by
  cases hproc with
  | resumed _ => exact continues_resched p s₂.c
  | quits _ =>
      cases h with
      | answered _ _ hres => exact absurd hres not_resumes_systemExit
      | nlSend _ hres => exact absurd hres not_resumes_systemExit
      | nlOther _ hres => exact absurd hres not_resumes_systemExit
      | unadvanced _ hres => exact absurd hres not_resumes_systemExit
      | systemExit hcall' =>
          subst hcall'
          cases hcall
  | waits hwaits =>
      obtain rfl | rfl := hwaits
      · cases h with
        | answered _ _ hres => exact absurd hres not_resumes_manual
        | nlSend _ hres => exact absurd hres not_resumes_manual
        | nlOther _ hres => exact absurd hres not_resumes_manual
        | unadvanced _ hres => exact absurd hres not_resumes_manual
        | recvNow _ _ _ _ hreads =>
            -- `readCallback` has scheduled the thread
            cases hreads with
            | finish hfinish =>
                obtain ⟨c₁, -, rfl⟩ := hfinish
                exact hp ▸ continues_resched s.c.task.thread c₁
            | @vanish c₁ _ => exact hp ▸ continues_resched s.c.task.thread c₁
      · exact absurd rfl hres

/-- The call that `l` dispatches is a `connect` of a nonblocking socket to an address of the
internet. -/
def connectsNonblocking (s : St) (l : Label) : Bool :=
  match dispatched s l with
  | some (_, .connect fd addr) => decide (fd ∈ s.d.fds.nonblockingSockets) &&
      (s.d.fds.sockets.find fd).isSome && decide (addr.sa_family = AF_INET)
  | _ => false

/-- A call on a nonblocking socket that the step dispatches is not delayed: its thread
continues. -/
def NeverDelays (s : St) (l : Label) : Prop :=
  ∀ s' ∈ step s l, ∀ p call fd, dispatched s l = some (p, call) → call.waitsOn = some fd →
    fd ∈ s.d.fds.nonblockingSockets →
    (∀ s₁ res s₂, Handles s l p call s₁ → (handle call).run s₁ = .ok (res, s₂) → res ≠ .delayed) ∧
      Continues p s'.c

theorem Handles.data {s₁ : St} (h : Handles s l p call s₁) : s₁.d = s.d ∧ s₁.c.task.thread = p := by
  cases h with
  | mk => exact ⟨rfl, rfl⟩

theorem step_neverDelays (h : step s l = some s') :
    NeverDelays s l ↔ connectsNonblocking s l = false := by
  constructor
  · intro hnever
    by_contra hconn
    unfold connectsNonblocking at hconn
    split at hconn
    next p fd addr hd =>
      simp only [Bool.not_eq_false, Bool.and_eq_true, decide_eq_true_eq] at hconn
      obtain ⟨⟨hfd, hsome⟩, hinet⟩ := hconn
      obtain ⟨s₁, res, s₂, hh, hrun, hproc⟩ := step_handles h hd
      have hd₁ := hh.data.1
      have hwaits : (Syscall.connect fd addr).waitsOn = some fd := rfl
      have hiff := delayed_iff hwaits (by rwa [hd₁]) hrun hproc.ne_error
      exact (hnever s' h p _ fd hd rfl hfd).1 s₁ res s₂ hh hrun
        (hiff.mpr ⟨addr, rfl, by rwa [hd₁], hinet⟩)
    next => exact hconn rfl
  · intro hconn s'' hs'' p call fd hd hcall hfd
    rw [Option.mem_def, h, Option.some.injEq] at hs''
    subst hs''
    have hnot : ∀ s₁ res s₂, Handles s l p call s₁ → (handle call).run s₁ = .ok (res, s₂) →
        res ≠ .delayed := by
      rintro s₁ res s₂ hh hrun rfl
      have hd₁ := hh.data.1
      obtain ⟨addr, rfl, hsome, hinet⟩ := (delayed_iff hcall (by rwa [hd₁]) hrun nofun).mp rfl
      rw [hd₁] at hsome
      simp [connectsNonblocking, hd, hfd, hsome, hinet] at hconn
    obtain ⟨s₁, res, s₂, hh, hrun, hproc⟩ := step_handles h hd
    exact ⟨hnot, ((handle_spec call).elim hrun).continues hproc hcall hh.data.2
      (hnot s₁ res s₂ hh hrun)⟩

/-- In a run, the calls on nonblocking sockets never wait exactly if none of them is a `connect` to
an address of the internet. -/
theorem run_nonblocking {app : App} {env : Env} {ls : List Label} {s : St}
    (hrun : run (St.initial app env) ls = some s) :
    Runs.Meets step NeverDelays (St.initial app env) ls ↔
      Runs.Meets step (fun s l => connectsNonblocking s l = false) (St.initial app env) ls :=
  Runs.meets_congr (fun _ _ _ h => step_neverDelays h) hrun

/-- A nonblocking UDP socket without data. -/
def recvEnv : Env :=
  .script [.entry (.socket AF_INET SOCK_DGRAM 0), .exit 0,
    .entry (.fcntl 100 F_SETFL O_NONBLOCK), .exit 0,
    .entry (.recvfrom 100 8 16 0 ⟨0, 0, 0⟩), .exit 0] []

theorem run_nonblocking_recvfrom :
    ∃ s, run (St.initial {} recvEnv) [⟨0, .fire 0⟩, ⟨0, .fire 0⟩, ⟨0, .fire 0⟩] = some s ∧
      returnValues s.c.log = [-EWOULDBLOCK, 0, 100] ∧
      Runs.Meets step NeverDelays (St.initial {} recvEnv)
        [⟨0, .fire 0⟩, ⟨0, .fire 0⟩, ⟨0, .fire 0⟩] := by
  have hrun : (run (St.initial {} recvEnv) [⟨0, .fire 0⟩, ⟨0, .fire 0⟩, ⟨0, .fire 0⟩]).any
      (fun s => returnValues s.c.log = [-EWOULDBLOCK, 0, 100]) = true := by
    decide +kernel
  obtain ⟨s, hs, hview⟩ := (Option.any_eq_true _ _).mp hrun
  exact ⟨s, hs, of_decide_eq_true hview, (run_nonblocking hs).mpr (by decide +kernel)⟩

/-- A nonblocking TCP socket connects. -/
def connectEnv : Env :=
  .script [.entry (.socket AF_INET SOCK_STREAM 0), .exit 0,
    .entry (.fcntl 100 F_SETFL O_NONBLOCK), .exit 0, .entry (.connect 100 { sa_family := AF_INET })] []

/-- `connect` waits although the socket is nonblocking. -/
theorem connect_waits :
    ¬ ∀ app env ls s, run (St.initial app env) ls = some s →
      Runs.Meets step NeverDelays (St.initial app env) ls := by
  intro hall
  have hrun : (run (St.initial {} connectEnv) [⟨0, .fire 0⟩, ⟨0, .fire 0⟩, ⟨0, .fire 0⟩]).any
      (fun s => s.c.events = [] ∧ s.d.fds.nonblockingSockets = {100}) = true := by
    decide +kernel
  obtain ⟨s, hs, -⟩ := (Option.any_eq_true _ _).mp hrun
  have hconnects : ¬ Runs.Meets step (fun s l => connectsNonblocking s l = false)
      (St.initial {} connectEnv) [⟨0, .fire 0⟩, ⟨0, .fire 0⟩, ⟨0, .fire 0⟩] := by
    decide +kernel
  have hiff := Runs.meets_congr (fun _ _ _ h => step_neverDelays h) hs
  exact hconnects (hiff.mp (hall _ _ _ s hs))

end Grail
