import Grail.Tables

/-! # The calls that the kernel executes

A thread that is resumed at the entry stop of a call executes it, unless a handler has replaced
it.  `Ran s l new` says which calls the kernel executes in the step `l`: the call that the step
dispatches, if its handler passes it on, or a call at whose entry the thread was left by an
earlier step, which no handler looks at again.

The handlers of most calls check the descriptor first (`passable`).  The calls that are always
passed on are not checked, `openat` does not check its directory and `poll` looks for ns-3 sockets
only; so an executed call operates on no emulated descriptor exactly if none of these is one
(`executed_fds`). -/

namespace Grail

/-! ### What a step executes -/

section Unexecuted

variable {c c' : Ctl} {p : Pid} {v : ℤ} {τ : Task}

theorem executed_completes (h : Completes p v c c') : c'.executed = c.executed := by
  cases h <;> rfl

theorem executed_finish (h : Finish τ p v c c') : c'.executed = c.executed := by
  obtain ⟨c₁, hc₁, rfl⟩ := h
  have h₁ := executed_completes hc₁
  exact h₁

theorem executed_reads (h : Reads τ c c') : c'.executed = c.executed := by
  cases h with
  | finish h => exact executed_finish h
  | vanish h =>
      cases h
      rfl

theorem executed_prelude (h : Prelude p c c') : c'.executed = c.executed := by
  cases h <;> rfl

theorem executed_nlWork {nl : NlId} {s s' : St} (h : NlWork nl s s') :
    s'.c.executed = s.c.executed := by
  induction h with
  | refl => rfl
  | tail _ hstep ih =>
      cases hstep with
      | push => exact ih
      | route => exact ih
      | notify _ _ _ hf =>
          have h₁ := executed_finish hf
          exact h₁.trans ih

theorem executed_processed {s s' : St} {res : SyscallHandlerStatusCode}
    (h : Processed p s res s') : s'.c.executed = s.c.executed := by
  cases h <;> rfl

end Unexecuted

/-- A handler executes nothing, or passes on the call of a thread at its entry stop. -/
inductive HandlerRan (call : Syscall) (s : St) (c' : Ctl) : Prop
  | nothing : c'.executed = s.c.executed → HandlerRan call s c'
  | passed {th : Tracee} {retval : ℤ} : s.c.threads s.c.pid = some th → th.phase = .entry →
      passable s.d.fds call = true ∨ call = .clone →
      c'.executed = Ctl.executes true th (some retval) ++ s.c.executed → HandlerRan call s c'

theorem HandlerRan.of_passes {call : Syscall} {s : St} {c' : Ctl}
    (hk : passable s.d.fds call = true ∨ call = .clone) (h : Passes s.c.pid s.c c') :
    HandlerRan call s c' := by
  cases h with
  | atEntry retval hth hph _ => exact .passed hth hph hk rfl
  | atExit next hth hph => exact .nothing rfl

theorem Ctl.toEntry_self (p : Pid) (next : Syscall) (c : Ctl) :
    (c.toEntry p next).threads p = some ⟨.entry, next, false, -ENOSYS, c.nextSerial, c.now⟩ :=
  Function.update_self ..

theorem Ctl.toExit_self (p : Pid) (th : Tracee) (retval : ℤ) (handled : Bool) (c : Ctl) :
    (c.toExit p th retval handled).threads p = some { th with phase := .exit, rax := retval } :=
  Function.update_self ..

/-- A thread at the entry of a call executes it when the call is passed on. -/
theorem Passes.executes {p : Pid} {c c' : Ctl} {th : Tracee} (h : Passes p c c')
    (hth : c.threads p = some th) (hph : th.phase = .entry) (hf : th.faked = false) :
    c'.executed ≠ c.executed := by
  intro heq
  cases h with
  | atEntry retval hth' _ _ =>
      cases hth'.symm.trans hth
      have hone : Ctl.executes true th (some retval) = [⟨th.call, true, some retval⟩] :=
        if_pos ⟨hph, hf⟩
      have heq : Ctl.executes true th (some retval) ++ c.executed = c.executed := heq
      rw [hone, List.singleton_append] at heq
      exact absurd heq (List.cons_ne_self _ _)
  | atExit next hth' hph' =>
      cases hth'.symm.trans hth
      cases hph'.symm.trans hph

theorem Ctl.executed_cloned (tid : Pid) (c : Ctl) : (c.cloned tid).executed = c.executed := by
  unfold Ctl.cloned Ctl.spawn
  split_ifs <;> rfl

theorem Handled.ran {call : Syscall} {s s' : St} {res : SyscallHandlerStatusCode}
    (h : Handled call s res s') (hres : res ≠ .error) : HandlerRan call s s'.c := by
  cases h with
  | error => exact absurd rfl hres
  | answered _ _ _ _ hpre hc =>
      exact .nothing ((executed_completes hc).trans (executed_prelude hpre))
  | listened _ _ _ _ _ hc => exact .nothing (executed_completes hc :)
  | accepted _ _ _ _ _ hc =>
      rw [St.returning_c]
      exact .nothing (executed_completes hc :)
  | nlSend _ _ hw hc =>
      exact .nothing ((executed_completes hc).trans (executed_nlWork hw))
  | nlOther _ _ _ _ hc => exact .nothing (executed_completes hc :)
  | passed _ _ hk _ hc => exact .of_passes (Or.inl hk) hc
  | cloned hcall hc =>
      cases HandlerRan.of_passes (Or.inr hcall) hc with
      | nothing h => exact .nothing ((Ctl.executed_cloned _ _).trans h)
      | passed hth hph hk h => exact .passed hth hph hk ((Ctl.executed_cloned _ _).trans h)
  | unadvanced => exact .nothing rfl
  | systemExit => exact .nothing rfl
  | recvNow _ _ _ _ hc => exact .nothing (executed_reads hc :)
  | recvWait => exact .nothing rfl
  | writeWait => exact .nothing rfl
  | connectRefused => exact .nothing rfl
  | connectWait => exact .nothing rfl
  | connectNow _ _ _ _ hc => exact .nothing (executed_finish hc :)
  | acceptWait => exact .nothing rfl
  | selectNow _ _ _ _ hc => exact .nothing (executed_completes hc :)
  | selectWait _ _ harms _ ht =>
      have hf := harms.frame
      cases ht with
      | none =>
          rw [hf]
          exact .nothing rfl
      | timer =>
          rw [hf]
          exact .nothing rfl
  | sleeping => exact .nothing rfl

/-- The descriptors that nothing checks before the kernel executes a call in the step `l`: all of
a call at whose entry the resumed thread was left, otherwise those that the handler of the
dispatched call does not check. -/
def uncheckedFds (s : St) (l : Label) : List Fd :=
  match resumes s l with
  | none => []
  | some p =>
      match s.c.threads p with
      | none => []
      | some th =>
          if th.phase = .entry then if th.faked then [] else th.call.fds
          else
            match s.c.catches p with
            | none => []
            | some call => unchecked s.d.fds call

/-- The calls that the kernel executes in the step `l`. -/
inductive Ran (s : St) (l : Label) : List Executed → Prop
  | nothing : uncheckedFds s l = [] → Ran s l []
  /-- the resumed thread was left at the entry of the call -/
  | pending {th : Tracee} {retval : Option ℤ} : uncheckedFds s l = th.call.fds →
      Ran s l [⟨th.call, false, retval⟩]
  /-- the resumed thread makes the call and its handler passes it on -/
  | passed {call : Syscall} {retval : ℤ} : uncheckedFds s l = unchecked s.d.fds call →
      passable s.d.fds call = true ∨ call = .clone → Ran s l [⟨call, true, some retval⟩]

section Ran

variable {s s' : St} {l : Label} {p : Pid} {th : Tracee}

theorem uncheckedFds_none (hr : resumes s l = none) : uncheckedFds s l = [] := by
  simp only [uncheckedFds, hr]

theorem resumes_other {i : ℕ} {e : Event} (hl : l.what = .fire i)
    (he : s.c.events[i]? = some e) (hk : ∀ p, e.kind ≠ .handleSyscallBefore p) :
    resumes s l = none := by
  obtain ⟨t, kind⟩ := e
  cases kind with
  | handleSyscallBefore p => exact absurd rfl (hk p)
  | _ => simp only [resumes, hl, he]

theorem resumes_occurs {what : Occurrence} (hl : l.what = what) (hw : ∀ i, what ≠ .fire i) :
    resumes s l = none := by
  subst hl
  unfold resumes
  split
  next i hi => exact absurd hi (hw i)
  next => rfl

theorem Ran.idle (hr : resumes s l = none) : Ran s l [] := .nothing (uncheckedFds_none hr)

theorem uncheckedFds_entry (hr : resumes s l = some p) (hth : s.c.threads p = some th)
    (hph : th.phase = .entry) :
    uncheckedFds s l = if th.faked then [] else th.call.fds := by
  simp only [uncheckedFds, hr, hth, hph, if_true]

theorem uncheckedFds_exit (hr : resumes s l = some p) (hth : s.c.threads p = some th)
    (hph : th.phase = .exit) {call : Syscall} (hc : s.c.catches p = some call) :
    uncheckedFds s l = unchecked s.d.fds call := by
  simp only [uncheckedFds, hr, hth, hph, hc, reduceCtorEq, if_false]

theorem Ran.of_executes (hr : resumes s l = some p) (hth : s.c.threads p = some th)
    (hph : th.phase = .entry) (retval : Option ℤ) : Ran s l (Ctl.executes false th retval) := by
  have hfds := uncheckedFds_entry hr hth hph
  unfold Ctl.executes
  cases hf : th.faked with
  | true =>
      rw [if_neg (fun h => by cases h.2)]
      exact .nothing (by rw [hfds, hf]; rfl)
  | false =>
      rw [if_pos ⟨hph, rfl⟩]
      exact .pending (by rw [hfds, hf]; rfl)

/-- What the kernel executes in the step that resumes a thread which ends. -/
theorem Ran.of_gone (hr : resumes s l = some p) (hth : s.c.threads p = some th)
    (hx : th.phase = .entry ∧ th.origRax = .exit ∨ s.c.env.wait s.c.waits = .exited) :
    Ran s l (Ctl.executes false th none) := by
  cases hph : th.phase with
  | entry => exact .of_executes hr hth hph none
  | exit =>
      have hnone : s.c.catches p = none := catches_gone hth hx
      have hfds : uncheckedFds s l = [] := by
        simp only [uncheckedFds, hr, hth, hph, hnone, reduceCtorEq, if_false]
      unfold Ctl.executes
      rw [if_neg (fun h => by cases h.1.symm.trans hph)]
      exact .nothing hfds

/-- What the kernel executes in the step that resumes a thread whose call is caught. -/
theorem Ran.of_dispatched {i : ℕ} {c₁ : Ctl} {res : SyscallHandlerStatusCode} {s₂ : St}
    (hr : resumes s l = some p) (hc : Caught p (((s.moveTo l).c.removeEvent i).setPid p) c₁)
    (hth : c₁.threads p = some th) (hh : Answers th.origRax ⟨c₁.dispatch p th, s.d⟩ res s₂)
    (hres : res ≠ .error) : ∃ new, s₂.c.executed = new ++ s.c.executed ∧ Ran s l new := by
  have hcatch : s.c.catches p = some th.origRax := hc.catches hth
  have hran := hh.handled.ran hres
  cases hc with
  | @entry _ th₀ _ hth₀ hph _ =>
      cases (Ctl.toEntry_self _ _ _).symm.trans hth
      have hfds := uncheckedFds_exit hr hth₀ hph hcatch
      cases hran with
      | nothing h =>
          refine ⟨[], h, .nothing ?_⟩
          by_contra hne
          rw [hfds] at hne
          exact (hh.passes hne hres).executes (Ctl.toEntry_self _ _ _) rfl rfl h
      | passed hth' _ hk h =>
          cases (Ctl.toEntry_self _ _ _).symm.trans hth'
          exact ⟨_, h, .passed hfds hk⟩
  | exit hth₀ hph _ _ =>
      cases (Ctl.toExit_self _ _ _ _ _).symm.trans hth
      cases hran with
      | nothing h => exact ⟨_, h, .of_executes hr hth₀ hph _⟩
      | passed hth' hph' _ _ =>
          cases (Ctl.toExit_self _ _ _ false _).symm.trans hth'
          cases hph'

theorem ran_step (h : step s l = some s') :
    ∃ new, s'.c.executed = new ++ s.c.executed ∧ Ran s l new := by
  obtain ⟨-, -, h⟩ := step_cases h
  generalize hl : l.what = what at h
  cases h with
  | @fired i e s₁ he _ hf =>
      obtain ⟨t, kind⟩ := e
      cases hf with
      | gone hth hx =>
          have hr := resumes_eq hl he rfl
          exact ⟨_, rfl, .of_gone hr hth hx⟩
      | dispatched hc hth hh hp =>
          have hr := resumes_eq hl he rfl
          obtain ⟨new, hnew, hran⟩ := Ran.of_dispatched (s := s) hr hc hth hh hp.ne_error
          exact ⟨new, (executed_processed hp).trans hnew, hran⟩
      | timeoutStale => exact ⟨[], rfl, .idle (resumes_other hl he nofun)⟩
      | timeout _ hf =>
          have hc := executed_finish hf
          exact ⟨[], hc, .idle (resumes_other hl he nofun)⟩
      | slept hf =>
          have hc := executed_finish hf
          exact ⟨[], hc, .idle (resumes_other hl he nofun)⟩
      | removed => exact ⟨[], rfl, .idle (resumes_other hl he nofun)⟩
  | receivedIdle => exact ⟨[], rfl, .idle (resumes_occurs hl nofun)⟩
  | receivedRead _ _ _ hr =>
      have hc := executed_reads hr
      exact ⟨[], hc, .idle (resumes_occurs hl nofun)⟩
  | receivedSelect _ _ _ hf =>
      have hc := executed_finish hf
      exact ⟨[], hc, .idle (resumes_occurs hl nofun)⟩
  | sendableIdle => exact ⟨[], rfl, .idle (resumes_occurs hl nofun)⟩
  | sendableSelect _ _ _ hf =>
      have hc := executed_finish hf
      exact ⟨[], hc, .idle (resumes_occurs hl nofun)⟩
  | incomingLost => exact ⟨[], rfl, .idle (resumes_occurs hl nofun)⟩
  | incomingStored => exact ⟨[], rfl, .idle (resumes_occurs hl nofun)⟩
  | incomingSelect _ _ _ _ _ hf =>
      have hc := executed_finish hf
      exact ⟨[], hc, .idle (resumes_occurs hl nofun)⟩
  | incomingAccept _ _ _ _ hc =>
      have hc := executed_completes hc
      exact ⟨[], hc, .idle (resumes_occurs hl nofun)⟩
  | connectIdle hw =>
      rcases hw with rfl | rfl <;>
        exact ⟨[], rfl, .idle (resumes_occurs hl nofun)⟩
  | connected _ _ hf =>
      have hc := executed_finish hf
      exact ⟨[], hc, .idle (resumes_occurs hl nofun)⟩
  | refused _ _ hf =>
      have hc := executed_finish hf
      exact ⟨[], hc, .idle (resumes_occurs hl nofun)⟩

end Ran

/-! ### Emulated descriptors -/

def NotEmulated (f : Fds) (fds : List Fd) : Prop := ∀ fd ∈ fds, f.isEmulated fd = false

instance (f : Fds) (fds : List Fd) : Decidable (NotEmulated f fds) :=
  inferInstanceAs (Decidable (∀ fd ∈ fds, f.isEmulated fd = false))

theorem notEmulated_checked {f : Fds} {fd : Fd} (h : (!f.isEmulated fd) = true) :
    NotEmulated f [fd] ↔ NotEmulated f [] := by
  have h : f.isEmulated fd = false := by simpa using h
  constructor
  · intro _ fd' hfd'
    cases hfd'
  · intro _ fd' hfd'
    rwa [List.mem_singleton.mp hfd']

/-- A call that is passed on has no emulated descriptor if its unchecked ones are none. -/
theorem notEmulated_passed {f : Fds} {call : Syscall}
    (hk : passable f call = true ∨ call = .clone) :
    NotEmulated f call.fds ↔ NotEmulated f (unchecked f call) := by
  rcases hk with hk | rfl
  swap
  · exact Iff.rfl
  cases call with
  | dup fd => exact notEmulated_checked hk
  | read fd _ _ => exact notEmulated_checked hk
  | close fd => exact notEmulated_checked hk
  | ioctl fd _ _ => exact notEmulated_checked hk
  | fcntl fd _ _ => exact notEmulated_checked hk
  | write fd _ _ => exact notEmulated_checked hk
  | setsockopt fd _ _ _ => exact notEmulated_checked hk
  | getsockopt fd _ _ _ _ => exact notEmulated_checked hk
  | openat dirfd pathname =>
      have hr : ¬ isRandomDevice (pathname.take 256) = true := by
        simpa only [passable, Bool.not_eq_true', Bool.not_eq_true] using hk
      have hu : unchecked f (.openat dirfd pathname) = [dirfd] := if_neg hr
      rw [hu]
      exact Iff.rfl
  | poll fds timeout =>
      have hnone : ∀ fd ∈ fds.map PollFd.fd, (f.sockets.find fd).isNone = true := by
        simpa [passable, Option.isSome_iff_ne_none] using hk
      have hu : unchecked f (.poll fds timeout) = fds.map PollFd.fd :=
        List.filter_eq_self.mpr hnone
      rw [hu]
      exact Iff.rfl
  | plain call => exact Iff.rfl
  | stat => exact Iff.rfl
  | «open» => exact Iff.rfl
  | pipe2 => exact Iff.rfl
  | futex => exact Iff.rfl
  | _ => cases hk

/-- No call that the kernel executes in the step operates on an emulated descriptor. -/
def Safe (s : St) (l : Label) : Prop :=
  ∀ s', step s l = some s' → ∀ new, s'.c.executed = new ++ s.c.executed →
    ∀ e ∈ new, NotEmulated s.d.fds e.call.fds

/-- No descriptor that reaches the kernel unchecked in the step is emulated. -/
def Guarded (s : St) (l : Label) : Prop := NotEmulated s.d.fds (uncheckedFds s l)

instance (s : St) (l : Label) : Decidable (Guarded s l) :=
  inferInstanceAs (Decidable (NotEmulated s.d.fds (uncheckedFds s l)))

theorem Ran.notEmulated_iff {s : St} {l : Label} {new : List Executed} (h : Ran s l new) :
    (∀ e ∈ new, NotEmulated s.d.fds e.call.fds) ↔ Guarded s l := by
  unfold Guarded
  cases h with
  | nothing hu =>
      rw [hu]
      exact ⟨fun _ _ hfd => (nomatch hfd), fun _ _ he => (nomatch he)⟩
  | pending hu => rw [hu, List.forall_mem_singleton]
  | passed hu hk => rw [hu, List.forall_mem_singleton, notEmulated_passed hk]

theorem safe_iff {s s' : St} {l : Label} (h : step s l = some s') : Safe s l ↔ Guarded s l := by
  obtain ⟨new, hnew, hran⟩ := ran_step h
  rw [← hran.notEmulated_iff]
  constructor
  · intro hs
    exact hs s' h new hnew
  · intro hs s₂ hs₂ new₂ hnew₂
    cases h.symm.trans hs₂
    rwa [List.append_cancel_right (hnew₂.symm.trans hnew)]

/-- In a run, no call that the kernel executes operates on a live emulated descriptor exactly if
none of the descriptors that reach it unchecked is emulated. -/
theorem executed_fds {app : App} {env : Env} {ls : List Label} {s : St}
    (hrun : run (St.initial app env) ls = some s) :
    Runs.Meets step Safe (St.initial app env) ls ↔
      Runs.Meets step Guarded (St.initial app env) ls :=
  Runs.meets_congr (fun _ _ _ h => safe_iff h) hrun

/-- A socket is created, then a file is opened and looked at. -/
def filesEnv : Env :=
  .script [.entry (.socket AF_INET SOCK_DGRAM 0), .exit 0,
    .entry (.openat (-100) ['a']), .exit 3, .entry (.plain (.fstat 3)), .exit 0] []

theorem executed_fds_files :
    ∃ s, run (St.initial {} filesEnv) [⟨0, .fire 0⟩, ⟨0, .fire 0⟩, ⟨0, .fire 0⟩] = some s ∧
      s.c.executed = [⟨.plain (.fstat 3), true, some 0⟩, ⟨.openat (-100) ['a'], true, some 3⟩] ∧
      Runs.Meets step Safe (St.initial {} filesEnv) [⟨0, .fire 0⟩, ⟨0, .fire 0⟩, ⟨0, .fire 0⟩] := by
  have hrun : (run (St.initial {} filesEnv) [⟨0, .fire 0⟩, ⟨0, .fire 0⟩, ⟨0, .fire 0⟩]).any
      (fun s => s.c.executed =
        [⟨.plain (.fstat 3), true, some 0⟩, ⟨.openat (-100) ['a'], true, some 3⟩]) = true := by
    decide +kernel
  obtain ⟨s, hs, hview⟩ := (Option.any_eq_true _ _).mp hrun
  exact ⟨s, hs, of_decide_eq_true hview, (executed_fds hs).mpr (by decide +kernel)⟩

/-- A socket is created and looked at. -/
def fstatEnv : Env :=
  .script [.entry (.socket AF_INET SOCK_DGRAM 0), .exit 0,
    .entry (.plain (.fstat 100)), .exit (-9)] []

/-- `fstat` of a socket reaches the kernel. -/
theorem fstat_unguarded :
    ¬ ∀ app env ls s, run (St.initial app env) ls = some s →
      Runs.Meets step Safe (St.initial app env) ls := by
  intro hall
  have hrun : (run (St.initial {} fstatEnv) [⟨0, .fire 0⟩, ⟨0, .fire 0⟩]).any
      (fun s => s.c.executed = [⟨.plain (.fstat 100), true, some (-9)⟩]) = true := by
    decide +kernel
  obtain ⟨s, hs, -⟩ := (Option.any_eq_true _ _).mp hrun
  have hunguarded :
      ¬ Runs.Meets step Guarded (St.initial {} fstatEnv) [⟨0, .fire 0⟩, ⟨0, .fire 0⟩] := by
    decide +kernel
  have hiff := Runs.meets_congr (fun _ _ _ h => safe_iff h) hs
  exact hunguarded (hiff.mp (hall _ _ _ s hs))

end Grail
