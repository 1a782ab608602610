import Grail.Continuations

/-! # The threads that are scheduled

`HandleSyscallBefore(p)` is scheduled for a thread `p` that `clone` returned, and for threads whose
call has been answered.  `SchedulesThreads`: every thread for which it is scheduled has been created
and is not known to have ended.

`clone` can return an error, or nothing that the emulator expects if it is dispatched at its exit
stop; the number is scheduled in any case.  A `read` and a `recvfrom` reschedule their thread even
if it ends while the answer is given, and the callback of a blocking `accept` reschedules its thread
whenever it is invoked.  `Steady` excludes these. -/

namespace Grail

open Programs

/-- Only threads that exist are scheduled. -/
def SchedulesThreads (s : St) : Prop :=
  ∀ t p, ⟨t, .handleSyscallBefore p⟩ ∈ s.c.events → s.c.threads p ≠ none

theorem Continued.schedulesThreads {s : St} (h : Continued (fun _ => True) s.c) :
    SchedulesThreads s := by
  intro t p hev
  obtain ⟨i, hi⟩ := List.mem_iff_getElem?.mp hev
  exact h.alive trivial (pend_ne_zero hi)

/-- After a run whose steps are steady, every thread that is scheduled exists. -/
theorem run_schedulesThreads {app : App} {env : Env} {ls : List Label} {s : St}
    (hrun : run (St.initial app env) ls = some s)
    (hsteady : Runs.Meets step (Steady fun _ => True) (St.initial app env) ls) :
    SchedulesThreads s :=
  (continued_of_run hrun hsteady).schedulesThreads

/-- Thread 1 creates thread 2, which exits while thread 1 sleeps. -/
def exitEnv : Env :=
  .script [.entry .clone, .exit 2, .entry .exit, .entry (.nanosleep ⟨0, 200⟩), .exited, .exit 0] []

/-- The steps of that run. -/
def exitLabels : List Label :=
  [⟨0, .fire 0⟩, ⟨100, .fire 0⟩, ⟨200, .fire 0⟩, ⟨300, .fire 0⟩, ⟨400, .fire 0⟩]

/-- `Steady`, evaluated: every `clone` returns a positive number, no thread ends in a `read` or
`recvfrom`, and no `accept` is answered that does not wait. -/
def isSteady (s : St) (l : Label) : Bool :=
  (match dispatched s l with
    | none => true
    | some (p, call) =>
        (call ≠ .clone || (s.c.clonedTid p).all (0 < ·)) &&
          (call.recvFd = none || s.c.env.wait (s.c.waits + 1) ≠ .exited)) &&
    match l.what with
    | .received sock _ => (s.c.recvCallback sock).all fun cb =>
        cb.owner = none || s.c.env.wait s.c.waits ≠ .exited
    | .incoming sock _ => (s.c.acceptCallback sock).all fun cb =>
        match cb with
        | .accept τ _ _ => s.c.inCall τ.thread = some τ.act
        | _ => true
    | _ => true

theorem Steady.of_isSteady {T : Pid → Prop} {s : St} {l : Label} (h : isSteady s l = true) :
    Steady T s l := by
  obtain ⟨hd, hwhat⟩ := Bool.and_eq_true_iff.mp h
  refine ⟨fun p tid hclone htid _ => ?_, fun p call fd sock hcall hrecv _ _ => ?_, ?_, ?_⟩
  · simpa [hclone, htid, Syscall.recvFd] using hd
  · simp only [hcall, hrecv, Bool.and_eq_true, Bool.or_eq_true, decide_eq_true_eq] at hd
    exact hd.2.resolve_left (Option.some_ne_none fd)
  · intro sock rx cb τ hl hcb howner
    simpa [hl, hcb, howner] using hwhat
  · intro sock addr τ fd out hl hcb
    simpa [hl, hcb] using hwhat

theorem run_schedulesThreads_exit :
    ∃ s, run (St.initial { syscallProcessingTime := 200 } exitEnv) exitLabels = some s ∧
      s.c.events = [⟨600, .handleSyscallBefore 1⟩] ∧ s.c.threads 2 = none ∧
      SchedulesThreads s := by
  have hrun : (run (St.initial { syscallProcessingTime := 200 } exitEnv) exitLabels).any
      (fun s => s.c.events = [⟨600, .handleSyscallBefore 1⟩] ∧ s.c.threads 2 = none) = true := by
    decide +kernel
  obtain ⟨s, hs, hview⟩ := (Option.any_eq_true _ _).mp hrun
  obtain ⟨hev, hgone⟩ := of_decide_eq_true hview
  have hsteady : Runs.Meets step (fun s l => isSteady s l = true)
      (St.initial { syscallProcessingTime := 200 } exitEnv) exitLabels := by
    decide +kernel
  refine ⟨s, hs, hev, hgone, run_schedulesThreads hs ?_⟩
  exact Runs.meets_of_invariant (I := fun _ => True) (fun _ _ _ _ h _ => ⟨trivial, .of_isSteady h⟩)
    trivial hs hsteady

/-- A `clone` fails with `EAGAIN`. -/
def failedCloneEnv : Env := .script [.entry .clone, .exit (-11)] []

/-- `HandleSyscallBefore(-11)` is scheduled. -/
theorem clone_failed_scheduled :
    ¬ ∀ app env ls s, run (St.initial app env) ls = some s → SchedulesThreads s := by
  intro hall
  have hrun : (run (St.initial {} failedCloneEnv) [⟨0, .fire 0⟩]).any
      (fun s => ⟨100, .handleSyscallBefore (-11)⟩ ∈ s.c.events ∧ s.c.threads (-11) = none) =
      true := by
    decide +kernel
  obtain ⟨s, hs, hview⟩ := (Option.any_eq_true _ _).mp hrun
  obtain ⟨hev, hnone⟩ := of_decide_eq_true hview
  exact hall _ _ _ s hs 100 (-11) hev hnone

end Grail
