import Grail.Completions
import Grail.ThreadEvents

/-! # Every call is dispatched and resumed once

`OneContinuation`: a thread is scheduled at most once and not while it is blocked, what is awaited
is the call in which it is blocked, and every effect that completes a call is applied to the thread
that made the call while it is blocked in that call, at the stops of that call, once.

`DispatchedOnce`: every system call is dispatched once, at its entry stop, and advanced to its exit
stop once before its thread is rescheduled; the kernel executes the calls that a handler passes on,
and `exit`.

The callback of a blocking `accept` stays installed after it has answered, `FAKE2` answers the call
of the current thread, a `read` reschedules its thread though it has ended, and the clock calls
leave their thread at the entry stop.  Runs whose steps are `Orderly` avoid these. -/

namespace Grail

open Programs

/-- The numbers of threads: those that the kernel gives are positive. -/
def App.isThread (app : App) (p : Pid) : Prop := 0 < p ∨ p = app.appPid

/-- The effects of handling the system call `n`, the last one first. -/
def Ctl.effectsOn (c : Ctl) (n : ℕ) : List Effect :=
  c.log.filter fun e => (c.acts e.task.act).any fun a => a.serial = n

/-- Each thread has one continuation, each call one answer. -/
structure OneContinuation (s : St) : Prop where
  once : ∀ p, s.c.app.isThread p → pend s.c (.handleSyscallBefore p) ≤ 1
  blocked : ∀ p k, s.c.inCall p = some k → pend s.c (.handleSyscallBefore p) = 0
  awaited : ∀ w τ, Awaited s.c w τ → s.c.inCall τ.thread = some τ.act
  effects : ∀ e ∈ s.c.log, e.inCall = some e.task.act ∧ e.target = e.task.thread ∧
    ∃ a phase, s.c.acts e.task.act = some a ∧ e.target = a.pid ∧ e.stop = some (phase, a.serial)
  values : ∀ e ∈ s.c.log, ∀ v, e.kind = .rax v →
    ∃ a, s.c.acts e.task.act = some a ∧ e.stop = some (.exit, a.serial)
  resumedOnce : ∀ n, ((s.c.effectsOn n).filter fun e => e.kind = .resched).length ≤ 1
  answeredOnce : ∀ n, (returnValues (s.c.effectsOn n)).length ≤ 1

/-- Each system call is dispatched once, and advanced once. -/
structure DispatchedOnce (s : St) : Prop where
  entry : ∀ k a, s.c.acts k = some a → a.phase = .entry
  once : ∀ n, 0 < n → n < s.c.nextSerial → ∃! k, ∃ a, s.c.acts k = some a ∧ a.serial = n
  advanced : ∀ e ∈ s.c.log, e.kind = .resched → ∃ a, s.c.acts e.task.act = some a ∧
    (a.call = .exit ∨ e.stop = some (.exit, a.serial) ∧ ∃ w, w.target = a.pid ∧
      w.stop = some (.entry, a.serial) ∧
      (s.c.effectsOf e.task.act).filter (fun e => e.kind = .wait) = [w])
  charged : ∀ n, ((s.c.effectsOn n).filter fun e => e.kind = .resched).length ≤ 1
  executed : ∀ x ∈ s.c.executed, x.handled = true ∨ x.call = .exit

namespace Completion

variable {τ : Task} {call : Syscall} {serial : ℕ} {es : List Effect}

theorem effect (h : Completion τ call serial es) {e : Effect} (he : e ∈ es) :
    ∃ phase kind, e = τ.effect serial phase kind := by
  cases h with
  | faked hbefore =>
      simp only [List.mem_cons] at he
      rcases he with rfl | rfl | rfl | rfl | he
      · exact ⟨_, _, rfl⟩
      · exact ⟨_, _, rfl⟩
      · exact ⟨_, _, rfl⟩
      · exact ⟨_, _, rfl⟩
      · exact ⟨_, _, hbefore e he⟩
  | passed =>
      simp only [List.mem_cons, List.not_mem_nil, or_false] at he
      rcases he with rfl | rfl
      · exact ⟨_, _, rfl⟩
      · exact ⟨_, _, rfl⟩
  | exit =>
      rw [List.mem_singleton] at he
      exact ⟨_, _, he⟩

/-- Of the effects before a `FAKE`, none is of another kind. -/
theorem before_filter {before : List Effect} {f : Effect → Bool}
    (h : ∀ e ∈ before, e = τ.effect serial .entry .origRax)
    (hf : f (τ.effect serial .entry .origRax) = false) : before.filter f = [] :=
  List.filter_eq_nil_iff.mpr fun e he => by
    rw [h e he, hf]
    exact Bool.false_ne_true

theorem resched (h : Completion τ call serial es) :
    ∃ phase, es.filter (fun e => e.kind = .resched) = [τ.effect serial phase .resched] ∧
      (phase = .exit ∨ call = .exit) := by
  cases h with
  | faked hbefore =>
      refine ⟨.exit, ?_, .inl rfl⟩
      simp [Task.effect, before_filter hbefore]
  | passed => exact ⟨.exit, by simp [Task.effect], .inl rfl⟩
  | exit hcall => exact ⟨.entry, by simp [Task.effect], .inr hcall⟩

theorem value (h : Completion τ call serial es) {e : Effect} {v : ℤ} (he : e ∈ es)
    (hv : e.kind = .rax v) : e.stop = some (.exit, serial) := by
  cases h with
  | faked hbefore =>
      simp only [List.mem_cons] at he
      rcases he with rfl | rfl | rfl | rfl | he
      · cases hv
      · rfl
      · cases hv
      · cases hv
      · rw [hbefore e he] at hv
        cases hv
  | passed =>
      simp only [List.mem_cons, List.not_mem_nil, or_false] at he
      rcases he with rfl | rfl <;> cases hv
  | exit =>
      rw [List.mem_singleton.mp he] at hv
      cases hv

theorem values (h : Completion τ call serial es) : (returnValues es).length ≤ 1 := by
  cases h with
  | @faked v before hbefore =>
      have hnone : returnValues before = [] := by
        refine List.filterMap_eq_nil_iff.mpr fun e he => ?_
        rw [hbefore e he]
        rfl
      have hvalue : returnValues (τ.effect serial .exit .resched ::
          τ.effect serial .exit (.rax v) :: τ.effect serial .entry .wait ::
          τ.effect serial .entry .origRax :: before) = v :: returnValues before := rfl
      rw [hvalue, hnone]
      exact le_rfl
  | passed => exact Nat.zero_le _
  | exit => exact Nat.zero_le _

/-- The thread gets from the entry to the exit stop once. -/
theorem wait (h : Completion τ call serial es) :
    call = .exit ∨ es.filter (fun e => e.kind = .wait) = [τ.effect serial .entry .wait] := by
  cases h with
  | faked hbefore =>
      refine .inr ?_
      simp [Task.effect, before_filter hbefore]
  | passed => exact .inr (by simp [Task.effect])
  | exit hcall => exact .inl hcall

end Completion

section accounted

variable {T : Pid → Prop} {c : Ctl}

/-- An effect belongs to the completion of its dispatch. -/
theorem Accounted.completion (h : Accounted T c) {e : Effect} (he : e ∈ c.log) :
    ∃ a, c.acts e.task.act = some a ∧ e ∈ c.effectsOf e.task.act ∧
      Completion ⟨a.pid, e.task.act⟩ a.call a.serial (c.effectsOf e.task.act) := by
  obtain ⟨a, ha⟩ := h.log he
  have hmem : e ∈ c.effectsOf e.task.act := List.mem_filter.mpr ⟨he, decide_eq_true rfl⟩
  have hhist := h.history ha
  split_ifs at hhist
  · rw [hhist] at hmem
    cases hmem
  · exact ⟨a, ha, hmem, hhist⟩

/-- A system call has one dispatch, or none. -/
theorem Accounted.effectsOn (h : Accounted T c) (n : ℕ) :
    c.effectsOn n = [] ∨
      ∃ k a, c.acts k = some a ∧ Completion ⟨a.pid, k⟩ a.call n (c.effectsOn n) := by
  by_cases hn : ∃ k a, c.acts k = some a ∧ a.serial = n
  · obtain ⟨k, a, ha, rfl⟩ := hn
    obtain ⟨-, -, h0, hlt⟩ := h.act ha
    have hsame : c.effectsOn a.serial = c.effectsOf k := by
      refine List.filter_congr fun e he => ?_
      obtain ⟨b, hb⟩ := h.log he
      rw [hb, Option.any_some, decide_eq_decide]
      constructor
      · intro hserial
        exact (h.serials h0 hlt).unique ⟨b, hb, hserial⟩ ⟨a, ha, rfl⟩
      · rintro rfl
        cases ha.symm.trans hb
        rfl
    have hhist := h.history ha
    rw [← hsame] at hhist
    split_ifs at hhist
    · exact .inl hhist
    · exact .inr ⟨k, a, ha, hhist⟩
  · refine .inl (List.filter_eq_nil_iff.mpr fun e _ hany => hn ?_)
    obtain ⟨a, ha, hserial⟩ := (Option.any_eq_true _ _).mp hany
    exact ⟨_, a, ha, of_decide_eq_true hserial⟩

theorem Accounted.resumedOnce (h : Accounted T c) (n : ℕ) :
    ((c.effectsOn n).filter fun e => e.kind = .resched).length ≤ 1 := by
  rcases h.effectsOn n with hnil | ⟨k, a, -, hc⟩
  · rw [hnil]
    exact Nat.zero_le _
  · obtain ⟨phase, hone, -⟩ := hc.resched
    rw [hone]
    exact le_rfl

theorem Accounted.oneContinuation {s : St} (h : Accounted s.c.app.isThread s.c)
    (hc : Continued s.c.app.isThread s.c) (hk : Known s.c) : OneContinuation s where
  once p hp := hc.once hp
  blocked p k hin := by
    obtain ⟨th, a, hth, -⟩ := h.blocked hin
    exact (hc.blocked (h.only (by simp [hth])) hin).1
  awaited w τ hw := hc.awaited (h.of_armed hk hw.armed) hw
  effects e he := by
    obtain ⟨a, ha, hmem, hcomp⟩ := h.completion he
    obtain ⟨phase, kind, heff⟩ := hcomp.effect hmem
    rw [heff] at ha ⊢
    exact ⟨rfl, rfl, a, phase, ha, rfl, rfl⟩
  values e he v hv := by
    obtain ⟨a, ha, hmem, hcomp⟩ := h.completion he
    exact ⟨a, ha, hcomp.value hmem hv⟩
  resumedOnce := h.resumedOnce
  answeredOnce n := by
    rcases h.effectsOn n with hnil | ⟨k, a, -, hcomp⟩
    · rw [hnil]
      exact Nat.zero_le _
    · exact hcomp.values

theorem Accounted.dispatchedOnce {s : St} (h : Accounted T s.c) : DispatchedOnce s where
  entry k a ha := (h.act ha).2.1
  once n h0 hn := h.serials h0 hn
  advanced e he hkind := by
    obtain ⟨a, ha, hmem, hcomp⟩ := h.completion he
    refine ⟨a, ha, ?_⟩
    obtain ⟨phase, hone, hphase⟩ := hcomp.resched
    have hself : e ∈ [(⟨a.pid, e.task.act⟩ : Task).effect a.serial phase .resched] := by
      rw [← hone]
      exact List.mem_filter.mpr ⟨hmem, decide_eq_true hkind⟩
    rcases hcomp.wait with hcall | hwait
    · exact .inl hcall
    · rcases hphase with rfl | hcall
      · refine .inr ⟨?_, _, rfl, rfl, hwait⟩
        rw [List.mem_singleton.mp hself]
        rfl
      · exact .inl hcall
  charged := h.resumedOnce
  executed x hx := h.executed hx

end accounted

/-! ### Runs -/

theorem accounted_run {app : App} {env : Env} {ls : List Label} {s : St}
    (hrun : run (St.initial app env) ls = some s)
    (ho : Runs.Meets step (Orderly app.isThread) (St.initial app env) ls) :
    s.c.app = app ∧ Continued app.isThread s.c ∧ Accounted app.isThread s.c := by
  have happ : s.c.app = app :=
    Runs.run_invariant (I := fun s => s.c.app = app) (fun _ _ _ h hs => (step_app hs).trans h) rfl
      hrun
  exact ⟨happ, accounted_of_run (fun _ => Or.inl) (.inr rfl) hrun ho⟩

/-- The conditions, evaluated. -/
def isOrderly (s : St) (l : Label) : Bool :=
  isSteady s l && selectsOwn s l && acceptsOwn s l && netlinksOwn s l && advances s l

theorem Orderly.of_isOrderly {T : Pid → Prop} {s : St} {l : Label} (h : isOrderly s l = true) :
    Orderly T s l := by
  simp only [isOrderly, Bool.and_eq_true] at h
  obtain ⟨⟨⟨⟨hsteady, hselect⟩, haccept⟩, hnetlink⟩, hadvances⟩ := h
  exact ⟨.of_isSteady hsteady, ⟨hselect, haccept, hnetlink⟩, hadvances⟩

theorem orderly_of_isOrderly {T : Pid → Prop} {s s' : St} {ls : List Label}
    (hrun : run s ls = some s') (h : Runs.Meets step (fun s l => isOrderly s l = true) s ls) :
    Runs.Meets step (Orderly T) s ls :=
  Runs.meets_of_invariant (I := fun _ => True) (fun _ _ _ _ h _ => ⟨trivial, .of_isOrderly h⟩)
    trivial hrun h

/-- After a run whose steps are orderly, every thread has one continuation, and every effect that
completed a call did so while its thread was blocked in that call, once. -/
theorem run_continuesOnce {app : App} {env : Env} {ls : List Label} {s : St}
    (hrun : run (St.initial app env) ls = some s)
    (ho : Runs.Meets step (Orderly app.isThread) (St.initial app env) ls) : OneContinuation s := by
  obtain ⟨rfl, hcont, hset⟩ := accounted_run hrun ho
  exact hset.oneContinuation hcont (known_of_run hrun)

/-- An `accept` that blocks, and the next call of its thread. -/
def acceptEnv : Env :=
  .script [.entry (.socket AF_INET SOCK_STREAM 0), .exit 0, .entry (.listen 100 2), .exit 0,
    .entry (.accept 100 ⟨0, 0, 0⟩), .exit 0, .entry .getpid] []

/-- A connection comes in for the `accept`. -/
def acceptLabels : List Label :=
  [⟨0, .fire 0⟩, ⟨0, .fire 0⟩, ⟨0, .fire 0⟩, ⟨0, .incoming 0 none⟩]

theorem run_continuesOnce_accept :
    ∃ s, run (St.initial {} acceptEnv) acceptLabels = some s ∧
      returnValues (s.c.effectsOn 3) = [101] ∧ OneContinuation s := by
  have hrun : (run (St.initial {} acceptEnv) acceptLabels).any
      (fun s => returnValues (s.c.effectsOn 3) = [101]) = true := by decide +kernel
  obtain ⟨s, hs, hview⟩ := (Option.any_eq_true _ _).mp hrun
  exact ⟨s, hs, of_decide_eq_true hview,
    run_continuesOnce hs (orderly_of_isOrderly hs (by decide +kernel))⟩

/-- A second connection comes in before the thread is resumed: it is scheduled twice. -/
theorem accept_resumes_twice :
    ¬ ∀ app env ls s, run (St.initial app env) ls = some s → OneContinuation s := by
  intro hall
  have hrun : (run (St.initial {} acceptEnv) (acceptLabels ++ [⟨0, .incoming 0 none⟩])).any
      (fun s => s.c.app.appPid = 1 ∧ pend s.c (.handleSyscallBefore 1) = 2) = true := by
    decide +kernel
  obtain ⟨s, hs, hview⟩ := (Option.any_eq_true _ _).mp hrun
  obtain ⟨hpid, htwo⟩ := of_decide_eq_true hview
  have hone := (hall _ _ _ s hs).once 1 (.inl one_pos)
  rw [htwo] at hone
  exact absurd hone (by decide)

/-- After such a run, every system call has been dispatched once, at its entry stop. -/
theorem run_dispatchesOnce {app : App} {env : Env} {ls : List Label} {s : St}
    (hrun : run (St.initial app env) ls = some s)
    (ho : Runs.Meets step (Orderly app.isThread) (St.initial app env) ls) : DispatchedOnce s :=
  (accounted_run hrun ho).2.2.dispatchedOnce

/-- A call that is answered, one that the kernel executes, and `exit`. -/
def exitingEnv : Env :=
  .script [.entry .getpid, .exit 0, .entry (.plain .brk), .exit 7, .entry .exit] []

theorem run_dispatchesOnce_exit :
    ∃ s, run (St.initial {} exitingEnv) [⟨0, .fire 0⟩, ⟨0, .fire 0⟩, ⟨0, .fire 0⟩, ⟨0, .fire 0⟩] =
        some s ∧
      s.c.executed = [⟨.exit, false, none⟩, ⟨.plain .brk, true, some 7⟩] ∧ s.c.nextSerial = 4 ∧
      DispatchedOnce s := by
  have hrun : (run (St.initial {} exitingEnv)
      [⟨0, .fire 0⟩, ⟨0, .fire 0⟩, ⟨0, .fire 0⟩, ⟨0, .fire 0⟩]).any
      (fun s => s.c.executed = [⟨.exit, false, none⟩, ⟨.plain .brk, true, some 7⟩] ∧
        s.c.nextSerial = 4) = true := by
    decide +kernel
  obtain ⟨s, hs, hview⟩ := (Option.any_eq_true _ _).mp hrun
  obtain ⟨hexecuted, hserial⟩ := of_decide_eq_true hview
  exact ⟨s, hs, hexecuted, hserial,
    run_dispatchesOnce hs (orderly_of_isOrderly hs (by decide +kernel))⟩

/-- A `clock_gettime`, which is left at its entry stop. -/
def clockEnv : Env := .script [.entry (.clockGettime 0 0), .exit 0] []

/-- It is dispatched again at its exit stop, after the kernel has executed it. -/
theorem clock_dispatched_twice :
    ¬ ∀ app env ls s, run (St.initial app env) ls = some s → DispatchedOnce s := by
  intro hall
  have hrun : (run (St.initial {} clockEnv) [⟨0, .fire 0⟩, ⟨0, .fire 0⟩]).any
      (fun s => (s.c.acts 1).any fun a => a.phase = .exit) = true := by
    decide +kernel
  obtain ⟨s, hs, hview⟩ := (Option.any_eq_true _ _).mp hrun
  obtain ⟨a, ha, hphase⟩ := (Option.any_eq_true _ _).mp hview
  have hentry := (hall _ _ _ s hs).entry 1 a ha
  rw [of_decide_eq_true hphase] at hentry
  cases hentry

end Grail
