import Grail.Control

/-! # The loop of `WaitForSyscall`

The loop resumes the tracee and waits for its next status until it sees a system call stop or a
normal exit.  Every resumption passes the signal 0, and a death by a signal is not recognized:
`waitpid` then fails and leaves `status` as it is, round after round.  So the loop returns and has
passed on all signals exactly if none was reported before the stop or the exit and the tracee was
not killed (`waitForSyscall_returns`).

Elsewhere in this development the three outcomes of the loop are those of `WaitResult`
(`waitForSyscall_waitResult`). -/

namespace Grail.Ptrace

/-! ### Status words -/

def SIGTRAP : ℕ := 5

def wTermsig (status : ℕ) : ℕ := status &&& 0x7f

def wifExited (status : ℕ) : Bool := wTermsig status = 0

/-- `((signed char) ((status & 0x7f) + 1) >> 1) > 0` -/
def wifSignaled (status : ℕ) : Bool := 0 < wTermsig status ∧ wTermsig status < 0x7f

def wifStopped (status : ℕ) : Bool := status &&& 0xff = 0x7f

def wStopsig (status : ℕ) : ℕ := (status &&& 0xff00) >>> 8

/-- A system call stop with `PTRACE_O_TRACESYSGOOD`. -/
def syscallStop (status : ℕ) : Bool := wifStopped status && wStopsig status = (SIGTRAP ||| 0x80)

/-- The tracee has exited or was killed by a signal. -/
def dead (status : ℕ) : Bool := wifExited status || wifSignaled status

/-- A stop before a signal is delivered: neither a system call stop nor an event of `ptrace`, whose
number is in the upper half of the word. -/
def signalStop (status : ℕ) : Bool :=
  wifStopped status && status >>> 16 = 0 && wStopsig status ≠ (SIGTRAP ||| 0x80) &&
    wStopsig status ≠ 0

/-! ### The loop -/

/-- The statuses that `waitpid` is going to report, the variable `status`, and the signals that
`ptrace(PTRACE_SYSCALL, pid, 0, sig)` has passed. -/
structure Waiting where
  statuses : List ℕ
  status : ℕ
  passed : List ℕ
deriving DecidableEq, Repr

/-- `ptrace(PTRACE_SYSCALL, pid, 0, 0)` and `waitpid(pid, &status, 0)`, which fails when there is no
tracee any more. -/
def Waiting.resume (w : Waiting) : Waiting where
  statuses := w.statuses.tail
  status := w.statuses.head?.getD w.status
  passed := w.passed ++ [0]

/-- `WaitForSyscall`, if it returns within `n` rounds. -/
def waitForSyscall : ℕ → Waiting → Option (ℤ × Waiting)
  | 0, _ => none
  | n + 1, w =>
      let w := w.resume
      if syscallStop w.status then some (0, w)
      else if wifExited w.status then some (1, w)
      else waitForSyscall n w

/-! ### Sequences of statuses -/

/-- The first status that ends the wait. -/
def decisive (status : ℕ) : Bool := syscallStop status || dead status

/-- The statuses of a tracee: nothing is reported after its death, and there is a system call stop
or a death. -/
structure Reported (statuses : List ℕ) : Prop where
  ends : (∃ s ∈ statuses, syscallStop s = true) ∨ ∃ s, statuses.getLast? = some s ∧ dead s = true
  dies : ∀ pre s post, statuses = pre ++ s :: post → dead s = true → post = []

/-- `WaitForSyscall` returns after some of the statuses, with 0 if a system call stop came first;
after a signal-delivery stop it has passed the signal on. -/
def Waits (statuses : List ℕ) (status : ℕ) : Prop :=
  ∃ n v w, waitForSyscall n ⟨statuses, status, []⟩ = some (v, w) ∧
    w.passed.length ≤ statuses.length ∧
    (v = 0 ↔ ∃ s, statuses.find? decisive = some s ∧ syscallStop s = true) ∧
    ∀ i s, i + 1 < w.passed.length → statuses[i]? = some s → signalStop s = true →
      w.passed[i + 1]? = some (wStopsig s)

section loop

variable {statuses pre post : List ℕ} {s status : ℕ} {passed : List ℕ}

theorem wTermsig_of_stopped (h : wifStopped s = true) : wTermsig s = 0x7f := by
  have hlow : s &&& 0xff = 0x7f := of_decide_eq_true h
  have hmask : s &&& 0xff &&& 0x7f = s &&& 0x7f := Nat.and_assoc s 0xff 0x7f
  rw [wTermsig, ← hmask, hlow]
  decide

/-- A stopped tracee is alive. -/
theorem not_dead_of_syscallStop (h : syscallStop s = true) : dead s = false := by
  have hsig := wTermsig_of_stopped (Bool.and_eq_true_iff.mp h).1
  simp [dead, wifExited, wifSignaled, hsig]

/-- The statuses before the first decisive one are skipped, one in each round. -/
theorem waitForSyscall_skip (hpre : ∀ s ∈ pre, decisive s = false) (n : ℕ) :
    ∃ status', waitForSyscall n ⟨pre ++ post, status, passed⟩ =
      waitForSyscall (n - pre.length) ⟨post, status', passed ++ List.replicate pre.length 0⟩ := by
  induction pre generalizing n status passed with
  | nil => exact ⟨status, by simp⟩
  | cons s pre ih =>
      have hs := hpre s List.mem_cons_self
      unfold decisive dead at hs
      simp only [Bool.or_eq_false_iff] at hs
      obtain ⟨hstop, hexit, -⟩ := hs
      cases n with
      | zero => exact ⟨status, by rw [Nat.zero_sub]; rfl⟩
      | succ n =>
          obtain ⟨status', ih⟩ : ∃ status', waitForSyscall n ⟨pre ++ post, s, passed ++ [0]⟩ =
              waitForSyscall (n - pre.length)
                ⟨post, status', passed ++ [0] ++ List.replicate pre.length 0⟩ :=
            ih (fun x hx => hpre x (List.mem_cons_of_mem _ hx)) n
          refine ⟨status', ?_⟩
          rw [List.length_cons, Nat.add_sub_add_right, List.replicate_succ, List.append_cons, ← ih]
          simp [waitForSyscall, Waiting.resume, hstop, hexit]

/-- After a death by a signal the loop goes on forever. -/
theorem waitForSyscall_killed (hstop : syscallStop status = false)
    (hexit : wifExited status = false) (n : ℕ) :
    waitForSyscall n ⟨[], status, passed⟩ = none := by
  induction n generalizing passed with
  | zero => rfl
  | succ n ih =>
      simp only [waitForSyscall, Waiting.resume, List.head?_nil, List.tail_nil, Option.getD_none,
        hstop, hexit, Bool.false_eq_true, if_false]
      exact ih

/-- The decisive status. -/
theorem Reported.decisive (h : Reported statuses) : ∃ pre s post, statuses = pre ++ s :: post ∧
    (∀ x ∈ pre, Ptrace.decisive x = false) ∧ Ptrace.decisive s = true := by
  have hsome : (statuses.find? Ptrace.decisive).isSome = true := by
    rw [List.find?_isSome]
    rcases h.ends with ⟨s, hs, hstop⟩ | ⟨s, hs, hdead⟩
    · exact ⟨s, hs, by rw [Ptrace.decisive, hstop, Bool.true_or]⟩
    · exact ⟨s, List.mem_of_getLast? hs, by rw [Ptrace.decisive, hdead, Bool.or_true]⟩
  obtain ⟨s, hs⟩ := Option.isSome_iff_exists.mp hsome
  obtain ⟨hdec, pre, post, rfl, hpre⟩ := List.find?_eq_some_iff_append.mp hs
  exact ⟨pre, s, post, rfl, fun x hx => by simpa using hpre x hx, hdec⟩

theorem takeWhile_decisive (hpre : ∀ x ∈ pre, decisive x = false) (hs : decisive s = true) :
    (pre ++ s :: post).takeWhile (fun x => !decisive x) = pre := by
  rw [List.takeWhile_append_of_pos fun x hx => by rw [hpre x hx]; rfl,
    List.takeWhile_cons_of_neg (by rw [hs]; decide), List.append_nil]

theorem find?_decisive (hpre : ∀ x ∈ pre, decisive x = false) (hs : decisive s = true) :
    (pre ++ s :: post).find? decisive = some s := by
  rw [List.find?_append, List.find?_eq_none.mpr fun x hx => by rw [hpre x hx]; decide,
    Option.none_or, List.find?_cons_of_pos hs]

/-- The loop returns at a system call stop or an exit. -/
theorem waitForSyscall_decisive (hpre : ∀ x ∈ pre, decisive x = false)
    (hs : syscallStop s = true ∨ wifExited s = true) :
    waitForSyscall (pre.length + 1) ⟨pre ++ s :: post, status, passed⟩ =
      some (if syscallStop s then 0 else 1,
        ⟨post, s, passed ++ List.replicate (pre.length + 1) 0⟩) := by
  obtain ⟨status', hskip⟩ :=
    @waitForSyscall_skip pre (s :: post) status passed hpre (pre.length + 1)
  rw [hskip, Nat.add_sub_cancel_left, List.replicate_succ', ← List.append_assoc]
  by_cases hstop : syscallStop s = true
  · simp [waitForSyscall, Waiting.resume, hstop]
  · have hexit := hs.resolve_left hstop
    simp [waitForSyscall, Waiting.resume, hstop, hexit]

/-- It does not return after a death by a signal. -/
theorem waitForSyscall_signaled (hpre : ∀ x ∈ pre, decisive x = false)
    (hstop : syscallStop s = false) (hexit : wifExited s = false) (n : ℕ) :
    waitForSyscall n ⟨pre ++ [s], status, passed⟩ = none := by
  obtain ⟨status', hskip⟩ := @waitForSyscall_skip pre [s] status passed hpre n
  rw [hskip]
  cases n - pre.length with
  | zero => rfl
  | succ n =>
      simp only [waitForSyscall, Waiting.resume, List.head?_cons, List.tail_cons, Option.getD_some,
        hstop, hexit, Bool.false_eq_true, if_false]
      exact waitForSyscall_killed hstop hexit n

/-- More rounds change nothing. -/
theorem waitForSyscall_mono {n m : ℕ} {w : Waiting} {r : ℤ × Waiting}
    (h : waitForSyscall n w = some r) (hle : n ≤ m) : waitForSyscall m w = some r := by
  induction n generalizing m w with
  | zero => cases h
  | succ n ih =>
      obtain ⟨m, rfl⟩ : ∃ k, m = k + 1 := ⟨m - 1, by omega⟩
      simp only [waitForSyscall] at h ⊢
      split_ifs at h ⊢ with hstop hexit
      · exact h
      · exact h
      · exact ih h (by omega)

theorem waitForSyscall_unique {n m : ℕ} {w : Waiting} {r r' : ℤ × Waiting}
    (h : waitForSyscall n w = some r) (h' : waitForSyscall m w = some r') : r = r' := by
  have hmax := waitForSyscall_mono h (le_max_left n m)
  rw [waitForSyscall_mono h' (le_max_right n m)] at hmax
  exact (Option.some.inj hmax).symm

/-- If the decisive status does not end the loop, it is the last one, a death by a signal. -/
theorem Reported.killed (h : Reported statuses) (hst : statuses = pre ++ s :: post)
    (hs : Ptrace.decisive s = true) (hend : ¬ (syscallStop s = true ∨ wifExited s = true)) :
    syscallStop s = false ∧ wifExited s = false ∧ wifSignaled s = true ∧ post = [] := by
  rw [not_or, Bool.not_eq_true, Bool.not_eq_true] at hend
  obtain ⟨hstop, hexit⟩ := hend
  have hdead : dead s = true := by
    rwa [Ptrace.decisive, hstop, Bool.false_or] at hs
  refine ⟨hstop, hexit, ?_, h.dies pre s post hst hdead⟩
  rwa [dead, hexit, Bool.false_or] at hdead

/-- How the wait ends, as the emulator sees it. -/
def waitResult (next : Syscall) (retval : ℤ) (statuses : List ℕ) : WaitResult :=
  match statuses.find? decisive with
  | none => .never
  | some s =>
      if syscallStop s then .stopped next retval
      else if wifExited s then .exited
      else .never

theorem waitForSyscall_waitResult (h : Reported statuses) (status : ℕ) (next : Syscall)
    (retval v : ℤ) : (∃ n w, waitForSyscall n ⟨statuses, status, []⟩ = some (v, w)) ↔
      v = 0 ∧ waitResult next retval statuses = .stopped next retval ∨
      v = 1 ∧ waitResult next retval statuses = .exited := by
  obtain ⟨pre, s, post, hst, hpre, hs⟩ := h.decisive
  have hfind := @find?_decisive pre post s hpre hs
  rw [← hst] at hfind
  rw [waitResult, hfind]
  by_cases hend : syscallStop s = true ∨ wifExited s = true
  · have hrun := @waitForSyscall_decisive pre post s status [] hpre hend
    rw [← hst] at hrun
    have hvalue : (∃ n w, waitForSyscall n ⟨statuses, status, []⟩ = some (v, w)) ↔
        v = if syscallStop s then 0 else 1 := by
      constructor
      · rintro ⟨n, w, hn⟩
        exact (Prod.mk.inj (waitForSyscall_unique hn hrun)).1
      · rintro rfl
        exact ⟨_, _, hrun⟩
    rw [hvalue]
    by_cases hstop : syscallStop s = true
    · simp [hstop]
    · simp [hstop, hend.resolve_left hstop]
  · obtain ⟨hstop, hexit, -, rfl⟩ := h.killed hst hs hend
    have hnever : ∀ n, waitForSyscall n ⟨statuses, status, []⟩ = none := fun n => by
      rw [hst]
      exact waitForSyscall_signaled hpre hstop hexit n
    simp [hnever, hstop, hexit]

end loop

/-- For the statuses of a tracee `WaitForSyscall` does its work exactly if no signal-delivery stop
comes before the first system call stop or death, and this is no death by a signal. -/
theorem waitForSyscall_returns {statuses : List ℕ} (h : Reported statuses) (status : ℕ) :
    Waits statuses status ↔
      (∀ s ∈ statuses.takeWhile (fun s => !decisive s), signalStop s = false) ∧
      ∀ s, statuses.find? decisive = some s → wifSignaled s = false := by
  obtain ⟨pre, s, post, hst, hpre, hs⟩ := h.decisive
  have htake := @takeWhile_decisive pre post s hpre hs
  have hfind := @find?_decisive pre post s hpre hs
  rw [← hst] at htake hfind
  rw [htake, Waits, hfind]
  by_cases hend : syscallStop s = true ∨ wifExited s = true
  · have hrun := @waitForSyscall_decisive pre post s status [] hpre hend
    rw [← hst] at hrun
    have hsig : wifSignaled s = false := by
      rcases hend with hstop | hexit
      · have hdead := not_dead_of_syscallStop hstop
        exact (Bool.or_eq_false_iff.mp hdead).2
      · have hzero : wTermsig s = 0 := of_decide_eq_true hexit
        simp [wifSignaled, hzero]
    rw [and_iff_left fun x hx => Option.some.inj hx ▸ hsig]
    constructor
    · -- a signal that was reported has not been passed on
      rintro ⟨n, v, w, hn, -, -, hpassed⟩ x hx
      obtain ⟨-, rfl⟩ := Prod.mk.inj (waitForSyscall_unique hn hrun)
      obtain ⟨i, hi, rfl⟩ := List.getElem_of_mem hx
      by_contra hsignal
      have hsignal : signalStop pre[i] = true := eq_true_of_ne_false hsignal
      have hget : statuses[i]? = some pre[i] := by
        rw [hst, List.getElem?_append_left hi, List.getElem?_eq_getElem hi]
      have hi' : i + 1 < (([] : List ℕ) ++ List.replicate (pre.length + 1) 0).length := by
        simpa using hi
      have hzero := hpassed i _ hi' hget hsignal
      rw [List.nil_append, List.getElem?_replicate, if_pos (by omega)] at hzero
      simp [signalStop, ← Option.some.inj hzero] at hsignal
    · intro hno
      refine ⟨_, _, _, hrun, ?_, ?_, fun i x hi hx hsignal => ?_⟩
      · simp [hst]
      · by_cases hstop : syscallStop s = true
        · simp [hstop]
        · simp [hstop]
      · have hi : i < pre.length := by simpa using hi
        rw [hst, List.getElem?_append_left hi, List.getElem?_eq_getElem hi] at hx
        rw [← Option.some.inj hx, hno _ (List.getElem_mem hi)] at hsignal
        cases hsignal
  · obtain ⟨hstop, hexit, hkilled, rfl⟩ := h.killed hst hs hend
    refine iff_of_false ?_ ?_
    · rintro ⟨n, v, w, hn, -⟩
      rw [hst, waitForSyscall_signaled hpre hstop hexit] at hn
      cases hn
    · rintro ⟨-, hsig⟩
      rw [hsig s rfl] at hkilled
      cases hkilled

/-! ### Runs of the loop -/

theorem Reported.of_syscallStop {statuses : List ℕ} (hstop : ∃ s ∈ statuses, syscallStop s = true)
    (hdead : ∀ s ∈ statuses, dead s = false) : Reported statuses where
  ends := .inl hstop
  dies pre s post h hs := by
    have hmem : s ∈ statuses := by
      rw [h]
      exact List.mem_append_right _ List.mem_cons_self
    rw [hdead s hmem] at hs
    cases hs

theorem Reported.of_dead {s : ℕ} (hs : dead s = true) : Reported [s] where
  ends := .inr ⟨s, rfl, hs⟩
  dies pre x post h hx := by
    have hlength := congrArg List.length h
    simp only [List.length_append, List.length_cons, List.length_nil] at hlength
    exact List.eq_nil_of_length_eq_zero (by omega)

/-- An event of `ptrace` comes before the system call stop. -/
theorem waitForSyscall_returns_event : Waits [0x1057f, 0x857f] 0 :=
  (waitForSyscall_returns (.of_syscallStop (by decide) (by decide)) 0).mpr
    ⟨by decide, fun s hs => by cases hs; decide⟩

/-- `SIGALRM` is not passed on, and the loop does not end after a `SIGSEGV` that kills. -/
theorem waitForSyscall_signals :
    (Reported [0x0e7f, 0x857f] ∧ ¬ Waits [0x0e7f, 0x857f] 0) ∧
    Reported [0x000b] ∧ ¬ Waits [0x000b] 0 := by
  have halarm : Reported [0x0e7f, 0x857f] := .of_syscallStop (by decide) (by decide)
  have hsegv : Reported [0x000b] := .of_dead (by decide)
  refine ⟨⟨halarm, fun h => ?_⟩, hsegv, fun h => ?_⟩
  · obtain ⟨hsignals, -⟩ := (waitForSyscall_returns halarm 0).mp h
    exact absurd (hsignals 0x0e7f (by decide)) (by decide)
  · obtain ⟨-, hkilled⟩ := (waitForSyscall_returns hsegv 0).mp h
    exact absurd (hkilled 0x000b rfl) (by decide)

end Grail.Ptrace
