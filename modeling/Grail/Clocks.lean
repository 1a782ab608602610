import Grail.SleepTimers
import Grail.ThreadEvents

/-! # The clock of the tracees

`time`, `gettimeofday` and `clock_gettime` convert `Simulator::Now()` to seconds, microseconds and
nanoseconds.  `TellsTime` says what a dispatched clock call gives, `Shows` what the tracee reads at
its exit stop.

Rounded down to the coarser unit, a later reading exceeds an earlier one by the durations of the
`nanosleep`s between them (`ClocksKept`), unless a thread is resumed before its `nanosleep` ends:
the callback of a blocking `accept` stays installed and resumes its thread with every connection.
Runs whose steps are `Punctual` avoid this (`run_clocksKept`). -/

namespace Grail

open Programs

/-! ### Units -/

/-- A time in nanoseconds, as `gettimeofday` gives it. -/
def Timeval.ofNs (t : ℕ) : Timeval := ⟨(t / 1000000000 : ℕ), (t / 1000 % 1000000 : ℕ)⟩

/-- A time in nanoseconds, as `clock_gettime` gives it. -/
def Timespec.ofNs (t : ℕ) : Timespec := ⟨(t / 1000000000 : ℕ), (t % 1000000000 : ℕ)⟩

theorem sub_div_mul (t a b : ℕ) :
    ((t / a : ℕ) : ℤ) - ((t / (a * b) : ℕ) : ℤ) * b = (t / a % b : ℕ) := by
  have hdiv : t / a = t / a % b + t / (a * b) * b := by
    rw [mul_comm (t / (a * b)) b, ← Nat.div_div_eq_div_mul]
    exact (Nat.mod_add_div (t / a) b).symm
  rw [sub_eq_iff_eq_add]
  exact_mod_cast hdiv

/-- Rounding down twice. -/
theorem floor_floor {u m : ℕ} (t : ℕ) (h : u ∣ m) : t / u * u / m = t / m := by
  obtain ⟨k, rfl⟩ := h
  rcases Nat.eq_zero_or_pos u with rfl | hu
  · simp
  · rw [mul_comm u k, Nat.mul_div_mul_right _ _ hu, Nat.div_div_eq_div_mul, mul_comm u k]

/-- Rounded down to multiples of `m`, a time that is later by `d` differs by that much. -/
theorem floor_later {u u' m t t' d : ℕ} (hu : u ∣ m) (hu' : u' ∣ m) (h : t + d ≤ t') :
    t / u * u / m + d / m ≤ t' / u' * u' / m := by
  rw [floor_floor t hu, floor_floor t' hu']
  exact Nat.div_add_div_le_add_div.trans (Nat.div_le_div_right h)

/-! ### Handlers -/

section handlers

variable {s s' : St} {th : Tracee} {p : Pid} {dst : Ptr} {val : Val}

/-- The stores after `StoreToTracee`. -/
def storing (p : Pid) (dst : Ptr) (val : Val) (stores : List (Pid × Ptr × Val)) :
    List (Pid × Ptr × Val) :=
  if dst = 0 then stores else (p, dst, val) :: stores

theorem wp_storing {Q : Unit → St → Prop}
    (h : Q () { s with d := s.d.setStores (storing p dst val s.d.stores) }) :
    wp (storeToTracee p dst val) Q s := by
  unfold storeToTracee
  unfold storing at h
  split_ifs with h0
  · rw [if_pos h0] at h
    exact (wp_pure _ _ _).mpr h
  · rw [if_neg h0] at h
    simp only [memcpyToTracee, wp_bind, wp_get]
    cases s.c.threads p with
    | none => simp
    | some th => simpa [Data.setStores] using h

/-- The value `val` is stored, and the call answered with `v`. -/
def Tells (dst : Ptr) (val : Val) (v : ℤ) (s s' : St) : Prop :=
  ∃ c', Completes s.c.pid v s.c c' ∧
    s' = ⟨c', s.d.setStores (storing s.c.pid dst val s.d.stores)⟩

theorem handle_time (tloc : Ptr) :
    wp (handle (.time tloc)) (fun res s' => res ≠ .error →
      Tells tloc (.int (s.c.now / 1000000000 : ℕ)) (s.c.now / 1000000000 : ℕ) s s') s := by
  unfold handle handleTime
  simp only [wp_bind, wp_get]
  refine wp_storing (wp_fake (fun _ h => absurd rfl h) fun c' hc _ => ⟨c', hc, rfl⟩)

theorem handle_gettimeofday (tv tz : Ptr) :
    wp (handle (.gettimeofday tv tz)) (fun res s' => res ≠ .error →
      Tells tv (.timeval (.ofNs s.c.now)) 0 s s') s := by
  unfold handle handleGetTimeOfDay
  simp only [wp_bind, wp_get, wp_ite, wp_throw, implies_true, true_and]
  intro _
  refine wp_storing (wp_fake (fun _ h => absurd rfl h) fun c' hc _ => ⟨c', hc, ?_⟩)
  have husec := sub_div_mul s.c.now 1000 1000000
  rw [Timeval.ofNs, ← husec]
  rfl

/-- A supported clock is told, and the call is left as it is. -/
theorem handle_clockGettime {clk_id : ℤ} (tp : Ptr) (hclk : isCpuClock clk_id = false) :
    wp (handle (.clockGettime clk_id tp)) (fun _ s' =>
      s' = ⟨s.c, s.d.setStores
        (storing s.c.pid tp (.timespec (.ofNs s.c.now)) s.d.stores)⟩) s := by
  unfold handle handleClockGetTime
  simp only [wp_bind, wp_get, hclk, Bool.false_eq_true, if_false]
  refine wp_storing ((wp_pure _ _ _).mpr ?_)
  have hnsec := sub_div_mul s.c.now 1 1000000000
  rw [Nat.div_one, one_mul] at hnsec
  rw [Timespec.ofNs, ← hnsec]
  rfl

/-- An unsupported clock is refused. -/
theorem handle_cpuClock {clk_id : ℤ} (tp : Ptr) (hclk : isCpuClock clk_id = true) :
    wp (handle (.clockGettime clk_id tp)) (fun res s' => res ≠ .error → s'.d = s.d) s := by
  unfold handle handleClockGetTime
  simp only [wp_bind, wp_get, hclk, if_true]
  exact wp_fake (fun _ h => absurd rfl h) fun _ _ _ => rfl

end handlers

/-! ### Readings -/

/-- The thread is at the exit stop of `call`, which has returned `v`. -/
def Returned (p : Pid) (call : Syscall) (v : ℤ) (c : Ctl) : Prop :=
  ∃ th, c.threads p = some th ∧ th.phase = .exit ∧ th.call = call ∧ th.rax = v

/-- A clock call of `p` that `l` dispatches gives the time. -/
def TellsTime (p : Pid) (s : St) (l : Label) (s' : St) : Prop :=
  ∀ call, dispatched s l = some (p, call) → match call with
    | .time tloc =>
        Returned p call (s'.c.now / 1000000000 : ℕ) s'.c ∧
        s'.d.stores = storing p tloc (.int (s'.c.now / 1000000000 : ℕ)) s.d.stores
    | .gettimeofday tv _ =>
        Returned p call 0 s'.c ∧
        s'.d.stores = storing p tv (.timeval (.ofNs s'.c.now)) s.d.stores
    | .clockGettime clk_id tp =>
        isCpuClock clk_id = false →
        s'.d.stores = storing p tp (.timespec (.ofNs s'.c.now)) s.d.stores
    | _ => True

/-- What `p` reads at the exit stop of the clock call that `l` dispatches: the number of units of so
many nanoseconds. -/
inductive Shows (s : St) (l : Label) (s' : St) (p : Pid) : ℕ → ℤ → Prop
  | time {tloc : Ptr} {th : Tracee} : dispatched s l = some (p, .time tloc) →
      s'.c.threads p = some th → th.phase = .exit → Shows s l s' p 1000000000 th.rax
  | gettimeofday {tv tz : Ptr} {th : Tracee} {t : Timeval} :
      dispatched s l = some (p, .gettimeofday tv tz) → s'.c.threads p = some th →
      th.phase = .exit → th.rax = 0 → s'.d.stores = (p, tv, .timeval t) :: s.d.stores →
      Shows s l s' p 1000 (t.tv_sec * 1000000 + t.tv_usec)
  | clockGettime {clk_id : ℤ} {tp : Ptr} {th : Tracee} {t : Timespec} :
      dispatched s l = some (p, .clockGettime clk_id tp) → s'.c.threads p = some th →
      th.phase = .exit → th.rax = 0 → s'.d.stores = (p, tp, .timespec t) :: s.d.stores →
      Shows s l s' p 1 (t.tv_sec * 1000000000 + t.tv_nsec)

/-- `time` and `gettimeofday` are answered by `FAKE`. -/
def Syscall.isFakedClock : Syscall → Bool
  | .time _ => true
  | .gettimeofday _ _ => true
  | _ => false

/-- The call that `l` dispatches for `p` is caught at its entry stop if it is a `time` or
`gettimeofday`. -/
def entersClock (p : Pid) (s : St) (l : Label) : Bool :=
  match dispatched s l, s.c.threads p with
  | some (q, call), some th => q ≠ p || !call.isFakedClock || th.phase = .exit
  | _, _ => true

section readings

variable {s s₁ s₂ s' : St} {l : Label} {p : Pid} {call : Syscall} {c c' : Ctl} {v : ℤ}
  {th : Tracee} {res : SyscallHandlerStatusCode}

theorem storing_eq_cons {q : Pid} {dst dst' : Ptr} {val val' : Val}
    {stores : List (Pid × Ptr × Val)}
    (h : storing p dst val stores = (q, dst', val') :: stores) : val = val' := by
  unfold storing at h
  split_ifs at h
  · exact absurd h.symm (List.cons_ne_self _ _)
  · cases h
    rfl

theorem Completes.rax_of_exit (h : Completes p v c c') (hth : c'.threads p = some th)
    (hph : th.phase = .exit) : th.rax = v := by
  cases h with
  | atEntry =>
      simp only [Ctl.answer, Function.update_self, Option.some.injEq] at hth
      rw [← hth]
  | atExit =>
      simp only [Ctl.overrun, Function.update_self, Option.some.injEq] at hth
      rw [← hth] at hph
      cases hph

theorem Completes.returned (h : Completes p v c c') (hth : c.threads p = some th)
    (hph : th.phase = .entry) : Returned p th.call v c' := by
  cases h with
  | atEntry hth' =>
      cases hth.symm.trans hth'
      exact ⟨_, Function.update_self .., rfl, rfl, rfl⟩
  | atExit _ hth' hph' =>
      cases hth.symm.trans hth'
      rw [hph] at hph'
      cases hph'

/-- The time and the thread for which the handler is called. -/
theorem Handles.clock (h : Handles s l p call s₁) :
    s₁.c.now = l.time ∧ s₁.c.pid = p ∧ s₁.d = s.d := by
  cases h with
  | mk _ _ hc =>
      have hcalm := Calm.of_caught hc
      exact ⟨hcalm.now, hcalm.pid, rfl⟩

/-- A thread that was at an exit stop is at the entry stop of the call. -/
theorem Handles.entry (h : Handles s l p call s₁)
    (hph : ∀ th, s.c.threads p = some th → th.phase = .exit) :
    ∃ th, s₁.c.threads p = some th ∧ th.phase = .entry ∧ th.call = call := by
  cases h with
  | mk _ _ hc hth =>
      cases hc with
      | entry =>
          simp only [Ctl.toEntry, Ctl.setThread, Function.update_self, Option.some.injEq] at hth
          subst hth
          exact ⟨_, Function.update_self .., rfl, rfl⟩
      | exit hth' hph' =>
          have hexit := hph _ hth'
          rw [hph'] at hexit
          cases hexit

theorem Processed.threads (h : Processed p s res s') : s'.c.threads = s.c.threads := by
  cases h <;> rfl

/-- A `time` or `gettimeofday` that is dispatched stores `val` and is answered with `v`. -/
theorem told {dst : Ptr} {val : Val} (hs : Handles s l p call s₁)
    (ht : Tells dst val v s₁ s₂) (hp : Processed p s₂ res s') :
    (∃ c', Completes p v s₁.c c' ∧ s'.c.threads = c'.threads) ∧
      s'.d.stores = storing p dst val s.d.stores := by
  obtain ⟨-, hpid, hd⟩ := hs.clock
  obtain ⟨c', hc, rfl⟩ := ht
  rw [hpid] at hc
  refine ⟨⟨c', hc, hp.threads⟩, ?_⟩
  rw [hp.d]
  simp only [Data.setStores, hpid, hd]

/-- At its entry stop it returns `v`. -/
theorem returned_of_entry {dst : Ptr} {val : Val} (hs : Handles s l p call s₁)
    (hph : ∀ th, s.c.threads p = some th → th.phase = .exit) (ht : Tells dst val v s₁ s₂)
    (hp : Processed p s₂ res s') : Returned p call v s'.c := by
  obtain ⟨⟨c', hc, hthreads⟩, -⟩ := told hs ht hp
  obtain ⟨th, hth, hentry, rfl⟩ := hs.entry hph
  obtain ⟨th', hth', hrest⟩ := hc.returned hth hentry
  exact ⟨th', by rw [hthreads, hth'], hrest⟩

theorem phase_of_entersClock (h : entersClock p s l = true)
    (hd : dispatched s l = some (p, call)) (hcall : call.isFakedClock = true) (th : Tracee)
    (hth : s.c.threads p = some th) : th.phase = .exit := by
  simpa [entersClock, hd, hth, hcall] using h

theorem step_tellsTime (h : step s l = some s') (he : entersClock p s l = true) :
    TellsTime p s l s' := by
  intro call hd
  obtain ⟨s₁, res, s₂, hs, hrun, hp⟩ := step_handles h hd
  obtain ⟨hnow, hpid, hdata⟩ := hs.clock
  rw [(step_naps h).1, ← hnow]
  cases call with
  | time tloc =>
      have hph := phase_of_entersClock he hd rfl
      have ht := (handle_time tloc).elim hrun hp.ne_error
      exact ⟨returned_of_entry hs hph ht hp, (told hs ht hp).2⟩
  | gettimeofday tv tz =>
      have hph := phase_of_entersClock he hd rfl
      have ht := (handle_gettimeofday tv tz).elim hrun hp.ne_error
      exact ⟨returned_of_entry hs hph ht hp, (told hs ht hp).2⟩
  | clockGettime clk_id tp =>
      intro hclk
      have ht := (handle_clockGettime tp hclk).elim hrun
      rw [hp.d, ht]
      simp only [Data.setStores, hpid, hdata]
  | _ => trivial

/-- A reading is the time of the call, rounded down. -/
theorem Shows.value {u : ℕ} (h : Shows s l s' p u v) (hstep : step s l = some s') :
    (u = 1000000000 ∨ u = 1000 ∨ u = 1) ∧ v = (l.time / u : ℕ) := by
  cases h with
  | @time tloc th hd hth hph =>
      obtain ⟨s₁, res, s₂, hs, hrun, hp⟩ := step_handles hstep hd
      have ht := (handle_time tloc).elim hrun hp.ne_error
      obtain ⟨⟨c', hc, hthreads⟩, -⟩ := told hs ht hp
      rw [hthreads] at hth
      rw [hc.rax_of_exit hth hph, hs.clock.1]
      exact ⟨.inl rfl, rfl⟩
  | @gettimeofday tv tz th t hd _ _ _ hstore =>
      obtain ⟨s₁, res, s₂, hs, hrun, hp⟩ := step_handles hstep hd
      have ht := (handle_gettimeofday tv tz).elim hrun hp.ne_error
      rw [(told hs ht hp).2, hs.clock.1] at hstore
      obtain rfl := Val.timeval.inj (storing_eq_cons hstore)
      have husec := sub_div_mul l.time 1000 1000000
      refine ⟨.inr (.inl rfl), ?_⟩
      rw [Timeval.ofNs, ← husec]
      exact add_sub_cancel _ _
  | @clockGettime clk_id tp th t hd _ _ _ hstore =>
      obtain ⟨s₁, res, s₂, hs, hrun, hp⟩ := step_handles hstep hd
      obtain ⟨hnow, hpid, hdata⟩ := hs.clock
      cases hclk : isCpuClock clk_id with
      | true =>
          rw [hp.d, (handle_cpuClock tp hclk).elim hrun hp.ne_error, hdata] at hstore
          exact absurd hstore.symm (List.cons_ne_self _ _)
      | false =>
          have ht := (handle_clockGettime tp hclk).elim hrun
          rw [hp.d, ht] at hstore
          simp only [Data.setStores, hpid, hdata, hnow] at hstore
          obtain rfl := Val.timespec.inj (storing_eq_cons hstore)
          have hnsec := sub_div_mul l.time 1 1000000000
          rw [Nat.div_one, one_mul] at hnsec
          refine ⟨.inr (.inr rfl), ?_⟩
          rw [Timespec.ofNs, ← hnsec, Nat.div_one]
          exact add_sub_cancel _ _

theorem Shows.dispatched {u : ℕ} (h : Shows s l s' p u v) :
    ∃ call, Grail.dispatched s l = some (p, call) := by
  cases h with
  | time hd => exact ⟨_, hd⟩
  | gettimeofday hd => exact ⟨_, hd⟩
  | clockGettime hd => exact ⟨_, hd⟩

end readings

/-! ### Runs -/

/-- In a run, the clock calls of `p` give the time, all readings are in range, and from one reading
to a later one at least the durations of the `nanosleep`s of `p` in between have passed, if the
later one is one of `p` or `p` is awake then. -/
structure ClocksKept (p : Pid) (s : St) (ls : List Label) : Prop where
  tells : ∀ ls₁ l ls₂ s₁ s₂, ls = ls₁ ++ l :: ls₂ → run s ls₁ = some s₁ → step s₁ l = some s₂ →
    TellsTime p s₁ l s₂
  inRange : ∀ t, (0 ≤ (Timeval.ofNs t).tv_usec ∧ (Timeval.ofNs t).tv_usec < 1000000) ∧
    0 ≤ (Timespec.ofNs t).tv_nsec ∧ (Timespec.ofNs t).tv_nsec < 1000000000
  elapses : ∀ ls₁ l ls₂ l' ls₃ s₁ s₂ s₃ s₄ q q' u u' v v',
    ls = ls₁ ++ l :: (ls₂ ++ l' :: ls₃) → run s ls₁ = some s₁ → step s₁ l = some s₂ →
    run s₂ ls₂ = some s₃ → step s₃ l' = some s₄ →
    Shows s₁ l s₂ q u v → Shows s₃ l' s₄ q' u' v' → q' = p ∨ Awake p s₃.c →
    v * u / (max u u' : ℕ) + (slept p s₂ ls₂ / max u u' : ℕ) ≤ v' * u' / (max u u' : ℕ)

/-- The calls of `p` are answered, and `p` is resumed, as `SteadyFor` says, and its clock calls are
dispatched at their entry stops. -/
structure Punctual (p : Pid) (s : St) (l : Label) : Prop where
  steady : SteadyFor (· = p) s l
  enters : entersClock p s l = true

theorem ofNs_inRange (t : ℕ) :
    (0 ≤ (Timeval.ofNs t).tv_usec ∧ (Timeval.ofNs t).tv_usec < 1000000) ∧
      0 ≤ (Timespec.ofNs t).tv_nsec ∧ (Timespec.ofNs t).tv_nsec < 1000000000 := by
  simp only [Timeval.ofNs, Timespec.ofNs]
  omega

theorem unit_dvd {u u' : ℕ} (hu : u = 1000000000 ∨ u = 1000 ∨ u = 1)
    (hu' : u' = 1000000000 ∨ u' = 1000 ∨ u' = 1) : u ∣ max u u' ∧ u' ∣ max u u' := by
  rcases hu with rfl | rfl | rfl <;> rcases hu' with rfl | rfl | rfl <;> decide

section runs

variable {s s₁ s₂ s₃ s₄ : St} {ls ls₁ ls₂ : List Label} {l l' : Label} {p q q' : Pid} {u u' : ℕ}
  {v v' : ℤ}

/-- Two readings and the sleep between them. -/
theorem Shows.elapses (hI : Lively (· = p) s₂) (hl : step s₁ l = some s₂)
    (hr : run s₂ ls₂ = some s₃) (hk : Runs.Meets step (SteadyFor (· = p)) s₂ ls₂)
    (hl' : step s₃ l' = some s₄) (h : Shows s₁ l s₂ q u v) (h' : Shows s₃ l' s₄ q' u' v')
    (hp : q' = p ∨ Awake p s₃.c) :
    v * u / (max u u' : ℕ) + (slept p s₂ ls₂ / max u u' : ℕ) ≤ v' * u' / (max u u' : ℕ) := by
  have hslept := (SleptUntil.of_step p hl).run hI hk hr
  have hawake : Awake p s₃.c := by
    rcases hp with rfl | hp
    · obtain ⟨call, hd⟩ := h'.dispatched
      exact (hI.run hk hr).continued.awake rfl hd hl'
    · exact hp
  have htime : l.time + slept p s₂ ls₂ ≤ l'.time :=
    (hslept.awake hawake).trans (step_cases hl').1
  obtain ⟨hu, rfl⟩ := h.value hl
  obtain ⟨hu', rfl⟩ := h'.value hl'
  obtain ⟨hdvd, hdvd'⟩ := unit_dvd hu hu'
  exact_mod_cast floor_later hdvd hdvd' htime

/-- The clocks are right in every run whose steps are punctual. -/
theorem run_clocksKept {app : App} {env : Env}
    (hk : Runs.Meets step (Punctual p) (St.initial app env) ls) :
    ClocksKept p (St.initial app env) ls where
  tells ls₁ l ls₂ s₁ s₂ hls hr hl := by
    subst hls
    obtain ⟨-, hk⟩ := (Runs.meets_append hr).mp hk
    exact step_tellsTime hl ((Runs.meets_cons hl).mp hk).1.enters
  inRange := ofNs_inRange
  elapses ls₁ l ls₂ l' ls₃ s₁ s₂ s₃ s₄ q q' u u' v v' hls hr₁ hl hr₂ hl' h h' hp := by
    subst hls
    have hsteady : Runs.Meets step (SteadyFor (· = p)) (St.initial app env)
        (ls₁ ++ l :: (ls₂ ++ l' :: ls₃)) := hk.mono fun _ _ hpunctual => hpunctual.steady
    obtain ⟨hk₁, hrest⟩ := (Runs.meets_append hr₁).mp hsteady
    obtain ⟨hkl, hrest⟩ := (Runs.meets_cons hl).mp hrest
    obtain ⟨hk₂, -⟩ := (Runs.meets_append hr₂).mp hrest
    have hI₁ := (Lively.initial (· = p) app env).run hk₁ hr₁
    exact Shows.elapses (hI₁.step hkl hl) hl hr₂ hk₂ hl' h h' hp

end runs

/-- `Punctual`, evaluated. -/
theorem Punctual.of_isSteady {p : Pid} {s : St} {l : Label}
    (h : (isSteady s l && entersClock p s l) = true) : Punctual p s l := by
  obtain ⟨hsteady, henters⟩ := Bool.and_eq_true_iff.mp h
  exact ⟨(Steady.of_isSteady hsteady).steadyFor, henters⟩

/-- A thread that reads the clock, sleeps for five seconds and reads the clock again. -/
def nappingEnv : Env :=
  .script [.entry (.time 0), .exit 0, .entry (.nanosleep ⟨5, 0⟩), .exit 0,
    .entry (.gettimeofday 16 0), .exit 0] []

def nappingLabels : List Label :=
  [⟨0, .fire 0⟩, ⟨0, .fire 0⟩, ⟨5000000000, .fire 0⟩, ⟨5000000000, .fire 0⟩]

theorem run_clocksKept_nap :
    slept 1 (St.initial {} nappingEnv) nappingLabels = 5000000000 ∧
    (∃ s, run (St.initial {} nappingEnv) nappingLabels = some s ∧
      s.d.stores = [(1, 16, .timeval ⟨5, 0⟩)]) ∧
    ClocksKept 1 (St.initial {} nappingEnv) nappingLabels := by
  have hrun : (run (St.initial {} nappingEnv) nappingLabels).any (fun s =>
      s.d.stores = [(1, 16, .timeval ⟨5, 0⟩)]) = true := by decide +kernel
  obtain ⟨s, hs, hview⟩ := (Option.any_eq_true _ _).mp hrun
  have hcheck : Runs.Meets step (fun s l => (isSteady s l && entersClock 1 s l) = true)
      (St.initial {} nappingEnv) nappingLabels := by decide +kernel
  refine ⟨by decide +kernel, ⟨s, hs, of_decide_eq_true hview⟩, run_clocksKept ?_⟩
  exact hcheck.mono fun _ _ => .of_isSteady

/-- A thread that accepts a connection, reads the clock, sleeps for five seconds and reads the clock
again. -/
def awakenedEnv : Env :=
  .script [.entry (.socket AF_INET SOCK_STREAM 0), .exit 0, .entry (.listen 100 2), .exit 0,
    .entry (.accept 100 ⟨0, 0, 0⟩), .exit 0, .entry (.time 0), .exit 0,
    .entry (.nanosleep ⟨5, 0⟩), .exit 0, .entry (.time 0), .exit 0] []

/-- The first connection is accepted. -/
def awakenedLabels : List Label :=
  [⟨0, .fire 0⟩, ⟨0, .fire 0⟩, ⟨0, .fire 0⟩, ⟨0, .incoming 0 none⟩]

/-- The thread goes to sleep, and after a second the next connection comes in. -/
def awakeningLabels : List Label := [⟨0, .fire 0⟩, ⟨1000000000, .incoming 0 none⟩]

/-- Its second reading is 1 s. -/
theorem accept_awakens :
    ¬ ∀ app env ls p, ClocksKept p (St.initial app env) ls := by
  intro hall
  have hrun : (do
      let s₁ ← run (St.initial {} awakenedEnv) awakenedLabels
      let s₂ ← step s₁ ⟨0, .fire 0⟩
      let s₃ ← run s₂ awakeningLabels
      let s₄ ← step s₃ ⟨1000000000, .fire 1⟩
      if dispatched s₁ ⟨0, .fire 0⟩ = some (1, .time 0) ∧
          s₂.c.threads 1 = some ⟨.exit, .time 0, true, 0, 4, 0⟩ ∧
          slept 1 s₂ awakeningLabels = 5000000000 ∧
          dispatched s₃ ⟨1000000000, .fire 1⟩ = some (1, .time 0) ∧
          s₄.c.threads 1 = some ⟨.exit, .time 0, true, 1, 6, 1000000000⟩ then some ()
      else none) = some () := by
    decide +kernel
  simp only [bind, Option.bind_eq_some_iff, Option.ite_none_right_eq_some, and_true] at hrun
  obtain ⟨s₁, hr₁, s₂, hl, s₃, hr₂, s₄, hl', hd, hth, hslept, hd', hth'⟩ := hrun
  have hle := (hall {} awakenedEnv _ 1).elapses awakenedLabels _ awakeningLabels _ [] s₁ s₂ s₃ s₄
    1 1 _ _ _ _ rfl hr₁ hl hr₂ hl' (.time hd hth rfl) (.time hd' hth' rfl) (.inl rfl)
  rw [hslept] at hle
  exact absurd hle (by decide)

end Grail
