import Grail.Frames

/-! # The detector sees the calls of all threads

`HandleSystemCall(pid, syscall)` ignores the `pid`, so what the detector says of a call depends on
the calls of all threads before it (`detector_eq`).  Only the calls at the end of the sequence
matter, those since the last one that is no `gettimeofday`, `select` or `futex`: the verdict tells
whether there is one, the delay how many there are, up to 14 (`after_eq`, `getDelay_eq_iff`).
-/

namespace Grail

namespace PollLoopDetector

/-- The verdict on the next call. -/
def inLoop (d : PollLoopDetector) (syscall : Syscall) : Bool :=
  d.previousCallQualified && qualifies syscall

/-- The detector after a sequence of calls. -/
def after (calls : List Syscall) : PollLoopDetector := calls.foldl handleSystemCall initial

/-- The number of qualifying calls at the end of a sequence. -/
def trailing (calls : List Syscall) : ℕ := (calls.rtakeWhile qualifies).length

theorem after_concat (calls : List Syscall) (call : Syscall) :
    after (calls ++ [call]) = (after calls).handleSystemCall call := by
  simp [after]

theorem trailing_concat (calls : List Syscall) (call : Syscall) :
    trailing (calls ++ [call]) = if qualifies call then trailing calls + 1 else 0 := by
  unfold trailing
  split_ifs with hq
  · simp [List.rtakeWhile_concat_pos _ _ _ hq]
  · simp [List.rtakeWhile_concat_neg _ _ _ hq]

/-- What the detector remembers of a sequence of calls. -/
theorem after_eq (calls : List Syscall) :
    after calls = ⟨decide (0 < trailing calls), (trailing calls - 1) % 2 ^ 32⟩ := by
  induction calls using List.reverseRecOn with
  | nil => rfl
  | append_singleton calls call ih =>
      rw [after_concat, ih, trailing_concat, handleSystemCall]
      by_cases hq : qualifies call = true
      · by_cases ht : 0 < trailing calls
        · have hsteps : trailing calls - 1 + 1 = trailing calls := Nat.succ_pred_eq_of_pos ht
          simp [hq, ht, hsteps]
        · have ht : trailing calls = 0 := by omega
          simp [hq, ht]
      · simp [hq]

theorem getDelay_min (b : Bool) (n : ℕ) : getDelay ⟨b, n⟩ = getDelay ⟨false, min 14 n⟩ := by
  by_cases hn : n ≤ 14
  · rw [min_eq_right hn]
    rfl
  · have h14 : 14 ≤ n := by omega
    have hpow : 10000 ≤ 2 ^ n := calc
      10000 ≤ 2 ^ 14 := by norm_num
      _ ≤ 2 ^ n := Nat.pow_le_pow_right (by norm_num) h14
    have hne : n ≠ 0 := by omega
    rw [min_eq_left h14]
    simp [getDelay, hne, min_eq_right hpow]

/-- The delay no longer grows after 14 steps. -/
theorem getDelay_eq_iff {d d' : PollLoopDetector} :
    d.getDelay = d'.getDelay ↔ min 14 d.pollSteps = min 14 d'.pollSteps := by
  have htable : ∀ m ≤ 14, ∀ n ≤ 14, getDelay ⟨false, m⟩ = getDelay ⟨false, n⟩ → m = n := by
    decide
  obtain ⟨b, m⟩ := d
  obtain ⟨b', n⟩ := d'
  rw [getDelay_min b, getDelay_min b']
  constructor
  · exact htable _ (min_le_left _ _) _ (min_le_left _ _)
  · intro h
    exact congrArg (fun k => getDelay ⟨false, k⟩) h

/-! ### The delay of a sequence -/

/-- The delay after `k` qualifying calls in a row, in nanoseconds. -/
def backoff (k : ℕ) : ℕ := if k ≤ 1 then 0 else min (2 ^ (k - 1)) 10000 * 100

theorem getDelay_eq (b : Bool) (n : ℕ) :
    getDelay ⟨b, n⟩ = if n = 0 then 0 else min (2 ^ n) 10000 * 100 := by
  unfold getDelay
  have hpos : 1 ≤ min (2 ^ n) 10000 := le_min Nat.one_le_two_pow (by norm_num)
  rw [max_eq_right hpos]

theorem backoff_eq (b : Bool) (k : ℕ) : backoff k = getDelay ⟨b, k - 1⟩ := by
  rw [getDelay_eq, backoff]
  by_cases hk : k ≤ 1
  · rw [if_pos hk, if_pos (by omega)]
  · rw [if_neg hk, if_neg (by omega)]

theorem getDelay_le (d : PollLoopDetector) : d.getDelay ≤ 1000000 := by
  obtain ⟨b, n⟩ := d
  rw [getDelay_eq]
  split_ifs
  · exact Nat.zero_le _
  · have hmin : min (2 ^ n) 10000 ≤ 10000 := min_le_right _ _
    omega

/-- One step more without a wrap-around. -/
theorem getDelay_mono {m n : ℕ} (b b' : Bool) (h : m ≤ n) : getDelay ⟨b, m⟩ ≤ getDelay ⟨b', n⟩ := by
  rw [getDelay_eq, getDelay_eq]
  by_cases hm : m = 0
  · rw [if_pos hm]
    exact Nat.zero_le _
  · rw [if_neg hm, if_neg (by omega)]
    have hpow : 2 ^ m ≤ 2 ^ n := Nat.pow_le_pow_right (by norm_num) h
    exact Nat.mul_le_mul_right 100 (min_le_min_right 10000 hpow)

theorem getDelay_eq_zero {b : Bool} {n : ℕ} : getDelay ⟨b, n⟩ = 0 ↔ n = 0 := by
  rw [getDelay_eq]
  constructor
  · intro h
    by_contra hn
    rw [if_neg hn] at h
    have hpos : 1 ≤ min (2 ^ n) 10000 := le_min Nat.one_le_two_pow (by norm_num)
    generalize min (2 ^ n) 10000 = m at h hpos
    omega
  · exact fun hn => if_pos hn

theorem trailing_replicate {call : Syscall} (hq : qualifies call = true) (n : ℕ) :
    trailing (List.replicate n call) = n := by
  induction n with
  | zero => rfl
  | succ n ih => rw [List.replicate_succ', trailing_concat, if_pos hq, ih]

/-- The delay is that of the qualifying calls at the end as long as `pollSteps` has not wrapped
around, and again after 14 more steps.  It never exceeds 1 ms, is 0 after any other call, and
decreases in a run of qualifying calls only when `pollSteps` wraps around. -/
theorem getDelay_after (calls : List Syscall) :
    ((after calls).getDelay = backoff (trailing calls) ↔
      trailing calls ≤ 2 ^ 32 ∨ 14 ≤ (trailing calls - 1) % 2 ^ 32) ∧
    (after calls).getDelay ≤ 1000000 ∧
    (∀ call, qualifies call = false → (after (calls ++ [call])).getDelay = 0) ∧
    ∀ call, qualifies call = true →
      ((after calls).getDelay ≤ (after (calls ++ [call])).getDelay ↔
        trailing calls = 0 ∨ trailing calls % 2 ^ 32 ≠ 0) := by
  refine ⟨?_, getDelay_le _, fun call hq => ?_, fun call hq => ?_⟩
  · rw [after_eq, backoff_eq false, getDelay_eq_iff]
    generalize trailing calls = k
    simp only
    omega
  · rw [after_eq, trailing_concat, hq, getDelay_eq_zero]
    rfl
  · rw [after_eq, after_eq, trailing_concat, if_pos hq, Nat.add_sub_cancel]
    generalize trailing calls = k
    constructor
    · -- at the wrap-around the delay falls to 0
      intro hle
      by_contra hno
      rw [not_or, not_not] at hno
      rw [hno.2, getDelay_eq_zero.mpr rfl, Nat.le_zero, getDelay_eq_zero] at hle
      omega
    · intro hk
      exact getDelay_mono _ _ (by omega)

/-- After `2^32 + 1` calls in a row the delay is 0. -/
theorem getDelay_wraps :
    let calls := List.replicate (2 ^ 32 + 1) (Syscall.gettimeofday 16 0)
    trailing calls = 2 ^ 32 + 1 ∧ (after calls).getDelay = 0 ∧ backoff (trailing calls) = 1000000 := by
  intro calls
  have htrailing : trailing calls = 2 ^ 32 + 1 := trailing_replicate rfl _
  refine ⟨htrailing, ?_, ?_⟩
  · rw [after_eq, htrailing, getDelay_eq_zero, Nat.add_sub_cancel, Nat.mod_self]
  · rw [htrailing, backoff_eq false, getDelay_min, min_eq_left (by norm_num)]
    rfl

end PollLoopDetector

open PollLoopDetector

/-! ### The calls of a run -/

/-- The calls dispatched so far, in order, with their threads. -/
def Ctl.calls (c : Ctl) : List (Pid × Syscall) :=
  (List.range c.nextAct).filterMap fun k => (c.acts k).map fun a => (a.pid, a.call)

/-- The calls that `t` made. -/
def Ctl.callsOf (t : Pid) (c : Ctl) : List Syscall :=
  (c.calls.filter fun x => x.1 = t).map Prod.snd

/-- What the detector of `app` is after `calls`; it sees none of them if it is switched off. -/
def App.detector (app : App) (calls : List Syscall) : PollLoopDetector :=
  if app.pollLoopDetection then after calls else .initial

/-- The dispatches and the detector are the same. -/
structure SameCalls (c c' : Ctl) : Prop where
  app : c'.app = c.app
  acts : c'.acts = c.acts
  nextAct : c'.nextAct = c.nextAct
  detector : c'.pollLoopDetector = c.pollLoopDetector

namespace SameCalls

variable {c c' c'' : Ctl} {p : Pid} {v : ℤ} {τ : Task}

theorem refl (c : Ctl) : SameCalls c c := ⟨rfl, rfl, rfl, rfl⟩

theorem trans (h : SameCalls c c') (h' : SameCalls c' c'') : SameCalls c c'' where
  app := h'.app.trans h.app
  acts := h'.acts.trans h.acts
  nextAct := h'.nextAct.trans h.nextAct
  detector := h'.detector.trans h.detector

theorem calls (h : SameCalls c c') : c'.calls = c.calls := by
  unfold Ctl.calls
  rw [h.acts, h.nextAct]

theorem of_completes (h : Completes p v c c') : SameCalls c c' := by
  cases h <;> exact ⟨rfl, rfl, rfl, rfl⟩

theorem of_passes (h : Passes p c c') : SameCalls c c' := by
  cases h <;> exact ⟨rfl, rfl, rfl, rfl⟩

theorem of_caught (h : Caught p c c') : SameCalls c c' := by
  cases h <;> exact ⟨rfl, rfl, rfl, rfl⟩

theorem of_prelude (h : Prelude p c c') : SameCalls c c' := by
  cases h <;> exact ⟨rfl, rfl, rfl, rfl⟩

theorem of_finish (h : Finish τ p v c c') : SameCalls c c' := by
  obtain ⟨c₁, hc₁, rfl⟩ := h
  have h₁ := of_completes hc₁
  exact ⟨h₁.app, h₁.acts, h₁.nextAct, h₁.detector⟩

theorem of_reads (h : Reads τ c c') : SameCalls c c' := by
  cases h with
  | finish h => exact of_finish h
  | vanish h =>
      cases h
      exact ⟨rfl, rfl, rfl, rfl⟩

theorem cloned (tid : Pid) (c : Ctl) : SameCalls c (c.cloned tid) := by
  unfold Ctl.cloned Ctl.spawn
  split_ifs <;> exact ⟨rfl, rfl, rfl, rfl⟩

end SameCalls

theorem NlWork.sameCalls {nl : NlId} {s s' : St} (h : NlWork nl s s') : SameCalls s.c s'.c := by
  induction h with
  | refl => exact .refl _
  | tail _ h ih =>
      cases h with
      | push => exact ih
      | route => exact ih
      | notify _ _ _ hc =>
          have h₁ := SameCalls.of_finish hc
          exact ih.trans ⟨h₁.app, h₁.acts, h₁.nextAct, h₁.detector⟩

theorem Handled.sameCalls {call : Syscall} {res : SyscallHandlerStatusCode} {s s' : St}
    (h : Handled call s res s') (hres : res ≠ .error) : SameCalls s.c s'.c := by
  cases h with
  | error => exact absurd rfl hres
  | answered _ _ _ _ hp hc => exact (SameCalls.of_prelude hp).trans (.of_completes hc)
  | listened _ _ _ _ _ hc =>
      have h₁ := SameCalls.of_completes hc
      exact ⟨h₁.app, h₁.acts, h₁.nextAct, h₁.detector⟩
  | accepted _ _ _ _ _ hc =>
      rw [St.returning_c]
      exact .of_completes hc
  | nlSend _ _ hw hc => exact hw.sameCalls.trans (.of_completes hc)
  | nlOther _ _ _ _ hc => exact .of_completes hc
  | passed _ _ _ _ hc => exact .of_passes hc
  | @cloned c₁ th _ hc _ _ => exact (SameCalls.of_passes hc).trans (.cloned th.rax c₁)
  | recvNow _ _ _ _ hc =>
      have h₁ := SameCalls.of_reads hc
      exact ⟨h₁.app, h₁.acts, h₁.nextAct, h₁.detector⟩
  | connectNow _ _ _ _ hc =>
      have h₁ := SameCalls.of_finish hc
      exact ⟨h₁.app, h₁.acts, h₁.nextAct, h₁.detector⟩
  | selectNow _ _ _ _ hc => exact .of_completes hc
  | @selectWait args c₁ c' _ _ ha _ ht =>
      have h₁ : SameCalls s.c c₁ := by
        rw [ha.frame]
        exact ⟨rfl, rfl, rfl, rfl⟩
      cases ht with
      | none => exact h₁
      | timer => exact h₁.trans ⟨rfl, rfl, rfl, rfl⟩
  | _ => exact ⟨rfl, rfl, rfl, rfl⟩

/-- A dispatch adds its call to the calls of the run. -/
theorem calls_dispatch (p : Pid) (th : Tracee) (c : Ctl) :
    (c.dispatch p th).calls = c.calls ++ [(p, th.origRax)] := by
  have hold : ∀ k ∈ List.range c.nextAct, (c.dispatch p th).acts k = c.acts k := by
    intro k hk
    have hk : k < c.nextAct := List.mem_range.mp hk
    exact Function.update_of_ne hk.ne _ _
  have hnew : (c.dispatch p th).acts c.nextAct =
      some ⟨p, th.origRax, th.phase, th.serial, c.now⟩ := Function.update_self ..
  have hnext : (c.dispatch p th).nextAct = c.nextAct + 1 := rfl
  unfold Ctl.calls
  rw [hnext, List.range_succ, List.filterMap_append]
  congr 1
  · exact List.filterMap_congr fun k hk => by rw [hold k hk]
  · simp [hnew]

/-- The detector is the one that has seen all calls of the run. -/
def DetectsAll (c : Ctl) : Prop := c.pollLoopDetector = c.app.detector (c.calls.map Prod.snd)

theorem DetectsAll.same {c c' : Ctl} (hd : DetectsAll c) (h : SameCalls c c') : DetectsAll c' := by
  unfold DetectsAll
  rw [h.detector, h.app, h.calls]
  exact hd

theorem DetectsAll.dispatch {c : Ctl} (hd : DetectsAll c) (p : Pid) (th : Tracee) :
    DetectsAll (c.dispatch p th) := by
  unfold DetectsAll App.detector at hd ⊢
  rw [calls_dispatch, List.map_append, List.map_singleton, after_concat]
  have happ : (c.dispatch p th).app = c.app := rfl
  have hdet : (c.dispatch p th).pollLoopDetector = if c.app.pollLoopDetection
      then c.pollLoopDetector.handleSystemCall th.origRax else c.pollLoopDetector := rfl
  rw [happ, hdet]
  split_ifs at hd ⊢ with hon <;> rw [hd]

theorem step_detectsAll {s s' : St} {l : Label} (hd : DetectsAll s.c) (h : step s l = some s') :
    DetectsAll s'.c := by
  obtain ⟨-, -, ho⟩ := step_cases h
  have hd : DetectsAll (s.moveTo l).c := hd
  generalize l.what = what at ho
  cases ho with
  | @fired i e _ _ _ hf =>
      have hd : DetectsAll ((s.moveTo l).c.removeEvent i) := hd
      obtain ⟨time, kind⟩ := e
      cases hf with
      | gone => exact hd
      | @dispatched p c₁ th res s₂ _ hc hth ha hp =>
          have hcaught := SameCalls.of_caught hc
          have hd₁ : DetectsAll c₁ :=
            hd.same ⟨hcaught.app, hcaught.acts, hcaught.nextAct, hcaught.detector⟩
          have hd₂ := (hd₁.dispatch p th).same (ha.handled.sameCalls hp.ne_error)
          cases hp with
          | resumed => exact hd₂
          | waits => exact hd₂
          | quits => exact hd₂
      | timeoutStale => exact hd
      | timeout _ hc =>
          have h₁ := SameCalls.of_finish hc
          exact hd.same ⟨h₁.app, h₁.acts, h₁.nextAct, h₁.detector⟩
      | slept hc => exact hd.same (.of_finish hc)
      | removed => exact hd
  | receivedRead _ _ _ hc =>
      have h₁ := SameCalls.of_reads hc
      exact hd.same ⟨h₁.app, h₁.acts, h₁.nextAct, h₁.detector⟩
  | receivedSelect _ _ _ hc =>
      have h₁ := SameCalls.of_finish hc
      exact hd.same ⟨h₁.app, h₁.acts, h₁.nextAct, h₁.detector⟩
  | sendableSelect _ _ _ hc =>
      have h₁ := SameCalls.of_finish hc
      exact hd.same ⟨h₁.app, h₁.acts, h₁.nextAct, h₁.detector⟩
  | incomingSelect _ _ _ _ _ hc =>
      have h₁ := SameCalls.of_finish hc
      exact hd.same ⟨h₁.app, h₁.acts, h₁.nextAct, h₁.detector⟩
  | incomingAccept _ _ _ _ hc =>
      have h₁ := SameCalls.of_completes hc
      exact hd.same ⟨h₁.app, h₁.acts, h₁.nextAct, h₁.detector⟩
  | connected _ _ hc =>
      have h₁ := SameCalls.of_finish hc
      exact hd.same ⟨h₁.app, h₁.acts, h₁.nextAct, h₁.detector⟩
  | refused _ _ hc =>
      have h₁ := SameCalls.of_finish hc
      exact hd.same ⟨h₁.app, h₁.acts, h₁.nextAct, h₁.detector⟩
  | _ => exact hd

/-- A step that dispatches a call of `p` adds it to the calls; if its handler answers it at once,
`p` is resumed after the processing time and the delay that the detector then gives. -/
theorem step_calls {s s' : St} {l : Label} {p : Pid} {call : Syscall} (h : step s l = some s')
    (hd : dispatched s l = some (p, call)) :
    s'.c.calls = s.c.calls ++ [(p, call)] ∧ ∃ s₂ res, Processed p s₂ res s' ∧
      (res.resumes → ⟨s'.c.now + (s'.c.app.syscallProcessingTime + s'.c.pollLoopDetector.getDelay),
        .handleSyscallBefore p⟩ ∈ s'.c.events) := by
  obtain ⟨i, t, c₁, th, res, s₂, hstep⟩ := step_dispatched h hd
  have hcaught := SameCalls.of_caught hstep.caught
  have hcalls₁ : c₁.calls = s.c.calls := hcaught.calls
  have hcalls : s₂.c.calls = s.c.calls ++ [(p, call)] := by
    have hsame := hstep.answers.handled.sameCalls hstep.processed.ne_error
    rw [hsame.calls, calls_dispatch, hcalls₁, hstep.origRax]
  refine ⟨?_, s₂, res, hstep.processed, ?_⟩
  · rw [← hcalls]
    cases hstep.processed <;> rfl
  · intro hres
    rw [hstep.processed.resumed_eq hres]
    simp [Ctl.resched, Ctl.schedule, Ctl.note]

/-- After every run the detector has seen the calls of all threads. -/
theorem run_detectsAll {app : App} {env : Env} {ls : List Label} {s : St}
    (hrun : run (St.initial app env) ls = some s) : DetectsAll s.c := by
  refine Runs.run_invariant (fun s l s' hd hs => step_detectsAll hd hs) ?_ hrun
  unfold DetectsAll App.detector
  split_ifs <;> rfl

/-! ### One thread's calls -/

/-- What the detector says of `t` is what it would say had it seen the calls of `t` only: the
verdict on every next call, and the delay with which the present one is completed. -/
def PollsAlone (t : Pid) (c : Ctl) : Prop :=
  (∀ call, c.pollLoopDetector.inLoop call = (c.app.detector (c.callsOf t)).inLoop call) ∧
    c.pollLoopDetector.getDelay = (c.app.detector (c.callsOf t)).getDelay

/-- The sequences end alike: both with a qualifying call or neither, and with the same number of
them as far as the delay tells. -/
def EndAlike (calls calls' : List Syscall) : Prop :=
  (0 < trailing calls ↔ 0 < trailing calls') ∧
    min 14 ((trailing calls - 1) % 2 ^ 32) = min 14 ((trailing calls' - 1) % 2 ^ 32)

theorem after_alike (calls calls' : List Syscall) :
    ((∀ call, (after calls).inLoop call = (after calls').inLoop call) ∧
      (after calls).getDelay = (after calls').getDelay) ↔ EndAlike calls calls' := by
  have hverdict : (∀ call, (after calls).inLoop call = (after calls').inLoop call) ↔
      (0 < trailing calls ↔ 0 < trailing calls') := by
    simp only [after_eq, inLoop]
    constructor
    · intro h
      simpa [qualifies] using h (.gettimeofday 0 0)
    · intro h call
      simp [h]
  rw [hverdict, getDelay_eq_iff, after_eq, after_eq]
  rfl

/-- The detector says of a thread what the thread's own calls tell exactly if these end like those
of the process. -/
theorem run_pollsAlone {app : App} {env : Env} {ls : List Label} {s : St}
    (hrun : run (St.initial app env) ls = some s) (t : Pid) :
    PollsAlone t s.c ↔ app.pollLoopDetection = false ∨
      EndAlike (s.c.calls.map Prod.snd) (s.c.callsOf t) := by
  have happ : s.c.app = app := Runs.run_invariant (I := fun s => s.c.app = app)
    (fun _ _ _ h hs => (step_app hs).trans h) rfl hrun
  unfold PollsAlone
  rw [run_detectsAll hrun, happ]
  unfold App.detector
  cases app.pollLoopDetection with
  | false => simp
  | true => simpa using after_alike _ _

/-- Thread 1 looks at the time between two calls of thread 2. -/
def pollEnv : Env :=
  .script [.entry .clone, .exit 2, .entry .getpid, .exit 0, .entry (.gettimeofday 8 0), .exit 0,
    .entry .getpid, .exit 0] []

/-- The run in which thread 1 has just looked at the time. -/
def pollLabels : List Label := [⟨0, .fire 0⟩, ⟨100, .fire 0⟩, ⟨200, .fire 0⟩]

theorem run_pollsAlone_polls :
    ∃ s, run (St.initial { syscallProcessingTime := 200 } pollEnv) pollLabels = some s ∧
      s.c.callsOf 1 = [.clone, .gettimeofday 8 0] ∧ PollsAlone 1 s.c := by
  have hrun : (run (St.initial { syscallProcessingTime := 200 } pollEnv) pollLabels).any
      (fun s => s.c.calls = [(1, .clone), (2, .getpid), (1, .gettimeofday 8 0)]) = true := by
    decide +kernel
  obtain ⟨s, hs, hview⟩ := (Option.any_eq_true _ _).mp hrun
  have hcalls : s.c.calls = [(1, .clone), (2, .getpid), (1, .gettimeofday 8 0)] :=
    of_decide_eq_true hview
  have hown : s.c.callsOf 1 = [.clone, .gettimeofday 8 0] := by
    rw [Ctl.callsOf, hcalls]
    decide
  refine ⟨s, hs, hown, (run_pollsAlone hs 1).mpr (.inr ?_)⟩
  rw [hown, hcalls]
  exact ⟨by decide, by decide⟩

/-- The verdict on the next call of a thread is no function of its own calls. -/
theorem polls_shared :
    ¬ ∃ verdict : App → List Syscall → Syscall → Bool, ∀ app env ls s,
      run (St.initial app env) ls = some s → ∀ t call,
        s.c.pollLoopDetector.inLoop call = verdict app (s.c.callsOf t) call := by
  rintro ⟨verdict, hall⟩
  have hrun : (run (St.initial { syscallProcessingTime := 200 } pollEnv) pollLabels).any
      (fun s => s.c.callsOf 1 = [.clone, .gettimeofday 8 0] ∧
        s.c.pollLoopDetector.inLoop (.gettimeofday 8 0) = true) = true := by
    decide +kernel
  -- thread 2 makes its second call
  have hrun' : (run (St.initial { syscallProcessingTime := 200 } pollEnv)
      (pollLabels ++ [⟨300, .fire 0⟩])).any
      (fun s => s.c.callsOf 1 = [.clone, .gettimeofday 8 0] ∧
        s.c.pollLoopDetector.inLoop (.gettimeofday 8 0) = false) = true := by
    decide +kernel
  obtain ⟨s, hs, hview⟩ := (Option.any_eq_true _ _).mp hrun
  obtain ⟨s', hs', hview'⟩ := (Option.any_eq_true _ _).mp hrun'
  obtain ⟨hown, hloop⟩ := of_decide_eq_true hview
  obtain ⟨hown', hloop'⟩ := of_decide_eq_true hview'
  have h := hall _ _ _ s hs 1 (.gettimeofday 8 0)
  have h' := hall _ _ _ s' hs' 1 (.gettimeofday 8 0)
  rw [hown, hloop] at h
  rw [hown', hloop', ← h] at h'
  cases h'

end Grail
