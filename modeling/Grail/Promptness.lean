import Grail.Pacing

/-! # No thread starves

A thread that exists and is in no call is scheduled (`Attended`), for a time that the processing
time and the greatest delay of the poll loop detector bound (`Soon`).  A step keeps both: it creates
no thread without scheduling it (`step_births`), schedules a thread when its call has been answered,
and ends the thread if the event leads to no call.

As events fire at their times, such a thread makes its next call, or ends, before the simulated
clock has passed the bound, whatever the other threads and the network do (`run_prompt`). -/

namespace Grail

open Programs

variable {s s' : St} {l : Label} {c c₁ c' : Ctl} {p : Pid} {v : ℤ} {τ : Task}
  {res : SyscallHandlerStatusCode} {call : Syscall}

/-! ### Which threads come to exist -/

/-- No thread comes to exist. -/
def NoBirth (c c' : Ctl) : Prop := ∀ p, c.threads p = none → c'.threads p = none

namespace NoBirth

theorem same (h : c'.threads = c.threads) : NoBirth c c' := fun _ hp => h ▸ hp

/-- What differs besides the threads does not matter. -/
theorem of_threads (h : NoBirth c c₁) (hc : c.threads = s.c.threads)
    (hc' : s'.c.threads = c₁.threads) : NoBirth s.c s'.c := by
  intro p hp
  rw [hc']
  exact h p (by rwa [hc])

theorem trans (h : NoBirth c c₁) (h' : NoBirth c₁ c') : NoBirth c c' :=
  fun p hp => h' p (h p hp)

/-- The thread `p`, which exists, is updated. -/
theorem update {th : Tracee} {o : Option Tracee} (hp : c.threads p = some th)
    (h : c'.threads = Function.update c.threads p o) : NoBirth c c' := by
  intro q hq
  have hne : q ≠ p := by
    rintro rfl
    cases hp.symm.trans hq
  rw [h, Function.update_of_ne hne, hq]

theorem of_completes (h : Completes p v c c') : NoBirth c c' := by
  cases h with
  | atEntry hp => exact update hp rfl
  | atExit _ hp => exact update hp rfl

theorem of_vanishes (h : Vanishes p c c') : NoBirth c c' := by
  cases h with
  | mk hp => exact update hp rfl

theorem of_passes (h : Passes p c c') : NoBirth c c' := by
  cases h with
  | atEntry _ hp => exact update hp rfl
  | atExit _ hp => exact update hp rfl

theorem of_caught (h : Caught p c c') : NoBirth c c' := by
  cases h with
  | entry hp => exact update hp rfl
  | exit hp => exact update hp rfl

theorem of_prelude (h : Prelude p c c') : NoBirth c c' := by
  cases h with
  | none => exact same rfl
  | close => exact same rfl
  | origRax hp => exact update hp rfl

theorem of_finish (h : Finish τ p v c c') : NoBirth c c' := by
  obtain ⟨c₁, hc, rfl⟩ := h
  exact (of_completes hc : NoBirth (c.onTask τ) c₁)

theorem of_reads (h : Reads τ c c') : NoBirth c c' := by
  cases h with
  | finish h => exact of_finish h
  | @vanish c₁ h => exact (of_vanishes h : NoBirth (c.onTask τ) c₁)

theorem of_nlWork {nl : NlId} (h : NlWork nl s s') : NoBirth s.c s'.c := by
  induction h with
  | refl => exact same rfl
  | tail _ hstep ih =>
      cases hstep with
      | push => exact ih
      | route => exact ih
      | @notify cl _ _ _ _ hf => exact ih.trans (of_finish hf : NoBirth (Ctl.claim cl _) _)

theorem of_processed (h : Processed p s res s') : NoBirth s.c s'.c := by
  cases h <;> exact same rfl

end NoBirth

/-- Only a `clone` creates a thread. -/
theorem Handled.births (h : Handled call s res s') (hres : res ≠ .error) :
    NoBirth s.c s'.c ∨ ∃ c₁ tid, res.resumes ∧ NoBirth s.c c₁ ∧ s'.c = c₁.cloned tid := by
  cases h with
  | error => exact absurd rfl hres
  | answered _ _ _ _ hpre hc => exact .inl ((NoBirth.of_prelude hpre).trans (.of_completes hc))
  | listened _ _ _ _ _ hc => exact .inl ((NoBirth.of_completes hc).of_threads rfl rfl)
  | accepted _ _ _ _ _ hc =>
      rw [St.returning_c]
      exact .inl (.of_completes hc)
  | nlSend _ _ hw hc => exact .inl ((NoBirth.of_nlWork hw).trans (.of_completes hc))
  | nlOther _ _ _ _ hc => exact .inl (.of_completes hc)
  | passed _ _ _ _ hc => exact .inl (.of_passes hc)
  | cloned _ hc => exact .inr ⟨_, _, .inl rfl, .of_passes hc, rfl⟩
  | recvNow _ _ _ _ hc => exact .inl ((NoBirth.of_reads hc).of_threads rfl rfl)
  | connectNow _ _ _ _ hc => exact .inl ((NoBirth.of_finish hc).of_threads rfl rfl)
  | selectNow _ _ _ _ hc => exact .inl (.of_completes hc)
  | @selectWait args c₁ c' _ _ harms _ ht =>
      have harmed : NoBirth s.c c₁ := by
        rw [harms.frame]
        exact .same rfl
      cases ht with
      | none => exact .inl harmed
      | timer => exact .inl harmed
  | _ => exact .inl (.same rfl)

theorem threads_cloned {tid : Pid} (h : p ≠ tid) : (c.cloned tid).threads p = c.threads p := by
  unfold Ctl.cloned Ctl.spawn
  split_ifs
  · exact Function.update_of_ne h _ _
  · rfl

/-- A thread that a step creates is scheduled. -/
theorem step_births (h : step s l = some s') (hp : s.c.threads p = none) :
    s'.c.threads p = none ∨ pend s'.c (.handleSyscallBefore p) ≠ 0 := by
  have nobirth : NoBirth s.c s'.c →
      s'.c.threads p = none ∨ pend s'.c (.handleSyscallBefore p) ≠ 0 := fun hn => .inl (hn p hp)
  obtain ⟨-, -, ho⟩ := step_cases h
  generalize l.what = what at ho
  cases ho with
  | @fired i e _ he _ hf =>
      obtain ⟨t, kind⟩ := e
      cases hf with
      | gone hth => exact nobirth (.update hth rfl)
      | @dispatched q c₁ th res s₂ _ hc hth ha hproc =>
          rcases ha.handled.births hproc.ne_error with hn | ⟨c₂, tid, hres, hn, hcloned⟩
          · have hturn := ((NoBirth.of_caught hc).trans hn).trans (.of_processed hproc)
            exact nobirth (hturn.of_threads rfl rfl)
          · have hnone : c₂.threads p = none := ((NoBirth.of_caught hc).trans hn) p hp
            rw [hproc.resumed_eq hres, hcloned, pend_cloned_resched]
            by_cases htid : tid = p
            · exact .inr (by simp [htid])
            · exact .inl ((threads_cloned (Ne.symm htid)).trans hnone)
      | timeoutStale => exact nobirth (.same rfl)
      | timeout _ hc => exact nobirth ((NoBirth.of_finish hc).of_threads rfl rfl)
      | slept hc => exact nobirth ((NoBirth.of_finish hc).of_threads rfl rfl)
      | removed => exact nobirth (.same rfl)
  | receivedIdle => exact nobirth (.same rfl)
  | receivedRead _ _ _ hc => exact nobirth ((NoBirth.of_reads hc).of_threads rfl rfl)
  | receivedSelect _ _ _ hc => exact nobirth ((NoBirth.of_finish hc).of_threads rfl rfl)
  | sendableIdle => exact nobirth (.same rfl)
  | sendableSelect _ _ _ hc => exact nobirth ((NoBirth.of_finish hc).of_threads rfl rfl)
  | incomingLost => exact nobirth (.same rfl)
  | incomingStored => exact nobirth (.same rfl)
  | incomingSelect _ _ _ _ _ hc => exact nobirth ((NoBirth.of_finish hc).of_threads rfl rfl)
  | incomingAccept _ _ _ _ hc => exact nobirth ((NoBirth.of_completes hc).of_threads rfl rfl)
  | connectIdle => exact nobirth (.same rfl)
  | connected _ _ hc => exact nobirth ((NoBirth.of_finish hc).of_threads rfl rfl)
  | refused _ _ hc => exact nobirth ((NoBirth.of_finish hc).of_threads rfl rfl)

/-- A thread that is resumed without making a call has ended. -/
theorem step_gone (h : step s l = some s') (hr : resumes s l = some p)
    (hd : dispatched s l = none) : s'.c.threads p = none := by
  obtain ⟨-, -, ho⟩ := step_cases h
  generalize hl : l.what = what at ho
  cases ho with
  | @fired i e _ hev _ hf =>
      obtain ⟨t, kind⟩ := e
      have hev : s.c.events[i]? = some ⟨t, kind⟩ := hev
      simp only [resumes, hl, hev] at hr
      cases hf with
      | gone =>
          cases hr
          exact Function.update_self ..
      | dispatched hc hth =>
          cases hd.symm.trans (dispatched_eq (s := s) (resumes_eq hl hev rfl) (hc.catches hth))
      | timeoutStale => cases hr
      | timeout => cases hr
      | slept => cases hr
      | removed => cases hr
  | connectIdle hw => rcases hw with rfl | rfl <;> simp [resumes, hl] at hr
  | _ => simp [resumes, hl] at hr

/-! ### Who is scheduled -/

/-- The threads that are in no call are scheduled. -/
def Attended (c : Ctl) : Prop :=
  ∀ p, c.threads p ≠ none → c.inCall p = none → pend c (.handleSyscallBefore p) ≠ 0

theorem Attended.initial (app : App) (env : Env) : Attended (St.initial app env).c := by
  intro p hp _
  by_cases happ : p = app.appPid
  · subst happ
    simp [pend, St.initial]
  · simp [St.initial, happ] at hp

/-- A thread that is scheduled stays so, unless the event that fires is its own. -/
theorem pend_erased {i : ℕ} {e : Event} (hp : pend s.c (.handleSyscallBefore p) ≠ 0)
    (he : s.c.events[i]? = some e) (hk : e.kind ≠ .handleSyscallBefore p)
    (hc : c.events = s.c.events.eraseIdx i) : pend c (.handleSyscallBefore p) ≠ 0 := by
  obtain ⟨e', he', hk'⟩ := pend_ne_zero_iff.mp hp
  have hne : e' ≠ e := fun heq => hk (heq ▸ hk')
  exact pend_ne_zero_iff.mpr ⟨e', hc ▸ mem_eraseIdx_of_ne he' he hne, hk'⟩

/-- What was in no call and scheduled at the beginning of a turn is so at its end. -/
theorem Schedules.attends (h : Schedules c c')
    (hp : c.inCall p = none → pend c (.handleSyscallBefore p) ≠ 0) (hfree : c'.inCall p = none) :
    pend c' (.handleSyscallBefore p) ≠ 0 := by
  rcases h.answered p with hin | ⟨-, hpend⟩
  · exact h.pend_kept (by simp) (hp (hin ▸ hfree))
  · exact hpend

theorem Attended.step (h : Attended s.c) (hs : Grail.step s l = some s') : Attended s'.c := by
  intro p halive hfree
  by_cases hnone : s.c.threads p = none
  · exact (step_births hs hnone).resolve_left halive
  have hp : s.c.inCall p = none → pend s.c (.handleSyscallBefore p) ≠ 0 := h p hnone
  have turn : ∀ {i : ℕ} {q : Pid} {c : Ctl}, Turn s l i q c → c.inCall p = none →
      pend c (.handleSyscallBefore p) ≠ 0 := by
    intro i q c ht hin
    have hne : p ≠ q := by
      rintro rfl
      rw [ht.inCall, Function.update_self] at hin
      cases hin
    rw [ht.inCall, Function.update_of_ne hne] at hin
    exact pend_erased (hp hin) ht.event (by simpa using hne.symm) ht.events
  cases step_books hs with
  | idle _ _ hb => exact hb.attends hp hfree
  | @fired i e hd hl he hb =>
      refine hb.attends (fun hin => pend_erased (hp hin) he (fun hk => halive ?_) rfl) hfree
      exact step_gone hs (resumes_eq hl he hk) hd
  | dispatched _ ht hb => exact hb.attends (turn ht) hfree
  | @cloned i q call c c₁ tid _ ht hb heq =>
      rw [heq, pend_cloned_resched]
      by_cases hq : q = p
      · simp [hq]
      · have hin : c₁.inCall p = none := by
          rw [heq] at hfree
          have hfree : Function.update (c₁.cloned tid).inCall q none p = none := hfree
          rwa [Function.update_of_ne (Ne.symm hq), inCall_cloned] at hfree
        have := hb.attends (turn ht) hin
        omega

/-! ### When they are scheduled -/

/-- The time by which a thread that is in no call is resumed. -/
def Ctl.soon (c : Ctl) : ℕ :=
  max c.app.startTime (c.now + c.app.syscallProcessingTime + 1000000)

/-- No thread is resumed later than `t`. -/
def Soon (c : Ctl) (t : ℕ) : Prop :=
  ∀ e ∈ c.events, ∀ p, e.kind = .handleSyscallBefore p → e.time ≤ t

theorem Soon.initial (app : App) (env : Env) :
    Soon (St.initial app env).c (St.initial app env).c.soon := by
  intro e he p _
  obtain rfl := List.mem_singleton.mp he
  exact Nat.le_max_left _ _

theorem Soon.mono {t t' : ℕ} (h : Soon c t) (ht : t ≤ t') (hsub : ∀ e ∈ c'.events, e ∈ c.events) :
    Soon c' t' :=
  fun e he p hk => (h e (hsub e he) p hk).trans ht

theorem pace_le (c : Ctl) : c.pace ≤ c.app.syscallProcessingTime + 1000000 :=
  Nat.add_le_add_left (PollLoopDetector.getDelay_le _) _

/-- What is scheduled between `c` and `c'` is scheduled soon. -/
theorem Schedules.soon {t : ℕ} (h : Schedules c c') (hpace : c.now + c'.pace ≤ t) (hc : Soon c t) :
    Soon c' t := by
  intro e he p hk
  rcases h.entered e he with hold | hnew
  · exact hc e hold p hk
  · rw [hnew.paced p hk, ← h.pace]
    exact hpace

theorem Soon.step (h : Soon s.c s.c.soon) (hs : Grail.step s l = some s') :
    Soon s'.c s'.c.soon := by
  obtain ⟨hle, -, -⟩ := step_cases hs
  have hnow : s'.c.now = l.time := step_now hs
  have hlater : s.c.soon ≤ s'.c.soon := by
    rw [Ctl.soon, Ctl.soon, hnow, step_app hs]
    omega
  have hpace : l.time + s'.c.pace ≤ s'.c.soon := by
    have := pace_le s'.c
    rw [Ctl.soon, hnow]
    omega
  have turn : ∀ {i : ℕ} {q : Pid} {c : Ctl}, Turn s l i q c → Soon c s'.c.soon := fun ht =>
    h.mono hlater fun e he => List.mem_of_mem_eraseIdx (ht.events ▸ he)
  cases step_books hs with
  | idle _ _ hb => exact hb.soon hpace (h.mono hlater fun _ he => he)
  | fired _ _ _ hb => exact hb.soon hpace (h.mono hlater fun _ he => List.mem_of_mem_eraseIdx he)
  | dispatched _ ht hb => exact hb.soon (ht.now ▸ hpace) (turn ht)
  | @cloned i q call c c₁ tid _ ht hb heq =>
      have hp : s'.c.pace = c₁.pace := heq ▸ pace_cloned tid c₁
      have htime : c₁.now = l.time := hb.now.trans ht.now
      have hold : Soon c₁ s'.c.soon := hb.soon (by rw [ht.now, ← hp]; exact hpace) (turn ht)
      intro e he p hk
      rw [heq, mem_cloned_resched] at he
      rcases he with he | rfl | rfl
      · exact hold e he p hk
      · -- the thread that `clone` creates is resumed after 100 nanoseconds
        show c₁.now + 100 ≤ s'.c.soon
        rw [htime, Ctl.soon, hnow]
        omega
      · show c₁.now + c₁.pace ≤ s'.c.soon
        rw [htime, ← hp]
        exact hpace

/-! ### Runs -/

section prompt

variable {app : App} {env : Env} {before after : List Label}

theorem attended_of_run (hr : run (St.initial app env) before = some s) : Attended s.c :=
  Runs.run_invariant (I := fun s => Attended s.c) (fun _ _ _ h hs => h.step hs)
    (.initial app env) hr

theorem soon_of_run (hr : run (St.initial app env) before = some s) : Soon s.c s.c.soon :=
  Runs.run_invariant (I := fun s => Soon s.c s.c.soon) (fun _ _ _ h hs => h.step hs)
    (.initial app env) hr

/-- A thread that exists and is in no call makes one, or ends, before the clock has passed its
bound. -/
theorem run_prompt (hbefore : run (St.initial app env) before = some s)
    (halive : s.c.threads p ≠ none) (hfree : s.c.inCall p = none)
    (hafter : run s after = some s')
    (hlate : max app.startTime (s.c.now + app.syscallProcessingTime + 1000000) < s'.c.now) :
    ∃ waiting l rest s₁ s₂, after = waiting ++ l :: rest ∧ run s waiting = some s₁ ∧
      step s₁ l = some s₂ ∧ run s₂ rest = some s' ∧
      l.time ≤ max app.startTime (s.c.now + app.syscallProcessingTime + 1000000) ∧
      ((∃ call, dispatched s₁ l = some (p, call)) ∨ s₂.c.threads p = none) := by
  obtain ⟨⟨t, kind⟩, he, hk⟩ :=
    pend_ne_zero_iff.mp (attended_of_run hbefore p halive hfree)
  obtain rfl : kind = .handleSyscallBefore p := hk
  have hsoon : t ≤ s.c.soon := soon_of_run hbefore _ he p rfl
  rw [Ctl.soon, app_of_run hbefore] at hsoon
  have hahead : agenda.Ahead s := fun e he => ahead_of_run hbefore he.1
  rcases agenda.run_fires hahead ⟨he, by simp⟩ hafter with
    ⟨-, hnow⟩ | ⟨waiting, l, rest, s₁, s₂, hls, hw, hs, ⟨i, hl, hi⟩, htime, hrest⟩
  · have hnow : s'.c.now ≤ t := hnow
    omega
  · have htime : l.time = t := (step_now hs).symm.trans htime
    refine ⟨waiting, l, rest, s₁, s₂, hls, hw, hs, hrest, htime ▸ hsoon, ?_⟩
    have hr : resumes s₁ l = some p := resumes_eq hl hi rfl
    cases hcatch : s₁.c.catches p with
    | none => exact .inr (step_gone hs hr (by simp [dispatched, hr, hcatch]))
    | some call => exact .inl ⟨call, dispatched_eq hr hcatch⟩

end prompt

/-- A thread that sleeps for two milliseconds, and again. -/
def twoNapsEnv : Env :=
  .script [.entry (.nanosleep ⟨0, 2000000⟩), .exit 0, .entry (.nanosleep ⟨0, 2000000⟩), .exit 0] []

theorem run_prompt_nap :
    ∃ s s', run (St.initial {} twoNapsEnv) [⟨0, .fire 0⟩, ⟨2000000, .fire 0⟩] = some s ∧
      run s [⟨2000000, .fire 0⟩, ⟨4000000, .fire 0⟩] = some s' ∧
      ∃ waiting l rest s₁ s₂,
        [⟨2000000, .fire 0⟩, ⟨4000000, .fire 0⟩] = waiting ++ l :: rest ∧
          run s waiting = some s₁ ∧ step s₁ l = some s₂ ∧ run s₂ rest = some s' ∧
          l.time ≤ max 0 (s.c.now + 0 + 1000000) ∧
          ((∃ call, dispatched s₁ l = some (1, call)) ∨ s₂.c.threads 1 = none) := by
  have hcheck : (run (St.initial {} twoNapsEnv) [⟨0, .fire 0⟩, ⟨2000000, .fire 0⟩]).any
      (fun s => (s.c.threads 1).isSome && decide (s.c.inCall 1 = none) &&
        (run s [⟨2000000, .fire 0⟩, ⟨4000000, .fire 0⟩]).any fun s' =>
          decide (max 0 (s.c.now + 0 + 1000000) < s'.c.now)) = true := by decide +kernel
  obtain ⟨s, hbefore, hs⟩ := (Option.any_eq_true _ _).mp hcheck
  simp only [Bool.and_eq_true, decide_eq_true_eq] at hs
  obtain ⟨⟨halive, hfree⟩, hs⟩ := hs
  obtain ⟨s', hafter, hlate⟩ := (Option.any_eq_true _ _).mp hs
  exact ⟨s, s', hbefore, hafter, run_prompt hbefore (Option.isSome_iff_ne_none.mp halive) hfree
    hafter (by simpa using hlate)⟩

end Grail
