import Grail.Agenda
import Grail.SleepTimers
import Grail.ThreadEvents

/-! # The schedule of the emulator

`Schedules c c'` says what happens to the scheduled events between `c` and `c'`: nothing but the
timer of an answered `select` is cancelled, nothing is scheduled for the past, a resumption is
scheduled for the time after the processing time and the delay of the poll loop detector
(`Ctl.pace`), and a thread whose call has been answered is scheduled.  `Books s l s'` says the same
of a step; a `clone` moreover schedules the thread that it returns.

So the events are an agenda (`agenda`): apart from cancelled timers, every event fires at its time,
neither earlier nor later. -/

namespace Grail

open Programs

/-- The time between the answer to a call and the next call. -/
def Ctl.pace (c : Ctl) : ℕ := c.app.syscallProcessingTime + c.pollLoopDetector.getDelay

/-- The event can be scheduled in `c`. -/
structure Entered (c : Ctl) (e : Event) : Prop where
  ahead : c.now ≤ e.time
  paced : ∀ p, e.kind = .handleSyscallBefore p → e.time = c.now + c.pace

structure Schedules (c c' : Ctl) : Prop where
  now : c'.now = c.now
  pace : c'.pace = c.pace
  kept : ∀ e ∈ c.events, (∀ τ, e.kind ≠ .selectTimeout τ) → e ∈ c'.events
  entered : ∀ e ∈ c'.events, e ∈ c.events ∨ Entered c e
  answered : ∀ p, c'.inCall p = c.inCall p ∨
    c'.inCall p = none ∧ pend c' (.handleSyscallBefore p) ≠ 0

theorem pend_ne_zero_iff {c : Ctl} {kind : EventKind} :
    pend c kind ≠ 0 ↔ ∃ e ∈ c.events, e.kind = kind := by
  simp [pend, List.countP_eq_zero]

namespace Schedules

variable {c c₁ c' : Ctl} {p : Pid} {v : ℤ} {τ : Task}

theorem of_fields (hn : c'.now = c.now) (hp : c'.pace = c.pace) (he : c'.events = c.events)
    (hi : c'.inCall = c.inCall) : Schedules c c' where
  now := hn
  pace := hp
  kept _ hmem _ := he ▸ hmem
  entered _ hmem := .inl (he ▸ hmem)
  answered _ := .inl (by rw [hi])

theorem refl (c : Ctl) : Schedules c c := of_fields rfl rfl rfl rfl

theorem pend_kept (h : Schedules c c') {kind : EventKind} (hk : ∀ τ, kind ≠ .selectTimeout τ)
    (hp : pend c kind ≠ 0) : pend c' kind ≠ 0 := by
  obtain ⟨e, he, rfl⟩ := pend_ne_zero_iff.mp hp
  exact pend_ne_zero_iff.mpr ⟨e, h.kept e he hk, rfl⟩

theorem trans (h : Schedules c c₁) (h' : Schedules c₁ c') : Schedules c c' where
  now := h'.now.trans h.now
  pace := h'.pace.trans h.pace
  kept e he hk := h'.kept e (h.kept e he hk) hk
  entered e he := by
    rcases h'.entered e he with he | ⟨hahead, hpaced⟩
    · exact h.entered e he
    · rw [h.now] at hahead hpaced
      rw [h.pace] at hpaced
      exact .inr ⟨hahead, hpaced⟩
  answered p := by
    rcases h'.answered p with hin | hin
    · rw [hin]
      rcases h.answered p with hin | ⟨hnone, hp⟩
      · exact .inl hin
      · exact .inr ⟨hnone, h'.pend_kept (by simp) hp⟩
    · exact .inr hin

theorem of_completes (h : Completes p v c c') : Schedules c c' := by
  cases h <;> exact of_fields rfl rfl rfl rfl

theorem of_vanishes (h : Vanishes p c c') : Schedules c c' := by
  cases h
  exact of_fields rfl rfl rfl rfl

theorem of_passes (h : Passes p c c') : Schedules c c' := by
  cases h <;> exact of_fields rfl rfl rfl rfl

/-- A timer is scheduled. -/
theorem schedule (delay : ℕ) {kind : EventKind} (hk : ∀ p, kind ≠ .handleSyscallBefore p)
    (c : Ctl) : Schedules c (c.schedule delay kind) where
  now := rfl
  pace := rfl
  kept _ he _ := List.mem_append_left _ he
  entered e he := by
    rcases List.mem_append.mp he with he | he
    · exact .inl he
    · obtain rfl := List.mem_singleton.mp he
      exact .inr ⟨Nat.le_add_right _ _, fun p hp => absurd hp (hk p)⟩
  answered _ := .inl rfl

theorem of_prelude (h : Prelude p c c') : Schedules c c' := by
  cases h with
  | none => exact refl c
  | close => exact schedule _ (by simp) c
  | origRax => exact of_fields rfl rfl rfl rfl

theorem resched (p : Pid) (c : Ctl) : Schedules c (c.resched p) where
  now := rfl
  pace := rfl
  kept _ he _ := List.mem_append_left _ he
  entered e he := by
    rcases List.mem_append.mp he with he | he
    · exact .inl he
    · obtain rfl := List.mem_singleton.mp he
      exact .inr ⟨Nat.le_add_right _ _, fun _ _ => rfl⟩
  answered q := by
    by_cases hq : q = p
    · subst hq
      refine .inr ⟨Function.update_self .., ?_⟩
      rw [pend_resched, if_pos rfl]
      exact Nat.succ_ne_zero _
    · exact .inl (Function.update_of_ne hq _ _)

theorem claim (cl : SelectClosure) (c : Ctl) : Schedules c (c.claim cl) where
  now := rfl
  pace := rfl
  kept e he hk := List.mem_filter.mpr ⟨he, by simpa using hk cl.task⟩
  entered _ he := .inl (List.mem_of_mem_filter he)
  answered _ := .inl rfl

theorem of_finish (h : Finish τ p v c c') : Schedules c c' := by
  obtain ⟨c₁, hc, rfl⟩ := h
  have hcall : Schedules c c₁ := (of_fields rfl rfl rfl rfl : Schedules c (c.onTask τ)).trans
    (of_completes hc)
  exact (hcall.trans (resched τ.thread c₁)).trans (of_fields rfl rfl rfl rfl)

theorem of_reads (h : Reads τ c c') : Schedules c c' := by
  cases h with
  | finish h => exact of_finish h
  | @vanish c₁ h =>
      have hcall : Schedules c c₁ := (of_fields rfl rfl rfl rfl : Schedules c (c.onTask τ)).trans
        (of_vanishes h)
      exact (hcall.trans (resched τ.thread c₁)).trans (of_fields rfl rfl rfl rfl)

/-- Only a slot or a flag changes afterwards. -/
theorem slot (h : Schedules c c₁) (hn : c'.now = c₁.now) (hp : c'.pace = c₁.pace)
    (he : c'.events = c₁.events) (hi : c'.inCall = c₁.inCall) : Schedules c c' :=
  h.trans (of_fields hn hp he hi)

/-- Only a slot or a flag has changed before. -/
theorem after_slot (h : Schedules c₁ c') (hn : c₁.now = c.now) (hp : c₁.pace = c.pace)
    (he : c₁.events = c.events) (hi : c₁.inCall = c.inCall) : Schedules c c' :=
  (of_fields hn hp he hi).trans h

end Schedules

/-- The thread that is resumed is scheduled. -/
theorem Finish.scheduled {τ : Task} {p : Pid} {v : ℤ} {c c' : Ctl} (h : Finish τ p v c c') :
    ⟨c'.now + c'.pace, .handleSyscallBefore τ.thread⟩ ∈ c'.events := by
  obtain ⟨c₁, -, rfl⟩ := h
  exact List.mem_append_right _ (List.mem_singleton_self _)

section handlers

variable {s s' : St} {p : Pid} {res : SyscallHandlerStatusCode}

theorem NlWork.schedules {nl : NlId} (h : NlWork nl s s') : Schedules s.c s'.c := by
  induction h with
  | refl => exact .refl _
  | tail _ hstep ih =>
      cases hstep with
      | push => exact ih
      | route => exact ih
      | @notify cl _ _ _ _ hf =>
          exact ih.trans (((Schedules.claim cl _).trans (.of_finish hf)).slot rfl rfl rfl rfl)

theorem Processed.schedules (h : Processed p s res s') : Schedules s.c s'.c := by
  cases h with
  | resumed => exact .resched p s.c
  | waits => exact .refl _
  | quits => exact .refl _

/-- A `clone` moreover schedules the thread that it returns. -/
theorem Handled.schedules {call : Syscall} (h : Handled call s res s') (hres : res ≠ .error) :
    Schedules s.c s'.c ∨
      ∃ c₁ tid, res.resumes ∧ Schedules s.c c₁ ∧ s'.c = c₁.cloned tid := by
  cases h with
  | error => exact absurd rfl hres
  | answered _ _ _ _ hpre hc => exact .inl ((Schedules.of_prelude hpre).trans (.of_completes hc))
  | listened _ _ _ _ _ hc => exact .inl ((Schedules.of_completes hc).slot rfl rfl rfl rfl)
  | accepted _ _ _ _ _ hc =>
      rw [St.returning_c]
      exact .inl (.of_completes hc)
  | nlSend _ _ hw hc => exact .inl (hw.schedules.trans (.of_completes hc))
  | nlOther _ _ _ _ hc => exact .inl (.of_completes hc)
  | passed _ _ _ _ hc => exact .inl (.of_passes hc)
  | cloned _ hc => exact .inr ⟨_, _, .inl rfl, .of_passes hc, rfl⟩
  | recvNow _ _ _ _ hc => exact .inl ((Schedules.of_reads hc).slot rfl rfl rfl rfl)
  | connectNow _ _ _ _ hc => exact .inl ((Schedules.of_finish hc).after_slot rfl rfl rfl rfl)
  | selectNow _ _ _ _ hc => exact .inl (.of_completes hc)
  | @selectWait args c₁ c' _ _ harms _ ht =>
      have harmed : Schedules s.c c₁ := by
        rw [harms.frame]
        exact .of_fields rfl rfl rfl rfl
      cases ht with
      | none => exact .inl harmed
      | timer => exact .inl (harmed.trans (.schedule _ (by simp) _))
  | sleeping => exact .inl (.schedule _ (by simp) _)
  | _ => exact .inl (.of_fields rfl rfl rfl rfl)

end handlers

/-! ### Steps -/

/-- `c` is a state in which the step `l`, having removed the `i`-th event, handles a call of `p`. -/
structure Turn (s : St) (l : Label) (i : ℕ) (p : Pid) (c : Ctl) : Prop where
  what : l.what = .fire i
  event : s.c.events[i]? = some ⟨l.time, .handleSyscallBefore p⟩
  now : c.now = l.time
  events : c.events = s.c.events.eraseIdx i
  inCall : c.inCall = Function.update s.c.inCall p (some s.c.nextAct)

/-- What a step does with the schedule. -/
inductive Books (s : St) (l : Label) (s' : St) : Prop
  | idle : dispatched s l = none → (∀ i, l.what ≠ .fire i) → Schedules (s.moveTo l).c s'.c →
      Books s l s'
  | fired {i : ℕ} {e : Event} : dispatched s l = none → l.what = .fire i →
      s.c.events[i]? = some e → Schedules ((s.moveTo l).c.removeEvent i) s'.c → Books s l s'
  | dispatched {i : ℕ} {p : Pid} {call : Syscall} {c : Ctl} :
      Grail.dispatched s l = some (p, call) → Turn s l i p c → Schedules c s'.c → Books s l s'
  | cloned {i : ℕ} {p : Pid} {call : Syscall} {c c₁ : Ctl} {tid : Pid} :
      Grail.dispatched s l = some (p, call) → Turn s l i p c → Schedules c c₁ →
      s'.c = (c₁.cloned tid).resched p → Books s l s'

variable {s s' : St} {l : Label}

/-- An event fires at its time. -/
theorem fired_time (h : step s l = some s') {i : ℕ} {e : Event} (hl : l.what = .fire i)
    (he : s.c.events[i]? = some e) : e.time = l.time := by
  obtain ⟨-, -, ho⟩ := step_cases h
  rw [hl] at ho
  cases ho with
  | @fired _ e' _ he' htime =>
      have he' : s.c.events[i]? = some e' := he'
      obtain rfl := Option.some.inj (he.symm.trans he')
      exact htime
  | connectIdle hwhat => rcases hwhat with hwhat | hwhat <;> cases hwhat

theorem Schedules.of_caught {p : Pid} {c c' : Ctl} (h : Caught p c c') : Schedules c c' := by
  cases h <;> exact of_fields rfl rfl rfl rfl

theorem step_books (h : step s l = some s') : Books s l s' := by
  cases hd : dispatched s l with
  | some disp =>
      obtain ⟨p, call⟩ := disp
      obtain ⟨i, t, c₁, th, res, s₂, hdet⟩ := step_dispatched h hd
      have htime : t = l.time := fired_time h hdet.what hdet.event
      subst htime
      have hcaught : c₁.now = l.time ∧ c₁.events = s.c.events.eraseIdx i ∧
          c₁.inCall = s.c.inCall ∧ c₁.nextAct = s.c.nextAct := by
        cases hdet.caught <;> exact ⟨rfl, rfl, rfl, rfl⟩
      obtain ⟨hnow, hevents, hin, hnext⟩ := hcaught
      have hturn : Turn s l i p (c₁.dispatch p th) := by
        refine ⟨hdet.what, hdet.event, hnow, hevents, ?_⟩
        rw [← hin, ← hnext]
        rfl
      rcases hdet.answers.handled.schedules hdet.processed.ne_error with
        hs | ⟨c₂, tid, hres, hs, hcloned⟩
      · exact .dispatched hd hturn (hs.trans hdet.processed.schedules)
      · have heq : s'.c = (c₂.cloned tid).resched p := by
          rw [hdet.processed.resumed_eq hres, hcloned]
        exact .cloned hd hturn hs heq
  | none =>
      obtain ⟨-, -, ho⟩ := step_cases h
      generalize hl : l.what = what at ho
      cases ho with
      | @fired i e _ he _ hf =>
          obtain ⟨t, kind⟩ := e
          cases hf with
          | gone => exact .fired hd hl he (.of_fields rfl rfl rfl rfl)
          | dispatched hc hth =>
              have hsome := dispatched_eq (s := s) (resumes_eq hl he rfl) (hc.catches hth)
              rw [hd] at hsome
              cases hsome
          | timeoutStale => exact .fired hd hl he (.refl _)
          | timeout _ hc =>
              exact .fired hd hl he ((Schedules.of_finish hc).after_slot rfl rfl rfl rfl)
          | slept hc => exact .fired hd hl he (.of_finish hc)
          | removed => exact .fired hd hl he (.refl _)
      | receivedIdle => exact .idle hd (by simp [hl]) (.refl _)
      | receivedRead _ _ _ hc =>
          exact .idle hd (by simp [hl]) ((Schedules.of_reads hc).slot rfl rfl rfl rfl)
      | receivedSelect _ _ _ hc =>
          exact .idle hd (by simp [hl])
            (((Schedules.claim _ _).trans (.of_finish hc)).slot rfl rfl rfl rfl)
      | sendableIdle => exact .idle hd (by simp [hl]) (.refl _)
      | sendableSelect _ _ _ hc =>
          exact .idle hd (by simp [hl])
            (((Schedules.claim _ _).trans (.of_finish hc)).slot rfl rfl rfl rfl)
      | incomingLost => exact .idle hd (by simp [hl]) (.refl _)
      | incomingStored => exact .idle hd (by simp [hl]) (.refl _)
      | @incomingSelect _ sock' _ _ _ cl _ _ _ _ _ _ _ hc =>
          have hclaim : Schedules (s.moveTo l).c
              (((s.moveTo l).c.claim cl).setAcceptCallback sock' none) :=
            (Schedules.claim cl _).slot rfl rfl rfl rfl
          exact .idle hd (by simp [hl]) (hclaim.trans (.of_finish hc))
      | incomingAccept _ _ _ _ hc =>
          have hf : Finish _ s.c.pid _ (s.moveTo l).c _ := ⟨_, hc, rfl⟩
          exact .idle hd (by simp [hl]) (.of_finish hf)
      | connectIdle hwhat =>
          refine .idle hd (fun i hi => ?_) (.of_fields rfl rfl rfl rfl)
          rw [hl] at hi
          rcases hwhat with rfl | rfl <;> cases hi
      | connected _ _ hc =>
          exact .idle hd (by simp [hl]) ((Schedules.of_finish hc).after_slot rfl rfl rfl rfl)
      | refused _ _ hc =>
          exact .idle hd (by simp [hl]) ((Schedules.of_finish hc).after_slot rfl rfl rfl rfl)

theorem step_now (h : step s l = some s') : s'.c.now = l.time := (step_naps h).1

theorem now_cloned (tid : Pid) (c : Ctl) : (c.cloned tid).now = c.now := by
  unfold Ctl.cloned Ctl.spawn
  split_ifs <;> rfl

theorem pace_cloned (tid : Pid) (c : Ctl) : (c.cloned tid).pace = c.pace := by
  unfold Ctl.cloned Ctl.spawn
  split_ifs <;> rfl

theorem inCall_cloned (tid : Pid) (c : Ctl) : (c.cloned tid).inCall = c.inCall := by
  unfold Ctl.cloned Ctl.spawn
  split_ifs <;> rfl

theorem events_cloned (tid : Pid) (c : Ctl) :
    (c.cloned tid).events = c.events ++ [⟨c.now + 100, .handleSyscallBefore tid⟩] := by
  unfold Ctl.cloned Ctl.spawn
  split_ifs <;> rfl

/-- The events that `clone` and the answer to it schedule. -/
theorem mem_cloned_resched {c : Ctl} {tid p : Pid} {e : Event} :
    e ∈ ((c.cloned tid).resched p).events ↔ e ∈ c.events ∨
      e = ⟨c.now + 100, .handleSyscallBefore tid⟩ ∨
      e = ⟨c.now + c.pace, .handleSyscallBefore p⟩ := by
  show e ∈ (c.cloned tid).events ++
    [⟨(c.cloned tid).now + (c.cloned tid).pace, .handleSyscallBefore p⟩] ↔ _
  rw [events_cloned, now_cloned, pace_cloned]
  simp

/-- No event is in the past. -/
theorem step_ahead (h : step s l = some s') {e : Event} (he : e ∈ s'.c.events) :
    s'.c.now ≤ e.time := by
  obtain ⟨-, hpast, -⟩ := step_cases h
  rw [step_now h]
  cases step_books h with
  | idle _ _ hs =>
      rcases hs.entered e he with he | he
      · exact hpast e he
      · exact he.ahead
  | fired _ _ _ hs =>
      rcases hs.entered e he with he | he
      · exact hpast e (List.mem_of_mem_eraseIdx he)
      · exact he.ahead
  | dispatched _ ht hs =>
      rcases hs.entered e he with he | he
      · rw [ht.events] at he
        exact hpast e (List.mem_of_mem_eraseIdx he)
      · rw [← ht.now]
        exact he.ahead
  | cloned _ ht hs heq =>
      rw [heq, mem_cloned_resched, hs.now, ht.now] at he
      rcases he with he | rfl | rfl
      · rcases hs.entered e he with he | he
        · rw [ht.events] at he
          exact hpast e (List.mem_of_mem_eraseIdx he)
        · rw [← ht.now]
          exact he.ahead
      · exact Nat.le_add_right _ _
      · exact Nat.le_add_right _ _

theorem ahead_of_run {app : App} {env : Env} {ls : List Label}
    (hr : run (St.initial app env) ls = some s) {e : Event} (he : e ∈ s.c.events) :
    s.c.now ≤ e.time :=
  Runs.run_invariant (I := fun s => ∀ e ∈ s.c.events, s.c.now ≤ e.time)
    (fun _ _ _ _ hs _ he => step_ahead hs he) (fun _ _ => Nat.zero_le _) hr e he

/-- An event stays if another one is removed. -/
theorem mem_eraseIdx_of_ne {events : List Event} {i : ℕ} {e e' : Event} (he : e ∈ events)
    (he' : events[i]? = some e') (hne : e ≠ e') : e ∈ events.eraseIdx i := by
  obtain ⟨hi, rfl⟩ := List.getElem?_eq_some_iff.mp he'
  have hperm := (List.getElem_cons_eraseIdx_perm hi).mem_iff (a := e)
  exact (List.mem_cons.mp (hperm.mpr he)).resolve_left hne

/-- An event that does not fire stays. -/
theorem step_stays (h : step s l = some s') {e : Event}
    (he : e ∈ s.c.events ∧ ∀ τ, e.kind ≠ .selectTimeout τ) :
    (e ∈ s'.c.events ∧ ∀ τ, e.kind ≠ .selectTimeout τ) ∨
      ∃ i, l.what = .fire i ∧ s.c.events[i]? = some e := by
  obtain ⟨he, hk⟩ := he
  cases step_books h with
  | idle _ _ hs => exact .inl ⟨hs.kept e he hk, hk⟩
  | @fired i e' _ hl he' hs =>
      by_cases hne : e = e'
      · subst hne
        exact .inr ⟨i, hl, he'⟩
      · exact .inl ⟨hs.kept e (mem_eraseIdx_of_ne he he' hne) hk, hk⟩
  | @dispatched i p call c _ ht hs =>
      by_cases hne : e = ⟨l.time, .handleSyscallBefore p⟩
      · subst hne
        exact .inr ⟨i, ht.what, ht.event⟩
      · exact .inl ⟨hs.kept e (ht.events ▸ mem_eraseIdx_of_ne he ht.event hne) hk, hk⟩
  | @cloned i p call c c₁ tid _ ht hs heq =>
      by_cases hne : e = ⟨l.time, .handleSyscallBefore p⟩
      · subst hne
        exact .inr ⟨i, ht.what, ht.event⟩
      · refine .inl ⟨?_, hk⟩
        rw [heq, mem_cloned_resched]
        exact .inl (hs.kept e (ht.events ▸ mem_eraseIdx_of_ne he ht.event hne) hk)

theorem fires_punctual (h : step s l = some s') {e : Event}
    (he : ∃ i, l.what = .fire i ∧ s.c.events[i]? = some e) : s'.c.now = e.time := by
  obtain ⟨i, hl, he⟩ := he
  rw [step_now h, fired_time h hl he]

/-- The scheduled events, without the timers of `select`, which are cancelled. -/
def agenda : Runs.Agenda step Event where
  now s := s.c.now
  pending s e := e ∈ s.c.events ∧ ∀ τ, e.kind ≠ .selectTimeout τ
  due e := e.time
  fires s l e := ∃ i, l.what = .fire i ∧ s.c.events[i]? = some e
  ahead h he := step_ahead h he.1
  stays h he := step_stays h he
  punctual h he := fires_punctual h he

/-! ### `nanosleep` -/

/-- A `nanosleep` sets its timer. -/
theorem step_nanosleep {p : Pid} {req : Timespec} (h : step s l = some s')
    (hd : dispatched s l = some (p, .nanosleep req)) :
    ⟨l.time + req.toNs.toNat, .nanosleep ⟨p, s.c.nextAct⟩⟩ ∈ s'.c.events := by
  obtain ⟨i, t, c₁, th, res, s₂, hdet⟩ := step_dispatched h hd
  have hcaught : c₁.now = l.time ∧ c₁.nextAct = s.c.nextAct := by
    cases hdet.caught <;> exact ⟨rfl, rfl⟩
  obtain ⟨hnow, hnext⟩ := hcaught
  have hsleep := hdet.answers.handled.sleeps hdet.processed.ne_error
  refine hdet.processed.schedules.kept _ ?_ (by simp)
  rw [hsleep, ← hnow, ← hnext]
  exact List.mem_append_right _ (List.mem_singleton_self _)

/-- The timer of a `nanosleep` answers the call with 0. -/
theorem step_slept {i t : ℕ} {τ : Task} (h : step s l = some s') (hl : l.what = .fire i)
    (he : s.c.events[i]? = some ⟨t, .nanosleep τ⟩) :
    Finish τ τ.thread 0 ((s.moveTo l).c.removeEvent i) s'.c := by
  obtain ⟨-, -, ho⟩ := step_cases h
  rw [hl] at ho
  cases ho with
  | @fired _ e' _ he' _ hf =>
      have he' : s.c.events[i]? = some e' := he'
      obtain rfl := Option.some.inj (he.symm.trans he')
      cases hf with
      | slept hc => exact hc
  | connectIdle hwhat => rcases hwhat with hwhat | hwhat <;> cases hwhat

/-- The sleep `τ` of `s` is over in the next state: its call is answered with 0, and its thread is
scheduled for the time at which the answer has been processed. -/
def WakesUp (τ : Task) (s : St) (l : Label) (s' : St) : Prop :=
  (∃ i, l.what = .fire i ∧ Finish τ τ.thread 0 ((s.moveTo l).c.removeEvent i) s'.c) ∧
    ⟨l.time + s'.c.pace, .handleSyscallBefore τ.thread⟩ ∈ s'.c.events

/-- The timer of a `nanosleep` fires exactly when its time is over, or it is not over yet. -/
theorem nanosleep_punctual {after : List Label} {s₁ : St} {p : Pid} {req : Timespec}
    (hd : dispatched s l = some (p, .nanosleep req)) (hs : step s l = some s₁)
    (hafter : run s₁ after = some s') :
    (⟨l.time + req.toNs.toNat, .nanosleep ⟨p, s.c.nextAct⟩⟩ ∈ s'.c.events ∧
        s'.c.now ≤ l.time + req.toNs.toNat) ∨
      ∃ asleep l' rest s₂ s₃ i, after = asleep ++ l' :: rest ∧ run s₁ asleep = some s₂ ∧
        step s₂ l' = some s₃ ∧ l'.time = l.time + req.toNs.toNat ∧ l'.what = .fire i ∧
        s₂.c.events[i]? = some ⟨l'.time, .nanosleep ⟨p, s.c.nextAct⟩⟩ ∧ run s₃ rest = some s' := by
  have hahead : agenda.Ahead s₁ := fun e he => step_ahead hs he.1
  have htimer : agenda.pending s₁ ⟨l.time + req.toNs.toNat, .nanosleep ⟨p, s.c.nextAct⟩⟩ :=
    ⟨step_nanosleep hs hd, by simp⟩
  rcases agenda.run_fires hahead htimer hafter with
    ⟨hpend, hnow⟩ | ⟨asleep, l', rest, s₂, s₃, hls, hasleep, hs', ⟨i, hl, he⟩, htime, hrest⟩
  · exact .inl ⟨hpend.1, hnow⟩
  · have htime : l'.time = l.time + req.toNs.toNat := (step_now hs').symm.trans htime
    rw [← htime] at he
    exact .inr ⟨asleep, l', rest, s₂, s₃, i, hls, hasleep, hs', htime, hl, he, hrest⟩

/-- A thread whose timer is set is blocked in its `nanosleep`. -/
theorem Lively.asleep {p : Pid} {t k : ℕ} (h : Lively (· = p) s)
    (he : ⟨t, .nanosleep ⟨p, k⟩⟩ ∈ s.c.events) : s.c.inCall p = some k := by
  have harm : Armed s.c .sleep ⟨p, k⟩ := .sleep (pend_ne_zero_iff.mpr ⟨_, he, rfl⟩) rfl
  exact h.continued.awaited (w := .sleep) rfl (.sleep harm)

/-- A `nanosleep` blocks its thread until its time is over, and is answered with 0 exactly then. -/
theorem run_nanosleep {app : App} {env : Env} {before after : List Label} {s₁ : St} {p : Pid}
    {req : Timespec} (hbefore : run (St.initial app env) before = some s)
    (hd : dispatched s l = some (p, .nanosleep req)) (hs : step s l = some s₁)
    (hafter : run s₁ after = some s')
    (hsteady : Runs.Meets step (SteadyFor (· = p)) (St.initial app env) (before ++ l :: after)) :
    (s'.c.inCall p = some s.c.nextAct ∧ s'.c.now ≤ l.time + req.toNs.toNat) ∨
      ∃ asleep l' rest s₂ s₃, after = asleep ++ l' :: rest ∧ run s₁ asleep = some s₂ ∧
        s₂.c.inCall p = some s.c.nextAct ∧ step s₂ l' = some s₃ ∧
        l'.time = l.time + req.toNs.toNat ∧ WakesUp ⟨p, s.c.nextAct⟩ s₂ l' s₃ ∧
        run s₃ rest = some s' := by
  obtain ⟨hkb, hk⟩ := (Runs.meets_append hbefore).mp hsteady
  obtain ⟨hkl, hka⟩ := (Runs.meets_cons hs).mp hk
  have hI₁ : Lively (· = p) s₁ := ((Lively.initial _ app env).run hkb hbefore).step hkl hs
  rcases nanosleep_punctual hd hs hafter with
    ⟨htimer, hnow⟩ | ⟨asleep, l', rest, s₂, s₃, i, rfl, hasleep, hs', htime, hl, he, hrest⟩
  · exact .inl ⟨(hI₁.run hka hafter).asleep htimer, hnow⟩
  · obtain ⟨hks, -⟩ := (Runs.meets_append hasleep).mp hka
    have hf := step_slept hs' hl he
    have hblocked := (hI₁.run hks hasleep).asleep (List.mem_of_getElem? he)
    refine .inr ⟨asleep, l', rest, s₂, s₃, rfl, hasleep, hblocked, hs', htime, ⟨⟨i, hl, hf⟩, ?_⟩,
      hrest⟩
    rw [← step_now hs']
    exact hf.scheduled

/-- A thread that sleeps for 200 nanoseconds. -/
def napEnv : Env := .script [.entry (.nanosleep ⟨0, 200⟩), .exit 0] []

theorem run_nanosleep_nap :
    ∃ s₁ s', step (St.initial {} napEnv) ⟨0, .fire 0⟩ = some s₁ ∧
      run s₁ [⟨200, .fire 0⟩] = some s' ∧
      ((s'.c.inCall 1 = some 0 ∧ s'.c.now ≤ 200) ∨
        ∃ asleep l' rest s₂ s₃, [⟨200, .fire 0⟩] = asleep ++ l' :: rest ∧
          run s₁ asleep = some s₂ ∧ s₂.c.inCall 1 = some 0 ∧ step s₂ l' = some s₃ ∧
          l'.time = 200 ∧ WakesUp ⟨1, 0⟩ s₂ l' s₃ ∧ run s₃ rest = some s') := by
  have hrun : (run (St.initial {} napEnv) [⟨0, .fire 0⟩, ⟨200, .fire 0⟩]).isSome = true := by
    decide +kernel
  have hcheck : Runs.Meets step (fun s l => isSteady s l = true) (St.initial {} napEnv)
      [⟨0, .fire 0⟩, ⟨200, .fire 0⟩] := by decide +kernel
  obtain ⟨s', hr⟩ := Option.isSome_iff_exists.mp hrun
  obtain ⟨s₁, hs, hafter⟩ := Runs.run_cons.mp hr
  have hd : dispatched (St.initial {} napEnv) ⟨0, .fire 0⟩ = some (1, .nanosleep ⟨0, 200⟩) := by
    decide +kernel
  have hsteady : Runs.Meets step (SteadyFor (· = 1)) (St.initial {} napEnv)
      ([] ++ ⟨0, .fire 0⟩ :: [⟨200, .fire 0⟩]) :=
    hcheck.mono fun _ _ h => (Steady.of_isSteady h).steadyFor
  exact ⟨s₁, s', hs, hafter, run_nanosleep (Runs.run_nil _) hd hs hafter hsteady⟩

end Grail
