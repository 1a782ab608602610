import Grail.StepSpecs

/-! # What completing a call leaves alone

Completing or passing on a call, rescheduling a thread and all that is made of these touch the
threads, the scheduled resumptions and the history of effects, nothing else of the control state
(`Calm`): the callback slots, the timers, the `already_handled` flags and the dispatches so far
stay (`Rests`).

`dispatched s l` is the system call that the step `l` dispatches, `pend c kind` the number of
scheduled events of a kind. -/

namespace Grail

open Programs

/-! ### Scheduled events -/

/-- The number of scheduled events of a kind. -/
def pend (c : Ctl) (kind : EventKind) : ℕ := c.events.countP fun e => e.kind = kind

theorem pend_schedule (delay : ℕ) (kind : EventKind) (c : Ctl) (k : EventKind) :
    pend (c.schedule delay kind) k = pend c k + if kind = k then 1 else 0 := by
  by_cases h : kind = k <;> simp [pend, Ctl.schedule, h]

theorem pend_resched (p : Pid) (c : Ctl) (k : EventKind) :
    pend (c.resched p) k = pend c k + if .handleSyscallBefore p = k then 1 else 0 :=
  pend_schedule _ _ _ k

theorem pend_removeEvent {c : Ctl} {i : ℕ} {e : Event} (h : c.events[i]? = some e)
    (k : EventKind) : pend (c.removeEvent i) k + (if e.kind = k then 1 else 0) = pend c k := by
  obtain ⟨hi, rfl⟩ := List.getElem?_eq_some_iff.mp h
  have hperm := (List.getElem_cons_eraseIdx_perm hi).countP_eq fun e => e.kind = k
  rw [List.countP_cons] at hperm
  simpa [pend, Ctl.removeEvent] using hperm

theorem pend_ne_zero {c : Ctl} {i : ℕ} {e : Event} (h : c.events[i]? = some e) :
    pend c e.kind ≠ 0 := by
  have hp := pend_removeEvent h e.kind
  rw [if_pos rfl] at hp
  omega

theorem pend_cancelTimeout (τ : Task) (c : Ctl) (k : EventKind) :
    pend (c.cancelTimeout τ) k = if k = .selectTimeout τ then 0 else pend c k := by
  simp only [pend, Ctl.cancelTimeout, List.countP_filter]
  split_ifs with hk
  · simp [hk]
  · refine List.countP_congr fun e _ => ?_
    simp only [Bool.and_eq_true, decide_eq_true_eq, and_iff_left_iff_imp]
    rintro rfl
    exact hk

theorem mem_removeEvent {c : Ctl} {i : ℕ} {e : Event} (h : e ∈ (c.removeEvent i).events) :
    e ∈ c.events := List.mem_of_mem_eraseIdx h

/-- The timers that the emulator waits for. -/
def EventKind.isTimer : EventKind → Bool
  | .nanosleep _ => true
  | .selectTimeout _ => true
  | _ => false

/-! ### Frames -/

/-- No callback, timer or flag differs, no dispatch begins. -/
structure Rests (c c' : Ctl) : Prop where
  recvCallback : c'.recvCallback = c.recvCallback
  sendCallback : c'.sendCallback = c.sendCallback
  acceptCallback : c'.acceptCallback = c.acceptCallback
  connectCallback : c'.connectCallback = c.connectCallback
  connecting : c'.connecting = c.connecting
  nlCallback : c'.nlCallback = c.nlCallback
  alreadyHandled : c'.alreadyHandled = c.alreadyHandled
  acts : c'.acts = c.acts
  nextAct : c'.nextAct = c.nextAct
  timers : ∀ kind, kind.isTimer = true → pend c' kind = pend c kind
  inCall : ∀ p k, c'.inCall p = some k → c.inCall p = some k

/-- Only the threads, the resumptions and the history of effects differ. -/
structure Calm (c c' : Ctl) : Prop extends Rests c c' where
  app : c'.app = c.app
  env : c'.env = c.env
  pid : c'.pid = c.pid
  now : c'.now = c.now
  task : c'.task = c.task

namespace Rests

variable {c c' c'' : Ctl}

theorem refl (c : Ctl) : Rests c c :=
  ⟨rfl, rfl, rfl, rfl, rfl, rfl, rfl, rfl, rfl, fun _ _ => rfl, fun _ _ h => h⟩

/-- Other fields may differ. -/
theorem of_fields (hr : c'.recvCallback = c.recvCallback) (hs : c'.sendCallback = c.sendCallback)
    (ha : c'.acceptCallback = c.acceptCallback) (hc : c'.connectCallback = c.connectCallback)
    (hcc : c'.connecting = c.connecting) (hn : c'.nlCallback = c.nlCallback)
    (hh : c'.alreadyHandled = c.alreadyHandled) (hacts : c'.acts = c.acts)
    (hnext : c'.nextAct = c.nextAct) (he : c'.events = c.events) (hi : c'.inCall = c.inCall) :
    Rests c c' :=
  ⟨hr, hs, ha, hc, hcc, hn, hh, hacts, hnext, fun _ _ => congrArg (List.countP _) he, fun _ _ h => hi ▸ h⟩

theorem trans (h : Rests c c') (h' : Rests c' c'') : Rests c c'' where
  recvCallback := h'.recvCallback.trans h.recvCallback
  sendCallback := h'.sendCallback.trans h.sendCallback
  acceptCallback := h'.acceptCallback.trans h.acceptCallback
  connectCallback := h'.connectCallback.trans h.connectCallback
  connecting := h'.connecting.trans h.connecting
  nlCallback := h'.nlCallback.trans h.nlCallback
  alreadyHandled := h'.alreadyHandled.trans h.alreadyHandled
  acts := h'.acts.trans h.acts
  nextAct := h'.nextAct.trans h.nextAct
  timers kind hk := (h'.timers kind hk).trans (h.timers kind hk)
  inCall p k hk := h.inCall p k (h'.inCall p k hk)

/-- An event that is no timer is scheduled. -/
theorem schedule (delay : ℕ) {kind : EventKind} (hk : kind.isTimer = false) (c : Ctl) :
    Rests c (c.schedule delay kind) := by
  refine ⟨rfl, rfl, rfl, rfl, rfl, rfl, rfl, rfl, rfl, fun k ht => ?_, fun _ _ h => h⟩
  rw [pend_schedule, if_neg, Nat.add_zero]
  rintro rfl
  rw [hk] at ht
  cases ht

/-- An event that is no timer is removed. -/
theorem removeEvent {i : ℕ} {e : Event} (he : c.events[i]? = some e)
    (hk : e.kind.isTimer = false) : Rests c (c.removeEvent i) := by
  refine ⟨rfl, rfl, rfl, rfl, rfl, rfl, rfl, rfl, rfl, fun k ht => ?_, fun _ _ h => h⟩
  rw [← pend_removeEvent he k, if_neg, Nat.add_zero]
  intro h
  rw [← h, hk] at ht
  cases ht

theorem setPid (p : Pid) (c : Ctl) : Rests c (c.setPid p) :=
  .of_fields rfl rfl rfl rfl rfl rfl rfl rfl rfl rfl rfl

theorem setNow (t : ℕ) (c : Ctl) : Rests c (c.setNow t) :=
  .of_fields rfl rfl rfl rfl rfl rfl rfl rfl rfl rfl rfl

theorem onTask (τ : Task) (c : Ctl) : Rests c (c.onTask τ) :=
  .of_fields rfl rfl rfl rfl rfl rfl rfl rfl rfl rfl rfl

end Rests

namespace Calm

variable {c c' c'' : Ctl} {p : Pid} {v : ℤ} {τ : Task}

theorem refl (c : Ctl) : Calm c c := ⟨Rests.refl c, rfl, rfl, rfl, rfl, rfl⟩

theorem trans (h : Calm c c') (h' : Calm c' c'') : Calm c c'' where
  toRests := h.toRests.trans h'.toRests
  app := h'.app.trans h.app
  env := h'.env.trans h.env
  pid := h'.pid.trans h.pid
  now := h'.now.trans h.now
  task := h'.task.trans h.task

theorem of_completes (h : Completes p v c c') : Calm c c' := by
  cases h <;> exact ⟨.of_fields rfl rfl rfl rfl rfl rfl rfl rfl rfl rfl rfl,
    rfl, rfl, rfl, rfl, rfl⟩

theorem of_vanishes (h : Vanishes p c c') : Calm c c' := by
  cases h
  exact ⟨.of_fields rfl rfl rfl rfl rfl rfl rfl rfl rfl rfl rfl,
    rfl, rfl, rfl, rfl, rfl⟩

theorem of_passes (h : Passes p c c') : Calm c c' := by
  cases h <;> exact ⟨.of_fields rfl rfl rfl rfl rfl rfl rfl rfl rfl rfl rfl,
    rfl, rfl, rfl, rfl, rfl⟩

theorem of_caught (h : Caught p c c') : Calm c c' := by
  cases h <;> exact ⟨.of_fields rfl rfl rfl rfl rfl rfl rfl rfl rfl rfl rfl,
    rfl, rfl, rfl, rfl, rfl⟩

theorem schedule (delay : ℕ) {kind : EventKind} (hk : kind.isTimer = false) (c : Ctl) :
    Calm c (c.schedule delay kind) := ⟨Rests.schedule delay hk c, rfl, rfl, rfl, rfl, rfl⟩

theorem of_prelude (h : Prelude p c c') : Calm c c' := by
  cases h with
  | none => exact refl c
  | close => exact schedule _ rfl c
  | origRax => exact ⟨.of_fields rfl rfl rfl rfl rfl rfl rfl rfl rfl rfl rfl,
    rfl, rfl, rfl, rfl, rfl⟩

theorem resched (p : Pid) (c : Ctl) : Calm c (c.resched p) := by
  have hr : Rests (c.note .resched p) ((c.note .resched p).schedule
      (c.app.syscallProcessingTime + c.pollLoopDetector.getDelay) (.handleSyscallBefore p)) :=
    Rests.schedule _ rfl _
  refine ⟨⟨rfl, rfl, rfl, rfl, rfl, rfl, rfl, rfl, rfl, hr.timers, ?_⟩, rfl, rfl, rfl, rfl, rfl⟩
  intro q k hk
  by_cases hq : q = p
  · subst hq
    simp [Ctl.resched] at hk
  · simpa [Ctl.resched, hq] using hk

theorem exited (p : Pid) (th : Tracee) (handled : Bool) (c : Ctl) :
    Calm c (c.exited p th handled) := ⟨.of_fields rfl rfl rfl rfl rfl rfl rfl rfl rfl rfl rfl,
    rfl, rfl, rfl, rfl, rfl⟩

theorem cloned (tid : Pid) (c : Ctl) : Calm c (c.cloned tid) := by
  have hs : Calm c { c.spawn tid with tidVector := c.tidVector ++ [tid] } := by
    unfold Ctl.spawn
    split_ifs <;> exact ⟨.of_fields rfl rfl rfl rfl rfl rfl rfl rfl rfl rfl rfl,
    rfl, rfl, rfl, rfl, rfl⟩
  exact hs.trans (schedule 100 rfl _)

/-- What happens on behalf of `τ` is calm if its body is. -/
theorem onBehalf {c₁ : Ctl} (h : Calm (c.onTask τ) c₁) : Calm c (c₁.onTask c.task) where
  toRests := (Rests.onTask τ c).trans (h.toRests.trans (Rests.onTask c.task c₁))
  app := h.app
  env := h.env
  pid := h.pid
  now := h.now
  task := rfl

theorem of_finish (h : Finish τ p v c c') : Calm c c' := by
  obtain ⟨c₁, hc₁, rfl⟩ := h
  have h := (of_completes hc₁).trans (resched τ.thread c₁)
  exact onBehalf h

theorem of_reads (h : Reads τ c c') : Calm c c' := by
  cases h with
  | finish h => exact of_finish h
  | @vanish c₁ h =>
      have h := (of_vanishes h).trans (resched τ.thread c₁)
      exact onBehalf h

end Calm

theorem Processed.calm {p : Pid} {s s' : St} {res : SyscallHandlerStatusCode}
    (h : Processed p s res s') : Calm s.c s'.c := by
  cases h with
  | resumed => exact Calm.resched p s.c
  | waits => exact Calm.refl s.c
  | quits => exact Calm.refl s.c

theorem Processed.d {p : Pid} {s s' : St} {res : SyscallHandlerStatusCode}
    (h : Processed p s res s') : s'.d = s.d := by
  cases h <;> rfl

theorem not_resumes_manual : ¬ SyscallHandlerStatusCode.manual.resumes := nofun

theorem not_resumes_delayed : ¬ SyscallHandlerStatusCode.delayed.resumes := nofun

theorem not_resumes_systemExit : ¬ SyscallHandlerStatusCode.systemExit.resumes := nofun

theorem Processed.ne_error {p : Pid} {s s' : St} {res : SyscallHandlerStatusCode}
    (h : Processed p s res s') : res ≠ .error := by
  rintro rfl
  cases h with
  | resumed h => rcases h with h | h <;> cases h
  | waits h => rcases h with h | h <;> cases h

theorem Processed.resumed_eq {p : Pid} {s s' : St} {res : SyscallHandlerStatusCode}
    (h : Processed p s res s') (hres : res.resumes) : s' = { s with c := s.c.resched p } := by
  cases h with
  | resumed => rfl
  | waits hw =>
      rcases hw with rfl | rfl
      · exact absurd hres not_resumes_manual
      · exact absurd hres not_resumes_delayed
  | quits => exact absurd hres not_resumes_systemExit

theorem Processed.waits_eq {p : Pid} {s s' : St} {res : SyscallHandlerStatusCode}
    (h : Processed p s res s') (hres : ¬ res.resumes) : s' = s := by
  cases h with
  | resumed h => exact absurd h hres
  | waits => rfl
  | quits => rfl

/-! ### The application -/

theorem NlWork.app {nl : NlId} {s s' : St} (h : NlWork nl s s') : s'.c.app = s.c.app := by
  induction h with
  | refl => rfl
  | tail _ h ih =>
      cases h with
      | push => exact ih
      | route => exact ih
      | notify _ _ _ hc => exact (Calm.of_finish hc).app.trans ih

theorem Reads.app {τ : Task} {c c' : Ctl} (h : Reads τ c c') : c'.app = c.app := (Calm.of_reads h).app

/-- No handler changes the application or its node. -/
theorem Handled.app {call : Syscall} {res : SyscallHandlerStatusCode} {s s' : St}
    (h : Handled call s res s') (hres : res ≠ .error) : s'.c.app = s.c.app := by
  cases h with
  | error => exact absurd rfl hres
  | answered _ _ _ _ hp hc => exact ((Calm.of_prelude hp).trans (Calm.of_completes hc)).app
  | listened _ _ _ _ _ hc => exact (Calm.of_completes hc).app
  | accepted _ _ _ _ _ hc =>
      rw [St.returning_c]
      exact (Calm.of_completes hc).app
  | nlSend _ _ hw hc => exact (Calm.of_completes hc).app.trans hw.app
  | nlOther _ _ _ _ hc => exact (Calm.of_completes hc).app
  | passed _ _ _ _ hc => exact (Calm.of_passes hc).app
  | @cloned c₁ th _ hc _ _ => exact ((Calm.of_passes hc).trans (Calm.cloned th.rax c₁)).app
  | recvNow _ _ _ _ hc => exact hc.app
  | connectNow _ _ _ _ hc => exact (Calm.of_finish hc).app
  | selectNow _ _ _ _ hc => exact (Calm.of_completes hc).app
  | @selectWait args c₁ c' _ _ ha _ ht =>
      have h₁ : c₁.app = s.c.app := by rw [ha.frame]
      cases ht with
      | none => exact h₁
      | timer => exact h₁
  | _ => rfl

theorem step_app {s s' : St} {l : Label} (h : step s l = some s') : s'.c.app = s.c.app := by
  obtain ⟨-, -, ho⟩ := step_cases h
  generalize l.what = what at ho
  cases ho with
  | @fired i e _ _ _ hf =>
      obtain ⟨t, kind⟩ := e
      cases hf with
      | @dispatched p c₁ th res s₂ _ hc hth ha hp =>
          have hcall : s₂.c.app = c₁.app := ha.handled.app hp.ne_error
          exact hp.calm.app.trans (hcall.trans (Calm.of_caught hc).app)
      | timeout _ hc => exact (Calm.of_finish hc).app
      | slept hc => exact (Calm.of_finish hc).app
      | _ => rfl
  | receivedRead _ _ _ hc => exact hc.app
  | receivedSelect _ _ _ hc => exact (Calm.of_finish hc).app
  | sendableSelect _ _ _ hc => exact (Calm.of_finish hc).app
  | incomingSelect _ _ _ _ _ hc => exact (Calm.of_finish hc).app
  | @incomingAccept sock addr rx tx τ fd fd' out d' c₁ _ _ _ _ hc =>
      exact ((Calm.of_completes hc).trans (Calm.resched τ.thread c₁)).app
  | connected _ _ hc => exact (Calm.of_finish hc).app
  | refused _ _ hc => exact (Calm.of_finish hc).app
  | _ => rfl

/-! ### The call that a step dispatches -/

/-- The system call that `HandleSyscallBefore(p)` catches. -/
def Ctl.catches (p : Pid) (c : Ctl) : Option Syscall :=
  match c.threads p, c.env.wait c.waits with
  | some th, .stopped next _ =>
      if th.phase = .exit then some next
      else if th.origRax = .exit then none
      else some th.origRax
  | _, _ => none

/-- The thread that `l` resumes. -/
def resumes (s : St) (l : Label) : Option Pid :=
  match l.what with
  | .fire i =>
      match s.c.events[i]? with
      | some ⟨_, .handleSyscallBefore p⟩ => some p
      | _ => none
  | _ => none

/-- The system call that `l` dispatches, with its thread. -/
def dispatched (s : St) (l : Label) : Option (Pid × Syscall) :=
  (resumes s l).bind fun p => (s.c.catches p).map (Prod.mk p)

theorem Caught.catches {p : Pid} {c c₁ : Ctl} (h : Caught p c c₁) {th : Tracee}
    (hth : c₁.threads p = some th) : c.catches p = some th.origRax := by
  cases h with
  | entry hp hph hw =>
      simp only [Ctl.toEntry, Ctl.setThread, Function.update_self, Option.some.injEq] at hth
      subst hth
      simp [Ctl.catches, hp, hw, hph, Tracee.origRax]
  | exit hp hph hx hw =>
      simp only [Ctl.toExit, Ctl.setThread, Function.update_self, Option.some.injEq] at hth
      subst hth
      simp only [Ctl.catches, hp, hw, hph, reduceCtorEq, if_false, if_neg hx]
      rfl

/-- No call is caught when the thread ends. -/
theorem catches_gone {p : Pid} {c : Ctl} {th : Tracee} (hth : c.threads p = some th)
    (hx : th.phase = .entry ∧ th.origRax = .exit ∨ c.env.wait c.waits = .exited) :
    c.catches p = none := by
  rcases hx with ⟨hph, hx⟩ | hw
  · cases hw : c.env.wait c.waits <;> simp [Ctl.catches, hth, hw, hph, hx]
  · simp [Ctl.catches, hth, hw]

theorem resumes_eq {s : St} {l : Label} {i : ℕ} {e : Event} {p : Pid} (hl : l.what = .fire i)
    (he : s.c.events[i]? = some e) (hk : e.kind = .handleSyscallBefore p) :
    resumes s l = some p := by
  obtain ⟨t, kind⟩ := e
  subst hk
  simp only [resumes, hl, he]

theorem dispatched_eq {s : St} {l : Label} {p : Pid} {call : Syscall}
    (hr : resumes s l = some p) (hc : s.c.catches p = some call) :
    dispatched s l = some (p, call) := by
  simp [dispatched, hr, hc]

/-- A step that dispatches `call`, in detail. -/
structure Dispatches (s : St) (l : Label) (p : Pid) (call : Syscall) (s' : St) (i : ℕ) (t : ℕ)
    (c₁ : Ctl) (th : Tracee) (res : SyscallHandlerStatusCode) (s₂ : St) : Prop where
  what : l.what = .fire i
  event : s.c.events[i]? = some ⟨t, .handleSyscallBefore p⟩
  caught : Caught p (((s.moveTo l).c.removeEvent i).setPid p) c₁
  tracee : c₁.threads p = some th
  origRax : th.origRax = call
  answers : Answers call ⟨c₁.dispatch p th, s.d⟩ res s₂
  processed : Processed p s₂ res s'

theorem step_dispatched {s s' : St} {l : Label} {p : Pid} {call : Syscall}
    (h : step s l = some s') (hd : dispatched s l = some (p, call)) :
    ∃ i t c₁ th res s₂, Dispatches s l p call s' i t c₁ th res s₂ := by
  obtain ⟨q, hq, hcatch⟩ := Option.bind_eq_some_iff.mp hd
  obtain ⟨call', hcatch, he⟩ := Option.map_eq_some_iff.mp hcatch
  cases he
  obtain ⟨-, -, h⟩ := step_cases h
  generalize hl : l.what = what at h
  cases h with
  | @fired i e _ hev _ hf =>
      obtain ⟨t, kind⟩ := e
      have hev : s.c.events[i]? = some ⟨t, kind⟩ := hev
      simp only [resumes, hl, hev] at hq
      cases hf with
      | gone hth hx =>
          cases hq
          have hnone : s.c.catches p = none := catches_gone hth hx
          rw [hnone] at hcatch
          cases hcatch
      | @dispatched p c₁ th res s₂ _ hc hth hh hp =>
          cases hq
          have hcall : s.c.catches p = some th.origRax := hc.catches hth
          rw [hcatch, Option.some.injEq] at hcall
          exact ⟨i, t, c₁, th, res, s₂, hl, hev, hc, hth, hcall.symm, hcall ▸ hh, hp⟩
      | timeoutStale => cases hq
      | timeout => cases hq
      | slept => cases hq
      | removed => cases hq
  | connectIdle hw => rcases hw with rfl | rfl <;> simp [resumes, hl] at hq
  | _ => simp [resumes, hl] at hq

/-- The step `l` calls the handler of `call`, a call of thread `p`, in the state `s₁`. -/
inductive Handles (s : St) (l : Label) (p : Pid) : Syscall → St → Prop
  | mk {i t : ℕ} {c₁ : Ctl} {th : Tracee} : l.what = .fire i →
      s.c.events[i]? = some ⟨t, .handleSyscallBefore p⟩ →
      Caught p (((s.moveTo l).c.removeEvent i).setPid p) c₁ → c₁.threads p = some th →
      Handles s l p th.origRax ⟨c₁.dispatch p th, s.d⟩

/-- The handler returns, and its status is processed. -/
def RunsHandler (s : St) (l : Label) (p : Pid) (call : Syscall) (s' : St) : Prop :=
  ∃ s₁ res s₂, Handles s l p call s₁ ∧ (handle call).run s₁ = .ok (res, s₂) ∧ Processed p s₂ res s'

theorem dispatchSyscall_runs {s : St} {p : Pid} :
    wp (dispatchSyscall p) (fun _ s' => ∃ th res s₂, s.c.threads p = some th ∧
      (handle th.origRax).run ⟨s.c.dispatch p th, s.d⟩ = .ok (res, s₂) ∧ Processed p s₂ res s') s := by
  unfold dispatchSyscall
  simp only [wp_bind, wp_get]
  cases hth : s.c.threads p with
  | none => simp
  | some th =>
      simp only [wp_bind, wp_modifyCtl]
      intro res s₂ hrun
      exact wp_processed.mono fun _ s' hs' => ⟨th, res, s₂, rfl, hrun, hs'⟩

/-- A step that dispatches a call runs its handler. -/
theorem step_handles {s s' : St} {l : Label} {p : Pid} {call : Syscall}
    (h : step s l = some s') (hd : dispatched s l = some (p, call)) : RunsHandler s l p call s' := by
  obtain ⟨q, hq, hcatch⟩ := Option.bind_eq_some_iff.mp hd
  obtain ⟨call', hcatch, he⟩ := Option.map_eq_some_iff.mp hcatch
  cases he
  obtain ⟨time, what⟩ := l
  obtain ⟨i, t, rfl, hev⟩ : ∃ i t, what = .fire i ∧
      s.c.events[i]? = some ⟨t, .handleSyscallBefore p⟩ := by
    unfold resumes at hq
    split at hq
    next i hw =>
      split at hq
      next t q he =>
        cases hq
        exact ⟨i, t, hw, he⟩
      next => cases hq
    next => cases hq
  -- the handler runs after the wait
  have hm : wp (emulate ⟨time, .fire i⟩) (fun _ s' => RunsHandler s ⟨time, .fire i⟩ p call s') s := by
    unfold emulate advance occur fire
    simp only [wp_bind, wp_get, wp_ite, wp_throw, wp_modifyCtl, implies_true, and_true]
    intro hl
    have hev' : ((s.c.setNow time).events)[i]? = some ⟨t, .handleSyscallBefore p⟩ := hev
    simp only [hev', wp_ite, wp_throw, wp_bind, wp_modifyCtl, implies_true, true_and, runEvent,
      handleSyscallBefore]
    intro ht
    have caught : ∀ c₁, Caught p (((s.moveTo ⟨time, .fire i⟩).c.removeEvent i).setPid p) c₁ →
        wp (dispatchSyscall p) (fun _ s' => RunsHandler s ⟨time, .fire i⟩ p call s')
          ⟨c₁, s.d⟩ := by
      intro c₁ hc
      refine dispatchSyscall_runs.mono ?_
      rintro - s' ⟨th, res, s₂, hth, hrun, hp⟩
      have hcall : s.c.catches p = some th.origRax := hc.catches hth
      rw [hcatch, Option.some.injEq] at hcall
      subst hcall
      exact ⟨_, res, s₂, .mk rfl hev hc hth, hrun, hp⟩
    refine wp_waitForSyscall ?_ ?_ ?_
    · intro th hth hx
      have hnone : s.c.catches p = none := catches_gone hth hx
      rw [hcatch] at hnone
      cases hnone
    · intro th next retval hth hp hx hw
      exact ⟨fun h => absurd h (by decide), fun _ => caught _ (.exit hth hp hx hw)⟩
    · intro th next retval hth hp hw
      exact ⟨fun h => absurd h (by decide), fun _ => caught _ (.entry hth hp hw)⟩
  unfold step at h
  split at h
  next a s₁ hr =>
    cases h
    exact hm.elim hr
  next => cases h

end Grail
