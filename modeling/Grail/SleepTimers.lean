import Grail.Continuations

/-! # The timers of sleeping threads

A `nanosleep` schedules an event for the time at which it ends.  `Naps` lists what a step can do
with these events: nothing, fire one, or schedule one for the call that it dispatches.

`SleptUntil p t c` says that `p` sleeps until `t` at least, or that `t` has passed.  If the thread
whose call is dispatched is awake, a step keeps this, and adds the duration of the `nanosleep` that
it dispatches (`SleptUntil.step`). -/

namespace Grail

open Programs

/-- The event ends a `nanosleep`. -/
def EventKind.isSleep : EventKind → Bool
  | .nanosleep _ => true
  | _ => false

/-- The time and the timers of sleeping threads are the same. -/
structure Dozes (c c' : Ctl) : Prop where
  now : c'.now = c.now
  timers : ∀ e, e.kind.isSleep = true → (e ∈ c'.events ↔ e ∈ c.events)

namespace Dozes

variable {c c₁ c' : Ctl} {p : Pid} {v : ℤ} {τ : Task}

theorem of_fields (hn : c'.now = c.now) (he : c'.events = c.events) : Dozes c c' :=
  ⟨hn, fun _ _ => by rw [he]⟩

theorem refl (c : Ctl) : Dozes c c := of_fields rfl rfl

theorem trans (h : Dozes c c₁) (h' : Dozes c₁ c') : Dozes c c' where
  now := h'.now.trans h.now
  timers e he := (h'.timers e he).trans (h.timers e he)

theorem of_completes (h : Completes p v c c') : Dozes c c' := by
  cases h <;> exact of_fields rfl rfl

theorem of_vanishes (h : Vanishes p c c') : Dozes c c' := by
  cases h
  exact of_fields rfl rfl

theorem of_passes (h : Passes p c c') : Dozes c c' := by
  cases h <;> exact of_fields rfl rfl

theorem of_caught (h : Caught p c c') : Dozes c c' := by
  cases h <;> exact of_fields rfl rfl

/-- An event of another kind is scheduled. -/
theorem schedule (delay : ℕ) {kind : EventKind} (hk : kind.isSleep = false) (c : Ctl) :
    Dozes c (c.schedule delay kind) := by
  refine ⟨rfl, fun e he => ?_⟩
  have hne : e ≠ ⟨c.now + delay, kind⟩ := by
    rintro rfl
    rw [hk] at he
    cases he
  simp [Ctl.schedule, hne]

/-- An event of another kind is removed. -/
theorem removeEvent {i : ℕ} {e : Event} (he : c.events[i]? = some e)
    (hk : e.kind.isSleep = false) : Dozes c (c.removeEvent i) := by
  refine ⟨rfl, fun e' he' => ?_⟩
  obtain ⟨hi, rfl⟩ := List.getElem?_eq_some_iff.mp he
  have hne : e' ≠ c.events[i] := by
    rintro rfl
    rw [hk] at he'
    cases he'
  rw [← (List.getElem_cons_eraseIdx_perm hi).mem_iff, List.mem_cons, or_iff_right hne]
  rfl

theorem of_prelude (h : Prelude p c c') : Dozes c c' := by
  cases h with
  | none => exact refl c
  | close => exact schedule _ rfl c
  | origRax => exact of_fields rfl rfl

theorem resched (p : Pid) (c : Ctl) : Dozes c (c.resched p) := by
  have hs : Dozes (c.note .resched p) ((c.note .resched p).schedule
      (c.app.syscallProcessingTime + c.pollLoopDetector.getDelay) (.handleSyscallBefore p)) :=
    schedule _ rfl _
  exact ⟨rfl, hs.timers⟩

theorem cloned (tid : Pid) (c : Ctl) : Dozes c (c.cloned tid) := by
  have hspawn : Dozes c { c.spawn tid with tidVector := c.tidVector ++ [tid] } := by
    unfold Ctl.spawn
    split_ifs <;> exact of_fields rfl rfl
  exact hspawn.trans (schedule 100 rfl _)

theorem of_finish (h : Finish τ p v c c') : Dozes c c' := by
  obtain ⟨c₁, hc, rfl⟩ := h
  have hfin := (of_completes hc).trans (resched τ.thread c₁)
  exact ⟨hfin.now, hfin.timers⟩

theorem of_reads (h : Reads τ c c') : Dozes c c' := by
  cases h with
  | finish h => exact of_finish h
  | @vanish c₁ h =>
      have hfin := (of_vanishes h).trans (resched τ.thread c₁)
      exact ⟨hfin.now, hfin.timers⟩

theorem claim (cl : SelectClosure) (c : Ctl) : Dozes c (c.claim cl) := by
  refine ⟨rfl, fun e he => ?_⟩
  have hne : e.kind ≠ .selectTimeout cl.task := by
    intro hk
    rw [hk] at he
    cases he
  simp [Ctl.claim, Ctl.cancelTimeout, Ctl.setHandled, hne]

end Dozes

section handlers

variable {s s' : St} {p : Pid} {res : SyscallHandlerStatusCode}

theorem NlWork.dozes {nl : NlId} (h : NlWork nl s s') : Dozes s.c s'.c := by
  induction h with
  | refl => exact .refl _
  | tail _ hstep ih =>
      cases hstep with
      | push => exact ih
      | route => exact ih
      | @notify cl _ _ _ _ hf =>
          have hfin := (Dozes.claim cl _).trans (.of_finish hf)
          exact ih.trans ⟨hfin.now, hfin.timers⟩

theorem Processed.dozes (h : Processed p s res s') : Dozes s.c s'.c := by
  cases h with
  | resumed => exact .resched p s.c
  | waits => exact .refl _
  | quits => exact .refl _

/-- The handlers of the other calls leave the timers as they are. -/
theorem Handled.dozes {call : Syscall} (h : Handled call s res s') (hres : res ≠ .error)
    (hcall : ∀ req, call ≠ .nanosleep req) : Dozes s.c s'.c := by
  cases h with
  | error => exact absurd rfl hres
  | answered _ _ _ _ hpre hc => exact (Dozes.of_prelude hpre).trans (.of_completes hc)
  | listened _ _ _ _ _ hc =>
      have hd := Dozes.of_completes hc
      exact ⟨hd.now, hd.timers⟩
  | accepted _ _ _ _ _ hc =>
      rw [St.returning_c]
      exact .of_completes hc
  | nlSend _ _ hw hc => exact hw.dozes.trans (.of_completes hc)
  | nlOther _ _ _ _ hc => exact .of_completes hc
  | passed _ _ _ _ hc => exact .of_passes hc
  | cloned _ hc => exact (Dozes.of_passes hc).trans (.cloned _ _)
  | recvNow _ _ _ _ hc =>
      have hd := Dozes.of_reads hc
      exact ⟨hd.now, hd.timers⟩
  | connectNow _ _ _ _ hc =>
      have hd := Dozes.of_finish hc
      exact ⟨hd.now, hd.timers⟩
  | selectNow _ _ _ _ hc => exact .of_completes hc
  | @selectWait args c₁ c' _ _ harms _ ht =>
      have harmed : Dozes s.c c₁ := by
        rw [harms.frame]
        exact .of_fields rfl rfl
      cases ht with
      | none => exact harmed
      | timer => exact harmed.trans (.schedule _ rfl _)
  | sleeping h => exact absurd h (hcall _)
  | _ => exact .of_fields rfl rfl

/-- The handler of `nanosleep` schedules its end. -/
theorem Handled.sleeps {req : Timespec} (h : Handled (.nanosleep req) s res s')
    (hres : res ≠ .error) :
    s'.c = s.c.schedule req.toNs.toNat (.nanosleep s.c.task) := by
  cases h with
  | error => exact absurd rfl hres
  | sleeping h =>
      cases h
      rfl
  | _ => contradiction

end handlers

/-! ### Steps -/

/-- What a step does with the timers of sleeping threads. -/
inductive Naps (s : St) (l : Label) (s' : St) : Prop
  | rests : (∀ p req, dispatched s l ≠ some (p, .nanosleep req)) →
      (∀ e, e.kind.isSleep = true → (e ∈ s'.c.events ↔ e ∈ s.c.events)) → Naps s l s'
  | wakes {τ : Task} : (∀ p req, dispatched s l ≠ some (p, .nanosleep req)) →
      (∀ e, e.kind.isSleep = true →
        (e ∈ s.c.events ↔ e = ⟨l.time, .nanosleep τ⟩ ∨ e ∈ s'.c.events)) → Naps s l s'
  | sleeps {req : Timespec} {τ : Task} : dispatched s l = some (τ.thread, .nanosleep req) →
      (∀ e, e.kind.isSleep = true →
        (e ∈ s'.c.events ↔ e ∈ s.c.events ∨ e = ⟨l.time + req.toNs.toNat, .nanosleep τ⟩)) →
      Naps s l s'

variable {s s' : St} {l : Label}

theorem naps_of_dozes (hd : ∀ p req, dispatched s l ≠ some (p, .nanosleep req))
    (h : Dozes (s.moveTo l).c s'.c) : s'.c.now = l.time ∧ Naps s l s' :=
  ⟨h.now, .rests hd h.timers⟩

/-- A step that dispatches a call. -/
theorem step_naps_dispatched {p : Pid} {call : Syscall} (h : step s l = some s')
    (hd : dispatched s l = some (p, call)) : s'.c.now = l.time ∧ Naps s l s' := by
  obtain ⟨i, t, c₁, th, res, s₂, hdet⟩ := step_dispatched h hd
  have hremove : Dozes (s.moveTo l).c ((s.moveTo l).c.removeEvent i) := .removeEvent hdet.event rfl
  have hpid : Dozes ((s.moveTo l).c.removeEvent i) (((s.moveTo l).c.removeEvent i).setPid p) :=
    .of_fields rfl rfl
  have hcaught := (hremove.trans hpid).trans (.of_caught hdet.caught)
  have hstart : Dozes (s.moveTo l).c (c₁.dispatch p th) := ⟨hcaught.now, hcaught.timers⟩
  have hne := hdet.processed.ne_error
  by_cases hcall : ∃ req, call = .nanosleep req
  · obtain ⟨req, rfl⟩ := hcall
    have hsched := hdet.answers.handled.sleeps hne
    have hpro := hdet.processed.dozes
    rw [hsched] at hpro
    refine ⟨hpro.now.trans hstart.now, @Naps.sleeps _ _ _ req ⟨p, c₁.nextAct⟩ hd fun e he => ?_⟩
    have hnow : (c₁.dispatch p th).now = l.time := hstart.now
    rw [hpro.timers e he, ← hnow]
    simp only [Ctl.schedule, List.mem_append, List.mem_singleton]
    exact or_congr (hstart.timers e he) Iff.rfl
  · have hdoze := hdet.answers.handled.dozes hne fun req hreq => hcall ⟨req, hreq⟩
    have hsame := (hstart.trans hdoze).trans hdet.processed.dozes
    refine naps_of_dozes (fun q req hq => hcall ?_) hsame
    rw [hd] at hq
    cases hq
    exact ⟨req, rfl⟩

theorem step_naps (h : step s l = some s') : s'.c.now = l.time ∧ Naps s l s' := by
  cases hd : dispatched s l with
  | some disp => exact step_naps_dispatched h hd
  | none =>
      have hnone : ∀ p req, dispatched s l ≠ some (p, .nanosleep req) := by simp [hd]
      obtain ⟨-, -, ho⟩ := step_cases h
      generalize hl : l.what = what at ho
      cases ho with
      | @fired i e _ he htime hf =>
          obtain ⟨t, kind⟩ := e
          cases hf with
          | gone =>
              have hremove : Dozes (s.moveTo l).c ((s.moveTo l).c.removeEvent i) :=
                .removeEvent he rfl
              exact naps_of_dozes hnone ⟨hremove.now, hremove.timers⟩
          | dispatched hc hth =>
              have hsome := dispatched_eq (s := s) (resumes_eq hl he rfl) (hc.catches hth)
              rw [hd] at hsome
              cases hsome
          | timeoutStale => exact naps_of_dozes hnone (.removeEvent he rfl)
          | timeout _ hc =>
              have hremove : Dozes (s.moveTo l).c ((s.moveTo l).c.removeEvent i) :=
                .removeEvent he rfl
              have hfin := Dozes.of_finish hc
              exact naps_of_dozes hnone (hremove.trans ⟨hfin.now, hfin.timers⟩)
          | @slept τ c' hc =>
              have hfin := Dozes.of_finish hc
              refine ⟨hfin.now, @Naps.wakes _ _ _ τ hnone fun e hsleep => ?_⟩
              rw [hfin.timers e hsleep]
              obtain ⟨hi, hget⟩ := List.getElem?_eq_some_iff.mp he
              have htime : t = l.time := htime
              rw [htime] at hget
              have hperm := (List.getElem_cons_eraseIdx_perm hi).mem_iff (a := e)
              rw [hget, List.mem_cons] at hperm
              exact hperm.symm
          | removed => exact naps_of_dozes hnone (.removeEvent he rfl)
      | receivedIdle => exact naps_of_dozes hnone (.refl _)
      | receivedRead _ _ _ hc =>
          have hfin := Dozes.of_reads hc
          exact naps_of_dozes hnone ⟨hfin.now, hfin.timers⟩
      | receivedSelect _ _ _ hc =>
          have hfin := (Dozes.claim _ _).trans (.of_finish hc)
          exact naps_of_dozes hnone ⟨hfin.now, hfin.timers⟩
      | sendableIdle => exact naps_of_dozes hnone (.refl _)
      | sendableSelect _ _ _ hc =>
          have hfin := (Dozes.claim _ _).trans (.of_finish hc)
          exact naps_of_dozes hnone ⟨hfin.now, hfin.timers⟩
      | incomingLost => exact naps_of_dozes hnone (.refl _)
      | incomingStored => exact naps_of_dozes hnone (.refl _)
      | @incomingSelect _ sock' _ _ _ cl _ _ _ _ _ _ _ hc =>
          have hclaim := Dozes.claim cl (s.moveTo l).c
          have hslot : Dozes ((s.moveTo l).c.claim cl)
              (((s.moveTo l).c.claim cl).setAcceptCallback sock' none) := .of_fields rfl rfl
          exact naps_of_dozes hnone ((hclaim.trans hslot).trans (.of_finish hc))
      | incomingAccept _ _ _ _ hc =>
          have hf : Finish _ s.c.pid _ (s.moveTo l).c _ := ⟨_, hc, rfl⟩
          exact naps_of_dozes hnone (.of_finish hf)
      | connectIdle => exact naps_of_dozes hnone (.of_fields rfl rfl)
      | connected _ _ hc =>
          have hfin := Dozes.of_finish hc
          exact naps_of_dozes hnone ⟨hfin.now, hfin.timers⟩
      | refused _ _ hc =>
          have hfin := Dozes.of_finish hc
          exact naps_of_dozes hnone ⟨hfin.now, hfin.timers⟩

/-! ### Sleeping threads -/

/-- No timer of a `nanosleep` of `p` is set. -/
def Awake (p : Pid) (c : Ctl) : Prop :=
  ∀ e ∈ c.events, ∀ τ, e.kind = .nanosleep τ → τ.thread ≠ p

/-- If `p` sleeps, it does so until `t` at least, otherwise `t` has passed. -/
structure SleptUntil (p : Pid) (t : ℕ) (c : Ctl) : Prop where
  timers : ∀ e ∈ c.events, ∀ τ, e.kind = .nanosleep τ → τ.thread = p → t ≤ e.time
  awake : Awake p c → t ≤ c.now

/-- A duration that the kernel accepts. -/
def Timespec.isValid (t : Timespec) : Bool :=
  0 ≤ t.tv_sec ∧ 0 ≤ t.tv_nsec ∧ t.tv_nsec < 1000000000

/-- The duration of the valid `nanosleep` of `p` that `l` dispatches. -/
def napTime (p : Pid) (s : St) (l : Label) : ℕ :=
  match dispatched s l with
  | some (q, .nanosleep req) => if q = p ∧ req.isValid = true then req.toNs.toNat else 0
  | _ => 0

/-- The durations of the valid `nanosleep`s of `p` in a run. -/
def slept (p : Pid) : St → List Label → ℕ
  | _, [] => 0
  | s, l :: ls => napTime p s l + (step s l).elim 0 fun s₁ => slept p s₁ ls

theorem napTime_eq_zero {p : Pid} (h : ∀ q req, dispatched s l ≠ some (q, .nanosleep req)) :
    napTime p s l = 0 := by
  unfold napTime
  split
  next q req hd => exact absurd hd (h q req)
  next => rfl

theorem isSleep_of_eq {e : Event} {τ : Task} (h : e.kind = .nanosleep τ) :
    e.kind.isSleep = true := by
  rw [h]
  rfl

/-- The thread that goes to sleep was awake. -/
theorem SleptUntil.step {p : Pid} {t : ℕ} (h : SleptUntil p t s.c)
    (hawake : ∀ req, dispatched s l = some (p, .nanosleep req) → Awake p s.c)
    (hs : step s l = some s') : SleptUntil p (t + napTime p s l) s'.c := by
  obtain ⟨hnow, hnaps⟩ := step_naps hs
  obtain ⟨hle, -, -⟩ := step_cases hs
  cases hnaps with
  | rests hnone htimers =>
      rw [napTime_eq_zero hnone, Nat.add_zero]
      refine ⟨fun e he τ hk => h.timers e ((htimers e (isSleep_of_eq hk)).mp he) τ hk, fun ha => ?_⟩
      have hbefore : t ≤ s.c.now :=
        h.awake fun e he τ hk => ha e ((htimers e (isSleep_of_eq hk)).mpr he) τ hk
      rw [hnow]
      exact hbefore.trans hle
  | @wakes τ hnone htimers =>
      rw [napTime_eq_zero hnone, Nat.add_zero]
      refine ⟨fun e he σ hk => h.timers e ((htimers e (isSleep_of_eq hk)).mpr (.inr he)) σ hk,
        fun ha => ?_⟩
      rw [hnow]
      by_cases hp : τ.thread = p
      · exact h.timers ⟨l.time, .nanosleep τ⟩ ((htimers _ rfl).mpr (.inl rfl)) τ rfl hp
      · refine (h.awake fun e he σ hk => ?_).trans hle
        rcases (htimers e (isSleep_of_eq hk)).mp he with rfl | he
        · cases hk
          exact hp
        · exact ha e he σ hk
  | @sleeps req τ hd htimers =>
      have hnew : (⟨l.time + req.toNs.toNat, .nanosleep τ⟩ : Event) ∈ s'.c.events :=
        (htimers _ rfl).mpr (.inr rfl)
      by_cases hp : τ.thread = p
      · subst hp
        have ha := hawake req hd
        have hpast : t ≤ l.time := (h.awake ha).trans hle
        have hnap : napTime τ.thread s l ≤ req.toNs.toNat := by
          rw [napTime, hd]
          dsimp only
          split_ifs
          · exact le_rfl
          · exact Nat.zero_le _
        refine ⟨fun e he σ hk hσ => ?_, fun hno => absurd rfl (hno _ hnew τ rfl)⟩
        rcases (htimers e (isSleep_of_eq hk)).mp he with he | rfl
        · exact absurd hσ (ha e he σ hk)
        · exact Nat.add_le_add hpast hnap
      · have hzero : napTime p s l = 0 := by
          rw [napTime, hd]
          exact if_neg fun hq => hp hq.1
        rw [hzero, Nat.add_zero]
        refine ⟨fun e he σ hk hσ => ?_, fun ha => ?_⟩
        · rcases (htimers e (isSleep_of_eq hk)).mp he with he | rfl
          · exact h.timers e he σ hk hσ
          · cases hk
            exact absurd hσ hp
        · have hbefore : t ≤ s.c.now :=
            h.awake fun e he σ hk => ha e ((htimers e (isSleep_of_eq hk)).mpr (.inl he)) σ hk
          rw [hnow]
          exact hbefore.trans hle

/-- No event is scheduled in the past. -/
theorem SleptUntil.of_step (p : Pid) (hs : Grail.step s l = some s') :
    SleptUntil p l.time s'.c := by
  obtain ⟨hnow, hnaps⟩ := step_naps hs
  obtain ⟨-, hfuture, -⟩ := step_cases hs
  refine ⟨fun e he τ hk _ => ?_, fun _ => hnow.ge⟩
  have hsleep := isSleep_of_eq hk
  cases hnaps with
  | rests _ htimers => exact hfuture e ((htimers e hsleep).mp he)
  | wakes _ htimers => exact hfuture e ((htimers e hsleep).mpr (.inr he))
  | sleeps _ htimers =>
      rcases (htimers e hsleep).mp he with he | rfl
      · exact hfuture e he
      · exact Nat.le_add_right _ _

/-- A thread whose call is dispatched is awake. -/
theorem Continued.awake {p : Pid} {T : Pid → Prop} {call : Syscall} (h : Continued T s.c)
    (hT : T p) (hd : dispatched s l = some (p, call)) (hs : Grail.step s l = some s') :
    Awake p s.c := by
  obtain ⟨i, t, c₁, th, res, s₂, hdet⟩ := Grail.step_dispatched hs hd
  obtain ⟨-, -, hin⟩ := h.resumed hT hdet.event
  intro e he τ hk hτ
  obtain ⟨j, hj⟩ := List.mem_iff_getElem?.mp he
  have hpend := pend_ne_zero hj
  rw [hk] at hpend
  have hcall := h.awaited (hτ ▸ hT) (.sleep (.sleep hpend rfl))
  rw [hτ, hin] at hcall
  cases hcall

/-! ### Runs -/

/-- The invariants of threads in `T`. -/
structure Lively (T : Pid → Prop) (s : St) : Prop where
  continued : Continued T s.c
  known : Known s.c
  connecting : Connecting s
  owned : s.Owned

theorem Lively.step {T : Pid → Prop} (h : Lively T s) (hk : SteadyFor T s l)
    (hs : Grail.step s l = some s') : Lively T s' where
  continued := h.continued.step h.known h.connecting hk hs
  known := h.known.step hs
  connecting := h.connecting.step h.owned hs
  owned := h.owned.step hs

theorem Lively.initial (T : Pid → Prop) (app : App) (env : Env) : Lively T (St.initial app env) :=
  ⟨.initial T app env, .initial app env, .initial app env, Owned.initial⟩

theorem Lively.run {T : Pid → Prop} {ls : List Label} (h : Lively T s)
    (hk : Runs.Meets Grail.step (SteadyFor T) s ls) (hr : Grail.run s ls = some s') :
    Lively T s' :=
  Runs.run_induction (fun _ _ _ hI hl hs => hI.step hl hs) h hr hk

/-- In a run, `p` sleeps as long as its calls say. -/
theorem SleptUntil.run {p : Pid} {t : ℕ} {ls : List Label} (h : SleptUntil p t s.c)
    (hI : Lively (· = p) s) (hk : Runs.Meets Grail.step (SteadyFor (· = p)) s ls)
    (hr : Grail.run s ls = some s') : SleptUntil p (t + slept p s ls) s'.c := by
  induction ls generalizing s t with
  | nil =>
      cases hr
      exact h
  | cons l ls ih =>
      obtain ⟨s₁, hs, hr⟩ := Runs.run_cons.mp hr
      obtain ⟨hl, hk⟩ := (Runs.meets_cons hs).mp hk
      have h₁ := h.step (fun _ hd => hI.continued.awake rfl hd hs) hs
      have hsum : slept p s (l :: ls) = napTime p s l + slept p s₁ ls := by rw [slept, hs]; rfl
      rw [hsum, ← Nat.add_assoc]
      exact ih h₁ (hI.step hl hs) hk hr

end Grail
