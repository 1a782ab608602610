import Grail.Schedule
import Grail.SelectTime
import Grail.Wakeups

/-! # The deadline of a `select`

The timer of a `select` that waits is cancelled only by the callbacks of this `select`, which answer
it.  `KeepsTimers f c c'` says so: between `c` and `c'` no timer is lost of a `select` in which a
thread is still blocked in `f`, the state in which the step ends.  Unlike the callbacks, no slot
that another thread overwrites holds it, so this needs no condition on the step
(`step_keepsTimers`).

As the timer fires at its time, a `select` with a timeout is answered at the end of its timeout or
before (`run_selectDeadline`). -/

namespace Grail

open Programs

variable {s s' : St} {l : Label} {c c₁ c' f : Ctl} {p : Pid} {k : ℕ} {τ : Task} {call : Syscall}
  {res : SyscallHandlerStatusCode} {args : SelectArgs} {t : Timeval} {a : Activation}

/-! ### Timers that are kept -/

/-- The timer of the `select` of `τ`. -/
def Task.timer (τ : Task) : Slot := .timer (.selectTimeout τ)

theorem Task.wakes_timer : τ.timer.wakes c = some τ ↔
    pend c (.selectTimeout τ) ≠ 0 ∧ c.alreadyHandled τ.act = false := by
  rw [Task.timer, Grail.wakes_timer, EventKind.wakes, unanswered_eq_some]
  simp

/-- The timer of a `select` whose thread is still blocked in it is kept. -/
def KeepsTimers (f c c' : Ctl) : Prop :=
  ∀ τ : Task, f.inCall τ.thread = some τ.act → τ.timer.wakes c = some τ →
    τ.timer.wakes c' = some τ

namespace KeepsTimers

theorem of_spares (h : Spares f c c') : KeepsTimers f c c' := fun τ => h _ τ

theorem of_calm (h : Calm c c') : KeepsTimers f c c' := of_spares (.of_calm h)

theorem trans (h : KeepsTimers f c c₁) (h' : KeepsTimers f c₁ c') : KeepsTimers f c c' :=
  fun τ hτ hx => h' τ hτ (h τ hτ hx)

/-- Only a slot changes. -/
theorem of_fields (he : c'.events = c.events) (hh : c'.alreadyHandled = c.alreadyHandled) :
    KeepsTimers f c c' := by
  intro τ _ hx
  rw [Task.wakes_timer, pend, he, hh]
  exact Task.wakes_timer.mp hx

theorem slot (h : KeepsTimers f c c₁) (he : c'.events = c₁.events)
    (hh : c'.alreadyHandled = c₁.alreadyHandled) : KeepsTimers f c c' := h.trans (of_fields he hh)

end KeepsTimers

theorem Handled.keepsTimers (h : Handled call s res s') (hres : res ≠ .error) (hk : Known s.c)
    (hend : ∀ q k, f.inCall q = some k → s'.c.inCall q = some k) : KeepsTimers f s.c s'.c := by
  cases h with
  | error => exact absurd rfl hres
  | answered _ _ _ _ hpre hc => exact .of_calm ((Calm.of_prelude hpre).trans (Calm.of_completes hc))
  | listened _ _ _ _ _ hc => exact (KeepsTimers.of_calm (Calm.of_completes hc)).slot rfl rfl
  | accepted _ _ _ _ _ hc =>
      rw [St.returning_c]
      exact .of_calm (Calm.of_completes hc)
  | nlSend _ _ hw hc =>
      have hcalm := Calm.of_completes hc
      have hwork := hw.spares hk fun q k hqk => hcalm.inCall q k (hend q k hqk)
      exact .of_spares (hwork.trans (.of_calm hcalm))
  | nlOther _ _ _ _ hc => exact .of_calm (Calm.of_completes hc)
  | passed _ _ _ _ hc => exact .of_calm (Calm.of_passes hc)
  | cloned _ hc => exact .of_calm ((Calm.of_passes hc).trans (Calm.cloned _ _))
  | recvNow _ _ _ _ hc => exact (KeepsTimers.of_calm (Calm.of_reads hc)).slot rfl rfl
  | @connectNow fd _ sock _ _ _ _ _ _ hc =>
      have hslot : KeepsTimers f s.c (s.c.setConnectCallback sock (some ⟨s.c.task, fd⟩)) :=
        .of_fields rfl rfl
      exact hslot.trans (.of_calm (Calm.of_finish hc))
  | selectNow _ _ _ _ hc => exact .of_calm (Calm.of_completes hc)
  | @selectWait args c₁ c' _ _ harms _ ht =>
      have harmed : KeepsTimers f s.c c₁ := by
        rw [harms.frame]
        exact .of_fields rfl rfl
      cases ht with
      | none => exact harmed
      | timer => exact harmed.trans (.of_spares (.schedule _ _ _))
  | sleeping => exact .of_spares (.schedule _ _ _)
  | _ => exact .of_fields rfl rfl

/-- A callback or a timer that is invoked. -/
theorem keepsTimers_occurred {what : Occurrence} (hk : Known s.c) (ho : Occurs s what s')
    (hd : ∀ i t p, what = .fire i → s.c.events[i]? = some ⟨t, .handleSyscallBefore p⟩ →
      s.c.catches p = none) : KeepsTimers s'.c s.c s'.c := by
  by_cases hsel : ∃ sock addr cl, what = .incoming sock addr ∧
    s.c.acceptCallback sock = some (.select cl) ∧ s.c.alreadyHandled cl.task.act = false
  · obtain ⟨sock, addr, cl, rfl, hcb, hn⟩ := hsel
    cases ho with
    | incomingLost _ hlost =>
        obtain ⟨cl', heq, hh⟩ := hlost _ hcb
        cases heq
        cases hn.symm.trans hh
    | incomingStored _ hcb' => cases hcb.symm.trans hcb'
    | @incomingSelect _ sock' _ _ _ cl' _ c' _ hcb' _ _ _ hf =>
        cases hcb.symm.trans hcb'
        have hclaim : Spares c' s.c (s.c.claim cl) :=
          .claim hk (.accept hcb rfl) (ended hf fun _ _ h => h)
        have hslot : KeepsTimers c' s.c ((s.c.claim cl).setAcceptCallback sock' none) :=
          (KeepsTimers.of_spares hclaim).slot rfl rfl
        exact hslot.trans (.of_calm (Calm.of_finish hf))
    | incomingAccept _ hcb' => cases hcb.symm.trans hcb'
    | connectIdle hwhat => rcases hwhat with hwhat | hwhat <;> cases hwhat
  · refine .of_spares (spares_occurred hk ho hd fun sock addr cl sock' hl hcb hn _ => ?_)
    exact absurd ⟨sock, addr, cl, hl, hcb, hn⟩ hsel

theorem step_keepsTimers (hk : Known s.c) (h : step s l = some s') :
    KeepsTimers s'.c s.c s'.c := by
  cases hd : dispatched s l with
  | some disp =>
      obtain ⟨p, call⟩ := disp
      obtain ⟨i, t, c₁, th, res, s₂, hl, hev, hc, hth, hcall, hans, hp⟩ := step_dispatched h hd
      have hk₁ : Known (c₁.dispatch p th) := (hk.caught hev hc).dispatch p th
      have hhandler : KeepsTimers s'.c (c₁.dispatch p th) s₂.c :=
        hans.handled.keepsTimers hp.ne_error hk₁ hp.calm.inCall
      intro τ hτ hx
      rw [← hc.wakes hev th τ.timer] at hx
      exact (hhandler.trans (.of_calm hp.calm)) τ hτ hx
  | none =>
      obtain ⟨-, -, ho⟩ := step_cases h
      have hmove : Rests s.c (s.moveTo l).c := Rests.setNow l.time s.c
      refine (KeepsTimers.of_spares (.of_rests hmove)).trans
        (keepsTimers_occurred (hk.rests hmove) ho fun i t p hl hev => ?_)
      by_contra hc
      obtain ⟨call, hc⟩ := Option.ne_none_iff_exists'.mp hc
      cases hd.symm.trans (dispatched_eq (resumes_eq hl hev rfl) hc)

/-! ### A `select` that waits -/

/-- With a timeout the timer is set. -/
theorem SelectTimer.wakes (h : SelectTimer args τ c c') (ht : args.timeout = some t)
    (hn : c.alreadyHandled τ.act = false) : τ.timer.wakes c' = some τ := by
  cases h with
  | none hnone => cases hnone.symm.trans ht
  | timer =>
      refine Task.wakes_timer.mpr ⟨?_, hn⟩
      rw [pend_schedule, if_pos rfl]
      exact Nat.succ_ne_zero _

theorem Handled.select_waits (h : Handled (.select args) s res s') (hres : res ≠ .error) :
    res.resumes ∨ ∃ c₁, SelectArms args s.d s.c.task s.c c₁ ∧
      SelectTimer args s.c.task c₁ s'.c := by
  cases h with
  | error => exact absurd rfl hres
  | answered hplain => cases hplain
  | nlSend hnl => cases hnl
  | nlOther hnl => cases hnl
  | passed hplain => cases hplain
  | unadvanced hun => cases hun
  | recvNow hrecv => cases hrecv
  | recvWait hrecv => cases hrecv
  | selectNow => exact .inl resumes_success
  | selectWait hcall _ harms _ ht =>
      cases hcall
      exact .inr ⟨_, harms, ht⟩
  | _ => contradiction

/-- The `select` of `τ`, which `a` describes, waits, and its timer is set. -/
structure Ticking (a : Activation) (τ : Task) (c : Ctl) : Prop where
  known : Known c
  timed : Timed c
  act : c.acts τ.act = some a
  timer : τ.timer.wakes c = some τ
  ahead : ∀ e ∈ c.events, c.now ≤ e.time

/-- The timer is set to the end of the timeout. -/
theorem Ticking.due (h : Ticking a τ c) (hcall : a.call = .select args)
    (ht : args.timeout = some t) : ∃ e ∈ c.events, (e.time : ℤ) = a.start + t.toNs := by
  obtain ⟨e, he, hk⟩ := pend_ne_zero_iff.mp (Task.wakes_timer.mp h.timer).1
  obtain ⟨a', args', t', ha', hcall', ht', htime⟩ := h.timed e he τ hk
  cases ha'.symm.trans h.act
  cases hcall'.symm.trans hcall
  cases ht'.symm.trans ht
  exact ⟨e, he, htime⟩

/-- What is known of a dispatch stays. -/
theorem step_act (hk : Known s.c) (h : step s l = some s') (ha : s.c.acts k = some a) :
    s'.c.acts k = some a := by
  cases hd : dispatched s l with
  | none => rw [(step_unblocks h hd).acts, ha]
  | some disp =>
      obtain ⟨p, call⟩ := disp
      obtain ⟨i, t, c₁, th, res, s₂, hl, hev, hc, hth, hcall, hans, hp⟩ := step_dispatched h hd
      have hbegins : Begins s p th.origRax ⟨c₁.dispatch p th, s.d⟩ := hc.begins
      obtain ⟨b, -, hacts⟩ := hbegins.acts
      rw [hp.calm.acts, (hans.handled.acts hp.ne_error).1, hacts,
        Function.update_of_ne (hk.acts_lt ha).ne, ha]

/-- A `select` with a timeout that waits has a timer. -/
theorem select_ticking (hk : Known s.c) (hT : Timed s.c) (hs : step s l = some s')
    (hd : dispatched s l = some (p, .select args)) (ht : args.timeout = some t)
    (hwait : s'.c.inCall p = some s.c.nextAct) :
    ∃ a, a.call = .select args ∧ a.start = l.time ∧ Ticking a ⟨p, s.c.nextAct⟩ s'.c := by
  obtain ⟨i, t₀, c₁, th, res, s₂, hdet⟩ := step_dispatched hs hd
  have htimed : Timed s'.c := (hdet.times hk hT).1
  obtain ⟨hl, hev, hc, hth, hcall, hans, hp⟩ := hdet
  have htask : (c₁.dispatch p th).task = ⟨p, s.c.nextAct⟩ := hc.begins.task
  have hflag : (c₁.dispatch p th).alreadyHandled s.c.nextAct = false := by
    rw [hc.begins.alreadyHandled]
    exact eq_false_of_ne_true fun hh => (hk.handled_lt hh).false
  have hnow : c₁.now = l.time := by cases hc <;> rfl
  have hact : s'.c.acts (c₁.dispatch p th).task.act =
      some ⟨p, th.origRax, th.phase, th.serial, c₁.now⟩ := by
    rw [hp.calm.acts, (hans.handled.acts hp.ne_error).1]
    exact Function.update_self ..
  rw [htask] at hact
  refine ⟨_, hcall, hnow, hk.step hs, htimed, hact, ?_, fun e he => step_ahead hs he⟩
  rcases hans.handled.select_waits hp.ne_error with hres | ⟨c₂, harms, htimer⟩
  · have hnone : s'.c.inCall p = none := by
      rw [hp.resumed_eq hres]
      exact Function.update_self ..
    cases hnone.symm.trans hwait
  · rw [hp.calm.wakes, ← htask]
    refine htimer.wakes ht ?_
    rw [harms.frame, htask]
    exact hflag

/-- A step keeps the timer, or answers the `select`. -/
theorem Ticking.step (h : Ticking a τ s.c) (hs : Grail.step s l = some s') :
    Ticking a τ s'.c ∨ s'.c.inCall τ.thread ≠ some τ.act := by
  by_cases hin : s'.c.inCall τ.thread = some τ.act
  · exact .inl ⟨h.known.step hs, (step_selectTimed h.known h.timed hs).1, step_act h.known hs h.act,
      step_keepsTimers h.known hs τ hin h.timer, fun e he => step_ahead hs he⟩
  · exact .inr hin

/-! ### The answer -/

/-- A thread that is blocked in `c` and no longer in `c'` is scheduled. -/
theorem Schedules.resumed (h : Schedules c c') (hin : c.inCall p = some k)
    (hout : c'.inCall p ≠ some k) (hnone : ∀ e ∈ c.events, e.kind ≠ .handleSyscallBefore p) :
    c'.inCall p = none ∧ ⟨c.now + c'.pace, .handleSyscallBefore p⟩ ∈ c'.events := by
  rcases h.answered p with hsame | ⟨hfree, hpend⟩
  · exact absurd (hsame.trans hin) hout
  · obtain ⟨⟨time, kind⟩, he, hk⟩ := pend_ne_zero_iff.mp hpend
    obtain rfl : kind = .handleSyscallBefore p := hk
    rcases h.entered _ he with hold | hnew
    · exact absurd rfl (hnone _ hold)
    · have htime : time = c.now + c.pace := hnew.paced p rfl
      rw [htime, ← h.pace] at he
      exact ⟨hfree, he⟩

theorem step_resumed (hI : Lively (· = p) s) (hs : step s l = some s')
    (hin : s.c.inCall p = some k) (hout : s'.c.inCall p ≠ some k) :
    s'.c.inCall p = none ∧ ⟨l.time + s'.c.pace, .handleSyscallBefore p⟩ ∈ s'.c.events := by
  have hnone : ∀ e ∈ s.c.events, e.kind ≠ .handleSyscallBefore p := fun e he hk =>
    pend_ne_zero_iff.mpr ⟨e, he, hk⟩ (hI.continued.blocked rfl hin).1
  have turn : ∀ {i : ℕ} {q : Pid} {c : Ctl}, Turn s l i q c → p ≠ q ∧ c.inCall p = some k ∧
      ∀ e ∈ c.events, e.kind ≠ .handleSyscallBefore p := by
    intro i q c ht
    have hne : p ≠ q := by
      rintro rfl
      exact hnone _ (List.mem_of_getElem? ht.event) rfl
    refine ⟨hne, ?_, fun e he => hnone e (List.mem_of_mem_eraseIdx (ht.events ▸ he))⟩
    rw [ht.inCall, Function.update_of_ne hne, hin]
  cases step_books hs with
  | idle _ _ hb => exact hb.resumed hin hout hnone
  | fired _ _ _ hb =>
      exact hb.resumed hin hout fun e he => hnone e (List.mem_of_mem_eraseIdx he)
  | dispatched _ ht hb =>
      obtain ⟨-, hin', hnone'⟩ := turn ht
      rw [← ht.now]
      exact hb.resumed hin' hout hnone'
  | @cloned i q call c c₁ tid _ ht hb heq =>
      obtain ⟨hne, hin', hnone'⟩ := turn ht
      have hsame : s'.c.inCall p = c₁.inCall p := by
        rw [heq, ← inCall_cloned tid c₁]
        exact Function.update_of_ne hne _ _
      rw [hsame] at hout ⊢
      obtain ⟨hfree, hmem⟩ := hb.resumed hin' hout hnone'
      refine ⟨hfree, ?_⟩
      have hpace : s'.c.pace = c₁.pace := heq ▸ pace_cloned tid c₁
      rw [hpace, ← ht.now, heq]
      exact mem_cloned_resched.mpr (.inl hmem)

/-! ### Runs -/

theorem timed_of_run {app : App} {env : Env} {ls : List Label}
    (hr : run (St.initial app env) ls = some s) : Known s.c ∧ Timed s.c :=
  Runs.run_invariant (I := fun s => Known s.c ∧ Timed s.c)
    (fun _ _ _ hI hs => ⟨hI.1.step hs, (step_selectTimed hI.1 hI.2 hs).1⟩)
    ⟨.initial app env, .initial app env⟩ hr

/-- A `select` with a timeout blocks its thread, and is answered when the timeout ends or before. -/
theorem run_selectDeadline {app : App} {env : Env} {before after : List Label} {s₁ : St}
    (hbefore : run (St.initial app env) before = some s)
    (hd : dispatched s l = some (p, .select args)) (ht : args.timeout = some t)
    (hs : step s l = some s₁) (hwait : s₁.c.inCall p = some s.c.nextAct)
    (hafter : run s₁ after = some s')
    (hsteady : Runs.Meets step (SteadyFor (· = p)) (St.initial app env) (before ++ l :: after)) :
    (s'.c.inCall p = some s.c.nextAct ∧ (s'.c.now : ℤ) ≤ l.time + t.toNs) ∨
      ∃ waiting l' rest s₂ s₃, after = waiting ++ l' :: rest ∧ run s₁ waiting = some s₂ ∧
        s₂.c.inCall p = some s.c.nextAct ∧ step s₂ l' = some s₃ ∧
        (l'.time : ℤ) ≤ l.time + t.toNs ∧ s₃.c.inCall p = none ∧
        ⟨l'.time + s₃.c.pace, .handleSyscallBefore p⟩ ∈ s₃.c.events ∧ run s₃ rest = some s' := by
  obtain ⟨hkb, hk⟩ := (Runs.meets_append hbefore).mp hsteady
  obtain ⟨hkl, hka⟩ := (Runs.meets_cons hs).mp hk
  have hI₁ : Lively (· = p) s₁ := ((Lively.initial _ app env).run hkb hbefore).step hkl hs
  obtain ⟨hknown, htimed⟩ := timed_of_run hbefore
  obtain ⟨a, hcall, hstart, htick⟩ := select_ticking hknown htimed hs hd ht hwait
  -- the thread of a timer that is set is blocked
  have blocked : ∀ {s₂ : St}, Lively (· = p) s₂ → Ticking a ⟨p, s.c.nextAct⟩ s₂.c →
      s₂.c.inCall p = some s.c.nextAct := by
    intro s₂ hI htick
    obtain ⟨hp, hn⟩ := Task.wakes_timer.mp htick.timer
    have harm : Armed s₂.c .select ⟨p, s.c.nextAct⟩ := .timer hp rfl
    exact hI.continued.awaited (w := .select) rfl (.select harm hn)
  rcases Runs.run_until (P := fun s' => Ticking a ⟨p, s.c.nextAct⟩ s'.c)
      (D := fun _ _ s' => s'.c.inCall p ≠ some s.c.nextAct) (fun _ _ _ h hs => h.step hs)
      htick hafter with
    htick' | ⟨waiting, l', rest, s₂, s₃, rfl, hw, htick₂, hs', hout, hrest⟩
  · obtain ⟨e, he, hdue⟩ := htick'.due hcall ht
    have hahead := htick'.ahead e he
    refine .inl ⟨blocked (hI₁.run hka hafter) htick', ?_⟩
    omega
  · obtain ⟨hkw, hkr⟩ := (Runs.meets_append hw).mp hka
    have hI₂ := hI₁.run hkw hw
    have hin := blocked hI₂ htick₂
    obtain ⟨e, he, hdue⟩ := htick₂.due hcall ht
    obtain ⟨-, hpast, -⟩ := step_cases hs'
    have hle := hpast e he
    obtain ⟨hfree, hmem⟩ := step_resumed hI₂ hs' hin hout
    refine .inr ⟨waiting, l', rest, s₂, s₃, rfl, hw, hin, hs', ?_, hfree, hmem, hrest⟩
    omega

/-- A datagram comes in after half a second. -/
theorem run_selectDeadline_received :
    ∃ s s₁ s', run (St.initial {} waitingEnv) [⟨0, .fire 0⟩] = some s ∧
      step s ⟨0, .fire 0⟩ = some s₁ ∧ run s₁ [⟨500000000, .received 0 20⟩] = some s' ∧
      ((s'.c.inCall 1 = some s.c.nextAct ∧ (s'.c.now : ℤ) ≤ (0 : ℕ) + (⟨1, 0⟩ : Timeval).toNs) ∨
        ∃ waiting l' rest s₂ s₃,
          [⟨500000000, .received 0 20⟩] = waiting ++ l' :: rest ∧ run s₁ waiting = some s₂ ∧
          s₂.c.inCall 1 = some s.c.nextAct ∧ step s₂ l' = some s₃ ∧
          (l'.time : ℤ) ≤ (0 : ℕ) + (⟨1, 0⟩ : Timeval).toNs ∧ s₃.c.inCall 1 = none ∧
          ⟨l'.time + s₃.c.pace, .handleSyscallBefore 1⟩ ∈ s₃.c.events ∧
          run s₃ rest = some s') := by
  have hcheck : (run (St.initial {} waitingEnv) [⟨0, .fire 0⟩]).any (fun s =>
      decide (dispatched s ⟨0, .fire 0⟩ =
        some (1, .select ⟨101, some {100}, none, none, some ⟨1, 0⟩⟩)) &&
      (step s ⟨0, .fire 0⟩).any fun s₁ => decide (s₁.c.inCall 1 = some s.c.nextAct) &&
        (run s₁ [⟨500000000, .received 0 20⟩]).isSome) = true := by decide +kernel
  have hsteady : Runs.Meets step (fun s l => isSteady s l = true) (St.initial {} waitingEnv)
      ([⟨0, .fire 0⟩] ++ ⟨0, .fire 0⟩ :: [⟨500000000, .received 0 20⟩]) := by decide +kernel
  obtain ⟨s, hbefore, hs⟩ := (Option.any_eq_true _ _).mp hcheck
  obtain ⟨hd, hs⟩ := (Bool.and_eq_true _ _ ▸ hs)
  obtain ⟨s₁, hs, hs₁⟩ := (Option.any_eq_true _ _).mp hs
  obtain ⟨hwait, hr⟩ := (Bool.and_eq_true _ _ ▸ hs₁)
  obtain ⟨s', hafter⟩ := Option.isSome_iff_exists.mp hr
  exact ⟨s, s₁, s', hbefore, hs, hafter, run_selectDeadline hbefore (of_decide_eq_true hd) rfl hs
    (of_decide_eq_true hwait) hafter
    (hsteady.mono fun _ _ h => (Steady.of_isSteady h).steadyFor)⟩

end Grail
