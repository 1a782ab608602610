import Grail.Awaited

/-! # One continuation for each thread

A thread that is in no call is resumed by a scheduled `HandleSyscallBefore`; a thread that is
blocked by a callback or a timer of its call.  `Continued T c`: a thread of `T` that is scheduled is
alive and scheduled once, one that is blocked is alive and not scheduled, and what is awaited is the
call in which the thread is blocked.  A step keeps this if it meets `Steady T`
(`Continued.step`). -/

namespace Grail

open Programs

/-! ### Threads and resumptions -/

/-- Every thread is alive that was, no resumption is scheduled, no call begins or is answered. -/
structure SameThreads (c c' : Ctl) : Prop where
  alive : ∀ p, c.threads p ≠ none → c'.threads p ≠ none
  resumptions : ∀ p, pend c' (.handleSyscallBefore p) = pend c (.handleSyscallBefore p)
  inCall : c'.inCall = c.inCall

/-- The same, but the call of `p` is answered and `p` is scheduled. -/
structure Resumes (p : Pid) (c c' : Ctl) : Prop where
  alive : ∀ q, c.threads q ≠ none → c'.threads q ≠ none
  resumptions : ∀ q, pend c' (.handleSyscallBefore q) =
    pend c (.handleSyscallBefore q) + if p = q then 1 else 0
  inCall : c'.inCall = Function.update c.inCall p none

section threads

variable {c c₁ c' : Ctl} {p : Pid} {v : ℤ} {τ : Task}

theorem alive_update {f : Pid → Option Tracee} {th : Tracee} (q : Pid) (h : f q ≠ none) :
    Function.update f p (some th) q ≠ none := by
  by_cases hq : q = p
  · subst hq
    simp
  · rwa [Function.update_of_ne hq]

namespace SameThreads

theorem refl (c : Ctl) : SameThreads c c := ⟨fun _ h => h, fun _ => rfl, rfl⟩

theorem trans (h : SameThreads c c₁) (h' : SameThreads c₁ c') : SameThreads c c' where
  alive p hp := h'.alive p (h.alive p hp)
  resumptions p := (h'.resumptions p).trans (h.resumptions p)
  inCall := h'.inCall.trans h.inCall

/-- Only other fields differ. -/
theorem of_fields (ht : c'.threads = c.threads) (he : c'.events = c.events)
    (hi : c'.inCall = c.inCall) : SameThreads c c' :=
  ⟨fun _ hp => ht ▸ hp, fun _ => congrArg (List.countP _) he, hi⟩

theorem of_completes (h : Completes p v c c') : SameThreads c c' := by
  cases h <;> exact ⟨alive_update, fun _ => rfl, rfl⟩

theorem of_passes (h : Passes p c c') : SameThreads c c' := by
  cases h <;> exact ⟨alive_update, fun _ => rfl, rfl⟩

theorem of_caught (h : Caught p c c') : SameThreads c c' := by
  cases h <;> exact ⟨alive_update, fun _ => rfl, rfl⟩

theorem of_prelude (h : Prelude p c c') : SameThreads c c' := by
  cases h with
  | none => exact refl c
  | close => exact ⟨fun _ h => h, fun _ => by simp [pend_schedule], rfl⟩
  | origRax => exact ⟨alive_update, fun _ => rfl, rfl⟩

theorem claim (cl : SelectClosure) (c : Ctl) : SameThreads c (c.claim cl) := by
  refine ⟨fun _ h => h, fun p => ?_, rfl⟩
  rw [Ctl.claim, pend_cancelTimeout, if_neg (by simp)]
  rfl

/-- A timer is scheduled. -/
theorem schedule (delay : ℕ) {kind : EventKind} (hk : ∀ p, kind ≠ .handleSyscallBefore p)
    (c : Ctl) : SameThreads c (c.schedule delay kind) := by
  refine ⟨fun _ h => h, fun p => ?_, rfl⟩
  rw [pend_schedule, if_neg (hk p), Nat.add_zero]

/-- A timer has fired. -/
theorem removeEvent {i : ℕ} {e : Event} (he : c.events[i]? = some e)
    (hk : ∀ p, e.kind ≠ .handleSyscallBefore p) : SameThreads c (c.removeEvent i) := by
  refine ⟨fun _ h => h, fun p => ?_, rfl⟩
  rw [← pend_removeEvent he, if_neg (hk p), Nat.add_zero]

theorem resumes (h : SameThreads c c₁) (h' : Resumes p c₁ c') : Resumes p c c' where
  alive q hq := h'.alive q (h.alive q hq)
  resumptions q := by rw [h'.resumptions, h.resumptions]
  inCall := by rw [h'.inCall, h.inCall]

end SameThreads

namespace Resumes

theorem resched (p : Pid) (c : Ctl) : Resumes p c (c.resched p) where
  alive _ h := h
  resumptions q := by simp [pend_resched]
  inCall := rfl

theorem same (h : Resumes p c c₁) (h' : SameThreads c₁ c') : Resumes p c c' where
  alive q hq := h'.alive q (h.alive q hq)
  resumptions q := by rw [h'.resumptions, h.resumptions]
  inCall := by rw [h'.inCall, h.inCall]

theorem of_finish (h : Finish τ p v c c') : Resumes τ.thread c c' := by
  obtain ⟨c₁, h₁, rfl⟩ := h
  have hs : SameThreads c c₁ :=
    (SameThreads.of_fields rfl rfl rfl : SameThreads c (c.onTask τ)).trans (.of_completes h₁)
  exact (hs.resumes (resched τ.thread c₁)).same (.of_fields rfl rfl rfl)

end Resumes

end threads

/-! ### The invariant -/

structure Continued (T : Pid → Prop) (c : Ctl) : Prop where
  alive {p} : T p → pend c (.handleSyscallBefore p) ≠ 0 → c.threads p ≠ none
  once {p} : T p → pend c (.handleSyscallBefore p) ≤ 1
  blocked {p k} : T p → c.inCall p = some k →
    pend c (.handleSyscallBefore p) = 0 ∧ c.threads p ≠ none
  awaited {w τ} : T τ.thread → Awaited c w τ → c.inCall τ.thread = some τ.act

theorem Vanishes.exited {p : Pid} {c c' : Ctl} (h : Vanishes p c c') :
    c.env.wait c.waits = .exited := by
  cases h
  assumption

namespace Continued

variable {T : Pid → Prop} {c c' : Ctl} {τ : Task} {p : Pid}

/-- What becomes awaited is the call in which a thread is blocked. -/
theorem same (h : Continued T c) (hs : SameThreads c c')
    (ha : ∀ w σ, T σ.thread → Awaited c' w σ →
      Awaited c w σ ∨ c.inCall σ.thread = some σ.act) : Continued T c' where
  alive {p} hT hp := by
    rw [hs.resumptions] at hp
    exact hs.alive p (h.alive hT hp)
  once {p} hT := by
    rw [hs.resumptions]
    exact h.once hT
  blocked {p k} hT hin := by
    rw [hs.inCall] at hin
    rw [hs.resumptions]
    exact ⟨(h.blocked hT hin).1, hs.alive p (h.blocked hT hin).2⟩
  awaited {w σ} hT hw := by
    rw [hs.inCall]
    rcases ha w σ hT hw with hw | hin
    · exact h.awaited hT hw
    · exact hin

/-- The call in which a thread is blocked is answered. -/
theorem resume (h : Continued T c) (hτ : T τ.thread → c.inCall τ.thread = some τ.act)
    (hr : Resumes τ.thread c c') (ha : ∀ w σ, Awaited c' w σ → Awaited c w σ ∧ σ ≠ τ) :
    Continued T c' where
  alive {p} hT hp := by
    rw [hr.resumptions] at hp
    by_cases hq : τ.thread = p
    · subst hq
      exact hr.alive _ (h.blocked hT (hτ hT)).2
    · rw [if_neg hq, Nat.add_zero] at hp
      exact hr.alive p (h.alive hT hp)
  once {p} hT := by
    rw [hr.resumptions]
    by_cases hq : τ.thread = p
    · subst hq
      rw [(h.blocked hT (hτ hT)).1, if_pos rfl]
    · rw [if_neg hq, Nat.add_zero]
      exact h.once hT
  blocked {p k} hT hin := by
    have hq : p ≠ τ.thread := by
      rintro rfl
      rw [hr.inCall, Function.update_self] at hin
      cases hin
    rw [hr.inCall, Function.update_of_ne hq] at hin
    rw [hr.resumptions, if_neg hq.symm, Nat.add_zero]
    exact ⟨(h.blocked hT hin).1, hr.alive p (h.blocked hT hin).2⟩
  awaited {w σ} hT hw := by
    obtain ⟨hw, hne⟩ := ha w σ hw
    have hin := h.awaited hT hw
    have hq : σ.thread ≠ τ.thread := by
      intro heq
      rw [heq] at hT hin
      have hact : σ.act = τ.act := Option.some.inj (hin.symm.trans (hτ hT))
      exact hne (Task.eq_of heq hact)
    rw [hr.inCall, Function.update_of_ne hq]
    exact hin

/-- A scheduled event is removed. -/
theorem removeEvent (h : Continued T c) {i : ℕ} {e : Event} (he : c.events[i]? = some e) :
    Continued T (c.removeEvent i) := by
  have hle : ∀ kind, pend (c.removeEvent i) kind ≤ pend c kind := by
    intro kind
    have hp := pend_removeEvent he kind
    omega
  refine ⟨fun {p} hT hp => ?_, fun {p} hT => (hle _).trans (h.once hT), fun {p k} hT hin => ?_,
    fun {w σ} hT hw => h.awaited hT (Awaited.of_events hw hle rfl)⟩
  · exact h.alive hT (Nat.pos_iff_ne_zero.mp ((Nat.pos_of_ne_zero hp).trans_le (hle _)))
  · exact ⟨Nat.le_zero.mp ((hle _).trans (h.blocked hT hin).1.le), (h.blocked hT hin).2⟩

/-- The thread that is resumed is alive, in no call, and not scheduled again. -/
theorem resumed (h : Continued T c) {i t : ℕ} (hT : T p)
    (he : c.events[i]? = some ⟨t, .handleSyscallBefore p⟩) :
    pend (c.removeEvent i) (.handleSyscallBefore p) = 0 ∧ c.threads p ≠ none ∧
      c.inCall p = none := by
  have hne : pend c (.handleSyscallBefore p) ≠ 0 := pend_ne_zero he
  have hp := pend_removeEvent he (.handleSyscallBefore p)
  rw [if_pos rfl] at hp
  refine ⟨?_, h.alive hT hne, ?_⟩
  · have hone := h.once hT
    omega
  · by_contra hin
    obtain ⟨k, hk⟩ := Option.ne_none_iff_exists'.mp hin
    exact hne (h.blocked hT hk).1

/-- A thread that is neither scheduled nor in a call ends. -/
theorem exited (h : Continued T c) {th : Tracee} {handled : Bool}
    (hp : T p → pend c (.handleSyscallBefore p) = 0 ∧ c.inCall p = none) :
    Continued T (c.exited p th handled) := by
  have hthreads : ∀ q, q ≠ p → (c.exited p th handled).threads q = c.threads q :=
    fun q hq => Function.update_of_ne hq ..
  refine ⟨fun {q} hT hq => ?_, h.once, fun {q k} hT hin => ?_, fun {w σ} hT hw => ?_⟩
  · by_cases hqp : q = p
    · subst hqp
      exact absurd (hp hT).1 hq
    · rw [hthreads q hqp]
      exact h.alive hT hq
  · by_cases hqp : q = p
    · subst hqp
      cases (hp hT).2.symm.trans hin
    · rw [hthreads q hqp]
      exact h.blocked hT hin
  · exact h.awaited hT (hw.of_rests (Calm.exited p th handled c).toRests)

/-- The dispatch of a call begins. -/
theorem dispatch (h : Continued T c) {th : Tracee}
    (hp : T p → pend c (.handleSyscallBefore p) = 0 ∧ c.threads p ≠ none ∧ c.inCall p = none) :
    Continued T (c.dispatch p th) := by
  refine ⟨h.alive, h.once, fun {q k} hT hin => ?_, fun {w σ} hT hw => ?_⟩
  · by_cases hqp : q = p
    · subst hqp
      exact ⟨(hp hT).1, (hp hT).2.1⟩
    · exact h.blocked hT (by simpa [Ctl.dispatch, hqp] using hin)
  · have hw : Awaited c w σ := hw.of_armed
      (fun ha => ha.of_events rfl rfl rfl rfl rfl fun _ => le_rfl) id fun _ _ h₁ h₂ => ⟨h₁, h₂⟩
    have hin := h.awaited hT hw
    have hqp : σ.thread ≠ p := by
      intro heq
      rw [heq] at hT hin
      cases (hp hT).2.2.symm.trans hin
    simpa [Ctl.dispatch, hqp] using hin

/-- A thread outside of `T` ends while it is answered, and is rescheduled. -/
theorem vanished (h : Continued T c) {c₁ : Ctl} (hT : ¬ T τ.thread)
    (hv : Vanishes τ.thread (c.onTask τ) c₁) :
    Continued T ((c₁.resched τ.thread).onTask c.task) := by
  have hne : ∀ {q}, T q → q ≠ τ.thread := fun hq heq => hT (heq ▸ hq)
  have hthreads : ∀ q, T q → ((c₁.resched τ.thread).onTask c.task).threads q = c.threads q := by
    intro q hq
    cases hv
    exact Function.update_of_ne (hne hq) ..
  have hpend : ∀ q, T q → pend ((c₁.resched τ.thread).onTask c.task) (.handleSyscallBefore q) =
      pend c (.handleSyscallBefore q) := by
    intro q hq
    have hresched := pend_resched τ.thread c₁ (.handleSyscallBefore q)
    have hneq : EventKind.handleSyscallBefore τ.thread ≠ .handleSyscallBefore q :=
      fun heq => hne hq (EventKind.handleSyscallBefore.inj heq).symm
    rw [if_neg hneq, Nat.add_zero] at hresched
    refine hresched.trans ?_
    cases hv
    rfl
  have hin : ∀ q, T q → ((c₁.resched τ.thread).onTask c.task).inCall q = c.inCall q := by
    intro q hq
    cases hv
    exact Function.update_of_ne (hne hq) ..
  refine ⟨fun {q} hq h0 => ?_, fun {q} hq => ?_, fun {q k} hq hk => ?_, fun {w σ} hq hw => ?_⟩
  · rw [hpend q hq] at h0
    rw [hthreads q hq]
    exact h.alive hq h0
  · rw [hpend q hq]
    exact h.once hq
  · rw [hin q hq] at hk
    rw [hpend q hq, hthreads q hq]
    exact h.blocked hq hk
  · rw [hin _ hq]
    exact h.awaited hq (hw.of_rests (Calm.of_reads (.vanish hv)).toRests)

/-- A `clone` creates the thread `tid`. -/
theorem cloned (h : Continued T c) {tid : Pid} (hnew : T tid → 0 < tid ∧ c.threads tid = none) :
    Continued T (c.cloned tid) := by
  have hthreads : ∀ q, c.threads q ≠ none → (c.cloned tid).threads q ≠ none := by
    intro q hq
    simp only [Ctl.cloned, Ctl.spawn, Ctl.schedule]
    split_ifs
    · exact alive_update q hq
    · exact hq
  have hpend : ∀ q, pend (c.cloned tid) (.handleSyscallBefore q) =
      pend c (.handleSyscallBefore q) + if tid = q then 1 else 0 := by
    intro q
    have he : pend { c.spawn tid with tidVector := c.tidVector ++ [tid] } (.handleSyscallBefore q) =
        pend c (.handleSyscallBefore q) := by
      simp only [pend, Ctl.spawn]
      split_ifs <;> rfl
    rw [Ctl.cloned, pend_schedule, he]
    simp
  have hin : (c.cloned tid).inCall = c.inCall := by
    simp only [Ctl.cloned, Ctl.spawn, Ctl.schedule]
    split_ifs <;> rfl
  -- nothing is scheduled for a thread that did not exist
  have hzero : T tid → pend c (.handleSyscallBefore tid) = 0 := by
    intro hT
    by_contra hp
    exact h.alive hT hp (hnew hT).2
  refine ⟨fun {q} hT hq => ?_, fun {q} hT => ?_, fun {q k} hT hq => ?_, fun {w σ} hT hw => ?_⟩
  · by_cases hqt : tid = q
    · subst hqt
      simp [Ctl.cloned, Ctl.spawn, Ctl.schedule, Ctl.setThread, (hnew hT).1]
    · rw [hpend, if_neg hqt, Nat.add_zero] at hq
      exact hthreads q (h.alive hT hq)
  · rw [hpend]
    by_cases hqt : tid = q
    · subst hqt
      rw [hzero hT, if_pos rfl]
    · rw [if_neg hqt, Nat.add_zero]
      exact h.once hT
  · rw [hin] at hq
    obtain ⟨hp, halive⟩ := h.blocked hT hq
    have hqt : tid ≠ q := by
      rintro rfl
      exact halive (hnew hT).2
    rw [hpend, if_neg hqt, Nat.add_zero]
    exact ⟨hp, hthreads q halive⟩
  · rw [hin]
    exact h.awaited hT (hw.of_rests (Calm.cloned tid c).toRests)

end Continued

/-! ### Answering a call -/

section answering

variable {T : Pid → Prop} {c c₁ c' : Ctl} {τ : Task} {p : Pid} {v : ℤ} {sock : SockId}

/-- Once its flag is set, nothing of a `select` is awaited. -/
theorem Awaited.ne_of_handled {w : Wait} {σ : Task} (h : Awaited c w σ) (hk : Known c)
    (hn : Names c .select τ) (hh : c.alreadyHandled τ.act = true) : σ ≠ τ := by
  rintro rfl
  have hw : w = .select := (hk.armed h.armed).unique hn
  subst hw
  cases h with
  | select _ hnot =>
      rw [hh] at hnot
      cases hnot

/-- A `select` that has not been answered is. -/
theorem Continued.claimed (h : Continued T c) (hk : Known c) {cl : SelectClosure}
    (harm : Armed c .select cl.task) (hnot : c.alreadyHandled cl.task.act = false)
    (hs : SameThreads (c.claim cl) c₁) (ha : ∀ w σ, Awaited c₁ w σ → Awaited (c.claim cl) w σ)
    (hf : Finish cl.task p v c₁ c') : Continued T c' := by
  refine h.resume (fun hT => h.awaited hT (.select harm hnot))
    (((SameThreads.claim cl c).trans hs).resumes (.of_finish hf)) fun w σ hw => ?_
  have hw := ha w σ (hw.of_rests (Calm.of_finish hf).toRests)
  exact ⟨hw.of_claim, hw.ne_of_handled (hk.claim (hk.armed harm)) (hk.armed harm)
    (Function.update_self ..)⟩

theorem Continued.clearRecv (h : Continued T c) (sock : SockId) :
    Continued T (c.setRecvCallback sock none) :=
  h.same (.of_fields rfl rfl rfl) fun _ _ _ hw => .inl (hw.of_setRecv.resolve_right (by simp))

theorem Continued.clearSend (h : Continued T c) (sock : SockId) :
    Continued T (c.setSendCallback sock none) :=
  h.same (.of_fields rfl rfl rfl) fun _ _ _ hw => .inl (hw.of_setSend.resolve_right (by simp))

/-- A blocked `read` or `recvfrom` is answered. -/
theorem Continued.received (h : Continued T c) (hk : Known c) {cb : RecvCallback}
    (hcb : c.recvCallback sock = some cb) (ho : cb.owner = some τ) (hf : Finish τ p v c c') :
    Continued T (c'.setRecvCallback sock none) := by
  have harms := RecvCallback.arms_of_owner ho
  have harm : Armed c .recv τ := .recv hcb harms
  have hs : SameThreads c' (c'.setRecvCallback sock none) := .of_fields rfl rfl rfl
  refine h.resume (fun hT => h.awaited hT (.recv harm)) ((Resumes.of_finish hf).same hs)
    fun w σ hw => ?_
  have hr := (Calm.of_finish hf).toRests
  have hold : Awaited c w σ := (hw.of_setRecv.resolve_right (by simp)).of_rests hr
  refine ⟨hold, ?_⟩
  rintro rfl
  have hwait : w = .recv := (hk.armed hold.armed).unique (hk.armed harm)
  subst hwait
  -- its other callback would be in the slot that has been cleared
  obtain ⟨sock', cb', hcb', harms'⟩ := hw.armed.recv_inv
  have hne : sock' ≠ sock := by
    rintro rfl
    simp [Ctl.setRecvCallback] at hcb'
  have hcb' : c.recvCallback sock' = some cb' := by
    rw [← hr.recvCallback]
    simpa [Ctl.setRecvCallback, hne] using hcb'
  exact hne (hk.recv_once hcb' harms' hcb harms)

/-- The same if its thread may end, unless it is one of `T`. -/
theorem Continued.receivedReads (h : Continued T c) (hk : Known c) {cb : RecvCallback}
    (hcb : c.recvCallback sock = some cb) (ho : cb.owner = some τ)
    (hx : T τ.thread → c.env.wait c.waits ≠ .exited) (hr : Reads τ c c') :
    Continued T (c'.setRecvCallback sock none) := by
  cases hr with
  | finish hf => exact h.received hk hcb ho hf
  | vanish hv =>
      have hT : ¬ T τ.thread := fun hT => hx hT hv.exited
      exact (h.vanished hT hv).clearRecv sock

/-- The connection attempt of a blocked `connect` has ended. -/
theorem Continued.connected (h : Continued T c) (hk : Known c) {cl : ConnectCallback}
    (hcon : c.connecting sock = true) (hcb : c.connectCallback sock = some cl)
    (hf : Finish cl.task p v (c.setConnecting sock false) c') : Continued T c' := by
  have hs : SameThreads c (c.setConnecting sock false) := .of_fields rfl rfl rfl
  refine h.resume (fun hT => h.awaited hT (.connect hcb hcon)) (hs.resumes (.of_finish hf))
    fun w σ hw => ?_
  have hw := hw.of_rests (Calm.of_finish hf).toRests
  refine ⟨hw.of_setConnecting, ?_⟩
  rintro rfl
  have hwait : w = .connect :=
    (hk.armed hw.of_setConnecting.armed).unique (hk.armed (.connect hcb rfl rfl))
  subst hwait
  generalize hτ : cl.task = σ at hw
  cases hw with
  | @connect sock' cl' hcb' hcon' =>
      have hsame : sock' = sock := hk.connect_once hcb' hcb hτ.symm
      subst hsame
      simp [Ctl.setConnecting] at hcon'

end answering

/-! ### Handlers -/

/-- A handler is at work: its thread is in its call, for which nothing is installed. -/
structure Running (T : Pid → Prop) (c : Ctl) : Prop where
  continued : Continued T c
  known : Known c
  fresh : Fresh c c.task
  inCall : T c.task.thread → c.inCall c.task.thread = some c.task.act

namespace Running

variable {T : Pid → Prop} {c c₁ c' : Ctl} {v : ℤ}

theorem calm (h : Running T c) (hc : Calm c c') (hs : SameThreads c c') : Running T c' where
  continued := h.continued.same hs fun _ _ _ hw => .inl (hw.of_rests hc.toRests)
  known := h.known.rests hc.toRests
  fresh := by
    rw [hc.task]
    exact fun w ha => h.fresh w (ha.of_rests hc.toRests)
  inCall := by
    rw [hc.task, hs.inCall]
    exact h.inCall

/-- The call is answered. -/
theorem resume (h : Running T c) (hr : Resumes c.task.thread c c')
    (ha : ∀ w σ, Awaited c' w σ → Awaited c w σ) : Continued T c' := by
  refine h.continued.resume h.inCall hr fun w σ hw => ⟨ha w σ hw, ?_⟩
  rintro rfl
  exact h.fresh w (ha w _ hw).armed

/-- The call waits: what is new is its own. -/
theorem waits (h : Running T c) (hs : SameThreads c c')
    (ha : ∀ w σ, Awaited c' w σ → Awaited c w σ ∨ σ = c.task) : Continued T c' := by
  refine h.continued.same hs fun w σ hT hw => (ha w σ hw).imp_right ?_
  rintro rfl
  exact h.inCall hT

/-- The status of the handler is processed. -/
theorem processed {s s' : St} {p : Pid} {res : SyscallHandlerStatusCode} (h : Running T s.c)
    (ht : s.c.task.thread = p) (hp : Processed p s res s') : Continued T s'.c := by
  cases hp with
  | resumed =>
      subst ht
      exact h.resume (.resched _ _) fun _ _ hw => hw.of_rests (Calm.resched _ _).toRests
  | waits => exact h.continued
  | quits => exact h.continued

end Running

section handlers

variable {T : Pid → Prop} {s s' : St}

theorem NlStep.running {nl : NlId} (h : NlStep nl s s') (hr : Running T s.c) :
    Running T s'.c ∧ s'.c.task = s.c.task := by
  cases h with
  | push => exact ⟨hr, rfl⟩
  | route => exact ⟨hr, rfl⟩
  | @notify cl c' hcb hnot hq hf =>
      have harm : Armed s.c .select cl.task := .nl hcb rfl rfl
      have hne : cl.task ≠ s.c.task := by
        intro heq
        rw [heq] at harm
        exact hr.fresh _ harm
      have hcalm := Calm.of_finish hf
      have htask : c'.task = s.c.task := hcalm.task
      have hdone := hr.continued.claimed hr.known harm hnot (.refl _) (fun _ _ hw => hw) hf
      refine ⟨⟨?_, (NlStep.notify hcb hnot hq hf).known hr.known, ?_, ?_⟩, htask⟩
      · exact hdone.same (.of_fields rfl rfl rfl) fun _ _ _ hw => .inl hw.of_setNl
      · intro w ha
        rw [show (c'.setNlCallback nl none).task = s.c.task from htask] at ha
        refine hr.fresh w ((ha.of_setNl.of_rests hcalm.toRests).of_events rfl rfl rfl rfl rfl ?_)
        intro kind
        rw [Ctl.claim, pend_cancelTimeout]
        split_ifs
        · exact Nat.zero_le _
        · exact le_rfl
      · intro hT
        rw [show (c'.setNlCallback nl none).task = s.c.task from htask] at hT ⊢
        have hin := hr.inCall hT
        have hq : s.c.task.thread ≠ cl.task.thread := by
          intro heq
          have hcl := hr.continued.awaited (heq ▸ hT) (.select harm hnot)
          rw [← heq] at hcl
          have hact := Option.some.inj (hcl.symm.trans hin)
          exact hne (Task.eq_of heq.symm hact)
        show c'.inCall _ = _
        rw [(Resumes.of_finish hf).inCall, Function.update_of_ne hq]
        exact hin

theorem NlWork.running {nl : NlId} (h : NlWork nl s s') (hr : Running T s.c) :
    Running T s'.c ∧ s'.c.task = s.c.task := by
  induction h with
  | refl => exact ⟨hr, rfl⟩
  | tail _ hstep ih =>
      obtain ⟨hr', ht⟩ := hstep.running ih.1
      exact ⟨hr', ht.trans ih.2⟩

/-- An answer that does not end the thread. -/
theorem Reads.finish_of_stops {τ : Task} {c c' : Ctl} (h : Reads τ c c')
    (hw : c.env.wait c.waits ≠ .exited) : ∃ v, Finish τ τ.thread v c c' := by
  cases h with
  | @finish v _ h => exact ⟨v, h⟩
  | vanish h => exact absurd h.exited hw

theorem Passes.tidVector {p : Pid} {c c' : Ctl} (h : Passes p c c') :
    c'.tidVector = c.tidVector := by
  cases h <;> rfl

theorem Handled.continued {s'' : St} {call : Syscall} {res : SyscallHandlerStatusCode}
    (h : Handled call s res s') (hr : Running T s.c) (hcon : Connecting s)
    (hclone : call = .clone → ∀ tid, s'.c.tidVector = s.c.tidVector ++ [tid] → T tid → 0 < tid)
    (hreads : ∀ fd sock, T s.c.task.thread → call.recvFd = some fd →
      s.d.fds.sockets.find fd = some sock → s.d.rxAvailable sock ≠ 0 →
      s.c.env.wait s.c.waits ≠ .exited)
    (hp : Processed s.c.task.thread s' res s'') : Continued T s''.c := by
  -- the call is answered or passed on, without a change of the slots
  have answered : ∀ {s₁ : St}, Calm s.c s₁.c → SameThreads s.c s₁.c →
      Processed s.c.task.thread s₁ res s'' → Continued T s''.c := fun hc hs hp =>
    (hr.calm hc hs).processed (congrArg Task.thread hc.task) hp
  cases h with
  | error => exact absurd rfl hp.ne_error
  | answered _ _ _ _ hpre hc =>
      exact answered ((Calm.of_prelude hpre).trans (Calm.of_completes hc))
        ((SameThreads.of_prelude hpre).trans (.of_completes hc)) hp
  | @listened fd _ sock _ c' _ _ _ _ _ hc =>
      rw [hp.resumed_eq resumes_success]
      have hr₁ := hr.calm (Calm.of_completes hc) (.of_completes hc)
      have hs : SameThreads c' (c'.setAcceptCallback sock (some (.fakeAccept fd))) :=
        .of_fields rfl rfl rfl
      rw [← (Calm.of_completes hc).task]
      refine hr₁.resume (hs.resumes (.resched _ _)) fun w σ hw => ?_
      exact (hw.of_rests (Calm.resched _ _).toRests).of_setAccept (by simp)
  | accepted _ _ _ _ _ hc =>
      refine answered ?_ ?_ hp
      · rw [St.returning_c]
        exact Calm.of_completes hc
      · rw [St.returning_c]
        exact .of_completes hc
  | nlSend _ _ hw hc =>
      obtain ⟨hr₁, ht⟩ := hw.running hr
      have hcalm := Calm.of_completes hc
      refine (hr₁.calm hcalm (.of_completes hc)).processed ?_ hp
      exact congrArg Task.thread (hcalm.task.trans ht)
  | nlOther _ _ _ _ hc => exact answered (Calm.of_completes hc) (.of_completes hc) hp
  | passed _ _ _ _ hc => exact answered (Calm.of_passes hc) (.of_passes hc) hp
  | @cloned c₁ th hcall hc hth hnew =>
      have hr₁ := hr.calm (Calm.of_passes hc) (.of_passes hc)
      have hpos : T th.rax → 0 < th.rax := by
        refine hclone hcall th.rax ?_
        rw [← hc.tidVector]
        simp only [Ctl.cloned, Ctl.schedule]
      have hcalm := Calm.cloned th.rax c₁
      have hin : (c₁.cloned th.rax).inCall = c₁.inCall := by
        simp only [Ctl.cloned, Ctl.spawn, Ctl.schedule]
        split_ifs <;> rfl
      have hr₂ : Running T (c₁.cloned th.rax) := by
        refine ⟨hr₁.continued.cloned fun hT => ⟨hpos hT, hnew (hpos hT)⟩,
          hr₁.known.rests hcalm.toRests, ?_, ?_⟩
        · rw [hcalm.task]
          exact fun w ha => hr₁.fresh w (ha.of_rests hcalm.toRests)
        · rw [hcalm.task, hin]
          exact hr₁.inCall
      exact hr₂.processed (congrArg Task.thread (hcalm.task.trans (Calm.of_passes hc).task)) hp
  | @unadvanced _ d' => exact Running.processed (s := ⟨s.c, d'⟩) hr rfl hp
  | systemExit => exact answered (Calm.refl _) (.refl _) hp
  | recvNow hcall hsock hrx _ hc =>
      rw [hp.waits_eq not_resumes_manual]
      refine Continued.clearRecv ?_ _
      cases hc with
      | finish hf =>
          exact hr.resume (.of_finish hf) fun _ _ hw => hw.of_rests (Calm.of_finish hf).toRests
      | vanish hv =>
          exact hr.continued.vanished (fun hT => hreads _ _ hT hcall hsock hrx hv.exited) hv
  | recvWait _ _ _ _ ho =>
      rw [hp.waits_eq not_resumes_delayed]
      refine hr.waits (.of_fields rfl rfl rfl) fun w σ hw => hw.of_setRecv.imp_right ?_
      rintro ⟨cb', hcb, harms⟩
      cases hcb
      rw [RecvCallback.arms_of_owner ho] at harms
      exact (Prod.mk.inj harms).2.symm
  | writeWait =>
      rw [hp.waits_eq not_resumes_delayed]
      refine hr.waits (.of_fields rfl rfl rfl) fun w σ hw => hw.of_setSend.imp_right ?_
      rintro ⟨cb', hcb, harms⟩
      cases hcb
      cases harms
  | connectRefused =>
      rw [hp.waits_eq not_resumes_delayed]
      exact hr.waits (.of_fields rfl rfl rfl) fun w σ hw => hw.of_setConnect.imp_right And.left
  | @connectWait fd addr sock d' hcall hsock htcp hq =>
      rw [hp.waits_eq not_resumes_delayed]
      exact hr.waits (.of_fields rfl rfl rfl) fun w σ hw => hw.of_connect
  | @connectNow fd addr sock d' c' hcall hsock htcp hq hf =>
      rw [hp.waits_eq not_resumes_delayed]
      have hs : SameThreads s.c (s.c.setConnectCallback sock (some ⟨s.c.task, fd⟩)) :=
        .of_fields rfl rfl rfl
      refine hr.resume (hs.resumes (.of_finish hf)) fun w σ hw => ?_
      refine (hw.of_rests (Calm.of_finish hf).toRests).of_setConnect.resolve_right ?_
      rintro ⟨-, hc⟩
      have htrue := (hcon sock hc).2
      rw [htcp] at htrue
      cases htrue
  | acceptWait =>
      rw [hp.waits_eq not_resumes_delayed]
      exact hr.waits (.of_fields rfl rfl rfl) fun w σ hw => .inl (hw.of_setAccept (by simp))
  | selectNow _ _ _ _ hc => exact answered (Calm.of_completes hc) (.of_completes hc) hp
  | @selectWait args c₁ c' _ _ harms _ ht =>
      rw [hp.waits_eq not_resumes_delayed]
      have hframe := harms.frame
      have hs₁ : SameThreads s.c c₁ := by
        rw [hframe]
        exact .of_fields rfl rfl rfl
      have hs : SameThreads s.c c' := by
        cases ht with
        | none => exact hs₁
        | timer => exact hs₁.trans (.schedule _ (by simp) _)
      obtain ⟨hflags, hslots, hattempts⟩ : c'.alreadyHandled = s.c.alreadyHandled ∧
          c'.connectCallback = s.c.connectCallback ∧ c'.connecting = s.c.connecting := by
        cases ht <;> exact hframe ▸ ⟨rfl, rfl, rfl⟩
      refine hr.waits hs fun w σ hw => ?_
      rcases harms.armed_timer ht hw.armed with ha | ⟨-, hσ⟩
      · refine .inl (hw.of_armed (fun _ => ha) (fun hh => ?_) fun sock cl hcb hcon => ?_)
        · rwa [hflags] at hh
        · rw [hslots] at hcb
          rw [hattempts] at hcon
          exact ⟨hcb, hcon⟩
      · exact .inr hσ
  | sleeping =>
      rw [hp.waits_eq not_resumes_delayed]
      refine hr.waits (.schedule _ (by simp) _) fun w σ hw => ?_
      rcases hw.armed.of_schedule with ha | harms
      · exact .inl (hw.of_armed (fun _ => ha) id fun _ _ h₁ h₂ => ⟨h₁, h₂⟩)
      · exact .inr (Prod.mk.inj (Option.some.inj harms)).2.symm

end handlers

/-! ### Steps -/

section steps

variable {T : Pid → Prop} {s s' : St} {l : Label}

/-- What `rax` of thread `p` holds after the kernel has answered its call.  At an exit stop the wait
ends at the entry of the next call. -/
def Ctl.passResult (p : Pid) (c : Ctl) : Option ℤ :=
  match c.threads p, c.env.wait c.waits with
  | some th, .stopped _ retval => some (if th.phase = .entry then retval else -ENOSYS)
  | _, _ => none

/-- The result of the `clone` that is dispatched when `p` is resumed in `c`. -/
def Ctl.clonedTid (p : Pid) (c : Ctl) : Option ℤ :=
  match c.threads p, c.env.wait (c.waits + 1) with
  | some th, .stopped _ retval => some (if th.phase = .exit then retval else -ENOSYS)
  | _, _ => none

theorem Caught.passResult {p : Pid} {c c₁ : Ctl} (h : Caught p c c₁) (hp : c.pid = p)
    (th : Tracee) : (c₁.dispatch p th).passResult (c₁.dispatch p th).pid = c.clonedTid p := by
  cases h with
  | entry hth hph =>
      cases hw : c.env.wait (c.waits + 1) <;>
        simp [Ctl.passResult, Ctl.clonedTid, Ctl.dispatch, Ctl.toEntry, Ctl.setThread, hp, hth, hph,
          hw]
  | exit hth hph =>
      cases hw : c.env.wait (c.waits + 1) <;>
        simp [Ctl.passResult, Ctl.clonedTid, Ctl.dispatch, Ctl.toExit, Ctl.setThread, hp, hth, hph,
          hw]

theorem handle_clone : wp (handle .clone) (fun res s' => res ≠ .error →
    ∃ tid, s.c.passResult s.c.pid = some tid ∧ s'.c.tidVector = s.c.tidVector ++ [tid]) s := by
  unfold handle handleClone handleSyscallAfterClone
  simp only [wp_bind, wp_get, wp_modifyCtl]
  refine wp_waitForSyscall (fun th hth _ => by simp) ?_ ?_
  · intro th next retval hth hph _ hw
    have hth : s.c.threads s.c.pid = some th := hth
    have hw : s.c.env.wait s.c.waits = .stopped next retval := hw
    have hres : s.c.passResult s.c.pid = some retval := by simp [Ctl.passResult, hth, hw, hph]
    simp only [Bool.not_true, Bool.false_eq_true, if_false, wp_bind, wp_get, Ctl.toExit,
      Ctl.setThread, Function.update_self, wp_ite, wp_throw, wp_modifyCtl, wp_pure]
    exact ⟨fun _ => trivial, fun _ _ => ⟨retval, hres, rfl⟩⟩
  · intro th next retval hth hph hw
    have hth : s.c.threads s.c.pid = some th := hth
    have hw : s.c.env.wait s.c.waits = .stopped next retval := hw
    have hres : s.c.passResult s.c.pid = some (-ENOSYS) := by
      simp [Ctl.passResult, hth, hw, hph]
    simp only [Bool.not_true, Bool.false_eq_true, if_false, wp_bind, wp_get, Ctl.toEntry,
      Ctl.setThread, Function.update_self, wp_ite, wp_throw, wp_modifyCtl, wp_pure]
    exact ⟨fun _ => trivial, fun _ _ => ⟨-ENOSYS, hres, rfl⟩⟩

/-- Every thread that is created exists, no thread ends while it is answered, and the callback of an
`accept` is invoked only while its thread is blocked in it. -/
structure Steady (T : Pid → Prop) (s : St) (l : Label) : Prop where
  clones : ∀ p tid, dispatched s l = some (p, .clone) → s.c.clonedTid p = some tid → T tid → 0 < tid
  reads : ∀ p call fd sock, dispatched s l = some (p, call) → call.recvFd = some fd →
    s.d.fds.sockets.find fd = some sock → s.d.rxAvailable sock ≠ 0 →
    s.c.env.wait (s.c.waits + 1) ≠ .exited
  receives : ∀ sock rx cb τ, l.what = .received sock rx → s.c.recvCallback sock = some cb →
    cb.owner = some τ → s.c.env.wait s.c.waits ≠ .exited
  accepts : ∀ sock addr τ fd out, l.what = .incoming sock addr →
    s.c.acceptCallback sock = some (.accept τ fd out) → s.c.inCall τ.thread = some τ.act

/-- The same, as far as it concerns the threads of `T`. -/
structure SteadyFor (T : Pid → Prop) (s : St) (l : Label) : Prop where
  clones : ∀ p tid, dispatched s l = some (p, .clone) → s.c.clonedTid p = some tid → T tid → 0 < tid
  reads : ∀ p call fd sock, T p → dispatched s l = some (p, call) → call.recvFd = some fd →
    s.d.fds.sockets.find fd = some sock → s.d.rxAvailable sock ≠ 0 →
    s.c.env.wait (s.c.waits + 1) ≠ .exited
  receives : ∀ sock rx cb τ, T τ.thread → l.what = .received sock rx →
    s.c.recvCallback sock = some cb → cb.owner = some τ → s.c.env.wait s.c.waits ≠ .exited
  accepts : ∀ sock addr τ fd out, T τ.thread → l.what = .incoming sock addr →
    s.c.acceptCallback sock = some (.accept τ fd out) → s.c.inCall τ.thread = some τ.act

theorem Steady.steadyFor (h : Steady T s l) : SteadyFor T s l where
  clones := h.clones
  reads p call fd sock _ := h.reads p call fd sock
  receives sock rx cb τ _ := h.receives sock rx cb τ
  accepts sock addr τ fd out _ := h.accepts sock addr τ fd out

/-- The state in which the handler of the call that `l` dispatches starts. -/
theorem Continued.running (h : Continued T s.c) (hk : Known s.c) {i t : ℕ} {p : Pid}
    (hev : s.c.events[i]? = some ⟨t, .handleSyscallBefore p⟩) {c₁ : Ctl}
    (hc : Caught p (((s.moveTo l).c.removeEvent i).setPid p) c₁) (th : Tracee) :
    Running T (c₁.dispatch p th) := by
  have hcalm := Calm.of_caught hc
  have hmove : Continued T (s.moveTo l).c :=
    h.same (.of_fields rfl rfl rfl) fun _ _ _ hw => .inl (hw.of_rests (Rests.setNow _ _))
  have hev' : (s.moveTo l).c.events[i]? = some ⟨t, .handleSyscallBefore p⟩ := hev
  have hpid : SameThreads ((s.moveTo l).c.removeEvent i)
      (((s.moveTo l).c.removeEvent i).setPid p) := .of_fields rfl rfl rfl
  have hcaught := hpid.trans (.of_caught hc)
  have hcont : Continued T c₁ := by
    refine (hmove.removeEvent hev').same hcaught fun _ _ _ hw => .inl ?_
    exact hw.of_rests ((Rests.setPid p _).trans hcalm.toRests)
  have hk₁ : Known c₁ := hk.caught hev hc
  refine ⟨hcont.dispatch fun hT => ?_, hk₁.dispatch p th, hk₁.fresh_dispatch p th, ?_⟩
  · obtain ⟨hzero, halive, hin⟩ := hmove.resumed hT hev'
    refine ⟨(hcaught.resumptions p).trans hzero, hcaught.alive p halive, ?_⟩
    rw [hcaught.inCall]
    exact hin
  · intro _
    simp [Ctl.dispatch]

/-- What `SteadyFor` says about the handler of a `clone`. -/
theorem SteadyFor.clone_pos (hsteady : SteadyFor T s l) {i : ℕ} {p : Pid} {c₁ : Ctl} {th : Tracee}
    {res : SyscallHandlerStatusCode} {s₂ : St} (hd : dispatched s l = some (p, .clone))
    (hc : Caught p (((s.moveTo l).c.removeEvent i).setPid p) c₁)
    (hrun : (handle .clone).run ⟨c₁.dispatch p th, s.d⟩ = .ok (res, s₂)) (hres : res ≠ .error)
    {tid : Pid} (htid : s₂.c.tidVector = (c₁.dispatch p th).tidVector ++ [tid]) (hT : T tid) :
    0 < tid := by
  obtain ⟨tid', hpass, hrecord⟩ := handle_clone.elim hrun hres
  obtain rfl : tid = tid' := by simpa using htid.symm.trans hrecord
  refine hsteady.clones p tid hd ?_ hT
  rw [← hpass]
  exact (hc.passResult rfl th).symm

/-- The wait after the one in which a call is caught. -/
theorem Caught.wait_ne_exited {i : ℕ} {p : Pid} {c₁ : Ctl}
    (hc : Caught p (((s.moveTo l).c.removeEvent i).setPid p) c₁)
    (h : s.c.env.wait (s.c.waits + 1) ≠ .exited) (th : Tracee) :
    (c₁.dispatch p th).env.wait (c₁.dispatch p th).waits ≠ .exited := by
  have hwaits : c₁.waits = s.c.waits + 1 := by cases hc <;> rfl
  show c₁.env.wait c₁.waits ≠ .exited
  rw [(Calm.of_caught hc).env, hwaits]
  exact h

theorem Continued.step_dispatched (h : Continued T s.c) (hk : Known s.c) (hcon : Connecting s)
    (hsteady : SteadyFor T s l) (hs : Grail.step s l = some s') {p : Pid} {call : Syscall}
    (hd : dispatched s l = some (p, call)) : Continued T s'.c := by
  obtain ⟨s₁, res, s₂, hhandles, hrun, hp⟩ := step_handles hs hd
  have hh : Handled call s₁ res s₂ := (handle_spec call).elim hrun
  cases hhandles with
  | @mk i t c₁ th hl hev hc hth =>
      have hcon₁ : Connecting ⟨c₁.dispatch p th, s.d⟩ := by
        intro sock hc'
        have hc' : c₁.connecting sock = true := hc'
        rw [(Calm.of_caught hc).connecting] at hc'
        exact hcon sock hc'
      refine hh.continued (h.running hk hev hc th) hcon₁ (fun hcall tid htid hT => ?_)
        (fun fd sock hT hcall hsock hrx => ?_) hp
      · rw [hcall] at hrun hd
        exact hsteady.clone_pos hd hc hrun hp.ne_error htid hT
      · exact hc.wait_ne_exited (hsteady.reads _ _ fd sock hT hd hcall hsock hrx) th

theorem Continued.step (h : Continued T s.c) (hk : Known s.c) (hcon : Connecting s)
    (hsteady : SteadyFor T s l) (hs : Grail.step s l = some s') : Continued T s'.c := by
  cases hd : dispatched s l with
  | some disp => exact h.step_dispatched hk hcon hsteady hs hd
  | none =>
      obtain ⟨-, -, ho⟩ := step_cases hs
      generalize hl : l.what = what at ho
      have hmove : Rests s.c (s.moveTo l).c := Rests.setNow l.time s.c
      have hk : Known (s.moveTo l).c := hk.rests hmove
      have h : Continued T (s.moveTo l).c :=
        h.same (.of_fields rfl rfl rfl) fun _ _ _ hw => .inl (hw.of_rests hmove)
      cases ho with
      | @fired i e _ hev _ hf =>
          obtain ⟨t, kind⟩ := e
          have hk₁ := hk.removeEvent hev
          have h₁ := h.removeEvent hev
          have hfewer : ∀ k, pend ((s.moveTo l).c.removeEvent i) k ≤ pend (s.moveTo l).c k := by
            intro k
            have hp := pend_removeEvent hev k
            omega
          cases hf with
          | @gone p th hth hx =>
              have hpid : Continued T (((s.moveTo l).c.removeEvent i).setPid p) :=
                h₁.same (.of_fields rfl rfl rfl) fun _ _ _ hw =>
                  .inl (hw.of_rests (Rests.setPid p _))
              refine hpid.exited fun hT => ?_
              obtain ⟨hzero, -, hin⟩ := h.resumed hT hev
              exact ⟨hzero, hin⟩
          | dispatched hc hth =>
              have hcaught : dispatched s l = some _ :=
                dispatched_eq (resumes_eq hl hev rfl) (hc.catches hth)
              rw [hd] at hcaught
              cases hcaught
          | timeoutStale => exact h₁
          | @timeout τ c' hnot hf =>
              have harm : Armed (s.moveTo l).c .select τ := .timer (pend_ne_zero hev) rfl
              have hs : SameThreads (s.moveTo l).c
                  (((s.moveTo l).c.removeEvent i).setHandled τ.act) :=
                (SameThreads.removeEvent hev (by simp)).trans (.of_fields rfl rfl rfl)
              refine h.resume (fun hT => h.awaited hT (.select harm hnot))
                (hs.resumes (.of_finish hf)) fun w σ hw => ?_
              have hw := hw.of_rests (Calm.of_finish hf).toRests
              have hn : Names ((s.moveTo l).c.removeEvent i) .select τ := hk.armed harm
              exact ⟨hw.of_setHandled.of_events hfewer rfl,
                hw.ne_of_handled (hk₁.setHandled hn) hn (Function.update_self ..)⟩
          | @slept τ c' hf =>
              have harm : Armed (s.moveTo l).c .sleep τ := .sleep (pend_ne_zero hev) rfl
              have hs : SameThreads (s.moveTo l).c ((s.moveTo l).c.removeEvent i) :=
                .removeEvent hev (by simp)
              refine h.resume (fun hT => h.awaited hT (.sleep harm)) (hs.resumes (.of_finish hf))
                fun w σ hw => ?_
              have hw := hw.of_rests (Calm.of_finish hf).toRests
              refine ⟨hw.of_events hfewer rfl, ?_⟩
              rintro rfl
              have hwait : w = .sleep :=
                (hk.armed (hw.of_events hfewer rfl).armed).unique (hk.armed harm)
              subst hwait
              have honce := @Known.sleep_once _ hk σ
              have hp := pend_removeEvent hev (.nanosleep σ)
              rw [if_pos rfl] at hp
              have hleft : pend ((s.moveTo l).c.removeEvent i) (.nanosleep σ) ≠ 0 :=
                hw.armed.sleep_inv
              omega
          | removed => exact h₁
      | receivedIdle => exact h
      | receivedRead hcb ho _ hr =>
          exact h.receivedReads hk hcb ho (fun hT => hsteady.receives _ _ _ _ hT hl hcb ho) hr
      | receivedSelect _ hcb hnot hf =>
          exact (h.claimed hk (.recv hcb rfl) hnot (.refl _) (fun _ _ hw => hw) hf).clearRecv _
      | sendableIdle => exact h
      | sendableSelect _ hcb hnot hf =>
          exact (h.claimed hk (.send hcb rfl) hnot (.refl _) (fun _ _ hw => hw) hf).clearSend _
      | incomingLost => exact h
      | incomingStored => exact h
      | @incomingSelect sock sock' addr rx tx cl d' c' _ hcb hnot _ _ hf =>
          have hs : SameThreads ((s.moveTo l).c.claim cl)
              (((s.moveTo l).c.claim cl).setAcceptCallback sock' none) := .of_fields rfl rfl rfl
          exact h.claimed hk (.accept hcb rfl) hnot hs (fun _ _ hw => hw.of_setAccept (by simp)) hf
      | @incomingAccept sock addr rx tx τ fd fd' out d' c₁ _ hcb _ _ hc =>
          have hf : Finish τ s.c.pid fd' (s.moveTo l).c _ := ⟨c₁, hc, rfl⟩
          refine h.resume (fun hT => hsteady.accepts _ _ _ _ _ hT hl hcb) (.of_finish hf)
            fun w σ hw => ?_
          have hold : Awaited (s.moveTo l).c w σ := hw.of_rests (Calm.of_finish hf).toRests
          refine ⟨hold, ?_⟩
          rintro rfl
          have hwait : w = .accept := (hk.armed hold.armed).unique (hk.armed (.accept hcb rfl))
          subst hwait
          cases hold
      | connectIdle =>
          exact h.same (.of_fields rfl rfl rfl) fun _ _ _ hw => .inl hw.of_setConnecting
      | connected hcon' hcb hf => exact h.connected hk hcon' hcb hf
      | refused hcon' hcb hf => exact h.connected hk hcon' hcb hf

theorem Continued.initial (T : Pid → Prop) (app : App) (env : Env) :
    Continued T (St.initial app env).c where
  alive {p} _ hp := by
    by_cases hpid : p = app.appPid
    · simp [St.initial, hpid]
    · exact absurd hp (by simp [pend, St.initial, Ne.symm hpid])
  once _ := by
    rw [pend]
    exact List.countP_le_length
  blocked _ hin := by cases hin
  awaited _ hw := by
    obtain ⟨a, ha, -⟩ := (Known.initial app env).armed hw.armed
    cases ha

theorem Connecting.initial (app : App) (env : Env) : Connecting (St.initial app env) := nofun

theorem continued_of_run {app : App} {env : Env} {ls : List Label}
    (hrun : run (St.initial app env) ls = some s)
    (hsteady : Runs.Meets Grail.step (Steady T) (St.initial app env) ls) : Continued T s.c :=
  (Runs.run_induction
    (I := fun s => Continued T s.c ∧ Known s.c ∧ Connecting s ∧ s.Owned)
    (fun _ _ _ ⟨hc, hk, hcon, ho⟩ hst hs =>
      ⟨hc.step hk hcon hst.steadyFor hs, hk.step hs, hcon.step ho hs, ho.step hs⟩)
    ⟨Continued.initial T app env, Known.initial app env, Connecting.initial app env, Owned.initial⟩
    hrun hsteady).1

end steps

end Grail
