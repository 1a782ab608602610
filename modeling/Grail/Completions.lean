import Grail.Continuations
import Grail.Targets

/-! # One completion for each dispatch

The effects that the handling of a system call has on its thread are one of three sequences
(`Completion`): the call is answered at its entry stop and its thread rescheduled at the exit stop,
the kernel answers it in between, or it is `exit`.

`Accounted T c`: a dispatch of a thread that is still blocked in it has had no effect, every other
one has had the effects of one completion; a thread is blocked at the entry stop of its call, and
scheduled at an exit stop; every system call has been dispatched once, at its entry stop.  A step
keeps this if it meets `Orderly T` (`Accounted.step`). -/

namespace Grail

open Programs

/-! ### The history of a dispatch -/

/-- The effects of dispatch `k`, the last one first. -/
def Ctl.effectsOf (c : Ctl) (k : ℕ) : List Effect := c.log.filter fun e => e.task.act = k

theorem Ctl.effectsOf_append {c c' : Ctl} {new : List Effect} (h : c'.log = new ++ c.log) (k : ℕ) :
    c'.effectsOf k = (new.filter fun e => e.task.act = k) ++ c.effectsOf k := by
  rw [effectsOf, h, List.filter_append]
  rfl

/-- An effect of `τ` on its own thread, which is in that call, at a stop of the system call
`serial`. -/
def Task.effect (τ : Task) (serial : ℕ) (phase : Phase) (kind : EffectKind) : Effect :=
  ⟨τ, τ.thread, kind, some τ.act, some (phase, serial)⟩

/-- The effects that complete the system call `serial` of `τ`. -/
inductive Completion (τ : Task) (call : Syscall) (serial : ℕ) : List Effect → Prop
  /-- `FAKE` and `ProcessStatusCode`; a handler can have set `orig_rax` before -/
  | faked {v : ℤ} {before : List Effect} :
      (∀ e ∈ before, e = τ.effect serial .entry .origRax) →
      Completion τ call serial (τ.effect serial .exit .resched ::
        τ.effect serial .exit (.rax v) :: τ.effect serial .entry .wait ::
        τ.effect serial .entry .origRax :: before)
  /-- `HandleSyscallAfter` and `ProcessStatusCode` -/
  | passed : Completion τ call serial
      [τ.effect serial .exit .resched, τ.effect serial .entry .wait]
  | exit : call = .exit → Completion τ call serial [τ.effect serial .entry .resched]

/-- `τ` is at work: its thread is in its call, at a stop of the system call `serial`. -/
structure AtStop (τ : Task) (serial : ℕ) (phase : Phase) (c : Ctl) : Prop where
  task : c.task = τ
  inCall : c.inCall τ.thread = some τ.act
  tracee : ∃ th, c.threads τ.thread = some th ∧ th.phase = phase ∧ th.serial = serial

/-- The thread has left its call when it is resumed, or it exits. -/
def Tracee.Resumable (th : Tracee) : Prop := th.phase = .exit ∨ th.origRax = .exit

/-! ### What a task does to the others -/

/-- `τ` adds the effects `new`.  The calls of other threads stay, other threads can be created. -/
structure Works (T : Pid → Prop) (τ : Task) (new : List Effect) (c c' : Ctl) : Prop where
  acts : c'.acts = c.acts
  nextSerial : c'.nextSerial = c.nextSerial
  inCall : ∀ q, q ≠ τ.thread → c'.inCall q = c.inCall q
  log : c'.log = new ++ c.log
  own : ∀ e ∈ new, e.task.act = τ.act
  executed : ∀ x ∈ c'.executed, x ∈ c.executed ∨ x.handled = true
  kept : ∀ q, q ≠ τ.thread → c.threads q ≠ none → c'.threads q = c.threads q
  created : ∀ q th, q ≠ τ.thread → c.threads q = none → c'.threads q = some th →
    th.phase = .exit ∧ T q
  scheduled : ∀ q, q ≠ τ.thread → pend c' (.handleSyscallBefore q) ≠ 0 →
    pend c (.handleSyscallBefore q) ≠ 0 ∨ ∀ th, c'.threads q = some th → th.Resumable

/-- The threads, their calls and the history are the same, no thread is scheduled. -/
structure Silent (c c' : Ctl) : Prop where
  acts : c'.acts = c.acts
  nextSerial : c'.nextSerial = c.nextSerial
  inCall : c'.inCall = c.inCall
  log : c'.log = c.log
  executed : c'.executed = c.executed
  threads : c'.threads = c.threads
  scheduled : ∀ q, pend c' (.handleSyscallBefore q) ≠ 0 → pend c (.handleSyscallBefore q) ≠ 0

namespace Silent

variable {c c₁ c' : Ctl}

theorem refl (c : Ctl) : Silent c c := ⟨rfl, rfl, rfl, rfl, rfl, rfl, fun _ h => h⟩

theorem trans (h : Silent c c₁) (h' : Silent c₁ c') : Silent c c' where
  acts := h'.acts.trans h.acts
  nextSerial := h'.nextSerial.trans h.nextSerial
  inCall := h'.inCall.trans h.inCall
  log := h'.log.trans h.log
  executed := h'.executed.trans h.executed
  threads := h'.threads.trans h.threads
  scheduled q hq := h.scheduled q (h'.scheduled q hq)

/-- Only other fields differ. -/
theorem of_fields (ha : c'.acts = c.acts) (hn : c'.nextSerial = c.nextSerial)
    (hi : c'.inCall = c.inCall) (hl : c'.log = c.log) (hx : c'.executed = c.executed)
    (ht : c'.threads = c.threads) (he : c'.events = c.events) : Silent c c' :=
  ⟨ha, hn, hi, hl, hx, ht, fun q hq => by rwa [pend, he] at hq⟩

theorem schedule (delay : ℕ) {kind : EventKind} (hk : ∀ p, kind ≠ .handleSyscallBefore p)
    (c : Ctl) : Silent c (c.schedule delay kind) := by
  refine ⟨rfl, rfl, rfl, rfl, rfl, rfl, fun q hq => ?_⟩
  rwa [pend_schedule, if_neg (hk q), Nat.add_zero] at hq

theorem removeEvent {i : ℕ} {e : Event} (he : c.events[i]? = some e) :
    Silent c (c.removeEvent i) := by
  refine ⟨rfl, rfl, rfl, rfl, rfl, rfl, fun q hq => ?_⟩
  have hp := pend_removeEvent he (.handleSyscallBefore q)
  omega

theorem claim (cl : SelectClosure) (c : Ctl) : Silent c (c.claim cl) := by
  refine ⟨rfl, rfl, rfl, rfl, rfl, rfl, fun q hq => ?_⟩
  rw [Ctl.claim, pend_cancelTimeout, if_neg (by simp)] at hq
  exact hq

theorem works {T : Pid → Prop} (h : Silent c c') (τ : Task) : Works T τ [] c c' where
  acts := h.acts
  nextSerial := h.nextSerial
  inCall q _ := by rw [h.inCall]
  log := h.log
  own := nofun
  executed x hx := .inl (h.executed ▸ hx)
  kept q _ _ := by rw [h.threads]
  created q th _ hnone hth := by
    rw [h.threads, hnone] at hth
    cases hth
  scheduled q _ hq := .inl (h.scheduled q hq)

end Silent

section works

variable {T : Pid → Prop} {τ : Task} {new new' : List Effect} {c c₁ c' : Ctl} {n : ℕ} {v : ℤ}

theorem Works.trans (h : Works T τ new c c₁) (h' : Works T τ new' c₁ c') :
    Works T τ (new' ++ new) c c' where
  acts := h'.acts.trans h.acts
  nextSerial := h'.nextSerial.trans h.nextSerial
  inCall q hq := (h'.inCall q hq).trans (h.inCall q hq)
  log := by rw [h'.log, h.log, List.append_assoc]
  own e he := (List.mem_append.mp he).elim (h'.own e) (h.own e)
  executed x hx := (h'.executed x hx).elim (h.executed x) Or.inr
  kept q hq hne := by
    have h₁ := h.kept q hq hne
    rw [h'.kept q hq (h₁ ▸ hne), h₁]
  created q th hq hnone hth := by
    cases h₁ : c₁.threads q with
    | none => exact h'.created q th hq h₁ hth
    | some th₁ =>
        have hsame : c'.threads q = c₁.threads q := h'.kept q hq (by simp [h₁])
        exact h.created q th hq hnone (hsame ▸ hth)
  scheduled q hq hp := by
    rcases h'.scheduled q hq hp with hp | hres
    · refine (h.scheduled q hq hp).imp_right fun hres th hth => ?_
      cases h₁ : c₁.threads q with
      | none => exact .inl (h'.created q th hq h₁ hth).1
      | some th₁ =>
          have hsame : c'.threads q = c₁.threads q := h'.kept q hq (by simp [h₁])
          exact hres th (hsame ▸ hth)
    · exact .inr hres

/-- The thread of `τ` gets to another stop. -/
theorem Works.of_update {th : Option Tracee} (ha : c'.acts = c.acts)
    (hn : c'.nextSerial = c.nextSerial) (hi : c'.inCall = c.inCall) (hl : c'.log = new ++ c.log)
    (hown : ∀ e ∈ new, e.task.act = τ.act)
    (hx : ∀ x ∈ c'.executed, x ∈ c.executed ∨ x.handled = true)
    (ht : c'.threads = Function.update c.threads τ.thread th) (he : c'.events = c.events) :
    Works T τ new c c' where
  acts := ha
  nextSerial := hn
  inCall q _ := by rw [hi]
  log := hl
  own := hown
  executed := hx
  kept q hq _ := by rw [ht, Function.update_of_ne hq]
  created q th' hq hnone hth := by
    rw [ht, Function.update_of_ne hq, hnone] at hth
    cases hth
  scheduled q _ hq := .inl (by rwa [pend, he] at hq)

/-- A `FAKE` at the entry stop. -/
theorem AtStop.answer (h : AtStop τ n .entry c) (hc : Completes τ.thread v c c') :
    AtStop τ n .exit c' ∧ Works T τ
      [τ.effect n .exit (.rax v), τ.effect n .entry .wait, τ.effect n .entry .origRax] c c' := by
  obtain ⟨ht, hin, th, hth, hph, rfl⟩ := h
  subst ht
  cases hc with
  | @atEntry th' hth' =>
      cases hth.symm.trans hth'
      refine ⟨⟨rfl, hin, _, Function.update_self .., rfl, rfl⟩, ?_⟩
      refine .of_update rfl rfl rfl ?_ (by simp [Task.effect]) (fun x hx => .inl hx) rfl rfl
      simp [Ctl.answer, Task.effect, hin]
  | @atExit th' _ hth' hph' =>
      cases hth.symm.trans hth'
      rw [hph] at hph'
      cases hph'

/-- A `HandleSyscallAfter` at the entry stop. -/
theorem AtStop.pass (h : AtStop τ n .entry c) (hc : Passes τ.thread c c') :
    AtStop τ n .exit c' ∧ Works T τ [τ.effect n .entry .wait] c c' := by
  obtain ⟨ht, hin, th, hth, hph, rfl⟩ := h
  subst ht
  cases hc with
  | @atEntry th' retval hth' =>
      cases hth.symm.trans hth'
      refine ⟨⟨rfl, hin, _, Function.update_self .., rfl, rfl⟩, ?_⟩
      refine .of_update rfl rfl rfl ?_ (by simp [Task.effect]) (fun x hx => ?_) rfl rfl
      · simp [Ctl.pass, Task.effect, hin]
      · refine (List.mem_append.mp hx).symm.imp_right fun hx => ?_
        unfold Ctl.executes at hx
        split_ifs at hx
        · rw [List.mem_singleton.mp hx]
        · cases hx
  | @atExit th' _ hth' hph' =>
      cases hth.symm.trans hth'
      rw [hph] at hph'
      cases hph'

/-- What a handler does before it answers its call. -/
theorem AtStop.prelude (h : AtStop τ n .entry c) (hc : Prelude τ.thread c c') :
    AtStop τ n .entry c' ∧ ∃ new, (∀ e ∈ new, e = τ.effect n .entry .origRax) ∧
      Works T τ new c c' := by
  cases hc with
  | none => exact ⟨h, [], nofun, (Silent.refl c).works τ⟩
  | close =>
      exact ⟨⟨h.task, h.inCall, h.tracee⟩, [], nofun, (Silent.schedule _ (by simp) c).works τ⟩
  | @origRax th' hth' =>
      obtain ⟨ht, hin, th, hth, hph, rfl⟩ := h
      subst ht
      cases hth.symm.trans hth'
      refine ⟨⟨rfl, hin, _, Function.update_self .., hph, rfl⟩,
        [c.task.effect th'.serial .entry .origRax], by simp, ?_⟩
      refine .of_update rfl rfl rfl ?_ (by simp [Task.effect]) (fun x hx => .inl hx) rfl rfl
      simp [Ctl.note, Ctl.setThread, Task.effect, hin, Ctl.stop, hth, hph]

/-- `ProcessStatusCode` reschedules the thread. -/
theorem AtStop.resched {phase : Phase} (h : AtStop τ n phase c) :
    (c.resched τ.thread).inCall τ.thread = none ∧
      Works T τ [τ.effect n phase .resched] c (c.resched τ.thread) := by
  obtain ⟨ht, hin, th, hth, rfl, rfl⟩ := h
  subst ht
  refine ⟨Function.update_self .., ?_⟩
  refine ⟨rfl, rfl, fun q hq => Function.update_of_ne hq .., ?_, by simp [Task.effect],
    fun x hx => .inl hx, fun _ _ _ => rfl, fun q th' _ hnone hth' => ?_, fun q hq hp => .inl ?_⟩
  · simp [Ctl.resched, Ctl.schedule, Ctl.note, Task.effect, Ctl.stop, hin, hth]
  · cases hnone.symm.trans hth'
  · rwa [pend_resched, if_neg (by simpa using hq.symm), Nat.add_zero] at hp

/-- A `clone` creates a thread. -/
theorem Works.cloned {tid : Pid} (hpos : ∀ p, 0 < p → T p) (hT : T tid → 0 < tid)
    (honly : c.threads tid ≠ none → T tid) (hnew : 0 < tid → c.threads tid = none) :
    Works T τ [] c (c.cloned tid) := by
  have hthreads : ∀ q, q ≠ tid → (c.cloned tid).threads q = c.threads q := by
    intro q hq
    simp only [Ctl.cloned, Ctl.spawn, Ctl.schedule]
    split_ifs
    · exact Function.update_of_ne hq ..
    · rfl
  have hnone : c.threads tid = none := by
    by_contra hne
    exact hne (hnew (hT (honly hne)))
  have hself : ∀ th, (c.cloned tid).threads tid = some th → th.phase = .exit ∧ T tid := by
    intro th hth
    simp only [Ctl.cloned, Ctl.spawn, Ctl.schedule] at hth
    split_ifs at hth with hlt
    · simp only [Ctl.setThread, Function.update_self, Option.some.injEq] at hth
      exact ⟨hth ▸ rfl, hpos tid hlt⟩
    · cases hnone.symm.trans hth
  have hfields : ∀ q, (c.cloned tid).acts = c.acts ∧ (c.cloned tid).nextSerial = c.nextSerial ∧
      (c.cloned tid).inCall q = c.inCall q ∧ (c.cloned tid).log = c.log ∧
      (c.cloned tid).executed = c.executed := by
    intro q
    simp only [Ctl.cloned, Ctl.spawn, Ctl.schedule]
    split_ifs <;> exact ⟨rfl, rfl, rfl, rfl, rfl⟩
  refine ⟨(hfields 0).1, (hfields 0).2.1, fun q _ => (hfields q).2.2.1, (hfields 0).2.2.2.1,
    fun _ h => absurd h List.not_mem_nil, fun x hx => .inl ((hfields 0).2.2.2.2 ▸ hx), fun q _ hq => ?_, fun q th _ hq hth => ?_,
    fun q _ hp => ?_⟩
  · refine hthreads q ?_
    rintro rfl
    exact hq hnone
  · by_cases hqt : q = tid
    · subst hqt
      exact hself th hth
    · rw [hthreads q hqt, hq] at hth
      cases hth
  · by_cases hqt : tid = q
    · subst hqt
      exact .inr fun th hth => .inl (hself th hth).1
    · refine .inl ?_
      have he : pend { c.spawn tid with tidVector := c.tidVector ++ [tid] }
          (.handleSyscallBefore q) = pend c (.handleSyscallBefore q) := by
        simp only [pend, Ctl.spawn]
        split_ifs <;> rfl
      rwa [Ctl.cloned, pend_schedule, he, if_neg (by simpa using hqt), Nat.add_zero] at hp

end works

/-! ### The invariant -/

structure Accounted (T : Pid → Prop) (c : Ctl) : Prop where
  only {p} : c.threads p ≠ none → T p
  scheduled {p th} : pend c (.handleSyscallBefore p) ≠ 0 → c.threads p = some th → th.Resumable
  blocked {p k} : c.inCall p = some k → ∃ th a, c.threads p = some th ∧ c.acts k = some a ∧
    a.pid = p ∧ th.phase = .entry ∧ th.serial = a.serial ∧ th.origRax = a.call
  act {k a} : c.acts k = some a → T a.pid ∧ a.phase = .entry ∧ 0 < a.serial ∧
    a.serial < c.nextSerial
  history {k a} : c.acts k = some a →
    if c.inCall a.pid = some k then c.effectsOf k = []
    else Completion ⟨a.pid, k⟩ a.call a.serial (c.effectsOf k)
  serial_pos : 0 < c.nextSerial
  serials {n} : 0 < n → n < c.nextSerial → ∃! k, ∃ a, c.acts k = some a ∧ a.serial = n
  log {e} : e ∈ c.log → ∃ a, c.acts e.task.act = some a
  executed {x} : x ∈ c.executed → x.handled = true ∨ x.call = .exit

namespace Accounted

variable {T : Pid → Prop} {τ : Task} {new : List Effect} {c c' : Ctl} {a : Activation} {v : ℤ}

theorem silent (h : Accounted T c) (hs : Silent c c') : Accounted T c' := by
  have heffects : ∀ k, c'.effectsOf k = c.effectsOf k := fun k => by
    simp only [Ctl.effectsOf, hs.log]
  refine ⟨fun hp => h.only (hs.threads ▸ hp), fun hp hth => ?_, fun hin => ?_, fun ha => ?_,
    fun ha => ?_, hs.nextSerial ▸ h.serial_pos, fun h0 hn => ?_, fun he => ?_,
    fun hx => h.executed (hs.executed ▸ hx)⟩
  · exact h.scheduled (hs.scheduled _ hp) (hs.threads ▸ hth)
  · rw [hs.threads, hs.acts]
    exact h.blocked (hs.inCall ▸ hin)
  · rw [hs.nextSerial]
    exact h.act (hs.acts ▸ ha)
  · rw [hs.inCall, heffects]
    exact h.history (hs.acts ▸ ha)
  · rw [hs.acts]
    exact h.serials h0 (hs.nextSerial ▸ hn)
  · rw [hs.acts]
    exact h.log (hs.log ▸ he)

/-- The call of `τ` is completed. -/
theorem complete (h : Accounted T c) (hin : c.inCall τ.thread = some τ.act)
    (ha : c.acts τ.act = some a) (hw : Works T τ new c c')
    (hnew : Completion τ a.call a.serial new) (hout : c'.inCall τ.thread = none)
    (hth : ∃ th, c'.threads τ.thread = some th ∧ th.Resumable) : Accounted T c' := by
  obtain ⟨th₀, a₀, hth₀, ha₀, hpid, -⟩ := h.blocked hin
  cases ha.symm.trans ha₀
  obtain ⟨th, hth, hres⟩ := hth
  refine ⟨fun {p} hp => ?_, fun {p th'} hp hth' => ?_, fun {p k} hk => ?_, fun hk => ?_,
    fun {k b} hk => ?_, hw.nextSerial ▸ h.serial_pos, fun h0 hn => ?_, fun {e} he => ?_,
    fun hx => ?_⟩
  · by_cases hq : p = τ.thread
    · subst hq
      exact h.only (by simp [hth₀])
    · cases hc : c.threads p with
      | none =>
          obtain ⟨th', hth'⟩ := Option.ne_none_iff_exists'.mp hp
          exact (hw.created p th' hq hc hth').2
      | some th' => exact h.only (by simp [hc])
  · by_cases hq : p = τ.thread
    · subst hq
      cases hth.symm.trans hth'
      exact hres
    · rcases hw.scheduled p hq hp with hp | hres'
      · cases hc : c.threads p with
        | none => exact .inl (hw.created p th' hq hc hth').1
        | some th₁ =>
            have hsame : c'.threads p = c.threads p := hw.kept p hq (by simp [hc])
            exact h.scheduled hp (hsame ▸ hth')
      · exact hres' th' hth'
  · have hq : p ≠ τ.thread := by
      rintro rfl
      cases hout.symm.trans hk
    rw [hw.inCall p hq] at hk
    obtain ⟨th', b, hth', hrest⟩ := h.blocked hk
    refine ⟨th', b, ?_, hw.acts ▸ hrest⟩
    rw [hw.kept p hq (by simp [hth'])]
    exact hth'
  · rw [hw.nextSerial]
    exact h.act (hw.acts ▸ hk)
  · rw [hw.acts] at hk
    have hold := h.history hk
    rw [Ctl.effectsOf_append hw.log]
    by_cases hkt : k = τ.act
    · subst hkt
      cases ha.symm.trans hk
      have hfilter : (new.filter fun e => e.task.act = τ.act) = new :=
        List.filter_eq_self.mpr fun e he => decide_eq_true (hw.own e he)
      have hempty : c.effectsOf τ.act = [] := by
        rw [if_pos (hpid ▸ hin)] at hold
        exact hold
      rw [if_neg (by rw [hpid, hout]; simp), hfilter, hempty, List.append_nil, hpid]
      exact hnew
    · have hfilter : (new.filter fun e => e.task.act = k) = [] :=
        List.filter_eq_nil_iff.mpr fun e he => by
          rw [hw.own e he]
          simpa using Ne.symm hkt
      rw [hfilter, List.nil_append]
      by_cases hq : b.pid = τ.thread
      · rw [hq, hin, if_neg (by simpa using Ne.symm hkt)] at hold
        rw [hq, hout, if_neg (by simp)]
        exact hold
      · rw [hw.inCall _ hq]
        exact hold
  · rw [hw.acts]
    exact h.serials h0 (hw.nextSerial ▸ hn)
  · rw [hw.acts]
    rw [hw.log] at he
    rcases List.mem_append.mp he with he | he
    · exact ⟨a, (hw.own e he).symm ▸ ha⟩
    · exact h.log he
  · exact (hw.executed _ hx).elim h.executed Or.inl

/-- The thread that is blocked is at the entry stop of its call. -/
theorem atStop (h : Accounted T c) (hin : c.inCall c.task.thread = some c.task.act) :
    ∃ a, c.acts c.task.act = some a ∧ AtStop c.task a.serial .entry c := by
  obtain ⟨th, a, hth, ha, -, hph, hserial, -⟩ := h.blocked hin
  exact ⟨a, ha, rfl, hin, th, hth, hph, hserial⟩

/-- A call is answered on behalf of the task that is blocked in it. -/
theorem finish (h : Accounted T c) (hin : c.inCall τ.thread = some τ.act)
    (hf : Finish τ τ.thread v c c') : Accounted T c' := by
  obtain ⟨c₁, hc, rfl⟩ := hf
  have hτ : Silent c (c.onTask τ) := .of_fields rfl rfl rfl rfl rfl rfl rfl
  obtain ⟨a, ha, hh⟩ := (h.silent hτ).atStop hin
  obtain ⟨hh₁, hw₁⟩ := hh.answer (T := T) hc
  obtain ⟨hout, hw₂⟩ := hh₁.resched (T := T)
  obtain ⟨-, -, th, hth, hph, -⟩ := hh₁
  have hdone := (h.silent hτ).complete hin ha (hw₁.trans hw₂) (.faked nofun) hout
    ⟨th, hth, .inl hph⟩
  exact hdone.silent (.of_fields rfl rfl rfl rfl rfl rfl rfl)

/-- The call of the current task is answered, and its thread rescheduled. -/
theorem fake {c₁ c₂ : Ctl} (h : Accounted T c) (hin : c.inCall c.task.thread = some c.task.act)
    (hpre : Prelude c.task.thread c c₁) (hc : Completes c.task.thread v c₁ c₂) :
    Accounted T (c₂.resched c.task.thread) := by
  obtain ⟨a, ha, hh⟩ := h.atStop hin
  obtain ⟨hh, before, hbefore, hw₀⟩ := hh.prelude (T := T) hpre
  obtain ⟨hh, hw₁⟩ := hh.answer (T := T) hc
  obtain ⟨hout, hw₂⟩ := hh.resched (T := T)
  obtain ⟨-, -, th, hth, hph, -⟩ := hh
  exact h.complete hin ha ((hw₀.trans hw₁).trans hw₂) (.faked hbefore) hout ⟨th, hth, .inl hph⟩

/-- The call of the current task is passed on, and its thread rescheduled. -/
theorem pass (h : Accounted T c) (hin : c.inCall c.task.thread = some c.task.act)
    (hc : Passes c.task.thread c c') : Accounted T (c'.resched c.task.thread) := by
  obtain ⟨a, ha, hh⟩ := h.atStop hin
  obtain ⟨hh, hw₁⟩ := hh.pass (T := T) hc
  obtain ⟨hout, hw₂⟩ := hh.resched (T := T)
  obtain ⟨-, -, th, hth, hph, -⟩ := hh
  exact h.complete hin ha (hw₁.trans hw₂) .passed hout ⟨th, hth, .inl hph⟩

/-- The thread of a `clone` is rescheduled after the new thread has been scheduled. -/
theorem clone {tid : Pid} (h : Accounted T c) (hin : c.inCall c.task.thread = some c.task.act)
    (hc : Passes c.task.thread c c') (hpos : ∀ p, 0 < p → T p) (hT : T tid → 0 < tid)
    (hnew : 0 < tid → c'.threads tid = none) :
    Accounted T ((c'.cloned tid).resched c.task.thread) := by
  obtain ⟨a, ha, hh⟩ := h.atStop hin
  obtain ⟨hh, hw₁⟩ := hh.pass (T := T) hc
  have honly : c'.threads tid ≠ none → T tid := by
    intro hne
    refine h.only fun hnone => hne ?_
    by_contra hne'
    obtain ⟨th, hth⟩ := Option.ne_none_iff_exists'.mp hne'
    by_cases hq : tid = c.task.thread
    · obtain ⟨th', -, hth', -⟩ := h.blocked hin
      rw [← hq, hnone] at hth'
      cases hth'
    · exact hne' (hnew (hT (hw₁.created tid th hq hnone hth).2))
  have hw₂ := @Works.cloned T c.task c' tid hpos hT honly hnew
  have hh : AtStop c.task a.serial .exit (c'.cloned tid) := by
    obtain ⟨htask, hin', th, hth, hrest⟩ := hh
    have hne : 0 < tid → c.task.thread ≠ tid := by
      intro hlt heq
      rw [heq, hnew hlt] at hth
      cases hth
    simp only [Ctl.cloned, Ctl.spawn, Ctl.schedule]
    split_ifs with hlt
    · exact ⟨htask, hin', th, (Function.update_of_ne (hne hlt) ..).trans hth, hrest⟩
    · exact ⟨htask, hin', th, hth, hrest⟩
  obtain ⟨hout, hw₃⟩ := hh.resched (T := T)
  obtain ⟨-, -, th, hth, hph, -⟩ := hh
  exact h.complete hin ha ((hw₁.trans hw₂).trans hw₃) .passed hout ⟨th, hth, .inl hph⟩

/-- `exit` is left at its entry stop. -/
theorem exit (h : Accounted T c) (hin : c.inCall c.task.thread = some c.task.act)
    (hcall : ∀ a, c.acts c.task.act = some a → a.call = .exit) :
    Accounted T (c.resched c.task.thread) := by
  obtain ⟨a, ha, hh⟩ := h.atStop hin
  obtain ⟨th, a', hth, ha', -, -, -, hrax⟩ := h.blocked hin
  cases ha.symm.trans ha'
  obtain ⟨hout, hw⟩ := hh.resched (T := T)
  exact h.complete hin ha hw (.exit (hcall a ha)) hout ⟨th, hth, .inr (hrax.trans (hcall a ha))⟩

/-- The thread that a closure names is one of the threads. -/
theorem of_armed {w : Wait} (h : Accounted T c) (hk : Known c) (harm : Armed c w τ) :
    T τ.thread := by
  obtain ⟨a, ha, hp, -⟩ := hk.armed harm
  exact hp ▸ (h.act ha).1

/-- A thread ends that is in no call. -/
theorem exited (h : Accounted T c) {p : Pid} {th : Tracee} (hin : c.inCall p = none)
    (hth : c.threads p = some th) (hres : th.Resumable) : Accounted T (c.exited p th false) := by
  have hthreads : ∀ {q th'}, (c.exited p th false).threads q = some th' →
      c.threads q = some th' := by
    intro q th' hq
    by_cases hqp : q = p
    · subst hqp
      simp [Ctl.exited, Ctl.setThread] at hq
    · simpa [Ctl.exited, Ctl.setThread, hqp] using hq
  refine ⟨fun {q} hq => ?_, fun hp hq => h.scheduled hp (hthreads hq), fun {q k} hk => ?_, h.act,
    h.history, h.serial_pos, h.serials, h.log, fun {x} hx => ?_⟩
  · obtain ⟨th', hth'⟩ := Option.ne_none_iff_exists'.mp hq
    exact h.only (by simp [hthreads hth'])
  · have hqp : q ≠ p := by
      rintro rfl
      cases hin.symm.trans hk
    obtain ⟨th', b, hth', hrest⟩ := h.blocked hk
    exact ⟨th', b, (Function.update_of_ne hqp ..).trans hth', hrest⟩
  · refine (List.mem_append.mp hx).elim (fun hx => .inr ?_) h.executed
    unfold Ctl.executes at hx
    split_ifs at hx with hph
    · rw [List.mem_singleton.mp hx]
      have hcall := hres.resolve_left (by simp [hph.1])
      simpa [Tracee.origRax, hph.2] using hcall
    · cases hx

/-- The next call of a thread that is in no call is dispatched. -/
theorem dispatch (h : Accounted T c) (hk : Known c) {p : Pid} {th : Tracee} {next : Syscall}
    (hin : c.inCall p = none) (hzero : pend c (.handleSyscallBefore p) = 0)
    (hth : c.threads p ≠ none) (hcaught : (c.toEntry p next).threads p = some th) :
    Accounted T ((c.toEntry p next).dispatch p th) := by
  have hself : (⟨.entry, next, false, -ENOSYS, c.nextSerial, c.now⟩ : Tracee) = th := by
    simpa [Ctl.toEntry, Ctl.setThread] using hcaught
  subst hself
  generalize hc' : Ctl.dispatch p _ (c.toEntry p next) = c'
  have hacts : c'.acts = Function.update c.acts c.nextAct
      (some ⟨p, next, .entry, c.nextSerial, c.now⟩) := hc' ▸ rfl
  have hinCall : c'.inCall = Function.update c.inCall p (some c.nextAct) := hc' ▸ rfl
  have hthreads : c'.threads = Function.update c.threads p
      (some ⟨.entry, next, false, -ENOSYS, c.nextSerial, c.now⟩) := hc' ▸ rfl
  have hserial : c'.nextSerial = c.nextSerial + 1 := hc' ▸ rfl
  have hlog : c'.log = c.log := hc' ▸ rfl
  have hexecuted : c'.executed = c.executed := hc' ▸ rfl
  have hpend : ∀ q, pend c' (.handleSyscallBefore q) = pend c (.handleSyscallBefore q) :=
    hc' ▸ fun _ => rfl
  clear hc' hcaught
  have heffects : ∀ k, c'.effectsOf k = c.effectsOf k := fun k => by
    simp only [Ctl.effectsOf, hlog]
  have hne : ∀ {k b}, c.acts k = some b → k ≠ c.nextAct := fun hb => (hk.acts_lt hb).ne
  have later : ∀ {k b}, c.acts k = some b → c'.acts k = some b := fun hb => by
    rwa [hacts, Function.update_of_ne (hne hb)]
  have earlier : ∀ {k b}, k ≠ c.nextAct → c'.acts k = some b → c.acts k = some b :=
    fun hkn hb => by rwa [hacts, Function.update_of_ne hkn] at hb
  -- the new dispatch has had no effect
  have hempty : c.effectsOf c.nextAct = [] := by
    refine List.filter_eq_nil_iff.mpr fun e he => ?_
    obtain ⟨b, hb⟩ := h.log he
    simpa using hne hb
  refine ⟨fun {q} hq => ?_, fun {q th} hp hq => ?_, fun {q k} hin' => ?_, fun {k b} hb => ?_,
    fun {k b} hb => ?_, hserial ▸ Nat.succ_pos _, fun {n} h0 hn => ?_, fun {e} he => ?_,
    fun hx => ?_⟩
  · by_cases hqp : q = p
    · subst hqp
      exact h.only hth
    · rw [hthreads, Function.update_of_ne hqp] at hq
      exact h.only hq
  · rw [hpend] at hp
    have hqp : q ≠ p := by
      rintro rfl
      exact hp hzero
    rw [hthreads, Function.update_of_ne hqp] at hq
    exact h.scheduled hp hq
  · by_cases hqp : q = p
    · subst hqp
      rw [hinCall, Function.update_self, Option.some.injEq] at hin'
      subst hin'
      rw [hthreads, hacts, Function.update_self, Function.update_self]
      exact ⟨_, _, rfl, rfl, rfl, rfl, rfl, rfl⟩
    · rw [hinCall, Function.update_of_ne hqp] at hin'
      obtain ⟨th, b, hthq, hb, hrest⟩ := h.blocked hin'
      refine ⟨th, b, ?_, later hb, hrest⟩
      rwa [hthreads, Function.update_of_ne hqp]
  · rw [hserial]
    by_cases hkn : k = c.nextAct
    · subst hkn
      rw [hacts, Function.update_self, Option.some.injEq] at hb
      subst hb
      exact ⟨h.only hth, rfl, h.serial_pos, Nat.lt_succ_self _⟩
    · obtain ⟨hT, hph, h0, hlt⟩ := h.act (earlier hkn hb)
      exact ⟨hT, hph, h0, Nat.lt_succ_of_lt hlt⟩
  · rw [heffects]
    by_cases hkn : k = c.nextAct
    · subst hkn
      rw [hacts, Function.update_self, Option.some.injEq] at hb
      subst hb
      rw [if_pos (by rw [hinCall, Function.update_self])]
      exact hempty
    · have hb := earlier hkn hb
      have hold := h.history hb
      by_cases hq : b.pid = p
      · rw [hq, hin, if_neg (by simp)] at hold
        rw [hq, hinCall, Function.update_self, if_neg (by simpa using Ne.symm hkn)]
        exact hold
      · rw [hinCall, Function.update_of_ne hq]
        exact hold
  · rw [hserial] at hn
    rcases Nat.lt_succ_iff_lt_or_eq.mp hn with hlt | rfl
    · obtain ⟨k, ⟨b, hb, hbn⟩, hunique⟩ := h.serials h0 hlt
      refine ⟨k, ⟨b, later hb, hbn⟩, ?_⟩
      rintro k' ⟨b', hb', hbn'⟩
      by_cases hkn : k' = c.nextAct
      · subst hkn
        rw [hacts, Function.update_self, Option.some.injEq] at hb'
        subst hb'
        exact absurd hbn' hlt.ne'
      · exact hunique k' ⟨b', earlier hkn hb', hbn'⟩
    · refine ⟨c.nextAct, ⟨_, by rw [hacts, Function.update_self], rfl⟩, ?_⟩
      rintro k' ⟨b', hb', hbn'⟩
      by_contra hkn
      exact absurd hbn' (h.act (earlier hkn hb')).2.2.2.ne
  · obtain ⟨b, hb⟩ := h.log (hlog ▸ he)
    exact ⟨b, later hb⟩
  · exact h.executed (hexecuted ▸ hx)

theorem initial (app : App) (env : Env) (hT : T app.appPid) :
    Accounted T (St.initial app env).c where
  only {p} hp := by
    by_cases hpid : p = app.appPid
    · exact hpid ▸ hT
    · exact absurd (if_neg hpid) hp
  scheduled {p th} _ hth := by
    by_cases hpid : p = app.appPid
    · simp only [St.initial, hpid, if_true, Option.some.injEq] at hth
      exact .inl (hth ▸ rfl)
    · simp [St.initial, hpid] at hth
  blocked hin := by cases hin
  act ha := by cases ha
  history ha := by cases ha
  serial_pos := Nat.one_pos
  serials h0 hn := absurd h0 (Nat.not_lt.mpr (Nat.le_of_lt_succ hn))
  log he := by cases he
  executed hx := by cases hx

end Accounted

/-! ### Handlers -/

section handlers

variable {T : Pid → Prop} {s s' : St}

theorem NlStep.accounted {nl : NlId} (h : NlStep nl s s') (hr : Running T s.c)
    (hset : Accounted T s.c) : Accounted T s'.c := by
  cases h with
  | push => exact hset
  | route => exact hset
  | @notify cl c' hcb hnot _ hf =>
      have harm : Armed s.c .select cl.task := .nl hcb rfl rfl
      have hin := hr.continued.awaited (hset.of_armed hr.known harm) (.select harm hnot)
      have hdone := (hset.silent (.claim cl s.c)).finish hin hf
      exact hdone.silent (.of_fields rfl rfl rfl rfl rfl rfl rfl)

theorem NlWork.accounted {nl : NlId} (h : NlWork nl s s') (hr : Running T s.c)
    (hset : Accounted T s.c) : Accounted T s'.c := by
  induction h with
  | refl => exact hset
  | tail hw hstep ih => exact hstep.accounted (NlWork.running hw hr).1 ih

theorem Handled.accounted {s'' : St} {call : Syscall} {res : SyscallHandlerStatusCode}
    (h : Handled call s res s') (hset : Accounted T s.c) (hr : Running T s.c)
    (hs : Starting call s.c) (hT : T s.c.task.thread) (hpos : ∀ p, 0 < p → T p)
    (hclone : call = .clone → ∀ tid, s'.c.tidVector = s.c.tidVector ++ [tid] → T tid → 0 < tid)
    (hreads : ∀ fd sock, call.recvFd = some fd → s.d.fds.sockets.find fd = some sock →
      s.d.rxAvailable sock ≠ 0 → s.c.env.wait s.c.waits ≠ .exited)
    (hnl : ∀ nl, netlinkOf s.d.fds call = some nl → (s.d.nls nl).pid = s.c.pid)
    (hadv : Grail.unadvanced s.c.app s.d.fds call = true → call = .exit)
    (hp : Processed s.c.task.thread s' res s'') : Accounted T s''.c := by
  have hin := hr.inCall hT
  have hpid := hs.pid
  have fake : ∀ {v c'}, Completes s.c.pid v s.c c' → Accounted T (c'.resched s.c.task.thread) :=
    fun hc => hset.fake hin .none (hpid ▸ hc)
  have waits : ∀ {c'}, Silent s.c c' → Accounted T c' := fun hsil => hset.silent hsil
  cases h with
  | error => exact absurd rfl hp.ne_error
  | answered _ _ hres _ hpre hc =>
      rw [hp.resumed_eq hres]
      exact hset.fake hin (hpid ▸ hpre) (hpid ▸ hc)
  | @listened fd _ sock _ c' _ _ _ _ _ hc =>
      rw [hp.resumed_eq resumes_success]
      have hdone : Accounted T ((c'.resched s.c.task.thread).setAcceptCallback sock
          (some (.fakeAccept fd))) := (fake hc).silent (.of_fields rfl rfl rfl rfl rfl rfl rfl)
      exact hdone
  | accepted _ _ _ _ _ hc =>
      rw [hp.resumed_eq resumes_success]
      simp only [St.returning_c]
      exact fake hc
  | nlSend hn hres hw hc =>
      rw [hp.resumed_eq hres]
      obtain ⟨hr₁, ht⟩ := hw.running hr
      rw [hnl _ hn, ← hpid, ← ht] at hc
      have hdone := (hw.accounted hr hset).fake (hr₁.inCall (ht ▸ hT)) .none hc
      rwa [ht] at hdone
  | nlOther hn hres _ _ hc =>
      rw [hp.resumed_eq hres]
      exact fake (hnl _ hn ▸ hc)
  | passed _ _ _ _ hc =>
      rw [hp.resumed_eq resumes_success]
      exact hset.pass hin (hpid ▸ hc)
  | @cloned c₁ th hcall hc hth hnew =>
      rw [hp.resumed_eq resumes_success]
      refine hset.clone hin (hpid ▸ hc) hpos (hclone hcall th.rax ?_) hnew
      rw [← hc.tidVector]
      simp only [Ctl.cloned, Ctl.schedule]
  | unadvanced hun hres =>
      rw [hp.resumed_eq hres]
      refine hset.exit hin fun a ha => ?_
      obtain ⟨a', ha', -, hcall⟩ := hs.act
      cases ha.symm.trans ha'
      exact hcall.trans (hadv hun)
  | systemExit => rwa [hp.waits_eq not_resumes_systemExit]
  | recvNow hcall hsock hrx _ hc =>
      obtain ⟨v, hf⟩ := hc.finish_of_stops (hreads _ _ hcall hsock hrx)
      rw [hp.waits_eq not_resumes_manual]
      exact (hset.finish hin hf).silent (.of_fields rfl rfl rfl rfl rfl rfl rfl)
  | @connectNow fd _ sock _ c' _ _ _ _ hf =>
      rw [hp.waits_eq not_resumes_delayed]
      have hset : Accounted T (s.c.setConnectCallback sock (some ⟨s.c.task, fd⟩)) :=
        waits (.of_fields rfl rfl rfl rfl rfl rfl rfl)
      exact hset.finish hin hf
  | selectNow _ _ _ _ hc =>
      rw [hp.resumed_eq resumes_success]
      exact fake hc
  | @selectWait args c₁ c' _ _ harms _ ht =>
      rw [hp.waits_eq not_resumes_delayed]
      have h₁ : Silent s.c c₁ := by
        rw [harms.frame]
        exact .of_fields rfl rfl rfl rfl rfl rfl rfl
      cases ht with
      | none => exact waits h₁
      | timer => exact waits (h₁.trans (.schedule _ (by simp) _))
  | sleeping =>
      rw [hp.waits_eq not_resumes_delayed]
      exact waits (.schedule _ (by simp) _)
  | _ =>
      rw [hp.waits_eq not_resumes_delayed]
      exact waits (.of_fields rfl rfl rfl rfl rfl rfl rfl)

end handlers

/-! ### Steps -/

section steps

variable {T : Pid → Prop} {s s' : St} {l : Label}

/-- The call that is dispatched is advanced to its exit stop when it is answered, unless it is
`exit`. -/
def advances (s : St) (l : Label) : Bool :=
  match dispatched s l with
  | some (_, call) => !unadvanced s.c.app s.d.fds call || decide (call = .exit)
  | none => true

theorem advances_dispatched {p : Pid} {call : Syscall} (h : advances s l = true)
    (hd : dispatched s l = some (p, call)) (hun : unadvanced s.c.app s.d.fds call = true) :
    call = .exit := by
  simpa [advances, hd, hun] using h

/-- The steps that complete calls through their own thread, once, at the stops where they should. -/
structure Orderly (T : Pid → Prop) (s : St) (l : Label) : Prop where
  steady : Steady T s l
  directed : Directed s l
  advances : Grail.advances s l = true

theorem Accounted.step_dispatched (hset : Accounted T s.c) (h : Continued T s.c) (hk : Known s.c)
    (hpos : ∀ p, 0 < p → T p) (ho : Orderly T s l) (hs : Grail.step s l = some s') {p : Pid}
    {call : Syscall} (hd : dispatched s l = some (p, call)) : Accounted T s'.c := by
  obtain ⟨s₁, res, s₂, hhandles, hrun, hp⟩ := step_handles hs hd
  have hh : Handled call s₁ res s₂ := (handle_spec call).elim hrun
  cases hhandles with
  | @mk i t c₁ th hl hev hc hth =>
      have hev' : (s.moveTo l).c.events[i]? = some ⟨t, .handleSyscallBefore p⟩ := hev
      have hidle : Silent s.c (((s.moveTo l).c.removeEvent i).setPid p) := by
        have hmove : Silent s.c (s.moveTo l).c := .of_fields rfl rfl rfl rfl rfl rfl rfl
        exact (hmove.trans (.removeEvent hev')).trans (.of_fields rfl rfl rfl rfl rfl rfl rfl)
      have hset₀ := hset.silent hidle
      have hcalm := Calm.of_caught hc
      have halive : s.c.threads p ≠ none := by
        cases hc with
        | entry hp => simp [show s.c.threads p = some _ from hp]
        | exit hp => simp [show s.c.threads p = some _ from hp]
      have hT : T p := hset.only halive
      have hmoved : Continued T (s.moveTo l).c := h.same (.of_fields rfl rfl rfl) fun _ _ _ hw =>
        .inl (hw.of_rests (Rests.setNow l.time s.c))
      have hzero := hmoved.resumed hT hev'
      have hset₁ : Accounted T (c₁.dispatch p th) := by
        cases hc with
        | entry hthr hph =>
            refine hset₀.dispatch ?_ hzero.2.2 hzero.1 halive hth
            exact ((hk.rests (Rests.setNow l.time s.c)).removeEvent hev').rests (Rests.setPid p _)
        | exit hthr hph hx =>
            -- a thread that is scheduled at an entry stop exits
            have hres := hset.scheduled (pend_ne_zero hev) hthr
            rcases hres with hres | hres
            · rw [hph] at hres
              cases hres
            · exact absurd hres hx
      refine hh.accounted hset₁ (h.running hk hev hc th) ((hk.caught hev hc).starting hcalm.pid) hT
        hpos (fun hcall tid htid hT => ?_) (fun fd sock hcall hsock hrx => ?_) (fun nl hnl => ?_)
        (fun hun => ?_) hp
      · rw [hcall] at hrun hd
        exact ho.steady.steadyFor.clone_pos hd hc hrun hp.ne_error htid hT
      · exact hc.wait_ne_exited (ho.steady.reads _ _ fd sock hd hcall hsock hrx) th
      · exact (netlinksOwn_dispatched ho.directed.2.2 hd hnl).trans hcalm.pid.symm
      · refine advances_dispatched ho.advances hd ?_
        have happ : (c₁.dispatch p th).app = s.c.app := hcalm.app
        rw [← happ]
        exact hun

theorem Accounted.step (hset : Accounted T s.c) (h : Continued T s.c) (hk : Known s.c)
    (hpos : ∀ p, 0 < p → T p) (ho : Orderly T s l) (hs : Grail.step s l = some s') :
    Accounted T s'.c := by
  cases hd : dispatched s l with
  | some disp => exact hset.step_dispatched h hk hpos ho hs hd
  | none =>
      obtain ⟨-, -, hocc⟩ := step_cases hs
      generalize hl : l.what = what at hocc
      have hmove : Silent s.c (s.moveTo l).c := .of_fields rfl rfl rfl rfl rfl rfl rfl
      -- the call of `τ` is answered, after a change that does not matter
      have finish : ∀ {w τ v c₀ c'}, Awaited s.c w τ → Silent s.c c₀ →
          Finish τ τ.thread v c₀ c' → Accounted T c' := fun hw hsil hf => by
        have hin := h.awaited (hset.of_armed hk hw.armed) hw
        exact (hset.silent hsil).finish (hsil.inCall ▸ hin) hf
      have claimed : ∀ {cl : SelectClosure} {v c₀ c'}, Armed s.c .select cl.task →
          s.c.alreadyHandled cl.task.act = false → Silent ((s.moveTo l).c.claim cl) c₀ →
          Finish cl.task cl.task.thread v c₀ c' → Accounted T c' := fun harm hnot hsil hf =>
        finish (.select harm hnot) ((hmove.trans (.claim _ _)).trans hsil) hf
      cases hocc with
      | @fired i e _ hev _ hf =>
          obtain ⟨t, kind⟩ := e
          have hev' : s.c.events[i]? = some ⟨t, kind⟩ := hev
          have hremove : Silent s.c ((s.moveTo l).c.removeEvent i) := hmove.trans (.removeEvent hev)
          cases hf with
          | @gone p th hth hx =>
              have hpid : Silent s.c (((s.moveTo l).c.removeEvent i).setPid p) :=
                hremove.trans (.of_fields rfl rfl rfl rfl rfl rfl rfl)
              have hth : s.c.threads p = some th := hth
              have hT : T p := hset.only (by simp [hth])
              refine (hset.silent hpid).exited ?_ hth (hset.scheduled (pend_ne_zero hev') hth)
              exact (h.resumed hT hev').2.2
          | dispatched hc hth =>
              have hcaught : dispatched s l = some _ :=
                dispatched_eq (resumes_eq hl hev rfl) (hc.catches hth)
              rw [hd] at hcaught
              cases hcaught
          | timeoutStale => exact hset.silent hremove
          | timeout hnot hf =>
              refine finish (.select (.timer (pend_ne_zero hev') rfl) hnot) ?_ hf
              exact hremove.trans (.of_fields rfl rfl rfl rfl rfl rfl rfl)
          | slept hf => exact finish (.sleep (.sleep (pend_ne_zero hev') rfl)) hremove hf
          | removed => exact hset.silent hremove
      | receivedIdle => exact hset.silent hmove
      | receivedRead hcb hown _ hr =>
          obtain ⟨v, hf⟩ := hr.finish_of_stops (ho.steady.receives _ _ _ _ hl hcb hown)
          have harm : Armed s.c .recv _ := .recv hcb (RecvCallback.arms_of_owner hown)
          exact (finish (.recv harm) hmove hf).silent (.of_fields rfl rfl rfl rfl rfl rfl rfl)
      | receivedSelect _ hcb hnot hf =>
          have hpid : (s.moveTo l).c.pid = _ := selectsOwn_received ho.directed.1 hl hcb hnot
          rw [hpid] at hf
          exact (claimed (.recv hcb rfl) hnot (.refl _) hf).silent
            (.of_fields rfl rfl rfl rfl rfl rfl rfl)
      | sendableIdle => exact hset.silent hmove
      | sendableSelect _ hcb hnot hf =>
          exact (claimed (.send hcb rfl) hnot (.refl _) hf).silent
            (.of_fields rfl rfl rfl rfl rfl rfl rfl)
      | incomingLost => exact hset.silent hmove
      | incomingStored => exact hset.silent hmove
      | incomingSelect _ hcb hnot _ _ hf =>
          refine claimed (.accept hcb rfl) hnot ?_ hf
          exact .of_fields rfl rfl rfl rfl rfl rfl rfl
      | @incomingAccept sock addr rx tx τ fd fd' out d' c₁ _ hcb _ _ hc =>
          have hpid := acceptsOwn_incoming ho.directed.2.1 hl hcb
          have hf : Finish τ s.c.pid fd' (s.moveTo l).c _ := ⟨c₁, hc, rfl⟩
          rw [hpid] at hf
          exact (hset.silent hmove).finish (ho.steady.accepts _ _ _ _ _ hl hcb) hf
      | connectIdle => exact hset.silent (.of_fields rfl rfl rfl rfl rfl rfl rfl)
      | connected hcon hcb hf =>
          refine finish (.connect hcb hcon) ?_ hf
          exact .of_fields rfl rfl rfl rfl rfl rfl rfl
      | refused hcon hcb hf =>
          refine finish (.connect hcb hcon) ?_ hf
          exact .of_fields rfl rfl rfl rfl rfl rfl rfl

/-- After a run whose steps are orderly every dispatch is accounted for, and every thread has one
continuation. -/
theorem accounted_of_run {app : App} {env : Env} {ls : List Label} (hpos : ∀ p, 0 < p → T p)
    (hT : T app.appPid) (hrun : run (St.initial app env) ls = some s)
    (ho : Runs.Meets Grail.step (Orderly T) (St.initial app env) ls) :
    Continued T s.c ∧ Accounted T s.c := by
  have hinv := Runs.run_induction
    (I := fun s => (Continued T s.c ∧ Accounted T s.c) ∧ Known s.c ∧ Connecting s ∧ s.Owned)
    (fun _ _ _ ⟨⟨hc, hset⟩, hk, hcon, hown⟩ ho hs =>
      ⟨⟨hc.step hk hcon ho.steady.steadyFor hs, hset.step hc hk hpos ho hs⟩, hk.step hs,
        hcon.step hown hs, hown.step hs⟩)
    ⟨⟨Continued.initial T app env, Accounted.initial app env hT⟩, Known.initial app env,
      Connecting.initial app env, Owned.initial⟩ hrun ho
  exact hinv.1

end steps

end Grail
