import Grail.Targets

/-! # After `exit_group`

`ProcessStatusCode` does nothing for `exit_group`: it cancels no event and removes no callback.
So what is pending then still happens (`exit_group_not_final`).  Only if nothing is pending, apart
from the event that runs, the process is over: from then on no thread is dispatched, resumed or
touched (`quits_of_run`). -/

namespace Grail

/-- No scheduled event continues a thread. -/
def EventKind.idle (c : Ctl) : EventKind → Prop
  | .handleSyscallBefore _ => False
  | .nanosleep _ => False
  | .selectTimeout τ => c.alreadyHandled τ.act = true
  | .removeClosedSocket _ => True

/-- No continuation of a thread is pending: no resumption, no timer, no callback that completes a
call. -/
structure Idle (c : Ctl) : Prop where
  events : ∀ e ∈ c.events, e.kind.idle c
  recv : ∀ sock cb, c.recvCallback sock = some cb →
    ∃ cl, cb = .select cl ∧ c.alreadyHandled cl.task.act = true
  send : ∀ sock cl, c.sendCallback sock = some (.select cl) → c.alreadyHandled cl.task.act = true
  accept : ∀ sock cb, c.acceptCallback sock = some cb → (∃ fd, cb = .fakeAccept fd) ∨
    ∃ cl, cb = .select cl ∧ c.alreadyHandled cl.task.act = true
  connect : ∀ sock, c.connecting sock = true → c.connectCallback sock = none

/-- The step `l` runs the only continuation that is pending. -/
def Alone (s : St) (l : Label) : Prop := ∀ i, l.what = .fire i → Idle (s.c.removeEvent i)

/-- No thread but `p` has been dispatched, moved or completed. -/
structure Undisturbed (p : Pid) (c c' : Ctl) : Prop where
  dispatched : ∀ k a, c'.acts k = some a → a.pid ≠ p → c.acts k = some a
  threads : ∀ q, q ≠ p → c'.threads q = c.threads q
  effects : ∀ e ∈ c'.log, e.target ≠ p → e ∈ c.log

/-- The threads, the dispatches and the effects are the same. -/
structure Still (c c' : Ctl) : Prop where
  threads : c'.threads = c.threads
  nextAct : c'.nextAct = c.nextAct
  acts : c'.acts = c.acts
  log : c'.log = c.log

theorem Still.refl (c : Ctl) : Still c c := ⟨rfl, rfl, rfl, rfl⟩

theorem Still.trans {c c' c'' : Ctl} (h : Still c c') (h' : Still c' c'') : Still c c'' :=
  ⟨h'.threads.trans h.threads, h'.nextAct.trans h.nextAct, h'.acts.trans h.acts, h'.log.trans h.log⟩

theorem Still.undisturbed {c c' : Ctl} (h : Still c c') (p : Pid) : Undisturbed p c c' where
  dispatched _ _ ha _ := h.acts ▸ ha
  threads q _ := congrFun h.threads q
  effects _ he _ := h.log ▸ he

variable {s s' : St} {l : Label}

theorem Idle.removeEvent {c : Ctl} (h : Idle c) (i : ℕ) : Idle (c.removeEvent i) :=
  ⟨fun e he => h.events e (mem_removeEvent he), h.recv, h.send, h.accept, h.connect⟩

/-- Without pending continuations, a step continues no thread, and none becomes pending. -/
theorem Idle.step (hi : Idle s.c) (h : Grail.step s l = some s') : Idle s'.c ∧ Still s.c s'.c := by
  obtain ⟨-, -, h⟩ := step_cases h
  generalize l.what = what at h
  have moved : Idle (s.moveTo l).c := ⟨hi.events, hi.recv, hi.send, hi.accept, hi.connect⟩
  have rest : ∀ {c'}, Idle c' → c'.threads = s.c.threads → c'.nextAct = s.c.nextAct →
      c'.acts = s.c.acts → c'.log = s.c.log → Idle c' ∧ Still s.c c' :=
    fun hc ht hn ha hl => ⟨hc, ht, hn, ha, hl⟩
  have claimed : ∀ {k : ℕ} {b : Prop}, s.c.alreadyHandled k = true →
      (s.moveTo l).c.alreadyHandled k = false → b := by
    intro k b ht hf
    have hf : s.c.alreadyHandled k = false := hf
    rw [ht] at hf
    cases hf
  have unconnected : ∀ {sock cl} {b : Prop}, (s.moveTo l).c.connecting sock = true →
      (s.moveTo l).c.connectCallback sock = some cl → b := by
    intro sock cl b hc hcb
    have hcb : s.c.connectCallback sock = some cl := hcb
    rw [hi.connect sock hc] at hcb
    cases hcb
  cases h with
  | @fired i e _ he _ hf =>
      obtain ⟨t, kind⟩ := e
      have hkind : kind.idle s.c := hi.events _ (List.mem_of_getElem? he)
      have hrest : Idle ((s.moveTo l).c.removeEvent i) := moved.removeEvent i
      cases hf with
      | gone => exact hkind.elim
      | dispatched => exact hkind.elim
      | timeoutStale => exact rest hrest rfl rfl rfl rfl
      | timeout hn => exact claimed hkind hn
      | slept => exact hkind.elim
      | removed => exact rest hrest rfl rfl rfl rfl
  | receivedIdle => exact rest moved rfl rfl rfl rfl
  | receivedRead hcb hown =>
      obtain ⟨cl, rfl, -⟩ := hi.recv _ _ hcb
      cases hown
  | receivedSelect _ hcb hn =>
      obtain ⟨cl, hcl, ht⟩ := hi.recv _ _ hcb
      cases hcl
      exact claimed ht hn
  | sendableIdle => exact rest moved rfl rfl rfl rfl
  | sendableSelect _ hcb hn => exact claimed (hi.send _ _ hcb) hn
  | incomingLost => exact rest moved rfl rfl rfl rfl
  | incomingStored => exact rest moved rfl rfl rfl rfl
  | incomingSelect _ hcb hn =>
      rcases hi.accept _ _ hcb with ⟨fd, hfd⟩ | ⟨cl, hcl, ht⟩
      · cases hfd
      · cases hcl
        exact claimed ht hn
  | incomingAccept _ hcb =>
      rcases hi.accept _ _ hcb with ⟨fd, hfd⟩ | ⟨cl, hcl, -⟩
      · cases hfd
      · cases hcl
  | @connectIdle sock =>
      refine rest ⟨moved.events, moved.recv, moved.send, moved.accept, fun sock' hs => ?_⟩
        rfl rfl rfl rfl
      by_cases hk : sock' = sock
      · subst hk
        simp [Ctl.setConnecting] at hs
      · exact moved.connect sock' (by simpa [Ctl.setConnecting, hk] using hs)
  | connected hc hcb => exact unconnected hc hcb
  | refused hc hcb => exact unconnected hc hcb

theorem Idle.run (hi : Idle s.c) {ls : List Label} (h : Grail.run s ls = some s') :
    Still s.c s'.c := by
  have hinv : Idle s'.c ∧ Still s.c s'.c := by
    refine Runs.run_invariant (I := fun s' => Idle s'.c ∧ Still s.c s'.c) ?_ ⟨hi, Still.refl _⟩ h
    intro s₁ l s₂ hI hs
    obtain ⟨hi₂, hst⟩ := hI.1.step hs
    exact ⟨hi₂, hI.2.trans hst⟩
  exact hinv.2

/-- `exit_group` is neither answered nor passed on. -/
theorem Handled.of_exitGroup {res : SyscallHandlerStatusCode} (h : Handled .exitGroup s res s')
    (hres : res ≠ .error) : res = .systemExit ∧ s' = s := by
  cases h with
  | error => exact absurd rfl hres
  | systemExit => exact ⟨rfl, rfl⟩
  | answered hp => cases hp
  | listened hc => cases hc
  | accepted hc => cases hc
  | nlSend hn => cases hn
  | nlOther hn => cases hn
  | passed hp => cases hp
  | cloned hc => cases hc
  | unadvanced hu => cases hu
  | recvNow hc => cases hc
  | recvWait hc => cases hc
  | writeWait hc => cases hc
  | connectRefused hc => cases hc
  | connectWait hc => cases hc
  | connectNow hc => cases hc
  | acceptWait hc => cases hc
  | selectNow hc => cases hc
  | selectWait hc => cases hc
  | sleeping hc => cases hc

theorem Idle.calm {c c' : Ctl} (h : Idle c) (hc : Calm c c') (he : c'.events = c.events) :
    Idle c' := by
  obtain ⟨hev, hr, hs, ha, hcc⟩ := h
  refine ⟨fun e hm => ?_, ?_, ?_, ?_, ?_⟩
  · have hk := hev e (he ▸ hm)
    cases hkind : e.kind <;> simp_all [EventKind.idle, hc.alreadyHandled]
  · rw [hc.recvCallback, hc.alreadyHandled]
    exact hr
  · rw [hc.sendCallback, hc.alreadyHandled]
    exact hs
  · rw [hc.acceptCallback, hc.alreadyHandled]
    exact ha
  · rw [hc.connecting, hc.connectCallback]
    exact hcc

/-- Where nothing else is pending, nothing is pending after `exit_group`. -/
theorem exitGroup_idle {p : Pid} (hd : dispatched s l = some (p, .exitGroup)) (ha : Alone s l)
    (h : step s l = some s') : Idle s'.c := by
  obtain ⟨i, t, c₁, th, res, s₂, hdet⟩ := step_dispatched h hd
  have hrest := ha i hdet.what
  have hstart : Idle (((s.moveTo l).c.removeEvent i).setPid p) :=
    ⟨hrest.events, hrest.recv, hrest.send, hrest.accept, hrest.connect⟩
  have he : c₁.events = (((s.moveTo l).c.removeEvent i).setPid p).events := by
    cases hdet.caught <;> rfl
  have h₁ := hstart.calm (Calm.of_caught hdet.caught) he
  obtain ⟨hres, hs₂⟩ := hdet.answers.handled.of_exitGroup hdet.processed.ne_error
  have h₂ : Idle s₂.c := by
    rw [hs₂]
    exact ⟨h₁.events, h₁.recv, h₁.send, h₁.accept, h₁.connect⟩
  subst hres
  cases hdet.processed with
  | resumed hr => rcases hr with hr | hr <;> cases hr
  | waits => exact h₂
  | quits => exact h₂

/-- If nothing else is pending when a thread calls `exit_group`, the process is over: whatever
happens then, no other thread is dispatched, moved or completed. -/
theorem quits_of_run {l : Label} {p : Pid} {ls : List Label} {s s₁ s₂ : St}
    (hd : dispatched s l = some (p, .exitGroup)) (ha : Alone s l) (h₁ : step s l = some s₁)
    (h₂ : run s₁ ls = some s₂) : Undisturbed p s₁.c s₂.c :=
  ((exitGroup_idle hd ha h₁).run h₂).undisturbed p

/-- No callback is installed if no call that waits has been dispatched. -/
theorem Idle.of_calls {c : Ctl} (hk : Known c)
    (hc : ∀ k < c.nextAct, (c.acts k).all fun a => a.call.wait = none)
    (he : ∀ e ∈ c.events, e.kind.idle c) : Idle c := by
  have unarmed : ∀ {w τ} {b : Prop}, Armed c w τ → b := by
    intro w τ b ha
    obtain ⟨a, hact, -, hw⟩ := hk.armed ha
    have hall := hc _ (hk.acts_lt hact)
    rw [hact] at hall
    have hnone : a.call.wait = none := by simpa using hall
    rw [hnone] at hw
    cases hw
  refine ⟨he, fun sock cb hcb => unarmed (.recv hcb rfl), fun sock cl hcb => unarmed (.send hcb rfl),
    fun sock cb hcb => ?_, fun sock _ => ?_⟩
  · cases cb with
    | fakeAccept fd => exact Or.inl ⟨fd, rfl⟩
    | select cl => exact unarmed (.accept hcb rfl)
    | accept τ fd out => exact unarmed (.accept hcb rfl)
  · cases hcb : c.connectCallback sock with
    | none => rfl
    | some cl => exact unarmed (.connect hcb rfl rfl)

/-- A thread creates a second thread, which ends, and calls `exit_group`. -/
def quitEnv : Env :=
  .script [.entry .clone, .exit 2, .entry .exit, .entry .getpid, .exit 0, .exited,
    .entry .exitGroup] []

def quitApp : App :=
  { mayQuit := true, syscallProcessingTime := 200, appPid_pos := Int.one_pos }

theorem quits_of_run_ended :
    ∃ s s₁, run (St.initial quitApp quitEnv)
        [⟨0, .fire 0⟩, ⟨100, .fire 0⟩, ⟨200, .fire 0⟩, ⟨300, .fire 0⟩] = some s ∧
      step s ⟨400, .fire 0⟩ = some s₁ ∧
      ∀ ls s₂, run s₁ ls = some s₂ → Undisturbed 1 s₁.c s₂.c := by
  have hrun : (run (St.initial quitApp quitEnv)
      [⟨0, .fire 0⟩, ⟨100, .fire 0⟩, ⟨200, .fire 0⟩, ⟨300, .fire 0⟩]).any (fun s =>
        (step s ⟨400, .fire 0⟩).isSome ∧ dispatched s ⟨400, .fire 0⟩ = some (1, .exitGroup) ∧
        (s.c.removeEvent 0).events = [] ∧
        ∀ k < s.c.nextAct, (s.c.acts k).all fun a => a.call.wait = none) = true := by
    decide +kernel
  obtain ⟨s, hs, hview⟩ := (Option.any_eq_true _ _).mp hrun
  obtain ⟨hstep, hd, he, hc⟩ := of_decide_eq_true hview
  obtain ⟨s₁, hs₁⟩ := Option.isSome_iff_exists.mp hstep
  have halone : Alone s ⟨400, .fire 0⟩ := by
    intro i hi
    cases hi
    refine (Idle.of_calls ((known_of_run hs).fewer (fun kind => ?_) rfl) hc ?_)
    · simp [pend, he]
    · simp [he]
  exact ⟨s, s₁, hs, hs₁, fun ls s₂ h₂ => quits_of_run hd halone hs₁ h₂⟩

/-- The second thread, scheduled before `exit_group`, is dispatched after it. -/
theorem exit_group_not_final :
    ¬ ∀ app env ls ls' l p s s₁ s₂, run (St.initial app env) ls = some s →
      dispatched s l = some (p, .exitGroup) → step s l = some s₁ → run s₁ ls' = some s₂ →
      Undisturbed p s₁.c s₂.c := by
  intro hall
  let env := Env.script [.entry .clone, .exit 2, .entry .exitGroup, .entry .getpid, .exit 0] []
  have hrun : (run (St.initial { mayQuit := true } env) [⟨0, .fire 0⟩]).any (fun s =>
      dispatched s ⟨0, .fire 1⟩ = some (1, .exitGroup) ∧
      (step s ⟨0, .fire 1⟩).any (fun s₁ => s₁.c.nextAct = 2 ∧
        (run s₁ [⟨100, .fire 0⟩]).any fun s₂ =>
          (s₂.c.acts 2).any (fun a => a.pid = 2) ∧ s₁.c.acts 2 = none)) = true := by
    decide +kernel
  obtain ⟨s, hs, hview⟩ := (Option.any_eq_true _ _).mp hrun
  obtain ⟨hd, hview⟩ := of_decide_eq_true hview
  obtain ⟨s₁, hs₁, hview⟩ := (Option.any_eq_true _ _).mp hview
  obtain ⟨-, hview⟩ := of_decide_eq_true hview
  obtain ⟨s₂, hs₂, hview⟩ := (Option.any_eq_true _ _).mp hview
  obtain ⟨hact, hnone⟩ := of_decide_eq_true hview
  obtain ⟨a, ha, hp⟩ := (Option.any_eq_true _ _).mp hact
  have hp : a.pid = 2 := of_decide_eq_true hp
  have hold := (hall _ _ _ _ _ _ s s₁ s₂ hs hd hs₁ hs₂).dispatched 2 a ha (by rw [hp]; decide)
  rw [hnone] at hold
  cases hold

end Grail
