import Grail.Tasks

/-! # The thread that an effect is applied to

Three places complete a call through another pid than that of the thread that issued it: the
callback of `select` for received data and the callback of a blocking `accept` use the current
`pid` (`FAKE2`), a netlink socket the pid of its creator.  `Directed` says of a step that the two
pids agree there; in runs of such steps every effect that completes a call is applied to the
thread that issued the call (`targets_of_run`). -/

namespace Grail

/-- Data that arrive for a waiting `select` find the pid of its thread. -/
def selectsOwn (s : St) (l : Label) : Bool :=
  match l.what with
  | .received sock _ =>
      match s.c.recvCallback sock with
      | some (.select cl) =>
          s.c.alreadyHandled cl.task.act || decide (s.c.pid = cl.task.thread)
      | _ => true
  | _ => true

/-- A connection that comes in for a waiting `accept` finds the pid of its thread. -/
def acceptsOwn (s : St) (l : Label) : Bool :=
  match l.what with
  | .incoming sock _ =>
      match s.c.acceptCallback sock with
      | some (.accept task _ _) => decide (s.c.pid = task.thread)
      | _ => true
  | _ => true

/-- A call on a netlink socket is made by the thread that created the socket. -/
def netlinksOwn (s : St) (l : Label) : Bool :=
  match dispatched s l with
  | some (p, call) =>
      match netlinkOf s.d.fds call with
      | some nl => decide ((s.d.nls nl).pid = p)
      | none => true
  | none => true

/-- The steps that complete calls through the pid of the thread that issued them. -/
abbrev Directed (s : St) (l : Label) : Prop :=
  selectsOwn s l = true ∧ acceptsOwn s l = true ∧ netlinksOwn s l = true

section conditions

variable {s : St} {l : Label} {sock : SockId}

theorem selectsOwn_received {rx : ℕ} {cl : SelectClosure} (h : selectsOwn s l = true)
    (hl : l.what = .received sock rx) (hcb : s.c.recvCallback sock = some (.select cl))
    (hn : s.c.alreadyHandled cl.task.act = false) : s.c.pid = cl.task.thread := by
  simpa [selectsOwn, hl, hcb, hn] using h

theorem acceptsOwn_incoming {addr : Option (ℕ × ℕ)} {τ : Task} {fd : Fd} {out : SockaddrOut}
    (h : acceptsOwn s l = true) (hl : l.what = .incoming sock addr)
    (hcb : s.c.acceptCallback sock = some (.accept τ fd out)) : s.c.pid = τ.thread := by
  simpa [acceptsOwn, hl, hcb] using h

theorem netlinksOwn_dispatched {p : Pid} {call : Syscall} {nl : NlId} (h : netlinksOwn s l = true)
    (hd : dispatched s l = some (p, call)) (hnl : netlinkOf s.d.fds call = some nl) :
    (s.d.nls nl).pid = p := by
  simpa [netlinksOwn, hd, hnl] using h

end conditions

/-! ### Effects -/

/-- What is added to the history are effects of `τ` on its own thread. -/
def Adds (τ : Task) (c c' : Ctl) : Prop :=
  ∀ e ∈ c'.log, e ∈ c.log ∨ e.task = τ ∧ e.target = τ.thread

namespace Adds

variable {c c' c'' : Ctl} {p : Pid} {v : ℤ} {τ : Task}

theorem refl (τ : Task) (c : Ctl) : Adds τ c c := fun _ he => Or.inl he

theorem trans (h : Adds τ c c') (h' : Adds τ c' c'') : Adds τ c c'' := fun e he =>
  (h' e he).elim (h e) Or.inr

theorem of_completes (h : Completes p v c c') (ht : c.task = τ) (hp : τ.thread = p) :
    Adds τ c c' := by
  subst hp
  intro e he
  cases h with
  | atEntry =>
      simp only [Ctl.answer, List.mem_cons] at he
      rcases he with rfl | rfl | rfl | he
      · exact Or.inr ⟨ht, rfl⟩
      · exact Or.inr ⟨ht, rfl⟩
      · exact Or.inr ⟨ht, rfl⟩
      · exact Or.inl he
  | atExit =>
      simp only [Ctl.overrun, List.mem_cons] at he
      rcases he with rfl | rfl | rfl | he
      · exact Or.inr ⟨ht, rfl⟩
      · exact Or.inr ⟨ht, rfl⟩
      · exact Or.inr ⟨ht, rfl⟩
      · exact Or.inl he

theorem of_vanishes (h : Vanishes τ.thread c c') (ht : c.task = τ) : Adds τ c c' := by
  intro e he
  cases h with
  | mk =>
      simp only [Ctl.vanish, List.mem_cons] at he
      rcases he with rfl | rfl | he
      · exact Or.inr ⟨ht, rfl⟩
      · exact Or.inr ⟨ht, rfl⟩
      · exact Or.inl he

theorem of_passes (h : Passes p c c') (ht : c.task = τ) (hp : τ.thread = p) : Adds τ c c' := by
  subst hp
  intro e he
  cases h with
  | atEntry =>
      simp only [Ctl.pass, List.mem_cons] at he
      rcases he with rfl | he
      · exact Or.inr ⟨ht, rfl⟩
      · exact Or.inl he
  | atExit =>
      simp only [Ctl.passOver, List.mem_cons] at he
      rcases he with rfl | he
      · exact Or.inr ⟨ht, rfl⟩
      · exact Or.inl he

theorem of_prelude (h : Prelude p c c') (ht : c.task = τ) (hp : τ.thread = p) : Adds τ c c' := by
  subst hp
  intro e he
  cases h with
  | none => exact Or.inl he
  | close => exact Or.inl he
  | origRax =>
      simp only [Ctl.note, Ctl.setThread, List.mem_cons] at he
      rcases he with rfl | he
      · exact Or.inr ⟨ht, rfl⟩
      · exact Or.inl he

theorem resched (ht : c.task = τ) (hp : τ.thread = p) : Adds τ c (c.resched p) := by
  subst hp
  intro e he
  simp only [Ctl.resched, Ctl.schedule, Ctl.note, List.mem_cons] at he
  rcases he with rfl | he
  · exact Or.inr ⟨ht, rfl⟩
  · exact Or.inl he

theorem of_finish (h : Finish τ p v c c') (hp : τ.thread = p) : Adds τ c c' := by
  obtain ⟨c₁, hc₁, rfl⟩ := h
  have h₁ : Adds τ (c.onTask τ) c₁ := of_completes hc₁ rfl hp
  exact h₁.trans (resched (Calm.of_completes hc₁).task rfl)

theorem of_reads (h : Reads τ c c') : Adds τ c c' := by
  cases h with
  | finish h => exact of_finish h rfl
  | vanish h => exact (of_vanishes h rfl).trans (resched (Calm.of_vanishes h).task rfl)

theorem cloned (tid : Pid) (c : Ctl) : Adds τ c (c.cloned tid) := by
  intro e he
  unfold Ctl.cloned Ctl.spawn at he
  split_ifs at he <;> exact Or.inl he

end Adds

/-- Every effect that completed a call was applied to the thread that had issued the call. -/
def OnTarget (c : Ctl) : Prop :=
  ∀ e ∈ c.log, ∃ a, c.acts e.task.act = some a ∧ e.target = a.pid

variable {c c' : Ctl} {τ : Task}

theorem OnTarget.adds (h : OnTarget c) (ha : Adds τ c c') (hacts : c'.acts = c.acts)
    (hτ : ∃ a, c.acts τ.act = some a ∧ a.pid = τ.thread) : OnTarget c' := by
  intro e he
  rw [hacts]
  rcases ha e he with he | ⟨rfl, ht⟩
  · exact h e he
  · obtain ⟨a, hact, hp⟩ := hτ
    exact ⟨a, hact, ht.trans hp.symm⟩

theorem OnTarget.names (h : OnTarget c) (ha : Adds τ c c') (hacts : c'.acts = c.acts) {w : Wait}
    (hn : Names c w τ) : OnTarget c' := by
  obtain ⟨a, hact, hp, -⟩ := hn
  exact h.adds ha hacts ⟨a, hact, hp⟩

theorem OnTarget.dispatch (h : OnTarget c) (hk : Known c) (p : Pid) (th : Tracee) :
    OnTarget (c.dispatch p th) := by
  intro e he
  obtain ⟨a, ha, ht⟩ := h e he
  have hne : e.task.act ≠ c.nextAct := (hk.acts_lt ha).ne
  exact ⟨a, by simpa [Ctl.dispatch, hne] using ha, ht⟩

/-! ### Steps -/

variable {s s' : St} {l : Label}

theorem NlStep.onTarget {nl : NlId} (h : NlStep nl s s') (hk : Known s.c) (ho : OnTarget s.c) :
    OnTarget s'.c := by
  cases h with
  | push => exact ho
  | route => exact ho
  | notify hcb _ _ hf =>
      have hadds := Adds.of_finish hf rfl
      exact ho.names hadds (Calm.of_finish hf).acts (hk.armed (.nl hcb rfl rfl))

theorem NlStep.task {nl : NlId} (h : NlStep nl s s') : s'.c.task = s.c.task := by
  cases h with
  | push => rfl
  | route => rfl
  | notify _ _ _ hf => exact (Calm.of_finish hf).task

theorem NlStep.acts {nl : NlId} (h : NlStep nl s s') : s'.c.acts = s.c.acts := by
  cases h with
  | push => rfl
  | route => rfl
  | notify _ _ _ hf => exact (Calm.of_finish hf).acts

theorem NlWork.task {nl : NlId} (h : NlWork nl s s') : s'.c.task = s.c.task := by
  induction h with
  | refl => rfl
  | tail _ hstep ih => exact hstep.task.trans ih

theorem NlWork.acts {nl : NlId} (h : NlWork nl s s') : s'.c.acts = s.c.acts := by
  induction h with
  | refl => rfl
  | tail _ hstep ih => exact hstep.acts.trans ih

theorem NlWork.onTarget {nl : NlId} (h : NlWork nl s s') (hk : Known s.c) (ho : OnTarget s.c) :
    OnTarget s'.c := by
  induction h with
  | refl => exact ho
  | tail hw hstep ih => exact hstep.onTarget (NlWork.known hw hk) ih

/-- What a handler adds are effects of its own task, but for those of netlink callbacks. -/
theorem Handled.onTarget {call : Syscall} {res : SyscallHandlerStatusCode}
    (h : Handled call s res s') (hres : res ≠ .error) (hs : Starting call s.c)
    (hnl : ∀ nl, netlinkOf s.d.fds call = some nl → (s.d.nls nl).pid = s.c.pid)
    (ho : OnTarget s.c) :
    OnTarget s'.c ∧ s'.c.task = s.c.task ∧ s'.c.acts = s.c.acts := by
  obtain ⟨a, hact, hp, -⟩ := hs.act
  have own : ∀ {c'}, Calm s.c c' → Adds s.c.task s.c c' →
      OnTarget c' ∧ c'.task = s.c.task ∧ c'.acts = s.c.acts :=
    fun hc ha => ⟨ho.adds ha hc.acts ⟨a, hact, hp⟩, hc.task, hc.acts⟩
  have completes : ∀ {v c'}, Completes s.c.pid v s.c c' → _ := fun hc =>
    own (Calm.of_completes hc) (Adds.of_completes hc rfl hs.pid)
  cases h with
  | error => exact absurd rfl hres
  | answered _ _ _ _ hpre hc =>
      have hcalm := Calm.of_prelude hpre
      have h₁ := Adds.of_prelude hpre rfl hs.pid
      have h₂ := Adds.of_completes hc hcalm.task hs.pid
      exact own (hcalm.trans (Calm.of_completes hc)) (h₁.trans h₂)
  | listened _ _ _ _ _ hc =>
      have h₁ := completes hc
      exact h₁
  | accepted _ _ _ _ _ hc =>
      rw [St.returning_c]
      exact completes hc
  | nlSend hn _ hw hc =>
      have ho₁ := hw.onTarget hs.known ho
      have hcalm := Calm.of_completes hc
      have hadds := Adds.of_completes hc hw.task (hs.pid.trans (hnl _ hn).symm)
      exact ⟨ho₁.adds hadds hcalm.acts ⟨a, hw.acts ▸ hact, hp⟩, hcalm.task.trans hw.task,
        hcalm.acts.trans hw.acts⟩
  | nlOther hn _ _ _ hc =>
      exact own (Calm.of_completes hc) (Adds.of_completes hc rfl (hs.pid.trans (hnl _ hn).symm))
  | passed _ _ _ _ hc => exact own (Calm.of_passes hc) (Adds.of_passes hc rfl hs.pid)
  | cloned _ hc =>
      exact own ((Calm.of_passes hc).trans (Calm.cloned _ _))
        ((Adds.of_passes hc rfl hs.pid).trans (Adds.cloned _ _))
  | unadvanced => exact ⟨ho, rfl, rfl⟩
  | systemExit => exact ⟨ho, rfl, rfl⟩
  | recvNow _ _ _ _ hc =>
      have h₁ := own (Calm.of_reads hc) (Adds.of_reads hc)
      exact h₁
  | recvWait => exact ⟨ho, rfl, rfl⟩
  | writeWait => exact ⟨ho, rfl, rfl⟩
  | connectRefused => exact ⟨ho, rfl, rfl⟩
  | connectWait => exact ⟨ho, rfl, rfl⟩
  | connectNow _ _ _ _ hc =>
      have hcalm := Calm.of_finish hc
      have hadds := Adds.of_finish hc rfl
      exact ⟨ho.adds hadds hcalm.acts ⟨a, hact, hp⟩, hcalm.task, hcalm.acts⟩
  | acceptWait => exact ⟨ho, rfl, rfl⟩
  | selectNow _ _ _ _ hc => exact completes hc
  | selectWait _ _ harms _ ht =>
      have hf := harms.frame
      cases ht with
      | none =>
          rw [hf]
          exact ⟨ho, rfl, rfl⟩
      | timer =>
          rw [hf]
          exact ⟨ho, rfl, rfl⟩
  | sleeping => exact ⟨ho, rfl, rfl⟩

theorem OnTarget.step (ho : OnTarget s.c) (hk : Known s.c) (hd : Directed s l)
    (h : Grail.step s l = some s') : OnTarget s'.c := by
  obtain ⟨-, -, h⟩ := step_cases h
  generalize hl : l.what = what at h
  have own : ∀ {τ : Task} {w : Wait} {c'}, Adds τ s.c c' → c'.acts = s.c.acts → Armed s.c w τ →
      OnTarget c' := fun ha hacts harm => ho.names ha hacts (hk.armed harm)
  cases h with
  | @fired i e _ he _ hf =>
      obtain ⟨t, kind⟩ := e
      cases hf with
      | gone => exact ho
      | @dispatched p c₁ th res s₂ _ hc hth hh hp =>
          have hdisp := dispatched_eq (resumes_eq hl he rfl) (hc.catches hth)
          have hcalm := Calm.of_caught hc
          have hk₁ := hk.caught he hc
          have ho₁ : OnTarget c₁ := by
            cases hc with
            | entry => exact ho
            | exit => exact ho
          have hs := @Known.starting c₁ p th hk₁ hcalm.pid
          obtain ⟨ho₂, ht₂, ha₂⟩ := hh.handled.onTarget hp.ne_error hs
            (fun nl hnl => (netlinksOwn_dispatched hd.2.2 hdisp hnl).trans hcalm.pid.symm)
            (ho₁.dispatch hk₁ p th)
          obtain ⟨a, hact, hpid, -⟩ := hs.act
          cases hp with
          | resumed => exact ho₂.adds (Adds.resched ht₂ rfl) rfl ⟨a, ha₂ ▸ hact, hpid⟩
          | waits => exact ho₂
          | quits => exact ho₂
      | timeoutStale => exact ho
      | timeout _ hc =>
          have hadds := Adds.of_finish hc rfl
          exact own hadds (Calm.of_finish hc).acts (.timer (pend_ne_zero he) rfl)
      | slept hc =>
          have hadds := Adds.of_finish hc rfl
          exact own hadds (Calm.of_finish hc).acts (.sleep (pend_ne_zero he) rfl)
      | removed => exact ho
  | receivedIdle => exact ho
  | receivedRead hcb hown _ hc =>
      have hadds := Adds.of_reads hc
      exact own hadds (Calm.of_reads hc).acts (.recv hcb (RecvCallback.arms_of_owner hown))
  | receivedSelect _ hcb hn hc =>
      have hpid := selectsOwn_received hd.1 hl hcb hn
      have hadds := Adds.of_finish hc hpid.symm
      exact own hadds (Calm.of_finish hc).acts (.recv hcb rfl)
  | sendableIdle => exact ho
  | sendableSelect _ hcb _ hc =>
      have hadds := Adds.of_finish hc rfl
      exact own hadds (Calm.of_finish hc).acts (.send hcb rfl)
  | incomingLost => exact ho
  | incomingStored => exact ho
  | incomingSelect _ hcb _ _ _ hc =>
      have hadds := Adds.of_finish hc rfl
      exact own hadds (Calm.of_finish hc).acts (.accept hcb rfl)
  | @incomingAccept _ _ _ _ τ _ _ _ _ c₁ _ hcb _ _ hc =>
      have hpid := acceptsOwn_incoming hd.2.1 hl hcb
      have hf : Finish τ s.c.pid _ (s.moveTo l).c _ := ⟨c₁, hc, rfl⟩
      have hadds := Adds.of_finish hf hpid.symm
      exact own hadds (Calm.of_finish hf).acts (.accept hcb rfl)
  | connectIdle => exact ho
  | connected _ hcb hc =>
      have hadds := Adds.of_finish hc rfl
      exact own hadds (Calm.of_finish hc).acts (.connect hcb rfl rfl)
  | refused _ hcb hc =>
      have hadds := Adds.of_finish hc rfl
      exact own hadds (Calm.of_finish hc).acts (.connect hcb rfl rfl)

/-- In runs of directed steps, every rewriting of `orig_rax`, every wait for the exit stop, every
store into `rax` and every rescheduling that completes a system call is applied to the thread
that issued the call. -/
theorem targets_of_run {app : App} {env : Env} {ls : List Label} {s : St}
    (h : run (St.initial app env) ls = some s)
    (hd : Runs.Meets step Directed (St.initial app env) ls) : OnTarget s.c := by
  have hs : Known s.c ∧ OnTarget s.c := by
    refine Runs.run_induction (I := fun s => Known s.c ∧ OnTarget s.c) ?_ ?_ h hd
    · exact fun s l s' hI hd h => ⟨hI.1.step h, hI.2.step hI.1 hd h⟩
    · exact ⟨Known.initial app env, fun e he => by cases he⟩
  exact hs.2

/-- A thread opens a UDP socket, creates a second thread and calls `select` without a timeout;
the second thread sleeps. -/
def selectEnv : Env :=
  .script [.entry (.socket AF_INET SOCK_DGRAM 0), .exit 0, .entry .clone, .exit 2,
    .entry (.select ⟨101, some {100}, none, none, none⟩), .entry (.nanosleep ⟨1, 0⟩), .exit 0] []

/-- Data arrive before the second thread is dispatched. -/
theorem targets_of_run_select :
    ∃ s, run (St.initial {} selectEnv)
      [⟨0, .fire 0⟩, ⟨0, .fire 0⟩, ⟨0, .fire 1⟩, ⟨0, .received 0 5⟩] = some s ∧
      s.c.log.length = 10 ∧ OnTarget s.c := by
  have hrun : (run (St.initial {} selectEnv)
      [⟨0, .fire 0⟩, ⟨0, .fire 0⟩, ⟨0, .fire 1⟩, ⟨0, .received 0 5⟩]).any
      (fun s => s.c.log.length = 10) = true := by decide +kernel
  obtain ⟨s, hs, hview⟩ := (Option.any_eq_true _ _).mp hrun
  exact ⟨s, hs, of_decide_eq_true hview, targets_of_run hs (by decide +kernel)⟩

/-- Data arrive after it has been dispatched: its call is answered with the `select`'s result. -/
theorem select_answers_other :
    ¬ ∀ app env ls s, run (St.initial app env) ls = some s → OnTarget s.c := by
  intro hall
  have hrun : (run (St.initial {} selectEnv)
      [⟨0, .fire 0⟩, ⟨0, .fire 0⟩, ⟨0, .fire 1⟩, ⟨100, .fire 0⟩, ⟨100, .received 0 5⟩]).any
      (fun s => s.c.log.any fun e => (s.c.acts e.task.act).any fun a => e.target ≠ a.pid) = true := by
    decide +kernel
  obtain ⟨s, hs, hview⟩ := (Option.any_eq_true _ _).mp hrun
  obtain ⟨e, he, hact⟩ := List.any_eq_true.mp hview
  obtain ⟨a, ha, hne⟩ := (Option.any_eq_true _ _).mp hact
  obtain ⟨a', ha', ht⟩ := hall _ _ _ s hs e he
  rw [ha, Option.some.injEq] at ha'
  subst ha'
  exact of_decide_eq_true hne ht

end Grail
