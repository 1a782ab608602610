import Grail.SelectPasses
import Grail.SelectTime

/-! # A `select` is answered once

A callback or the timer of a `select` answers the call only if `already_handled` is not yet set, and
sets it.  So each `select` has at most one result, and none as long as a callback or timer of it may
still answer (`Once`). -/

namespace Grail

open Programs SelectArgs

variable {args : SelectArgs} {d : Data} {τ : Task} {c c' : Ctl} {v : SelectLoop}

/-- The number of results that have been given to the call of the dispatch `k`. -/
def completions (k : ℕ) (c : Ctl) : ℕ := (taskResults c.log).countP fun x => x.1.act = k

/-- A `select` has at most one result, and none as long as a callback or timer of it may still
answer. -/
structure Once (c : Ctl) : Prop where
  lt : ∀ x ∈ taskResults c.log, x.1.act < c.nextAct
  once : ∀ k a, c.acts k = some a → a.call.isSelect = true → completions k c ≤ 1
  waiting : ∀ τ, Armed c .select τ → c.alreadyHandled τ.act = false → completions τ.act c = 0

theorem completions_append {vs : List (Task × ℤ)}
    (h : taskResults c'.log = vs ++ taskResults c.log) (k : ℕ) :
    completions k c' = vs.countP (fun x => x.1.act = k) + completions k c := by
  simp [completions, h]

/-- The task's call is no `select`. -/
def NoSelect (c : Ctl) (τ : Task) : Prop := ∃ a, c.acts τ.act = some a ∧ a.call.isSelect = false

theorem NoSelect.of_names {w : Wait} (hn : Names c w τ) (hw : w ≠ .select) : NoSelect c τ := by
  obtain ⟨a, ha, -, hwait⟩ := hn
  refine ⟨a, ha, ?_⟩
  cases hcall : a.call with
  | select =>
      rw [hcall] at hwait
      exact absurd (Option.some.inj hwait).symm hw
  | _ => rfl

theorem Syscall.isSelect_of_wait {call : Syscall} (h : call.wait = some .select) :
    call.isSelect = true := by
  cases call <;> first | rfl | cases h

namespace Once

variable {vs : List (Task × ℤ)}

/-- Results of other calls are given, and no callback or timer of a `select` is installed. -/
theorem others (h : Once c) (hk : Known c) (hr : taskResults c'.log = vs ++ taskResults c.log)
    (hvs : ∀ x ∈ vs, NoSelect c x.1) (hacts : c'.acts = c.acts) (hnext : c'.nextAct = c.nextAct)
    (hh : c'.alreadyHandled = c.alreadyHandled)
    (harm : ∀ τ, Armed c' .select τ → Armed c .select τ) : Once c' := by
  have hsame : ∀ k a, c.acts k = some a → a.call.isSelect = true →
      completions k c' = completions k c := by
    intro k a ha hsel
    rw [completions_append hr, Nat.add_eq_right, List.countP_eq_zero]
    rintro x hx hxk
    obtain ⟨a', ha', hsel'⟩ := hvs x hx
    rw [of_decide_eq_true hxk] at ha'
    cases ha.symm.trans ha'
    rw [hsel] at hsel'
    cases hsel'
  refine ⟨fun x hx => ?_, fun k a ha hsel => ?_, fun τ hτ hnot => ?_⟩
  · rw [hr, List.mem_append] at hx
    rw [hnext]
    rcases hx with hx | hx
    · obtain ⟨a, ha, -⟩ := hvs x hx
      exact hk.acts_lt ha
    · exact h.lt x hx
  · rw [hacts] at ha
    rw [hsame k a ha hsel]
    exact h.once k a ha hsel
  · obtain ⟨a, ha, -, hwait⟩ := hk.armed (harm τ hτ)
    rw [hsame _ a ha (Syscall.isSelect_of_wait hwait)]
    exact h.waiting τ (harm τ hτ) (hh ▸ hnot)

theorem rests (h : Once c) (hk : Known c) (hg : Gives vs c c') (hvs : ∀ x ∈ vs, NoSelect c x.1)
    (hr : Rests c c') : Once c' :=
  h.others hk hg.results hvs hr.acts hr.nextAct hr.alreadyHandled fun _ ha => ha.of_rests hr

/-- Slots are changed, none for a `select`. -/
theorem slots (h : Once c) (hk : Known c) (hlog : c'.log = c.log) (hacts : c'.acts = c.acts)
    (hnext : c'.nextAct = c.nextAct) (hh : c'.alreadyHandled = c.alreadyHandled)
    (harm : ∀ τ, Armed c' .select τ → Armed c .select τ) : Once c' := by
  have hr : taskResults c'.log = [] ++ taskResults c.log := congrArg taskResults hlog
  exact h.others hk hr (by simp) hacts hnext hh harm

/-- A callback or the timer of a `select` that has not been answered answers it. -/
theorem complete (h : Once c) (hk : Known c) {τ : Task} {r : ℤ} (hτ : Armed c .select τ)
    (hnot : c.alreadyHandled τ.act = false)
    (hr : taskResults c'.log = [(τ, r)] ++ taskResults c.log) (hacts : c'.acts = c.acts)
    (hnext : c'.nextAct = c.nextAct)
    (hh : c'.alreadyHandled = Function.update c.alreadyHandled τ.act true)
    (harm : ∀ τ, Armed c' .select τ → Armed c .select τ) : Once c' := by
  have hzero := h.waiting τ hτ hnot
  have hcount : ∀ k, completions k c' = (if τ.act = k then 1 else 0) + completions k c := by
    intro k
    rw [completions_append hr]
    simp [List.countP_cons]
  obtain ⟨a, ha, -⟩ := hk.armed hτ
  refine ⟨fun x hx => ?_, fun k b hb hsel => ?_, fun σ hσ hnot' => ?_⟩
  · rw [hr, List.singleton_append, List.mem_cons] at hx
    rw [hnext]
    rcases hx with rfl | hx
    · exact hk.acts_lt ha
    · exact h.lt x hx
  · rw [hacts] at hb
    rw [hcount]
    split_ifs with heq
    · rw [← heq, hzero]
    · rw [Nat.zero_add]
      exact h.once k b hb hsel
  · have hne : τ.act ≠ σ.act := by
      intro heq
      rw [hh, heq, Function.update_self] at hnot'
      cases hnot'
    rw [hcount, if_neg hne, Nat.zero_add]
    refine h.waiting σ (harm σ hσ) ?_
    rwa [hh, Function.update_of_ne hne.symm] at hnot'

/-- The claim of a callback, and what answers the call. -/
theorem claim (h : Once c) (hk : Known c) {cl : SelectClosure} {p : Pid} {r : ℤ}
    (hcl : Armed c .select cl.task) (hnot : c.alreadyHandled cl.task.act = false)
    (hf : Finish cl.task p r (c.claim cl) c') : Once c' := by
  have hcalm := (Calm.of_finish hf).toRests
  refine h.complete hk hcl hnot ((Gives.claim cl c).trans (Gives.of_finish hf)).results hcalm.acts
    hcalm.nextAct hcalm.alreadyHandled fun τ hτ => ?_
  refine (hτ.of_rests hcalm).of_events rfl rfl rfl rfl rfl fun kind => ?_
  rw [Ctl.claim, pend_cancelTimeout]
  split_ifs
  · exact Nat.zero_le _
  · exact le_rfl

theorem clearRecv (h : Once c) (hk : Known c) (sock : SockId) :
    Once (c.setRecvCallback sock none) :=
  h.slots hk rfl rfl rfl rfl fun _ hτ => hτ.of_setRecv.resolve_right (by simp)

theorem clearNl (h : Once c) (hk : Known c) (nl : NlId) : Once (c.setNlCallback nl none) :=
  h.slots hk rfl rfl rfl rfl fun _ hτ => hτ.of_setNl

/-- Callbacks that complete no `select`. -/
theorem setSend (h : Once c) (hk : Known c) {sock : SockId} {cb : Option SendCallback}
    (hcb : ∀ cb' τ, cb = some cb' → cb'.arms ≠ some (.select, τ)) :
    Once (c.setSendCallback sock cb) := by
  refine h.slots hk rfl rfl rfl rfl fun τ hτ => hτ.of_setSend.resolve_right ?_
  rintro ⟨cb', hcb', harms⟩
  exact hcb cb' τ hcb' harms

theorem setAccept (h : Once c) (hk : Known c) {sock : SockId} {cb : Option AcceptCallback}
    (hcb : ∀ cb' τ, cb = some cb' → cb'.arms ≠ some (.select, τ)) :
    Once (c.setAcceptCallback sock cb) := by
  refine h.slots hk rfl rfl rfl rfl fun τ hτ => hτ.of_setAccept.resolve_right ?_
  rintro ⟨cb', hcb', harms⟩
  exact hcb cb' τ hcb' harms

theorem setConnect (h : Once c) (hk : Known c) {sock : SockId} {cl : ConnectCallback} :
    Once (c.setConnectCallback sock (some cl)) :=
  h.slots hk rfl rfl rfl rfl fun _ hτ => hτ.of_setConnect.resolve_right (by simp)

theorem setConnecting (h : Once c) (hk : Known c) (sock : SockId) (b : Bool) :
    Once (c.setConnecting sock b) :=
  h.slots hk rfl rfl rfl rfl fun _ hτ => hτ.of_events rfl rfl rfl rfl rfl fun _ => le_rfl

/-- A dispatch begins; its call has no result. -/
theorem dispatch (h : Once c) (p : Pid) (th : Tracee) :
    Once (c.dispatch p th) ∧ completions (c.dispatch p th).task.act (c.dispatch p th) = 0 := by
  have hsame : ∀ k, completions k (c.dispatch p th) = completions k c := fun _ => rfl
  have hnew : completions c.nextAct c = 0 := by
    rw [completions, List.countP_eq_zero]
    intro x hx hxk
    exact (h.lt x hx).ne (of_decide_eq_true hxk)
  refine ⟨⟨fun x hx => Nat.lt_succ_of_lt (h.lt x hx), fun k a ha hsel => ?_, fun τ hτ hnot => ?_⟩,
    hnew⟩
  · rw [hsame]
    by_cases hkn : k = c.nextAct
    · rw [hkn, hnew]
      exact Nat.zero_le 1
    · exact h.once k a (by simpa [Ctl.dispatch, hkn] using ha) hsel
  · rw [hsame]
    exact h.waiting τ (hτ.of_events rfl rfl rfl rfl rfl fun _ => le_rfl) hnot

end Once

section steps

variable {s s' : St} {l : Label}

theorem NlWork.once {nl : NlId} (h : NlWork nl s s') (hk : Known s.c) (ho : Once s.c) :
    Once s'.c := by
  induction h with
  | refl => exact ho
  | tail hw hstep ih =>
      have hk₁ := NlWork.known hw hk
      cases hstep with
      | push => exact ih
      | route => exact ih
      | notify hcb hnot _ hf =>
          have harmed := Armed.nl hcb rfl rfl
          have hclaim := hk₁.claim (hk₁.armed harmed)
          exact (ih.claim hk₁ harmed hnot hf).clearNl (hclaim.rests (Calm.of_finish hf).toRests) nl

/-- A `select` that is answered at once, or waits. -/
theorem Once.own (h : Once c) (hk : Known c) (hf : Fresh c c.task) {a : Activation}
    (ha : c.acts c.task.act = some a) (hp : a.pid = c.task.thread)
    (h0 : completions c.task.act c = 0)
    (hlog : c'.log = c.log ∨
      ∃ r, taskResults c'.log = [(c.task, r)] ++ taskResults c.log ∧ Rests c c')
    (hacts : c'.acts = c.acts) (hnext : c'.nextAct = c.nextAct)
    (hh : c'.alreadyHandled = c.alreadyHandled)
    (harm : ∀ τ, Armed c' .select τ → Armed c .select τ ∨ τ = c.task) : Once c' := by
  have hact : ∀ τ, Armed c .select τ → τ.act ≠ c.task.act := by
    intro τ hτ heq
    obtain ⟨b, hb, hpb, -⟩ := hk.armed hτ
    rw [heq] at hb
    cases ha.symm.trans hb
    obtain ⟨p, k⟩ := τ
    obtain rfl : k = c.task.act := heq
    obtain rfl : c.task.thread = p := hp.symm.trans hpb
    exact hf .select hτ
  rcases hlog with hlog | ⟨r, hr, hrests⟩
  · have hsame : ∀ k, completions k c' = completions k c := fun k => by rw [completions, hlog]; rfl
    refine ⟨fun x hx => ?_, fun k b hb hsel => ?_, fun τ hτ hnot => ?_⟩
    · rw [hnext]
      exact h.lt x (hlog ▸ hx)
    · rw [hsame]
      exact h.once k b (hacts ▸ hb) hsel
    · rw [hsame]
      rcases harm τ hτ with hτ | rfl
      · exact h.waiting τ hτ (hh ▸ hnot)
      · exact h0
  · have hcount : ∀ k, completions k c' = (if c.task.act = k then 1 else 0) + completions k c := by
      intro k
      rw [completions_append hr]
      simp [List.countP_cons]
    refine ⟨fun x hx => ?_, fun k b hb hsel => ?_, fun τ hτ hnot => ?_⟩
    · rw [hr, List.singleton_append, List.mem_cons] at hx
      rw [hnext]
      rcases hx with rfl | hx
      · exact hk.acts_lt ha
      · exact h.lt x hx
    · rw [hcount]
      split_ifs with heq
      · rw [← heq, h0]
      · rw [Nat.zero_add]
        exact h.once k b (hacts ▸ hb) hsel
    · have hτ := hτ.of_rests hrests
      rw [hcount, if_neg (hact τ hτ).symm, Nat.zero_add]
      exact h.waiting τ hτ (hh ▸ hnot)

theorem Handled.once {call : Syscall} {res : SyscallHandlerStatusCode} (h : Handled call s res s')
    (hres : res ≠ .error) (hs : Starting call s.c) (ho : Once s.c)
    (h0 : completions s.c.task.act s.c = 0) : Once s'.c := by
  have hk := hs.known
  obtain ⟨a, ha, hpid, hcalls⟩ := hs.act
  -- results of the call itself, which is no `select`
  have own : ∀ {v c'}, call.isSelect = false → Gives [(s.c.task, v)] s.c c' → Rests s.c c' →
      Once c' := by
    intro v c' hsel hg hr
    refine ho.rests hk hg (fun x hx => ?_) hr
    rw [List.mem_singleton] at hx
    subst hx
    exact ⟨a, ha, hcalls ▸ hsel⟩
  have none : ∀ {c'}, Gives [] s.c c' → Rests s.c c' → Once c' :=
    fun hg hr => ho.rests hk hg (by simp) hr
  have hplain : call.plainly = true → call.isSelect = false := by
    cases call <;> simp [Syscall.plainly, Syscall.isSelect]
  have hnetlink : ∀ nl, netlinkOf s.d.fds call = some nl → call.isSelect = false := by
    intro nl hnl
    cases call <;> first | rfl | cases hnl
  cases h with
  | error => exact absurd rfl hres
  | answered hplainly _ _ _ hpre hc =>
      have hg := (Gives.of_prelude hpre).trans (Gives.of_completes hc)
      rw [(Calm.of_prelude hpre).task] at hg
      exact own (hplain hplainly) hg ((Calm.of_prelude hpre).trans (Calm.of_completes hc)).toRests
  | listened hcall _ _ _ _ hc =>
      subst hcall
      have hr := (Calm.of_completes hc).toRests
      refine (own rfl (Gives.of_completes hc) hr).setAccept (hk.rests hr) ?_
      rintro cb' τ hcb harms
      cases hcb
      cases harms
  | accepted hcall _ _ _ _ hc =>
      subst hcall
      rw [St.returning_c]
      exact own rfl (Gives.of_completes hc) (Calm.of_completes hc).toRests
  | @nlSend nl v _ s₁ _ hnl _ hw hc =>
      have hk₁ := hw.known hk
      refine (hw.once hk ho).rests hk₁ (Gives.of_completes hc) (fun x hx => ?_)
        (Calm.of_completes hc).toRests
      rw [List.mem_singleton] at hx
      subst hx
      rw [hw.task]
      exact ⟨a, hw.acts ▸ ha, hcalls ▸ hnetlink nl hnl⟩
  | nlOther hnl _ _ _ hc =>
      exact own (hnetlink _ hnl) (Gives.of_completes hc) (Calm.of_completes hc).toRests
  | passed _ _ _ _ hc => exact none (Gives.of_passes hc) (Calm.of_passes hc).toRests
  | @cloned c₁ th _ hc _ _ =>
      have hcalm := (Calm.of_passes hc).trans (Calm.cloned th.rax c₁)
      exact none ((Gives.of_passes hc).trans (Gives.cloned th.rax c₁)) hcalm.toRests
  | unadvanced => exact ho
  | systemExit => exact ho
  | recvNow hcall _ _ _ hc =>
      obtain ⟨vs, hvs, hown⟩ := Gives.of_reads hc
      have hr := (Calm.of_reads hc).toRests
      refine (ho.rests hk hvs (fun x hx => ?_) hr).clearRecv (hk.rests hr) _
      rw [hown x hx]
      exact .of_names (hs.names (Syscall.wait_recv hcall)) (by decide)
  | recvWait hcall _ _ _ howner =>
      refine ho.slots hk rfl rfl rfl rfl fun τ hτ => hτ.of_setRecv.resolve_right ?_
      rintro ⟨cb', hcb, harms⟩
      cases hcb
      rw [RecvCallback.arms_of_owner howner] at harms
      cases harms
  | writeWait =>
      refine ho.setSend hk ?_
      rintro cb' τ hcb harms
      cases hcb
      cases harms
  | connectRefused => exact ho.setConnect hk
  | connectWait hcall =>
      subst hcall
      exact (ho.setConnect hk).setConnecting (hk.setConnect (hs.names rfl) hs.fresh) _ _
  | connectNow hcall _ _ _ hc =>
      subst hcall
      refine (ho.setConnect hk).rests (hk.setConnect (hs.names rfl) hs.fresh) (Gives.of_finish hc)
        (fun x hx => ?_) (Calm.of_finish hc).toRests
      rw [List.mem_singleton] at hx
      subst hx
      exact ⟨a, ha, hcalls ▸ rfl⟩
  | acceptWait =>
      refine ho.setAccept hk ?_
      rintro cb' τ hcb harms
      cases hcb
      cases harms
  | selectNow _ _ _ _ hc =>
      have hr := (Calm.of_completes hc).toRests
      exact ho.own hk hs.fresh ha hpid h0 (.inr ⟨_, (Gives.of_completes hc).results, hr⟩) hr.acts
        hr.nextAct hr.alreadyHandled fun τ hτ => .inl (hτ.of_rests hr)
  | @selectWait args c₁ c' _ _ harms _ ht =>
      have hframe := harms.frame
      -- what is armed after the second pass was armed before, or is the call's own
      have harmed : ∀ τ, Armed c' .select τ → Armed s.c .select τ ∨ τ = s.c.task :=
        fun τ hτ => (harms.armed_timer ht hτ).imp_right And.right
      have hlog : c₁.log = s.c.log := by rw [hframe]
      have hacts : c₁.acts = s.c.acts := by rw [hframe]
      have hnext : c₁.nextAct = s.c.nextAct := by rw [hframe]
      have hh : c₁.alreadyHandled = s.c.alreadyHandled := by rw [hframe]
      cases ht with
      | none => exact ho.own hk hs.fresh ha hpid h0 (.inl hlog) hacts hnext hh harmed
      | timer => exact ho.own hk hs.fresh ha hpid h0 (.inl hlog) hacts hnext hh harmed
  | sleeping =>
      refine ho.slots hk rfl rfl rfl rfl fun τ hτ => hτ.of_schedule.resolve_right ?_
      intro harms
      cases harms

theorem Once.step (ho : Once s.c) (hk₀ : Known s.c) (h : Grail.step s l = some s') :
    Once s'.c := by
  obtain ⟨-, -, h⟩ := step_cases h
  generalize l.what = what at h
  have hmove : Rests s.c (s.moveTo l).c := Rests.setNow l.time s.c
  have hk : Known (s.moveTo l).c := hk₀.rests hmove
  have ho : Once (s.moveTo l).c := ho.slots hk₀ rfl rfl rfl rfl fun _ hτ => hτ.of_rests hmove
  cases h with
  | @fired i e _ he _ hf =>
      obtain ⟨t, kind⟩ := e
      have hk₁ := hk.removeEvent he
      have hfewer : ∀ k, pend ((s.moveTo l).c.removeEvent i) k ≤ pend (s.moveTo l).c k := by
        intro k
        have hp := pend_removeEvent he k
        omega
      have ho₁ : Once ((s.moveTo l).c.removeEvent i) :=
        ho.slots hk rfl rfl rfl rfl fun _ hτ => hτ.of_events rfl rfl rfl rfl rfl hfewer
      cases hf with
      | gone =>
          exact ho₁.slots hk₁ rfl rfl rfl rfl fun _ hτ =>
            hτ.of_events rfl rfl rfl rfl rfl fun _ => le_rfl
      | @dispatched p c₁ th res s₂ _ hc hth hh hp =>
          have hcalm := Calm.of_caught hc
          have hkc := hk₀.caught he hc
          have hoc : Once c₁ := by
            have hg := Gives.of_caught hc
            have hg₁ : Gives [] ((s.moveTo l).c.removeEvent i) c₁ := ⟨hg.results, hg.timers⟩
            exact ho₁.rests hk₁ hg₁ (by simp) ((Rests.setPid p _).trans hcalm.toRests)
          obtain ⟨hod, h0⟩ := hoc.dispatch p th
          have hstart := @Known.starting c₁ p th hkc hcalm.pid
          have ho₂ := hh.handled.once hp.ne_error hstart hod h0
          exact ho₂.rests (hh.handled.known hp.ne_error hstart) hp.gives (by simp) hp.calm.toRests
      | timeoutStale => exact ho₁
      | @timeout τ c' hnot hc =>
          have harmed : Armed (s.moveTo l).c .select τ := .timer (pend_ne_zero he) rfl
          have hr := (Calm.of_finish hc).toRests
          refine ho.complete hk harmed hnot (Gives.of_finish hc).results hr.acts hr.nextAct
            hr.alreadyHandled fun σ hσ => ?_
          exact (hσ.of_rests hr).of_events rfl rfl rfl rfl rfl hfewer
      | @slept τ _ hc =>
          refine ho₁.rests hk₁ (Gives.of_finish hc) (fun x hx => ?_) (Calm.of_finish hc).toRests
          rw [List.mem_singleton] at hx
          subst hx
          have hn : Names (s.moveTo l).c .sleep τ := hk.armed (.sleep (pend_ne_zero he) rfl)
          exact .of_names hn (by decide)
      | removed => exact ho₁
  | receivedIdle => exact ho
  | receivedRead hcb hown _ hc =>
      obtain ⟨vs, hvs, htask⟩ := Gives.of_reads hc
      have hr := (Calm.of_reads hc).toRests
      refine (ho.rests hk hvs (fun x hx => ?_) hr).clearRecv (hk.rests hr) _
      rw [htask x hx]
      exact .of_names (hk.armed (.recv hcb (RecvCallback.arms_of_owner hown))) (by decide)
  | receivedSelect _ hcb hnot hc =>
      have harmed := Armed.recv hcb rfl
      have hclaim := hk.claim (hk.armed harmed)
      exact (ho.claim hk harmed hnot hc).clearRecv (hclaim.rests (Calm.of_finish hc).toRests) _
  | sendableIdle => exact ho
  | sendableSelect _ hcb hnot hc =>
      have harmed := Armed.send hcb rfl
      have hclaim := hk.claim (hk.armed harmed)
      exact (ho.claim hk harmed hnot hc).setSend (hclaim.rests (Calm.of_finish hc).toRests)
        (by rintro _ _ ⟨⟩)
  | incomingLost => exact ho
  | incomingStored => exact ho
  | @incomingSelect _ sock' _ _ _ cl _ _ _ hcb hnot _ _ hc =>
      have harmed : Armed (s.moveTo l).c .select cl.task := .accept hcb rfl
      have hr := (Calm.of_finish hc).toRests
      refine ho.complete hk harmed hnot (Gives.of_finish hc).results hr.acts hr.nextAct
        hr.alreadyHandled fun σ hσ => ?_
      have hσ := (hσ.of_rests hr).of_setAccept.resolve_right (by simp)
      refine hσ.of_events rfl rfl rfl rfl rfl fun kind => ?_
      rw [Ctl.claim, pend_cancelTimeout]
      split_ifs
      · exact Nat.zero_le _
      · exact le_rfl
  | @incomingAccept _ _ _ _ τ _ _ _ _ _ _ hcb _ _ hc =>
      have hf : Finish τ s.c.pid _ (s.moveTo l).c _ := ⟨_, hc, rfl⟩
      refine ho.rests hk (Gives.of_finish hf) (fun x hx => ?_) (Calm.of_finish hf).toRests
      rw [List.mem_singleton] at hx
      subst hx
      exact .of_names (hk.armed (.accept hcb rfl)) (by decide)
  | connectIdle => exact ho.setConnecting hk _ _
  | connected _ hcb hc =>
      refine (ho.setConnecting hk _ _).rests (hk.setConnecting _ _) (Gives.of_finish hc)
        (fun x hx => ?_) (Calm.of_finish hc).toRests
      rw [List.mem_singleton] at hx
      subst hx
      exact .of_names (hk.armed (.connect hcb rfl rfl)) (by decide)
  | refused _ hcb hc =>
      refine (ho.setConnecting hk _ _).rests (hk.setConnecting _ _) (Gives.of_finish hc)
        (fun x hx => ?_) (Calm.of_finish hc).toRests
      rw [List.mem_singleton] at hx
      subst hx
      exact .of_names (hk.armed (.connect hcb rfl rfl)) (by decide)

theorem Once.initial (app : App) (env : Env) : Once (St.initial app env).c where
  lt x hx := by cases hx
  once _ _ ha := by cases ha
  waiting _ _ _ := rfl

theorem once_of_run {app : App} {env : Env} {ls : List Label}
    (h : run (St.initial app env) ls = some s) : Once s.c :=
  (Runs.run_invariant (I := fun s => Known s.c ∧ Once s.c)
    (fun _ _ _ hi hs => ⟨hi.1.step hs, hi.2.step hi.1 hs⟩)
    ⟨Known.initial app env, Once.initial app env⟩ h).2

end steps

/-- The two passes agree in every state, `!may_block && does_block` is never true, and in every run
at most one of the callbacks and the timer of a `select` answers it. -/
theorem select_passes :
    (∀ s args res s', args.exceptfds = none → (handleSelect args).run s = .ok (res, s') →
      PassesAgree args s s') ∧
    (∀ args d τ c mayBlock v, selectMayBlock args d = some mayBlock →
      selectPass args d τ ⟨mayBlock, false, ∅, ∅, 0, c⟩ = some v →
      ¬ (v.mayBlock = false ∧ v.doesBlock = true)) ∧
    ∀ app env ls s, run (St.initial app env) ls = some s → ∀ k a, s.c.acts k = some a →
      a.call.isSelect = true → completions k s.c ≤ 1 :=
  ⟨fun _ _ _ _ hx hr => (handleSelect_agrees hx).elim hr,
    fun _ _ _ _ _ _ hm hp => selectPass_not_dead hm hp,
    fun _ _ _ _ hrun => (once_of_run hrun).once⟩

/-- A thread with a UDP socket on which `rx` bytes are readable. -/
def readableState (rx : ℕ) : St :=
  let s := St.initial { appPid_pos := Int.one_pos } (.script [.exit 0] [])
  ⟨{ s.c with threads := fun p => if p = 1 then some ⟨.entry, .getpid, false, 0, 0, 0⟩ else none },
    { s.d.withFds (Fds.initial.addSocket 100 0) with rxAvailable := fun _ => rx }⟩

/-- It waits for it, at most one second. -/
def readArgs : SelectArgs := ⟨101, some {100}, none, none, some ⟨1, 0⟩⟩

theorem anyReady_readableState {rx : ℕ} : AnyReady readArgs (readableState rx).d ↔ rx ≠ 0 := by
  constructor
  · intro h hrx
    subst hrx
    cases h with
    | read hfd hr =>
        rcases hr.2 with hr | hr
        · exact hr rfl
        · exact Bool.false_ne_true hr
    | write _ hw => exact Bool.false_ne_true hw.1
    | netlink hfd _ => exact Option.some_ne_none _ hfd.symm
  · intro hrx
    exact @AnyReady.read readArgs _ 100 0 rfl ⟨by decide, .inl hrx⟩

/-- On a socket with data nothing is armed, on one without data the call waits; the `select` that
waits is then answered by its timer only. -/
theorem select_passes_read :
    (∃ res s', (handleSelect readArgs).run (readableState 4) = .ok (res, s') ∧
      AnyReady readArgs (readableState 4).d ∧ Rests (readableState 4).c s'.c) ∧
    (∃ res s', (handleSelect readArgs).run (readableState 0) = .ok (res, s') ∧
      ¬ AnyReady readArgs (readableState 0).d ∧
      ArmsAll readArgs (readableState 0).d.fds (readableState 0).c.task s'.c) ∧
    (∃ v, selectPass readArgs (readableState 0).d ⟨1, 0⟩
      ⟨true, false, ∅, ∅, 0, (readableState 0).c⟩ = some v ∧ v.doesBlock = true ∧
      v.mayBlock = true) ∧
    ∃ s, run (St.initial {} waitingEnv)
        [⟨0, .fire 0⟩, ⟨0, .fire 0⟩, ⟨1000000000, .fire 0⟩] = some s ∧
      (s.c.acts 1).map (·.call) = some (.select readArgs) ∧ completions 1 s.c ≤ 1 := by
  obtain ⟨hagree, hdead, honce⟩ := select_passes
  refine ⟨?_, ?_, ?_, ?_⟩
  · have hok : ((handleSelect readArgs).run (readableState 4)).toOption.any (fun _ => true) := by
      decide
    obtain ⟨res, s', hrun, -⟩ := returns_of_any hok
    have hready := anyReady_readableState.mpr (by decide : 4 ≠ 0)
    exact ⟨res, s', hrun, hready, (hagree _ _ _ _ rfl hrun).ready (.inl hready)⟩
  · have hok : ((handleSelect readArgs).run (readableState 0)).toOption.any (fun _ => true) := by
      decide
    obtain ⟨res, s', hrun, -⟩ := returns_of_any hok
    have hidle : ¬ AnyReady readArgs (readableState 0).d := fun h => anyReady_readableState.mp h rfl
    exact ⟨res, s', hrun, hidle, (hagree _ _ _ _ rfl hrun).waits hidle (by decide)⟩
  · have hpass : (selectPass readArgs (readableState 0).d ⟨1, 0⟩
        ⟨true, false, ∅, ∅, 0, (readableState 0).c⟩).any fun v => v.doesBlock := by
      decide
    obtain ⟨v, hv, hblocks⟩ := (Option.any_eq_true _ _).mp hpass
    have hnot := hdead _ _ _ _ true _ (by decide) hv
    exact ⟨v, hv, hblocks, by simpa [hblocks] using hnot⟩
  · have hrun : (run (St.initial {} waitingEnv)
        [⟨0, .fire 0⟩, ⟨0, .fire 0⟩, ⟨1000000000, .fire 0⟩]).any
        (fun s => (s.c.acts 1).map (·.call) = some (.select readArgs)) = true := by
      decide +kernel
    obtain ⟨s, hs, hview⟩ := (Option.any_eq_true _ _).mp hrun
    have hcall := of_decide_eq_true hview
    obtain ⟨a, ha, hsel⟩ := Option.map_eq_some_iff.mp hcall
    exact ⟨s, hs, hcall, honce _ _ _ _ hs 1 a ha (by rw [hsel]; rfl)⟩

end Grail
