import Grail.Targets

/-! # The time at which `select` returns 0

A `select` that finds nothing ready returns 0 either at once or when its timer fires.  It does so at
once if it may not block, and also if no descriptor is requested for which `HandleSelect` installs a
callback: then it does not wait, whatever its timeout is.

`Timed` says that every timer of a `select` was set to the time of the call and the timeout.  Apart
from calls that request nothing (`selectsNothing`) a result of 0 is on time (`run_selectTimed`). -/

namespace Grail

open Programs

theorem Syscall.exists_of_isSelect {call : Syscall} (h : call.isSelect = true) :
    ∃ args, call = .select args := by
  cases call <;> first | exact ⟨_, rfl⟩ | cases h

/-! ### Results -/

/-- The results that have been given, with the task on whose behalf, the last one first. -/
def taskResults (log : List Effect) : List (Task × ℤ) :=
  log.filterMap fun e => e.kind.rax?.map (Prod.mk e.task)

/-- Between `c` and `c'` the results `vs` are given, and no timer of a `select` is set. -/
structure Gives (vs : List (Task × ℤ)) (c c' : Ctl) : Prop where
  results : taskResults c'.log = vs ++ taskResults c.log
  timers : ∀ e ∈ c'.events, ∀ τ, e.kind = .selectTimeout τ → e ∈ c.events

namespace Gives

variable {c c' c'' : Ctl} {p : Pid} {v : ℤ} {τ : Task} {vs vs' : List (Task × ℤ)}

theorem of_fields (hl : c'.log = c.log) (he : c'.events = c.events) : Gives [] c c' := by
  refine ⟨?_, ?_⟩
  · rw [hl]
    rfl
  · intro e hmem _ _
    rwa [he] at hmem

theorem refl (c : Ctl) : Gives [] c c := of_fields rfl rfl

theorem trans (h : Gives vs c c') (h' : Gives vs' c' c'') : Gives (vs' ++ vs) c c'' where
  results := by rw [h'.results, h.results, List.append_assoc]
  timers e he τ hk := h.timers e (h'.timers e he τ hk) τ hk

theorem unique (h : Gives vs c c') (h' : taskResults c'.log = vs' ++ taskResults c.log) :
    vs = vs' := List.append_cancel_right (h.results.symm.trans h')

theorem of_completes (h : Completes p v c c') : Gives [(c.task, v)] c c' := by
  cases h with
  | atEntry => exact ⟨rfl, fun _ he _ _ => he⟩
  | atExit => exact ⟨rfl, fun _ he _ _ => he⟩

theorem of_vanishes (h : Vanishes p c c') : Gives [] c c' := by
  cases h
  exact ⟨rfl, fun _ he _ _ => he⟩

theorem of_passes (h : Passes p c c') : Gives [] c c' := by
  cases h with
  | atEntry => exact ⟨rfl, fun _ he _ _ => he⟩
  | atExit => exact ⟨rfl, fun _ he _ _ => he⟩

theorem of_caught (h : Caught p c c') : Gives [] c c' := by
  cases h with
  | entry => exact of_fields rfl rfl
  | exit => exact of_fields rfl rfl

/-- An event of another kind is scheduled. -/
theorem schedule {delay : ℕ} {kind : EventKind} (hk : ∀ τ, kind ≠ .selectTimeout τ) (c : Ctl) :
    Gives [] c (c.schedule delay kind) := by
  refine ⟨rfl, fun e he τ hτ => ?_⟩
  rcases List.mem_append.mp he with he | he
  · exact he
  · rw [List.mem_singleton] at he
    subst he
    exact absurd hτ (hk τ)

theorem of_prelude (h : Prelude p c c') : Gives [] c c' := by
  cases h with
  | none => exact refl c
  | close => exact schedule (by simp) c
  | origRax => exact ⟨rfl, fun _ he _ _ => he⟩

theorem resched (p : Pid) (c : Ctl) : Gives [] c (c.resched p) := by
  refine ⟨rfl, fun e he τ hτ => ?_⟩
  rcases List.mem_append.mp he with he | he
  · exact he
  · rw [List.mem_singleton] at he
    subst he
    cases hτ

theorem cloned (tid : Pid) (c : Ctl) : Gives [] c (c.cloned tid) := by
  have hspawn : Gives [] c { c.spawn tid with tidVector := c.tidVector ++ [tid] } := by
    unfold Ctl.spawn
    split_ifs <;> exact of_fields rfl rfl
  exact hspawn.trans (schedule (by simp) _)

theorem of_finish (h : Finish τ p v c c') : Gives [(τ, v)] c c' := by
  obtain ⟨c₁, hc₁, rfl⟩ := h
  have h₁ := (of_completes hc₁).trans (resched τ.thread c₁)
  exact ⟨h₁.results, h₁.timers⟩

theorem of_reads (h : Reads τ c c') : ∃ vs, Gives vs c c' ∧ ∀ x ∈ vs, x.1 = τ := by
  cases h with
  | finish h => exact ⟨_, of_finish h, by simp⟩
  | @vanish c₁ h =>
      have h₁ := (of_vanishes h).trans (resched τ.thread c₁)
      exact ⟨[], ⟨h₁.results, h₁.timers⟩, by simp⟩

theorem claim (cl : SelectClosure) (c : Ctl) : Gives [] c (c.claim cl) :=
  ⟨rfl, fun _ he _ _ => List.mem_of_mem_filter he⟩

theorem removeEvent (i : ℕ) (c : Ctl) : Gives [] c (c.removeEvent i) :=
  ⟨rfl, fun _ he _ _ => mem_removeEvent he⟩

end Gives

theorem NlStep.now {nl : NlId} {s s' : St} (h : NlStep nl s s') : s'.c.now = s.c.now := by
  cases h with
  | push => rfl
  | route => rfl
  | notify _ _ _ hf => exact (Calm.of_finish hf).now

theorem NlWork.now {nl : NlId} {s s' : St} (h : NlWork nl s s') : s'.c.now = s.c.now := by
  induction h with
  | refl => rfl
  | tail _ hstep ih => exact hstep.now.trans ih

theorem NlWork.gives {nl : NlId} {s s' : St} (h : NlWork nl s s') :
    ∃ vs, Gives vs s.c s'.c ∧ ∀ x ∈ vs, x.2 = 1 := by
  induction h with
  | refl => exact ⟨[], Gives.refl _, by simp⟩
  | tail _ hstep ih =>
      obtain ⟨vs, hvs, hone⟩ := ih
      cases hstep with
      | push => exact ⟨vs, hvs, hone⟩
      | route => exact ⟨vs, hvs, hone⟩
      | @notify cl c' _ _ _ hf =>
          have hf' := (Gives.claim cl _).trans (Gives.of_finish hf)
          refine ⟨_, ⟨(hvs.trans hf').results, (hvs.trans hf').timers⟩, ?_⟩
          simpa using hone

/-- The handler of a call other than `select` gives its own results, after those of netlink
callbacks. -/
theorem Handled.gives_own {call : Syscall} {s s' : St} {res : SyscallHandlerStatusCode}
    (h : Handled call s res s') (hres : res ≠ .error) (hcall : call.isSelect = false) :
    (∃ vs, Gives vs s.c s'.c ∧ ∀ x ∈ vs, x.1 = s.c.task) ∨
    ∃ nl v s₁, netlinkOf s.d.fds call = some nl ∧ NlWork nl s s₁ ∧
      Completes (s.d.nls nl).pid v s₁.c s'.c ∧ s'.d = s₁.d := by
  have own : ∀ {v c'}, Gives [(s.c.task, v)] s.c c' →
      ∃ vs, Gives vs s.c c' ∧ ∀ x ∈ vs, x.1 = s.c.task := fun h => ⟨_, h, by simp⟩
  have none : ∀ {c'}, Gives [] s.c c' →
      ∃ vs, Gives vs s.c c' ∧ ∀ x ∈ vs, x.1 = s.c.task := fun h => ⟨_, h, by simp⟩
  cases h with
  | error => exact absurd rfl hres
  | answered _ _ _ _ hpre hc =>
      have htask := (Calm.of_prelude hpre).task
      have h₁ := (Gives.of_prelude hpre).trans (Gives.of_completes hc)
      rw [htask] at h₁
      exact .inl (own h₁)
  | listened _ _ _ _ _ hc =>
      have h₁ := Gives.of_completes hc
      exact .inl (own ⟨h₁.results, h₁.timers⟩)
  | accepted _ _ _ _ _ hc =>
      rw [St.returning_c]
      exact .inl (own (Gives.of_completes hc))
  | nlSend hnl _ hw hc => exact .inr ⟨_, _, _, hnl, hw, hc, rfl⟩
  | nlOther _ _ _ _ hc => exact .inl (own (Gives.of_completes hc))
  | passed _ _ _ _ hc => exact .inl (none (Gives.of_passes hc))
  | cloned _ hc => exact .inl (none ((Gives.of_passes hc).trans (Gives.cloned _ _)))
  | unadvanced => exact .inl (none (Gives.refl _))
  | systemExit => exact .inl (none (Gives.refl _))
  | recvNow _ _ _ _ hc =>
      obtain ⟨vs, hvs, hown⟩ := Gives.of_reads hc
      exact .inl ⟨vs, ⟨hvs.results, hvs.timers⟩, hown⟩
  | connectNow _ _ _ _ hc =>
      have h₁ := Gives.of_finish hc
      exact .inl (own ⟨h₁.results, h₁.timers⟩)
  | selectNow hcall' =>
      subst hcall'
      cases hcall
  | selectWait hcall' =>
      subst hcall'
      cases hcall
  | sleeping _ _ => exact .inl (none (Gives.schedule (by simp) _))
  | _ => exact .inl (none (Gives.of_fields rfl rfl))

theorem Handled.gives {call : Syscall} {s s' : St} {res : SyscallHandlerStatusCode}
    (h : Handled call s res s') (hres : res ≠ .error) (hcall : call.isSelect = false) :
    ∃ vs, Gives vs s.c s'.c ∧ ∀ x ∈ vs, x.1 = s.c.task ∨ x.2 = 1 := by
  rcases h.gives_own hres hcall with ⟨vs, hvs, hown⟩ | ⟨nl, v, s₁, -, hw, hc, -⟩
  · exact ⟨vs, hvs, fun x hx => .inl (hown x hx)⟩
  · obtain ⟨vs, hvs, hone⟩ := hw.gives
    refine ⟨_, hvs.trans (Gives.of_completes hc), fun x hx => ?_⟩
    rcases List.mem_append.mp hx with hx | hx
    · rw [List.mem_singleton] at hx
      subst hx
      exact .inl hw.task
    · exact .inr (hone x hx)

/-- No handler changes the dispatches or the time. -/
theorem Handled.acts {call : Syscall} {s s' : St} {res : SyscallHandlerStatusCode}
    (h : Handled call s res s') (hres : res ≠ .error) :
    s'.c.acts = s.c.acts ∧ s'.c.now = s.c.now := by
  have calm : ∀ {c'}, Calm s.c c' → c'.acts = s.c.acts ∧ c'.now = s.c.now :=
    fun h => ⟨h.acts, h.now⟩
  cases h with
  | error => exact absurd rfl hres
  | answered _ _ _ _ hpre hc => exact calm ((Calm.of_prelude hpre).trans (Calm.of_completes hc))
  | listened _ _ _ _ _ hc =>
      have hcalm := Calm.of_completes hc
      exact ⟨hcalm.acts, hcalm.now⟩
  | accepted _ _ _ _ _ hc =>
      rw [St.returning_c]
      exact calm (Calm.of_completes hc)
  | nlSend _ _ hw hc =>
      have hcalm := Calm.of_completes hc
      exact ⟨hcalm.acts.trans hw.acts, hcalm.now.trans hw.now⟩
  | nlOther _ _ _ _ hc => exact calm (Calm.of_completes hc)
  | passed _ _ _ _ hc => exact calm (Calm.of_passes hc)
  | cloned _ hc => exact calm ((Calm.of_passes hc).trans (Calm.cloned _ _))
  | recvNow _ _ _ _ hc =>
      have hcalm := Calm.of_reads hc
      exact ⟨hcalm.acts, hcalm.now⟩
  | connectNow _ _ _ _ hc =>
      have hcalm := Calm.of_finish hc
      exact ⟨hcalm.acts, hcalm.now⟩
  | selectNow _ _ _ _ hc => exact calm (Calm.of_completes hc)
  | @selectWait args c₁ c' _ _ harms _ ht =>
      have h₁ : c₁.acts = s.c.acts ∧ c₁.now = s.c.now := by
        rw [harms.frame]
        exact ⟨rfl, rfl⟩
      cases ht with
      | none => exact h₁
      | timer => exact h₁
  | _ => exact ⟨rfl, rfl⟩

/-! ### Timers -/

/-- Every timer of a `select` was set to the time of the call and its timeout. -/
def Timed (c : Ctl) : Prop :=
  ∀ e ∈ c.events, ∀ τ, e.kind = .selectTimeout τ → ∃ a args t, c.acts τ.act = some a ∧
    a.call = .select args ∧ args.timeout = some t ∧ (e.time : ℤ) = a.start + t.toNs

/-- If the call of `τ` is a `select`, its timeout has passed. -/
def OnTime (c : Ctl) (τ : Task) : Prop :=
  ∀ a args, c.acts τ.act = some a → a.call = .select args →
    ∃ t, args.timeout = some t ∧ (a.start : ℤ) + t.toNs ≤ c.now

/-- Where the handler, a callback or the timer of a `select` answers it with 0, the time of the call
and the timeout have passed, and there is a timeout.  (What a closure of another call writes to the
same thread is a result of that call: a stale `accept` or `nanosleep`, or a netlink call of another
thread.) -/
def SelectTimed (s : St) (l : Label) : Prop :=
  ∀ s' ∈ step s l, ∀ vs, taskResults s'.c.log = vs ++ taskResults s.c.log →
    ∀ τ, (τ, 0) ∈ vs → OnTime s'.c τ

/-- The call has a positive timeout or none. -/
def SelectArgs.waits (args : SelectArgs) : Bool :=
  match args.timeout with
  | none => true
  | some t => decide (0 < t.toNs)

instance (args : SelectArgs) (f : Fds) : Decidable (Requested args f) :=
  inferInstanceAs (Decidable (_ ∨ _))

/-- The call that `l` dispatches is a `select` that should wait, but requests no descriptor for
which a callback can be installed. -/
def selectsNothing (s : St) (l : Label) : Bool :=
  match dispatched s l with
  | some (_, .select args) => args.waits && !decide (Requested args s.d.fds)
  | _ => false

variable {c c' : Ctl} {τ : Task} {s s' : St} {l : Label}

theorem Timed.gives {vs : List (Task × ℤ)} (ht : Timed c) (h : Gives vs c c')
    (ha : c'.acts = c.acts) : Timed c' := by
  intro e he τ hk
  obtain ⟨a, args, t, hact, hrest⟩ := ht e (h.timers e he τ hk) τ hk
  rw [ha]
  exact ⟨a, args, t, hact, hrest⟩

theorem Timed.dispatch (ht : Timed c) (hk : Known c) (p : Pid) (th : Tracee) :
    Timed (c.dispatch p th) := by
  intro e he τ hτ
  obtain ⟨a, args, t, hact, hrest⟩ := ht e he τ hτ
  have hne : τ.act ≠ c.nextAct := (hk.acts_lt hact).ne
  exact ⟨a, args, t, by simpa [Ctl.dispatch, hne] using hact, hrest⟩

/-- A task whose call is no `select`. -/
theorem OnTime.of_names {w : Wait} (hn : Names c w τ) (hw : w ≠ .select) (ha : c'.acts = c.acts) :
    OnTime c' τ := by
  intro a args hact hcall
  obtain ⟨a', hact', -, hwait⟩ := hn
  rw [ha, hact', Option.some.injEq] at hact
  subst hact
  rw [hcall] at hwait
  cases hwait
  exact absurd rfl hw

theorem Requested.of_waits {args : SelectArgs} {d : Data} (harms : SelectArms args d τ c c')
    (hw : SelectWaits τ d.fds c') (hf : Fresh c τ) : Requested args d.fds := by
  cases hw with
  | @recv sock fd h =>
      rcases harms.recv sock with hold | ⟨fd', hfd', hset, -⟩
      · rw [hold] at h
        exact absurd (.recv h rfl) (hf .select)
      · exact .inl ⟨fd', StdMap.mem_keys_of_find hfd', .inl hset⟩
  | @send sock fd h =>
      rcases harms.send sock with hold | ⟨fd', hfd', hset, -⟩
      · rw [hold] at h
        exact absurd (.send h rfl) (hf .select)
      · exact .inl ⟨fd', StdMap.mem_keys_of_find hfd', .inr hset⟩
  | @accept sock fd h =>
      rcases harms.accept sock with hold | ⟨fd', hfd', hset, -⟩
      · rw [hold] at h
        exact absurd (.accept h rfl) (hf .select)
      · exact .inl ⟨fd', StdMap.mem_keys_of_find hfd', .inl hset⟩
  | @nl nl fd _ h =>
      rcases harms.nl nl with hold | ⟨fd', hfd', hset, -⟩
      · rw [hold] at h
        exact absurd (.nl h rfl rfl) (hf .select)
      · exact .inr ⟨fd', StdMap.mem_keys_of_find hfd', hset⟩

/-! ### A dispatched `select` -/

/-- Where nothing is requested, nothing is ready. -/
theorem ReadySets.empty_of_not_requested {args : SelectArgs} {d : Data} {rs rn w : FdSet}
    (h : ReadySets args d rs rn w) (hreq : ¬ Requested args d.fds) : rs = ∅ ∧ rn = ∅ ∧ w = ∅ := by
  refine ⟨?_, ?_, ?_⟩
  · refine Finset.eq_empty_iff_forall_notMem.mpr fun fd hfd => hreq ?_
    obtain ⟨sock, hsock, hset, -⟩ := (h.sockets fd).mp hfd
    exact .inl ⟨fd, StdMap.mem_keys_of_find hsock, .inl hset⟩
  · refine Finset.eq_empty_iff_forall_notMem.mpr fun fd hfd => hreq ?_
    obtain ⟨nl, hnl, hset, -⟩ := (h.netlinks fd).mp hfd
    exact .inr ⟨fd, StdMap.mem_keys_of_find hnl, hset⟩
  · refine Finset.eq_empty_iff_forall_notMem.mpr fun fd hfd => hreq ?_
    obtain ⟨sock, hsock, hset, -⟩ := (h.write fd).mp hfd
    exact .inl ⟨fd, StdMap.mem_keys_of_find hsock, .inr hset⟩

theorem mayBlock_of_waits {args : SelectArgs} (h : args.waits = true) : args.mayBlock = true := by
  unfold SelectArgs.waits at h
  unfold SelectArgs.mayBlock
  cases ht : args.timeout with
  | none => rfl
  | some t =>
      simp only [ht, decide_eq_true_eq] at h
      by_contra hzero
      simp only [Bool.or_eq_true, decide_eq_true_eq, not_or, not_not] at hzero
      simp [Timeval.toNs, hzero.1, hzero.2] at h

/-- What the handler of `select` gives: 0 if nothing is requested, and otherwise only if it need not
wait. -/
theorem Handled.select_gives {args : SelectArgs} {res : SyscallHandlerStatusCode}
    (h : Handled (.select args) s res s') (hres : res ≠ .error) (hf : Fresh s.c s.c.task) :
    (∃ v, Gives [(s.c.task, v)] s.c s'.c ∧ (¬ Requested args s.d.fds → v = 0) ∧
      (v = 0 → args.waits = true → ¬ Requested args s.d.fds)) ∨
    Requested args s.d.fds ∧ taskResults s'.c.log = taskResults s.c.log ∧
      ∀ e ∈ s'.c.events, ∀ τ, e.kind = .selectTimeout τ → e ∈ s.c.events ∨
        τ = s.c.task ∧ ∃ t, args.timeout = some t ∧ (e.time : ℤ) = s.c.now + t.toNs := by
  cases h with
  | error => exact absurd rfl hres
  | answered hplain => cases hplain
  | nlSend hnl => cases hnl
  | nlOther hnl => cases hnl
  | passed hplain => cases hplain
  | unadvanced hun => cases hun
  | recvNow hrecv => cases hrecv
  | recvWait hrecv => cases hrecv
  | @selectNow args' rs rn w _ _ hcall hready hnone _ hc =>
      cases hcall
      refine .inl ⟨_, Gives.of_completes hc, fun hreq => ?_, fun hv hwaits => ?_⟩
      · obtain ⟨rfl, rfl, rfl⟩ := hready.empty_of_not_requested hreq
        rfl
      rw [Int.natCast_eq_zero, Nat.add_eq_zero_iff, Nat.add_eq_zero_iff, Finset.card_eq_zero,
        Finset.card_eq_zero, Finset.card_eq_zero] at hv
      obtain ⟨⟨hrs, hrn⟩, hw⟩ := hv
      exact hnone hrs hrn hw (mayBlock_of_waits hwaits)
  | @selectWait args' c₁ c' hcall _ harms hw ht =>
      cases hcall
      have hreq := Requested.of_waits harms hw hf
      have hlog : c₁.log = s.c.log := by rw [harms.frame]
      have hevents : c₁.events = s.c.events := by rw [harms.frame]
      have hnow : c₁.now = s.c.now := by rw [harms.frame]
      cases ht with
      | none => exact .inr ⟨hreq, congrArg taskResults hlog, fun e he _ _ => .inl (hevents ▸ he)⟩
      | @timer t htime hpos =>
          refine .inr ⟨hreq, congrArg taskResults hlog, fun e he τ hk => ?_⟩
          rcases List.mem_append.mp he with he | he
          · exact .inl (hevents ▸ he)
          · rw [List.mem_singleton] at he
            subst he
            cases hk
            refine .inr ⟨rfl, t, htime, ?_⟩
            rw [hnow]
            push_cast
            rw [Int.toNat_of_nonneg hpos]
  | _ => contradiction

/-! ### Steps -/

/-- From `c` to `c'` the timers stay right and every result 0 is on time. -/
structure Timely (c c' : Ctl) : Prop where
  timed : Timed c'
  results : ∃ vs, taskResults c'.log = vs ++ taskResults c.log ∧ ∀ τ, (τ, 0) ∈ vs → OnTime c' τ

theorem Timely.of_gives {vs : List (Task × ℤ)} (ht : Timed c) (h : Gives vs c c')
    (ha : c'.acts = c.acts) (hon : ∀ τ, (τ, 0) ∈ vs → OnTime c' τ) : Timely c c' :=
  ⟨ht.gives h ha, vs, h.results, hon⟩

/-- A step that dispatches nothing. -/
theorem step_timely (hk : Known s.c) (ht : Timed s.c) (hd : dispatched s l = none)
    (h : step s l = some s') : Timely s.c s'.c := by
  obtain ⟨-, -, h⟩ := step_cases h
  generalize hl : l.what = what at h
  have hmove : Gives [] s.c (s.moveTo l).c := .of_fields rfl rfl
  -- a result of 1
  have one : ∀ {τ c'}, Gives [(τ, 1)] s.c c' → c'.acts = s.c.acts → Timely s.c c' :=
    fun hg ha => .of_gives ht hg ha (by simp)
  -- the call of the task is no `select`
  have named : ∀ {τ v w c'}, Gives [(τ, v)] s.c c' → c'.acts = s.c.acts → Armed s.c w τ →
      w ≠ .select → Timely s.c c' := by
    intro τ v w c' hg ha harm hw
    refine .of_gives ht hg ha fun τ' hmem => ?_
    simp only [List.mem_singleton, Prod.mk.injEq] at hmem
    obtain ⟨rfl, -⟩ := hmem
    exact .of_names (hk.armed harm) hw ha
  have idle : ∀ {c'}, Gives [] s.c c' → c'.acts = s.c.acts → Timely s.c c' :=
    fun hg ha => .of_gives ht hg ha (by simp)
  cases h with
  | @fired i e _ he htime hf =>
      obtain ⟨t, kind⟩ := e
      have hremove := hmove.trans (Gives.removeEvent i _)
      cases hf with
      | gone => exact idle ⟨hremove.results, hremove.timers⟩ rfl
      | dispatched hc hth hh hp =>
          have hsome := dispatched_eq (s := s) (resumes_eq hl he rfl) (hc.catches hth)
          rw [hd] at hsome
          cases hsome
      | timeoutStale => exact idle hremove rfl
      | @timeout τ c' _ hc =>
          have hset : Gives [] ((s.moveTo l).c.removeEvent i)
              (((s.moveTo l).c.removeEvent i).setHandled τ.act) := .of_fields rfl rfl
          have hfin := (hremove.trans hset).trans (Gives.of_finish hc)
          have hcalm := Calm.of_finish hc
          refine .of_gives ht hfin hcalm.acts fun τ' hmem => ?_
          simp only [List.append_nil, List.mem_singleton, Prod.mk.injEq, and_true] at hmem
          subst hmem
          intro a args ha hcall
          obtain ⟨a', args', t', ha', hcall', ht', hsum⟩ :=
            ht _ (List.mem_of_getElem? he) _ rfl
          rw [hcalm.acts] at ha
          cases ha'.symm.trans ha
          cases hcall'.symm.trans hcall
          refine ⟨t', ht', ?_⟩
          rw [hcalm.now, ← hsum, htime]
          exact le_rfl
      | slept hc =>
          have hfin := hremove.trans (Gives.of_finish hc)
          exact named hfin (Calm.of_finish hc).acts (.sleep (pend_ne_zero he) rfl) nofun
      | removed => exact idle hremove rfl
  | receivedIdle => exact idle hmove rfl
  | receivedRead hcb hown _ hc =>
      obtain ⟨vs, hvs, htask⟩ := Gives.of_reads hc
      have hg := hmove.trans hvs
      refine .of_gives ht ⟨hg.results, hg.timers⟩ (Calm.of_reads hc).acts fun τ hmem => ?_
      rw [List.append_nil] at hmem
      obtain rfl := htask _ hmem
      exact .of_names (hk.armed (.recv hcb (RecvCallback.arms_of_owner hown))) nofun
        (Calm.of_reads hc).acts
  | receivedSelect _ _ _ hc =>
      have hg := hmove.trans ((Gives.claim _ _).trans (Gives.of_finish hc))
      exact one ⟨hg.results, hg.timers⟩ (Calm.of_finish hc).acts
  | sendableIdle => exact idle hmove rfl
  | sendableSelect _ _ _ hc =>
      have hg := hmove.trans ((Gives.claim _ _).trans (Gives.of_finish hc))
      exact one ⟨hg.results, hg.timers⟩ (Calm.of_finish hc).acts
  | incomingLost => exact idle hmove rfl
  | incomingStored => exact idle hmove rfl
  | @incomingSelect _ sock' _ _ _ cl _ _ _ _ _ _ _ hc =>
      have hclaim := hmove.trans (Gives.claim cl _)
      have hg := Gives.of_finish hc
      exact one ⟨hg.results.trans (congrArg _ hclaim.results),
        fun e he τ hτ => hclaim.timers e (hg.timers e he τ hτ) τ hτ⟩ (Calm.of_finish hc).acts
  | incomingAccept _ hcb _ _ hc =>
      have hf : Finish _ s.c.pid _ (s.moveTo l).c _ := ⟨_, hc, rfl⟩
      exact named (hmove.trans (Gives.of_finish hf)) (Calm.of_finish hf).acts
        (.accept hcb rfl) nofun
  | connectIdle => exact idle ⟨hmove.results, hmove.timers⟩ rfl
  | connected _ hcb hc =>
      have hg := Gives.of_finish hc
      exact named ⟨hg.results, hg.timers⟩ (Calm.of_finish hc).acts (.connect hcb rfl rfl) nofun
  | refused _ hcb hc =>
      have hg := Gives.of_finish hc
      exact named ⟨hg.results, hg.timers⟩ (Calm.of_finish hc).acts (.connect hcb rfl rfl) nofun

theorem Processed.gives {p : Pid} {res : SyscallHandlerStatusCode} (h : Processed p s res s') :
    Gives [] s.c s'.c := by
  cases h with
  | resumed => exact Gives.resched p s.c
  | waits => exact Gives.refl _
  | quits => exact Gives.refl _

/-- At the time of the call, a `select` is on time exactly if it need not wait. -/
theorem onTime_iff {a : Activation} {args : SelectArgs} (ha : c.acts τ.act = some a)
    (hcall : a.call = .select args) (hnow : c.now = a.start) :
    OnTime c τ ↔ args.waits = false := by
  have hwaits : args.waits = false ↔ ∃ t, args.timeout = some t ∧ t.toNs ≤ 0 := by
    unfold SelectArgs.waits
    cases args.timeout <;> simp
  rw [hwaits]
  constructor
  · intro hon
    obtain ⟨t, ht, hle⟩ := hon a args ha hcall
    exact ⟨t, ht, by omega⟩
  · rintro ⟨t, ht, hle⟩ a' args' ha' hcall'
    cases ha.symm.trans ha'
    cases hcall.symm.trans hcall'
    exact ⟨t, ht, by omega⟩

theorem selectsNothing_select {p : Pid} {args : SelectArgs}
    (hd : dispatched s l = some (p, .select args)) :
    selectsNothing s l = false ↔ (args.waits = true → Requested args s.d.fds) := by
  simp [selectsNothing, hd]

theorem selectsNothing_other {p : Pid} {call : Syscall} (hd : dispatched s l = some (p, call))
    (hcall : call.isSelect = false) : selectsNothing s l = false := by
  unfold selectsNothing
  split
  next _ args heq =>
    rw [hd] at heq
    cases heq
    cases hcall
  next => rfl

/-- A step in which a call is dispatched: the timers stay right, and every result 0 is on time
exactly if the call does not request nothing. -/
theorem Dispatches.times {p : Pid} {call : Syscall} {i t : ℕ} {c₁ : Ctl} {th : Tracee}
    {res : SyscallHandlerStatusCode} {s₂ : St} (hdet : Dispatches s l p call s' i t c₁ th res s₂)
    (hk : Known s.c) (ht : Timed s.c) :
    Timed s'.c ∧ ∃ vs, taskResults s'.c.log = vs ++ taskResults s.c.log ∧
      ((∀ τ, (τ, 0) ∈ vs → OnTime s'.c τ) ↔ selectsNothing s l = false) := by
  obtain ⟨hwhat, hev, hc, hth, rfl, hans, hproc⟩ := hdet
  have hd : dispatched s l = some (p, th.origRax) :=
    dispatched_eq (resumes_eq hwhat hev rfl) (hc.catches hth)
  have hk₁ := hk.caught hev hc
  have hremove : Gives [] s.c (((s.moveTo l).c.removeEvent i).setPid p) :=
    ⟨rfl, fun _ he _ _ => mem_removeEvent he⟩
  have hcaught := hremove.trans (Gives.of_caught hc)
  have ht₁ := (ht.gives hcaught (Calm.of_caught hc).acts).dispatch hk₁ p th
  have hstart := @Known.starting c₁ p th hk₁ (Calm.of_caught hc).pid
  have hne := hproc.ne_error
  obtain ⟨hacts, hnow⟩ := hans.handled.acts hne
  have hacts' := hproc.calm.acts.trans hacts
  have hnow' := hproc.calm.now.trans hnow
  have hact : s'.c.acts (c₁.dispatch p th).task.act =
      some ⟨p, th.origRax, th.phase, th.serial, c₁.now⟩ := by
    rw [hacts']
    exact Function.update_self ..
  have hlog : taskResults (c₁.dispatch p th).log = taskResults s.c.log := hcaught.results
  cases hsel : th.origRax.isSelect with
  | false =>
      obtain ⟨vs, hvs, hown⟩ := hans.handled.gives hne hsel
      have hg := hvs.trans hproc.gives
      refine ⟨ht₁.gives hg hacts', vs, hg.results.trans (congrArg (vs ++ ·) hlog), ?_⟩
      rw [selectsNothing_other hd hsel]
      simp only [iff_true]
      intro τ hmem a args ha hcall
      rcases hown _ hmem with h | h
      · obtain rfl : τ = (c₁.dispatch p th).task := h
        cases hact.symm.trans ha
        have hcall : th.origRax = .select args := hcall
        rw [hcall] at hsel
        cases hsel
      · cases h
  | true =>
      obtain ⟨args, hargs⟩ := Syscall.exists_of_isSelect hsel
      have hon := onTime_iff hact hargs hnow'
      rw [selectsNothing_select (hargs ▸ hd)]
      have hhandled := hans.handled
      rw [hargs] at hhandled
      rcases hhandled.select_gives hne hstart.fresh with
        ⟨v, hvs, hnone, hzero⟩ | ⟨hreq, hsame, htimers⟩
      · have hg := hvs.trans hproc.gives
        refine ⟨ht₁.gives hg hacts', _, hg.results.trans (congrArg ([(_, v)] ++ ·) hlog), ?_⟩
        constructor
        · intro h hwaits
          by_contra hreq
          have hon' := h _ (by rw [hnone hreq]; exact List.mem_singleton_self _)
          rw [hon, hwaits] at hon'
          cases hon'
        · intro h τ hmem
          simp only [List.mem_singleton, Prod.mk.injEq] at hmem
          obtain ⟨rfl, rfl⟩ := hmem
          refine hon.mpr (Bool.eq_false_iff.mpr fun hwaits => hzero rfl hwaits (h hwaits))
      · have hres := hproc.gives
        refine ⟨?_, [], hres.results.trans (hsame.trans hlog), ?_⟩
        · intro e he τ hτ
          rcases htimers e (hres.timers e he τ hτ) τ hτ with he | ⟨rfl, t, htime, hsum⟩
          · obtain ⟨a, args', t, ha, hrest⟩ := ht₁ e he τ hτ
            exact ⟨a, args', t, hacts' ▸ ha, hrest⟩
          · exact ⟨_, args, t, hact, hargs, htime, hsum⟩
        · simp [hreq]

theorem step_selectTimed (hk : Known s.c) (ht : Timed s.c) (h : step s l = some s') :
    Timed s'.c ∧ (SelectTimed s l ↔ selectsNothing s l = false) := by
  obtain ⟨ht', vs, hvs, hiff⟩ : Timed s'.c ∧
      ∃ vs, taskResults s'.c.log = vs ++ taskResults s.c.log ∧
      ((∀ τ, (τ, 0) ∈ vs → OnTime s'.c τ) ↔ selectsNothing s l = false) := by
    cases hd : dispatched s l with
    | none =>
        obtain ⟨ht', vs, hvs, hon⟩ := step_timely hk ht hd h
        exact ⟨ht', vs, hvs, iff_of_true hon (by simp [selectsNothing, hd])⟩
    | some pc =>
        obtain ⟨p, call⟩ := pc
        obtain ⟨i, t, c₁, th, res, s₂, hdet⟩ := step_dispatched h hd
        exact hdet.times hk ht
  refine ⟨ht', ?_⟩
  rw [← hiff]
  constructor
  · intro hs
    exact hs s' h vs hvs
  · intro hon s'' hs'' vs' hvs'
    cases h.symm.trans hs''
    rwa [List.append_cancel_right (hvs'.symm.trans hvs)]

theorem Timed.initial (app : App) (env : Env) : Timed (St.initial app env).c := by
  intro e he τ hk
  simp only [St.initial, List.mem_singleton] at he
  subst he
  cases hk

/-- In a run, the dispatch of a `select` is answered with 0 only on time exactly if no `select` that
should wait requests nothing. -/
theorem run_selectTimed {app : App} {env : Env} {ls : List Label} {s : St}
    (hrun : run (St.initial app env) ls = some s) :
    Runs.Meets step SelectTimed (St.initial app env) ls ↔
      Runs.Meets step (fun s l => selectsNothing s l = false) (St.initial app env) ls :=
  Runs.meets_congr_of (I := fun s => Known s.c ∧ Timed s.c)
    (fun _ _ _ hI h => ⟨hI.1.step h, (step_selectTimed hI.1 hI.2 h).1⟩)
    (fun _ _ _ hI h => (step_selectTimed hI.1 hI.2 h).2)
    ⟨Known.initial app env, Timed.initial app env⟩ hrun

/-- A `select` for a UDP socket without data, with a timeout of one second. -/
def waitingEnv : Env :=
  .script [.entry (.socket AF_INET SOCK_DGRAM 0), .exit 0,
    .entry (.select ⟨101, some {100}, none, none, some ⟨1, 0⟩⟩), .exit 0] []

/-- The timer fires. -/
theorem run_selectTimed_timeout :
    ∃ s, run (St.initial {} waitingEnv)
        [⟨0, .fire 0⟩, ⟨0, .fire 0⟩, ⟨1000000000, .fire 0⟩] = some s ∧
      taskResults s.c.log = [(⟨1, 1⟩, 0), (⟨1, 0⟩, 100)] ∧
      Runs.Meets step SelectTimed (St.initial {} waitingEnv)
        [⟨0, .fire 0⟩, ⟨0, .fire 0⟩, ⟨1000000000, .fire 0⟩] := by
  have hrun : (run (St.initial {} waitingEnv)
      [⟨0, .fire 0⟩, ⟨0, .fire 0⟩, ⟨1000000000, .fire 0⟩]).any
      (fun s => taskResults s.c.log = [(⟨1, 1⟩, 0), (⟨1, 0⟩, 100)]) = true := by
    decide +kernel
  obtain ⟨s, hs, hview⟩ := (Option.any_eq_true _ _).mp hrun
  exact ⟨s, hs, of_decide_eq_true hview, (run_selectTimed hs).mpr (by decide +kernel)⟩

/-- A `select` without descriptors, with a timeout of one second. -/
def sleepEnv : Env :=
  .script [.entry (.select ⟨0, none, none, none, some ⟨1, 0⟩⟩), .exit 0] []

/-- It returns 0 at once. -/
theorem select_sleeps_not :
    ¬ ∀ app env ls s, run (St.initial app env) ls = some s →
      Runs.Meets step SelectTimed (St.initial app env) ls := by
  intro hall
  have hrun : (run (St.initial {} sleepEnv) [⟨0, .fire 0⟩]).any
      (fun s => taskResults s.c.log = [(⟨1, 0⟩, 0)] ∧ s.c.now = 0) = true := by
    decide +kernel
  obtain ⟨s, hs, -⟩ := (Option.any_eq_true _ _).mp hrun
  obtain ⟨hmeets, -⟩ := hall _ _ _ s hs
  obtain ⟨s₁, hs₁, -⟩ := Runs.run_cons.mp hs
  have hnothing := (step_selectTimed (Known.initial _ _) (Timed.initial _ _) hs₁).2.mp hmeets
  exact absurd hnothing (by decide +kernel)

end Grail
