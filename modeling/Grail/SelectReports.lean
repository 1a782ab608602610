import Grail.SelectSets

/-! # The results of `select` and its sets

Every result that a step gives agrees with the sets in the tracee (`Faithful`) unless a timer fires,
which stores nothing, a descriptor that is asked for is not below `nfds`, which no pass checks, or
the number that a callback captured names something else by now.  `run_selectReports` is this for
whole runs. -/

namespace Grail

open Programs SelectArgs

/-- No timer of a waiting `select` fires. -/
def noTimeout (s : St) (l : Label) : Bool :=
  match l.what with
  | .fire i =>
      match s.c.events[i]? with
      | some ⟨_, .selectTimeout task⟩ => s.c.alreadyHandled task.act
      | _ => true
  | _ => true

/-- The callback of a waiting `select` captured a number that names what is ready. -/
def namesReady (s : St) (l : Label) : Bool :=
  match l.what with
  | .received sock rx =>
      match s.c.recvCallback sock with
      | some (.select cl) =>
          s.c.alreadyHandled cl.task.act || (s.d.setRx sock rx).readable cl.fdnr
      | _ => true
  | .sendable sock tx =>
      match s.c.sendCallback sock with
      | some (.select cl) =>
          s.c.alreadyHandled cl.task.act || (s.d.setTx sock tx).writable cl.fdnr
      | _ => true
  | _ => true

/-- A `select` that is dispatched asks for numbers below `nfds` only. -/
def asksBounded (s : St) (l : Label) : Bool :=
  match dispatched s l with
  | some (_, .select args) => args.bounded s.d.fds
  | _ => true

instance (nl : NlId) (s : St) : Decidable (NlReady nl s) :=
  match h : s.c.nlCallback nl with
  | none => .isTrue fun cl hcl => by cases h.symm.trans hcl
  | some cl =>
      decidable_of_iff (s.c.alreadyHandled cl.task.act = false →
          s.d.fds.netlinks.find cl.fdnr = some nl ∧
            ((s.d.nls nl).replyQueue ≠ [] ∨ s.c.app.devices ≠ [])) (by simp [NlReady, h])

/-- A call on a netlink socket finds a reply for the `select` that waits for one. -/
def netlinkReady (s : St) (l : Label) : Bool :=
  match dispatched s l with
  | some (_, call) =>
      match netlinkOf s.d.fds call with
      | some nl => decide (NlReady nl s)
      | none => true
  | none => true

/-- The steps that keep the sets right. -/
abbrev KeepsSets (s : St) (l : Label) : Prop :=
  noTimeout s l = true ∧ namesReady s l = true ∧ asksBounded s l = true ∧ netlinkReady s l = true

/-- If the result is one of a `select`, it agrees with its sets. -/
def AgreesWithSets (s : St) (x : Task × ℤ) : Prop :=
  0 ≤ x.2 → ∀ a args, s.c.acts x.1.act = some a → a.call = .select args →
    ReportsSets args s.d (s.d.selMem x.1.act) x.2

/-- From `s` to `s'` only results are given that agree with the sets. -/
structure Faithful (s s' : St) : Prop where
  watching : Watching s'
  results : ∃ vs, taskResults s'.c.log = vs ++ taskResults s.c.log ∧ ∀ x ∈ vs, AgreesWithSets s' x

section steps

variable {s s' s₁ : St} {l : Label} {c : Ctl} {w : Wait} {τ : Task} {n : ℤ}

theorem Reported.agrees {x : Task × ℤ} (h : Reported s x) : AgreesWithSets s x := by
  obtain ⟨-, a, args, ha, hcall, hrep⟩ := h
  intro _ a' args' ha' hcall'
  cases ha.symm.trans ha'
  cases hcall.symm.trans hcall'
  exact hrep

/-- The call of the task is no `select`. -/
theorem AgreesWithSets.of_names (hn : Names c w τ) (hw : w ≠ .select) (ha : s.c.acts = c.acts) :
    AgreesWithSets s (τ, n) := by
  intro _ a args hact hcall
  obtain ⟨a', hact', -, hwait⟩ := hn
  rw [ha, hact', Option.some.injEq] at hact
  subst hact
  rw [hcall] at hwait
  cases hwait
  exact absurd rfl hw

theorem Watching.dispatch {p : Pid} {th : Tracee} (hw : Watching s) (hk : Known s.c) :
    Watching { s with c := s.c.dispatch p th } := by
  intro τ w hτ
  have hold : Watches s.c τ w := by
    cases hτ with
    | recv h => exact .recv h
    | accept h => exact .accept h
    | nl h => exact .nl h
    | send h => exact .send h
  obtain ⟨a, args, ha, hcall, hasked, hsame⟩ := hw τ w hold
  have hne : τ.act ≠ s.c.nextAct := (hk.acts_lt ha).ne
  exact ⟨a, args, by simpa [Ctl.dispatch, hne] using ha, hcall, hasked, hsame⟩

theorem Faithful.processed {p : Pid} {res : SyscallHandlerStatusCode} (h : Faithful s s₁)
    (hp : Processed p s₁ res s') : Faithful s s' := by
  obtain ⟨vs, hvs, hagree⟩ := h.results
  refine ⟨h.watching.unwatched (.of_rests hp.calm.toRests (congrArg Data.selMem hp.d)), vs,
    hp.gives.results.trans hvs, fun x hx => ?_⟩
  unfold AgreesWithSets
  rw [hp.calm.acts, hp.d]
  exact hagree x hx

/-- The handling of a call. -/
theorem Handled.faithful {call : Syscall} {res : SyscallHandlerStatusCode}
    (h : Handled call s res s') (hres : res ≠ .error)
    (htx : ∀ args, call = .select args → s'.d.txAvailable = s.d.txAvailable)
    (hb : ∀ args, call = .select args → args.bounded s.d.fds = true)
    (hr : ∀ nl, netlinkOf s.d.fds call = some nl → NlReady nl s)
    (hs : Starting call s.c) (hw : Watching s) (hp : s.d.fds.Partition) : Faithful s s' := by
  cases hsel : call.isSelect with
  | true =>
      obtain ⟨args, rfl⟩ := Syscall.exists_of_isSelect hsel
      obtain ⟨hw', vs, hvs, hrep⟩ :=
        h.select_reports hres (htx args rfl) hs hw hp (hb args rfl)
      refine ⟨hw', vs, hvs, fun x hx _ a args' ha hcall => ?_⟩
      obtain ⟨hτ, hreports⟩ := hrep x.1 x.2 hx
      obtain ⟨a', ha', -, hcall'⟩ := hs.act
      have hacts := (h.acts hres).1
      rw [hacts, hτ, ha', Option.some.injEq] at ha
      subst ha
      cases hcall'.symm.trans hcall
      exact hreports
  | false =>
      have hacts := (h.acts hres).1
      have own : ∀ n, AgreesWithSets s' (s.c.task, n) := by
        intro n _ a args ha hcall
        obtain ⟨a', ha', -, hcall'⟩ := hs.act
        rw [hacts, ha', Option.some.injEq] at ha
        subst ha
        rw [← hcall', hcall] at hsel
        cases hsel
      refine ⟨hw.unwatched (h.unwatched hres hsel), ?_⟩
      rcases h.gives_own hres hsel with ⟨vs, hvs, hown⟩ | ⟨nl, v, s₁, hnl, hwork, hc, hd⟩
      · refine ⟨vs, hvs.results, fun x hx => ?_⟩
        obtain ⟨τ, n⟩ := x
        obtain rfl : τ = s.c.task := hown _ hx
        exact own n
      · obtain ⟨-, vs, hvs, hrep⟩ := hwork.reports hw (hr nl hnl)
        have hcalm := Calm.of_completes hc
        have hg := Gives.of_completes hc
        have hresults : taskResults s'.c.log = ((s₁.c.task, v) :: vs) ++ taskResults s.c.log :=
          hg.results.trans (congrArg ([(s₁.c.task, v)] ++ ·) hvs)
        refine ⟨_, hresults, fun x hx => ?_⟩
        rcases List.mem_cons.mp hx with rfl | hx
        · rw [hwork.task]
          exact own v
        · have hkept : Reported s' x := by
            refine (hrep x hx).keep hcalm.acts ?_ (by rw [hd]) (by simp [hd]) (by simp [hd])
            rw [hcalm.alreadyHandled]
            exact (hrep x hx).1
          exact hkept.agrees

/-- A step that dispatches a call. -/
theorem step_faithful_dispatched {p : Pid} {call : Syscall} (hk : Known s.c)
    (hp : s.d.fds.Partition) (hw : Watching s) (hc : KeepsSets s l)
    (hd : dispatched s l = some (p, call)) (h : step s l = some s') : Faithful s s' := by
  obtain ⟨-, -, hbounded, hready⟩ := hc
  obtain ⟨s₁, res, s₂, hh, hrun, hproc⟩ := step_handles h hd
  have hne := hproc.ne_error
  cases hh with
  | @mk i t c₁ th hl hev hcaught hth =>
      have hcalm := Calm.of_caught hcaught
      have hk₁ := hk.caught hev hcaught
      have hstart := @Known.starting c₁ p th hk₁ hcalm.pid
      have hu : Unwatched s ⟨c₁, s.d⟩ := .of_fields hcalm.recvCallback hcalm.sendCallback
        hcalm.acceptCallback hcalm.nlCallback hcalm.alreadyHandled hcalm.acts rfl
      have hw₁ : Watching ⟨c₁.dispatch p th, s.d⟩ := (hw.unwatched hu).dispatch hk₁
      have hlog : taskResults (c₁.dispatch p th).log = taskResults s.c.log :=
        (Gives.of_caught hcaught).results
      have htx : ∀ args, th.origRax = .select args → s₂.d.txAvailable = s.d.txAvailable := by
        intro args hcall
        rw [hcall] at hrun
        simp only [handle, StateT.run_bind, StateT.run_get, pure_bind] at hrun
        exact (handleSelect_txAvailable (s := ⟨c₁.dispatch p th, s.d⟩) args).elim hrun hne
      have hb : ∀ args, th.origRax = .select args → args.bounded s.d.fds = true := by
        intro args hcall
        simpa [asksBounded, hd, hcall] using hbounded
      have hr : ∀ nl, netlinkOf s.d.fds th.origRax = some nl →
          NlReady nl ⟨c₁.dispatch p th, s.d⟩ := by
        intro nl hnl cl hcb hn
        have hready : NlReady nl s := by simpa [netlinkReady, hd, hnl] using hready
        have happ : c₁.app = s.c.app := hcalm.app
        show _ ∧ (_ ∨ c₁.app.devices ≠ [])
        rw [happ]
        exact hready cl (hcalm.nlCallback ▸ hcb) (hcalm.alreadyHandled ▸ hn)
      have hfaith := ((handle_spec _).elim hrun).faithful hne htx hb hr hstart hw₁ hp
      obtain ⟨vs, hvs, hagree⟩ := (hfaith.processed hproc).results
      exact ⟨(hfaith.processed hproc).watching, vs, hvs.trans (congrArg (vs ++ ·) hlog), hagree⟩

theorem Faithful.quiet (hw : Watching s) (hu : Unwatched s s') (hg : Gives [] s.c s'.c) :
    Faithful s s' :=
  ⟨hw.unwatched hu, [], hg.results, by simp⟩

/-- A callback gives the result 1. -/
theorem Faithful.callback (hw : Watching s) (hu : Unwatched s s')
    (hg : taskResults s'.c.log = [(τ, 1)] ++ taskResults s.c.log) (hrep : Reported s' (τ, 1)) :
    Faithful s s' :=
  ⟨hw.unwatched hu, _, hg, fun _ hx => List.mem_singleton.mp hx ▸ hrep.agrees⟩

theorem namesReady_received {sock : SockId} {rx : ℕ} {cl : SelectClosure}
    (h : namesReady s l = true) (hl : l.what = .received sock rx)
    (hcb : s.c.recvCallback sock = some (.select cl))
    (hn : s.c.alreadyHandled cl.task.act = false) :
    (s.d.setRx sock rx).readable cl.fdnr = true := by
  simpa [namesReady, hl, hcb, hn] using h

theorem namesReady_sendable {sock : SockId} {tx : ℕ} {cl : SelectClosure}
    (h : namesReady s l = true) (hl : l.what = .sendable sock tx)
    (hcb : s.c.sendCallback sock = some (.select cl))
    (hn : s.c.alreadyHandled cl.task.act = false) :
    (s.d.setTx sock tx).writable cl.fdnr = true := by
  simpa [namesReady, hl, hcb, hn] using h

/-- A step that dispatches nothing. -/
theorem step_faithful_idle (hk : Known s.c) (hw : Watching s) (hc : KeepsSets s l)
    (hd : dispatched s l = none) (h : step s l = some s') : Faithful s s' := by
  obtain ⟨htimeout, hready, -, -⟩ := hc
  obtain ⟨-, -, h⟩ := step_cases h
  generalize hl : l.what = what at h
  have hmove : Gives [] s.c (s.moveTo l).c := .of_fields rfl rfl
  have hrests : Rests s.c (s.moveTo l).c := Rests.setNow l.time s.c
  have hum : Unwatched s (s.moveTo l) := .of_rests hrests rfl
  have idle : ∀ {c' : Ctl} {d' : Data}, Rests s.c c' → Gives [] s.c c' → d'.selMem = s.d.selMem →
      Faithful s ⟨c', d'⟩ := fun hr hg hm => .quiet hw (.of_rests hr hm) hg
  -- the call of the task is no `select`
  have named : ∀ {τ v w} {s' : St}, Unwatched s s' → Gives [(τ, v)] s.c s'.c →
      s'.c.acts = s.c.acts → Armed s.c w τ → w ≠ .select → Faithful s s' := by
    intro τ v w s' hu hg ha harm hne
    refine ⟨hw.unwatched hu, _, hg.results, fun x hx => ?_⟩
    rw [List.mem_singleton] at hx
    subst hx
    exact .of_names (hk.armed harm) hne ha
  cases h with
  | @fired i e _ he htime hf =>
      obtain ⟨t, kind⟩ := e
      have hremove := hmove.trans (Gives.removeEvent i _)
      have hslots : Unwatched s { s.moveTo l with c := (s.moveTo l).c.removeEvent i } :=
        .of_fields rfl rfl rfl rfl rfl rfl rfl
      cases hf with
      | gone =>
          exact .quiet hw (.of_fields rfl rfl rfl rfl rfl rfl rfl)
            ⟨hremove.results, hremove.timers⟩
      | dispatched hc hth hh hp =>
          have hsome := dispatched_eq (s := s) (resumes_eq hl he rfl) (hc.catches hth)
          rw [hd] at hsome
          cases hsome
      | timeoutStale => exact .quiet hw hslots hremove
      | timeout hn =>
          have he : s.c.events[i]? = some ⟨t, .selectTimeout _⟩ := he
          have hhandled := htimeout
          simp only [noTimeout, hl, he] at hhandled
          cases hhandled.symm.trans hn
      | slept hc =>
          have hfin := hremove.trans (Gives.of_finish hc)
          refine named (hslots.trans (.of_rests (Calm.of_finish hc).toRests rfl)) hfin
            (Calm.of_finish hc).acts (.sleep (pend_ne_zero he) rfl) nofun
      | removed hq => exact .quiet hw (.of_fields rfl rfl rfl rfl rfl rfl hq.selMem) hremove
  | receivedIdle => exact idle hrests hmove rfl
  | @receivedRead sock rx rx' cb τ d' c' hcb hown hq hc =>
      obtain ⟨vs, hvs, htask⟩ := Gives.of_reads hc
      have hcalm := Calm.of_reads hc
      have hu : Unwatched s ⟨c', d'⟩ := .of_rests (hrests.trans hcalm.toRests) hq.selMem
      refine ⟨hw.unwatched (hu.trans (.setRecv nofun)), vs, ?_, fun x hx => ?_⟩
      · have hg := hmove.trans hvs
        exact hg.results.trans (by rw [List.append_nil])
      · obtain ⟨τ', n⟩ := x
        obtain rfl : τ' = τ := htask _ hx
        exact .of_names (hk.armed (.recv hcb (RecvCallback.arms_of_owner hown))) nofun hcalm.acts
  | @receivedSelect sock rx cl c' hrx hcb hn hc =>
      have hg := hmove.trans ((Gives.claim cl _).trans (Gives.of_finish hc))
      have hcalm := Calm.of_finish hc
      have hclaim : Unwatched (s.moveTo l) ⟨(s.moveTo l).c.claim cl,
        (s.d.setRx sock rx).storeSel cl {cl.fdnr} ∅⟩ := .claim rfl
      have hfinish : Unwatched (s.moveTo l) ⟨c', (s.d.setRx sock rx).storeSel cl {cl.fdnr} ∅⟩ :=
        hclaim.trans (.of_rests hcalm.toRests rfl)
      refine .callback hw ((hum.trans hfinish).trans (.setRecv nofun)) hg.results ?_
      refine hw.reported_read (.recv hcb) hn hcalm.acts ?_ (Data.selMem_setSel ..)
        (namesReady_received hready hl hcb hn)
      exact (congrFun hcalm.alreadyHandled _).trans (handled_claim cl _)
  | sendableIdle => exact idle hrests hmove rfl
  | @sendableSelect sock tx cl c' htx hcb hn hc =>
      have hg := hmove.trans ((Gives.claim cl _).trans (Gives.of_finish hc))
      have hcalm := Calm.of_finish hc
      have hclaim : Unwatched (s.moveTo l) ⟨(s.moveTo l).c.claim cl,
        (s.d.setTx sock tx).storeSel cl ∅ {cl.fdnr}⟩ := .claim rfl
      have hfinish : Unwatched (s.moveTo l) ⟨c', (s.d.setTx sock tx).storeSel cl ∅ {cl.fdnr}⟩ :=
        hclaim.trans (.of_rests hcalm.toRests rfl)
      refine .callback hw ((hum.trans hfinish).trans (.setSend nofun)) hg.results ?_
      refine hw.reported_write (.send hcb) hn hcalm.acts ?_ (Data.selMem_setSel ..)
        (namesReady_sendable hready hl hcb hn)
      exact (congrFun hcalm.alreadyHandled _).trans (handled_claim cl _)
  | incomingLost _ _ hq => exact idle hrests hmove hq.selMem
  | incomingStored _ _ hq => exact idle hrests hmove hq.selMem
  | @incomingSelect sock sock' addr rx tx cl d' c' hlisten hcb hn hname hq hc =>
      have hclaimed := hmove.trans (Gives.claim cl _)
      have hg := Gives.of_finish hc
      have hcalm := Calm.of_finish hc
      have hclaim : Unwatched (s.moveTo l) ⟨(s.moveTo l).c.claim cl, s.d.storeSel cl {cl.fdnr} ∅⟩ :=
        .claim rfl
      have hset := hclaim.trans ((@Unwatched.setAccept _ sock' none nofun))
      have hfinish : Unwatched (s.moveTo l) ⟨c', d'⟩ :=
        hset.trans (.of_rests hcalm.toRests hq.selMem)
      refine .callback hw (hum.trans hfinish) (hg.results.trans (congrArg _ hclaimed.results)) ?_
      refine hw.reported_read (.accept hcb) hn hcalm.acts ?_ ?_ ?_
      · exact (congrFun hcalm.alreadyHandled _).trans (handled_claim cl _)
      · exact (congrFun hq.selMem _).trans (Data.selMem_setSel ..)
      · have hname' : d'.fds.sockets.find cl.fdnr = some sock' := by
          rw [hq.fds]
          exact hname
        refine readable_socket hname' (.inr ?_)
        rw [hq.fds]
        exact Option.isSome_iff_exists.mpr ⟨_, StdMap.find_assign_self _ _ _⟩
  | incomingAccept _ hcb _ hq hc =>
      have hf : Finish _ s.c.pid _ (s.moveTo l).c _ := ⟨_, hc, rfl⟩
      have hcalm := Calm.of_finish hf
      refine named (.of_rests (hrests.trans hcalm.toRests) ?_) (hmove.trans (Gives.of_finish hf))
        hcalm.acts (.accept hcb rfl) nofun
      exact (St.returning_selMem _ _ _).trans hq.selMem
  | connectIdle =>
      exact .quiet hw (.of_fields rfl rfl rfl rfl rfl rfl rfl) ⟨hmove.results, hmove.timers⟩
  | connected _ hcb hc =>
      have hg := Gives.of_finish hc
      have hcalm := Calm.of_finish hc
      exact named (.of_fields hcalm.recvCallback hcalm.sendCallback hcalm.acceptCallback
        hcalm.nlCallback hcalm.alreadyHandled hcalm.acts rfl) ⟨hg.results, hg.timers⟩ hcalm.acts
        (.connect hcb rfl rfl) nofun
  | refused _ hcb hc =>
      have hg := Gives.of_finish hc
      have hcalm := Calm.of_finish hc
      exact named (.of_fields hcalm.recvCallback hcalm.sendCallback hcalm.acceptCallback
        hcalm.nlCallback hcalm.alreadyHandled hcalm.acts rfl) ⟨hg.results, hg.timers⟩ hcalm.acts
        (.connect hcb rfl rfl) nofun

theorem step_faithful (hk : Known s.c) (hp : s.d.fds.Partition) (hw : Watching s)
    (hc : KeepsSets s l) (h : step s l = some s') : Faithful s s' := by
  cases hd : dispatched s l with
  | none => exact step_faithful_idle hk hw hc hd h
  | some pc =>
      obtain ⟨p, call⟩ := pc
      exact step_faithful_dispatched hk hp hw hc hd h

theorem Faithful.selectReports (hf : Faithful s s') (h : step s l = some s') :
    SelectReports s l := by
  intro s'' hs'' vs hvs τ n hmem hn a args ha hcall
  cases h.symm.trans hs''
  obtain ⟨vs', hvs', hagree⟩ := hf.results
  obtain rfl : vs = vs' := List.append_cancel_right (hvs.symm.trans hvs')
  exact hagree (τ, n) hmem hn a args ha hcall

/-- Nothing is installed at the start. -/
theorem Watching.initial (app : App) (env : Env) : Watching (St.initial app env) := by
  intro τ w hτ
  cases hτ <;> rename_i hcb <;> cases hcb

end steps

/-- In a run whose steps meet the condition, every result that is given on behalf of a `select`
agrees with its sets. -/
theorem run_selectReports {app : App} {env : Env} {ls : List Label} {s : St}
    (hrun : run (St.initial app env) ls = some s)
    (hkeeps : Runs.Meets step KeepsSets (St.initial app env) ls) :
    Runs.Meets step SelectReports (St.initial app env) ls := by
  refine Runs.meets_of_invariant (I := fun s => Known s.c ∧ s.d.fds.Partition ∧ Watching s) ?_
    ⟨Known.initial app env, Fds.Partition.initial, Watching.initial app env⟩ hrun hkeeps
  rintro s l s' ⟨hk, hp, hw⟩ hc h
  have hf := step_faithful hk hp hw hc h
  exact ⟨⟨hk.step h, (table_step h).partition hp, hf.watching⟩, hf.selectReports h⟩

/-- A `select` for a UDP socket without data, without a timeout. -/
def readingEnv : Env :=
  .script [.entry (.socket AF_INET SOCK_DGRAM 0), .exit 0,
    .entry (.select ⟨101, some {100}, none, none, none⟩), .exit 0] []

/-- Data arrive. -/
theorem run_selectReports_received :
    ∃ s, run (St.initial {} readingEnv) [⟨0, .fire 0⟩, ⟨0, .fire 0⟩, ⟨7, .received 0 5⟩] = some s ∧
      taskResults s.c.log = [(⟨1, 1⟩, 1), (⟨1, 0⟩, 100)] ∧
      s.d.selMem 1 = ⟨some {100}, none, none⟩ ∧
      Runs.Meets step SelectReports (St.initial {} readingEnv)
        [⟨0, .fire 0⟩, ⟨0, .fire 0⟩, ⟨7, .received 0 5⟩] := by
  have hrun : (run (St.initial {} readingEnv)
      [⟨0, .fire 0⟩, ⟨0, .fire 0⟩, ⟨7, .received 0 5⟩]).any
      (fun s => taskResults s.c.log = [(⟨1, 1⟩, 1), (⟨1, 0⟩, 100)] ∧
        s.d.selMem 1 = ⟨some {100}, none, none⟩) = true := by
    decide +kernel
  obtain ⟨s, hs, hview⟩ := (Option.any_eq_true _ _).mp hrun
  obtain ⟨hresults, hmem⟩ := of_decide_eq_true hview
  exact ⟨s, hs, hresults, hmem, run_selectReports hs (by decide +kernel)⟩

/-- The timer of a `select` fires: it returns 0, and the set still has a member. -/
theorem timeout_keeps_sets :
    ¬ ∀ app env ls s, run (St.initial app env) ls = some s →
      Runs.Meets step SelectReports (St.initial app env) ls := by
  intro hall
  have hrun : (run (St.initial {} waitingEnv)
      [⟨0, .fire 0⟩, ⟨0, .fire 0⟩, ⟨1000000000, .fire 0⟩]).any
      (fun s => taskResults s.c.log = [(⟨1, 1⟩, 0), (⟨1, 0⟩, 100)] ∧
        s.d.selMem 1 = ⟨some {100}, none, none⟩ ∧
        (s.c.acts 1).map (·.call) =
          some (.select ⟨101, some {100}, none, none, some ⟨1, 0⟩⟩)) = true := by
    decide +kernel
  have hbefore : (run (St.initial {} waitingEnv) [⟨0, .fire 0⟩, ⟨0, .fire 0⟩]).all
      (fun s => taskResults s.c.log = [(⟨1, 0⟩, 100)]) = true := by
    decide +kernel
  obtain ⟨s, hs, hview⟩ := (Option.any_eq_true _ _).mp hrun
  obtain ⟨hresults, hmem, hact⟩ := of_decide_eq_true hview
  have hmeets := hall _ _ _ s hs
  obtain ⟨s₁, hs₁, hs⟩ := Runs.run_cons.mp hs
  obtain ⟨s₂, hs₂, hs⟩ := Runs.run_cons.mp hs
  obtain ⟨s₃, hs₃, hs⟩ := Runs.run_cons.mp hs
  obtain rfl : s₃ = s := Option.some.inj hs
  have hold : taskResults s₂.c.log = [(⟨1, 0⟩, 100)] := by
    have hs₂ : run (St.initial {} waitingEnv) [⟨0, .fire 0⟩, ⟨0, .fire 0⟩] = some s₂ :=
      Runs.run_cons.mpr ⟨s₁, hs₁, Runs.run_cons.mpr ⟨s₂, hs₂, rfl⟩⟩
    simpa [hs₂] using hbefore
  obtain ⟨a, ha, hcall⟩ := Option.map_eq_some_iff.mp hact
  obtain ⟨-, hmeets⟩ := (Runs.meets_cons hs₁).mp hmeets
  obtain ⟨-, hmeets⟩ := (Runs.meets_cons hs₂).mp hmeets
  have hreports := hmeets.1 s₃ hs₃ [(⟨1, 1⟩, 0)] (by rw [hresults, hold]; rfl) ⟨1, 1⟩ 0
    (List.mem_singleton_self _) le_rfl a _ ha hcall
  have hcount := hreports.count
  rw [hmem] at hcount
  exact absurd hcount (by decide)

end Grail
