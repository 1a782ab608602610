import Grail.Marks

/-! # Tasks

A closure carries the task that armed it: the thread and the number of the dispatch.  `Armed c w τ`
says that a callback or a timer of `τ` is installed, `w` being the kind of call it completes.
`Known`: the dispatch that a task names has happened, by the task's thread and for a call of that
kind, and apart from `select` a task is armed in one place only.  This holds after every run
(`known_of_run`). -/

namespace Grail

/-- The kinds of calls that wait for a callback or a timer. -/
inductive Wait where
  | recv
  | select
  | accept
  | connect
  | sleep
deriving DecidableEq, Repr

def Syscall.wait : Syscall → Option Wait
  | .read _ _ _ => some .recv
  | .recvfrom _ _ _ _ _ => some .recv
  | .select _ => some .select
  | .accept _ _ => some .accept
  | .connect _ _ => some .connect
  | .nanosleep _ => some .sleep
  | _ => none

theorem Syscall.wait_recv {call : Syscall} {fd : Fd} (h : call.recvFd = some fd) :
    call.wait = some .recv := by
  cases call <;> simp_all [recvFd, wait]

def RecvCallback.arms : RecvCallback → Wait × Task
  | .read task _ _ => (.recv, task)
  | .recvfrom task _ _ _ _ => (.recv, task)
  | .select cl => (.select, cl.task)

theorem RecvCallback.arms_of_owner {cb : RecvCallback} {τ : Task} (h : cb.owner = some τ) :
    cb.arms = (.recv, τ) := by
  cases cb <;> simp_all [owner, arms]

/-- The callback of a blocked `write` completes nothing. -/
def SendCallback.arms : SendCallback → Option (Wait × Task)
  | .write _ => none
  | .select cl => some (.select, cl.task)

def AcceptCallback.arms : AcceptCallback → Option (Wait × Task)
  | .fakeAccept _ => none
  | .select cl => some (.select, cl.task)
  | .accept task _ _ => some (.accept, task)

/-- A callback or timer of `τ` is installed, which completes a call of the kind `w`. -/
inductive Armed (c : Ctl) (w : Wait) (τ : Task) : Prop
  | recv {sock cb} : c.recvCallback sock = some cb → cb.arms = (w, τ) → Armed c w τ
  | send {sock cb} : c.sendCallback sock = some cb → cb.arms = some (w, τ) → Armed c w τ
  | accept {sock cb} : c.acceptCallback sock = some cb → cb.arms = some (w, τ) → Armed c w τ
  | connect {sock cl} : c.connectCallback sock = some cl → w = .connect → cl.task = τ → Armed c w τ
  | nl {nl cl} : c.nlCallback nl = some cl → w = .select → cl.task = τ → Armed c w τ
  | sleep : pend c (.nanosleep τ) ≠ 0 → w = .sleep → Armed c w τ
  | timer : pend c (.selectTimeout τ) ≠ 0 → w = .select → Armed c w τ

/-- The dispatch of `τ` is known, and handles a call of the kind `w`. -/
def Names (c : Ctl) (w : Wait) (τ : Task) : Prop :=
  ∃ a, c.acts τ.act = some a ∧ a.pid = τ.thread ∧ a.call.wait = some w

structure Known (c : Ctl) : Prop where
  acts_lt {k a} : c.acts k = some a → k < c.nextAct
  armed {w τ} : Armed c w τ → Names c w τ
  handled_lt {k} : c.alreadyHandled k = true → k < c.nextAct
  inCall {p k} : c.inCall p = some k → ∃ a, c.acts k = some a ∧ a.pid = p
  recv_once {sock sock' cb cb' τ} : c.recvCallback sock = some cb → cb.arms = (.recv, τ) →
    c.recvCallback sock' = some cb' → cb'.arms = (.recv, τ) → sock = sock'
  connect_once {sock sock' cl cl'} : c.connectCallback sock = some cl →
    c.connectCallback sock' = some cl' → cl.task = cl'.task → sock = sock'
  sleep_once {τ} : pend c (.nanosleep τ) ≤ 1

/-- Nothing is installed for `τ`. -/
def Fresh (c : Ctl) (τ : Task) : Prop := ∀ w, ¬ Armed c w τ

/-! ### Changes of the slots -/

section slots

variable {c c' : Ctl} {w : Wait} {τ : Task} {sock : SockId}

theorem Armed.of_rests (h : Rests c c') (ha : Armed c' w τ) : Armed c w τ := by
  cases ha with
  | recv hs hw => exact .recv (h.recvCallback ▸ hs) hw
  | send hs hw => exact .send (h.sendCallback ▸ hs) hw
  | accept hs hw => exact .accept (h.acceptCallback ▸ hs) hw
  | connect hs hw ht => exact .connect (h.connectCallback ▸ hs) hw ht
  | nl hs hw ht => exact .nl (h.nlCallback ▸ hs) hw ht
  | sleep hp hw => exact .sleep (h.timers (.nanosleep τ) rfl ▸ hp) hw
  | timer hp hw => exact .timer (h.timers (.selectTimeout τ) rfl ▸ hp) hw

theorem Armed.of_setRecv {cb : Option RecvCallback}
    (ha : Armed (c.setRecvCallback sock cb) w τ) :
    Armed c w τ ∨ ∃ cb', cb = some cb' ∧ cb'.arms = (w, τ) := by
  cases ha with
  | @recv sock' cb' hs hw =>
      by_cases hk : sock' = sock
      · subst hk
        exact Or.inr ⟨cb', by simpa [Ctl.setRecvCallback] using hs, hw⟩
      · exact Or.inl (.recv (by simpa [Ctl.setRecvCallback, hk] using hs) hw)
  | send hs hw => exact Or.inl (.send hs hw)
  | accept hs hw => exact Or.inl (.accept hs hw)
  | connect hs hw ht => exact Or.inl (.connect hs hw ht)
  | nl hs hw ht => exact Or.inl (.nl hs hw ht)
  | sleep hp hw => exact Or.inl (.sleep hp hw)
  | timer hp hw => exact Or.inl (.timer hp hw)

theorem Armed.of_setSend {cb : Option SendCallback}
    (ha : Armed (c.setSendCallback sock cb) w τ) :
    Armed c w τ ∨ ∃ cb', cb = some cb' ∧ cb'.arms = some (w, τ) := by
  cases ha with
  | recv hs hw => exact Or.inl (.recv hs hw)
  | @send sock' cb' hs hw =>
      by_cases hk : sock' = sock
      · subst hk
        exact Or.inr ⟨cb', by simpa [Ctl.setSendCallback] using hs, hw⟩
      · exact Or.inl (.send (by simpa [Ctl.setSendCallback, hk] using hs) hw)
  | accept hs hw => exact Or.inl (.accept hs hw)
  | connect hs hw ht => exact Or.inl (.connect hs hw ht)
  | nl hs hw ht => exact Or.inl (.nl hs hw ht)
  | sleep hp hw => exact Or.inl (.sleep hp hw)
  | timer hp hw => exact Or.inl (.timer hp hw)

theorem Armed.of_setAccept {cb : Option AcceptCallback}
    (ha : Armed (c.setAcceptCallback sock cb) w τ) :
    Armed c w τ ∨ ∃ cb', cb = some cb' ∧ cb'.arms = some (w, τ) := by
  cases ha with
  | recv hs hw => exact Or.inl (.recv hs hw)
  | send hs hw => exact Or.inl (.send hs hw)
  | @accept sock' cb' hs hw =>
      by_cases hk : sock' = sock
      · subst hk
        exact Or.inr ⟨cb', by simpa [Ctl.setAcceptCallback] using hs, hw⟩
      · exact Or.inl (.accept (by simpa [Ctl.setAcceptCallback, hk] using hs) hw)
  | connect hs hw ht => exact Or.inl (.connect hs hw ht)
  | nl hs hw ht => exact Or.inl (.nl hs hw ht)
  | sleep hp hw => exact Or.inl (.sleep hp hw)
  | timer hp hw => exact Or.inl (.timer hp hw)

theorem Armed.of_setConnect {cl : ConnectCallback}
    (ha : Armed (c.setConnectCallback sock (some cl)) w τ) :
    Armed c w τ ∨ w = .connect ∧ cl.task = τ := by
  cases ha with
  | recv hs hw => exact Or.inl (.recv hs hw)
  | send hs hw => exact Or.inl (.send hs hw)
  | accept hs hw => exact Or.inl (.accept hs hw)
  | @connect sock' cl' hs hw ht =>
      by_cases hk : sock' = sock
      · subst hk
        have hcl : cl = cl' := by simpa [Ctl.setConnectCallback] using hs
        exact Or.inr ⟨hw, hcl ▸ ht⟩
      · exact Or.inl (.connect (by simpa [Ctl.setConnectCallback, hk] using hs) hw ht)
  | nl hs hw ht => exact Or.inl (.nl hs hw ht)
  | sleep hp hw => exact Or.inl (.sleep hp hw)
  | timer hp hw => exact Or.inl (.timer hp hw)

theorem Armed.of_setNl {nl : NlId} (ha : Armed (c.setNlCallback nl none) w τ) : Armed c w τ := by
  cases ha with
  | recv hs hw => exact .recv hs hw
  | send hs hw => exact .send hs hw
  | accept hs hw => exact .accept hs hw
  | connect hs hw ht => exact .connect hs hw ht
  | @nl nl' cl hs hw ht =>
      by_cases hk : nl' = nl
      · subst hk
        simp [Ctl.setNlCallback] at hs
      · exact .nl (by simpa [Ctl.setNlCallback, hk] using hs) hw ht
  | sleep hp hw => exact .sleep hp hw
  | timer hp hw => exact .timer hp hw

/-- Flags do not matter, and fewer events are left. -/
theorem Armed.of_events (ha : Armed c' w τ) (hr : c'.recvCallback = c.recvCallback)
    (hs : c'.sendCallback = c.sendCallback) (hac : c'.acceptCallback = c.acceptCallback)
    (hcc : c'.connectCallback = c.connectCallback) (hn : c'.nlCallback = c.nlCallback)
    (hp : ∀ kind, pend c' kind ≤ pend c kind) : Armed c w τ := by
  cases ha with
  | recv h hw => exact .recv (hr ▸ h) hw
  | send h hw => exact .send (hs ▸ h) hw
  | accept h hw => exact .accept (hac ▸ h) hw
  | connect h hw ht => exact .connect (hcc ▸ h) hw ht
  | nl h hw ht => exact .nl (hn ▸ h) hw ht
  | sleep h hw => exact .sleep (fun h0 => h (Nat.le_zero.mp (h0 ▸ hp _))) hw
  | timer h hw => exact .timer (fun h0 => h (Nat.le_zero.mp (h0 ▸ hp _))) hw

/-- The timer that an event is. -/
def EventKind.arms : EventKind → Option (Wait × Task)
  | .nanosleep task => some (.sleep, task)
  | .selectTimeout task => some (.select, task)
  | _ => none

theorem Armed.of_schedule {kind : EventKind} {delay : ℕ} (ha : Armed (c.schedule delay kind) w τ) :
    Armed c w τ ∨ kind.arms = some (w, τ) := by
  cases ha with
  | recv h hw => exact .inl (.recv h hw)
  | send h hw => exact .inl (.send h hw)
  | accept h hw => exact .inl (.accept h hw)
  | connect h hw ht => exact .inl (.connect h hw ht)
  | nl h hw ht => exact .inl (.nl h hw ht)
  | sleep hp hw =>
      rw [pend_schedule] at hp
      by_cases hsame : kind = .nanosleep τ
      · subst hsame hw
        exact .inr rfl
      · rw [if_neg hsame, Nat.add_zero] at hp
        exact .inl (.sleep hp hw)
  | timer hp hw =>
      rw [pend_schedule] at hp
      by_cases hsame : kind = .selectTimeout τ
      · subst hsame hw
        exact .inr rfl
      · rw [if_neg hsame, Nat.add_zero] at hp
        exact .inl (.timer hp hw)

/-- The callbacks that a `select` installs are its own. -/
theorem SelectArms.armed {args : SelectArgs} {d : Data} {σ : Task} (h : SelectArms args d τ c c')
    (ha : Armed c' w σ) : Armed c w σ ∨ w = .select ∧ σ = τ := by
  have hframe := h.frame
  cases ha with
  | @recv sock cb hs hw =>
      rcases h.recv sock with he | ⟨fd, -, -, -, -, he⟩
      · exact .inl (.recv (he ▸ hs) hw)
      · cases he.symm.trans hs
        obtain ⟨hw, hσ⟩ := Prod.mk.inj hw
        exact .inr ⟨hw.symm, hσ.symm⟩
  | @send sock cb hs hw =>
      rcases h.send sock with he | ⟨fd, -, -, -, he⟩
      · exact .inl (.send (he ▸ hs) hw)
      · cases he.symm.trans hs
        obtain ⟨hw, hσ⟩ := Prod.mk.inj (Option.some.inj hw)
        exact .inr ⟨hw.symm, hσ.symm⟩
  | @accept sock cb hs hw =>
      rcases h.accept sock with he | ⟨fd, -, -, -, -, he⟩
      · exact .inl (.accept (he ▸ hs) hw)
      · cases he.symm.trans hs
        obtain ⟨hw, hσ⟩ := Prod.mk.inj (Option.some.inj hw)
        exact .inr ⟨hw.symm, hσ.symm⟩
  | connect hs hw ht =>
      rw [hframe] at hs
      exact .inl (.connect hs hw ht)
  | @nl nl cl hs hw ht =>
      rcases h.nl nl with he | ⟨fd, -, -, he⟩
      · exact .inl (.nl (he ▸ hs) hw ht)
      · cases he.symm.trans hs
        exact .inr ⟨hw, ht.symm⟩
  | sleep hp hw =>
      rw [hframe] at hp
      exact .inl (.sleep hp hw)
  | timer hp hw =>
      rw [hframe] at hp
      exact .inl (.timer hp hw)

/-- So is its timer. -/
theorem SelectArms.armed_timer {args : SelectArgs} {d : Data} {σ : Task} {c₁ : Ctl}
    (h : SelectArms args d τ c c₁) (ht : SelectTimer args τ c₁ c') (ha : Armed c' w σ) :
    Armed c w σ ∨ w = .select ∧ σ = τ := by
  cases ht with
  | none => exact h.armed ha
  | timer =>
      rcases ha.of_schedule with ha | harms
      · exact h.armed ha
      · obtain ⟨hw, hσ⟩ := Prod.mk.inj (Option.some.inj harms)
        exact .inr ⟨hw.symm, hσ.symm⟩

end slots

/-! ### What keeps `Known` -/

namespace Known

variable {c c' : Ctl} {w : Wait} {τ : Task} {sock : SockId}

theorem rests (hk : Known c) (h : Rests c c') : Known c' where
  acts_lt ha := by
    rw [h.acts] at ha
    rw [h.nextAct]
    exact hk.acts_lt ha
  armed ha := by
    obtain ⟨a, hn⟩ := hk.armed (ha.of_rests h)
    exact ⟨a, by rwa [h.acts]⟩
  handled_lt hh := by
    rw [h.alreadyHandled] at hh
    rw [h.nextAct]
    exact hk.handled_lt hh
  inCall hi := by
    rw [h.acts]
    exact hk.inCall (h.inCall _ _ hi)
  recv_once := by
    rw [h.recvCallback]
    exact hk.recv_once
  connect_once := by
    rw [h.connectCallback]
    exact hk.connect_once
  sleep_once := by
    intro τ
    rw [h.timers _ rfl]
    exact hk.sleep_once

/-- The slots of one kind change. -/
theorem slots (hk : Known c) (harm : ∀ {w τ}, Armed c' w τ → Names c w τ)
    (hacts : c'.acts = c.acts) (hnext : c'.nextAct = c.nextAct)
    (hh : c'.alreadyHandled = c.alreadyHandled) (hi : c'.inCall = c.inCall)
    (hr : ∀ {sock sock' cb cb' τ}, c'.recvCallback sock = some cb → cb.arms = (.recv, τ) →
      c'.recvCallback sock' = some cb' → cb'.arms = (.recv, τ) → sock = sock')
    (hc : ∀ {sock sock' cl cl'}, c'.connectCallback sock = some cl →
      c'.connectCallback sock' = some cl' → cl.task = cl'.task → sock = sock')
    (hs : ∀ {τ}, pend c' (.nanosleep τ) ≤ 1) : Known c' where
  acts_lt ha := by
    rw [hacts] at ha
    rw [hnext]
    exact hk.acts_lt ha
  armed ha := by
    obtain ⟨a, hn⟩ := harm ha
    exact ⟨a, by rwa [hacts]⟩
  handled_lt h := by
    rw [hh] at h
    rw [hnext]
    exact hk.handled_lt h
  inCall h := by
    rw [hi] at h
    rw [hacts]
    exact hk.inCall h
  recv_once := hr
  connect_once := hc
  sleep_once := hs

theorem clearRecv (hk : Known c) (sock : SockId) : Known (c.setRecvCallback sock none) := by
  refine hk.slots (fun ha => hk.armed ?_) rfl rfl rfl rfl ?_ hk.connect_once hk.sleep_once
  · rcases ha.of_setRecv with ha | ⟨cb, hcb, -⟩
    · exact ha
    · cases hcb
  · have old : ∀ {sock' cb}, (c.setRecvCallback sock none).recvCallback sock' = some cb →
        c.recvCallback sock' = some cb := by
      intro sock' cb h
      by_cases hs : sock' = sock
      · subst hs
        simp [Ctl.setRecvCallback] at h
      · simpa [Ctl.setRecvCallback, hs] using h
    exact fun {_ _ _ _ _} h hw h' hw' => hk.recv_once (old h) hw (old h') hw'

/-- A callback of a task that waits nowhere else. -/
theorem setRecv (hk : Known c) {cb : RecvCallback} (hcb : cb.arms = (w, τ)) (hn : Names c w τ)
    (hf : Fresh c τ) : Known (c.setRecvCallback sock (some cb)) := by
  refine hk.slots ?_ rfl rfl rfl rfl ?_ hk.connect_once hk.sleep_once
  · intro w' τ' ha
    rcases ha.of_setRecv with ha | ⟨cb', hcb', hw'⟩
    · exact hk.armed ha
    · cases hcb'
      rw [hcb, Prod.mk.injEq] at hw'
      obtain ⟨rfl, rfl⟩ := hw'
      exact hn
  · have other : ∀ {sock' cb' τ'}, sock' ≠ sock →
        (c.setRecvCallback sock (some cb)).recvCallback sock' = some cb' →
        cb'.arms = (.recv, τ') → cb.arms ≠ (.recv, τ') := by
      intro sock' cb' τ' hs h hw hcb'
      rw [hcb, Prod.mk.injEq] at hcb'
      obtain ⟨rfl, rfl⟩ := hcb'
      exact hf _ (.recv (by simpa [Ctl.setRecvCallback, hs] using h) hw)
    intro s₁ s₂ cb₁ cb₂ τ' h₁ hw₁ h₂ hw₂
    by_cases hs₁ : s₁ = sock <;> by_cases hs₂ : s₂ = sock
    · rw [hs₁, hs₂]
    · subst hs₁
      have hcb₁ : cb = cb₁ := by simpa [Ctl.setRecvCallback] using h₁
      exact absurd (hcb₁ ▸ hw₁) (other hs₂ h₂ hw₂)
    · subst hs₂
      have hcb₂ : cb = cb₂ := by simpa [Ctl.setRecvCallback] using h₂
      exact absurd (hcb₂ ▸ hw₂) (other hs₁ h₁ hw₁)
    · exact hk.recv_once (by simpa [Ctl.setRecvCallback, hs₁] using h₁) hw₁
        (by simpa [Ctl.setRecvCallback, hs₂] using h₂) hw₂

theorem setSend (hk : Known c) {cb : Option SendCallback}
    (hn : ∀ cb' w τ, cb = some cb' → cb'.arms = some (w, τ) → Names c w τ) :
    Known (c.setSendCallback sock cb) := by
  refine hk.slots ?_ rfl rfl rfl rfl hk.recv_once hk.connect_once hk.sleep_once
  intro w τ ha
  rcases ha.of_setSend with ha | ⟨cb', hcb', hw⟩
  · exact hk.armed ha
  · exact hn cb' w τ hcb' hw

theorem setAccept (hk : Known c) {cb : Option AcceptCallback}
    (hn : ∀ cb' w τ, cb = some cb' → cb'.arms = some (w, τ) → Names c w τ) :
    Known (c.setAcceptCallback sock cb) := by
  refine hk.slots ?_ rfl rfl rfl rfl hk.recv_once hk.connect_once hk.sleep_once
  intro w τ ha
  rcases ha.of_setAccept with ha | ⟨cb', hcb', hw⟩
  · exact hk.armed ha
  · exact hn cb' w τ hcb' hw

/-- The callbacks of a task that waits nowhere else. -/
theorem setConnect (hk : Known c) {cl : ConnectCallback} (hn : Names c .connect cl.task)
    (hf : Fresh c cl.task) : Known (c.setConnectCallback sock (some cl)) := by
  refine hk.slots ?_ rfl rfl rfl rfl hk.recv_once ?_ hk.sleep_once
  · intro w τ ha
    rcases ha.of_setConnect with ha | ⟨rfl, rfl⟩
    · exact hk.armed ha
    · exact hn
  · intro s₁ s₂ cl₁ cl₂ h₁ h₂ ht
    by_cases hs₁ : s₁ = sock <;> by_cases hs₂ : s₂ = sock
    · rw [hs₁, hs₂]
    · subst hs₁
      have hcl : cl = cl₁ := by simpa [Ctl.setConnectCallback] using h₁
      have h₂ : c.connectCallback s₂ = some cl₂ := by
        simpa [Ctl.setConnectCallback, hs₂] using h₂
      exact absurd (.connect h₂ rfl (ht ▸ hcl ▸ rfl)) (hf .connect)
    · subst hs₂
      have hcl : cl = cl₂ := by simpa [Ctl.setConnectCallback] using h₂
      have h₁ : c.connectCallback s₁ = some cl₁ := by
        simpa [Ctl.setConnectCallback, hs₁] using h₁
      exact absurd (.connect h₁ rfl (ht.trans (hcl ▸ rfl))) (hf .connect)
    · exact hk.connect_once (by simpa [Ctl.setConnectCallback, hs₁] using h₁)
        (by simpa [Ctl.setConnectCallback, hs₂] using h₂) ht

theorem setConnecting (hk : Known c) (sock : SockId) (b : Bool) :
    Known (c.setConnecting sock b) :=
  hk.slots (fun ha => hk.armed (ha.of_events rfl rfl rfl rfl rfl fun _ => le_rfl)) rfl rfl rfl rfl
    hk.recv_once hk.connect_once hk.sleep_once

theorem clearNl (hk : Known c) (nl : NlId) : Known (c.setNlCallback nl none) :=
  hk.slots (fun ha => hk.armed ha.of_setNl) rfl rfl rfl rfl hk.recv_once hk.connect_once
    hk.sleep_once

/-- Events are removed. -/
theorem fewer (hk : Known c) (he : ∀ kind, pend c' kind ≤ pend c kind)
    (hc : c' = { c with events := c'.events }) : Known c' := by
  rw [hc] at he ⊢
  exact hk.slots (fun ha => hk.armed (ha.of_events rfl rfl rfl rfl rfl he)) rfl rfl rfl rfl
    hk.recv_once hk.connect_once ((he _).trans hk.sleep_once)

theorem removeEvent (hk : Known c) {i : ℕ} {e : Event} (he : c.events[i]? = some e) :
    Known (c.removeEvent i) :=
  hk.fewer (fun kind => by
    have h := pend_removeEvent he kind
    omega) rfl

theorem setHandled (hk : Known c) (hn : Names c w τ) : Known (c.setHandled τ.act) where
  acts_lt := hk.acts_lt
  armed ha := hk.armed (ha.of_events rfl rfl rfl rfl rfl fun _ => le_rfl)
  handled_lt {k} h := by
    by_cases hkt : k = τ.act
    · subst hkt
      obtain ⟨a, ha, -⟩ := hn
      exact hk.acts_lt ha
    · exact hk.handled_lt (by simpa [Ctl.setHandled, hkt] using h)
  inCall := hk.inCall
  recv_once := hk.recv_once
  connect_once := hk.connect_once
  sleep_once := hk.sleep_once

theorem claim (hk : Known c) {cl : SelectClosure} (hn : Names c w cl.task) : Known (c.claim cl) := by
  refine (hk.setHandled hn).fewer (fun kind => ?_) rfl
  have h := pend_cancelTimeout cl.task (c.setHandled cl.task.act) kind
  rw [Ctl.claim, h]
  split_ifs
  · exact Nat.zero_le _
  · exact le_rfl

/-- The timer of a task that waits nowhere else. -/
theorem schedule (hk : Known c) {kind : EventKind} {delay : ℕ} (hkind : kind.arms = some (w, τ))
    (hf : w = .sleep → Fresh c τ) (hn : Names c w τ) : Known (c.schedule delay kind) := by
  refine hk.slots ?_ rfl rfl rfl rfl hk.recv_once hk.connect_once ?_
  · intro w' τ' ha
    rcases ha.of_schedule with ha | harms
    · exact hk.armed ha
    · cases hkind.symm.trans harms
      exact hn
  · intro τ'
    rw [pend_schedule]
    split_ifs with hsame
    · subst hsame
      cases hkind
      have h0 : pend c (.nanosleep τ) = 0 := by
        by_contra hp
        exact hf rfl .sleep (.sleep hp rfl)
      omega
    · exact hk.sleep_once

/-- The callbacks of a `select`. -/
theorem selectArms (hk : Known c) {args : SelectArgs} {d : Data} (h : SelectArms args d τ c c')
    (hn : Names c .select τ) : Known c' := by
  have hframe := h.frame
  have old : ∀ {sock cb τ'}, c'.recvCallback sock = some cb → cb.arms = (.recv, τ') →
      c.recvCallback sock = some cb := by
    intro sock cb τ' hs hw
    rcases h.recv sock with he | ⟨fd, -, -, -, -, he⟩
    · rwa [he] at hs
    · rw [he, Option.some.injEq] at hs
      subst hs
      cases hw
  refine hk.slots (fun ha => ?_) (by rw [hframe]) (by rw [hframe]) (by rw [hframe])
    (by rw [hframe]) (fun h₁ hw₁ h₂ hw₂ => hk.recv_once (old h₁ hw₁) hw₁ (old h₂ hw₂) hw₂) ?_ ?_
  · rcases h.armed ha with ha | ⟨rfl, rfl⟩
    · exact hk.armed ha
    · exact hn
  · rw [hframe]
    exact hk.connect_once
  · rw [hframe]
    exact hk.sleep_once

/-- A dispatch begins. -/
theorem dispatch (hk : Known c) (p : Pid) (th : Tracee) : Known (c.dispatch p th) := by
  have later : ∀ {k a}, c.acts k = some a → (c.dispatch p th).acts k = some a := by
    intro k a ha
    have hne : k ≠ c.nextAct := (hk.acts_lt ha).ne
    simpa [Ctl.dispatch, hne] using ha
  refine ⟨?_, ?_, ?_, ?_, hk.recv_once, hk.connect_once, hk.sleep_once⟩
  · intro k a ha
    by_cases hkn : k = c.nextAct
    · subst hkn
      exact Nat.lt_succ_self _
    · have ha : c.acts k = some a := by simpa [Ctl.dispatch, hkn] using ha
      exact Nat.lt_succ_of_lt (hk.acts_lt ha)
  · intro w τ ha
    obtain ⟨a, ha, hrest⟩ := hk.armed (ha.of_events rfl rfl rfl rfl rfl fun _ => le_rfl)
    exact ⟨a, later ha, hrest⟩
  · exact fun hh => Nat.lt_succ_of_lt (hk.handled_lt hh)
  · intro q k hq
    by_cases hqp : q = p
    · subst hqp
      have hkn : c.nextAct = k := by simpa [Ctl.dispatch] using hq
      subst hkn
      exact ⟨⟨q, th.origRax, th.phase, th.serial, c.now⟩, by simp [Ctl.dispatch], rfl⟩
    · obtain ⟨a, ha, hp⟩ := hk.inCall (by simpa [Ctl.dispatch, hqp] using hq)
      exact ⟨a, later ha, hp⟩

/-- Nothing is installed yet for a dispatch that begins. -/
theorem fresh_dispatch (hk : Known c) (p : Pid) (th : Tracee) :
    Fresh (c.dispatch p th) (c.dispatch p th).task := by
  intro w ha
  obtain ⟨a, ha, -⟩ := hk.armed (ha.of_events rfl rfl rfl rfl rfl fun _ => le_rfl)
  exact (hk.acts_lt ha).false

end Known

/-! ### Steps -/

variable {s s' : St} {l : Label}

/-- A handler starts: its dispatch is known, and nothing is installed for it. -/
structure Starting (call : Syscall) (c : Ctl) : Prop where
  known : Known c
  fresh : Fresh c c.task
  act : ∃ a, c.acts c.task.act = some a ∧ a.pid = c.task.thread ∧ a.call = call
  pid : c.task.thread = c.pid

theorem Starting.names {call : Syscall} {c : Ctl} {w : Wait} (h : Starting call c)
    (hw : call.wait = some w) : Names c w c.task := by
  obtain ⟨a, ha, hp, hc⟩ := h.act
  exact ⟨a, ha, hp, hc ▸ hw⟩

theorem Known.starting {c : Ctl} {p : Pid} {th : Tracee} (hk : Known c) (hp : c.pid = p) :
    Starting th.origRax (c.dispatch p th) where
  known := hk.dispatch p th
  fresh := hk.fresh_dispatch p th
  act := ⟨⟨p, th.origRax, th.phase, th.serial, c.now⟩, by simp [Ctl.dispatch], rfl, rfl⟩
  pid := hp.symm

theorem NlStep.known {nl : NlId} (h : NlStep nl s s') (hk : Known s.c) : Known s'.c := by
  cases h with
  | push => exact hk
  | route => exact hk
  | notify hcb _ _ hf =>
      have hn := hk.armed (.nl hcb rfl rfl)
      exact ((hk.claim hn).rests (Calm.of_finish hf).toRests).clearNl nl

theorem NlWork.known {nl : NlId} (h : NlWork nl s s') (hk : Known s.c) : Known s'.c := by
  induction h with
  | refl => exact hk
  | tail _ hstep ih => exact hstep.known ih

theorem Handled.known {call : Syscall} {res : SyscallHandlerStatusCode} (h : Handled call s res s')
    (hres : res ≠ .error) (hs : Starting call s.c) : Known s'.c := by
  have hk := hs.known
  cases h with
  | error => exact absurd rfl hres
  | answered _ _ _ _ hpre hc =>
      exact hk.rests ((Calm.of_prelude hpre).trans (Calm.of_completes hc)).toRests
  | listened _ _ _ _ _ hc =>
      refine (hk.rests (Calm.of_completes hc).toRests).setAccept fun cb' w τ hcb hw => ?_
      cases hcb
      cases hw
  | accepted _ _ _ _ _ hc =>
      rw [St.returning_c]
      exact hk.rests (Calm.of_completes hc).toRests
  | nlSend _ _ hw hc => exact (hw.known hk).rests (Calm.of_completes hc).toRests
  | nlOther _ _ _ _ hc => exact hk.rests (Calm.of_completes hc).toRests
  | passed _ _ _ _ hc => exact hk.rests (Calm.of_passes hc).toRests
  | cloned _ hc => exact hk.rests ((Calm.of_passes hc).trans (Calm.cloned _ _)).toRests
  | unadvanced => exact hk
  | systemExit => exact hk
  | recvNow _ _ _ _ hc => exact (hk.rests (Calm.of_reads hc).toRests).clearRecv _
  | recvWait hcall _ _ _ ho =>
      exact hk.setRecv (RecvCallback.arms_of_owner ho) (hs.names (Syscall.wait_recv hcall)) hs.fresh
  | writeWait =>
      refine hk.setSend fun cb' w τ hcb hw => ?_
      cases hcb
      cases hw
  | connectRefused hcall =>
      subst hcall
      exact hk.setConnect (hs.names rfl) hs.fresh
  | connectWait hcall =>
      subst hcall
      exact (hk.setConnect (hs.names rfl) hs.fresh).setConnecting _ _
  | connectNow hcall _ _ _ hc =>
      subst hcall
      exact (hk.setConnect (hs.names rfl) hs.fresh).rests (Calm.of_finish hc).toRests
  | acceptWait hcall =>
      subst hcall
      refine hk.setAccept fun cb' w τ hcb hw => ?_
      cases hcb
      cases hw
      exact hs.names rfl
  | selectNow _ _ _ _ hc => exact hk.rests (Calm.of_completes hc).toRests
  | selectWait hcall _ harms _ ht =>
      subst hcall
      have hn := hs.names (w := .select) rfl
      have hk₁ := hk.selectArms harms hn
      cases ht with
      | none => exact hk₁
      | timer =>
          refine hk₁.schedule rfl nofun ?_
          rw [harms.frame]
          exact hn
  | sleeping hcall =>
      subst hcall
      exact hk.schedule rfl (fun _ => hs.fresh) (hs.names rfl)

/-- After the wait of `HandleSyscallBefore(p)`. -/
theorem Known.caught (hk : Known s.c) {i : ℕ} {e : Event} (he : s.c.events[i]? = some e) {p : Pid}
    {c₁ : Ctl} (hc : Caught p (((s.moveTo l).c.removeEvent i).setPid p) c₁) : Known c₁ := by
  have hk₁ : Known ((s.moveTo l).c.removeEvent i) :=
    (hk.rests (Rests.setNow l.time s.c)).removeEvent he
  exact (hk₁.rests (Rests.setPid p _)).rests (Calm.of_caught hc).toRests

theorem Known.step (hk₀ : Known s.c) (h : Grail.step s l = some s') : Known s'.c := by
  obtain ⟨-, -, h⟩ := step_cases h
  generalize l.what = what at h
  have hk : Known (s.moveTo l).c := hk₀.rests (Rests.setNow l.time s.c)
  cases h with
  | @fired i e _ he _ hf =>
      obtain ⟨t, kind⟩ := e
      have hk₁ := hk.removeEvent he
      cases hf with
      | gone => exact (hk₁.rests (Rests.setPid _ _)).rests (Calm.exited _ _ _ _).toRests
      | dispatched hc hth hh hp =>
          have hcalm := Calm.of_caught hc
          have hs := hh.handled.known hp.ne_error ((hk₀.caught he hc).starting hcalm.pid)
          exact hs.rests hp.calm.toRests
      | timeoutStale => exact hk₁
      | @timeout τ _ _ hc =>
          have hn : Names (s.moveTo l).c .select τ := hk.armed (.timer (pend_ne_zero he) rfl)
          exact (hk₁.setHandled hn).rests (Calm.of_finish hc).toRests
      | slept hc => exact hk₁.rests (Calm.of_finish hc).toRests
      | removed => exact hk₁
  | receivedIdle => exact hk
  | receivedRead _ _ _ hc => exact (hk.rests (Calm.of_reads hc).toRests).clearRecv _
  | receivedSelect _ hcb _ hc =>
      exact ((hk.claim (hk.armed (.recv hcb rfl))).rests (Calm.of_finish hc).toRests).clearRecv _
  | sendableIdle => exact hk
  | sendableSelect _ hcb _ hc =>
      refine ((hk.claim (hk.armed (.send hcb rfl))).rests (Calm.of_finish hc).toRests).setSend ?_
      intro cb' w τ hcb'
      cases hcb'
  | incomingLost => exact hk
  | incomingStored => exact hk
  | incomingSelect _ hcb _ _ _ hc =>
      refine ((hk.claim (hk.armed (.accept hcb rfl))).setAccept ?_).rests (Calm.of_finish hc).toRests
      intro cb' w τ hcb'
      cases hcb'
  | incomingAccept _ _ _ _ hc => exact hk.rests (Calm.of_finish ⟨_, hc, rfl⟩).toRests
  | connectIdle => exact hk.setConnecting _ _
  | connected _ _ hc => exact (hk.setConnecting _ _).rests (Calm.of_finish hc).toRests
  | refused _ _ hc => exact (hk.setConnecting _ _).rests (Calm.of_finish hc).toRests

theorem Known.initial (app : App) (env : Env) : Known (St.initial app env).c where
  acts_lt ha := by cases ha
  armed ha := by cases ha <;> simp_all [St.initial, pend]
  handled_lt hh := by cases hh
  inCall hi := by cases hi
  recv_once hs := by cases hs
  connect_once hs := by cases hs
  sleep_once := by simp [St.initial, pend]

theorem known_of_run {app : App} {env : Env} {ls : List Label} {s : St}
    (h : run (St.initial app env) ls = some s) : Known s.c :=
  Runs.run_invariant (I := fun s => Known s.c) (fun _ _ _ hk hs => hk.step hs)
    (Known.initial app env) h

end Grail
