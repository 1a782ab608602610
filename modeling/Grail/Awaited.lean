import Grail.Blocked
import Grail.Ownership

/-! # What is still to answer a call

`Awaited c w τ`: a callback or a timer that is installed will answer the call of `τ`, which is of
the kind `w`.  That is a part of `Armed`: a callback of `select` whose flag is set does nothing any
more, and the callback of a connection attempt is invoked only while the attempt is under way
(`Connecting`).  The callback of a blocking `accept` is not awaited, because it stays installed
after it has answered. -/

namespace Grail

/-- A callback or timer of `τ` will answer a call of the kind `w`. -/
inductive Awaited (c : Ctl) : Wait → Task → Prop
  | recv {τ : Task} : Armed c .recv τ → Awaited c .recv τ
  | select {τ : Task} : Armed c .select τ → c.alreadyHandled τ.act = false → Awaited c .select τ
  | connect {sock : SockId} {cl : ConnectCallback} : c.connectCallback sock = some cl →
      c.connecting sock = true → Awaited c .connect cl.task
  | sleep {τ : Task} : Armed c .sleep τ → Awaited c .sleep τ

theorem Task.eq_of {σ τ : Task} (ht : σ.thread = τ.thread) (ha : σ.act = τ.act) : σ = τ := by
  cases σ
  cases τ
  simp_all

section awaited

variable {c c' : Ctl} {w w' : Wait} {τ : Task} {sock : SockId}

theorem Awaited.armed (h : Awaited c w τ) : Armed c w τ := by
  cases h with
  | recv ha => exact ha
  | select ha => exact ha
  | connect hcb => exact .connect hcb rfl rfl
  | sleep ha => exact ha

/-- Only a socket waits for data. -/
theorem Armed.recv_inv (h : Armed c .recv τ) :
    ∃ sock cb, c.recvCallback sock = some cb ∧ cb.arms = (.recv, τ) := by
  cases h with
  | recv hcb harms => exact ⟨_, _, hcb, harms⟩
  | @send _ cb _ harms => cases cb <;> cases harms
  | @accept _ cb _ harms => cases cb <;> cases harms
  | connect _ hw => cases hw
  | nl _ hw => cases hw
  | sleep _ hw => cases hw
  | timer _ hw => cases hw

/-- Only a timer wakes a sleeping thread. -/
theorem Armed.sleep_inv (h : Armed c .sleep τ) : pend c (.nanosleep τ) ≠ 0 := by
  cases h with
  | @recv _ cb _ harms => cases cb <;> cases harms
  | @send _ cb _ harms => cases cb <;> cases harms
  | @accept _ cb _ harms => cases cb <;> cases harms
  | connect _ hw => cases hw
  | nl _ hw => cases hw
  | sleep hp => exact hp
  | timer _ hw => cases hw

theorem Names.unique (h : Names c w τ) (h' : Names c w' τ) : w = w' := by
  obtain ⟨a, ha, -, hw⟩ := h
  obtain ⟨a', ha', -, hw'⟩ := h'
  cases ha.symm.trans ha'
  exact Option.some.inj (hw.symm.trans hw')

/-- The flags stay set, and nothing new is installed. -/
theorem Awaited.of_armed (h : Awaited c' w τ) (harm : Armed c' w τ → Armed c w τ)
    (hh : c'.alreadyHandled τ.act = false → c.alreadyHandled τ.act = false)
    (hc : ∀ sock cl, c'.connectCallback sock = some cl → c'.connecting sock = true →
      c.connectCallback sock = some cl ∧ c.connecting sock = true) : Awaited c w τ := by
  cases h with
  | recv ha => exact .recv (harm ha)
  | select ha hnot => exact .select (harm ha) (hh hnot)
  | connect hcb hcon =>
      obtain ⟨hcb, hcon⟩ := hc _ _ hcb hcon
      exact .connect hcb hcon
  | sleep ha => exact .sleep (harm ha)

theorem Awaited.of_rests (hr : Rests c c') (h : Awaited c' w τ) : Awaited c w τ := by
  refine h.of_armed (fun ha => ha.of_rests hr) (fun hh => hr.alreadyHandled ▸ hh) ?_
  intro sock cl hcb hcon
  rw [hr.connectCallback] at hcb
  rw [hr.connecting] at hcon
  exact ⟨hcb, hcon⟩

/-- Fewer events are left. -/
theorem Awaited.of_events (h : Awaited c' w τ) (hp : ∀ kind, pend c' kind ≤ pend c kind)
    (hc : c' = { c with events := c'.events }) : Awaited c w τ := by
  rw [hc] at h hp
  exact h.of_armed (fun ha => ha.of_events rfl rfl rfl rfl rfl hp) id fun _ _ h₁ h₂ => ⟨h₁, h₂⟩

theorem Awaited.of_setRecv {cb : Option RecvCallback}
    (h : Awaited (c.setRecvCallback sock cb) w τ) :
    Awaited c w τ ∨ ∃ cb', cb = some cb' ∧ cb'.arms = (w, τ) := by
  rcases h.armed.of_setRecv with ha | hcb
  · exact .inl (h.of_armed (fun _ => ha) id fun _ _ h₁ h₂ => ⟨h₁, h₂⟩)
  · exact .inr hcb

theorem Awaited.of_setSend {cb : Option SendCallback}
    (h : Awaited (c.setSendCallback sock cb) w τ) :
    Awaited c w τ ∨ ∃ cb', cb = some cb' ∧ cb'.arms = some (w, τ) := by
  rcases h.armed.of_setSend with ha | hcb
  · exact .inl (h.of_armed (fun _ => ha) id fun _ _ h₁ h₂ => ⟨h₁, h₂⟩)
  · exact .inr hcb

/-- The callback of a blocking `accept` is not awaited. -/
theorem Awaited.of_setAccept {cb : Option AcceptCallback} (hcb : ∀ cl, cb ≠ some (.select cl))
    (h : Awaited (c.setAcceptCallback sock cb) w τ) : Awaited c w τ := by
  refine h.of_armed (fun ha => ha.of_setAccept.resolve_right ?_) id fun _ _ h₁ h₂ => ⟨h₁, h₂⟩
  rintro ⟨cb', rfl, harms⟩
  cases cb' with
  | fakeAccept => cases harms
  | select cl => exact hcb cl rfl
  | accept =>
      obtain ⟨rfl, -⟩ := Prod.mk.inj (Option.some.inj harms)
      cases h

/-- The callback of a connection attempt is awaited once the attempt is under way. -/
theorem Awaited.of_setConnect {cl : ConnectCallback}
    (h : Awaited (c.setConnectCallback sock (some cl)) w τ) :
    Awaited c w τ ∨ τ = cl.task ∧ c.connecting sock = true := by
  have harm := h.armed.of_setConnect
  cases h with
  | recv ha => exact .inl (.recv (harm.resolve_right (by simp)))
  | select ha hnot => exact .inl (.select (harm.resolve_right (by simp)) hnot)
  | @connect sock' cl' hcb hcon =>
      by_cases hs : sock' = sock
      · subst hs
        have hcl : cl = cl' := by simpa [Ctl.setConnectCallback] using hcb
        exact .inr ⟨by rw [hcl], hcon⟩
      · exact .inl (.connect (by simpa [Ctl.setConnectCallback, hs] using hcb) hcon)
  | sleep ha => exact .inl (.sleep (harm.resolve_right (by simp)))

theorem Awaited.of_connect {cl : ConnectCallback}
    (h : Awaited ((c.setConnectCallback sock (some cl)).setConnecting sock true) w τ) :
    Awaited c w τ ∨ τ = cl.task := by
  have harm : Armed c w τ ∨ w = .connect ∧ cl.task = τ :=
    (h.armed.of_events rfl rfl rfl rfl rfl fun _ => le_rfl :
      Armed (c.setConnectCallback sock (some cl)) w τ).of_setConnect
  cases h with
  | recv ha => exact .inl (.recv (harm.resolve_right (by simp)))
  | select ha hnot => exact .inl (.select (harm.resolve_right (by simp)) hnot)
  | @connect sock' cl' hcb hcon =>
      by_cases hs : sock' = sock
      · subst hs
        have hcl : cl = cl' := by
          simpa [Ctl.setConnectCallback, Ctl.setConnecting] using hcb
        exact .inr (by rw [hcl])
      · have hcb : c.connectCallback sock' = some cl' := by
          simpa [Ctl.setConnectCallback, Ctl.setConnecting, hs] using hcb
        exact .inl (.connect hcb (by simpa [Ctl.setConnecting, Ctl.setConnectCallback, hs] using hcon))
  | sleep ha => exact .inl (.sleep (harm.resolve_right (by simp)))

theorem Awaited.of_setNl {nl : NlId} (h : Awaited (c.setNlCallback nl none) w τ) : Awaited c w τ :=
  h.of_armed Armed.of_setNl id fun _ _ h₁ h₂ => ⟨h₁, h₂⟩

theorem Awaited.of_setConnecting (h : Awaited (c.setConnecting sock false) w τ) :
    Awaited c w τ := by
  refine h.of_armed (fun ha => ha.of_events rfl rfl rfl rfl rfl fun _ => le_rfl) id ?_
  intro sock' cl hcb hcon
  by_cases hs : sock' = sock
  · subst hs
    simp [Ctl.setConnecting] at hcon
  · exact ⟨hcb, by simpa [Ctl.setConnecting, hs] using hcon⟩

/-- Once the flag of a `select` is set, nothing of it is awaited. -/
theorem Awaited.of_setHandled {act : ℕ} (h : Awaited (c.setHandled act) w τ) : Awaited c w τ := by
  refine h.of_armed (fun ha => ha.of_events rfl rfl rfl rfl rfl fun _ => le_rfl) (fun hh => ?_)
    fun _ _ h₁ h₂ => ⟨h₁, h₂⟩
  by_cases hact : τ.act = act
  · simp [Ctl.setHandled, hact] at hh
  · simpa [Ctl.setHandled, hact] using hh

theorem Awaited.of_claim {cl : SelectClosure} (h : Awaited (c.claim cl) w τ) : Awaited c w τ := by
  refine Awaited.of_setHandled (Awaited.of_events h (fun kind => ?_) rfl)
  rw [Ctl.claim, pend_cancelTimeout]
  split_ifs
  · exact Nat.zero_le _
  · exact le_rfl

end awaited

/-! ### Connection attempts -/

section connecting

variable {s s' : St} {l : Label}

/-- `Connect` is under way for sockets that connect later. -/
def Connecting (s : St) : Prop :=
  ∀ sock, s.c.connecting sock = true → sock < s.d.nextSock ∧ s.d.isTcp sock = true

theorem NlWork.connecting {nl : NlId} (h : NlWork nl s s') : s'.c.connecting = s.c.connecting := by
  induction h with
  | refl => rfl
  | tail _ hstep ih =>
      cases hstep with
      | push => exact ih
      | route => exact ih
      | notify _ _ _ hf => exact (Calm.of_finish hf).connecting.trans ih

/-- A handler starts connection attempts of TCP sockets. -/
theorem Handled.connecting_slot {call : Syscall} {res : SyscallHandlerStatusCode}
    (h : Handled call s res s') (hres : res ≠ .error) {sock : SockId}
    (hc : s'.c.connecting sock = true) : s.c.connecting sock = true ∨
      ∃ fd, s.d.fds.sockets.find fd = some sock ∧ s.d.isTcp sock = true := by
  have calm : ∀ {c' : Ctl}, Calm s.c c' → c'.connecting sock = true →
      s.c.connecting sock = true := fun hcalm hc => by rwa [hcalm.connecting] at hc
  cases h with
  | error => exact absurd rfl hres
  | answered _ _ _ _ hpre hc' =>
      exact .inl (calm ((Calm.of_prelude hpre).trans (Calm.of_completes hc')) hc)
  | listened _ _ _ _ _ hc' => exact .inl (calm (Calm.of_completes hc') hc)
  | accepted _ _ _ _ _ hc' =>
      rw [St.returning_c] at hc
      exact .inl (calm (Calm.of_completes hc') hc)
  | nlSend _ _ hw hc' =>
      have hc := hc
      simp only [(Calm.of_completes hc').connecting, hw.connecting] at hc
      exact .inl hc
  | nlOther _ _ _ _ hc' => exact .inl (calm (Calm.of_completes hc') hc)
  | passed _ _ _ _ hc' => exact .inl (calm (Calm.of_passes hc') hc)
  | cloned _ hc' => exact .inl (calm ((Calm.of_passes hc').trans (Calm.cloned _ _)) hc)
  | recvNow _ _ _ _ hc' => exact .inl (calm (Calm.of_reads hc') hc)
  | @connectWait fd _ sock' _ _ hsock htcp =>
      by_cases hs : sock = sock'
      · subst hs
        exact .inr ⟨fd, hsock, htcp⟩
      · exact .inl (by simpa [Ctl.setConnecting, Ctl.setConnectCallback, hs] using hc)
  | connectNow _ _ _ _ hf =>
      simp only [(Calm.of_finish hf).connecting] at hc
      exact .inl hc
  | selectNow _ _ _ _ hc' => exact .inl (calm (Calm.of_completes hc') hc)
  | @selectWait args c₁ c' _ _ harms _ ht =>
      have hsame : c'.connecting = s.c.connecting := by
        have hframe : c₁.connecting = s.c.connecting := by rw [harms.frame]
        cases ht with
        | none => exact hframe
        | timer => exact hframe
      have hc : c'.connecting sock = true := hc
      exact .inl (hsame ▸ hc)
  | _ => exact .inl hc

/-- So does a step. -/
theorem connecting_slot (h : step s l = some s') {sock : SockId}
    (hc : s'.c.connecting sock = true) : s.c.connecting sock = true ∨
      ∃ fd, s.d.fds.sockets.find fd = some sock ∧ s.d.isTcp sock = true := by
  obtain ⟨-, -, ho⟩ := step_cases h
  generalize hl : l.what = what at ho
  have calm : ∀ {c₀ c₁ : Ctl}, Calm c₀ c₁ →
      (c₀.connecting sock = true → s.c.connecting sock = true) → c₁.connecting sock = true →
      s.c.connecting sock = true := fun hcalm h₀ hc => h₀ (hcalm.connecting ▸ hc)
  have ended : ∀ sock', (s.c.setConnecting sock' false).connecting sock = true →
      s.c.connecting sock = true := by
    intro sock' hc
    by_cases hs : sock = sock'
    · simp [Ctl.setConnecting, hs] at hc
    · simpa [Ctl.setConnecting, hs] using hc
  cases ho with
  | @fired i e _ _ _ hf =>
      obtain ⟨t, kind⟩ := e
      cases hf with
      | @dispatched p c₁ th res s₂ _ hcaught hth hh hp =>
          have hslot := hh.handled.connecting_slot hp.ne_error (hp.calm.connecting ▸ hc)
          exact hslot.imp_left fun hc => calm (Calm.of_caught hcaught) id hc
      | timeout _ hf => exact .inl (calm (Calm.of_finish hf) id hc)
      | slept hf => exact .inl (calm (Calm.of_finish hf) id hc)
      | _ => exact .inl hc
  | receivedRead _ _ _ hr => exact .inl (calm (Calm.of_reads hr) id hc)
  | receivedSelect _ _ _ hf => exact .inl (calm (Calm.of_finish hf) id hc)
  | sendableSelect _ _ _ hf => exact .inl (calm (Calm.of_finish hf) id hc)
  | incomingSelect _ _ _ _ _ hf => exact .inl (calm (Calm.of_finish hf) id hc)
  | incomingAccept _ _ _ _ hcomp => exact .inl (calm (Calm.of_finish ⟨_, hcomp, rfl⟩) id hc)
  | connectIdle => exact .inl (ended _ hc)
  | connected _ _ hf => exact .inl (calm (Calm.of_finish hf) (ended _) hc)
  | refused _ _ hf => exact .inl (calm (Calm.of_finish hf) (ended _) hc)
  | _ => exact .inl hc

/-- Whether an existing socket is a TCP socket does not change. -/
theorem TableStep.isTcp {d' : Data} (h : TableStep s l d') :
    s.d.nextSock ≤ d'.nextSock ∧ ∀ sock, sock < s.d.nextSock → d'.isTcp sock = s.d.isTcp sock := by
  have same : ∀ {d : Data}, SameTables d d' → d.nextSock = s.d.nextSock → d.isTcp = s.d.isTcp →
      s.d.nextSock ≤ d'.nextSock ∧
        ∀ sock, sock < s.d.nextSock → d'.isTcp sock = s.d.isTcp sock := by
    intro d h hn ht
    rw [h.nextSock, h.isTcp, hn, ht]
    exact ⟨le_rfl, fun _ _ => rfl⟩
  have new : ∀ {d : Data} {b : Bool}, SameTables d d' → d.nextSock = s.d.nextSock + 1 →
      d.isTcp = Function.update s.d.isTcp s.d.nextSock b → s.d.nextSock ≤ d'.nextSock ∧
        ∀ sock, sock < s.d.nextSock → d'.isTcp sock = s.d.isTcp sock := by
    intro d b h hn ht
    rw [h.nextSock, h.isTcp, hn, ht]
    exact ⟨Nat.le_succ _, fun sock hlt => Function.update_of_ne hlt.ne ..⟩
  cases h with
  | socket _ h => exact new h rfl rfl
  | tcpSocket _ h => exact new h rfl rfl
  | lost _ h => exact new h rfl rfl
  | stored _ _ h => exact new h rfl rfl
  | selectStored _ _ _ h => exact new h rfl rfl
  | acceptedNow _ _ h => exact new h rfl rfl
  | same h => exact same h rfl rfl
  | random _ h => exact same h rfl rfl
  | netlink _ h => exact same h rfl rfl
  | closeSocket _ _ h => exact same h rfl rfl
  | closeNetlink _ h => exact same h rfl rfl
  | closeRandom _ h => exact same h rfl rfl
  | nonblocking _ h => exact same h rfl rfl
  | listenFailed _ _ h => exact same h rfl rfl
  | listened _ _ h => exact same h rfl rfl
  | accepted _ _ h => exact same h rfl rfl
  | connectNow _ h => exact same h rfl rfl
  | connected _ _ h => exact same h rfl rfl

theorem Connecting.step (hcon : Connecting s) (ho : s.Owned) (h : Grail.step s l = some s') :
    Connecting s' := by
  intro sock hc
  obtain ⟨hn, htcp⟩ := (table_step h).isTcp
  obtain ⟨hlt, ht⟩ : sock < s.d.nextSock ∧ s.d.isTcp sock = true := by
    rcases connecting_slot h hc with hc | ⟨fd, hsock, ht⟩
    · exact hcon sock hc
    · exact ⟨ho.named_lt hsock, ht⟩
  exact ⟨hlt.trans_le hn, (htcp sock hlt).trans ht⟩

end connecting

end Grail
