import Grail.Awaited

/-! # What wakes a thread

A handler that returns `SYSC_DELAYED` leaves its thread stopped, and a callback or a timer has to
wake it.  `Slot.wakes c x` is the task whose thread the closure in the slot `x` reschedules.  That
is none for the callback of a blocked `write`, which only logs an error, for a callback or the timer
of a `select` that has been answered, and for the callbacks of a connection attempt that is not
under way: ns-3 does not invoke them.

`Spares f c c'` says that nothing is lost between `c` and `c'` which wakes a thread that is still
blocked in `f`, the state in which the step ends. -/

namespace Grail

open Programs

/-- Where a callback or a timer is installed. -/
inductive Slot where
  | recv (sock : SockId)
  | send (sock : SockId)
  | accept (sock : SockId)
  | connect (sock : SockId)
  | netlink (nl : NlId)
  | timer (kind : EventKind)
deriving DecidableEq

/-- The callbacks and the timer of a `select` do nothing once it has been answered. -/
def unanswered (handled : ℕ → Bool) (τ : Task) : Option Task :=
  if handled τ.act then none else some τ

def RecvCallback.wakes (handled : ℕ → Bool) : RecvCallback → Option Task
  | .read task _ _ => some task
  | .recvfrom task _ _ _ _ => some task
  | .select cl => unanswered handled cl.task

/-- The callback of a blocked `write` wakes nobody. -/
def SendCallback.wakes (handled : ℕ → Bool) : SendCallback → Option Task
  | .write _ => none
  | .select cl => unanswered handled cl.task

def AcceptCallback.wakes (handled : ℕ → Bool) : AcceptCallback → Option Task
  | .fakeAccept _ => none
  | .select cl => unanswered handled cl.task
  | .accept task _ _ => some task

def EventKind.wakes (handled : ℕ → Bool) : EventKind → Option Task
  | .nanosleep task => some task
  | .selectTimeout task => unanswered handled task
  | _ => none

/-- The task that the closure in a slot wakes. -/
def Slot.wakes (c : Ctl) : Slot → Option Task
  | .recv sock => (c.recvCallback sock).bind (·.wakes c.alreadyHandled)
  | .send sock => (c.sendCallback sock).bind (·.wakes c.alreadyHandled)
  | .accept sock => (c.acceptCallback sock).bind (·.wakes c.alreadyHandled)
  | .connect sock => if c.connecting sock then (c.connectCallback sock).map (·.task) else none
  | .netlink nl => (c.nlCallback nl).bind fun cl => unanswered c.alreadyHandled cl.task
  | .timer kind => if pend c kind = 0 then none else kind.wakes c.alreadyHandled

variable {c c₁ c' f : Ctl} {x : Slot} {τ σ : Task} {p : Pid} {v : ℤ} {sock : SockId}
  {handled : ℕ → Bool}

theorem unanswered_eq_some : unanswered handled σ = some τ ↔ σ = τ ∧ handled τ.act = false := by
  unfold unanswered
  cases hh : handled σ.act with
  | true =>
      simp only [if_true, reduceCtorEq, false_iff]
      rintro ⟨rfl, hn⟩
      rw [hn] at hh
      cases hh
  | false =>
      simp only [Bool.false_eq_true, if_false, Option.some.injEq]
      refine ⟨?_, And.left⟩
      rintro rfl
      exact ⟨rfl, hh⟩

theorem wakes_connect : (Slot.connect sock).wakes c = some τ ↔
    c.connecting sock = true ∧ ∃ cl, c.connectCallback sock = some cl ∧ cl.task = τ := by
  rw [← Option.map_eq_some_iff, Slot.wakes]
  cases c.connecting sock <;> simp

theorem wakes_timer {kind : EventKind} : (Slot.timer kind).wakes c = some τ ↔
    pend c kind ≠ 0 ∧ kind.wakes c.alreadyHandled = some τ := by
  rw [Slot.wakes]
  split_ifs with hp <;> simp [hp]

theorem RecvCallback.arms_of_wakes {cb : RecvCallback} (h : cb.wakes handled = some τ) :
    ∃ w, cb.arms = (w, τ) := by
  cases cb with
  | read => exact ⟨_, congrArg (Prod.mk _) (Option.some.inj h)⟩
  | recvfrom => exact ⟨_, congrArg (Prod.mk _) (Option.some.inj h)⟩
  | select cl => exact ⟨_, congrArg (Prod.mk _) (unanswered_eq_some.mp h).1⟩

theorem SendCallback.arms_of_wakes {cb : SendCallback} (h : cb.wakes handled = some τ) :
    ∃ w, cb.arms = some (w, τ) := by
  cases cb with
  | write => cases h
  | select cl => exact ⟨_, congrArg (fun τ => some (Wait.select, τ)) (unanswered_eq_some.mp h).1⟩

theorem AcceptCallback.arms_of_wakes {cb : AcceptCallback} (h : cb.wakes handled = some τ) :
    ∃ w, cb.arms = some (w, τ) := by
  cases cb with
  | fakeAccept => cases h
  | select cl => exact ⟨_, congrArg (fun τ => some (Wait.select, τ)) (unanswered_eq_some.mp h).1⟩
  | accept => exact ⟨_, congrArg (fun τ => some (Wait.accept, τ)) (Option.some.inj h)⟩

/-- What wakes a task is armed by it. -/
theorem Slot.armed (h : x.wakes c = some τ) : ∃ w, Armed c w τ := by
  cases x with
  | recv sock =>
      obtain ⟨cb, hcb, hw⟩ := Option.bind_eq_some_iff.mp h
      obtain ⟨w, hw⟩ := RecvCallback.arms_of_wakes hw
      exact ⟨w, .recv hcb hw⟩
  | send sock =>
      obtain ⟨cb, hcb, hw⟩ := Option.bind_eq_some_iff.mp h
      obtain ⟨w, hw⟩ := SendCallback.arms_of_wakes hw
      exact ⟨w, .send hcb hw⟩
  | accept sock =>
      obtain ⟨cb, hcb, hw⟩ := Option.bind_eq_some_iff.mp h
      obtain ⟨w, hw⟩ := AcceptCallback.arms_of_wakes hw
      exact ⟨w, .accept hcb hw⟩
  | connect sock =>
      obtain ⟨-, cl, hcl, ht⟩ := wakes_connect.mp h
      exact ⟨_, .connect hcl rfl ht⟩
  | netlink nl =>
      obtain ⟨cl, hcl, hw⟩ := Option.bind_eq_some_iff.mp h
      exact ⟨_, .nl hcl rfl (unanswered_eq_some.mp hw).1⟩
  | timer kind =>
      obtain ⟨hp, h⟩ := wakes_timer.mp h
      cases kind with
      | nanosleep task =>
          cases h
          exact ⟨_, .sleep hp rfl⟩
      | selectTimeout task =>
          obtain ⟨rfl, -⟩ := unanswered_eq_some.mp h
          exact ⟨_, .timer hp rfl⟩
      | handleSyscallBefore => cases h
      | removeClosedSocket => cases h

/-- Two tasks of one dispatch are the same. -/
theorem Known.eq_of_act {w w' : Wait} (hk : Known c) (hτ : Armed c w τ) (hσ : Armed c w' σ)
    (h : τ.act = σ.act) : τ = σ := by
  obtain ⟨a, ha, hp, -⟩ := hk.armed hτ
  obtain ⟨b, hb, hp', -⟩ := hk.armed hσ
  rw [h, hb, Option.some.injEq] at ha
  subst ha
  exact Task.eq_of (hp.symm.trans hp') h

/-! ### Changes of the slots -/

theorem Rests.wakes (h : Rests c c') (x : Slot) : x.wakes c' = x.wakes c := by
  cases x with
  | recv sock => simp only [Slot.wakes, h.recvCallback, h.alreadyHandled]
  | send sock => simp only [Slot.wakes, h.sendCallback, h.alreadyHandled]
  | accept sock => simp only [Slot.wakes, h.acceptCallback, h.alreadyHandled]
  | connect sock => simp only [Slot.wakes, h.connecting, h.connectCallback]
  | netlink nl => simp only [Slot.wakes, h.nlCallback, h.alreadyHandled]
  | timer kind =>
      cases kind with
      | nanosleep task =>
          simp only [Slot.wakes, h.timers (.nanosleep task) rfl, h.alreadyHandled]
      | selectTimeout task =>
          simp only [Slot.wakes, h.timers (.selectTimeout task) rfl, h.alreadyHandled]
      | handleSyscallBefore p => simp only [Slot.wakes, EventKind.wakes, ite_self]
      | removeClosedSocket sock => simp only [Slot.wakes, EventKind.wakes, ite_self]

theorem wakes_setRecv {cb : Option RecvCallback} (hx : x ≠ .recv sock) :
    x.wakes (c.setRecvCallback sock cb) = x.wakes c := by
  cases x with
  | recv sock' =>
      have hs : sock' ≠ sock := fun hs => hx (hs ▸ rfl)
      simp only [Slot.wakes, Ctl.setRecvCallback, Function.update_of_ne hs]
  | _ => rfl

theorem wakes_setSend {cb : Option SendCallback} (hx : x ≠ .send sock) :
    x.wakes (c.setSendCallback sock cb) = x.wakes c := by
  cases x with
  | send sock' =>
      have hs : sock' ≠ sock := fun hs => hx (hs ▸ rfl)
      simp only [Slot.wakes, Ctl.setSendCallback, Function.update_of_ne hs]
  | _ => rfl

theorem wakes_setAccept {cb : Option AcceptCallback} (hx : x ≠ .accept sock) :
    x.wakes (c.setAcceptCallback sock cb) = x.wakes c := by
  cases x with
  | accept sock' =>
      have hs : sock' ≠ sock := fun hs => hx (hs ▸ rfl)
      simp only [Slot.wakes, Ctl.setAcceptCallback, Function.update_of_ne hs]
  | _ => rfl

theorem wakes_setConnect {cb : Option ConnectCallback} (hx : x ≠ .connect sock) :
    x.wakes (c.setConnectCallback sock cb) = x.wakes c := by
  cases x with
  | connect sock' =>
      have hs : sock' ≠ sock := fun hs => hx (hs ▸ rfl)
      simp only [Slot.wakes, Ctl.setConnectCallback, Function.update_of_ne hs]
  | _ => rfl

theorem wakes_setConnecting {b : Bool} (hx : x ≠ .connect sock) :
    x.wakes (c.setConnecting sock b) = x.wakes c := by
  cases x with
  | connect sock' =>
      have hs : sock' ≠ sock := fun hs => hx (hs ▸ rfl)
      simp only [Slot.wakes, Ctl.setConnecting, Function.update_of_ne hs]
  | _ => rfl

theorem wakes_setNl {nl : NlId} {cb : Option SelectClosure} (hx : x ≠ .netlink nl) :
    x.wakes (c.setNlCallback nl cb) = x.wakes c := by
  cases x with
  | netlink nl' =>
      have hs : nl' ≠ nl := fun hs => hx (hs ▸ rfl)
      simp only [Slot.wakes, Ctl.setNlCallback, Function.update_of_ne hs]
  | _ => rfl

/-- The callbacks of a task that is not the one whose flag is set. -/
theorem unanswered_setHandled {k : ℕ} (h : unanswered handled σ = some τ) (hk : τ.act ≠ k) :
    unanswered (Function.update handled k true) σ = some τ := by
  obtain ⟨rfl, hn⟩ := unanswered_eq_some.mp h
  exact unanswered_eq_some.mpr ⟨rfl, by rwa [Function.update_of_ne hk]⟩

theorem wakes_setHandled {k : ℕ} (h : x.wakes c = some τ) (hk : τ.act ≠ k) :
    x.wakes (c.setHandled k) = some τ := by
  cases x with
  | recv sock =>
      obtain ⟨cb, hcb, hw⟩ := Option.bind_eq_some_iff.mp h
      refine Option.bind_eq_some_iff.mpr ⟨cb, hcb, ?_⟩
      cases cb with
      | select cl => exact unanswered_setHandled hw hk
      | _ => exact hw
  | send sock =>
      obtain ⟨cb, hcb, hw⟩ := Option.bind_eq_some_iff.mp h
      refine Option.bind_eq_some_iff.mpr ⟨cb, hcb, ?_⟩
      cases cb with
      | select cl => exact unanswered_setHandled hw hk
      | _ => exact hw
  | accept sock =>
      obtain ⟨cb, hcb, hw⟩ := Option.bind_eq_some_iff.mp h
      refine Option.bind_eq_some_iff.mpr ⟨cb, hcb, ?_⟩
      cases cb with
      | select cl => exact unanswered_setHandled hw hk
      | _ => exact hw
  | connect sock => exact h
  | netlink nl =>
      obtain ⟨cl, hcl, hw⟩ := Option.bind_eq_some_iff.mp h
      exact Option.bind_eq_some_iff.mpr ⟨cl, hcl, unanswered_setHandled hw hk⟩
  | timer kind =>
      obtain ⟨hp, hw⟩ := wakes_timer.mp h
      refine wakes_timer.mpr ⟨hp, ?_⟩
      cases kind with
      | selectTimeout task => exact unanswered_setHandled hw hk
      | _ => exact hw

/-- Events are removed, no timer of the task among them. -/
theorem wakes_events (h : x.wakes c = some τ)
    (hp : ∀ kind, kind.wakes c.alreadyHandled = some τ → pend c kind ≠ 0 → pend c' kind ≠ 0)
    (hc : c' = { c with events := c'.events }) : x.wakes c' = some τ := by
  cases x with
  | timer kind =>
      obtain ⟨h0, hw⟩ := wakes_timer.mp h
      refine wakes_timer.mpr ⟨hp kind hw h0, ?_⟩
      rw [hc]
      exact hw
  | _ =>
      rw [hc]
      exact h

theorem EventKind.wakes_inj {kind : EventKind} (h : kind.wakes handled = some τ) :
    kind = .nanosleep τ ∨ kind = .selectTimeout τ := by
  cases kind with
  | nanosleep task =>
      cases h
      exact .inl rfl
  | selectTimeout task =>
      obtain ⟨rfl, -⟩ := unanswered_eq_some.mp h
      exact .inr rfl
  | handleSyscallBefore => cases h
  | removeClosedSocket => cases h

theorem wakes_cancelTimeout (h : x.wakes c = some τ) (hσ : τ ≠ σ) :
    x.wakes (c.cancelTimeout σ) = some τ := by
  refine wakes_events h (fun kind hw hp => ?_) rfl
  have hne : kind ≠ .selectTimeout σ := by
    rcases EventKind.wakes_inj hw with rfl | rfl
    · rintro ⟨⟩
    · rintro ⟨⟩
      exact hσ rfl
  rwa [pend_cancelTimeout, if_neg hne]

theorem wakes_removeEvent {i : ℕ} {e : Event} (he : c.events[i]? = some e)
    (h : x.wakes c = some τ) (hkind : e.kind.wakes c.alreadyHandled ≠ some τ) :
    x.wakes (c.removeEvent i) = some τ := by
  refine wakes_events h (fun kind hw hp => ?_) rfl
  have hne : e.kind ≠ kind := fun hk => hkind (hk ▸ hw)
  have hrem := pend_removeEvent he kind
  rw [if_neg hne, Nat.add_zero] at hrem
  rwa [hrem]

theorem wakes_schedule {delay : ℕ} {kind : EventKind} (h : x.wakes c = some τ) :
    x.wakes (c.schedule delay kind) = some τ := by
  refine wakes_events h (fun kind' _ hp => ?_) rfl
  rw [pend_schedule]
  omega

/-! ### What is not lost -/

/-- A task whose call has not been completed is woken by what woke it. -/
def Spares (f c c' : Ctl) : Prop :=
  ∀ x τ, f.inCall τ.thread = some τ.act → Slot.wakes c x = some τ → Slot.wakes c' x = some τ

namespace Spares

theorem refl (f c : Ctl) : Spares f c c := fun _ _ _ h => h

theorem trans (h : Spares f c c₁) (h' : Spares f c₁ c') : Spares f c c' :=
  fun x τ hτ hx => h' x τ hτ (h x τ hτ hx)

theorem of_rests (h : Rests c c') : Spares f c c' := fun x _ _ hx => (h.wakes x).trans hx

theorem of_calm (h : Calm c c') : Spares f c c' := of_rests h.toRests

/-- A slot changes that does not wake a thread which is still blocked. -/
theorem of_slot {y : Slot} (hsame : ∀ x, x ≠ y → x.wakes c' = x.wakes c)
    (hy : ∀ τ, y.wakes c = some τ → f.inCall τ.thread ≠ some τ.act) : Spares f c c' := by
  intro x τ hτ hx
  by_cases hxy : x = y
  · subst hxy
    exact absurd hτ (hy τ hx)
  · rw [hsame x hxy]
    exact hx

theorem schedule (delay : ℕ) (kind : EventKind) (c : Ctl) : Spares f c (c.schedule delay kind) :=
  fun _ _ _ hx => wakes_schedule hx

/-- The call of a `select` that is claimed will be completed. -/
theorem setHandled {w : Wait} (hk : Known c) (hσ : Armed c w σ)
    (hend : ∀ k, f.inCall σ.thread ≠ some k) : Spares f c (c.setHandled σ.act) := by
  intro x τ hτ hx
  obtain ⟨w', hw'⟩ := Slot.armed hx
  refine wakes_setHandled hx fun hact => ?_
  obtain rfl := hk.eq_of_act hw' hσ hact
  exact hend _ hτ

theorem claim {w : Wait} {cl : SelectClosure} (hk : Known c) (hcl : Armed c w cl.task)
    (hend : ∀ k, f.inCall cl.task.thread ≠ some k) : Spares f c (c.claim cl) := by
  refine (setHandled hk hcl hend).trans fun x τ hτ hx => wakes_cancelTimeout hx ?_
  rintro rfl
  exact hend _ hτ

/-- A timer fires. -/
theorem removeEvent {i : ℕ} {e : Event} (he : c.events[i]? = some e)
    (hend : ∀ τ, e.kind.wakes c.alreadyHandled = some τ → f.inCall τ.thread ≠ some τ.act) :
    Spares f c (c.removeEvent i) :=
  fun _ τ hτ hx => wakes_removeEvent he hx fun hkind => hend τ hkind hτ

end Spares

end Grail
