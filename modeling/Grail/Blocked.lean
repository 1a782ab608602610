import Grail.Tasks

/-! # The calls in which threads are blocked

Thread `p` is blocked in a call if the call has been dispatched and not been completed
(`Ctl.BlockedIn`).  Only a dispatch can block a thread: every other part of a step at most
completes calls (`Unblocks`), and so does the handling of a call (`Handled.unblocks`), which
decides about its own thread only. -/

namespace Grail

open Programs

/-- Thread `p` is blocked in the call `call`. -/
def Ctl.BlockedIn (c : Ctl) (p : Pid) (call : Syscall) : Prop :=
  ∃ k a, c.inCall p = some k ∧ c.acts k = some a ∧ a.call = call

/-- No dispatch begins, and no thread is blocked that was not. -/
structure Unblocks (c c' : Ctl) : Prop where
  app : c'.app = c.app
  acts : c'.acts = c.acts
  nextAct : c'.nextAct = c.nextAct
  inCall : ∀ p k, c'.inCall p = some k → c.inCall p = some k

namespace Unblocks

variable {c c' c'' : Ctl} {p : Pid} {call : Syscall}

theorem refl (c : Ctl) : Unblocks c c := ⟨rfl, rfl, rfl, fun _ _ h => h⟩

theorem trans (h : Unblocks c c') (h' : Unblocks c' c'') : Unblocks c c'' where
  app := h'.app.trans h.app
  acts := h'.acts.trans h.acts
  nextAct := h'.nextAct.trans h.nextAct
  inCall p k hk := h.inCall p k (h'.inCall p k hk)

theorem of_calm (h : Calm c c') : Unblocks c c' := ⟨h.app, h.acts, h.nextAct, h.inCall⟩

/-- Slots, flags and events may differ. -/
theorem of_fields (ha : c'.app = c.app) (hacts : c'.acts = c.acts) (hnext : c'.nextAct = c.nextAct)
    (hi : c'.inCall = c.inCall) : Unblocks c c' :=
  ⟨ha, hacts, hnext, fun _ _ h => hi ▸ h⟩

theorem blockedIn (h : Unblocks c c') (hb : c'.BlockedIn p call) : c.BlockedIn p call := by
  obtain ⟨k, a, hk, ha, hcall⟩ := hb
  exact ⟨k, a, h.inCall p k hk, h.acts ▸ ha, hcall⟩

end Unblocks

/-! ### Completing calls -/

section completing

variable {τ : Task} {p : Pid} {v : ℤ} {c c' : Ctl}

theorem Completes.inCall (h : Completes p v c c') : c'.inCall = c.inCall := by
  cases h <;> rfl

/-- Completing a call on behalf of `τ` unblocks its thread. -/
theorem Finish.inCall (h : Finish τ p v c c') :
    c'.inCall = Function.update c.inCall τ.thread none := by
  obtain ⟨c₁, h₁, rfl⟩ := h
  cases h₁ <;> rfl

theorem Reads.inCall (h : Reads τ c c') :
    c'.inCall = Function.update c.inCall τ.thread none := by
  cases h with
  | finish h => exact h.inCall
  | vanish h =>
      cases h
      rfl

end completing

/-! ### Handlers -/

theorem NlWork.unblocks {nl : NlId} {s s' : St} (h : NlWork nl s s') : Unblocks s.c s'.c := by
  induction h with
  | refl => exact .refl _
  | tail _ h ih =>
      cases h with
      | push => exact ih
      | route => exact ih
      | notify _ _ _ hc =>
          have hf := Unblocks.of_calm (Calm.of_finish hc)
          exact ih.trans ⟨hf.app, hf.acts, hf.nextAct, hf.inCall⟩

theorem SelectArms.unblocks {args : SelectArgs} {d : Data} {τ : Task} {c c₁ c' : Ctl}
    (h : SelectArms args d τ c c₁) (ht : SelectTimer args τ c₁ c') : Unblocks c c' := by
  have h₁ : Unblocks c c₁ := by
    rw [h.frame]
    exact .of_fields rfl rfl rfl rfl
  cases ht with
  | none => exact h₁
  | timer => exact h₁.trans (.of_fields rfl rfl rfl rfl)

theorem Handled.unblocks {call : Syscall} {res : SyscallHandlerStatusCode} {s s' : St}
    (h : Handled call s res s') (hres : res ≠ .error) : Unblocks s.c s'.c := by
  cases h with
  | error => exact absurd rfl hres
  | answered _ _ _ _ hp hc => exact .of_calm ((Calm.of_prelude hp).trans (Calm.of_completes hc))
  | listened _ _ _ _ _ hc =>
      have h₁ := Unblocks.of_calm (Calm.of_completes hc)
      exact ⟨h₁.app, h₁.acts, h₁.nextAct, h₁.inCall⟩
  | accepted _ _ _ _ _ hc =>
      rw [St.returning_c]
      exact .of_calm (Calm.of_completes hc)
  | nlSend _ _ hw hc => exact hw.unblocks.trans (.of_calm (Calm.of_completes hc))
  | nlOther _ _ _ _ hc => exact .of_calm (Calm.of_completes hc)
  | passed _ _ _ _ hc => exact .of_calm (Calm.of_passes hc)
  | @cloned c₁ th _ hc _ _ => exact .of_calm ((Calm.of_passes hc).trans (Calm.cloned th.rax c₁))
  | recvNow _ _ _ _ hc =>
      have h₁ := Unblocks.of_calm (Calm.of_reads hc)
      exact ⟨h₁.app, h₁.acts, h₁.nextAct, h₁.inCall⟩
  | connectNow _ _ _ _ hc =>
      have h₁ := Unblocks.of_calm (Calm.of_finish hc)
      exact ⟨h₁.app, h₁.acts, h₁.nextAct, h₁.inCall⟩
  | selectNow _ _ _ _ hc => exact .of_calm (Calm.of_completes hc)
  | selectWait _ _ harms _ ht => exact harms.unblocks ht
  | _ => exact .of_fields rfl rfl rfl rfl

/-! ### Steps -/

/-- A dispatch of `call` by `p` begins in `s₁`; nothing else differs for the threads that wait. -/
structure Begins (s : St) (p : Pid) (call : Syscall) (s₁ : St) : Prop where
  app : s₁.c.app = s.c.app
  env : s₁.c.env = s.c.env
  pid : s₁.c.pid = p
  task : s₁.c.task = ⟨p, s.c.nextAct⟩
  acts : ∃ a, a.call = call ∧ s₁.c.acts = Function.update s.c.acts s.c.nextAct (some a)
  nextAct : s₁.c.nextAct = s.c.nextAct + 1
  inCall : s₁.c.inCall = Function.update s.c.inCall p (some s.c.nextAct)
  nlCallback : s₁.c.nlCallback = s.c.nlCallback
  alreadyHandled : s₁.c.alreadyHandled = s.c.alreadyHandled
  d : s₁.d = s.d

theorem Caught.begins {s : St} {l : Label} {p : Pid} {i : ℕ} {c₁ : Ctl} {th : Tracee}
    (h : Caught p (((s.moveTo l).c.removeEvent i).setPid p) c₁) :
    Begins s p th.origRax ⟨c₁.dispatch p th, s.d⟩ := by
  cases h <;> exact ⟨rfl, rfl, rfl, rfl, ⟨_, rfl, rfl⟩, rfl, rfl, rfl, rfl, rfl⟩

theorem Handles.begins {s s₁ : St} {l : Label} {p : Pid} {call : Syscall}
    (h : Handles s l p call s₁) : Begins s p call s₁ := by
  cases h with
  | mk _ _ hc _ => exact hc.begins

/-- Other threads are blocked in the calls in which they were. -/
theorem Begins.blockedIn_of_ne {s s₁ : St} {p q : Pid} {call call' : Syscall}
    (h : Begins s p call s₁) (hk : Known s.c) (hq : q ≠ p) :
    s₁.c.BlockedIn q call' ↔ s.c.BlockedIn q call' := by
  obtain ⟨a, -, hacts⟩ := h.acts
  have hsame : ∀ k, s.c.inCall q = some k → s₁.c.acts k = s.c.acts k := by
    intro k hik
    obtain ⟨b, hb, -⟩ := hk.inCall hik
    rw [hacts, Function.update_of_ne (hk.acts_lt hb).ne]
  unfold Ctl.BlockedIn
  rw [h.inCall, Function.update_of_ne hq]
  constructor
  · rintro ⟨k, b, hik, hb, hcall⟩
    exact ⟨k, b, hik, hsame k hik ▸ hb, hcall⟩
  · rintro ⟨k, b, hik, hb, hcall⟩
    exact ⟨k, b, hik, (hsame k hik).symm ▸ hb, hcall⟩

/-- The thread is blocked in the call that is dispatched. -/
theorem Begins.blockedIn_self {s s₁ : St} {p : Pid} {call call' : Syscall}
    (h : Begins s p call s₁) : s₁.c.BlockedIn p call' ↔ call' = call := by
  obtain ⟨a, rfl, hacts⟩ := h.acts
  unfold Ctl.BlockedIn
  rw [h.inCall, hacts]
  constructor
  · rintro ⟨k, b, hik, hb, rfl⟩
    rw [Function.update_self, Option.some.injEq] at hik
    subst hik
    rw [Function.update_self, Option.some.injEq] at hb
    rw [hb]
  · rintro rfl
    exact ⟨s.c.nextAct, a, Function.update_self .., Function.update_self .., rfl⟩

/-- A step that dispatches no call blocks no thread. -/
theorem step_unblocks {s s' : St} {l : Label} (h : step s l = some s')
    (hd : dispatched s l = none) : Unblocks s.c s'.c := by
  obtain ⟨-, -, ho⟩ := step_cases h
  generalize hl : l.what = what at ho
  have hmove : Unblocks s.c (s.moveTo l).c := .of_fields rfl rfl rfl rfl
  refine hmove.trans ?_
  have same : ∀ {c₀ : Ctl}, c₀.app = (s.moveTo l).c.app → c₀.acts = (s.moveTo l).c.acts →
      c₀.nextAct = (s.moveTo l).c.nextAct → c₀.inCall = (s.moveTo l).c.inCall →
      Unblocks (s.moveTo l).c c₀ := .of_fields
  -- the slots are set after the call has been completed
  have finish : ∀ {c₀ c₁ c' : Ctl}, Calm c₀ c₁ → Unblocks (s.moveTo l).c c₀ →
      c'.app = c₁.app → c'.acts = c₁.acts → c'.nextAct = c₁.nextAct → c'.inCall = c₁.inCall →
      Unblocks (s.moveTo l).c c' := fun hc h₀ ha hacts hn hi =>
    h₀.trans ((Unblocks.of_calm hc).trans (.of_fields ha hacts hn hi))
  cases ho with
  | @fired i e _ hev _ hf =>
      obtain ⟨t, kind⟩ := e
      have hev : s.c.events[i]? = some ⟨t, kind⟩ := hev
      cases hf with
      | gone => exact same rfl rfl rfl rfl
      | dispatched hc hth =>
          have hcaught : dispatched s l = some _ :=
            dispatched_eq (resumes_eq hl hev rfl) (hc.catches hth)
          rw [hd] at hcaught
          cases hcaught
      | timeoutStale => exact same rfl rfl rfl rfl
      | timeout _ hc => exact finish (Calm.of_finish hc) (same rfl rfl rfl rfl) rfl rfl rfl rfl
      | slept hc => exact finish (Calm.of_finish hc) (same rfl rfl rfl rfl) rfl rfl rfl rfl
      | removed => exact same rfl rfl rfl rfl
  | receivedRead _ _ _ hc => exact finish (Calm.of_reads hc) (.refl _) rfl rfl rfl rfl
  | receivedSelect _ _ _ hc =>
      exact finish (Calm.of_finish hc) (same rfl rfl rfl rfl) rfl rfl rfl rfl
  | sendableSelect _ _ _ hc =>
      exact finish (Calm.of_finish hc) (same rfl rfl rfl rfl) rfl rfl rfl rfl
  | incomingSelect _ _ _ _ _ hc =>
      exact finish (Calm.of_finish hc) (same rfl rfl rfl rfl) rfl rfl rfl rfl
  | incomingAccept _ _ _ _ hc =>
      exact finish (Calm.of_finish ⟨_, hc, rfl⟩) (.refl _) rfl rfl rfl rfl
  | connected _ _ hc => exact finish (Calm.of_finish hc) (same rfl rfl rfl rfl) rfl rfl rfl rfl
  | refused _ _ hc => exact finish (Calm.of_finish hc) (same rfl rfl rfl rfl) rfl rfl rfl rfl
  | _ => exact same rfl rfl rfl rfl

end Grail
