import Grail.PollLoops
import Grail.Schedule

/-! # The simulated time that calls take

`Paced p w t₀ j c`: of the calls that `p` has made since `t₀` the `j`-th was the last, and if the
answer to the `k`-th takes `w k - w (k - 1)` at least, then all of them have taken `w` in simulated
time.  A step keeps this (`Paced.step`), as a thread is not resumed before its call has been
answered and the answer takes `Ctl.pace`.

Every call takes the processing time (`run_paced`).  A thread that polls while all threads poll is
delayed by a millisecond for each call but the first ones (`run_pollsAdvance`), so no polling loop
can stop the simulated clock. -/

namespace Grail

open Programs PollLoopDetector

variable {s s' : St} {l : Label} {p : Pid} {w : ℕ → ℕ} {t₀ j : ℕ}

/-! ### One step -/

/-- The number of calls of `p` that the step dispatches. -/
def dispatchesOf (p : Pid) (s : St) (l : Label) : ℕ :=
  (dispatched s l).toList.countP fun x => x.1 = p

structure Paced (p : Pid) (w : ℕ → ℕ) (t₀ j : ℕ) (c : Ctl) : Prop where
  begun : t₀ + w (j - 1) ≤ c.now
  scheduled : ∀ e ∈ c.events, e.kind = .handleSyscallBefore p → t₀ + w j ≤ e.time
  idle : c.inCall p = none → pend c (.handleSyscallBefore p) = 0 → t₀ + w j ≤ c.now

theorem two_le_pend {c : Ctl} {e e' : Event} (he : e ∈ c.events) (he' : e' ∈ c.events)
    (hne : e ≠ e') (hk : e.kind = e'.kind) : 2 ≤ pend c e'.kind := by
  obtain ⟨before, after, heq⟩ := List.append_of_mem he'
  rw [heq, List.mem_append, List.mem_cons, or_left_comm] at he
  have hrest : e ∈ before ++ after := List.mem_append.mpr (he.resolve_left hne)
  have hpos : 0 < (before ++ after).countP fun e => e.kind = e'.kind :=
    List.countP_pos_iff.mpr ⟨e, hrest, by simpa using hk⟩
  rw [List.countP_append] at hpos
  rw [pend, heq, List.countP_append, List.countP_cons]
  simp
  omega

theorem pend_cloned_resched (tid q : Pid) (c : Ctl) :
    pend ((c.cloned tid).resched q) (.handleSyscallBefore p) =
      pend c (.handleSyscallBefore p) + (if tid = p then 1 else 0) + if q = p then 1 else 0 := by
  rw [pend_resched, pend, events_cloned, List.countP_append, List.countP_singleton]
  simp [pend]

namespace Paced

/-- The time at which `p` may go on has come. -/
theorem of_le {c : Ctl} (h : t₀ + w (j - 1) ≤ c.now) (h' : t₀ + w j ≤ c.now)
    (hahead : ∀ e ∈ c.events, c.now ≤ e.time) : Paced p w t₀ j c :=
  ⟨h, fun e he _ => h'.trans (hahead e he), fun _ _ => h'⟩

/-- What is scheduled between `c` and `c'` is not scheduled for `p`, or answers its call. -/
theorem others {c c₀ c' : Ctl} (h : Paced p w t₀ j c) (hs : Schedules c₀ c')
    (honce : pend c' (.handleSyscallBefore p) ≤ 1) (hcost : w j ≤ w (j - 1) + c'.pace)
    (hle : c.now ≤ c₀.now) (hsub : ∀ e ∈ c₀.events, e ∈ c.events)
    (hsup : ∀ e ∈ c.events, e.kind = .handleSyscallBefore p → e ∈ c₀.events)
    (hin : c₀.inCall p = c.inCall p) : Paced p w t₀ j c' where
  begun := by
    rw [hs.now]
    exact h.begun.trans hle
  scheduled e he hk := by
    rcases hs.entered e he with hold | hnew
    · exact h.scheduled e (hsub e hold) hk
    · have htime : e.time = c₀.now + c'.pace := by rw [hnew.paced p hk, hs.pace]
      cases hc : c.inCall p with
      | some k =>
          have hbegun := h.begun
          omega
      | none =>
          by_cases hp : pend c (.handleSyscallBefore p) = 0
          · have hidle := h.idle hc hp
            omega
          · -- `p` was scheduled already, so the event is not a new one
            obtain ⟨e', he', hk'⟩ := pend_ne_zero_iff.mp hp
            have hkept : e' ∈ c'.events := hs.kept e' (hsup e' he' hk') (by simp [hk'])
            by_cases hne : e = e'
            · subst hne
              exact h.scheduled e he' hk
            · have htwo := two_le_pend he hkept hne (hk.trans hk'.symm)
              rw [hk'] at htwo
              omega
  idle hnone hp := by
    rcases hs.answered p with hsame | ⟨-, hne⟩
    · rw [hs.now]
      refine (h.idle ?_ ?_).trans hle
      · rw [← hin, ← hsame]
        exact hnone
      · by_contra hpend
        obtain ⟨e', he', hk'⟩ := pend_ne_zero_iff.mp hpend
        exact pend_ne_zero_iff.mpr ⟨e', hs.kept e' (hsup e' he' hk') (by simp [hk']), hk'⟩ hp
    · exact absurd hp hne

/-- A thread that a `clone` of another one creates is neither scheduled nor in a call. -/
theorem cloned {c : Ctl} {tid q : Pid} (h : Paced p w t₀ j c) (hq : q ≠ p)
    (hfree : pend ((c.cloned tid).resched q) (.handleSyscallBefore p) ≠ 0 → c.inCall p = none)
    (honce : pend ((c.cloned tid).resched q) (.handleSyscallBefore p) ≤ 1)
    (hin : ((c.cloned tid).resched q).inCall p = c.inCall p) :
    Paced p w t₀ j ((c.cloned tid).resched q) := by
  have hnow : ((c.cloned tid).resched q).now = c.now := now_cloned tid c
  rw [pend_cloned_resched, if_neg hq] at hfree honce
  refine ⟨by rw [hnow]; exact h.begun, fun e he hk => ?_, fun hnone hp => ?_⟩
  · rcases mem_cloned_resched.mp he with he | rfl | rfl
    · exact h.scheduled e he hk
    · obtain rfl : tid = p := EventKind.handleSyscallBefore.inj hk
      rw [if_pos rfl] at hfree honce
      have hidle := h.idle (hfree (Nat.succ_ne_zero _)) (by omega)
      exact hidle.trans (Nat.le_add_right _ _)
    · exact absurd (EventKind.handleSyscallBefore.inj hk) hq
  · rw [pend_cloned_resched] at hp
    rw [hnow]
    exact h.idle (hin ▸ hnone) (by omega)

/-- A call of `p` is dispatched, and answered after its pace. -/
theorem turn {c c' : Ctl} (h : t₀ + w j ≤ c.now)
    (hzero : pend c (.handleSyscallBefore p) = 0) (hin : c.inCall p ≠ none)
    (hs : Schedules c c') (hcost : w (j + 1) ≤ w j + c'.pace) : Paced p w t₀ (j + 1) c' where
  begun := by
    rw [hs.now]
    exact h
  scheduled e he hk := by
    rcases hs.entered e he with hold | hnew
    · exact absurd hzero (pend_ne_zero_iff.mpr ⟨e, hold, hk⟩)
    · have htime : e.time = c.now + c'.pace := by rw [hnew.paced p hk, hs.pace]
      omega
  idle hnone hp := by
    rcases hs.answered p with hsame | ⟨-, hne⟩
    · exact absurd (hsame.symm.trans hnone) hin
    · exact absurd hp hne

/-- A `clone` of `p` does not create `p` once more. -/
theorem turn_cloned {c c₁ : Ctl} {tid : Pid} (h : t₀ + w j ≤ c.now)
    (hzero : pend c (.handleSyscallBefore p) = 0) (hs : Schedules c c₁)
    (honce : pend ((c₁.cloned tid).resched p) (.handleSyscallBefore p) ≤ 1)
    (hcost : w (j + 1) ≤ w j + c₁.pace) :
    Paced p w t₀ (j + 1) ((c₁.cloned tid).resched p) := by
  have hnow : ((c₁.cloned tid).resched p).now = c₁.now := now_cloned tid c₁
  rw [pend_cloned_resched, if_pos rfl] at honce
  refine ⟨?_, fun e he hk => ?_, fun _ hp => ?_⟩
  · rw [hnow, hs.now]
    exact h
  · rcases mem_cloned_resched.mp he with he | rfl | rfl
    · rcases hs.entered e he with hold | hnew
      · exact absurd hzero (pend_ne_zero_iff.mpr ⟨e, hold, hk⟩)
      · have htime : e.time = c.now + c₁.pace := by rw [hnew.paced p hk, hs.pace]
        omega
    · rw [if_pos (EventKind.handleSyscallBefore.inj hk)] at honce
      omega
    · have htime : c₁.now = c.now := hs.now
      show t₀ + w (j + 1) ≤ c₁.now + c₁.pace
      omega
  · rw [pend_cloned_resched, if_pos rfl] at hp
    omega

end Paced

theorem Paced.step (h : Paced p w t₀ j s.c) (hI : Lively (· = p) s) (hk : SteadyFor (· = p) s l)
    (hs : Grail.step s l = some s')
    (hcost : w (j + dispatchesOf p s l) ≤ w (j + dispatchesOf p s l - 1) + s'.c.pace) :
    Paced p w t₀ (j + dispatchesOf p s l) s'.c := by
  have honce : pend s'.c (.handleSyscallBefore p) ≤ 1 := (hI.step hk hs).continued.once rfl
  obtain ⟨hle, -, -⟩ := step_cases hs
  -- the event that fires is not one of `p`
  have other : ∀ {i : ℕ} {e : Event}, s.c.events[i]? = some e → e.kind ≠ .handleSyscallBefore p →
      ∀ e' ∈ s.c.events, e'.kind = .handleSyscallBefore p → e' ∈ s.c.events.eraseIdx i :=
    fun he hne e' he' hk' => mem_eraseIdx_of_ne he' he fun heq => hne (heq ▸ hk')
  -- the call of another thread is handled
  have elsewhere : ∀ {i : ℕ} {q : Pid} {c c' : Ctl}, Turn s l i q c → q ≠ p → Schedules c c' →
      pend c' (.handleSyscallBefore p) ≤ 1 → w j ≤ w (j - 1) + c'.pace → Paced p w t₀ j c' := by
    intro i q c c' ht hq hb honce hcost
    refine h.others hb honce hcost (ht.now ▸ hle) (fun _ he' => ?_) (fun e' he' hk' => ?_) ?_
    · rw [ht.events] at he'
      exact List.mem_of_mem_eraseIdx he'
    · rw [ht.events]
      exact other ht.event (by simpa using hq) e' he' hk'
    · rw [ht.inCall, Function.update_of_ne hq.symm]
  cases step_books hs with
  | idle hd _ hb =>
      simp only [dispatchesOf, hd, Option.toList_none, List.countP_nil, Nat.add_zero] at hcost ⊢
      exact h.others hb honce hcost hle (fun _ he => he) (fun _ he _ => he) rfl
  | @fired i e hd hl he hb =>
      simp only [dispatchesOf, hd, Option.toList_none, List.countP_nil, Nat.add_zero] at hcost ⊢
      by_cases hkind : e.kind = .handleSyscallBefore p
      · have hdue := h.scheduled e (List.mem_of_getElem? he) hkind
        rw [fired_time hs hl he, ← step_now hs] at hdue
        refine .of_le ?_ hdue fun _ he' => step_ahead hs he'
        rw [step_now hs]
        exact h.begun.trans hle
      · exact h.others hb honce hcost hle (fun _ he' => List.mem_of_mem_eraseIdx he')
          (other he hkind) rfl
  | @dispatched i q call c hd ht hb =>
      by_cases hq : q = p
      · subst hq
        have hone : dispatchesOf q s l = 1 := by simp [dispatchesOf, hd]
        rw [hone] at hcost ⊢
        obtain ⟨hzero, -, -⟩ := hI.continued.resumed rfl ht.event
        have hdue := h.scheduled _ (List.mem_of_getElem? ht.event) rfl
        refine .turn (ht.now ▸ hdue) ?_ ?_ hb hcost
        · rw [pend, ht.events]
          exact hzero
        · rw [ht.inCall, Function.update_self]
          exact Option.some_ne_none _
      · have hzero : dispatchesOf p s l = 0 := by simp [dispatchesOf, hd, hq]
        rw [hzero, Nat.add_zero] at hcost ⊢
        exact elsewhere ht hq hb honce hcost
  | @cloned i q call c c₁ tid hd ht hb heq =>
      have hpace : s'.c.pace = c₁.pace := heq ▸ pace_cloned tid c₁
      have hblocked : ∀ {k}, s'.c.inCall p = some k → pend s'.c (.handleSyscallBefore p) = 0 :=
        fun hin => ((hI.step hk hs).continued.blocked rfl hin).1
      rw [heq] at honce hblocked ⊢
      by_cases hq : q = p
      · subst hq
        have hone : dispatchesOf q s l = 1 := by simp [dispatchesOf, hd]
        rw [hone, hpace] at hcost
        rw [hone]
        obtain ⟨hzero, -, -⟩ := hI.continued.resumed rfl ht.event
        have hdue := h.scheduled _ (List.mem_of_getElem? ht.event) rfl
        refine .turn_cloned (ht.now ▸ hdue) ?_ hb honce hcost
        rw [pend, ht.events]
        exact hzero
      · have hzero : dispatchesOf p s l = 0 := by simp [dispatchesOf, hd, hq]
        rw [hzero, Nat.add_zero, hpace] at hcost
        rw [hzero, Nat.add_zero]
        have hin : ((c₁.cloned tid).resched q).inCall p = c₁.inCall p := by
          rw [← inCall_cloned tid c₁]
          exact Function.update_of_ne (Ne.symm hq) _ _
        have honce₁ : pend c₁ (.handleSyscallBefore p) ≤ 1 := by
          rw [pend_cloned_resched] at honce
          omega
        refine (elsewhere ht hq hb honce₁ hcost).cloned hq (fun hp => ?_) honce hin
        by_contra hsome
        obtain ⟨k, hk'⟩ := Option.ne_none_iff_exists'.mp hsome
        exact hp (hblocked (hin.trans hk'))

/-! ### Runs -/

/-- The calls that the run dispatches, with their threads. -/
def callsIn (s : St) (ls : List Label) : List (Pid × Syscall) :=
  Runs.emitted step (fun s l _ => (dispatched s l).toList) s ls

theorem step_calls_append (h : step s l = some s') :
    s'.c.calls = s.c.calls ++ (dispatched s l).toList := by
  cases hd : dispatched s l with
  | none =>
      have hu := step_unblocks h hd
      simp [Ctl.calls, hu.acts, hu.nextAct]
  | some disp => exact (step_calls h hd).1

theorem run_calls {ls : List Label} (hr : run s ls = some s') :
    s'.c.calls = s.c.calls ++ callsIn s ls := by
  induction ls generalizing s with
  | nil =>
      cases hr
      simp [callsIn]
  | cons l ls ih =>
      obtain ⟨s₁, hs, hr⟩ := Runs.run_cons.mp hr
      rw [ih hr, step_calls_append hs, List.append_assoc, callsIn, callsIn,
        Runs.emitted_cons ls hs]

/-- The calls of `p` in a run take as long as the answers to them. -/
theorem Paced.run {ls : List Label} (h : Paced p w t₀ j s.c) (hI : Lively (· = p) s)
    (hk : Runs.Meets Grail.step (SteadyFor (· = p)) s ls) (hr : Grail.run s ls = some s')
    (hcost : ∀ before s₁, before <+: ls → Grail.run s before = some s₁ →
      w (j + (callsIn s before).countP fun x => x.1 = p) ≤
        w (j + ((callsIn s before).countP fun x => x.1 = p) - 1) + s₁.c.pace) :
    Paced p w t₀ (j + (callsIn s ls).countP fun x => x.1 = p) s'.c := by
  induction ls generalizing s j with
  | nil =>
      cases hr
      exact h
  | cons l ls ih =>
      obtain ⟨s₁, hs, hr⟩ := Runs.run_cons.mp hr
      obtain ⟨hl, hk⟩ := (Runs.meets_cons hs).mp hk
      have hcount : ∀ ls', j + (callsIn s (l :: ls')).countP (fun x => x.1 = p) =
          j + dispatchesOf p s l + (callsIn s₁ ls').countP fun x => x.1 = p := by
        intro ls'
        rw [callsIn, Runs.emitted_cons ls' hs, List.countP_append, ← Nat.add_assoc]
        rfl
      have hone := hcost [l] s₁ (List.prefix_append [l] ls) (Runs.run_singleton.trans hs)
      rw [hcount] at hone ⊢
      refine ih (h.step hI hl hs hone) (hI.step hl hs) hk hr fun before s₂ hb hr₂ => ?_
      rw [← hcount]
      exact hcost (l :: before) s₂ (List.cons_prefix_cons.mpr ⟨rfl, hb⟩)
        (Runs.run_cons.mpr ⟨s₁, hs, hr₂⟩)

/-- After a run, no call has been dispatched yet since then. -/
theorem Paced.start {app : App} {env : Env} {ls : List Label}
    (hr : Grail.run (St.initial app env) ls = some s) (p : Pid) (hw : w 0 = 0) :
    Paced p w s.c.now 0 s.c := by
  refine .of_le ?_ ?_ (fun e he => ahead_of_run hr he) <;> simp [hw]

theorem app_of_run {app : App} {env : Env} {ls : List Label}
    (hr : run (St.initial app env) ls = some s) : s.c.app = app :=
  Runs.run_invariant (I := fun s => s.c.app = app) (fun _ _ _ h hs => (step_app hs).trans h) rfl hr

section paced

variable {app : App} {env : Env} {before ls : List Label}

/-- Every call of a thread takes the processing time. -/
theorem run_paced (hbefore : run (St.initial app env) before = some s) (hr : run s ls = some s')
    (hsteady : Runs.Meets step (SteadyFor (· = p)) (St.initial app env) (before ++ ls)) :
    s.c.now + (((callsIn s ls).countP fun x => x.1 = p) - 1) * app.syscallProcessingTime ≤
      s'.c.now := by
  obtain ⟨hkb, hk⟩ := (Runs.meets_append hbefore).mp hsteady
  have hI : Lively (· = p) s := (Lively.initial _ app env).run hkb hbefore
  have hstart : Paced p (· * app.syscallProcessingTime) s.c.now 0 s.c :=
    .start hbefore p (Nat.zero_mul _)
  have hend := hstart.run hI hk hr fun ls₁ s₁ _ hr₁ => ?_
  · simpa using hend.begun
  · have happ : s₁.c.app = app := app_of_run ((Runs.run_append_of hbefore).trans hr₁)
    generalize 0 + (callsIn s ls₁).countP (fun x => x.1 = p) = n
    rw [Ctl.pace, happ]
    cases n with
    | zero => simp
    | succ n =>
        rw [Nat.add_sub_cancel, Nat.succ_mul]
        omega

theorem trailing_append {calls calls' : List Syscall} (h : ∀ call ∈ calls', qualifies call = true) :
    trailing (calls ++ calls') = trailing calls + calls'.length := by
  induction calls' using List.reverseRecOn with
  | nil => simp
  | append_singleton calls' call ih =>
      have hcall : qualifies call = true := h call (by simp)
      rw [← List.append_assoc, trailing_concat, if_pos hcall,
        ih fun call hc => h call (List.mem_append_left _ hc)]
      simp [Nat.add_assoc]

/-- The delay after 15 qualifying calls or more, as long as their counter does not wrap around. -/
theorem getDelay_of_trailing {calls : List Syscall} (h : 15 ≤ trailing calls)
    (hwrap : trailing calls ≤ 2 ^ 32) : (after calls).getDelay = 1000000 := by
  have hsteps : (trailing calls - 1) % 2 ^ 32 = trailing calls - 1 :=
    Nat.mod_eq_of_lt (by omega)
  rw [after_eq, getDelay_min, hsteps, min_eq_left (by omega)]
  rfl

/-- The pace while all threads poll. -/
theorem pace_of_run (hon : app.pollLoopDetection = true)
    (hr : run (St.initial app env) ls = some s) :
    s.c.pace = app.syscallProcessingTime + (after (s.c.calls.map Prod.snd)).getDelay := by
  rw [Ctl.pace, run_detectsAll hr, app_of_run hr, App.detector, if_pos hon]

/-- While all calls of the process are `gettimeofday`, `select` and `futex`, each call of a thread
takes the processing time, and after the first ones a millisecond more. -/
theorem run_pollsAdvance (hon : app.pollLoopDetection = true)
    (hbefore : run (St.initial app env) before = some s) (hr : run s ls = some s')
    (hsteady : Runs.Meets step (SteadyFor (· = p)) (St.initial app env) (before ++ ls))
    (hpolls : ∀ x ∈ callsIn s ls, qualifies x.2 = true)
    (hwrap : trailing (s'.c.calls.map Prod.snd) ≤ 2 ^ 32) :
    s.c.now + (((callsIn s ls).countP fun x => x.1 = p) - 1) * app.syscallProcessingTime +
      (((callsIn s ls).countP fun x => x.1 = p) - 15) * 1000000 ≤ s'.c.now := by
  obtain ⟨hkb, hk⟩ := (Runs.meets_append hbefore).mp hsteady
  have hI : Lively (· = p) s := (Lively.initial _ app env).run hkb hbefore
  have hstart :
      Paced p (fun n => n * app.syscallProcessingTime + (n - 14) * 1000000) s.c.now 0 s.c :=
    .start hbefore p (by simp)
  have hend := hstart.run hI hk hr fun ls₁ s₁ hprefix hr₁ => ?_
  · have hbegun := hend.begun
    simp only [Nat.zero_add, Nat.sub_sub] at hbegun
    omega
  · obtain ⟨rest, rfl⟩ := hprefix
    have hrest : run s₁ rest = some s' := (Runs.run_append_of hr₁).symm.trans hr
    -- the calls of the stretch up to `s₁`, and those after it
    have hsplit : callsIn s (ls₁ ++ rest) = callsIn s ls₁ ++ callsIn s₁ rest := by
      have hcalls := run_calls hr
      rw [run_calls hrest, run_calls hr₁, List.append_assoc] at hcalls
      exact (List.append_cancel_left hcalls).symm
    have hqual : ∀ {calls : List (Pid × Syscall)}, (∀ x ∈ calls, x ∈ callsIn s (ls₁ ++ rest)) →
        ∀ call ∈ calls.map Prod.snd, qualifies call = true := by
      intro calls hsub call hcall
      obtain ⟨x, hx, rfl⟩ := List.mem_map.mp hcall
      exact hpolls x (hsub x hx)
    have htrail : trailing (s₁.c.calls.map Prod.snd) =
        trailing (s.c.calls.map Prod.snd) + (callsIn s ls₁).length := by
      rw [run_calls hr₁, List.map_append, trailing_append (hqual fun x hx => ?_), List.length_map]
      exact hsplit ▸ List.mem_append_left _ hx
    have hle : trailing (s₁.c.calls.map Prod.snd) ≤ 2 ^ 32 := by
      rw [run_calls hrest, List.map_append, trailing_append (hqual fun x hx => ?_)] at hwrap
      · omega
      · exact hsplit ▸ List.mem_append_right _ hx
    have hcount : (callsIn s ls₁).countP (fun x => x.1 = p) ≤ (callsIn s ls₁).length :=
      List.countP_le_length
    rw [pace_of_run hon ((Runs.run_append_of hbefore).trans hr₁)]
    generalize (callsIn s ls₁).countP (fun x => x.1 = p) = n at hcount
    simp only [Nat.zero_add]
    cases n with
    | zero => simp
    | succ n =>
        rw [Nat.add_sub_cancel, Nat.succ_mul]
        by_cases hmany : 15 ≤ n + 1
        · rw [getDelay_of_trailing (by omega) hle]
          omega
        · omega

end paced

/-- A process whose calls all look at the time. -/
def pollingEnv : Env where
  wait i := if i % 2 = 0 then .entry (.gettimeofday 8 0) else .exit 0
  ns3 _ := {}

/-- Its first `n` calls. -/
def pollingLabels (n : ℕ) : List Label :=
  (List.range n).map fun k => ⟨((List.range k).map fun i => 200 + backoff (i + 1)).sum, .fire 0⟩

theorem run_paced_polls :
    ∃ s', run (St.initial { syscallProcessingTime := 200 } pollingEnv) (pollingLabels 3) = some s' ∧
      0 + (3 - 1) * 200 ≤ s'.c.now := by
  have hrun : (run (St.initial { syscallProcessingTime := 200 } pollingEnv)
      (pollingLabels 3)).isSome = true := by decide +kernel
  have hcheck : Runs.Meets step (fun s l => isSteady s l = true)
      (St.initial { syscallProcessingTime := 200 } pollingEnv) ([] ++ pollingLabels 3) := by
    decide +kernel
  have hcount : (callsIn (St.initial { syscallProcessingTime := 200 } pollingEnv)
      (pollingLabels 3)).countP (fun x => x.1 = 1) = 3 := by decide +kernel
  obtain ⟨s', hr⟩ := Option.isSome_iff_exists.mp hrun
  have hpaced := run_paced (p := 1) (Runs.run_nil _) hr
    (hcheck.mono fun _ _ h => (Steady.of_isSteady h).steadyFor)
  rw [hcount] at hpaced
  exact ⟨s', hr, hpaced⟩

/-- After 17 calls two milliseconds have passed. -/
theorem run_pollsAdvance_polls :
    ∃ s', run (St.initial { syscallProcessingTime := 200 } pollingEnv) (pollingLabels 17) =
        some s' ∧
      0 + (17 - 1) * 200 + (17 - 15) * 1000000 ≤ s'.c.now := by
  have hrun : (run (St.initial { syscallProcessingTime := 200 } pollingEnv)
      (pollingLabels 17)).any (fun s => trailing (s.c.calls.map Prod.snd) ≤ 2 ^ 32) = true := by
    decide +kernel
  have hcheck : Runs.Meets step (fun s l => isSteady s l = true)
      (St.initial { syscallProcessingTime := 200 } pollingEnv) ([] ++ pollingLabels 17) := by
    decide +kernel
  have hcount : (callsIn (St.initial { syscallProcessingTime := 200 } pollingEnv)
      (pollingLabels 17)).countP (fun x => x.1 = 1) = 17 := by decide +kernel
  have hpolls : ∀ x ∈ callsIn (St.initial { syscallProcessingTime := 200 } pollingEnv)
      (pollingLabels 17), qualifies x.2 = true := by decide +kernel
  obtain ⟨s', hr, hwrap⟩ := (Option.any_eq_true _ _).mp hrun
  have hpaced := run_pollsAdvance (p := 1) rfl (Runs.run_nil _) hr
    (hcheck.mono fun _ _ h => (Steady.of_isSteady h).steadyFor) hpolls (of_decide_eq_true hwrap)
  rw [hcount] at hpaced
  exact ⟨s', hr, hpaced⟩

end Grail
