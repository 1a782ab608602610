import Grail.IfRequests

/-! # The status flags of a socket

`HandleFcntl` has no place for status flags: `F_GETFL` answers with 0, and `F_SETFL` succeeds for
the value `O_NONBLOCK` only, which it adds to `m_nonblocking_sockets` (`fcntl_cases`).  `Fcntls` are
sequences of such calls.  After each of them the table agrees with the flags that were set last;
what `F_GETFL` answers agrees only as long as no flags have been set, and no call takes
`O_NONBLOCK` away again (`fcntl_flags`). -/

namespace Grail

open Programs

/-- A call of `fcntl` and its result. -/
structure Fcntl where
  cmd : ℤ
  flags : ℤ
  result : ℤ
deriving DecidableEq, Repr

/-- Calls of `fcntl` on `fd`, one after the other, that take the tables from `f` to `f'`.  Each is
dispatched in a state with the tables that the call before it has left. -/
inductive Fcntls (fd : Fd) (f : Fds) : List Fcntl → Fds → Prop
  | nil : Fcntls fd f [] f
  | call {calls : List Fcntl} {s : St} {th : Tracee} {cmd flags v : ℤ} {d : Data}
      {res : SyscallHandlerStatusCode} : Fcntls fd f calls s.d.fds → AtRequest s fd th →
      cmd = F_GETFL ∨ cmd = F_SETFL →
      (handleFcntl fd cmd flags).run s = .ok (res, ⟨s.c.answer s.c.pid th v, d⟩) →
      Fcntls fd f (calls ++ [⟨cmd, flags, v⟩]) d.fds

/-- `flags & O_NONBLOCK` -/
def hasNonblock (flags : ℤ) : Bool := BitVec.ofInt 32 flags &&& BitVec.ofInt 32 O_NONBLOCK ≠ 0

/-- `flags | O_NONBLOCK` -/
def withNonblock (flags : ℤ) : ℤ := (BitVec.ofInt 32 flags ||| BitVec.ofInt 32 O_NONBLOCK).toInt

/-- The flags that the last successful `F_SETFL` has set. -/
def statusFlags (calls : List Fcntl) : ℤ :=
  ((calls.filter fun c => c.cmd = F_SETFL ∧ c.result = 0).getLast?.map Fcntl.flags).getD 0

/-- `F_SETFL` with the value that is recognized. -/
def Fcntl.SetsNonblock (c : Fcntl) : Prop := c.cmd = F_SETFL ∧ c.flags = O_NONBLOCK

/-- What `fcntl` is for: `F_GETFL` answers with the flags that were set last, and the descriptor is
in `m_nonblocking_sockets` if these include `O_NONBLOCK`. -/
structure FlagsKept (fd : Fd) (calls : List Fcntl) (f : Fds) : Prop where
  read : ∀ pre c post, calls = pre ++ c :: post → c.cmd = F_GETFL → c.result = statusFlags pre
  mode : fd ∈ f.nonblockingSockets ↔ hasNonblock (statusFlags calls) = true

section calls

variable {fd : Fd} {f f' : Fds} {calls : List Fcntl} {s : St} {th : Tracee}

theorem Ctl.answer_inj {c : Ctl} {p : Pid} {v w : ℤ} (h : c.answer p th v = c.answer p th w) :
    v = w := by
  have hp := congrFun (congrArg Ctl.threads h) p
  simp only [Ctl.answer, Function.update_self] at hp
  exact congrArg Tracee.rax (Option.some.inj hp)

theorem statusFlags_concat (calls : List Fcntl) (c : Fcntl) : statusFlags (calls ++ [c]) =
    if c.cmd = F_SETFL ∧ c.result = 0 then c.flags else statusFlags calls := by
  unfold statusFlags
  rw [List.filter_append]
  split_ifs with hc
  · rw [List.filter_cons_of_pos (by simpa using hc), List.filter_nil, List.getLast?_concat]
    rfl
  · rw [List.filter_cons_of_neg (by simpa using hc), List.filter_nil, List.append_nil]

theorem run_fakeAt_data {d : Data} {v : ℤ} {res : SyscallHandlerStatusCode}
    (h : AtRequest s fd th) :
    (fakeAt s.c.pid v res).run ⟨s.c, d⟩ = .ok (res, ⟨s.c.answer s.c.pid th v, d⟩) := by
  obtain ⟨call, retval, hw⟩ := h.next
  exact @run_fakeAt s.c.pid ⟨s.c, d⟩ th call retval v res h.thread h.phase hw

theorem fcntl_getfl {flags : ℤ} (h : AtRequest s fd th)
    (hs : (s.d.fds.sockets.find fd).isSome = true) :
    (handleFcntl fd F_GETFL flags).run s = .ok (.success, ⟨s.c.answer s.c.pid th 0, s.d⟩) := by
  have hne : F_GETFL ≠ F_SETFL := by decide
  have hrun : (handleFcntl fd F_GETFL flags).run s = (fakeAt s.c.pid 0 .success).run s := by
    simp [handleFcntl, h.emulated, hs, hne, fake]
  rw [hrun]
  exact run_fakeAt_data h

theorem fcntl_setfl (h : AtRequest s fd th) (hs : (s.d.fds.sockets.find fd).isSome = true)
    (hn : s.d.fds.netlinks.find fd = none) :
    (handleFcntl fd F_SETFL O_NONBLOCK).run s = .ok (.success,
      ⟨s.c.answer s.c.pid th 0, s.d.withFds (s.d.fds.setNonblocking fd)⟩) := by
  have hne : F_SETFL ≠ F_GETFL := by decide
  have hrun : (handleFcntl fd F_SETFL O_NONBLOCK).run s =
      (fakeAt s.c.pid 0 .success).run ⟨s.c, s.d.withFds (s.d.fds.setNonblocking fd)⟩ := by
    simp [handleFcntl, h.emulated, hs, hn, hne, fake, modifyFds, modifyData]
  rw [hrun]
  exact run_fakeAt_data h

theorem fcntl_setfl_other {flags : ℤ} (h : AtRequest s fd th)
    (hs : (s.d.fds.sockets.find fd).isSome = true) (hn : s.d.fds.netlinks.find fd = none)
    (hflags : flags ≠ O_NONBLOCK) :
    (handleFcntl fd F_SETFL flags).run s = .ok (.failure, ⟨s.c.answer s.c.pid th (-1), s.d⟩) := by
  have hne : F_SETFL ≠ F_GETFL := by decide
  have hrun : (handleFcntl fd F_SETFL flags).run s = (fakeAt s.c.pid (-1) .failure).run s := by
    simp [handleFcntl, h.emulated, hs, hn, hne, hflags, fake]
  rw [hrun]
  exact run_fakeAt_data h

/-- On any other descriptor `F_GETFL` ends the emulator. -/
theorem fcntl_getfl_other {flags : ℤ} (h : AtRequest s fd th)
    (hs : s.d.fds.sockets.find fd = none) :
    (handleFcntl fd F_GETFL flags).run s = .ok (.error, s) := by
  have hne : F_GETFL ≠ F_SETFL := by decide
  simp [handleFcntl, h.emulated, hs, hne]
  rfl

/-- What a call on an ns-3 socket does. -/
theorem fcntl_cases {cmd flags v : ℤ} {d : Data} {res : SyscallHandlerStatusCode}
    (h : AtRequest s fd th) (hs : (s.d.fds.sockets.find fd).isSome = true)
    (hn : s.d.fds.netlinks.find fd = none) (hcmd : cmd = F_GETFL ∨ cmd = F_SETFL)
    (hrun : (handleFcntl fd cmd flags).run s = .ok (res, ⟨s.c.answer s.c.pid th v, d⟩)) :
    cmd = F_GETFL ∧ v = 0 ∧ d.fds = s.d.fds ∨
    cmd = F_SETFL ∧ flags = O_NONBLOCK ∧ v = 0 ∧ d.fds = s.d.fds.setNonblocking fd ∨
    cmd = F_SETFL ∧ flags ≠ O_NONBLOCK ∧ v = -1 ∧ d.fds = s.d.fds := by
  have hsame : ∀ {r w d'}, (handleFcntl fd cmd flags).run s =
      .ok (r, ⟨s.c.answer s.c.pid th w, d'⟩) → v = w ∧ d = d' := by
    intro r w d' hrun'
    have hst := congrArg Prod.snd (Except.ok.inj (hrun.symm.trans hrun'))
    exact ⟨Ctl.answer_inj (congrArg St.c hst), congrArg St.d hst⟩
  rcases hcmd with rfl | rfl
  · obtain ⟨rfl, rfl⟩ := hsame (fcntl_getfl h hs)
    exact Or.inl ⟨rfl, rfl, rfl⟩
  · by_cases hflags : flags = O_NONBLOCK
    · subst hflags
      obtain ⟨rfl, rfl⟩ := hsame (fcntl_setfl h hs hn)
      exact Or.inr (Or.inl ⟨rfl, rfl, rfl, rfl⟩)
    · obtain ⟨rfl, rfl⟩ := hsame (fcntl_setfl_other h hs hn hflags)
      exact Or.inr (Or.inr ⟨rfl, hflags, rfl, rfl⟩)

/-- What the calls leave of the tables. -/
structure FcntlState (fd : Fd) (f : Fds) (calls : List Fcntl) (f' : Fds) : Prop where
  sockets : f'.sockets = f.sockets
  netlinks : f'.netlinks = f.netlinks
  mode : fd ∈ f'.nonblockingSockets ↔ fd ∈ f.nonblockingSockets ∨ ∃ c ∈ calls, c.SetsNonblock
  flags : (∃ c ∈ calls, c.SetsNonblock) → statusFlags calls = O_NONBLOCK
  noFlags : (¬ ∃ c ∈ calls, c.SetsNonblock) → statusFlags calls = 0
  read : ∀ c ∈ calls, c.cmd = F_GETFL → c.result = 0
  set : ∀ c ∈ calls, c.cmd = F_SETFL → c.result = if c.flags = O_NONBLOCK then 0 else -1

theorem exists_concat {P : Fcntl → Prop} {c : Fcntl} :
    (∃ x ∈ calls ++ [c], P x) ↔ (∃ x ∈ calls, P x) ∨ P c := by
  simp [or_and_right, exists_or]

theorem forall_concat {P : Fcntl → Prop} {c : Fcntl} :
    (∀ x ∈ calls ++ [c], P x) ↔ (∀ x ∈ calls, P x) ∧ P c := by
  simp [or_imp, forall_and]

/-- A call that leaves the tables and the flags alone. -/
theorem FcntlState.keep (h : FcntlState fd f calls f') {c : Fcntl} {f'' : Fds} (hf : f'' = f')
    (hset : ¬ c.SetsNonblock) (hflags : statusFlags (calls ++ [c]) = statusFlags calls)
    (hread : c.cmd = F_GETFL → c.result = 0)
    (hres : c.cmd = F_SETFL → c.result = if c.flags = O_NONBLOCK then 0 else -1) :
    FcntlState fd f (calls ++ [c]) f'' where
  sockets := hf ▸ h.sockets
  netlinks := hf ▸ h.netlinks
  mode := by rw [hf, h.mode, exists_concat, or_iff_left hset]
  flags := by
    rw [hflags, exists_concat, or_iff_left hset]
    exact h.flags
  noFlags := by
    rw [hflags, exists_concat, or_iff_left hset]
    exact h.noFlags
  read := forall_concat.mpr ⟨h.read, hread⟩
  set := forall_concat.mpr ⟨h.set, hres⟩

theorem Fcntls.state (h : Fcntls fd f calls f') (hs : (f.sockets.find fd).isSome = true)
    (hn : f.netlinks.find fd = none) : FcntlState fd f calls f' := by
  have hne : F_GETFL ≠ F_SETFL := by decide
  induction h with
  | nil =>
      have hnone : ¬ ∃ c ∈ ([] : List Fcntl), c.SetsNonblock := by simp
      refine ⟨rfl, rfl, (or_iff_left hnone).symm, fun h => absurd h hnone, fun _ => rfl, ?_, ?_⟩
      · exact fun c hc => absurd hc List.not_mem_nil
      · exact fun c hc => absurd hc List.not_mem_nil
  | @call calls s th cmd flags v d res _ hat hcmd hrun ih =>
      have hs' : (s.d.fds.sockets.find fd).isSome = true := by rwa [ih.sockets]
      have hn' : s.d.fds.netlinks.find fd = none := by rwa [ih.netlinks]
      rcases fcntl_cases hat hs' hn' hcmd hrun with
        ⟨rfl, rfl, hf⟩ | ⟨rfl, rfl, rfl, hf⟩ | ⟨rfl, hflags, rfl, hf⟩
      · refine ih.keep hf (fun h => hne h.1) ?_ (fun _ => rfl) fun h => absurd h hne
        rw [statusFlags_concat, if_neg (fun h => hne h.1)]
      · -- the flags are set
        have hsets : (⟨F_SETFL, O_NONBLOCK, 0⟩ : Fcntl).SetsNonblock := ⟨rfl, rfl⟩
        refine ⟨?_, ?_, ?_, fun _ => ?_, fun hno => ?_, ?_, ?_⟩
        · rw [hf]
          exact ih.sockets
        · rw [hf]
          exact ih.netlinks
        · rw [hf, exists_concat]
          exact iff_of_true (Finset.mem_insert_self _ _) (Or.inr (Or.inr hsets))
        · rw [statusFlags_concat, if_pos ⟨rfl, rfl⟩]
        · exact absurd (exists_concat.mpr (Or.inr hsets)) hno
        · exact forall_concat.mpr ⟨ih.read, fun _ => rfl⟩
        · exact forall_concat.mpr ⟨ih.set, fun _ => rfl⟩
      · have hfailed : (-1 : ℤ) ≠ 0 := by decide
        refine ih.keep hf (fun h => hflags h.2) ?_ (fun h => absurd h hne.symm) fun _ => ?_
        · rw [statusFlags_concat, if_neg (fun h => hfailed h.2)]
        · exact (if_neg hflags).symm

/-- A sequence has been a shorter one. -/
theorem Fcntls.before {pre post : List Fcntl} (h : Fcntls fd f (pre ++ post) f') :
    ∃ g, Fcntls fd f pre g := by
  induction post using List.reverseRecOn generalizing f' with
  | nil => exact ⟨f', by rwa [List.append_nil] at h⟩
  | append_singleton post c ih =>
      rw [← List.append_assoc] at h
      generalize hcalls : (pre ++ post) ++ [c] = calls at h
      cases h with
      | nil => exact absurd hcalls (by simp)
      | call h _ _ _ =>
          obtain ⟨hpre, -⟩ := List.append_inj' hcalls rfl
          rw [← hpre] at h
          exact ih h

/-- For an ns-3 socket in blocking mode: the answers of `F_GETFL` and the table agree with the flags
that were set last exactly if no `F_GETFL` comes after an `F_SETFL` with `O_NONBLOCK`.  When flags
are read and set again with `O_NONBLOCK`, this succeeds; when they are later set without it, this
fails, and the socket stays in nonblocking mode.  On other sockets `F_GETFL` ends the emulator. -/
theorem fcntl_flags (h : Fcntls fd f calls f') (hs : (f.sockets.find fd).isSome = true)
    (hn : f.netlinks.find fd = none) (hmode : fd ∉ f.nonblockingSockets) :
    (FlagsKept fd calls f' ↔ ∀ pre c post, calls = pre ++ c :: post → c.cmd = F_GETFL →
      ∀ x ∈ pre, ¬ x.SetsNonblock) ∧
    (∀ pre mid post v₀ v₁ v₂ w x, calls = pre ++ ⟨F_GETFL, x, v₀⟩ ::
        ⟨F_SETFL, withNonblock v₀, v₁⟩ :: mid ++ ⟨F_SETFL, w, v₂⟩ :: post →
      hasNonblock w = false → v₁ = 0 ∧ v₂ = -1 ∧ fd ∈ f'.nonblockingSockets) ∧
    ∀ s th flags, AtRequest s fd th → s.d.fds.sockets.find fd = none →
      (handleFcntl fd F_GETFL flags).run s = .ok (.error, s) := by
  have hst := h.state hs hn
  refine ⟨⟨fun hkept pre c post hcalls hget x hx hsets => ?_, fun hcond => ⟨?_, ?_⟩⟩, ?_,
    fun s th flags h hs => fcntl_getfl_other h hs⟩
  · -- the flags that have been set are not 0
    have hpre := (hcalls ▸ h).before.choose_spec.state hs hn
    have hread := hkept.read pre c post hcalls hget
    rw [hst.read c (hcalls ▸ List.mem_append_right pre List.mem_cons_self) hget,
      hpre.flags ⟨x, hx, hsets⟩] at hread
    exact absurd hread (by decide)
  · intro pre c post hcalls hget
    have hpre := (hcalls ▸ h).before.choose_spec.state hs hn
    rw [hst.read c (hcalls ▸ List.mem_append_right pre List.mem_cons_self) hget]
    refine (hpre.noFlags ?_).symm
    rintro ⟨x, hx, hsets⟩
    exact hcond pre c post hcalls hget x hx hsets
  · rw [hst.mode, or_iff_right hmode]
    by_cases hex : ∃ c ∈ calls, c.SetsNonblock
    · rw [hst.flags hex]
      exact iff_of_true hex (by decide)
    · rw [hst.noFlags hex]
      exact iff_of_false hex (by decide)
  · rintro pre mid post v₀ v₁ v₂ w x rfl hw
    have hv₀ : v₀ = 0 := hst.read ⟨F_GETFL, x, v₀⟩ (by simp) rfl
    have hwith : withNonblock v₀ = O_NONBLOCK := by
      rw [hv₀]
      decide
    have hne : w ≠ O_NONBLOCK := by
      rintro rfl
      exact absurd hw (by decide)
    have hset : (⟨F_SETFL, withNonblock v₀, v₁⟩ : Fcntl).SetsNonblock := ⟨rfl, hwith⟩
    refine ⟨?_, ?_, hst.mode.mpr (Or.inr ⟨_, by simp, hset⟩)⟩
    · have hres := hst.set ⟨F_SETFL, withNonblock v₀, v₁⟩ (by simp) rfl
      rwa [if_pos hwith] at hres
    · have hres := hst.set ⟨F_SETFL, w, v₂⟩ (by simp) rfl
      rwa [if_neg hne] at hres

end calls

/-! ### A socket -/

/-- A thread is about to call `fcntl` on the descriptor 100 of the tables `f`. -/
def fcntlState (f : Fds) : St := ⟨(requestState []).c, (requestState []).d.withFds f⟩

theorem atRequest_fcntlState {f : Fds} (h : f.isEmulated 100 = true) :
    AtRequest (fcntlState f) 100 ⟨.entry, .getpid, false, 0, 0, 0⟩ where
  emulated := h
  thread := rfl
  phase := rfl
  next := ⟨_, _, rfl⟩

/-- The tables with one socket, in blocking mode. -/
def oneSocket : Fds := Fds.initial.addSocket 100 0

theorem fcntl_flags_get :
    let calls : List Fcntl := [⟨F_GETFL, 0, 0⟩]
    Fcntls 100 oneSocket calls oneSocket ∧
      ((FlagsKept 100 calls oneSocket ↔
        ∀ pre c post, calls = pre ++ c :: post → c.cmd = F_GETFL → ∀ x ∈ pre, ¬ x.SetsNonblock) ∧
      (∀ pre mid post v₀ v₁ v₂ w x, calls = pre ++ ⟨F_GETFL, x, v₀⟩ ::
          ⟨F_SETFL, withNonblock v₀, v₁⟩ :: mid ++ ⟨F_SETFL, w, v₂⟩ :: post →
        hasNonblock w = false → v₁ = 0 ∧ v₂ = -1 ∧ 100 ∈ oneSocket.nonblockingSockets) ∧
      ∀ s th flags, AtRequest s 100 th → s.d.fds.sockets.find 100 = none →
        (handleFcntl 100 F_GETFL flags).run s = .ok (.error, s)) := by
  intro calls
  have hat := @atRequest_fcntlState oneSocket (by decide)
  have h := Fcntls.call .nil hat (Or.inl rfl) (@fcntl_getfl _ _ _ 0 hat (by decide))
  exact ⟨h, fcntl_flags h (by decide) (by decide) (by decide)⟩

/-- The flags are read, set with `O_NONBLOCK`, read again and set without it. -/
theorem fcntl_forgets :
    let calls : List Fcntl := [⟨F_GETFL, 0, 0⟩, ⟨F_SETFL, O_NONBLOCK, 0⟩, ⟨F_GETFL, 0, 0⟩,
      ⟨F_SETFL, 0, -1⟩]
    Fcntls 100 oneSocket calls (oneSocket.setNonblocking 100) ∧
      ¬ FlagsKept 100 calls (oneSocket.setNonblocking 100) ∧
      100 ∈ (oneSocket.setNonblocking 100).nonblockingSockets := by
  intro calls
  have hat := @atRequest_fcntlState oneSocket (by decide)
  have hat' := @atRequest_fcntlState (oneSocket.setNonblocking 100) (by decide)
  have h₁ := Fcntls.call .nil hat (Or.inl rfl) (@fcntl_getfl _ _ _ 0 hat (by decide))
  have h₂ := Fcntls.call h₁ hat (Or.inr rfl) (fcntl_setfl hat (by decide) (by decide))
  have h₃ := Fcntls.call (s := fcntlState (oneSocket.setNonblocking 100)) h₂ hat' (Or.inl rfl)
    (@fcntl_getfl _ _ _ 0 hat' (by decide))
  have h₄ := Fcntls.call h₃ hat' (Or.inr rfl)
    (@fcntl_setfl_other _ _ _ 0 hat' (by decide) (by decide) (by decide))
  refine ⟨h₄, fun hkept => ?_, by decide⟩
  have hread := hkept.read [⟨F_GETFL, 0, 0⟩, ⟨F_SETFL, O_NONBLOCK, 0⟩] ⟨F_GETFL, 0, 0⟩
    [⟨F_SETFL, 0, -1⟩] rfl rfl
  exact absurd hread (by decide)

end Grail
