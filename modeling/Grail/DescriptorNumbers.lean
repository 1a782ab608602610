import Grail.FailedCalls
import Grail.Numbering
import Grail.Refinement

/-! # The numbers of emulated descriptors

`Fds.names` joins the tables of sockets, netlink sockets and random devices: the object that a
number names.  Every step of the emulator does to them what its calls say (`step_numbering`): a
`close` releases its number, a new object gets the least free one, and nothing else changes.  So a
run carries out the operations of the machine of `Numbering` (`run_numbering`).

The number that a call returns for a new object is the least free one, and it names this object
until it is closed (`run_opens`). -/

namespace Grail

open Programs

/-- What an emulated descriptor names. -/
inductive Obj where
  | socket (sock : SockId)
  | netlink (nl : NlId)
  | randomDevice
deriving DecidableEq, Repr

namespace Fds

variable {f : Fds} {fd : Fd}

def names (f : Fds) (fd : Fd) : Option Obj :=
  match f.sockets.find fd, f.netlinks.find fd with
  | some sock, _ => some (.socket sock)
  | none, some nl => some (.netlink nl)
  | none, none => if fd ∈ f.randomFds then some .randomDevice else none

theorem names_congr {f' : Fds} {x : Fd} (hs : f'.sockets.find x = f.sockets.find x)
    (hn : f'.netlinks.find x = f.netlinks.find x) (hr : x ∈ f'.randomFds ↔ x ∈ f.randomFds) :
    f'.names x = f.names x := by
  unfold names
  rw [hs, hn]
  simp only [hr]

theorem names_eq_none : f.names fd = none ↔
    f.sockets.find fd = none ∧ f.netlinks.find fd = none ∧ fd ∉ f.randomFds := by
  unfold names
  cases f.sockets.find fd <;> cases f.netlinks.find fd <;> simp

theorem isSome_names : (f.names fd).isSome = f.isEmulated fd := by
  unfold names isEmulated
  cases f.sockets.find fd <;> cases f.netlinks.find fd <;> by_cases hr : fd ∈ f.randomFds <;>
    simp [hr]

/-- A table differs at one number. -/
theorem names_update {f' : Fds} {o : Option Obj} (hfd : f'.names fd = o)
    (hs : ∀ x, x ≠ fd → f'.sockets.find x = f.sockets.find x)
    (hn : ∀ x, x ≠ fd → f'.netlinks.find x = f.netlinks.find x)
    (hr : ∀ x, x ≠ fd → (x ∈ f'.randomFds ↔ x ∈ f.randomFds)) :
    f'.names = Function.update f.names fd o := by
  funext x
  by_cases hx : x = fd
  · subst hx
    rw [Function.update_self, hfd]
  · rw [Function.update_of_ne hx]
    exact names_congr (hs x hx) (hn x hx) (hr x hx)

theorem names_addSocket (sock : SockId) :
    (f.addSocket fd sock).names = Function.update f.names fd (some (.socket sock)) := by
  refine names_update ?_ (fun x hx => StdMap.find_assign_ne _ _ hx) (fun _ _ => rfl)
    fun _ _ => Iff.rfl
  simp [names, addSocket]

theorem names_addNetlink (nl : NlId) (h : f.names fd = none) :
    (f.addNetlink fd nl).names = Function.update f.names fd (some (.netlink nl)) := by
  refine names_update ?_ (fun _ _ => rfl) (fun x hx => StdMap.find_assign_ne _ _ hx)
    fun _ _ => Iff.rfl
  simp [names, addNetlink, (names_eq_none.mp h).1]

theorem names_addRandom (h : f.names fd = none) :
    (f.addRandom fd).names = Function.update f.names fd (some .randomDevice) := by
  obtain ⟨hs, hn, -⟩ := names_eq_none.mp h
  refine names_update ?_ (fun _ _ => rfl) (fun _ _ => rfl) fun x hx => ?_
  · simp [names, addRandom, hs, hn]
  · simp [addRandom, hx]

namespace Partition

theorem disjoint_sockets (h : f.Partition) (hfd : fd ∈ f.sockets.keys) :
    f.netlinks.find fd = none ∧ fd ∉ f.randomFds :=
  ⟨StdMap.find_eq_none.mpr (Finset.disjoint_left.mp h.sockets_netlinks hfd),
    Finset.disjoint_left.mp h.sockets_random hfd⟩

theorem names_closeSocket (h : f.Partition) (hfd : fd ∈ f.sockets.keys) :
    (f.closeSocket fd).names = Function.update f.names fd none := by
  obtain ⟨hn, hr⟩ := h.disjoint_sockets hfd
  refine names_update ?_ (fun x hx => StdMap.find_erase_ne _ hx) (fun _ _ => rfl) fun _ _ => Iff.rfl
  exact names_eq_none.mpr ⟨StdMap.find_erase_self _ _, hn, hr⟩

theorem names_closeNetlink (h : f.Partition) (hfd : fd ∈ f.netlinks.keys) :
    (f.closeNetlink fd).names = Function.update f.names fd none := by
  refine names_update ?_ (fun _ _ => rfl) (fun x hx => StdMap.find_erase_ne _ hx) fun _ _ => Iff.rfl
  refine names_eq_none.mpr ⟨?_, StdMap.find_erase_self _ _, ?_⟩
  · exact StdMap.find_eq_none.mpr (Finset.disjoint_right.mp h.sockets_netlinks hfd)
  · exact Finset.disjoint_left.mp h.netlinks_random hfd

theorem names_closeRandom (h : f.Partition) (hfd : fd ∈ f.randomFds) :
    (f.closeRandom fd).names = Function.update f.names fd none := by
  refine names_update ?_ (fun _ _ => rfl) (fun _ _ => rfl) fun x hx => ?_
  · refine names_eq_none.mpr ⟨?_, ?_, Finset.notMem_erase _ _⟩
    · exact StdMap.find_eq_none.mpr (Finset.disjoint_right.mp h.sockets_random hfd)
    · exact StdMap.find_eq_none.mpr (Finset.disjoint_right.mp h.netlinks_random hfd)
  · simp [Fds.closeRandom, hx]

/-- The numbers that name nothing are the available ones. -/
theorem free_names (h : f.Partition) : Numbering.free numbers f.names = f.availableFDs := by
  ext fd
  rw [Numbering.mem_free, ← h.union, names_eq_none, StdMap.find_eq_none, StdMap.find_eq_none]
  simp only [Finset.mem_union]
  constructor
  · rintro ⟨((ha | hs) | hn) | hr, hs', hn', hr'⟩
    · exact ha
    · exact absurd hs hs'
    · exact absurd hn hn'
    · exact absurd hr hr'
  · intro ha
    exact ⟨.inl (.inl (.inl ha)), Finset.disjoint_left.mp h.available_sockets ha,
      Finset.disjoint_left.mp h.available_netlinks ha,
      Finset.disjoint_left.mp h.available_random ha⟩

theorem min_free (h : f.Partition) (hfd : f.nextFD = some fd) :
    (Numbering.free numbers f.names).min = fd := by
  rw [h.free_names]
  unfold nextFD at hfd
  split_ifs at hfd with hne
  cases hfd
  exact (Finset.coe_min' hne).symm

theorem names_nextFD (h : f.Partition) (hfd : f.nextFD = some fd) : f.names fd = none :=
  (Numbering.mem_free.mp (Finset.mem_of_min (h.min_free hfd))).2

end Partition
end Fds

/-! ### What a step does to the numbers -/

/-- Nothing changes, or the least free number gets a name. -/
def NamesOne (f f' : Fds) : Prop :=
  f'.names = f.names ∨
    ∃ fd o, f.nextFD = some fd ∧ f'.names = Function.update f.names fd (some o)

variable {s s' : St} {l : Label} {p : Pid} {call : Syscall}

/-- A number is taken for a socket. -/
theorem Fds.namesOne_addSocket {f f' : Fds} {fd : Fd} {sock : SockId} (hfd : f.nextFD = some fd)
    (hs : f'.sockets = f.sockets.assign fd sock) (hn : f'.netlinks = f.netlinks)
    (hr : f'.randomFds = f.randomFds) : NamesOne f f' := by
  refine .inr ⟨fd, .socket sock, hfd, ?_⟩
  rw [← Fds.names_addSocket]
  exact funext fun x => Fds.names_congr (by rw [hs]; rfl) (by rw [hn]; rfl) (by rw [hr]; rfl)

/-- Only the marks of sockets change. -/
theorem Fds.namesOne_same {f f' : Fds} (hs : f'.sockets = f.sockets) (hn : f'.netlinks = f.netlinks)
    (hr : f'.randomFds = f.randomFds) : NamesOne f f' :=
  .inl (funext fun x => Fds.names_congr (by rw [hs]) (by rw [hn]) (by rw [hr]))

theorem Edit.namesOne {d' : Data} (h : Edit call p s.d d') (hp : s.d.fds.Partition)
    (hcall : ∀ fd, call ≠ .close fd) : NamesOne s.d.fds d'.fds := by
  cases h with
  | quiet hq => exact hq.fds ▸ .inl rfl
  | random hfd hq =>
      rw [hq.fds]
      exact .inr ⟨_, _, hfd, Fds.names_addRandom (hp.names_nextFD hfd)⟩
  | socket hfd hq =>
      rw [hq.fds]
      exact Fds.namesOne_addSocket hfd rfl rfl rfl
  | tcpSocket hfd hq =>
      rw [hq.fds]
      exact Fds.namesOne_addSocket hfd rfl rfl rfl
  | netlink hfd hq =>
      rw [hq.fds]
      exact .inr ⟨_, _, hfd, Fds.names_addNetlink _ (hp.names_nextFD hfd)⟩
  | closeSocket hclose => exact absurd hclose (hcall _)
  | closeNetlink hclose => exact absurd hclose (hcall _)
  | closeRandom hclose => exact absurd hclose (hcall _)
  | nonblocking _ hq =>
      rw [hq.fds]
      exact Fds.namesOne_same rfl rfl rfl
  | listenFailed _ _ hq =>
      rw [hq.fds]
      exact Fds.namesOne_same rfl rfl rfl

theorem Handled.namesOne {res : SyscallHandlerStatusCode} (h : Handled call s res s')
    (hres : res ≠ .error) (hp : s.d.fds.Partition) (hcall : ∀ fd, call ≠ .close fd) :
    NamesOne s.d.fds s'.d.fds := by
  cases h with
  | error => exact absurd rfl hres
  | answered _ _ _ he => exact he.namesOne hp hcall
  | listened _ _ _ _ hq =>
      rw [hq.fds]
      exact Fds.namesOne_same rfl rfl rfl
  | accepted _ _ _ hfd hq =>
      rw [(returning_same _ _ _).fds, hq.fds]
      exact Fds.namesOne_addSocket hfd rfl rfl rfl
  | nlSend _ _ hw => exact hw.same.fds ▸ .inl rfl
  | nlOther _ _ _ hq => exact hq.fds ▸ .inl rfl
  | passed _ _ _ hq => exact hq.fds ▸ .inl rfl
  | unadvanced _ _ hq => exact hq.fds ▸ .inl rfl
  | recvNow _ _ _ hq => exact hq.fds ▸ .inl rfl
  | connectRefused _ _ _ hq => exact hq.fds ▸ .inl rfl
  | connectWait _ _ _ hq => exact hq.fds ▸ .inl rfl
  | connectNow _ _ _ hq =>
      rw [hq.fds]
      exact Fds.namesOne_same rfl rfl rfl
  | selectNow _ _ _ hq => exact hq.fds ▸ .inl rfl
  | _ => exact .inl rfl

theorem handleClose_names {fd : Fd} (hp : s.d.fds.Partition) :
    wp (handleClose fd) (fun res s' => res ≠ .error → s'.d.fds.names =
      if (s.d.fds.names fd).isSome then Function.update s.d.fds.names fd none
      else s.d.fds.names) s := by
  have answer : ∀ s₁ : St, s₁.d.fds.names = Function.update s.d.fds.names fd none →
      wp (fake 0 .success) (fun res s' => res ≠ .error → s'.d.fds.names =
        Function.update s.d.fds.names fd none) s₁ :=
    fun s₁ h₁ => wp_fake (fun _ h => absurd rfl h) fun _ _ _ => h₁
  rw [Fds.isSome_names]
  unfold handleClose
  cases hemu : s.d.fds.isEmulated fd with
  | false =>
      simp only [wp_bind, wp_get, hemu, Bool.not_false, if_true]
      exact wp_handleSyscallAfter (fun _ h => absurd rfl h) fun _ _ _ => rfl
  | true =>
      simp only [wp_bind, wp_get, hemu, Bool.not_true, Bool.false_eq_true, if_false, if_true]
      cases hsock : s.d.fds.sockets.find fd with
      | some sock =>
          simp only [wp_bind, wp_ask, wp_modifyFds, wp_schedule]
          exact fun _ => answer _ (hp.names_closeSocket (StdMap.mem_keys_of_find hsock))
      | none =>
          simp only [wp_ite, wp_bind, wp_modifyFds, wp_throw, implies_true, and_true]
          refine ⟨fun hnl => ?_, fun _ hr => ?_⟩
          · exact answer _ (hp.names_closeNetlink (StdMap.mem_keys.mpr hnl))
          · exact answer _ (hp.names_closeRandom hr)

/-- A step that dispatches a `close`. -/
theorem step_close {fd : Fd} (hp : s.d.fds.Partition) (h : step s l = some s')
    (hd : dispatched s l = some (p, .close fd)) : s'.d.fds.names =
      if (s.d.fds.names fd).isSome then Function.update s.d.fds.names fd none
      else s.d.fds.names := by
  obtain ⟨s₁, res, s₂, hh, hrun, hproc⟩ := step_handles h hd
  obtain ⟨hd₁, -, -⟩ := hh.start
  obtain ⟨hd₂, -⟩ := hproc.settles
  have hclose := (handleClose_names (hd₁ ▸ hp)).elim (m := handleClose fd) hrun hproc.ne_error
  rwa [hd₁, ← hd₂] at hclose

/-- Any other step. -/
theorem step_namesOne (hp : s.d.fds.Partition) (h : step s l = some s')
    (hcall : ∀ p fd, dispatched s l ≠ some (p, .close fd)) : NamesOne s.d.fds s'.d.fds := by
  cases hd : dispatched s l with
  | some disp =>
      obtain ⟨p, call⟩ := disp
      obtain ⟨i, t, c₁, th, res, s₂, hdet⟩ := step_dispatched h hd
      have hone := hdet.answers.handled.namesOne hdet.processed.ne_error hp
        fun fd hclose => hcall p fd (hclose ▸ hd)
      rwa [hdet.processed.d]
  | none =>
      obtain ⟨-, -, h⟩ := step_cases h
      generalize hl : l.what = what at h
      cases h with
      | @fired i e _ he _ hf =>
          obtain ⟨t, kind⟩ := e
          cases hf with
          | dispatched hc hth =>
              have hsome := dispatched_eq (s := s) (resumes_eq hl he rfl) (hc.catches hth)
              rw [hd] at hsome
              cases hsome
          | removed hq => exact hq.fds ▸ .inl rfl
          | _ => exact .inl rfl
      | receivedRead _ _ hq => exact hq.fds ▸ .inl rfl
      | incomingLost _ _ hq => exact hq.fds ▸ .inl rfl
      | incomingStored _ _ hq =>
          rw [hq.fds]
          exact Fds.namesOne_same rfl rfl rfl
      | incomingSelect _ _ _ _ hq =>
          rw [hq.fds]
          exact Fds.namesOne_same rfl rfl rfl
      | incomingAccept _ _ hfd hq =>
          rw [(returning_same _ _ _).fds, hq.fds]
          exact Fds.namesOne_addSocket hfd rfl rfl rfl
      | connected => exact Fds.namesOne_same rfl rfl rfl
      | _ => exact .inl rfl

/-- What the step does to the numbers of descriptors. -/
def numberOps (s : St) (l : Label) (s' : St) : List (Numbering.Op Fd Obj) :=
  match dispatched s l with
  | some (_, .close fd) => if (s.d.fds.names fd).isSome then [.release fd] else []
  | _ => (s.d.fds.nextFD.bind fun fd => (s'.d.fds.names fd).map (.assign fd)).toList

theorem numberOps_close {fd : Fd} (hd : dispatched s l = some (p, .close fd)) :
    numberOps s l s' = if (s.d.fds.names fd).isSome then [.release fd] else [] := by
  rw [numberOps, hd]

theorem numberOps_other (hcall : ∀ p fd, dispatched s l ≠ some (p, .close fd)) :
    numberOps s l s' =
      (s.d.fds.nextFD.bind fun fd => (s'.d.fds.names fd).map (.assign fd)).toList := by
  unfold numberOps
  split
  next p fd hd => exact absurd hd (hcall p fd)
  next => rfl

theorem step_numbering (hp : s.d.fds.Partition) (h : step s l = some s') :
    Runs.run (Numbering.step numbers) s.d.fds.names (numberOps s l s') = some s'.d.fds.names := by
  by_cases hcall : ∃ p fd, dispatched s l = some (p, .close fd)
  · obtain ⟨p, fd, hd⟩ := hcall
    rw [numberOps_close hd, step_close hp h hd]
    split_ifs with hsome
    · rw [Runs.run_singleton, Numbering.step, if_pos hsome]
    · rfl
  · push Not at hcall
    rw [numberOps_other hcall]
    rcases step_namesOne hp h hcall with hsame | ⟨fd, o, hfd, heq⟩
    · rw [hsame]
      cases hfd : s.d.fds.nextFD with
      | none => rfl
      | some fd =>
          simp only [Option.bind_some, hp.names_nextFD hfd]
          rfl
    · simp only [hfd, Option.bind_some, heq, Function.update_self, Option.map_some,
        Option.toList_some]
      rw [Runs.run_singleton, Numbering.step, if_pos (hp.min_free hfd)]

/-- A run carries out the operations on the numbers: a `close` releases its number, a new object
gets the least number that is free. -/
theorem run_numbering {app : App} {env : Env} {ls : List Label}
    (hr : run (St.initial app env) ls = some s) :
    Runs.run (Numbering.step numbers) (fun _ => none)
      (Runs.emitted step numberOps (St.initial app env) ls) = some s.d.fds.names := by
  have hinitial : (St.initial app env).d.fds.names = fun _ => none := by
    funext fd
    simp [Fds.names, St.initial, Fds.initial]
  rw [← hinitial]
  have hstep : ∀ s l s', s.d.fds.Partition → step s l = some s' →
      Runs.run (Numbering.step numbers) s.d.fds.names (numberOps s l s') = some s'.d.fds.names :=
    fun _ _ _ hp hs => step_numbering hp hs
  exact Runs.run_refines (fun _ _ _ hp hs => (table_step hs).partition hp) hstep
    Fds.Partition.initial hr

/-- `socket`, `open("/dev/random")`, `close` of the socket and `socket` once more. -/
def renumberEnv : Env :=
  .script [.entry (.socket AF_INET SOCK_DGRAM 0), .exit 0,
    .entry (.open ['/', 'd', 'e', 'v', '/', 'r', 'a', 'n', 'd', 'o', 'm']), .exit 0,
    .entry (.close 100), .exit 0, .entry (.socket AF_INET SOCK_DGRAM 0), .exit 0] []

/-- The second socket gets the number of the first one. -/
theorem run_numbering_reused :
    ∃ s, run (St.initial {} renumberEnv) (List.replicate 3 ⟨0, .fire 0⟩ ++ [⟨0, .fire 1⟩]) =
        some s ∧
      Runs.run (Numbering.step numbers) (fun _ => none)
        [.assign 100 (.socket 0), .assign 101 .randomDevice, .release 100,
          .assign 100 (.socket 1)] = some s.d.fds.names := by
  have hrun : (run (St.initial {} renumberEnv)
      (List.replicate 3 ⟨0, .fire 0⟩ ++ [⟨0, .fire 1⟩])).isSome = true := by decide +kernel
  have hops : Runs.emitted step numberOps (St.initial {} renumberEnv)
      (List.replicate 3 ⟨0, .fire 0⟩ ++ [⟨0, .fire 1⟩]) = [.assign 100 (.socket 0),
        .assign 101 .randomDevice, .release 100, .assign 100 (.socket 1)] := by
    decide +kernel
  obtain ⟨s, hr⟩ := Option.isSome_iff_exists.mp hrun
  exact ⟨s, hr, hops ▸ run_numbering hr⟩

/-! ### The results of the calls that open a descriptor -/

/-- The calls that can return a new descriptor. -/
def Syscall.makesFd : Syscall → Bool
  | .open _ => true
  | .openat _ _ => true
  | .socket _ _ _ => true
  | .accept _ _ => true
  | _ => false

/-- No number is taken and the result, if there is one, is negative; or the number that is returned
names a new object. -/
inductive OpenResult (s s' : St) : Prop
  | failed : s'.d.fds.names = s.d.fds.names → (∀ v, Returns s.c s'.c [v] → v < 0) → OpenResult s s'
  | opened {fd : Fd} {o : Obj} : s.d.fds.nextFD = some fd →
      s'.d.fds.names = Function.update s.d.fds.names fd (some o) → Returns s.c s'.c [fd] →
      OpenResult s s'

/-- Nothing is returned. -/
theorem OpenResult.unanswered (hnames : s'.d.fds.names = s.d.fds.names) (hr : Returns s.c s'.c []) :
    OpenResult s s' :=
  .failed hnames fun _ hv => absurd (hv.unique hr) (List.cons_ne_nil _ _)

theorem Passes.returns {c c' : Ctl} (h : Passes p c c') : Returns c c' [] := by
  cases h with
  | atEntry => rfl
  | atExit => rfl

theorem wp_fake_failed {v : ℤ} {res : SyscallHandlerStatusCode} {s₁ : St} (hv : v < 0)
    (hfds : s₁.d.fds = s.d.fds) (hlog : s₁.c.log = s.c.log) :
    wp (fake v res) (fun res s' => res ≠ .error → OpenResult s s') s₁ := by
  refine wp_fake (fun _ h => absurd rfl h) fun c' hc' _ => .failed (congrArg Fds.names hfds) ?_
  intro w hw
  have hret : returnValues c'.log = v :: returnValues s₁.c.log := hc'.returns
  rw [hlog] at hret
  have heq : [w] = [v] := hw.unique hret
  cases heq
  exact hv

theorem wp_fake_opened {fd : Fd} {o : Obj} {s₁ : St} (hfd : s.d.fds.nextFD = some fd)
    (hnames : s₁.d.fds.names = Function.update s.d.fds.names fd (some o))
    (hlog : s₁.c.log = s.c.log) :
    wp (fake fd .success) (fun res s' => res ≠ .error → OpenResult s s') s₁ := by
  refine wp_fake (fun _ h => absurd rfl h) fun c' hc' _ => .opened hfd hnames ?_
  have hret : returnValues c'.log = fd :: returnValues s₁.c.log := hc'.returns
  rw [hlog] at hret
  exact hret

theorem handleOpen_opens (hp : s.d.fds.Partition) (pathname : List Char) :
    wp (handleOpen pathname) (fun res s' => res ≠ .error → OpenResult s s') s := by
  unfold handleOpen
  simp only [wp_ite, wp_bind, wp_getNextFD, wp_modifyFds]
  refine ⟨fun _ fd hfd => ?_, fun _ => ?_⟩
  · exact wp_fake_opened hfd (Fds.names_addRandom (hp.names_nextFD hfd)) rfl
  · exact wp_handleSyscallAfter (fun _ h => absurd rfl h) fun _ hc' _ => .unanswered rfl hc'.returns

theorem handleSocket_opens (hp : s.d.fds.Partition) (domain type protocol : ℤ) :
    wp (handleSocket domain type protocol) (fun res s' => res ≠ .error → OpenResult s s') s := by
  unfold handleSocket createSocket
  simp only [wp_bind, wp_get, wp_ite, wp_ask, wp_newSocket, wp_getNextFD, wp_modifyFds,
    wp_modifyData]
  refine ⟨fun _ => ⟨fun _ fd hfd => ?_, fun _ => ⟨fun _ fd hfd => ?_, fun _ => ?_⟩⟩,
    fun _ => ⟨fun _ => ⟨fun _ => ?_, fun _ => ⟨fun _ fd hfd => ?_, fun _ => ?_⟩⟩, fun _ => ?_⟩⟩
  · exact wp_fake_opened hfd (Fds.names_addSocket _) rfl
  · exact wp_fake_opened hfd (Fds.names_addSocket _) rfl
  · exact wp_fake_failed (by decide) rfl rfl
  · exact wp_fake_failed (by decide) rfl rfl
  · exact wp_fake_opened hfd (Fds.names_addNetlink _ (hp.names_nextFD hfd)) rfl
  · exact wp_fake_failed (by decide) rfl rfl
  · exact wp_fake_failed (by decide) rfl rfl

theorem handleAccept_opens (fd : Fd) (out : SockaddrOut) :
    wp (handleAccept fd out) (fun res s' => res ≠ .error → OpenResult s s') s := by
  unfold handleAccept
  simp only [wp_bind, wp_get, wp_ite, wp_throw]
  refine ⟨fun _ => trivial, fun _ => ?_⟩
  cases s.d.fds.fakeAcceptedSockets.find fd with
  | none =>
      simp only [wp_bind, wp_ite, wp_socketsAt, wp_pure, wp_modifyCtl]
      exact ⟨fun _ => wp_fake_failed (by decide) rfl rfl, fun _ _ _ _ => .unanswered rfl rfl⟩
  | some conn =>
      simp only [wp_bind, wp_modifyFds]
      refine wp_setBsdAddress fun b st => ?_
      simp only [wp_getNextFD, wp_noteReturned, wp_pure]
      intro fd' hfd'
      refine wp_fake (fun _ h => absurd rfl h) fun c' hc' _ => ?_
      refine .opened (o := .socket conn.1) hfd' ?_ ?_
      · rw [(returning_same _ _ _).fds]
        exact Fds.names_addSocket _
      · rw [St.returning_c]
        exact hc'.returns

theorem handle_opens (hp : s.d.fds.Partition) (hcall : call.makesFd = true) :
    wp (handle call) (fun res s' => res ≠ .error → OpenResult s s') s := by
  unfold handle
  simp only [wp_bind, wp_get]
  cases call with
  | «open» pathname => exact handleOpen_opens hp pathname
  | openat dirfd pathname => exact handleOpen_opens hp pathname
  | socket domain type protocol => exact handleSocket_opens hp domain type protocol
  | accept fd out => exact handleAccept_opens fd out
  | _ => cases hcall

/-- The step handles a call that can return a new descriptor, or a connection comes in for which an
`accept` waits. -/
def opening (s : St) (l : Label) : Bool :=
  match dispatched s l with
  | some (_, call) => call.makesFd
  | none =>
      match l.what with
      | .incoming sock _ =>
          match s.c.acceptCallback sock with
          | some (.accept _ _ _) => true
          | _ => false
      | _ => false

theorem step_opens (hp : s.d.fds.Partition) (h : step s l = some s') (ho : opening s l = true) :
    OpenResult s s' := by
  cases hd : dispatched s l with
  | some disp =>
      obtain ⟨p, call⟩ := disp
      have hcall : call.makesFd = true := by simpa [opening, hd] using ho
      obtain ⟨s₁, res, s₂, hh, hrun, hproc⟩ := step_handles h hd
      obtain ⟨hd₁, -, hlog⟩ := hh.start
      obtain ⟨hd₂, hret⟩ := hproc.settles
      have hopens : OpenResult s₁ s₂ := (handle_opens (hd₁ ▸ hp) hcall).elim hrun hproc.ne_error
      have hsame : returnValues s'.c.log = returnValues s₂.c.log := hret s₂.c [] rfl
      have hreturns : ∀ {vs}, Returns s.c s'.c vs ↔ Returns s₁.c s₂.c vs := by
        intro vs
        rw [Returns, Returns, hsame, hlog]
      cases hopens with
      | failed hnames hneg =>
          refine .failed ?_ fun v hv => hneg v (hreturns.mp hv)
          rw [hd₂, hnames, hd₁]
      | opened hfd hnames hv =>
          rw [← hd₂, hd₁] at hnames
          exact .opened (hd₁ ▸ hfd) hnames (hreturns.mpr hv)
  | none =>
      obtain ⟨sock, addr, τ, fd, out, hl, hcb⟩ : ∃ sock addr τ fd out,
          l.what = .incoming sock addr ∧ s.c.acceptCallback sock = some (.accept τ fd out) := by
        simp only [opening, hd] at ho
        split at ho
        next sock addr hl =>
          split at ho
          next τ fd out hcb => exact ⟨sock, addr, τ, fd, out, hl, hcb⟩
          next => cases ho
        next => cases ho
      obtain ⟨-, -, hocc⟩ := step_cases h
      rw [hl] at hocc
      -- only the callback of `accept` is installed
      cases hocc with
      | incomingLost _ hlost =>
          obtain ⟨cl, hcl, -⟩ := hlost _ hcb
          cases hcl
      | incomingStored _ hcb' => cases hcb.symm.trans hcb'
      | incomingSelect _ hcb' => cases hcb.symm.trans hcb'
      | @incomingAccept _ _ rx tx σ fd₁ fd' out' d' c₁ _ _ hfd hq hc =>
          refine .opened (o := .socket s.d.nextSock) hfd ?_ (returns_resched hc.returns)
          rw [(returning_same _ _ _).fds, hq.fds]
          exact Fds.names_addSocket _
      | connectIdle hwhat => rcases hwhat with hwhat | hwhat <;> cases hwhat

/-- The step dispatches a `close` of `fd`. -/
def closes (fd : Fd) (s : St) (l : Label) : Bool :=
  match dispatched s l with
  | some (_, .close fd') => fd' = fd
  | _ => false

theorem numberOps_ne_release {fd : Fd} (h : closes fd s l = false) :
    ∀ op ∈ numberOps s l s', op ≠ .release fd := by
  intro op hop
  unfold numberOps at hop
  unfold closes at h
  split at hop
  next p fd' hd =>
    rw [hd] at h
    have hne : fd' ≠ fd := of_decide_eq_false h
    split_ifs at hop with hsome
    · obtain rfl := List.mem_singleton.mp hop
      simpa using hne
    · cases hop
  next =>
    obtain ⟨x, -, hx⟩ := Option.bind_eq_some_iff.mp (Option.mem_toList.mp hop)
    obtain ⟨o, -, rfl⟩ := Option.map_eq_some_iff.mp hx
    simp

/-- If a call returns a new descriptor, then this is the least number that was free, no other number
changes, and it names the new object until it is closed. -/
theorem run_opens {app : App} {env : Env} {before after : List Label} {s₁ : St} {fd : Fd}
    (hbefore : run (St.initial app env) before = some s) (ho : opening s l = true)
    (hs : step s l = some s₁) (hret : Returns s.c s₁.c [fd]) (hpos : 0 ≤ fd)
    (hafter : run s₁ after = some s')
    (hopen : Runs.Meets step (fun s l => closes fd s l = false) s₁ after) :
    IsLeast {x | x ∈ numbers ∧ s.d.fds.names x = none} fd ∧
      (∀ x, x ≠ fd → s₁.d.fds.names x = s.d.fds.names x) ∧
      ∃ o, s₁.d.fds.names fd = some o ∧ s'.d.fds.names fd = some o := by
  have hp := partition_of_run hbefore
  cases step_opens hp hs ho with
  | failed _ hneg => exact absurd hpos (not_le.mpr (hneg fd hret))
  | @opened fd' o hfd hnames hret' =>
      obtain rfl : fd = fd' := List.head_eq_of_cons_eq (hret.unique hret')
      have hassign : Numbering.step numbers s.d.fds.names (.assign fd o) = some s₁.d.fds.names := by
        rw [Numbering.step, if_pos (hp.min_free hfd), hnames]
      obtain ⟨hleast, hnew, hothers⟩ := Numbering.step_assign hassign
      have hp₁ : s₁.d.fds.Partition := (table_step hs).partition hp
      have hstep : ∀ s l s', s.d.fds.Partition → step s l = some s' →
          Runs.run (Numbering.step numbers) s.d.fds.names (numberOps s l s') =
            some s'.d.fds.names := fun _ _ _ hp hs => step_numbering hp hs
      have hJ : ∀ s l s', s.d.fds.Partition → step s l = some s' → s'.d.fds.Partition :=
        fun _ _ _ hp hs => (table_step hs).partition hp
      have hrun := Runs.run_refines hJ hstep hp₁ hafter
      have hkeep : ∀ s l s', s.d.fds.Partition → closes fd s l = false → step s l = some s' →
          ∀ op ∈ numberOps s l s', op ≠ .release fd := fun _ _ _ _ hc _ => numberOps_ne_release hc
      refine ⟨hleast, hothers, o, hnew, Numbering.kept hrun hnew ?_⟩
      exact Runs.forall_emitted hJ hkeep hp₁ hafter hopen

/-- The random device keeps its number while the socket is closed and another one made. -/
theorem run_opens_random :
    ∃ s s' : St, run (St.initial {} renumberEnv) [⟨0, .fire 0⟩] = some s ∧
      IsLeast {x | x ∈ numbers ∧ s.d.fds.names x = none} 101 ∧
      run s [⟨0, .fire 0⟩, ⟨0, .fire 0⟩, ⟨0, .fire 1⟩] = some s' ∧
      ∃ o, s'.d.fds.names 101 = some o := by
  have hrun : (run (St.initial {} renumberEnv) [⟨0, .fire 0⟩]).any (fun s : St =>
      opening s ⟨0, .fire 0⟩ = true ∧ (step s ⟨0, .fire 0⟩).any (fun s₁ : St =>
        decide (returnValues s₁.c.log = 101 :: returnValues s.c.log ∧
          (run s₁ [⟨0, .fire 0⟩, ⟨0, .fire 1⟩]).isSome ∧
          Runs.Meets step (fun s l => closes 101 s l = false) s₁
            [⟨0, .fire 0⟩, ⟨0, .fire 1⟩])) = true) = true := by
    decide +kernel
  obtain ⟨s, hs, hview⟩ := (Option.any_eq_true _ _).mp hrun
  obtain ⟨ho, hview⟩ := of_decide_eq_true hview
  obtain ⟨s₁, hs₁, hview⟩ := (Option.any_eq_true _ _).mp hview
  obtain ⟨hret, hafter, hopen⟩ := of_decide_eq_true hview
  obtain ⟨s', hs'⟩ := Option.isSome_iff_exists.mp hafter
  obtain ⟨hleast, -, o, -, hkept⟩ := run_opens hs ho hs₁ hret (by decide) hs' hopen
  exact ⟨s, s', hs, hleast, Runs.run_cons.mpr ⟨s₁, hs₁, hs'⟩, o, hkept⟩

end Grail
