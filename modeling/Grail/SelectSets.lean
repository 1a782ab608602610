import Grail.SelectTime

/-! # The sets that `select` leaves in the tracee

When a `select` is answered with `n`, the sets in the tracee should have `n` members, all of them
requested, below `nfds` and ready (`ReportsSets`).  A `select` that is answered at once stores the
ready descriptors it has found, a callback stores the one it was installed for.

`Watching` says that a callback was installed for a requested descriptor and that the sets have not
been touched since. -/

namespace Grail

open Programs SelectArgs

/-! ### What is promised -/

/-- The descriptor names a socket with data or a connection that waits, or a netlink socket with a
reply. -/
def Data.readable (d : Data) (fd : Fd) : Bool :=
  (match d.fds.sockets.find fd with
    | some sock => decide (d.rxAvailable sock ≠ 0) || (d.fds.fakeAcceptedSockets.find fd).isSome
    | none => false) ||
  (match d.fds.netlinks.find fd with
    | some nl => decide ((d.nls nl).replyQueue ≠ [])
    | none => false)

/-- The descriptor names a socket with free send space. -/
def Data.writable (d : Data) (fd : Fd) : Bool :=
  match d.fds.sockets.find fd with
  | some sock => decide (d.txAvailable sock ≠ 0)
  | none => false

/-- The number of members of the sets that are not `NULL`. -/
def FdSets.count (m : FdSets) : ℕ :=
  (m.readfds.getD ∅).card + (m.writefds.getD ∅).card + (m.exceptfds.getD ∅).card

/-- The sets `m` are those of a `select` with the arguments `args` and the result `n`. -/
structure ReportsSets (args : SelectArgs) (d : Data) (m : FdSets) (n : ℤ) : Prop where
  count : m.count = n
  read : ∀ fd ∈ m.readfds.getD ∅,
    isSet args.readfds fd = true ∧ fd < args.nfds ∧ d.readable fd = true
  write : ∀ fd ∈ m.writefds.getD ∅,
    isSet args.writefds fd = true ∧ fd < args.nfds ∧ d.writable fd = true
  except : m.exceptfds.getD ∅ = ∅

/-- When the handler, a callback or the timer of a `select` answers it with a result that is not
negative, the sets agree with it.  (What a closure of another call writes to the same thread is a
result of that call.) -/
def SelectReports (s : St) (l : Label) : Prop :=
  ∀ s' ∈ step s l, ∀ vs, taskResults s'.c.log = vs ++ taskResults s.c.log →
    ∀ τ n, (τ, n) ∈ vs → 0 ≤ n → ∀ a args, s'.c.acts τ.act = some a → a.call = .select args →
      ReportsSets args s'.d (s'.d.selMem τ.act) n

section sets

variable {args : SelectArgs} {d : Data} {fd : Fd}

theorem readable_socket {sock : SockId} (hname : d.fds.sockets.find fd = some sock)
    (h : d.rxAvailable sock ≠ 0 ∨ (d.fds.fakeAcceptedSockets.find fd).isSome = true) :
    d.readable fd = true := by
  unfold Data.readable
  simp only [hname, Bool.or_eq_true, decide_eq_true_eq]
  exact Or.inl h

theorem readable_netlink {nl : NlId} (hname : d.fds.netlinks.find fd = some nl)
    (h : (d.nls nl).replyQueue ≠ []) : d.readable fd = true := by
  unfold Data.readable
  simp only [hname, Bool.or_eq_true, decide_eq_true_eq]
  exact Or.inr h

theorem writable_socket {sock : SockId} (hname : d.fds.sockets.find fd = some sock)
    (h : d.txAvailable sock ≠ 0) : d.writable fd = true := by
  simp [Data.writable, hname, h]

theorem getD_map_const {S : Option FdSet} (r : FdSet) (h : S = none → r = ∅) :
    (S.map fun _ => r).getD ∅ = r := by
  cases S with
  | none => exact (h rfl).symm
  | some S => rfl

theorem ReportsSets.mono {d' : Data} {m : FdSets} {n : ℤ} (h : ReportsSets args d m n)
    (hr : ∀ fd, d.readable fd = true → d'.readable fd = true)
    (hw : ∀ fd, d.writable fd = true → d'.writable fd = true) : ReportsSets args d' m n where
  count := h.count
  read fd hfd := (h.read fd hfd).imp_right (And.imp_right (hr fd))
  write fd hfd := (h.write fd hfd).imp_right (And.imp_right (hw fd))
  except := h.except

/-- The sets of a callback for reading. -/
theorem ReportsSets.single_read (hset : isSet args.readfds fd = true) (hn : fd < args.nfds)
    (hr : d.readable fd = true) : ReportsSets args d (args.mem.store {fd} ∅ ∅) 1 := by
  have hread : (args.mem.store {fd} ∅ ∅).readfds.getD ∅ = {fd} := by
    refine getD_map_const _ fun hnone => ?_
    have hnone : args.readfds = none := hnone
    rw [hnone] at hset
    cases hset
  have hwrite : (args.mem.store {fd} ∅ ∅).writefds.getD ∅ = ∅ := getD_map_const _ fun _ => rfl
  have hexcept : (args.mem.store {fd} ∅ ∅).exceptfds.getD ∅ = ∅ := getD_map_const _ fun _ => rfl
  refine ⟨?_, ?_, ?_, hexcept⟩
  · simp [FdSets.count, hread, hwrite, hexcept]
  · rw [hread]
    simp [hset, hn, hr]
  · rw [hwrite]
    simp

/-- The sets of a callback for writing. -/
theorem ReportsSets.single_write (hset : isSet args.writefds fd = true) (hn : fd < args.nfds)
    (hr : d.writable fd = true) : ReportsSets args d (args.mem.store ∅ {fd} ∅) 1 := by
  have hread : (args.mem.store ∅ {fd} ∅).readfds.getD ∅ = ∅ := getD_map_const _ fun _ => rfl
  have hwrite : (args.mem.store ∅ {fd} ∅).writefds.getD ∅ = {fd} := by
    refine getD_map_const _ fun hnone => ?_
    have hnone : args.writefds = none := hnone
    rw [hnone] at hset
    cases hset
  have hexcept : (args.mem.store ∅ {fd} ∅).exceptfds.getD ∅ = ∅ := getD_map_const _ fun _ => rfl
  refine ⟨?_, ?_, ?_, hexcept⟩
  · simp [FdSets.count, hread, hwrite, hexcept]
  · rw [hread]
    simp
  · rw [hwrite]
    simp [hset, hn, hr]

/-- No requested descriptor for which `select` looks is `nfds` or more. -/
def SelectArgs.bounded (args : SelectArgs) (f : Fds) : Bool :=
  decide (∀ fd ∈ f.sockets.keys, isSet args.readfds fd = true ∨ isSet args.writefds fd = true →
    fd < args.nfds) &&
  decide (∀ fd ∈ f.netlinks.keys, isSet args.readfds fd = true → fd < args.nfds)

theorem bounded_socket {f : Fds} {sock : SockId} (h : args.bounded f = true)
    (hname : f.sockets.find fd = some sock)
    (hset : isSet args.readfds fd = true ∨ isSet args.writefds fd = true) : fd < args.nfds := by
  unfold SelectArgs.bounded at h
  rw [Bool.and_eq_true] at h
  exact of_decide_eq_true h.1 fd (StdMap.mem_keys_of_find hname) hset

theorem bounded_netlink {f : Fds} {nl : NlId} (h : args.bounded f = true)
    (hname : f.netlinks.find fd = some nl) (hset : isSet args.readfds fd = true) :
    fd < args.nfds := by
  unfold SelectArgs.bounded at h
  rw [Bool.and_eq_true] at h
  exact of_decide_eq_true h.2 fd (StdMap.mem_keys_of_find hname) hset

/-- The sets of a `select` that is answered at once. -/
theorem ReportsSets.ready {rs rn w : FdSet} (h : ReadySets args d rs rn w) (hp : d.fds.Partition)
    (hb : args.bounded d.fds = true) :
    ReportsSets args d (args.mem.store (rs ∪ rn) w ∅) (rs.card + rn.card + w.card : ℕ) := by
  have hread : (args.mem.store (rs ∪ rn) w ∅).readfds.getD ∅ = rs ∪ rn := by
    refine getD_map_const _ fun hnone => Finset.eq_empty_of_forall_notMem fun fd hfd => ?_
    have hnone : args.readfds = none := hnone
    rcases Finset.mem_union.mp hfd with hfd | hfd
    · obtain ⟨-, -, hset, -⟩ := (h.sockets fd).mp hfd
      rw [hnone] at hset
      cases hset
    · obtain ⟨-, -, hset, -⟩ := (h.netlinks fd).mp hfd
      rw [hnone] at hset
      cases hset
  have hwrite : (args.mem.store (rs ∪ rn) w ∅).writefds.getD ∅ = w := by
    refine getD_map_const _ fun hnone => Finset.eq_empty_of_forall_notMem fun fd hfd => ?_
    have hnone : args.writefds = none := hnone
    obtain ⟨-, -, hset, -⟩ := (h.write fd).mp hfd
    rw [hnone] at hset
    cases hset
  have hexcept : (args.mem.store (rs ∪ rn) w ∅).exceptfds.getD ∅ = ∅ :=
    getD_map_const _ fun _ => rfl
  have hdisj : Disjoint rs rn := by
    refine Finset.disjoint_left.mpr fun fd hs hn => ?_
    obtain ⟨sock, hsock, -⟩ := (h.sockets fd).mp hs
    obtain ⟨nl, hnl, -⟩ := (h.netlinks fd).mp hn
    exact Finset.disjoint_left.mp hp.sockets_netlinks (StdMap.mem_keys_of_find hsock)
      (StdMap.mem_keys_of_find hnl)
  refine ⟨?_, ?_, ?_, hexcept⟩
  · simp only [FdSets.count, hread, hwrite, hexcept, Finset.card_union_of_disjoint hdisj,
      Finset.card_empty, Nat.add_zero]
  · rw [hread]
    intro fd hfd
    rcases Finset.mem_union.mp hfd with hfd | hfd
    · obtain ⟨sock, hsock, hset, hready⟩ := (h.sockets fd).mp hfd
      exact ⟨hset, bounded_socket hb hsock (.inl hset), readable_socket hsock hready⟩
    · obtain ⟨nl, hnl, hset, hready⟩ := (h.netlinks fd).mp hfd
      exact ⟨hset, bounded_netlink hb hnl hset, readable_netlink hnl hready⟩
  · rw [hwrite]
    intro fd hfd
    obtain ⟨sock, hsock, hset, hready⟩ := (h.write fd).mp hfd
    exact ⟨hset, bounded_socket hb hsock (.inr hset), writable_socket hsock hready⟩

end sets

/-! ### What a callback was installed for -/

/-- What a callback of a `select` waits for. -/
inductive Watch where
  | read (fd : Fd)
  | write (fd : Fd)
deriving DecidableEq, Repr

/-- A callback of the `select` `τ` is installed. -/
inductive Watches (c : Ctl) (τ : Task) : Watch → Prop
  | recv {sock : SockId} {fd : Fd} : c.recvCallback sock = some (.select ⟨τ, fd⟩) →
      Watches c τ (.read fd)
  | accept {sock : SockId} {fd : Fd} : c.acceptCallback sock = some (.select ⟨τ, fd⟩) →
      Watches c τ (.read fd)
  | nl {nl : NlId} {fd : Fd} : c.nlCallback nl = some ⟨τ, fd⟩ → Watches c τ (.read fd)
  | send {sock : SockId} {fd : Fd} : c.sendCallback sock = some (.select ⟨τ, fd⟩) →
      Watches c τ (.write fd)

def Watch.Asked (args : SelectArgs) : Watch → Prop
  | read fd => isSet args.readfds fd = true ∧ fd < args.nfds
  | write fd => isSet args.writefds fd = true ∧ fd < args.nfds

/-- Every callback of a `select` is for a descriptor that it asked for, and its sets have not been
touched. -/
def Watching (s : St) : Prop :=
  ∀ τ w, Watches s.c τ w → ∃ a args, s.c.acts τ.act = some a ∧ a.call = .select args ∧
    w.Asked args ∧ (s.c.alreadyHandled τ.act = false → s.d.selMem τ.act = args.mem)

/-- Nothing new is waited for, and no sets are touched but those of calls that are handled. -/
structure Unwatched (s s' : St) : Prop where
  watches {τ w} : Watches s'.c τ w → Watches s.c τ w
  acts : s'.c.acts = s.c.acts
  memory {act} : s'.c.alreadyHandled act = false →
    s.c.alreadyHandled act = false ∧ s'.d.selMem act = s.d.selMem act

section watching

variable {s s' s'' : St} {d' : Data} {sock : SockId}

theorem Watching.unwatched (h : Watching s) (hu : Unwatched s s') : Watching s' := by
  intro τ w hw
  obtain ⟨a, args, ha, hcall, hasked, hmem⟩ := h τ w (hu.watches hw)
  refine ⟨a, args, hu.acts ▸ ha, hcall, hasked, fun hn => ?_⟩
  obtain ⟨hn', hsame⟩ := hu.memory hn
  rw [hsame]
  exact hmem hn'

theorem Unwatched.trans (h : Unwatched s s') (h' : Unwatched s' s'') : Unwatched s s'' where
  watches hw := h.watches (h'.watches hw)
  acts := h'.acts.trans h.acts
  memory hn := ⟨(h.memory (h'.memory hn).1).1,
    (h'.memory hn).2.trans (h.memory (h'.memory hn).1).2⟩

/-- Other fields may differ. -/
theorem Unwatched.of_fields (hr : s'.c.recvCallback = s.c.recvCallback)
    (hs : s'.c.sendCallback = s.c.sendCallback) (ha : s'.c.acceptCallback = s.c.acceptCallback)
    (hn : s'.c.nlCallback = s.c.nlCallback) (hh : s'.c.alreadyHandled = s.c.alreadyHandled)
    (hacts : s'.c.acts = s.c.acts) (hm : s'.d.selMem = s.d.selMem) : Unwatched s s' where
  watches hw := by
    cases hw with
    | recv h => exact .recv (hr ▸ h)
    | accept h => exact .accept (ha ▸ h)
    | nl h => exact .nl (hn ▸ h)
    | send h => exact .send (hs ▸ h)
  acts := hacts
  memory h := ⟨hh ▸ h, congrFun hm _⟩

theorem Unwatched.of_rests (h : Rests s.c s'.c) (hm : s'.d.selMem = s.d.selMem) :
    Unwatched s s' :=
  .of_fields h.recvCallback h.sendCallback h.acceptCallback h.nlCallback h.alreadyHandled h.acts hm

/-- A receive callback that is none of a `select` is installed. -/
theorem Unwatched.setRecv {cb : Option RecvCallback} (hcb : ∀ cl, cb ≠ some (.select cl)) :
    Unwatched s { s with c := s.c.setRecvCallback sock cb } where
  watches hw := by
    cases hw with
    | @recv sock' fd hs =>
        by_cases hk : sock' = sock
        · subst hk
          simp only [Ctl.setRecvCallback, Function.update_self] at hs
          exact absurd hs (hcb _)
        · exact .recv (by simpa [Ctl.setRecvCallback, hk] using hs)
    | accept hs => exact .accept hs
    | nl hs => exact .nl hs
    | send hs => exact .send hs
  acts := rfl
  memory hn := ⟨hn, rfl⟩

theorem Unwatched.setSend {cb : Option SendCallback} (hcb : ∀ cl, cb ≠ some (.select cl)) :
    Unwatched s { s with c := s.c.setSendCallback sock cb } where
  watches hw := by
    cases hw with
    | recv hs => exact .recv hs
    | accept hs => exact .accept hs
    | nl hs => exact .nl hs
    | @send sock' fd hs =>
        by_cases hk : sock' = sock
        · subst hk
          simp only [Ctl.setSendCallback, Function.update_self] at hs
          exact absurd hs (hcb _)
        · exact .send (by simpa [Ctl.setSendCallback, hk] using hs)
  acts := rfl
  memory hn := ⟨hn, rfl⟩

theorem Unwatched.setAccept {cb : Option AcceptCallback} (hcb : ∀ cl, cb ≠ some (.select cl)) :
    Unwatched s { s with c := s.c.setAcceptCallback sock cb } where
  watches hw := by
    cases hw with
    | recv hs => exact .recv hs
    | @accept sock' fd hs =>
        by_cases hk : sock' = sock
        · subst hk
          simp only [Ctl.setAcceptCallback, Function.update_self] at hs
          exact absurd hs (hcb _)
        · exact .accept (by simpa [Ctl.setAcceptCallback, hk] using hs)
    | nl hs => exact .nl hs
    | send hs => exact .send hs
  acts := rfl
  memory hn := ⟨hn, rfl⟩

theorem Unwatched.clearNl (nl : NlId) : Unwatched s { s with c := s.c.setNlCallback nl none } where
  watches hw := by
    cases hw with
    | recv hs => exact .recv hs
    | accept hs => exact .accept hs
    | @nl nl' fd hs =>
        by_cases hk : nl' = nl
        · subst hk
          simp [Ctl.setNlCallback] at hs
        · exact .nl (by simpa [Ctl.setNlCallback, hk] using hs)
    | send hs => exact .send hs
  acts := rfl
  memory hn := ⟨hn, rfl⟩

/-- A callback of a `select` runs: the call is handled, its sets are stored. -/
theorem Unwatched.claim {cl : SelectClosure} {r wr : FdSet} (hd : d'.selMem = s.d.selMem) :
    Unwatched s ⟨s.c.claim cl, d'.storeSel cl r wr⟩ where
  watches hw := by
    cases hw with
    | recv hs => exact .recv hs
    | accept hs => exact .accept hs
    | nl hs => exact .nl hs
    | send hs => exact .send hs
  acts := rfl
  memory {act} hn := by
    have hne : act ≠ cl.task.act := by
      rintro rfl
      simp [Ctl.claim, Ctl.setHandled, Ctl.cancelTimeout] at hn
    refine ⟨by simpa [Ctl.claim, Ctl.setHandled, Ctl.cancelTimeout, hne] using hn, ?_⟩
    simp [Data.storeSel, Data.setSel, hne, hd]

end watching

/-! ### Handlers -/

section handlers

variable {s s' : St} {call : Syscall} {res : SyscallHandlerStatusCode}

theorem Edit.selMem {p : Pid} {d d' : Data} (h : Edit call p d d') : d'.selMem = d.selMem := by
  cases h with
  | quiet hq => exact hq.selMem
  | random _ hq => exact hq.selMem
  | socket _ hq => exact hq.selMem
  | tcpSocket _ hq => exact hq.selMem
  | netlink _ hq => exact hq.selMem
  | closeSocket _ _ hq => exact hq.selMem
  | closeNetlink _ _ _ hq => exact hq.selMem
  | closeRandom _ _ hq => exact hq.selMem
  | nonblocking _ hq => exact hq.selMem
  | listenFailed _ _ hq => exact hq.selMem

theorem St.returning_selMem (sock : Option SockId) (conn : SockId) (s : St) :
    (s.returning sock conn).d.selMem = s.d.selMem := by
  unfold St.returning
  cases sock with
  | none => rfl
  | some sock =>
      simp only
      split_ifs <;> rfl

theorem NlStep.unwatched {nl : NlId} (h : NlStep nl s s') : Unwatched s s' := by
  cases h with
  | push => exact .of_fields rfl rfl rfl rfl rfl rfl rfl
  | route => exact .of_fields rfl rfl rfl rfl rfl rfl rfl
  | @notify cl c' hcb hn hq hf =>
      have hclaim : Unwatched s ⟨s.c.claim cl, s.d.storeSel cl {cl.fdnr} ∅⟩ := .claim rfl
      have hfinish : Unwatched ⟨s.c.claim cl, s.d.storeSel cl {cl.fdnr} ∅⟩
          ⟨c', s.d.storeSel cl {cl.fdnr} ∅⟩ := .of_rests (Calm.of_finish hf).toRests rfl
      exact (hclaim.trans hfinish).trans (.clearNl nl)

theorem NlWork.unwatched {nl : NlId} (h : NlWork nl s s') : Unwatched s s' := by
  induction h with
  | refl => exact .of_fields rfl rfl rfl rfl rfl rfl rfl
  | tail _ hstep ih => exact ih.trans hstep.unwatched

/-- Only `select` waits with callbacks of a `select`. -/
theorem Handled.unwatched (h : Handled call s res s') (hres : res ≠ .error)
    (hcall : call.isSelect = false) : Unwatched s s' := by
  cases h with
  | error => exact absurd rfl hres
  | answered _ _ _ he hpre hc =>
      exact .of_rests ((Calm.of_prelude hpre).trans (Calm.of_completes hc)).toRests he.selMem
  | @listened fd _ sock d' c' _ _ _ _ hq hc =>
      have hcalm : Unwatched s ⟨c', d'⟩ := .of_rests (Calm.of_completes hc).toRests hq.selMem
      exact hcalm.trans (.setAccept nofun)
  | accepted _ _ _ _ hq hc =>
      refine .of_rests ?_ ((St.returning_selMem _ _ _).trans hq.selMem)
      rw [St.returning_c]
      exact (Calm.of_completes hc).toRests
  | @nlSend nl v _ s₁ c' _ _ hw hc =>
      have hcalm : Unwatched s₁ ⟨c', s₁.d⟩ := .of_rests (Calm.of_completes hc).toRests rfl
      exact hw.unwatched.trans hcalm
  | nlOther _ _ _ hq hc => exact .of_rests (Calm.of_completes hc).toRests hq.selMem
  | passed _ _ _ hq hc => exact .of_rests (Calm.of_passes hc).toRests hq.selMem
  | cloned _ hc => exact .of_rests ((Calm.of_passes hc).trans (Calm.cloned _ _)).toRests rfl
  | unadvanced _ _ hq => exact .of_fields rfl rfl rfl rfl rfl rfl hq.selMem
  | systemExit => exact .of_fields rfl rfl rfl rfl rfl rfl rfl
  | @recvNow fd sock rx d' c' _ _ _ hq hc =>
      have hcalm : Unwatched s ⟨c', d'⟩ := .of_rests (Calm.of_reads hc).toRests hq.selMem
      exact hcalm.trans (.setRecv nofun)
  | recvWait _ _ _ _ hown =>
      refine .setRecv fun cl hcl => ?_
      cases hcl
      cases hown
  | writeWait => exact .setSend nofun
  | connectRefused _ _ _ hq => exact .of_fields rfl rfl rfl rfl rfl rfl hq.selMem
  | connectWait _ _ _ hq => exact .of_fields rfl rfl rfl rfl rfl rfl hq.selMem
  | @connectNow fd _ sock d' c' _ _ _ hq hc =>
      have hset : Unwatched s { s with c := s.c.setConnectCallback sock (some ⟨s.c.task, fd⟩) } :=
        .of_fields rfl rfl rfl rfl rfl rfl rfl
      exact hset.trans (.of_rests (Calm.of_finish hc).toRests hq.selMem)
  | acceptWait => exact .setAccept nofun
  | selectNow hcall' =>
      subst hcall'
      cases hcall
  | selectWait hcall' =>
      subst hcall'
      cases hcall
  | sleeping => exact .of_fields rfl rfl rfl rfl rfl rfl rfl

theorem handleSelect_txAvailable (args : SelectArgs) :
    wp (handleSelect args) (fun res s' => res ≠ .error → s'.d.txAvailable = s.d.txAvailable) s := by
  have finish : ∀ (v : ℤ) (s₁ : St), s₁.d.txAvailable = s.d.txAvailable →
      wp (fake v .success)
        (fun res s' => res ≠ .error → s'.d.txAvailable = s.d.txAvailable) s₁ :=
    fun v s₁ h₁ => wp_fake (fun _ hres => absurd rfl hres) fun _ _ _ => h₁
  unfold handleSelect
  simp only [wp_bind, wp_get, wp_modifyData]
  cases selectMayBlock args s.d with
  | none => exact (wp_pure _ _ _).mpr fun hres => absurd rfl hres
  | some mayBlock =>
      simp only
      cases selectPass args s.d s.c.task ⟨mayBlock, false, ∅, ∅, 0, s.c⟩ with
      | none => exact (wp_pure _ _ _).mpr fun hres => absurd rfl hres
      | some v =>
          simp only [wp_bind, wp_modifyCtl, wp_ite]
          refine ⟨fun _ => ?_, fun _ => ?_⟩
          · unfold selectBlock
            cases args.timeout with
            | none => exact (wp_pure _ _ _).mpr fun _ => rfl
            | some t =>
                simp only [wp_bind, wp_schedule, wp_pure]
                exact fun _ _ => rfl
          · unfold selectAnswer
            simp only [wp_bind, wp_get, wp_ite, wp_modifyCtl]
            refine ⟨fun _ => ?_, fun _ => ?_⟩ <;>
              refine wp_storeFdSets ⟨fun _ => wp_memcpyToTracee fun _ => finish _ _ rfl,
                fun _ => finish _ _ rfl⟩

theorem Watches.armed {c : Ctl} {τ : Task} {w : Watch} (h : Watches c τ w) : Armed c .select τ := by
  cases h with
  | recv h => exact .recv h rfl
  | accept h => exact .accept h rfl
  | nl h => exact .nl h rfl rfl
  | send h => exact .send h rfl

/-- A callback that is installed belongs to an earlier dispatch. -/
theorem Starting.act_ne {c : Ctl} (hs : Starting call c) {τ : Task} {w : Watch}
    (hw : Watches c τ w) : τ.act ≠ c.task.act := by
  intro hact
  obtain ⟨a, ha, hp, -⟩ := hs.act
  obtain ⟨a', ha', hp', -⟩ := hs.known.armed hw.armed
  rw [hact, ha, Option.some.injEq] at ha'
  subst ha'
  have hτ : τ = c.task := by
    obtain ⟨thread, act⟩ := τ
    cases hact
    rw [Task.mk.injEq]
    exact ⟨hp'.symm.trans hp, rfl⟩
  exact hs.fresh .select (hτ ▸ hw.armed)

/-- The handler of `select` stores what it answers, or keeps the sets and waits for what is
asked. -/
theorem Handled.select_reports {args : SelectArgs} (h : Handled (.select args) s res s')
    (hres : res ≠ .error) (htx : s'.d.txAvailable = s.d.txAvailable)
    (hs : Starting (.select args) s.c) (hw : Watching s) (hp : s.d.fds.Partition)
    (hb : args.bounded s.d.fds = true) :
    Watching s' ∧ ∃ vs, taskResults s'.c.log = vs ++ taskResults s.c.log ∧
      ∀ τ n, (τ, n) ∈ vs → τ = s.c.task ∧ ReportsSets args s'.d (s'.d.selMem τ.act) n := by
  cases h with
  | error => exact absurd rfl hres
  | answered hplain => cases hplain
  | nlSend hnl => cases hnl
  | nlOther hnl => cases hnl
  | passed hplain => cases hplain
  | unadvanced hun => cases hun
  | recvNow hrecv => cases hrecv
  | recvWait hrecv => cases hrecv
  | @selectNow args' rs rn wr d' c' hcall hready _ hq hc =>
      cases hcall
      have hcalm := Calm.of_completes hc
      have hmem : d'.selMem s.c.task.act = args.mem.store (rs ∪ rn) wr ∅ := by
        rw [hq.selMem]
        exact Data.selMem_setSel ..
      constructor
      · intro τ w hτ
        have hold : Watches s.c τ w := by
          have hu : Unwatched s ⟨c', s.d⟩ := .of_rests hcalm.toRests rfl
          exact hu.watches hτ
        obtain ⟨a, args', ha, hcall, hasked, hsame⟩ := hw τ w hold
        refine ⟨a, args', hcalm.acts ▸ ha, hcall, hasked, fun hn => ?_⟩
        have hn : s.c.alreadyHandled τ.act = false := hcalm.alreadyHandled ▸ hn
        rw [← hsame hn, hq.selMem]
        exact Function.update_of_ne (hs.act_ne hold) _ _
      · refine ⟨_, (Gives.of_completes hc).results, fun τ n hmem' => ?_⟩
        rw [List.mem_singleton, Prod.mk.injEq] at hmem'
        obtain ⟨rfl, rfl⟩ := hmem'
        refine ⟨rfl, ?_⟩
        rw [hmem]
        refine (ReportsSets.ready hready hp hb).mono ?_ ?_
        · intro fd hfd
          unfold Data.readable at hfd ⊢
          rwa [hq.fds, hq.rxAvailable, hq.nls]
        · intro fd hfd
          have htx : d'.txAvailable = s.d.txAvailable := htx
          unfold Data.writable at hfd ⊢
          rwa [hq.fds, htx]
  | @selectWait args' c₁ c' hcall _ harms _ ht =>
      cases hcall
      have hslots : c'.recvCallback = c₁.recvCallback ∧ c'.sendCallback = c₁.sendCallback ∧
          c'.acceptCallback = c₁.acceptCallback ∧ c'.nlCallback = c₁.nlCallback := by
        cases ht <;> exact ⟨rfl, rfl, rfl, rfl⟩
      have hrest : c'.acts = s.c.acts ∧ c'.alreadyHandled = s.c.alreadyHandled ∧
          c'.log = s.c.log := by
        cases ht <;> (rw [harms.frame]; exact ⟨rfl, rfl, rfl⟩)
      obtain ⟨hrecv, hsend, haccept, hnl⟩ := hslots
      obtain ⟨hacts, hhandled, hlog⟩ := hrest
      refine ⟨?_, [], congrArg taskResults hlog, by simp⟩
      have old : ∀ τ w, Watches s.c τ w → ∃ a args', c'.acts τ.act = some a ∧
          a.call = .select args' ∧ w.Asked args' ∧ (c'.alreadyHandled τ.act = false →
            (s.d.setSel s.c.task.act args.mem).selMem τ.act = args'.mem) := by
        intro τ w hold
        obtain ⟨a, args', ha, hcall, hasked, hsame⟩ := hw τ w hold
        refine ⟨a, args', hacts ▸ ha, hcall, hasked, fun hn => ?_⟩
        rw [← hsame (hhandled ▸ hn)]
        exact Function.update_of_ne (hs.act_ne hold) _ _
      have new : ∀ w : Watch, w.Asked args → ∃ a args', c'.acts s.c.task.act = some a ∧
          a.call = .select args' ∧ w.Asked args' ∧ (c'.alreadyHandled s.c.task.act = false →
            (s.d.setSel s.c.task.act args.mem).selMem s.c.task.act = args'.mem) := by
        intro w hasked
        obtain ⟨a, ha, -, hcall⟩ := hs.act
        exact ⟨a, args, hacts ▸ ha, hcall, hasked, fun _ => Data.selMem_setSel ..⟩
      intro τ w hτ
      cases hτ with
      | @recv sock fd hcb =>
          rw [hrecv] at hcb
          rcases harms.recv sock with hold | ⟨fd', hname, hset, -, -, hnew⟩
          · exact old τ _ (.recv (hold ▸ hcb))
          · cases hnew.symm.trans hcb
            exact new (.read fd) ⟨hset, bounded_socket hb hname (.inl hset)⟩
      | @accept sock fd hcb =>
          rw [haccept] at hcb
          rcases harms.accept sock with hold | ⟨fd', hname, hset, -, -, hnew⟩
          · exact old τ _ (.accept (hold ▸ hcb))
          · cases hnew.symm.trans hcb
            exact new (.read fd) ⟨hset, bounded_socket hb hname (.inl hset)⟩
      | @nl nl fd hcb =>
          rw [hnl] at hcb
          rcases harms.nl nl with hold | ⟨fd', hname, hset, hnew⟩
          · exact old τ _ (.nl (hold ▸ hcb))
          · cases hnew.symm.trans hcb
            exact new (.read fd) ⟨hset, bounded_netlink hb hname hset⟩
      | @send sock fd hcb =>
          rw [hsend] at hcb
          rcases harms.send sock with hold | ⟨fd', hname, hset, -, hnew⟩
          · exact old τ _ (.send (hold ▸ hcb))
          · cases hnew.symm.trans hcb
            exact new (.write fd) ⟨hset, bounded_socket hb hname (.inr hset)⟩
  | _ => contradiction

/-- The result of a callback that has run agrees with its sets. -/
def Reported (s : St) (x : Task × ℤ) : Prop :=
  s.c.alreadyHandled x.1.act = true ∧ ∃ a args, s.c.acts x.1.act = some a ∧
    a.call = .select args ∧ ReportsSets args s.d (s.d.selMem x.1.act) x.2

/-- The sets of a callback for reading that runs now. -/
theorem Watching.reported_read (hw : Watching s) {cl : SelectClosure}
    (hcb : Watches s.c cl.task (.read cl.fdnr)) (hn : s.c.alreadyHandled cl.task.act = false)
    (hacts : s'.c.acts = s.c.acts) (hh : s'.c.alreadyHandled cl.task.act = true)
    (hm : s'.d.selMem cl.task.act = (s.d.selMem cl.task.act).store {cl.fdnr} ∅ ∅)
    (hr : s'.d.readable cl.fdnr = true) : Reported s' (cl.task, 1) := by
  obtain ⟨a, args, ha, hcall, ⟨hset, hlt⟩, hsame⟩ := hw _ _ hcb
  refine ⟨hh, a, args, hacts ▸ ha, hcall, ?_⟩
  show ReportsSets args s'.d (s'.d.selMem cl.task.act) 1
  rw [hm, hsame hn]
  exact .single_read hset hlt hr

/-- The sets of a callback for writing that runs now. -/
theorem Watching.reported_write (hw : Watching s) {cl : SelectClosure}
    (hcb : Watches s.c cl.task (.write cl.fdnr)) (hn : s.c.alreadyHandled cl.task.act = false)
    (hacts : s'.c.acts = s.c.acts) (hh : s'.c.alreadyHandled cl.task.act = true)
    (hm : s'.d.selMem cl.task.act = (s.d.selMem cl.task.act).store ∅ {cl.fdnr} ∅)
    (hr : s'.d.writable cl.fdnr = true) : Reported s' (cl.task, 1) := by
  obtain ⟨a, args, ha, hcall, ⟨hset, hlt⟩, hsame⟩ := hw _ _ hcb
  refine ⟨hh, a, args, hacts ▸ ha, hcall, ?_⟩
  show ReportsSets args s'.d (s'.d.selMem cl.task.act) 1
  rw [hm, hsame hn]
  exact .single_write hset hlt hr

theorem handled_claim (cl : SelectClosure) (c : Ctl) :
    (c.claim cl).alreadyHandled cl.task.act = true := Function.update_self ..

/-- The callback of a waiting `select` finds a reply. -/
def NlReady (nl : NlId) (s : St) : Prop :=
  ∀ cl, s.c.nlCallback nl = some cl → s.c.alreadyHandled cl.task.act = false →
    s.d.fds.netlinks.find cl.fdnr = some nl ∧
      ((s.d.nls nl).replyQueue ≠ [] ∨ s.c.app.devices ≠ [])

theorem readable_push {d : Data} {nl : NlId} {replies : List Reply} {fd : Fd}
    (h : d.readable fd = true) : (d.push nl replies).readable fd = true := by
  unfold Data.readable at h ⊢
  rw [Bool.or_eq_true] at h ⊢
  refine h.imp id fun h => ?_
  show (match d.fds.netlinks.find fd with
    | some nl' => decide (((d.push nl replies).nls nl').replyQueue ≠ [])
    | none => false) = true
  cases hname : d.fds.netlinks.find fd with
  | none =>
      rw [hname] at h
      exact h
  | some nl' =>
      simp only [hname, decide_eq_true_eq] at h ⊢
      by_cases hk : nl' = nl
      · subst hk
        simp [Data.push, Data.setNetlink, h]
      · simpa [Data.push, Data.setNetlink, hk] using h

/-- The sets of an earlier result are not touched. -/
theorem Reported.keep {x : Task × ℤ} (h : Reported s x) (hacts : s'.c.acts = s.c.acts)
    (hh : s'.c.alreadyHandled x.1.act = true) (hm : s'.d.selMem x.1.act = s.d.selMem x.1.act)
    (hr : ∀ fd, s.d.readable fd = true → s'.d.readable fd = true)
    (hw : ∀ fd, s.d.writable fd = true → s'.d.writable fd = true) : Reported s' x := by
  obtain ⟨-, a, args, ha, hcall, hrep⟩ := h
  refine ⟨hh, a, args, hacts ▸ ha, hcall, ?_⟩
  rw [hm]
  exact hrep.mono hr hw

theorem NlStep.ready {nl : NlId} (h : NlStep nl s s') (hr : NlReady nl s) : NlReady nl s' := by
  cases h with
  | push =>
      intro cl hcb hn
      obtain ⟨hname, hq⟩ := hr cl hcb hn
      refine ⟨hname, hq.imp_left fun hq => ?_⟩
      simp [Data.push, Data.setNetlink, hq]
  | route => exact hr
  | notify =>
      intro cl hcb
      simp [Ctl.setNlCallback] at hcb

/-- Between the requests of one call the callback of a waiting `select` runs at most once, and finds
a reply. -/
theorem NlWork.reports {nl : NlId} (h : NlWork nl s s') (hw : Watching s) (hr : NlReady nl s) :
    NlReady nl s' ∧ ∃ vs, taskResults s'.c.log = vs ++ taskResults s.c.log ∧
      ∀ x ∈ vs, Reported s' x := by
  induction h with
  | refl => exact ⟨hr, [], rfl, by simp⟩
  | @tail s₁ s₂ hwork hstep ih =>
      obtain ⟨hr₁, vs, hvs, hrep⟩ := ih
      refine ⟨hstep.ready hr₁, ?_⟩
      cases hstep with
      | push =>
          exact ⟨vs, hvs, fun x hx => (hrep x hx).keep rfl (hrep x hx).1 rfl
            (fun _ => readable_push) fun _ h => h⟩
      | route =>
          exact ⟨vs, hvs, fun x hx => (hrep x hx).keep rfl (hrep x hx).1 rfl
            (fun _ h => h) fun _ h => h⟩
      | @notify cl c' hcb hn hq hf =>
          obtain ⟨hname, hready⟩ := hr₁ cl hcb hn
          have hcalm := Calm.of_finish hf
          have hg := (Gives.claim cl s₁.c).trans (Gives.of_finish hf)
          have hqueue : (s₁.d.nls nl).replyQueue ≠ [] := by
            rcases hq with hq | hq
            · exact hq
            · exact hready.resolve_right (fun h => h hq)
          have hhandled : ∀ act, s₁.c.alreadyHandled act = true ∨ act = cl.task.act →
              c'.alreadyHandled act = true := by
            intro act hact
            rw [hcalm.alreadyHandled]
            rcases hact with hact | hact <;>
              simp [Ctl.claim, Ctl.setHandled, Ctl.cancelTimeout, Function.update_apply, hact]
          have hresults : taskResults c'.log = ((cl.task, 1) :: vs) ++ taskResults s.c.log :=
            hg.results.trans (congrArg ([(cl.task, 1)] ++ ·) hvs)
          refine ⟨_, hresults, fun x hx => ?_⟩
          rcases List.mem_cons.mp hx with rfl | hx
          · exact (hw.unwatched (NlWork.unwatched hwork)).reported_read (.nl hcb) hn hcalm.acts
              (hhandled _ (.inr rfl)) (Data.selMem_setSel ..)
              (readable_netlink hname hqueue)
          · -- an earlier result is that of another call
            have hne : x.1.act ≠ cl.task.act := by
              intro hact
              rw [← hact, (hrep x hx).1] at hn
              cases hn
            exact (hrep x hx).keep hcalm.acts (hhandled _ (.inl (hrep x hx).1))
              (Function.update_of_ne hne _ _) (fun _ h => h) fun _ h => h

end handlers

end Grail
